import Whisker.Failure
import Whisker.Library.Path
import Whisker.Text.Utf8

/-! Files in directories, as a library of templates sees them. -/

namespace Whisker

inductive FileTree.Entry where
  | file (content : List UInt8)
  | directory

/-- Entries by absolute path. Directories above an entry are there with it. -/
structure FileTree where
  entries : List (List Text × FileTree.Entry)

namespace FileTree

def empty : FileTree := ⟨[]⟩

def entry? (tree : FileTree) (parts : List Text) : Option Entry :=
  (tree.entries.find? fun entry => entry.1 = parts).map (·.2)

def hasDirectory (tree : FileTree) (parts : List Text) : Bool :=
  parts.isEmpty || tree.entries.any fun (known, entry) =>
    match entry with
    | .directory => parts.isPrefixOf known
    | .file _ => parts.isPrefixOf known && known ≠ parts

/-! ## Paths -/

/-- The most bytes of a name in a directory. -/
def longestName : Nat := 255

/-- The most bytes of a path. -/
def longestPath : Nat := 4095

/-- The number of bytes of a text in files and paths. -/
def size (t : Text) : Nat := t.foldl (fun bytes c => bytes + c.utf8Size) 0

/-- The steps from one entry to the next. Each name is looked up in a directory, and only there it
matters whether it is too long. -/
def walk (tree : FileTree) : List Text → List Text → Except Failure (Option (List Text))
  | here, [] => .ok (some here)
  | here, part :: parts =>
    if !tree.hasDirectory here then .ok none
    else if part = ['.', '.'] then tree.walk here.dropLast parts
    else if longestName < size part then .error .fileNameTooLong
    else tree.walk (here ++ [part]) parts

/-- Where a path leads from the root. Relative paths lead nowhere. -/
def locate (tree : FileTree) (p : Path) : Except Failure (Option (List Text)) :=
  if p.text.contains '\x00' then .ok none
  else if longestPath < size p.text then .error .fileNameTooLong
  else if p.isAbsolute then tree.walk [] p.parts
  else (empty.walk [] p.parts).map fun _ => none

/-- Whether there is a directory. The one that relative paths start at is there, and so are those
above it. -/
def isDirectory (tree : FileTree) (p : Path) : Except Failure Bool :=
  (tree.locate p).map fun place =>
    place.any tree.hasDirectory || (!p.isAbsolute && p.parts.all (· = ['.', '.']))

/-- The bytes of a file. -/
def file? (tree : FileTree) (p : Path) : Except Failure (Option (List UInt8)) :=
  (tree.locate p).map fun place =>
    match place.bind tree.entry? with
    | some (.file content) => some content
    | _ => none

/-- Whether there is a file; at a path that cannot be, there is none. -/
def hasFile (tree : FileTree) (p : Path) : Bool :=
  match tree.file? p with
  | .ok content => content.isSome
  | .error _ => false

/-- The text of a file, if there is one at the path. -/
def read? (tree : FileTree) (p : Path) : Except Failure (Option Text) := do
  match ← tree.file? p with
  | none => return none
  | some content =>
    match Text.ofUtf8? content with
    | some t => return some (Text.unifyLineEnds t)
    | none => throw .undecodable

end FileTree

end Whisker
