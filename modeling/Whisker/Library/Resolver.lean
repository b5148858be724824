import Whisker.Entries
import Whisker.Library.FileTree
import Whisker.Text.Quoted

/-! Resolvers: where the texts of named templates come from. -/

namespace Whisker

/-- Templates in files. A name is split at the separator into the directories and the file below a
search path. -/
structure Shelf where
  /-- The path that was added last comes first. -/
  paths : List Path
  suffix : Text
  separator : Text

namespace Shelf

def standardSuffix : Text := ".mustache".toList

/-- The file of a name below a search path. A name without segments has none, nor has one with a
segment that stands for a directory. -/
def fileOf? (shelf : Shelf) (name : Text) : Except Failure (Option Path) :=
  if shelf.separator.isEmpty then .error .emptySeparator
  else
    let segments := (Text.splitOn shelf.separator name).filter (!·.isEmpty)
    if segments.isEmpty || segments.any fun s => s = ['.'] || s = ['.', '.'] then .ok none
    else
      let path := (segments.map Path.ofText).foldl Path.join ⟨[], []⟩
      if shelf.suffix.isEmpty then .ok (some path)
      else match path.name? with
        | none => .error (.emptyFileName path.text)
        | some last =>
          let last := last ++ shelf.suffix
          match path.withName? last with
          | some file => .ok (some file)
          | none => .error (.badFileName last)

/-- The text of a name's file in the first search path that has it. -/
def resolve (files : FileTree) (shelf : Shelf) (name : Text) : Except Failure (Option Text) :=
  match shelf.fileOf? name with
  | .error e => .error e
  | .ok none => .ok none
  | .ok (some file) =>
    match (shelf.paths.map (·.join file)).find? files.hasFile with
    | some path => files.read? path
    | none => .ok none

/-- Adds a search path in front. It must be a directory. -/
def addPath (files : FileTree) (path : Path) (shelf : Shelf) : Except Failure Shelf := do
  if ← files.isDirectory path then return { shelf with paths := path.normalize :: shelf.paths }
  else throw (.notADirectory path.text)

def ofPaths (files : FileTree) (paths : List Path) (suffix separator : Text) :
    Except Failure Shelf :=
  paths.foldlM (fun shelf path => addPath files path shelf) ⟨[], suffix, separator⟩

end Shelf

/-- What a resolver is, apart from its key. -/
inductive Resolver.Kind where
  | memory
  | files
  | foreign
  | aggregate
deriving DecidableEq

namespace Resolver.Kind

def name : Resolver.Kind → String
  | .memory => "MapResolver"
  | .files => "FileSystemResolver"
  | .foreign => "Resolver"
  | .aggregate => "AggregateResolver"

end Resolver.Kind

/-- Each resolver has a key, by which its queries are known. -/
inductive Resolver where
  | memory (key : Nat) (templates : Entries Text)
  | files (key : Nat) (shelf : Shelf)
  /-- A resolver that can do nothing but resolve. -/
  | foreign (key : Nat) (templates : Entries Text)
  /-- Members with their priorities, in the order in which they are asked. -/
  | aggregate (key : Nat) (members : List (Int × Resolver))

namespace Resolver

def key : Resolver → Nat
  | .memory key _ | .files key _ | .foreign key _ | .aggregate key _ => key

def kind : Resolver → Kind
  | .memory .. => .memory
  | .files .. => .files
  | .foreign .. => .foreign
  | .aggregate .. => .aggregate

/-- What a resolver answers, and the keys of the resolvers that were asked, in order. Aggregates do
not count as asked. -/
structure Answer where
  result : Except Failure (Option Text)
  asked : List Nat

mutual

def resolve (files : FileTree) (name : Text) : Resolver → Answer
  | .memory key templates => ⟨.ok (templates.get? name), [key]⟩
  | .files key shelf => ⟨shelf.resolve files name, [key]⟩
  | .foreign key templates => ⟨.ok (templates.get? name), [key]⟩
  | .aggregate _ members => resolveMembers files name members

/-- The first answer of a member that knows the name. -/
def resolveMembers (files : FileTree) (name : Text) : List (Int × Resolver) → Answer
  | [] => ⟨.ok none, []⟩
  | (_, member) :: members =>
    let first := resolve files name member
    match first.result with
    | .ok none =>
      let others := resolveMembers files name members
      ⟨others.result, first.asked ++ others.asked⟩
    | _ => first

end

/-! ## Aggregates -/

/-- Puts a member behind those of at least its priority. -/
def insertMember (priority : Int) (member : Resolver) :
    List (Int × Resolver) → List (Int × Resolver)
  | [] => [(priority, member)]
  | (p, m) :: members =>
    if priority ≤ p then (p, m) :: insertMember priority member members
    else (priority, member) :: (p, m) :: members

def standardPriority : Int := 1

/-- Attaches a member to an aggregate; other resolvers have no members. -/
def attach (r : Resolver) (priority : Int) (member : Resolver) : Resolver :=
  match r with
  | .aggregate key members => .aggregate key (insertMember priority member members)
  | r => r

def members : Resolver → List Resolver
  | .aggregate _ members => members.map (·.2)
  | _ => []

/-- The first member of an aggregate that satisfies `p`. -/
def member? (p : Resolver → Bool) (r : Resolver) : Option Resolver := r.members.find? p

/-- Whether there is a member of a kind, or any at all. -/
def hasKind (kind : Option Kind) (r : Resolver) : Bool :=
  r.members.any fun member => kind.all (member.kind = ·)

/-- The first member of a kind, or the first of all. -/
def memberOfKind (kind : Option Kind) (r : Resolver) : Except Failure Resolver :=
  match r.member? fun member => kind.all (member.kind = ·) with
  | some member => .ok member
  | none => .error (.noSuchResolver ((kind.map Kind.name).getD "TemplateResolver").toList)

/-! ## Change -/

mutual

/-- Applies `f` to the resolver with the given key, wherever it is. -/
def modify (target : Nat) (f : Resolver → Resolver) : Resolver → Resolver
  | .memory key templates =>
    if key = target then f (.memory key templates) else .memory key templates
  | .files key shelf => if key = target then f (.files key shelf) else .files key shelf
  | .foreign key templates =>
    if key = target then f (.foreign key templates) else .foreign key templates
  | .aggregate key members =>
    if key = target then f (.aggregate key members)
    else .aggregate key (modifyMembers target f members)

def modifyMembers (target : Nat) (f : Resolver → Resolver) :
    List (Int × Resolver) → List (Int × Resolver)
  | [] => []
  | (priority, member) :: members =>
    (priority, modify target f member) :: modifyMembers target f members

end

mutual

/-- The resolver with the given key, wherever it is. -/
def find? (target : Nat) : Resolver → Option Resolver
  | .aggregate key members =>
    if key = target then some (.aggregate key members) else findMember? target members
  | r => if r.key = target then some r else none

def findMember? (target : Nat) : List (Int × Resolver) → Option Resolver
  | [] => none
  | (_, member) :: members => (find? target member).or (findMember? target members)

end

/-- Attaches a member to the resolver with the given key, wherever it is. -/
def attachAt (r : Resolver) (target : Nat) (priority : Int) (member : Resolver) : Resolver :=
  r.modify target (·.attach priority member)

/-- Stores a template in a resolver in memory. -/
def setTemplate (name text : Text) : Resolver → Resolver
  | .memory key templates => .memory key (templates.put name text)
  | r => r

/-! ## Description -/

/-- What a resolver holds, apart from texts. -/
def describe : Resolver → String
  | .memory _ templates => s!"MapResolver({(Text.quotedList templates.sortedNames).string})"
  | .files _ shelf =>
    s!"FileSystemResolver({(Text.quotedList (shelf.paths.map Path.text)).string}, " ++
      s!"suffix={(Text.quoted shelf.suffix).string})"
  | .foreign .. => "Resolver"
  | .aggregate _ members => s!"AggregateResolver({members.length})"

end Resolver

end Whisker
