import Whisker.Library.FileTree
import Whisker.Settings.Options
import Whisker.Yaml.Data
import Whisker.Yaml.Document

/-! Settings in files: a mapping of options, found in a directory or in one above it. What makes data
of a text and what checks options are given to the loading, which does the same with any of them. -/

namespace Whisker

namespace Settings

/-- The name of the file that holds the settings of a directory. -/
def fileName : Text := ".stache.yaml".toList

/-! ## Loading -/

/-- Makes data of the text of a document. -/
abbrev Reader := Text → Except Yaml.Defect Yaml

/-- What a file gives for an option: data as it was read, or paths as seen from its directory. -/
inductive Given where
  | data (v : Yaml)
  | paths (ps : List Path)

/-- Makes settings of the options in a file, or says what is wrong with them. -/
abbrev Validator := List (Yaml × Given) → Except Failure (Except (List Problem) Settings)

/-- The option of an entry. The items of a list of template paths are paths as seen from a
directory; whatever the list holds is read as text. -/
def givenOf (directory : Path) (entry : Yaml × Yaml) : Except Failure (Yaml × Given) :=
  match entry with
  | (.text name, .list items) => do
    if name = "template_paths".toList then
      let texts ← items.mapM Yaml.toText
      return (.text name, .paths (texts.map fun t => directory.join (Path.ofText t)))
    else return (.text name, .data (.list items))
  | (name, v) => return (name, .data v)

/-- The settings that a validator makes of a document. A document that counts as nothing has no
options. -/
def ofDocument (validator : Validator) (path : Path) (document : Yaml) :
    Except Failure Settings := do
  let entries ← if document.isNothing then pure []
    else match document with
      | .dict _ entries => pure entries
      | _ => throw (.settingsNotMapping path.text)
  let options ← entries.mapM (givenOf path.parent)
  (← validator options).mapError (.badSettingsFile path.text)

/-- The settings that a validator makes of what a reader reads in a file. -/
def loadBy (reader : Reader) (validator : Validator) (files : FileTree) (path : Path) :
    Except Failure Settings := do
  match ← files.read? path with
  | none => throw (.settingsNotFound path.text)
  | some t =>
    match reader t with
    | .ok document => ofDocument validator path document
    | .error .malformed => throw (.settingsUnreadable path.text)
    | .error (.failure f) => throw f

/-! ## The reader and the validator that run -/

/-- An option as it would be given to an engine. -/
def Given.toValue : Given → Value
  | .data v => v.toOption
  | .paths ps => .list (ps.map fun p => .text p.text)

/-- Checks the options in a file as the options of an engine are checked. -/
def validate : Validator := fun options =>
  let given : Options := options.map (Prod.map Yaml.toValue Given.toValue)
  ((ofOptions given).run (Heap.fresh 0)).1

def load (files : FileTree) (path : Path) : Except Failure Settings :=
  loadBy Yaml.ofText validate files path

/-! ## Finding -/

/-- The first of the paths at which there is a file. -/
def firstFile? (files : FileTree) : List Path → Except Failure (Option Path)
  | [] => return none
  | path :: paths => do
    if (← files.file? path).isSome then return some path else firstFile? files paths

/-- The nearest settings file in a directory or above it. -/
def find? (files : FileTree) (start : Path) : Except Failure (Option Path) :=
  let here := start.normalize
  let directories := (List.range (here.parts.length + 1)).map fun up =>
    (⟨here.anchor, here.parts.take (here.parts.length - up)⟩ : Path)
  if start.text.contains '\x00' then throw .nulInPath
  else firstFile? files (directories.map (·.join ⟨[], [fileName]⟩))

end Settings

end Whisker
