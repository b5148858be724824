import Whisker.Settings.Basic
import Whisker.Settings.Field

/-! Settings from options: each option is read by itself, and all problems are reported together. -/

namespace Whisker.Settings

/-- Options by name. A name that is no text is a problem of its own. -/
abbrev Options := List (Value × Value)

namespace Options

def ofEntries (entries : Entries Value) : Options := entries.map fun (name, v) => (.text name, v)

def get? (options : Options) (name : Text) : Option Value :=
  options.findSome? fun (known, v) =>
    match known with
    | .text t => if t = name then some v else none
    | _ => none

def fieldNames : List Text :=
  ["delimiters", "pragmas", "indent_partials", "strict_partials", "strict_pragmas",
    "partials_inherit_pragmas", "max_partial_depth", "template_paths", "template_suffix",
    "cache"].map String.toList

/-- The step to an option: names and numbers stand for themselves. -/
def step : Value → Step
  | .text t => .name t
  | .bool b => .number (if b then 1 else 0)
  | .int i =>
    if Field.isWord i then .number i
    else if Text.isWritable i then .name (Text.ofInt i)
    else .name "<unprintable int object>".toList
  | v => .name v.printed

def nameProblem? (name : Value) : Option Problem :=
  match name with
  | .text t => if fieldNames.contains t then none else some ⟨[.name t], .unknownField⟩
  | _ => some ⟨[step name], .nameNotText⟩

/-- Reads options while it collects their problems. -/
abbrev Checking := StateT (List Problem) Reading

/-- The value of an option; the standard one if there is none, or if there is a problem. -/
def read {α : Type} (options : Options) (name : String) (field : Field α) (standard : α) :
    Checking α := do
  match options.get? name.toList with
  | none => return standard
  | some v =>
    match ← field v with
    | .ok x => return x
    | .error problems => do
      modify (· ++ problems.map fun (index, kind) =>
        let inner := match index with
          | some i => [Step.number i]
          | none => []
        ⟨.name name.toList :: inner, kind⟩)
      return standard

def readAll (options : Options) : Checking Settings := do
  let standard := Settings.standard
  let bool := Field.whole Field.readBool
  return {
    delimiters := ← options.read "delimiters" Field.delimiters standard.delimiters
    pragmas := ← options.read "pragmas" (.list Field.readText) standard.pragmas
    indentPartials := ← options.read "indent_partials" bool standard.indentPartials
    strictPartials := ← options.read "strict_partials" bool standard.strictPartials
    strictPragmas := ← options.read "strict_pragmas" bool standard.strictPragmas
    partialsInheritPragmas :=
      ← options.read "partials_inherit_pragmas" bool standard.partialsInheritPragmas
    maxPartialDepth :=
      ← options.read "max_partial_depth" (.whole Field.readPositive) standard.maxPartialDepth
    templatePaths := ← options.read "template_paths" (.list Field.readPath) standard.templatePaths
    templateSuffix :=
      ← options.read "template_suffix" (.whole Field.readText) standard.templateSuffix
    cache := ← options.read "cache" bool standard.cache }

end Options

/-- The settings that options ask for, or all problems in the order of their places. -/
def ofOptions (options : Options) : Reading (Except (List Problem) Settings) := do
  let unknown := options.filterMap fun (name, _) => Options.nameProblem? name
  let (settings, problems) ← options.readAll.run unknown
  if problems.isEmpty then return .ok settings
  else return .error (problems.mergeSort fun a b => Step.placeLe a.place b.place)

end Whisker.Settings
