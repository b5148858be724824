import Whisker.Failure
import Whisker.Template.Tag
import Whisker.Text.Quoted

/-! The pragmas in force in a template. -/

namespace Whisker

structure Pragmas where
  /-- Whether an unknown pragma is a failure; otherwise it is ignored with a warning. -/
  strict : Bool
  /-- The enabled pragmas with their parameters. -/
  enabled : Entries (Entries Text)

namespace Pragmas

def implicitIterator : Text := "IMPLICIT-ITERATOR".toList

def filters : Text := "FILTERS".toList

def subViews : Text := "SUB-VIEWS".toList

def known : List Text := [implicitIterator, filters, subViews]

def none (strict : Bool) : Pragmas := ⟨strict, []⟩

def isEnabled (p : Pragmas) (name : Text) : Bool := (p.enabled.get? name).isSome

/-- The parameters of a pragma; there are none if it is not enabled. -/
def params (p : Pragmas) (name : Text) : Entries Text := (p.enabled.get? name).getD []

/-- Pragmas, and the warnings that came with them. -/
abbrev Warned := Pragmas × List String

/-- Enables a pragma; its parameters replace older ones. -/
def enable (p : Pragmas) (name : Text) (params : Entries Text) : Except Failure Warned :=
  if known.contains name then .ok (⟨p.strict, p.enabled.put name params⟩, [])
  else if p.strict then .error (.unknownPragma name)
  else .ok (p, [s!"Ignoring unknown pragma '{name.string}'"])

/-- Enables pragmas in order. -/
def enableAll (p : Pragmas) (calls : Entries (Entries Text)) : Except Failure Warned :=
  calls.foldlM (fun (p, warnings) (name, params) => do
    let (p, more) ← p.enable name params
    return (p, warnings ++ more)) (p, [])

/-- Pragmas without parameters; a name that comes twice counts once. -/
def ofNames (strict : Bool) (names : List Text) : Except Failure Warned :=
  (none strict).enableAll (Entries.ofPairs (names.map fun name => (name, [])))

/-- The name under which the items of a list are in scope besides the dot. -/
def iteratorName (p : Pragmas) : Option Text :=
  match (p.params implicitIterator).get? "iterator".toList with
  | some name => if name.isEmpty || name = ['.'] then Option.none else some name
  | Option.none => Option.none

def describe (p : Pragmas) : Text :=
  "PragmaState(".toList ++ Text.quotedList p.enabled.sortedNames ++ [')']

end Pragmas

end Whisker
