import Whisker.Template.Place
import Whisker.Text.Quoted

/-! What can be wrong with a template, and how it is reported. -/

namespace Whisker

inductive Fault where
  /-- The tag that starts here has no `expected` closing mark. -/
  | unclosedTag (expected : Text)
  | malformedDelimiterChange (content : Text)
  | emptyTagName
  | closingWithoutOpening (name : Text)
  /-- The innermost open section is another one, opened at `line` and `column`. -/
  | closedByOther (opened : Text) (line column : Nat) (name : Text)
  | unclosedSection (name : Text)
  | blankPragma
deriving DecidableEq

namespace Fault

/-- The section tag that has no partner. -/
def unbalanced? : Fault → Option Text
  | .closingWithoutOpening name => some name
  | .closedByOther _ _ _ name => some name
  | .unclosedSection name => some name
  | _ => none

def message : Fault → String
  | .unclosedTag expected => s!"Unclosed tag (expected {(Text.quoted expected).string})"
  | .malformedDelimiterChange content =>
    s!"Malformed delimiter change {(Text.quoted content).string}"
  | .emptyTagName => "Empty tag name"
  | .closingWithoutOpening name => s!"Closing tag '{name.string}' without opening tag"
  | .closedByOther opened line column name =>
    s!"Section '{opened.string}' (opened at {line}:{column}) closed by '{name.string}'"
  | .unclosedSection name => s!"Unclosed section '{name.string}'"
  | .blankPragma => "Blank pragma"

end Fault

/-- A fault at its place in the source. -/
structure TemplateError where
  fault : Fault
  place : Place
deriving DecidableEq

def TemplateError.message (e : TemplateError) : String :=
  s!"{e.fault.message} at {e.place.line}:{e.place.column}"

end Whisker
