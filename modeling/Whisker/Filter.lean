import Whisker.View.Call

/-! Filters: functions on values that a variable tag names behind bars. -/

namespace Whisker.Filter

/-- The name of a variable and the names of its filters, trimmed; empty filter names do not
count. -/
def split (name : Text) : Text × List Text :=
  match (Text.pieces (· = '|') name).map Text.strip with
  | [] => ([], [])
  | head :: filters => (head, filters.filter (!·.isEmpty))

/-- The number of items or characters; values without a length count the characters of their
text. -/
def length (v : Value) : Except Failure Nat :=
  match v with
  | .text t => .ok t.length
  | .bytes content | .buffer content => .ok content.length
  | .list items | .tuple items => .ok items.length
  | .record _ fields => .ok fields.length
  | .dict entries => .ok entries.length
  | .object o => o.size?.map (·.getD v.toText.length)
  | v => .ok v.toText.length

/-- The filters that every engine has. -/
def standard? (name : Text) : Option (Value → Except Failure Value) :=
  let onText (f : Text → Text) (v : Value) : Except Failure Value := .ok (.text (f v.toText))
  if name = "upper".toList then some (onText Text.upper)
  else if name = "lower".toList then some (onText Text.lower)
  else if name = "capitalize".toList then some (onText Text.capitalize)
  else if name = "title".toList then some (onText Text.title)
  else if name = "strip".toList then some (onText Text.strip)
  else if name = "length".toList then some fun v => (length v).map fun n => .int n
  else none

/-- Applies the filter of a name. The engine's own filters come before the standard ones. -/
def apply (depth : Nat) (own : Entries Value) (name : Text) (v : Value) : Run Value :=
  match own.get? name, standard? name with
  | some f, _ => f.call depth Value.cannotRender [v]
  | none, some f => ExceptT.mk (pure (f v))
  | none, none => throw (.unknownFilter name)

def applyAll (depth : Nat) (own : Entries Value) (names : List Text) (v : Value) : Run Value :=
  names.foldlM (fun v name => apply depth own name v) v

end Whisker.Filter
