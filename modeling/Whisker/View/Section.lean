import Whisker.Run

/-! What a value means for a section. -/

namespace Whisker

inductive SectionValue where
  /-- The section is left out. -/
  | falsy
  /-- The section is repeated for each item; there is at least one. -/
  | list (items : List Value)
  | lambda
  /-- The section is rendered once, with the value as a frame. -/
  | frame

namespace SectionValue

def ofItems (items : List Value) : SectionValue := if items.isEmpty then .falsy else .list items

/-- Callables come before everything else that is there; texts, bytes and dictionaries count as
falsy when they are empty. -/
def ofValue (v : Value) : Run SectionValue := do
  if v.isCallable then return .lambda
  match v with
    | .missing | .null | .bool false => return .falsy
    | .text t => return if t.isEmpty then .falsy else .frame
    | .bytes content => return if content.isEmpty then .falsy else .frame
    | .dict entries => return if entries.isEmpty then .falsy else .frame
    | v =>
      match ← Run.read (Reading.items? v) with
      | some items => return ofItems items
      | none => return .frame

def isFalsy : SectionValue → Bool
  | .falsy => true
  | _ => false

end SectionValue

end Whisker
