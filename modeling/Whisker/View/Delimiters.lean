import Whisker.Template.Tag
import Whisker.View.Heap
import Whisker.View.Printed

/-! Delimiters given as a value: a text of two words, or a collection of two texts. -/

namespace Whisker.Delimiters

/-- The parts of a value in order: the words of a text, the names of a dictionary, or the items. -/
def partsOf? : Value → Reading (Option (List Value))
  | .text t => return some ((Text.words t).map .text)
  | .bytes content => return some (Value.ofBytes content)
  | .dict entries => return some (entries.map fun (name, _) => .text name)
  | v => Reading.items? v

def ofParts? : List Value → Option Delimiters
  | [.text opening, .text closing] => ofTexts? opening closing
  | _ => none

def ofValue (v : Value) : Reading Delimiters := do
  match ← partsOf? v with
  | none => throw .unfit
  | some parts =>
    match ofParts? parts with
    | some d => return d
    | none => throw (.badDelimiters v.printed)

/-- The standard delimiters stand for a value that counts as nothing. -/
def ofOptional (v : Value) : Reading Delimiters :=
  if v.isNothing then return .standard else ofValue v

end Whisker.Delimiters
