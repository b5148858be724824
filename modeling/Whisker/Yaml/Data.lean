import Whisker.Failure
import Whisker.View.Printed
import Whisker.Yaml.Basic

/-! YAML data as values and as text. -/

namespace Whisker.Yaml

/-! ## Values -/

/-- An object that has nothing but its printed form. -/
def bareObject (printed : Text) : Value := .object (.mk [] [] [] none none none printed)

/-- Entries with texts for keys, if all keys are texts. -/
def namedEntries? (entries : List (Value × Value)) : Option (Entries Value) :=
  entries.mapM fun (key, value) =>
    match key with
    | .text name => some (name, value)
    | _ => none

def printedEntries (entries : List (Value × Value)) : Text :=
  let shown := entries.map fun (key, value) => key.printed ++ ": ".toList ++ value.printed
  '\x7b' :: Value.commaSeparated shown ++ ['\x7d']

/-- The printed form of entries whose order matters. -/
def printedPairs (entries : List (Value × Value)) : Text :=
  let pairs : List Value := entries.map fun (key, value) => .tuple [key, value]
  let inner := if pairs.isEmpty then [] else (Value.list pairs).printed
  "ordereddict(".toList ++ inner ++ [')']

def printedSet (items : List Value) : Text :=
  if items.isEmpty then "set()".toList
  else '\x7b' :: Value.commaSeparated (items.map Value.printed) ++ ['\x7d']

/-- A dictionary with keys that are no texts has no entries that could be looked up; it only shows
its printed form. -/
def dictionary (ordered : Bool) (entries : List (Value × Value)) : Value :=
  if ordered then bareObject (printedPairs entries)
  else match namedEntries? entries with
    | some entries => .dict entries
    | none => bareObject (printedEntries entries)

mutual

def toValue : Yaml → Value
  | .null => .null
  | .bool b => .bool b
  | .int i => .int i
  | .float x => .float x
  | .text t => .text t
  | .bytes content => .bytes content
  | .date d => bareObject d.printed
  | .moment m => bareObject m.printed
  | .list items => .list (toValues items)
  | .tuple items => .tuple (toValues items)
  | .keySet items => bareObject (printedSet (toValues items))
  | .dict ordered entries => dictionary ordered (toEntries entries)
  | .cycle isList => bareObject (if isList then "[...]".toList else "\x7b...\x7d".toList)

def toValues : List Yaml → List Value
  | [] => []
  | item :: items => toValue item :: toValues items

def toEntries : List (Yaml × Yaml) → List (Value × Value)
  | [] => []
  | (key, value) :: rest => (toValue key, toValue value) :: toEntries rest

end

/-- The value of an option. A set is read item by item, and so is a dictionary in order. -/
def toOption : Yaml → Value
  | .keySet items => .iterator none (toValues items)
  | .dict true entries => dictionary false (toEntries entries)
  | v => toValue v

/-! ## Text -/

mutual

/-- Whether all numbers inside can be written. -/
def isWritable : Yaml → Bool
  | .int i => Text.isWritable i
  | .list items | .tuple items | .keySet items => areWritable items
  | .dict _ entries => areEntriesWritable entries
  | _ => true

def areWritable : List Yaml → Bool
  | [] => true
  | item :: items => isWritable item && areWritable items

def areEntriesWritable : List (Yaml × Yaml) → Bool
  | [] => true
  | (key, value) :: entries => isWritable key && isWritable value && areEntriesWritable entries

end

/-- Data as a text of its own. -/
def toText (v : Yaml) : Except Failure Text :=
  if !v.isWritable then .error .unwritableNumber
  else match v with
    | .date d => .ok d.text
    | .moment m => .ok m.text
    | v => .ok v.toValue.toText

end Whisker.Yaml
