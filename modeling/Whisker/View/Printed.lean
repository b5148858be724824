import Whisker.Text.Quoted
import Whisker.View.Value

/-! The text of a value: texts stand for themselves, all else is printed with texts inside
collections in quotes. -/

namespace Whisker.Value

/-- Items with a comma and a space between them. -/
def commaSeparated (items : List Text) : Text := Text.join ", ".toList items

mutual

/-- The printed form. A whole number has one whatever its length: that it cannot be written with
more than `Text.longestNumeral` digits is not modelled here. -/
def printed : Value → Text
  | .missing => "MISSING".toList
  | .null => "None".toList
  | .bool b => if b then "True".toList else "False".toList
  | .int i => Text.ofInt i
  | .float x => x.text
  | .text t => Text.quoted t
  | .bytes content => Text.quotedBytes content
  | .buffer content => "bytearray(".toList ++ Text.quotedBytes content ++ [')']
  | .list items => '[' :: commaSeparated (printedItems items) ++ [']']
  | .tuple items =>
    match items with
    | [item] => '(' :: printed item ++ [',', ')']
    | items => '(' :: commaSeparated (printedItems items) ++ [')']
  | .record name fields => name ++ '(' :: commaSeparated (printedFields fields) ++ [')']
  | .dict entries => '\x7b' :: commaSeparated (printedEntries entries) ++ ['\x7d']
  | .iterator .. => "<iterator>".toList
  | .subView template view =>
    "SubView(template=".toList ++ Text.quoted template ++ ", view=".toList ++ printed view ++ [')']
  | .function .. => "<function>".toList
  | .renderer => "<function>".toList
  | .object o => o.printed

def printedItems : List Value → List Text
  | [] => []
  | item :: items => printed item :: printedItems items

def printedFields : List (Text × Value) → List Text
  | [] => []
  | (name, value) :: fields => (name ++ '=' :: printed value) :: printedFields fields

def printedEntries : List (Text × Value) → List Text
  | [] => []
  | (name, value) :: entries =>
    (Text.quoted name ++ ": ".toList ++ printed value) :: printedEntries entries

end

/-- The text that a value becomes when it is inserted. -/
def toText : Value → Text
  | .text t => t
  | v => printed v

end Whisker.Value
