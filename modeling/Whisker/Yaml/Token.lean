import Whisker.Text.Basic

/-! Tokens of a YAML text. Blocks have tokens at their start and at their end, and each key has one
in front of it. -/

namespace Whisker.Yaml

inductive Token where
  /-- The directive that names the version, of which the first number is one. -/
  | version (minor : Nat)
  /-- The directive that gives a handle of tags its meaning. -/
  | tagHandle (handle meaning : Text)
  | otherDirective
  | documentStart
  | documentEnd
  | sequenceStart
  | mappingStart
  | blockEnd
  /-- A dash in front of an item. -/
  | item
  | bracketOpen
  | bracketClose
  | braceOpen
  | braceClose
  | comma
  | key
  | value
  /-- A node that stands elsewhere under an anchor. -/
  | reference (name : Text)
  | anchor (name : Text)
  /-- A tag; without a handle it is written in full. -/
  | tag (handle : Option Text) (rest : Text)
  | scalar (content : Text) (isPlain : Bool)
deriving DecidableEq

end Whisker.Yaml
