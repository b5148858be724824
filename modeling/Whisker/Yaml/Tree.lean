import Whisker.Yaml.Tag

/-! The nodes of a YAML document as they are written, with anchors, tags and references. -/

namespace Whisker.Yaml

/-- What can stand in front of a node. -/
structure Properties where
  anchor : Option Text
  /-- The tag in full. -/
  tag : Option Text

inductive Tree where
  | scalar (properties : Properties) (content : Text) (isPlain : Bool)
  | sequence (properties : Properties) (items : List Tree)
  | mapping (properties : Properties) (entries : List (Tree × Tree))
  | reference (name : Text)

namespace Tree

def noProperties : Properties := ⟨none, none⟩

/-- A node that is left out. -/
def empty : Tree := .scalar noProperties [] true

/-- An anchor and a tag, each at most once and in any order. -/
def properties : List Token → Properties × List Token
  | .anchor name :: .tag _ t :: rest => (⟨some name, some t⟩, rest)
  | .tag _ t :: .anchor name :: rest => (⟨some name, some t⟩, rest)
  | .anchor name :: rest => (⟨some name, none⟩, rest)
  | .tag _ t :: rest => (⟨none, some t⟩, rest)
  | tokens => (noProperties, tokens)

/-- Whether a node is left out before one of the tokens `ends`. -/
def isLeftOut (ends : List Token) (tokens : List Token) : Bool :=
  match tokens with
  | [] => false
  | token :: _ => ends.contains token

/-- Where nodes stand: in brackets, in a block, or as a value of a block mapping, where the items of
a sequence need no indent of their own. -/
inductive Position where
  | flow
  | block
  | blockValue

mutual

def node (fuel : Nat) (position : Position) (tokens : List Token) : Option (Tree × List Token) :=
  match fuel with
  | 0 => none
  | fuel + 1 =>
    match tokens with
    | .reference name :: rest => some (.reference name, rest)
    | _ =>
      let (p, rest) := properties tokens
      match position, rest with
      | .blockValue, .item :: _ => do
        let (items, rest) ← looseItems fuel rest
        return (.sequence p items, rest)
      | _, .scalar content isPlain :: rest => some (.scalar p content isPlain, rest)
      | _, .bracketOpen :: rest => do
        let (items, rest) ← flowItems fuel true rest
        return (.sequence p items, rest)
      | _, .braceOpen :: rest => do
        let (entries, rest) ← flowEntries fuel true rest
        return (.mapping p entries, rest)
      | .flow, _ => bare p rest
      | _, .sequenceStart :: rest => do
        let (items, rest) ← blockItems fuel rest
        return (.sequence p items, rest)
      | _, .mappingStart :: rest => do
        let (entries, rest) ← blockEntries fuel rest
        return (.mapping p entries, rest)
      | _, _ => bare p rest

/-- Properties without a node make an empty one. -/
def bare (p : Properties) (rest : List Token) : Option (Tree × List Token) :=
  if p.anchor.isSome || p.tag.isSome then some (.scalar p [] true, rest) else none

/-- A node, or an empty one before one of the tokens `ends`. -/
def nodeOrEmpty (fuel : Nat) (position : Position) (ends : List Token) (tokens : List Token) :
    Option (Tree × List Token) :=
  match fuel with
  | 0 => none
  | fuel + 1 =>
    if isLeftOut ends tokens then some (empty, tokens) else node fuel position tokens

/-- The items of a block that has begun. -/
def blockItems (fuel : Nat) (tokens : List Token) : Option (List Tree × List Token) :=
  match fuel, tokens with
  | fuel + 1, .item :: rest => do
    let (first, rest) ← nodeOrEmpty fuel .block [.item, .blockEnd] rest
    let (items, rest) ← blockItems fuel rest
    return (first :: items, rest)
  | _, .blockEnd :: rest => some ([], rest)
  | _, _ => none

/-- Items at the indent of the mapping around them. -/
def looseItems (fuel : Nat) (tokens : List Token) : Option (List Tree × List Token) :=
  match fuel, tokens with
  | fuel + 1, .item :: rest => do
    let (first, rest) ← nodeOrEmpty fuel .block [.item, .key, .value, .blockEnd] rest
    let (items, rest) ← looseItems fuel rest
    return (first :: items, rest)
  | 0, _ => none
  | _, _ => some ([], tokens)

/-- The entries of a block that has begun. A key may be left out, and so may a value. -/
def blockEntries (fuel : Nat) (tokens : List Token) : Option (List (Tree × Tree) × List Token) :=
  match fuel, tokens with
  | fuel + 1, .key :: rest => do
    let (key, rest) ← nodeOrEmpty fuel .blockValue [.key, .value, .blockEnd] rest
    let (value, rest) ← blockValue fuel rest
    let (entries, rest) ← blockEntries fuel rest
    return ((key, value) :: entries, rest)
  | fuel + 1, .value :: rest => do
    let (value, rest) ← blockValue fuel (.value :: rest)
    let (entries, rest) ← blockEntries fuel rest
    return ((empty, value) :: entries, rest)
  | _, .blockEnd :: rest => some ([], rest)
  | _, _ => none

def blockValue (fuel : Nat) (tokens : List Token) : Option (Tree × List Token) :=
  match fuel, tokens with
  | fuel + 1, .value :: rest => nodeOrEmpty fuel .blockValue [.key, .value, .blockEnd] rest
  | _, _ => some (empty, tokens)

/-- The items up to the closing bracket; all but the first need a comma. -/
def flowItems (fuel : Nat) (isFirst : Bool) (tokens : List Token) :
    Option (List Tree × List Token) :=
  match fuel with
  | 0 => none
  | fuel + 1 =>
    match tokens with
    | .bracketClose :: rest => some ([], rest)
    | .comma :: rest => if isFirst then none else flowItem fuel rest
    | rest => if isFirst then flowItem fuel rest else none

/-- An item in brackets, perhaps a single entry of a mapping, and the items after it. -/
def flowItem (fuel : Nat) (tokens : List Token) : Option (List Tree × List Token) :=
  match fuel with
  | 0 => none
  | fuel + 1 =>
    match tokens with
    | .bracketClose :: rest => some ([], rest)
    | .key :: rest => do
      let (key, rest) ← nodeOrEmpty fuel .flow [.value, .comma, .bracketClose] rest
      let (value, rest) ← flowValue fuel [.comma, .bracketClose] rest
      let (items, rest) ← flowItems fuel false rest
      return (.mapping noProperties [(key, value)] :: items, rest)
    | rest => do
      let (first, rest) ← node fuel .flow rest
      let (items, rest) ← flowItems fuel false rest
      return (first :: items, rest)

def flowValue (fuel : Nat) (ends : List Token) (tokens : List Token) : Option (Tree × List Token) :=
  match fuel, tokens with
  | fuel + 1, .value :: rest => nodeOrEmpty fuel .flow ends rest
  | _, _ => some (empty, tokens)

/-- The entries up to the closing brace; all but the first need a comma. -/
def flowEntries (fuel : Nat) (isFirst : Bool) (tokens : List Token) :
    Option (List (Tree × Tree) × List Token) :=
  match fuel with
  | 0 => none
  | fuel + 1 =>
    match tokens with
    | .braceClose :: rest => some ([], rest)
    | .comma :: rest => if isFirst then none else flowEntry fuel rest
    | rest => if isFirst then flowEntry fuel rest else none

/-- An entry in braces and the entries after it; a node alone is a key without a value. -/
def flowEntry (fuel : Nat) (tokens : List Token) : Option (List (Tree × Tree) × List Token) :=
  match fuel with
  | 0 => none
  | fuel + 1 =>
    match tokens with
    | .braceClose :: rest => some ([], rest)
    | .key :: rest => do
      let (key, rest) ← nodeOrEmpty fuel .flow [.value, .comma, .braceClose] rest
      let (value, rest) ← flowValue fuel [.comma, .braceClose] rest
      let (entries, rest) ← flowEntries fuel false rest
      return ((key, value) :: entries, rest)
    | .value :: rest => do
      let (value, rest) ← flowValue fuel [.comma, .braceClose] (.value :: rest)
      let (entries, rest) ← flowEntries fuel false rest
      return ((empty, value) :: entries, rest)
    | rest => do
      let (key, rest) ← node fuel .flow rest
      let (entries, rest) ← flowEntries fuel false rest
      return ((key, empty) :: entries, rest)

end

end Tree

end Whisker.Yaml
