import Whisker.Text.Base64
import Whisker.Yaml.Plain
import Whisker.Yaml.Tree

/-! What nodes mean: scalars by their tags or by what they look like, and collections by what is in
them. -/

namespace Whisker.Yaml

/-! ## Filling -/

/-- Data, or the defect that is met first and how many collections are around it. Collections are
filled one level after another, so that of two defects the outer one is met first. -/
abbrev Filled (α : Type) := Except (Nat × Defect) α

namespace Filled

def malformed {α : Type} : Filled α := .error (0, .malformed)

def ofResult {α : Type} (result : Except Failure α) : Filled α :=
  result.mapError fun f => (0, .failure f)

/-- What is filled one level later. -/
def later {α : Type} (filled : Filled α) : Filled α :=
  filled.mapError fun (level, defect) => (level + 1, defect)

/-- A collection made of content that is filled one level later. -/
def collect {α : Type} (make : α → Yaml) (content : Filled α) : Filled Yaml :=
  later (content.map make)

/-- What is filled at once, however deep. -/
def atOnce {α : Type} (filled : Filled α) : Filled α :=
  filled.mapError fun (_, defect) => (0, defect)

/-- Both, the first before the second on each level. -/
def both {α β : Type} : Filled α → Filled β → Filled (α × β)
  | .ok a, .ok b => .ok (a, b)
  | .error e, .ok _ => .error e
  | .ok _, .error e => .error e
  | .error (i, d), .error (j, e) => .error (if i ≤ j then (i, d) else (j, e))

def all {α : Type} : List (Filled α) → Filled (List α)
  | [] => .ok []
  | first :: rest => (both first (all rest)).map fun (x, xs) => x :: xs

end Filled

/-! ## Scalars -/

def ofPlain (t : Text) : Filled Yaml :=
  let word := withoutLineEnd t
  if word = valueMark || word = mergeMark then .malformed
  else if nullWords.contains word then .ok .null
  else if (trueWords ++ falseWords).contains word then .ofResult ((boolOf t).map .bool)
  else if isFloat word then .ofResult ((floatOf t).map .float)
  else if isInt word then .ofResult ((intOf t).map .int)
  else match Timestamp.read? t, Timestamp.isPlain t with
    | some stamp, true => .ofResult (timestampOf stamp)
    | _, _ => .ok (.text t)

/-- A scalar under a tag of its own. Collections find out later that it is none. -/
def ofTagged (tag : Tag) (content : Text) : Filled Yaml :=
  match tag with
  | .null => .ok .null
  | .bool => .ofResult ((boolOf content).map .bool)
  | .int => .ofResult ((intOf content).map .int)
  | .float => .ofResult ((floatOf content).map .float)
  | .text => .ok (.text content)
  | .binary =>
    if content.any (0x7f < ·.toNat) then .malformed
    else match Text.ofBase64? content with
      | some content => .ok (.bytes content)
      | none => .malformed
  | .timestamp =>
    match Timestamp.read? content with
    | some stamp => .ofResult (timestampOf stamp)
    | none => .malformed
  | .list | .dict | .set | .orderedDict | .pairs => Filled.malformed.later
  | .unknown => .malformed

/-- The kind that the properties of a node give. A lone exclamation mark gives none. -/
def Properties.kind? (p : Properties) : Option Tag :=
  (p.tag.filter (· ≠ ['!'])).map Tag.ofText

/-- Whether the content of a scalar says what it means, for its style or a lone exclamation mark. -/
def Properties.isImplicit (p : Properties) (isPlain : Bool) : Bool :=
  match p.tag with
  | some t => t = ['!']
  | none => isPlain

def ofScalar (p : Properties) (content : Text) (isPlain : Bool) : Filled Yaml :=
  match p.kind? with
  | some tag => ofTagged tag content
  | none => if p.isImplicit isPlain then ofPlain content else .ok (.text content)

/-! ## Mappings -/

/-- A key and its value. -/
abbrev Pair := Filled Yaml × Filled Yaml

/-- What a node means. -/
structure Meaning where
  value : Filled Yaml
  /-- What stands for the node where a scalar is asked for. -/
  content : Option Text
  /-- The entries of a mapping and those that are merged into it, unless they cannot be merged. -/
  entries : Option (List Pair)
  /-- What the node brings into a mapping that it is merged into. -/
  brought : Option (List Pair)
  /-- The entry of a mapping that has no other. -/
  only : Option Pair

namespace Meaning

def ofContent (value : Filled Yaml) (content : Text) : Meaning :=
  ⟨value, some content, none, none, none⟩

/-- What nothing can be made of. -/
def malformed : Meaning := ⟨.malformed, none, none, none, none⟩

/-- A collection inside itself, which brings nothing. -/
def cycle (isList : Bool) : Meaning :=
  ⟨.ok (.cycle isList), none, if isList then none else some [], some [], none⟩

end Meaning

inductive Entry where
  | entry (pair : Pair)
  /-- A value under the mark of one. -/
  | marked (m : Meaning)
  /-- A node that is merged into the mapping. -/
  | merge (m : Meaning)

def Entry.pair? : Entry → Option Pair
  | .entry pair => some pair
  | .marked m => some (.ok (.text valueMark), m.value)
  | .merge _ => none

/-- What stands for a mapping where a scalar is asked for: the value under the mark of one. -/
def contentOf : List Entry → Option Text
  | [] => none
  | .marked m :: _ => m.content
  | _ :: rest => contentOf rest

/-- The pairs that merged nodes bring. Only one of them may bring any. -/
def merge : List Entry → Option (List Pair)
  | [] => some []
  | .merge m :: rest => do
    let pairs ← m.brought
    let more ← merge rest
    if pairs.isEmpty then return more
    else if more.isEmpty then return pairs
    else none
  | _ :: rest => merge rest

/-- Dictionaries and sets are never keys. -/
def isKeyless : Yaml → Bool
  | .dict .. | .keySet _ => true
  | _ => false

/-- The entries of a mapping, each key before its value. A key may not hold a collection inside a
list, and where entries are `checked` it may not be like one of those before it. -/
def fillEntries (checked : Bool) : List Yaml → List Pair → Filled (List (Yaml × Yaml))
  | _, [] => .ok []
  | seen, (key, value) :: rest =>
    match key.atOnce with
    | .error e => .error e
    | .ok key =>
      if isKeyless key then .malformed
      else
        let key := key.asKey
        let others :=
          if key.keyForm?.isNone then .ofResult (.error .unfit)
          else if checked && seen.any (sameKey key) then .malformed
          else fillEntries checked (key :: seen) rest
        (Filled.both value others).map fun (v, entries) => (key, v) :: entries

/-- The entries of a mapping. They override those of merged mappings, and only without such their
keys must differ. -/
def fillMapping (entries : List Entry) : Filled (List (Yaml × Yaml)) :=
  match merge entries with
  | none => .malformed
  | some merged =>
    let own := entries.filterMap Entry.pair?
    (fillEntries merged.isEmpty [] (merged ++ own)).map (putAll [])

/-! ## Collections -/

/-- The entries of mappings that have one each. -/
def fillPairs : List Meaning → Filled (List (Yaml × Yaml))
  | [] => .ok []
  | item :: rest =>
    match item.only with
    | none => .malformed
    | some (key, value) =>
      (Filled.both (Filled.both key value) (fillPairs rest)).map fun (pair, pairs) => pair :: pairs

/-- The key of an ordered dictionary. No collection can be one, whatever is in it. -/
def orderedKey (key : Filled Yaml) : Filled Yaml :=
  match key with
  | .ok key => if key.keyForm?.isSome then .ok key else .ofResult (.error .unfit)
  | .error (0, defect) => .error (0, defect)
  | .error _ => .ofResult (.error .unfit)

/-- The entries of an ordered dictionary, whose keys must differ. -/
def fillOrdered : List Yaml → List Meaning → Filled (List (Yaml × Yaml))
  | _, [] => .ok []
  | seen, item :: rest =>
    match item.only with
    | none => .malformed
    | some (key, value) =>
      match orderedKey key with
      | .error e => .error e
      | .ok key =>
        if seen.any (sameKey key) then .ofResult (.error .repeatedKey)
        else (Filled.both value (fillOrdered (key :: seen) rest)).map fun (v, entries) =>
          (key, v) :: entries

/-- A sequence as what its tag says. -/
def ofItems (kind : Option Tag) (items : List Meaning) : Filled Yaml :=
  match kind with
  | none | some .list => .collect .list (Filled.all (items.map (·.value)))
  | some .pairs =>
    .collect (fun pairs => .list (pairs.map fun (key, value) => .tuple [key, value]))
      (fillPairs items)
  | some .orderedDict => .collect (.dict true) (fillOrdered [] items)
  | some .dict | some .set => Filled.malformed.later
  | some _ => .malformed

/-- A mapping as what its tag says. -/
def ofEntries (kind : Option Tag) (entries : List Entry) : Filled Yaml :=
  match kind with
  | none | some .dict => .collect (.dict false) (fillMapping entries)
  | some .set => .collect (fun entries => .keySet (entries.map (·.1))) (fillMapping entries)
  | some .list | some .pairs | some .orderedDict => Filled.malformed.later
  | some .timestamp => .malformed
  | some kind => ((contentOf entries).map (ofTagged kind)).getD .malformed

/-- The meaning of a sequence. Of mappings that are merged together, the first counts most. -/
def meaningOfItems (kind : Option Tag) (items : List Meaning) : Meaning :=
  ⟨ofItems kind items, none, none, (items.reverse.mapM Meaning.entries).map List.flatten, none⟩

def meaningOfEntries (kind : Option Tag) (entries : List Entry) : Meaning :=
  let own := entries.filterMap Entry.pair?
  let all := (merge entries).map (· ++ own)
  let only := match entries with
    | [.entry pair] => some pair
    | _ => none
  ⟨ofEntries kind entries, contentOf entries, all, all, only⟩

end Whisker.Yaml
