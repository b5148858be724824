import Whisker.Yaml.Meaning
import Whisker.Yaml.Token.Scan

/-! From the text of a YAML document to its data: directives give tags their handles, references are
followed, and each node gets its meaning. -/

namespace Whisker.Yaml

/-! ## Documents -/

/-- What the directives in front of a document say. -/
structure Directives where
  /-- The second number of the version. -/
  minor : Option Nat
  handles : List (Text × Text)

/-- Reads directives, each of them at most once, and what stands behind them. -/
def Directives.read? (d : Directives) : List Token → Option (Directives × List Token)
  | .version minor :: rest =>
    if d.minor.isSome then none else read? { d with minor := some minor } rest
  | .tagHandle handle meaning :: rest =>
    if (d.handles.lookup handle).isSome then none
    else read? { d with handles := (handle, meaning) :: d.handles } rest
  | .otherDirective :: rest => read? d rest
  | tokens => some (d, tokens)

structure Document where
  directives : Directives
  tree : Tree

/-- The only document of a text; an empty text has an empty one. Directives must be followed by the
mark of a document's start, and behind the document there may be one mark of its end. -/
def Document.ofTokens? (tokens : List Token) : Option Document := do
  let (directives, body) ← Directives.read? ⟨none, []⟩ tokens
  let isMarked := body.head? = some .documentStart
  if !isMarked && body.length < tokens.length then none
  let body ← body.mapM (Token.expanded? (directives.handles ++ standardHandles))
  let body := if isMarked then body.drop 1 else body
  let (tree, rest) ←
    if body.isEmpty || (isMarked && body.head? = some .documentEnd) then some (Tree.empty, body)
    else Tree.node (4 * tokens.length + 4) .block body
  if rest.isEmpty || rest = [.documentEnd] then return ⟨directives, tree⟩ else none

/-! ## References -/

namespace Tree

mutual

/-- The anchors of a document so far, if each reference leads to one. -/
def anchors? (known : List Text) : Tree → Option (List Text)
  | .reference name => if known.contains name then some known else none
  | .scalar p _ _ => some (p.anchor.toList ++ known)
  | .sequence p items => anchorsOfItems? (p.anchor.toList ++ known) items
  | .mapping p entries => anchorsOfEntries? (p.anchor.toList ++ known) entries

def anchorsOfItems? (known : List Text) : List Tree → Option (List Text)
  | [] => some known
  | item :: items => do anchorsOfItems? (← item.anchors? known) items

def anchorsOfEntries? (known : List Text) : List (Tree × Tree) → Option (List Text)
  | [] => some known
  | (key, value) :: entries => do
    anchorsOfEntries? (← value.anchors? (← key.anchors? known)) entries

end

mutual

/-- Whether a reference to an anchor occurs. -/
def mentions (name : Text) : Tree → Bool
  | .reference other => other = name
  | .scalar .. => false
  | .sequence _ items => itemsMention name items
  | .mapping _ entries => entriesMention name entries

def itemsMention (name : Text) : List Tree → Bool
  | [] => false
  | item :: items => mentions name item || itemsMention name items

def entriesMention (name : Text) : List (Tree × Tree) → Bool
  | [] => false
  | (key, value) :: entries =>
    mentions name key || mentions name value || entriesMention name entries

end

end Tree

/-! ## Evaluation -/

/-- What is under anchors, the latest first. -/
abbrev Anchors := List (Text × Meaning)

abbrev Evaluation := StateM Anchors

/-- Evaluates a collection, whose anchor counts from its start. Where it is met inside itself it is
itself once more, and inside of that a cycle. -/
def collection (p : Properties) (isList mentioned : Bool) (fill : Evaluation Meaning) :
    Evaluation Meaning := do
  match p.anchor with
  | none => fill
  | some name =>
    let known ← get
    let inner :=
      if mentioned then (fill.run ((name, .cycle isList) :: known)).1 else .cycle isList
    modify ((name, inner) :: ·)
    let m ← fill
    modify fun now => now.take (now.length - known.length - 1) ++ (name, m) :: known
    return m

namespace Tree

/-- Whether a key has the given content, which says what it means. -/
def isImplicitly (mark : Text) : Tree → Bool
  | .scalar p content isPlain => p.isImplicit isPlain && content = mark
  | _ => false

mutual

def meaning : Tree → Evaluation Meaning
  | .reference name => do return ((← get).lookup name).getD .malformed
  | .scalar p content isPlain => do
    let m := Meaning.ofContent (ofScalar p content isPlain) content
    modify (p.anchor.toList.map ((·, m)) ++ ·)
    return m
  | .sequence p items =>
    collection p true (p.anchor.any fun name => itemsMention name items) do
      return meaningOfItems p.kind? (← meanings items)
  | .mapping p pairs =>
    collection p false (p.anchor.any fun name => entriesMention name pairs) do
      return meaningOfEntries p.kind? (← entries pairs)

def meanings : List Tree → Evaluation (List Meaning)
  | [] => return []
  | item :: items => do
    let m ← meaning item
    return m :: (← meanings items)

def entries : List (Tree × Tree) → Evaluation (List Entry)
  | [] => return []
  | (key, item) :: rest => do
    let k ← meaning key
    let m ← meaning item
    let entry :=
      if isImplicitly mergeMark key then Entry.merge m
      else if isImplicitly valueMark key then .marked m
      else .entry (k.value, m.value)
    return entry :: (← entries rest)

end

end Tree

/-! ## Data -/

/-- Whether plain scalars have a meaning under a version. -/
def isKnownVersion (d : Directives) : Bool := d.minor.all fun n => n = 1 || n = 2

/-- The data of a text with one document, which a byte order mark may precede. -/
def ofText (t : Text) : Except Defect Yaml := do
  let tokens ← Token.scan (if t.head? = some '\ufeff' then t.drop 1 else t)
  match Document.ofTokens? tokens with
  | none => throw .malformed
  | some ⟨directives, tree⟩ =>
    if (tree.anchors? []).isNone then throw .malformed
    else if !isKnownVersion directives then throw (.failure .unknownWord)
    else (tree.meaning.run []).1.value.mapError (·.2)

end Whisker.Yaml
