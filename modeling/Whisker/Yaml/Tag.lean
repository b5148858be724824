import Whisker.Text.Utf8
import Whisker.Yaml.Scalar
import Whisker.Yaml.Token

/-! Tags: how they are written, the handles that shorten them, the directives that declare these,
and the kinds of data that tags name. -/

namespace Whisker.Yaml

/-! ## Reading -/

def isHandleChar (c : Char) : Bool := c.isAlphanum || c = '_' || c = '-'

def isTagChar (c : Char) : Bool :=
  c.isAlphanum || "-;/?:@&=+$,_.!~*'()[]#%".toList.contains c

/-- The bytes of a tag. Two hexadecimal digits behind a percent sign stand for one. -/
def tagBytes? : Text → Option (List UInt8)
  | [] => some []
  | '%' :: high :: low :: rest => do
    let code ← hexCode? [high, low]
    return code.toUInt8 :: (← tagBytes? rest)
  | c :: rest => do
    if c = '%' then none
    return c.toNat.toUInt8 :: (← tagBytes? rest)

/-- The text of a tag, and what is left behind it. -/
def readTagText? (t : Text) : Option (Text × Text) := do
  let written := t.takeWhile isTagChar
  if written.isEmpty then none
  let text ← (tagBytes? written).bind Text.ofUtf8?
  return (text, t.drop written.length)

/-- A handle: an exclamation mark, or two with a name between them. -/
def readHandle? : Text → Option (Text × Text)
  | '!' :: rest =>
    let name := rest.takeWhile isHandleChar
    match rest.drop name.length with
    | '!' :: behind => some ('!' :: name ++ ['!'], behind)
    | _ => if rest.head? = some ' ' then some (['!'], rest) else none
  | _ => none

/-- The tag behind its exclamation mark, which may be a double one. -/
def readMarkedTag? (handle t : Text) : Option (Token × Text) :=
  match t with
  | '<' :: t => do
    let (full, rest) ← readTagText? t
    if rest.head? ≠ some '>' then none
    return (.tag none full, rest.drop 1)
  | t => do
    if wordEnds t then return (.tag none ['!'], t)
    else
      let hasHandle := (t.takeWhile fun c => c ≠ ' ' && !isBreak c).contains '!'
      let (handle, t) ← if hasHandle then readHandle? ('!' :: t) else some (handle, t)
      let (name, rest) ← readTagText? t
      return (.tag (some handle) name, rest)

/-- A tag and the rest. -/
def readTag? (t : Text) : Option (Token × Text) := do
  let (token, rest) ← match t with
    | '!' :: '!' :: t => readMarkedTag? ['!', '!'] t
    | '!' :: t => readMarkedTag? ['!'] t
    | _ => none
  if nameEnds rest then return (token, rest) else none

/-! ## Handles -/

/-- What the tags of the core start with. -/
def coreFront : Text := "tag:yaml.org,2002:".toList

/-- The handles that need no directive. -/
def standardHandles : List (Text × Text) := [(['!'], ['!']), (['!', '!'], coreFront)]

/-- A token with its tag in full, if its handle is known. -/
def Token.expanded? (handles : List (Text × Text)) : Token → Option Token
  | .tag (some handle) name => (handles.lookup handle).map fun front => .tag none (front ++ name)
  | token => some token

/-! ## Kinds -/

/-- The kinds that a node can be tagged as. -/
inductive Tag where
  | null
  | bool
  | int
  | float
  | text
  | binary
  | timestamp
  | list
  | dict
  | set
  /-- A list of mappings with one entry each, as a dictionary. -/
  | orderedDict
  /-- A list of such, as pairs. -/
  | pairs
  /-- Any other, which has no meaning. -/
  | unknown
deriving DecidableEq

/-- The tags of the core, under their short names. -/
def coreTags : List (Text × Tag) :=
  [("null", .null), ("bool", .bool), ("int", .int), ("float", .float), ("str", .text),
    ("binary", .binary), ("timestamp", .timestamp), ("seq", .list), ("map", .dict), ("set", .set),
    ("omap", .orderedDict), ("pairs", .pairs)].map fun (name, (tag : Tag)) => (name.toList, tag)

/-- The meaning of a tag in full. -/
def Tag.ofText (t : Text) : Tag :=
  if coreFront.isPrefixOf t then (coreTags.lookup (t.drop coreFront.length)).getD .unknown
  else .unknown

/-! ## Directives

They stand in front of a document. -/

def dropSpaces (t : Text) : Text := t.dropWhile (· = ' ')

/-- A number, and what is left behind it. -/
def readNumber? (t : Text) : Option (Nat × Text) :=
  let digits := t.takeWhile Char.isDigit
  (Text.decimalNumeral? digits).map fun n => (n, t.drop digits.length)

/-- The version behind the name of its directive; its first number must be one. -/
def readVersion? (t : Text) : Option (Token × Text) := do
  let (major, t) ← readNumber? (dropSpaces t)
  if t.head? ≠ some '.' then none
  let (minor, rest) ← readNumber? (t.drop 1)
  if major = 1 && nameEnds rest then return (.version minor, rest) else none

/-- The handle behind the name of its directive, and what it stands for. -/
def readTagHandle? (t : Text) : Option (Token × Text) := do
  let (handle, t) ← readHandle? (dropSpaces t)
  if t.head? ≠ some ' ' then none
  let (meaning, rest) ← readTagText? (dropSpaces t)
  if nameEnds rest then return (.tagHandle handle meaning, rest) else none

/-- The directive behind its percent sign. -/
def readDirective? (t : Text) : Option (Token × Text) := do
  let name := t.takeWhile fun c => isHandleChar c || c = ':' || c = '.'
  let rest := t.drop name.length
  if name.isEmpty || !nameEnds rest then none
  else if name = "YAML".toList then readVersion? rest
  else if name = "TAG".toList then readTagHandle? rest
  else return (.otherDirective, rest.dropWhile (!isLineEnd ·))

end Whisker.Yaml
