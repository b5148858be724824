import Whisker.Yaml.Tag

/-! Scanning a YAML text. Indentation becomes tokens that start and end blocks. A key is known by
the colon behind it, and the token in front of it is put there then. -/

namespace Whisker.Yaml

/-- Where a key may have started: its first token and its place. -/
structure KeyStart where
  index : Nat
  offset : Nat
  line : Nat
  /-- The column of the key, for the indent of its mapping. -/
  column : Nat
  /-- Whether nothing but a key can stand there. -/
  isRequired : Bool

structure Scanner where
  cursor : Cursor
  /-- The tokens so far, the latest first. -/
  tokens : List Token
  /-- The indents of the open blocks, innermost first. -/
  indents : List Nat
  /-- The tokens of the open brackets, innermost first. -/
  brackets : List Token
  /-- For each open bracket, and for the text outside of all: where a key may have started. -/
  keys : List (Option KeyStart)
  /-- Whether a key may start here. -/
  allowsKey : Bool

/-- Steps of the scan, which end at the first defect of the text. -/
abbrev Scan := StateT Scanner (Except Defect)

namespace Scanner

def start (t : Text) : Scanner := ⟨.start t, [], [], [], [none], true⟩

def inFlow (s : Scanner) : Bool := !s.brackets.isEmpty

def indent (s : Scanner) : Int :=
  match s.indents with
  | [] => -1
  | i :: _ => i

end Scanner

namespace Scan

/-! ## State -/

def malformed {α : Type} : Scan α := throw .malformed

/-- What was read, if anything could be. -/
def expect {α : Type} (read : Option α) : Scan α :=
  match read with
  | some x => return x
  | none => malformed

def emit (token : Token) : Scan Unit :=
  modify fun s => { s with tokens := token :: s.tokens }

/-- Puts tokens in front of the one with the given index. -/
def insertAt (index : Nat) (inserted : List Token) : Scan Unit :=
  modify fun s =>
    let behind := s.tokens.length - index
    { s with tokens := s.tokens.take behind ++ inserted.reverse ++ s.tokens.drop behind }

def allowKey (allowed : Bool) : Scan Unit := modify fun s => { s with allowsKey := allowed }

def moveTo (cursor : Cursor) : Scan Unit := modify fun s => { s with cursor }

def skip (n : Nat) : Scan Unit := modify fun s => { s with cursor := s.cursor.skip n }

/-! ## Keys -/

/-- Forgets where a key may have started; it must not have been required. -/
def dropKey : Scan Unit := do
  let s ← get
  match s.keys with
  | some key :: keys => if key.isRequired then malformed else set { s with keys := none :: keys }
  | _ => return

/-- Remembers that a key may start here. -/
def markKey : Scan Unit := do
  let s ← get
  if s.allowsKey then
    dropKey
    let c := s.cursor
    let isRequired := !s.inFlow && s.indent = c.column
    let key : KeyStart := ⟨s.tokens.length, c.offset, c.line, c.column, isRequired⟩
    modify fun s => { s with keys := some key :: s.keys.drop 1 }

/-- A key ends on its line and is not long. -/
def isStale (c : Cursor) (key : KeyStart) : Bool :=
  key.line < c.line || key.offset + 1024 < c.offset

def dropStaleKeys : Scan Unit := do
  let s ← get
  let stale := (s.keys.filterMap id).filter (isStale s.cursor)
  if stale.any (·.isRequired) then malformed
  set { s with keys := s.keys.map (Option.filter (!isStale s.cursor ·)) }

/-! ## Indentation -/

/-- Ends the blocks that are indented deeper than `column`. -/
def unroll (column : Int) : Scan Unit := do
  let s ← get
  if !s.inFlow then
    let ended := s.indents.takeWhile fun (i : Nat) => column < (i : Int)
    set { s with
      indents := s.indents.drop ended.length
      tokens := ended.map (fun _ => Token.blockEnd) ++ s.tokens }

/-- Whether a block at `column` would be deeper than those that are open; then it is opened. -/
def roll (column : Nat) : Scan Bool := do
  let s ← get
  if !s.inFlow && s.indent < column then
    set { s with indents := column :: s.indents }
    return true
  else return false

/-! ## Gaps -/

/-- Passes blanks, comments and breaks; outside of brackets a key may start after a break. Tabs
count as blanks only in brackets. -/
def gapEnd (inFlow : Bool) : Bool → Bool → Text → Text × Bool
  | allowsKey, _, [] => ([], allowsKey)
  | allowsKey, inComment, c :: rest =>
    if isLineEnd c || (isBreak c && !inComment) then gapEnd inFlow (allowsKey || !inFlow) false rest
    else if inComment || c = ' ' || (c = '\t' && inFlow) then gapEnd inFlow allowsKey inComment rest
    else if c = '#' then gapEnd inFlow allowsKey true rest
    else (c :: rest, allowsKey)

def passGap : Scan Unit :=
  modify fun s =>
    let (rest, allowsKey) := gapEnd s.inFlow s.allowsKey false s.cursor.rest
    { s with cursor := s.cursor.before rest, allowsKey }

/-! ## Collections -/

def openBracket (token : Token) : Scan Unit := do
  markKey
  modify fun s => { s with keys := none :: s.keys, brackets := token :: s.brackets }
  allowKey true
  emit token
  skip 1

def closeBracket (token : Token) : Scan Unit := do
  dropKey
  modify fun s =>
    if s.inFlow then { s with keys := s.keys.drop 1, brackets := s.brackets.drop 1 } else s
  allowKey false
  emit token
  skip 1

def comma : Scan Unit := do
  dropKey
  allowKey true
  emit .comma
  skip 1

/-- Starts a block where a key or an item may start. -/
def startBlock (token : Token) : Scan Unit := do
  let s ← get
  if !s.inFlow then
    if !s.allowsKey then malformed
    if ← roll s.cursor.column then emit token

def item : Scan Unit := do
  startBlock .sequenceStart
  dropKey
  allowKey true
  emit .item
  skip 1

/-- A key that is marked by a question mark. -/
def markedKey : Scan Unit := do
  startBlock .mappingStart
  dropKey
  allowKey !(← get).inFlow
  emit .key
  skip 1

/-- A colon: what stands before it was a key, if a key could start there. -/
def value : Scan Unit := do
  let s ← get
  match s.keys with
  | some key :: keys =>
    set { s with keys := none :: keys }
    let opened := if ← roll key.column then [Token.mappingStart] else []
    insertAt key.index (opened ++ [.key])
    allowKey false
  | _ =>
    startBlock .mappingStart
    allowKey !s.inFlow
  emit .value
  skip 1

/-! ## Scalars and properties -/

/-- The characters of the name of an anchor. -/
def isNameChar (c : Char) : Bool :=
  !isPad c && !isLineEnd c && !isFlowMark c && c ≠ '\ufeff'

/-- A name behind its mark. -/
def named (make : Text → Token) : Scan Unit := do
  markKey
  allowKey false
  let (name, after) := ((← get).cursor.skip 1).takeWhile isNameChar
  if name.isEmpty || after.rest.head? = some '\ufeff' then malformed
  emit (make name)
  moveTo after

def tag : Scan Unit := do
  markKey
  allowKey false
  let c := (← get).cursor
  let (token, rest) ← expect (readTag? c.rest)
  emit token
  moveTo (c.before rest)

def quoted (double : Bool) : Scan Unit := do
  markKey
  allowKey false
  let (content, after) ← readQuoted double ((← get).cursor.skip 1)
  emit (.scalar content false)
  moveTo after

def block (folded : Bool) : Scan Unit := do
  dropKey
  allowKey true
  let s ← get
  let (content, after) ← expect (readBlock? folded s.indent (s.cursor.skip 1))
  emit (.scalar content false)
  moveTo after

def plain : Scan Unit := do
  markKey
  let s ← get
  let reading := readPlain s.inFlow (s.indent + 1) s.cursor
  emit (.scalar reading.content true)
  moveTo reading.after
  allowKey reading.endsLine

/-! ## Documents -/

def documentMark : Scan Unit := do
  unroll (-1)
  dropKey
  allowKey false
  emit (if (← get).cursor.rest.head? = some '-' then .documentStart else .documentEnd)
  skip 3

def directive : Scan Unit := do
  unroll (-1)
  dropKey
  allowKey false
  let c := (← get).cursor
  let (token, rest) ← expect (readDirective? (c.rest.drop 1))
  emit token
  moveTo (← expect (lineRest? (c.before rest)))

/-! ## The scan -/

/-- Whether the token before waits for one that may still make a key of what stands in front. -/
def awaitsKey : Scan Bool := do
  dropStaleKeys
  return (← get).keys.any Option.isSome

/-- Whether the colon before `rest` is the mark of a value. In braces it need not end a word, unless
a value is expected and a key may still turn up. -/
def isValue (s : Scanner) (awaitsKey : Bool) (rest : Text) : Bool :=
  wordEnds rest ||
    (s.brackets.head? = some .braceOpen && !(awaitsKey && s.tokens.head? = some .value))

/-- Characters that cannot start a plain scalar. -/
def indicators : Text := "-?:,[]\x7b\x7d#&*!|>'\"%@`".toList

def startsPlain (inFlow : Bool) (c : Char) (rest : Text) : Bool :=
  if inFlow && c = ':' then !rest.head?.any isPad
  else if c = '-' || (!inFlow && (c = '?' || c = ':')) then !wordEnds rest
  else !isPad c && !indicators.contains c

/-- Reads the token that starts with `c`. -/
def token (awaitsKey : Bool) (c : Char) (rest : Text) : Scan Unit := do
  let s ← get
  let inFlow := s.inFlow
  if s.cursor.column = 0 && c = '%' then directive
  else if s.cursor.isAtDocument then documentMark
  else if c = '[' then openBracket .bracketOpen
  else if c = '{' then openBracket .braceOpen
  else if c = ']' then closeBracket .bracketClose
  else if c = '}' then closeBracket .braceClose
  else if c = ',' then comma
  else if c = '-' && wordEnds rest then item
  else if c = '?' && (inFlow || wordEnds rest) then markedKey
  else if c = ':' && isValue s awaitsKey rest then value
  else if c = '*' then named .reference
  else if c = '&' then named .anchor
  else if c = '!' then tag
  else if c = '|' && !inFlow then block false
  else if c = '>' && !inFlow then block true
  else if c = '\'' then quoted false
  else if c = '"' then quoted true
  else if startsPlain inFlow c rest then plain
  else malformed

/-- Reads tokens up to the end of the text. Each one takes a character at least. -/
def all : Nat → Scan Unit
  | 0 => malformed
  | fuel + 1 => do
    let awaitsKey ← awaitsKey
    passGap
    dropStaleKeys
    let c := (← get).cursor
    match c.rest with
    | [] =>
      unroll (-1)
      dropKey
    | x :: rest =>
      unroll c.column
      token awaitsKey x rest
      all fuel

end Scan

/-- The tokens of a text. -/
def Token.scan (t : Text) : Except Defect (List Token) :=
  if t.all isAllowed then
    ((Scan.all (t.length + 1)).run (.start t)).map fun (_, s) => s.tokens.reverse
  else .error .malformed

end Whisker.Yaml
