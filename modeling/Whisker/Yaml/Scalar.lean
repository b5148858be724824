import Whisker.Yaml.Basic
import Whisker.Yaml.Cursor

/-! Reading scalars: plain ones, those in quotes, and blocks of lines. -/

namespace Whisker.Yaml

/-! ## Line folding -/

/-- Each break as it is kept; the usual ones are line feeds. -/
def keptBreak (c : Char) : Char := if isLineEnd c then '\n' else c

/-- The text of a gap with breaks: a single line feed is a space, and of several all but the first
stay. -/
def foldBreaks (gap : Text) : Text :=
  match (gap.filter isBreak).map keptBreak with
  | ['\n'] => [' ']
  | '\n' :: more => more
  | breaks => breaks

/-- The text of a gap between two words. -/
def foldGap (gap : Text) : Text := if gap.any isBreak then foldBreaks gap else gap

/-! ## Plain scalars -/

/-- The characters of a plain scalar up to the next gap or the end of the scalar. -/
def plainWord (inFlow : Bool) : Text → Text
  | [] => []
  | c :: rest =>
    if wordEnds (c :: rest) || (c = ':' && wordEnds rest) || (inFlow && isFlowMark c) then []
    else c :: plainWord inFlow rest

/-- What is left behind spaces and breaks, up to the mark of a document on a line of its own. Tabs
do not stand between the words of a plain scalar. -/
def behindPlainGap (atLineStart : Bool) : Text → Text
  | [] => []
  | c :: rest =>
    if atLineStart && startsDocument (c :: rest) then c :: rest
    else if isBreak c then behindPlainGap true rest
    else if c = ' ' then behindPlainGap false rest
    else c :: rest

/-- A scalar as it was read. -/
structure ScalarReading where
  content : Text
  /-- The cursor behind the scalar and the gap after it. -/
  after : Cursor
  /-- Whether the gap after the scalar ends a line. -/
  endsLine : Bool

/-- Reads words of a plain scalar as long as lines are indented by `indent` at least. -/
def plainWords (inFlow : Bool) (indent : Int) : Nat → Cursor → ScalarReading
  | 0, c => ⟨[], c, false⟩
  | fuel + 1, c =>
    let word := if c.rest.head? = some '#' then [] else plainWord inFlow c.rest
    let wordEnd := c.skip word.length
    let after := wordEnd.before (behindPlainGap false wordEnd.rest)
    let gap := wordEnd.rest.take (after.offset - wordEnd.offset)
    let more :=
      if word.isEmpty || gap.isEmpty || meetsDocument gap after.rest then ⟨[], after, false⟩
      else if !inFlow && (after.column : Int) < indent then ⟨[], after, false⟩
      else plainWords inFlow indent fuel after
    if more.content.isEmpty then ⟨word, after, gap.any isBreak⟩
    else ⟨word ++ foldGap gap ++ more.content, more.after, more.endsLine⟩

def readPlain (inFlow : Bool) (indent : Int) (c : Cursor) : ScalarReading :=
  plainWords inFlow indent (c.rest.length + 1) c

/-! ## Scalars in quotes -/

/-- The character of a code point. A surrogate is no character of a text. -/
def charOfCode (n : Nat) : Except Defect Char :=
  if h : n.isValidChar then .ok (Char.ofNatAux n h)
  else if n < 0x110000 then .error .malformed
  else if n < 0x80000000 then .error (.failure .badCode)
  else .error (.failure .codeTooLarge)

/-- The value of hexadecimal digits. -/
def hexCode? (digits : Text) : Option Nat :=
  digits.foldlM (fun total c =>
    ("0123456789abcdef".toList.idxOf? c.toLower).map (total * 16 + ·)) 0

/-- The characters that an escape with one letter stands for. -/
def namedEscapes : List (Char × Nat) := [
  ('0', 0), ('a', 7), ('b', 8), ('t', 9), ('\t', 9), ('n', 10), ('v', 11), ('f', 12), ('r', 13),
  ('e', 27), (' ', 32), ('"', 34), ('/', 47), ('\\', 92), ('N', 0x85), ('_', 0xa0), ('L', 0x2028),
  ('P', 0x2029)]

/-- How many hexadecimal digits follow the letter of an escape. -/
def codeWidth? (letter : Char) : Option Nat :=
  [('x', 2), ('u', 4), ('U', 8)].lookup letter

/-- The character of the escape behind a backslash, and the rest. -/
def readEscape : Text → Except Defect (Char × Text)
  | [] => .error .malformed
  | letter :: rest =>
    match codeWidth? letter, namedEscapes.lookup letter with
    | some width, _ =>
      match hexCode? (rest.take width) with
      | some n =>
        if rest.length < width then .error .malformed
        else (charOfCode n).map fun c => (c, rest.drop width)
      | none => .error .malformed
    | none, some n => .ok (Char.ofNat n, rest)
    | none, none => .error .malformed

/-- Why a stretch of a quoted scalar ends. -/
inductive QuotedStop where
  | closed
  /-- A backslash before a break, which joins two lines. -/
  | joined
  | gap

/-- Reads a stretch without gaps; the rest starts behind the closing quote or the backslash. -/
def quotedWord (double : Bool) : Nat → Text → Except Defect (Text × Text × QuotedStop)
  | 0, _ => .error .malformed
  | _ + 1, [] => .error .malformed
  | fuel + 1, c :: rest =>
    let more (taken : Char) (rest : Text) : Except Defect (Text × Text × QuotedStop) :=
      (quotedWord double fuel rest).map fun (content, rest, stop) => (taken :: content, rest, stop)
    if isGap c then .ok ([], c :: rest, .gap)
    else if double then
      if c = '"' then .ok ([], rest, .closed)
      else if c = '\\' then
        if rest.head?.any isBreak then .ok ([], rest, .joined)
        else (readEscape rest).bind fun (escaped, rest) => more escaped rest
      else more c rest
    else if c = '\'' then
      match rest with
      | '\'' :: rest => more c rest
      | _ => .ok ([], rest, .closed)
    else more c rest

/-- The text of the gap behind an escaped break: the breaks after the first. -/
def joinedBreaks (gap : Text) : Text := ((gap.filter isBreak).drop 1).map keptBreak

/-- Reads up to the closing quote. No line may start with the mark of a document. -/
def quotedWords (double : Bool) : Nat → Cursor → Except Defect (Text × Cursor)
  | 0, _ => .error .malformed
  | fuel + 1, c => do
    let (content, rest, stop) ← quotedWord double (c.rest.length + 1) c.rest
    let after := c.before rest
    let (gap, next) := after.takeWhile isGap
    let further (between : Text) : Except Defect (Text × Cursor) :=
      if meetsDocument gap next.rest then .error .malformed
      else (quotedWords double fuel next).map fun (more, last) => (content ++ between ++ more, last)
    match stop with
    | .closed => return (content, after)
    | .joined => further (joinedBreaks gap)
    | .gap => further (foldGap gap)

/-- Reads a scalar whose opening quote is already gone. -/
def readQuoted (double : Bool) (c : Cursor) : Except Defect (Text × Cursor) :=
  quotedWords double (c.rest.length + 1) c

/-! ## Blocks of lines -/

/-- What becomes of the breaks at the end of a block. -/
inductive Chomping where
  | strip
  | clip
  | keep

structure BlockHeader where
  chomping : Chomping
  /-- The indent of the block beyond the one around it, if it is given. -/
  increment : Option Nat

def chompingOf? (c : Char) : Option Chomping :=
  if c = '+' then some .keep else if c = '-' then some .strip else none

def incrementOf? (c : Char) : Option Nat :=
  if '1' ≤ c && c ≤ '9' then some (c.toNat - '0'.toNat) else none

/-- The header behind the mark of a block: a sign and a digit in any order. -/
def blockHeader (t : Text) : BlockHeader × Text :=
  let sign (t : Text) : Option Chomping × Text :=
    match t with
    | c :: rest => if (chompingOf? c).isSome then (chompingOf? c, rest) else (none, t)
    | [] => (none, t)
  let digit (t : Text) : Option Nat × Text :=
    match t with
    | c :: rest => if (incrementOf? c).isSome then (incrementOf? c, rest) else (none, t)
    | [] => (none, t)
  match sign t with
  | (some chomping, rest) =>
    let (increment, rest) := digit rest
    (⟨chomping, increment⟩, rest)
  | (none, _) =>
    let (increment, rest) := digit t
    let (chomping, rest) := sign rest
    (⟨chomping.getD .clip, increment⟩, rest)

/-- The rest of a line behind what has a meaning in it: spaces, and a comment. -/
def lineRest? (c : Cursor) : Option Cursor :=
  let c := (c.takeWhile (· = ' ')).2
  let c := if c.rest.head? = some '#' then (c.takeWhile (!isLineEnd ·)).2 else c
  if c.rest.head?.all isLineEnd then some c.next else none

/-- Blank lines and the place after them. -/
structure BlankLines where
  breaks : Text
  /-- The widest indent that was seen. -/
  widest : Nat
  /-- The indent of the first line. -/
  first : Option Nat
  after : Cursor

/-- Reads breaks and spaces, as far as the indent reaches if it is known. -/
def blankLines (indent : Option Nat) : Nat → Cursor → BlankLines
  | 0, c => ⟨[], 0, none, c⟩
  | fuel + 1, c =>
    match c.rest with
    | [] => ⟨[], 0, none, c⟩
    | x :: _ =>
      let more := blankLines indent fuel c.next
      if isBreak x then { more with breaks := keptBreak x :: more.breaks, first := some c.column }
      else if x = ' ' && indent.all (c.column < ·) then
        { more with widest := max c.next.column more.widest }
      else ⟨[], 0, none, c⟩

/-- Lines of a block as they were read. -/
structure BlockLines where
  content : Text
  /-- The break at the end of the last line. -/
  lastBreak : Text
  /-- The breaks of the blank lines behind it. -/
  moreBreaks : Text
  after : Cursor

/-- Reads lines that start at the column `indent`, the first of them behind blank lines. An
outermost block ends before the mark of a document. -/
def blockLines (folded outermost : Bool) (indent : Nat) : Nat → Text → Cursor → BlockLines
  | 0, breaks, c => ⟨[], [], breaks, c⟩
  | fuel + 1, breaks, c =>
    let (line, lineEnd) := c.takeWhile (!isLineEnd ·)
    let lastBreak := (lineEnd.rest.take 1).map keptBreak
    let blanks := blankLines (some indent) (c.rest.length + 1) lineEnd.next
    let next := blanks.after
    if next.column ≠ indent || next.rest.isEmpty || (outermost && next.isAtDocument) then
      ⟨breaks ++ line, lastBreak, blanks.breaks, next⟩
    else
      let more := blockLines folded outermost indent fuel blanks.breaks next
      let isFolded := folded && !line.head?.any isPad && !next.rest.head?.any isPad
      let between :=
        if !isFolded then lastBreak else if blanks.breaks.isEmpty then [' '] else []
      { more with content := breaks ++ line ++ between ++ more.content }

/-- Reads a block whose mark is already gone; `above` is the indent around it. -/
def readBlock? (folded : Bool) (above : Int) (c : Cursor) : Option (Text × Cursor) := do
  let (header, rest) := blockHeader c.rest
  if !nameEnds rest then none
  let start ← lineRest? (c.before rest)
  let given := header.increment.map fun n => (max above 0).toNat + n
  let blanks := blankLines given (c.rest.length + 1) start
  if given.isNone && blanks.first.any fun n => 0 < n && n < blanks.widest then none
  let indent := given.getD (max blanks.widest (above + 1).toNat)
  let first := blanks.after
  let lines :=
    if first.column ≠ indent || first.rest.isEmpty then ⟨[], [], blanks.breaks, first⟩
    else
      let outermost := given.isNone && above < 0
      blockLines folded outermost indent (c.rest.length + 1) blanks.breaks first
  let tail := match header.chomping with
    | .strip => []
    | .clip => lines.lastBreak
    | .keep => lines.lastBreak ++ lines.moreBreaks
  return (lines.content ++ tail, lines.after)

end Whisker.Yaml
