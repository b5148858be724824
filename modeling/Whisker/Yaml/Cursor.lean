import Whisker.Text.Basic

/-! Places in a YAML text while it is read, and the characters that divide it. -/

namespace Whisker.Yaml

/-! ## Characters -/

/-- The characters that a YAML text may hold. -/
def isAllowed (c : Char) : Bool :=
  let n := c.toNat
  n = 0x09 || n = 0x0a || n = 0x0d || (0x20 ≤ n && n ≤ 0x7e) || n = 0x85 ||
    (0xa0 ≤ n && n ≤ 0xfffd) || 0x10000 ≤ n

def isPad (c : Char) : Bool := c = ' ' || c = '\t'

def isLineEnd (c : Char) : Bool := c = '\n' || c = '\r' || c.toNat = 0x85

/-- What breaks a line between two words. The separators of lines and of paragraphs do not end a
word. -/
def isBreak (c : Char) : Bool := isLineEnd c || c.toNat = 0x2028 || c.toNat = 0x2029

def isGap (c : Char) : Bool := isPad c || isBreak c

/-- Whether a word ends before `rest`. -/
def wordEnds (rest : Text) : Bool := rest.head?.all fun c => isPad c || isLineEnd c

/-- Whether a name of a tag or of a directive ends before `rest`. -/
def nameEnds (rest : Text) : Bool := rest.head?.all fun c => c = ' ' || isBreak c

/-- Whether `rest` starts with the mark of a document's start or end. -/
def startsDocument (rest : Text) : Bool :=
  (rest.take 3 = "---".toList || rest.take 3 = "...".toList) && wordEnds (rest.drop 3)

/-- Whether a document's mark stands behind a gap, on a line of its own. -/
def meetsDocument (gap rest : Text) : Bool := gap.getLast?.any isBreak && startsDocument rest

/-- The marks that structure collections in brackets. -/
def isFlowMark (c : Char) : Bool := c = ',' || c = '[' || c = ']' || c = '{' || c = '}'

/-- A text without the line feed that may end it. -/
def withoutLineEnd (t : Text) : Text :=
  if t.getLast? = some '\n' && 1 < t.length then t.dropLast else t

/-! ## Cursors -/

/-- The rest of a text and where it starts; lines and columns count from nought. -/
structure Cursor where
  rest : Text
  offset : Nat
  line : Nat
  column : Nat

namespace Cursor

def start (t : Text) : Cursor := ⟨t, 0, 0, 0⟩

/-- Only the usual line ends start a line that is counted, and a byte order mark has no width. -/
def next (c : Cursor) : Cursor :=
  match c.rest with
  | [] => c
  | x :: rest =>
    if x = '\n' || x = '\r' then ⟨rest, c.offset + 1, c.line + 1, 0⟩
    else ⟨rest, c.offset + 1, c.line, if x = '\ufeff' then c.column else c.column + 1⟩

def skip : Nat → Cursor → Cursor
  | 0, c => c
  | n + 1, c => c.next.skip n

/-- The characters that satisfy `p`, and the cursor behind them. -/
def takeWhile (p : Char → Bool) (c : Cursor) : Text × Cursor :=
  let taken := c.rest.takeWhile p
  (taken, c.skip taken.length)

/-- The cursor before `rest`, the end of its text. -/
def before (c : Cursor) (rest : Text) : Cursor := c.skip (c.rest.length - rest.length)

def isAtDocument (c : Cursor) : Bool := c.column = 0 && startsDocument c.rest

end Cursor

end Whisker.Yaml
