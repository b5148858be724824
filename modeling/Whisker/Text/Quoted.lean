import Whisker.Text.Printable

/-! Quoted texts, as they stand in messages and in the printed form of collections. -/

namespace Whisker.Text

namespace Quoted

/-- The single quote, unless the text has single quotes and no double ones. -/
def mark (t : Text) : Char :=
  if t.contains '\'' && !t.contains '"' then '"' else '\''

/-- A code point in `width` hexadecimal digits. -/
def hex (width code : Nat) : Text :=
  let digits := Nat.toDigits 16 code
  List.replicate (width - digits.length) '0' ++ digits

/-- The escapes with a letter of their own, and those of the mark and the backslash. -/
def namedEscape? (mark c : Char) : Option Text :=
  if c = mark || c = '\\' then some ['\\', c]
  else if c = '\t' then some ['\\', 't']
  else if c = '\n' then some ['\\', 'n']
  else if c = '\r' then some ['\\', 'r']
  else none

def char (mark c : Char) : Text :=
  match namedEscape? mark c with
  | some escape => escape
  | none =>
    if isPrintable c then [c]
    else if c.toNat < 0x100 then '\\' :: 'x' :: hex 2 c.toNat
    else if c.toNat < 0x10000 then '\\' :: 'u' :: hex 4 c.toNat
    else '\\' :: 'U' :: hex 8 c.toNat

/-- Bytes outside printable ASCII are always written in hexadecimal. -/
def byte (mark : Char) (b : UInt8) : Text :=
  let c := Char.ofNat b.toNat
  match namedEscape? mark c with
  | some escape => escape
  | none => if 0x20 ≤ b.toNat && b.toNat < 0x7f then [c] else '\\' :: 'x' :: hex 2 b.toNat

end Quoted

/-- The text between quotes, with escapes for what would not show. -/
def quoted (t : Text) : Text :=
  let mark := Quoted.mark t
  mark :: t.flatMap (Quoted.char mark) ++ [mark]

def quotedBytes (bytes : List UInt8) : Text :=
  let mark := Quoted.mark (bytes.map fun b => Char.ofNat b.toNat)
  'b' :: mark :: bytes.flatMap (Quoted.byte mark) ++ [mark]

/-- Quoted texts in brackets. -/
def quotedList (texts : List Text) : Text := '[' :: join ", ".toList (texts.map quoted) ++ [']']

example : quoted "it's\n".toList = "\"it's\\n\"".toList := by decide

end Whisker.Text
