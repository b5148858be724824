import Whisker.Text.Basic

/-! Kinds of characters: blanks, tables of code points and digits. -/

namespace Whisker.Text

/-! ## Blanks

Trimming and splitting treat every Unicode space, the line and paragraph separators and the
information separators alike. -/

def isBlank (c : Char) : Bool :=
  let n := c.toNat
  (0x09 ≤ n && n ≤ 0x0d) || (0x1c ≤ n && n ≤ 0x20) || n == 0x85 || n == 0xa0 || n == 0x1680 ||
    (0x2000 ≤ n && n ≤ 0x200a) || n == 0x2028 || n == 0x2029 || n == 0x202f || n == 0x205f ||
    n == 0x3000

/-- What may surround a numeral: the blanks but for the information separators. -/
def isPadding (c : Char) : Bool := isBlank c && !(0x1c ≤ c.toNat && c.toNat ≤ 0x1f)

/-- The text without blanks at its ends. -/
def strip (t : Text) : Text := trim isBlank t

/-- The words between runs of blanks; none is empty. -/
def words (t : Text) : List Text := (pieces isBlank t).filter (!·.isEmpty)

/-- Some character is not blank; in particular the text is not empty. -/
def hasInk (t : Text) : Bool := t.any (!isBlank ·)

theorem ne_nil_of_hasInk {t : Text} (h : hasInk t = true) : t ≠ [] := by
  rintro rfl
  simp [hasInk] at h

/-! ## Tables

Ranges have both ends included. -/

def inRanges (ranges : List (Nat × Nat)) (c : Char) : Bool :=
  ranges.any fun (low, high) => low ≤ c.toNat && c.toNat ≤ high

/-- Every `stride`-th character from `low` to `high` maps to the one `offset` further on. -/
structure Shift where
  low : Nat
  high : Nat
  stride : Nat
  offset : Int

def Shift.covers (s : Shift) (c : Char) : Bool :=
  s.low ≤ c.toNat && c.toNat ≤ s.high && (c.toNat - s.low) % s.stride == 0

def Shift.apply (s : Shift) (c : Char) : Char := Char.ofNat (c.toNat + s.offset).toNat

/-- A character that no range covers stays. -/
def shift (shifts : List Shift) (c : Char) : Char :=
  match shifts.find? (·.covers c) with
  | some s => s.apply c
  | none => c

/-! ## Digits

The decimal ones have a value in a numeral; the other digit characters (superscripts, circled
digits) have none. -/

/-- The zero of each run of ten consecutive decimal digits. -/
def decimalZeros : List Nat := [
  0x30, 0x660, 0x6f0, 0x7c0, 0x966, 0x9e6, 0xa66, 0xae6, 0xb66, 0xbe6, 0xc66, 0xce6, 0xd66,
  0xde6, 0xe50, 0xed0, 0xf20, 0x1040, 0x1090, 0x17e0, 0x1810, 0x1946, 0x19d0, 0x1a80, 0x1a90,
  0x1b50, 0x1bb0, 0x1c40, 0x1c50, 0xa620, 0xa8d0, 0xa900, 0xa9d0, 0xa9f0, 0xaa50, 0xabf0, 0xff10,
  0x104a0, 0x10d30, 0x11066, 0x110f0, 0x11136, 0x111d0, 0x112f0, 0x11450, 0x114d0, 0x11650,
  0x116c0, 0x11730, 0x118e0, 0x11950, 0x11c50, 0x11d50, 0x11da0, 0x16a60, 0x16ac0, 0x16b50,
  0x1d7ce, 0x1d7d8, 0x1d7e2, 0x1d7ec, 0x1d7f6, 0x1e140, 0x1e2f0, 0x1e950, 0x1fbf0]

/-- Characters that count as digits but have no place in a decimal numeral. -/
def otherDigitRanges : List (Nat × Nat) := [
  (0xb2, 0xb3), (0xb9, 0xb9), (0x1369, 0x1371), (0x19da, 0x19da), (0x2070, 0x2070),
  (0x2074, 0x2079), (0x2080, 0x2089), (0x2460, 0x2468), (0x2474, 0x247c), (0x2488, 0x2490),
  (0x24ea, 0x24ea), (0x24f5, 0x24fd), (0x24ff, 0x24ff), (0x2776, 0x277e), (0x2780, 0x2788),
  (0x278a, 0x2792), (0x10a40, 0x10a43), (0x10e60, 0x10e68), (0x11052, 0x1105a),
  (0x1f100, 0x1f10a)]

/-- The value of a decimal digit of any script. -/
def decimalValue? (c : Char) : Option Nat :=
  (decimalZeros.find? fun start => start ≤ c.toNat && c.toNat < start + 10).map (c.toNat - ·)

def isDigit (c : Char) : Bool :=
  (decimalValue? c).isSome || inRanges otherDigitRanges c

/-- The value of a numeral written in decimal digits only; the empty numeral has none. -/
def decimalNumeral? : Text → Option Nat
  | [] => none
  | digits => digits.foldlM (fun total c => (decimalValue? c).map (total * 10 + ·)) 0

/-- The decimal digits of a number, the most significant first. -/
def ofNat (n : Nat) : Text := Nat.toDigits 10 n

def ofInt : Int → Text
  | .ofNat n => ofNat n
  | .negSucc n => '-' :: ofNat (n + 1)

example : isDigit '²' = true ∧ decimalValue? '²' = none := by decide

end Whisker.Text
