import Whisker.Text.Characters

/-! Numerals: whole numbers as texts, in bases up to sixteen. -/

namespace Whisker.Text

/-- Why a text is no numeral that can be read. -/
inductive NumeralFault where
  | malformed
  | tooLong (digits : Nat)
deriving DecidableEq

/-- The most decimal digits that a number is read from or written with, zeros in front included. -/
def longestNumeral : Nat := 4300

/-- The value of a digit below the base; letters follow after nine. -/
def digitValue? (base : Nat) (c : Char) : Option Nat :=
  ((decimalValue? c).or (("abcdef".toList.idxOf? c.toLower).map (· + 10))).filter (· < base)

/-- Drops the mark of a base from the front of its numeral. -/
def dropBaseMark (base : Nat) (t : Text) : Text :=
  let mark := if base = 2 then ['b', 'B'] else if base = 8 then ['o', 'O'] else
    if base = 16 then ['x', 'X'] else []
  match t with
  | '0' :: c :: digits => if mark.contains c then digits else t
  | _ => t

/-- The sign of a numeral and what stands behind it. -/
def splitSign (t : Text) : Bool × Text :=
  match t with
  | '-' :: rest => (true, rest)
  | '+' :: rest => (false, rest)
  | _ => (false, t)

/-- The number of a numeral with an optional sign, between paddings. Of a decimal one with too many
digits nothing behind them matters. -/
def readInteger (base : Nat) (t : Text) : Except NumeralFault Int :=
  let (negative, unsigned) := splitSign (trim isPadding t)
  let numeral := dropBaseMark base unsigned
  let digits := numeral.takeWhile fun c => (digitValue? base c).isSome
  if base = 10 && longestNumeral < digits.length then .error (.tooLong digits.length)
  else if digits.isEmpty || digits.length < numeral.length then .error .malformed
  else
    let n := (digits.filterMap (digitValue? base)).foldl (fun total d => total * base + d) 0
    .ok (if negative then -(n : Int) else n)

/-- Whether a number has no more digits than can be written. -/
def isWritable (i : Int) : Bool := i.natAbs < Nat.pow 10 longestNumeral

/-- Drops each low line that stands between two digits. -/
def joinDigits : Text → Text
  | c :: '_' :: d :: rest =>
    if c.isDigit && d.isDigit then c :: joinDigits (d :: rest)
    else c :: '_' :: joinDigits (d :: rest)
  | c :: rest => c :: joinDigits rest
  | [] => []

/-- A numeral in the plain decimal digits, without paddings and low lines between digits. -/
def plainNumeral (t : Text) : Text :=
  joinDigits ((trim isPadding t).map fun c =>
    match decimalValue? c with
    | some n => Nat.digitChar n
    | none => c)

example : (readInteger 10 " -12".toList).toOption = some (-12) := by decide

example : (readInteger 16 "0xfF".toList).toOption = some 255 := by decide

end Whisker.Text
