import Whisker.Text.Characters

/-! Binary floating-point numbers of 64 bits as exact values: a sign, a whole significand and a
power of two. Decimals are read to the nearest such number, ties to the even significand. -/

namespace Whisker

inductive Binary64 where
  | nan
  | infinity (negative : Bool)
  /-- The value is `significand * 2 ^ exponent`. The significand has 53 bits, or fewer at the least
  exponent. -/
  | finite (negative : Bool) (significand : Nat) (exponent : Int)
deriving DecidableEq, Repr

namespace Binary64

/-- `n` times a power of the base. Negative exponents count as nought: a fraction has them on its
other side. -/
def scaled (base : Nat) (exponent : Int) (n : Nat) : Nat := n * Nat.pow base exponent.toNat

/-- The least significand with 53 bits. -/
def leastFull : Nat := 4503599627370496

def leastExponent : Int := -1074

def greatestExponent : Int := 971

def zero (negative : Bool) : Binary64 := .finite negative 0 leastExponent

/-- The quotient rounded to the nearest whole number, a half to the even neighbour. -/
def roundedDiv (num den : Nat) : Nat :=
  let quotient := num / den
  let remainder := num % den
  if 2 * remainder < den || (2 * remainder == den && quotient % 2 == 0) then quotient
  else quotient + 1

/-- The power of two for which the significand of `num / den` has 53 bits, as far as the least
exponent allows. -/
def fittingExponent (num den : Nat) : Int :=
  let scale := (Nat.log2 num : Int) - Nat.log2 den
  let reached := scaled 2 scale den ≤ scaled 2 (-scale) num
  max leastExponent (scale - if reached then 52 else 53)

/-- The number nearest to the positive fraction `num / den`. -/
def ofFraction (negative : Bool) (num den : Nat) : Binary64 :=
  let exponent := fittingExponent num den
  let significand := roundedDiv (scaled 2 (-exponent) num) (scaled 2 exponent den)
  let (significand, exponent) :=
    if significand = 2 * leastFull then (leastFull, exponent + 1) else (significand, exponent)
  if exponent > greatestExponent then .infinity negative
  else .finite negative significand exponent

/-- The number nearest to `digits * 10 ^ power`. Decimals far outside the range of finite numbers
are settled by their size. -/
def ofDecimal (negative : Bool) (digits : Nat) (power : Int) : Binary64 :=
  let size : Int := power + (Nat.toDigits 10 digits).length
  if digits = 0 || size < -400 then zero negative
  else if size > 400 then .infinity negative
  else ofFraction negative (scaled 10 power digits) (scaled 10 (-power) 1)

def negate : Binary64 → Binary64
  | .nan => .nan
  | .infinity negative => .infinity !negative
  | .finite negative significand exponent => .finite (!negative) significand exponent

/-- Zero of either sign. -/
def isZero : Binary64 → Bool
  | .finite _ 0 _ => true
  | _ => false

/-- The whole number that a finite number equals, if it has no fraction. -/
def toInt? : Binary64 → Option Int
  | .finite negative significand exponent =>
    let num := scaled 2 exponent significand
    let den := scaled 2 (-exponent) 1
    if num % den = 0 then
      let whole : Int := (num / den : Nat)
      some (if negative then -whole else whole)
    else none
  | _ => none

/-! ## Reading -/

/-- The digits at the start of a text, and the rest. -/
def readDigits (t : Text) : Text × Text := t.span fun c => c.isDigit

/-- The power of ten after an exponent mark, nought if there is no mark; the rest must be empty. -/
def readPower? : Text → Option Int
  | [] => some 0
  | mark :: rest =>
    if mark = 'e' || mark = 'E' then
      match rest with
      | '+' :: digits => (Text.decimalNumeral? digits).map fun n => (n : Int)
      | '-' :: digits => (Text.decimalNumeral? digits).map fun n => -(n : Int)
      | digits => (Text.decimalNumeral? digits).map fun n => (n : Int)
    else none

/-- A decimal with an optional fraction and power of ten, without its sign. -/
def readUnsigned? (negative : Bool) (t : Text) : Option Binary64 :=
  let (whole, rest) := readDigits t
  let (fraction, rest) := match rest with
    | '.' :: rest => readDigits rest
    | _ => ([], rest)
  match Text.decimalNumeral? (whole ++ fraction), readPower? rest with
  | some digits, some power => some (ofDecimal negative digits (power - fraction.length))
  | _, _ => none

/-- Reads an optional sign and then a decimal, an infinity or the mark of no number. -/
def read? (t : Text) : Option Binary64 :=
  let (negative, size) := match t with
    | '-' :: rest => (true, rest)
    | '+' :: rest => (false, rest)
    | _ => (false, t)
  let lowered := size.map Char.toLower
  if lowered = "nan".toList then some .nan
  else if lowered = "inf".toList || lowered = "infinity".toList then some (.infinity negative)
  else readUnsigned? negative size

end Binary64

end Whisker
