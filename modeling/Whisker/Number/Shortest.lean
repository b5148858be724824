import Whisker.Number.Binary64

/-! The shortest decimal that reads back as a given number, and the layout of numbers in text. -/

namespace Whisker.Binary64

/-! ## Digits -/

/-- A positive finite number, `significand * 2 ^ exponent`. -/
structure Magnitude where
  significand : Nat
  exponent : Int

/-- The decimal `digits * 10 ^ power`. -/
structure Decimal where
  digits : Nat
  power : Int

/-- Both sides of a comparison of `a * 10 ^ i` with `n * 2 ^ j` as whole numbers. -/
def crossScaled (a : Nat) (i : Int) (n : Nat) (j : Int) : Nat × Nat :=
  (scaled 2 (-j) (scaled 10 i a), scaled 10 (-i) (scaled 2 j n))

/-- Four times the significand halfway to the neighbour below, which is nearer under a power of
two. -/
def Magnitude.lowEnd (x : Magnitude) : Nat :=
  if x.significand = leastFull && x.exponent > leastExponent then 4 * x.significand - 1
  else 4 * x.significand - 2

/-- Whether a decimal lies among the reals that round to the number. The ends belong to it when
the significand is even. -/
def Magnitude.readsBack (x : Magnitude) (d : Decimal) : Bool :=
  let (low, lowBound) := crossScaled d.digits d.power x.lowEnd (x.exponent - 2)
  let (high, highBound) := crossScaled d.digits d.power (4 * x.significand + 2) (x.exponent - 2)
  if x.significand % 2 = 0 then lowBound ≤ low && high ≤ highBound
  else lowBound < low && high < highBound

def Magnitude.below (x : Magnitude) (power : Int) : Bool :=
  let (ten, value) := crossScaled 1 power x.significand x.exponent
  value < ten

/-- The least power of ten above the number: an estimate from the binary size, put right by at most
two steps. -/
def Magnitude.scale (x : Magnitude) : Int :=
  let estimate := ((Nat.log2 x.significand : Int) + x.exponent) * 30103 / 100000
  if x.below estimate then (if x.below (estimate - 1) then estimate - 1 else estimate)
  else if x.below (estimate + 1) then estimate + 1 else estimate + 2

/-- The decimal with digits down to `power` that reads back, if one of the two next to the number
does: of two the nearer, of two equally near the even one. -/
def Magnitude.onGrid? (x : Magnitude) (power : Int) : Option Decimal :=
  let (unit, value) := crossScaled 1 power x.significand x.exponent
  let floor := value / unit
  let low : Decimal := ⟨floor, power⟩
  let high : Decimal := ⟨floor + 1, power⟩
  match x.readsBack low, x.readsBack high with
  | true, true =>
    let twice := 2 * value
    let middle := (2 * floor + 1) * unit
    some (if twice < middle || (twice == middle && floor % 2 == 0) then low else high)
  | true, false => some low
  | false, true => some high
  | false, false => none

/-- The exact decimal value. -/
def Magnitude.exact (x : Magnitude) : Decimal :=
  ⟨scaled 5 (-x.exponent) (scaled 2 x.exponent x.significand), -((-x.exponent).toNat : Int)⟩

/-- The decimal with the fewest digits that reads back as the number. -/
def Magnitude.shortest (x : Magnitude) : Decimal :=
  let scale := x.scale
  ((List.range 17).findSome? fun n => x.onGrid? (scale - ((n : Nat) + 1))).getD x.exact

/-! ## Layout -/

/-- How numbers stand in text. -/
structure Layout where
  /-- Decimals whose point would stand at most this many places after the first digit, and more
  than `leastPlace` places, are written without an exponent. -/
  greatestPlace : Int
  leastPlace : Int
  /-- The least number of digits of an exponent. -/
  exponentWidth : Nat

/-- Below `10 ^ 16` and from `10 ^ (-4)` on numbers are positional, and exponents have a sign and at
least two digits. -/
def Layout.standard : Layout := ⟨16, -4, 2⟩

def padLeft (width : Nat) (t : Text) : Text := List.replicate (width - t.length) '0' ++ t

def Layout.exponent (layout : Layout) (e : Int) : Text :=
  'e' :: (if e < 0 then '-' else '+') :: padLeft layout.exponentWidth (Text.ofNat e.natAbs)

/-- The decimal in text. `place` is where the point stands, counted from before the first digit. -/
def Layout.decimal (layout : Layout) (d : Decimal) : Text :=
  let all := Text.ofNat d.digits
  let place := all.length + d.power
  let digits := (all.reverse.dropWhile (· = '0')).reverse
  if layout.leastPlace < place && place ≤ layout.greatestPlace then
    if place ≤ 0 then "0.".toList ++ List.replicate (-place).toNat '0' ++ digits
    else
      let whole := digits.take place.toNat
      let fraction := digits.drop place.toNat
      whole ++ List.replicate (place.toNat - whole.length) '0' ++ '.' ::
        (if fraction.isEmpty then ['0'] else fraction)
  else
    let tail := digits.drop 1
    digits.take 1 ++ (if tail.isEmpty then [] else '.' :: tail) ++ layout.exponent (place - 1)

/-- The text of a number: the shortest decimal that reads back, always with a point or an
exponent. -/
def text : Binary64 → Text
  | .nan => "nan".toList
  | .infinity negative => if negative then "-inf".toList else "inf".toList
  | .finite negative significand exponent =>
    let size :=
      if significand = 0 then "0.0".toList
      else Layout.standard.decimal (Magnitude.shortest ⟨significand, exponent⟩)
    if negative then '-' :: size else size

end Whisker.Binary64
