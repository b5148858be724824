import Whisker.Text.Case
import Whisker.Yaml.Basic
import Whisker.Yaml.Timestamp

/-! What a plain scalar means: a truth value, a number, a timestamp, nothing or else itself. -/

namespace Whisker.Yaml

/-! ## Numbers -/

def isDigitOrMark (c : Char) : Bool := c.isDigit || c = '_'

def dropSign (t : Text) : Text := (Text.splitSign t).2

def dropMarks (t : Text) : Text := t.filter (· ≠ '_')

/-- An exponent mark and digits; `signed` exponents need a sign. -/
def isExponent (signed : Bool) (t : Text) : Bool :=
  let isNumber (digits : Text) : Bool := !digits.isEmpty && digits.all Char.isDigit
  match t with
  | mark :: rest =>
    (mark = 'e' || mark = 'E') &&
      match rest with
      | '+' :: digits => isNumber digits
      | '-' :: digits => isNumber digits
      | digits => !signed && isNumber digits
  | [] => false

/-- A decimal with a point or an exponent. -/
def isDecimal (t : Text) : Bool :=
  let unsigned := dropSign t
  let whole := unsigned.takeWhile isDigitOrMark
  match unsigned.drop whole.length with
  | '.' :: rest =>
    let fraction := rest.takeWhile isDigitOrMark
    let tail := rest.drop fraction.length
    if whole.isEmpty then !fraction.isEmpty && (tail.isEmpty || isExponent true tail)
    else whole.head? ≠ some '_' && (tail.isEmpty || isExponent false tail)
  | tail => !whole.isEmpty && whole.head? ≠ some '_' && isExponent false tail

def infinities : List Text := [".inf", ".Inf", ".INF"].map String.toList

def notANumbers : List Text := [".nan", ".NaN", ".NAN"].map String.toList

def isFloat (t : Text) : Bool :=
  notANumbers.contains t || infinities.contains (dropSign t) || isDecimal t

/-- Digits of a base behind its mark, or decimal ones, with low lines among them. -/
def isUnsignedInt : Text → Bool
  | '0' :: 'b' :: digits => isDigits 2 digits
  | '0' :: 'o' :: digits => isDigits 8 digits
  | '0' :: 'x' :: digits => isDigits 16 digits
  | digits => isDigits 10 digits
where
  isDigits (base : Nat) (digits : Text) : Bool :=
    !digits.isEmpty && digits.all fun c =>
      c = '_' || (c.isAlphanum && (Text.digitValue? base c).isSome)

def isInt (t : Text) : Bool := t.head? ≠ some '_' && isUnsignedInt (dropSign t)

/-- Reads a whole number of a base. -/
def readInt (base : Nat) (t : Text) : Except Failure Int :=
  match Text.readInteger base t with
  | .ok i => .ok i
  | .error .malformed => .error (.badNumeral base t)
  | .error (.tooLong digits) => .error (.numeralTooLong digits)

/-- The whole number that a text stands for. The sign applies to whatever number follows it. -/
def intOf (t : Text) : Except Failure Int :=
  let digits := dropMarks t
  if digits.isEmpty then .error .emptyNumeral
  else
    let (negative, body) := Text.splitSign digits
    let size := match body with
      | '0' :: 'b' :: rest => readInt 2 rest
      | '0' :: 'o' :: rest => readInt 8 rest
      | '0' :: 'x' :: rest => readInt 16 rest
      | _ => readInt 10 body
    size.map fun i => if negative then -i else i

/-- The floating-point number that a text stands for. -/
def floatOf (t : Text) : Except Failure Binary64 :=
  let digits := Text.lower (dropMarks t)
  if digits.isEmpty then .error .emptyNumeral
  else
    let (negative, body) := Text.splitSign digits
    let size :=
      if body = ".inf".toList then some (.infinity false)
      else if body = ".nan".toList then some .nan
      else Binary64.read? (Text.plainNumeral body)
    match size with
    | some x => .ok (if negative then x.negate else x)
    | none => .error (.badDecimal body)

/-! ## Words -/

def trueWords : List Text := ["true", "True", "TRUE"].map String.toList

def falseWords : List Text := ["false", "False", "FALSE"].map String.toList

def nullWords : List Text := ["", "~", "null", "Null", "NULL"].map String.toList

/-- Words that are yes or no under the tag of truth values, in any case. -/
def yesWords : List Text := ["true", "yes", "on", "y"].map String.toList

def noWords : List Text := ["false", "no", "off", "n"].map String.toList

def boolOf (t : Text) : Except Failure Bool :=
  let word := Text.lower t
  if yesWords.contains word then .ok true
  else if noWords.contains word then .ok false
  else .error .unknownWord

/-- The mark of the value of a mapping, which means nothing by itself. -/
def valueMark : Text := ['=']

def mergeMark : Text := ['<', '<']

/-! ## Timestamps -/

def timestampOf (stamp : Timestamp) : Except Failure Yaml :=
  match stamp.clock with
  | some clock => (Timestamp.momentOf stamp.date clock).map .moment
  | none =>
    match stamp.date.fault? with
    | some fault => .error (.notInCalendar fault)
    | none => .ok (.date stamp.date)

example : isInt "-0x1_F".toList = true ∧ isInt "0_x1".toList = false := by decide

example : (intOf "-0x1_F".toList).toOption = some (-31) := by decide

example : isDecimal "1e2".toList = true ∧ isDecimal ".5".toList = true := by decide

example : isDecimal "1".toList = false := by decide

end Whisker.Yaml
