import Whisker.Library.Path
import Whisker.Settings.Problem
import Whisker.Text.Numeral
import Whisker.Text.Utf8
import Whisker.View.Delimiters

/-! The values that a setting can be given as. A value of another kind counts when it clearly says
the same: a word or a number for a truth value, a numeral for a number, bytes for a text. -/

namespace Whisker.Settings

/-- What is wrong with a value, and with which item of it. -/
abbrev Field.Problems := List (Option Nat × ProblemKind)

/-- Reads a value, or says what is wrong with it. -/
abbrev Field (α : Type) := Value → Reading (Except Field.Problems α)

namespace Field

/-- A field with one problem, which concerns the whole value. -/
def whole {α : Type} (read : Value → Except ProblemKind α) : Field α := fun v =>
  return (read v).mapError fun kind => [(none, kind)]

/-! ## Texts, paths and delimiters -/

def readText : Value → Except ProblemKind Text
  | .text t => .ok t
  | .bytes content | .buffer content =>
    match Text.ofUtf8? content with
    | some t => .ok t
    | none => .error .textNotUtf8
  | _ => .error .notText

def readPath : Value → Except ProblemKind Path
  | .text t => .ok (Path.ofText t)
  | _ => .error .notPath

/-- Whether a failure says no more than that the value does not fit. -/
def saysUnfit : Failure → Bool
  | .unfit | .badDelimiters _ | .negativeLength => true
  | _ => false

def delimiters : Field Delimiters := fun v =>
  tryCatch (Except.ok <$> Delimiters.ofValue v) fun e =>
    if saysUnfit e then return .error [(none, .delimiters)] else throw e

/-! ## Truth values -/

def yesWords : List Text := ["1", "t", "y", "on", "yes", "true"].map String.toList

def noWords : List Text := ["0", "f", "n", "off", "no", "false"].map String.toList

def boolOfText (t : Text) : Except ProblemKind Bool :=
  let word := t.map Char.toLower
  if yesWords.contains word then .ok true
  else if noWords.contains word then .ok false
  else .error .boolUnreadable

def boolOfInt (i : Int) : Except ProblemKind Bool :=
  if i = 0 then .ok false else if i = 1 then .ok true else .error .boolUnreadable

/-- The end of the whole numbers of 64 bits with a sign. -/
def wordEnd : Int := 9223372036854775808

def isWord (i : Int) : Bool := -wordEnd ≤ i && i < wordEnd

def readBool : Value → Except ProblemKind Bool
  | .bool b => .ok b
  | .text t => boolOfText t
  | .bytes content =>
    match Text.ofUtf8? content with
    | some t => boolOfText t
    | none => .error .boolUnreadable
  | .int i => if isWord i then boolOfInt i else .error .notBool
  | .float x =>
    match x.toInt? with
    | some i => if -wordEnd < i && i < wordEnd then boolOfInt i else .error .notBool
    | none => .error .notBool
  | _ => .error .notBool

/-! ## Numbers -/

def isNonzeroDigit (c : Char) : Bool := '1' ≤ c && c ≤ '9'

/-- A whole number in decimal digits with at most a minus in front, and no zeros before its other
digits. Of one that is too long nothing behind the digits matters. -/
def strictInt (t : Text) : Except ProblemKind Int :=
  let (negative, digits) := match t with
    | '-' :: digits => (true, digits)
    | _ => (false, t)
  let counted := digits.takeWhile Char.isDigit
  let startsWell := digits = ['0'] || digits.head?.any isNonzeroDigit
  if !startsWell then .error .intUnreadable
  else if Text.longestNumeral < t.length - (digits.length - counted.length) then .error .intTooLong
  else if counted.length < digits.length then .error .intUnreadable
  else match Text.decimalNumeral? digits with
    | some n => .ok (if negative then -(n : Int) else n)
    | none => .error .intUnreadable

/-- Drops the zeros in front of a numeral, and marks between them; a zero before a point stays. -/
def dropZeros? (t : Text) : Option Text :=
  match t with
  | '0' :: _ =>
    let lead := t.takeWhile fun c => c = '0' || c = '_'
    let rest := t.drop lead.length
    let last := lead.getLast?.toList
    match rest with
    | [] => some last
    | c :: _ =>
      if isNonzeroDigit c || c = '-' then some rest
      else if c = '.' then some (last ++ rest)
      else none
  | c :: _ => if isNonzeroDigit c || c = '-' then some t else none
  | [] => none

/-- Drops a fraction of zeros only; there must be one. -/
def dropFraction (t : Text) : Text :=
  match Text.cut? ['.'] t with
  | some (whole, fraction) =>
    if !fraction.isEmpty && fraction.all (· = '0') then whole else t
  | none => t

/-- Drops single low lines between digits. -/
def dropMarks (t : Text) : Text :=
  let isMark (c : Char) : Bool := c = '_'
  if t.head?.any isMark || t.getLast?.any isMark || (Text.cut? ['_', '_'] t).isSome then t
  else t.filter (!isMark ·)

/-- A numeral without what may be left out: padding, a plus, zeros in front, a fraction of zeros
and marks between digits. -/
def tidied? (t : Text) : Option Text :=
  let tidy (t : Text) : Text := dropMarks (dropFraction t)
  match Text.trim Text.isPadding t with
  | '+' :: '-' :: _ => none
  | '+' :: digits => (dropZeros? digits).map tidy
  | '-' :: digits => (dropZeros? digits).map fun digits => tidy ('-' :: digits)
  | digits => (dropZeros? digits).map tidy

def intOfText (t : Text) : Except ProblemKind Int :=
  match strictInt t, (tidied? t).map strictInt with
  | .ok i, _ => .ok i
  | .error .intTooLong, _ => .error .intTooLong
  | _, some (.ok i) => .ok i
  | _, _ => .error .intUnreadable

def intOfFloat (x : Binary64) : Except ProblemKind Int :=
  match x, x.toInt? with
  | _, some i => if -wordEnd < i && i < wordEnd then .ok i else .error .intTooLong
  | .finite .., none => .error .intHasFraction
  | _, none => .error .notFinite

def readInt : Value → Except ProblemKind Int
  | .int i => .ok i
  | .bool b => .ok (if b then 1 else 0)
  | .text t => intOfText t
  | .bytes content =>
    match Text.ofUtf8? content with
    | some t => intOfText t
    | none => .error .intUnreadable
  | .float x => intOfFloat x
  | _ => .error .notInt

/-- A number from one on. -/
def readPositive (v : Value) : Except ProblemKind Nat := do
  let i ← readInt v
  if i < 1 then .error .belowMinimum else .ok i.toNat

/-! ## Lists -/

/-- The items of a value that can stand for a list. -/
def listItems? : Value → Reading (Option (List Value))
  | .buffer _ => return none
  | .iterator id items => some <$> Reading.iterator id items
  | v => return v.items?

/-- Reads items, the first of which has the number `i`, and collects what is wrong with them. -/
def readItems {α : Type} (read : Value → Except ProblemKind α) :
    Nat → List Value → Except Problems (List α)
  | _, [] => .ok []
  | i, item :: items =>
    match read item, readItems read (i + 1) items with
    | .ok x, .ok xs => .ok (x :: xs)
    | .ok _, .error problems => .error problems
    | .error kind, .ok _ => .error [(some i, kind)]
    | .error kind, .error problems => .error ((some i, kind) :: problems)

def list {α : Type} (read : Value → Except ProblemKind α) : Field (List α) := fun v => do
  match ← listItems? v with
  | some items => return readItems read 0 items
  | none => return .error [(none, .notList)]

example : intOfText " +0_7.00".toList = .ok 7 := by rfl

example : intOfText "-007".toList = .ok (-7) := by rfl

example : intOfText "7.".toList = .error .intUnreadable := by rfl

example : boolOfText "Off".toList = .ok false := by rfl

end Field

end Whisker.Settings
