import Whisker.Calendar
import Whisker.Failure
import Whisker.Yaml.Cursor

/-! Timestamps as they are written: a date, perhaps with a time and a zone. -/

namespace Whisker.Yaml

/-- A time as it is written. The zone is `Z` or an offset. -/
structure Clock where
  hour : Nat
  minute : Nat
  second : Nat
  fraction : Text
  zone : Option Zone

structure Timestamp where
  date : Date
  clock : Option Clock

namespace Timestamp

/-! ## Reading -/

/-- A number of `least` to `most` digits, and the rest. -/
def number? (least most : Nat) (t : Text) : Option (Nat × Text) :=
  let digits := (t.take most).takeWhile Char.isDigit
  if digits.length < least then none
  else (Text.decimalNumeral? digits).map fun n => (n, t.drop digits.length)

/-- The rest of a text behind a mark. -/
def behind? (mark : Char) (t : Text) : Option Text :=
  if t.head? = some mark then some (t.drop 1) else none

/-- The zone at the end of a timestamp. -/
def zone? (t : Text) : Option Zone :=
  match t with
  | ['Z'] => some ⟨0, t⟩
  | sign :: digits => do
    if sign ≠ '+' && sign ≠ '-' then none
    let (hours, rest) ← number? 1 2 digits
    let (minutes, rest) ← match rest with
      | [] => some (0, [])
      | _ => (behind? ':' rest).bind (number? 2 2)
    if !rest.isEmpty then none
    let size : Int := (60 * hours + minutes : Nat)
    return ⟨if sign = '-' then -size else size, t⟩
  | [] => none

def clock? (t : Text) : Option Clock := do
  let (hour, t) ← number? 1 2 t
  let (minute, t) ← (behind? ':' t).bind (number? 2 2)
  let (second, t) ← (behind? ':' t).bind (number? 2 2)
  let afterPoint := (behind? '.' t).getD []
  let fraction := afterPoint.takeWhile Char.isDigit
  let t := match behind? '.' t with
    | some t => t.drop fraction.length
    | none => t
  if t.isEmpty then return ⟨hour, minute, second, fraction, none⟩
  else return ⟨hour, minute, second, fraction, some (← zone? (t.dropWhile isPad))⟩

/-- Reads a timestamp. Between date and time there is a letter or a gap; a line feed may follow. -/
def read? (t : Text) : Option Timestamp := do
  let (year, t) ← number? 4 4 (withoutLineEnd t)
  let (month, t) ← (behind? '-' t).bind (number? 1 2)
  let (day, t) ← (behind? '-' t).bind (number? 1 2)
  let date : Date := ⟨year, month, day⟩
  match t with
  | [] => return ⟨date, none⟩
  | c :: rest =>
    if c = 'T' || c = 't' then return ⟨date, some (← clock? rest)⟩
    else if isPad c then return ⟨date, some (← clock? (rest.dropWhile isPad))⟩
    else none

/-- Whether a text is a timestamp by itself. A date alone has two digits for month and day. -/
def isPlain (t : Text) : Bool :=
  match read? t with
  | some stamp => stamp.clock.isSome || (withoutLineEnd t).length = 10
  | none => false

/-! ## Meaning -/

/-- The microseconds of a fraction, rounded by its seventh digit; a whole second is possible. -/
def micros (fraction : Text) : Nat :=
  let digits := (fraction ++ List.replicate 6 '0').take 6
  let roundsUp := (fraction[6]?).any fun c => '5' ≤ c
  (Text.decimalNumeral? digits).getD 0 + if roundsUp then 1 else 0

def wholeSecond : Nat := 1000000

/-- The moment of a date and a time, if there is one. -/
def momentOf (date : Date) (clock : Clock) : Except Failure Moment :=
  let micros := micros clock.fraction
  let full := micros = wholeSecond
  let m : Moment :=
    ⟨date, clock.hour, clock.minute, clock.second, if full then 0 else micros, clock.zone⟩
  match m.fault?, if full then m.next? else some m with
  | some fault, _ => .error (.notInCalendar fault)
  | none, some m => .ok m
  | none, none => .error .pastCalendar

example : (read? "2001-12-14t21:59:43.10-05:00".toList).isSome = true := by decide

example : isPlain "2001-1-1".toList = false := by decide

end Timestamp

end Whisker.Yaml
