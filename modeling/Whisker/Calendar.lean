import Whisker.Text.Characters
import Whisker.Text.Quoted

/-! Days of the calendar and moments of the day, with or without an offset from universal time. -/

namespace Whisker

structure Date where
  year : Nat
  month : Nat
  day : Nat
deriving DecidableEq

/-- How far a clock is ahead, and the text that said so. -/
structure Zone where
  minutes : Int
  name : Text
deriving DecidableEq

structure Moment where
  date : Date
  hour : Nat
  minute : Nat
  second : Nat
  micros : Nat
  zone : Option Zone
deriving DecidableEq

/-- What there is not in the calendar or on the clock. -/
inductive CalendarFault where
  | year
  | month
  | day
  | hour
  | minute
  | second
  /-- A clock that would be off by a day or more. -/
  | offset (minutes : Int)
deriving DecidableEq

namespace Calendar

/-! ## Spans -/

def minutesOfDay : Nat := 1440

/-- A number in `width` digits at least. -/
def padded (width n : Nat) : Text :=
  let digits := Text.ofNat n
  List.replicate (width - digits.length) '0' ++ digits

/-- A span of time by whole days and the seconds beyond them. -/
def spanText (minutes : Int) : Text :=
  let days := minutes / (minutesOfDay : Int)
  let seconds := minutes % (minutesOfDay : Int) * 60
  let parts :=
    (if days = 0 then [] else ["days=".toList ++ Text.ofInt days]) ++
      (if seconds = 0 then [] else ["seconds=".toList ++ Text.ofInt seconds])
  let inner := if parts.isEmpty then ['0'] else Text.join ", ".toList parts
  "datetime.timedelta(".toList ++ inner ++ [')']

end Calendar

def CalendarFault.message : CalendarFault → String
  | .year => "year 0 is out of range"
  | .month => "month must be in 1..12"
  | .day => "day is out of range for month"
  | .hour => "hour must be in 0..23"
  | .minute => "minute must be in 0..59"
  | .second => "second must be in 0..59"
  | .offset minutes =>
    "offset must be a timedelta strictly between -timedelta(hours=24) and timedelta(hours=24), " ++
      s!"not {(Calendar.spanText minutes).string}."

/-! ## Dates -/

namespace Date

def isLeap (year : Nat) : Bool := year % 4 = 0 && (year % 100 ≠ 0 || year % 400 = 0)

def daysOfMonth (year month : Nat) : Nat :=
  if month = 2 then (if isLeap year then 29 else 28)
  else if [4, 6, 9, 11].contains month then 30
  else 31

def lastYear : Nat := 9999

/-- The first thing that is wrong with a date. -/
def fault? (d : Date) : Option CalendarFault :=
  if d.year = 0 then some .year
  else if d.month = 0 || 12 < d.month then some .month
  else if d.day = 0 || daysOfMonth d.year d.month < d.day then some .day
  else none

/-- The number of days since the calendar began. -/
def number (d : Date) : Nat :=
  let past := d.year - 1
  let months := List.range (d.month - 1)
  let days := months.foldl (fun days m => days + daysOfMonth d.year (m + 1)) 0
  365 * past + past / 4 - past / 100 + past / 400 + days + (d.day - 1)

/-- The day after; the calendar ends with the last year. -/
def next? (d : Date) : Option Date :=
  if d.day < daysOfMonth d.year d.month then some { d with day := d.day + 1 }
  else if d.month < 12 then some ⟨d.year, d.month + 1, 1⟩
  else if d.year < lastYear then some ⟨d.year + 1, 1, 1⟩
  else none

def text (d : Date) : Text :=
  Text.join ['-'] [Calendar.padded 4 d.year, Calendar.padded 2 d.month, Calendar.padded 2 d.day]

/-- A date as it stands in a collection. -/
def printed (d : Date) : Text :=
  let numbers := [d.year, d.month, d.day].map Text.ofNat
  "datetime.date(".toList ++ Text.join ", ".toList numbers ++ [')']

end Date

/-! ## Zones -/

namespace Zone

/-- No clock is off by a day or more. -/
def fault? (z : Zone) : Option CalendarFault :=
  if Calendar.minutesOfDay ≤ z.minutes.natAbs then some (.offset z.minutes) else none

def text (z : Zone) : Text :=
  let size := z.minutes.natAbs
  (if z.minutes < 0 then '-' else '+') ::
    (Calendar.padded 2 (size / 60) ++ ':' :: Calendar.padded 2 (size % 60))

/-- A zone as it stands in a collection. -/
def printed (z : Zone) : Text :=
  "datetime.timezone(".toList ++ Calendar.spanText z.minutes ++ ", ".toList ++
    Text.quoted z.name ++ [')']

end Zone

/-! ## Moments -/

namespace Moment

/-- The first thing that is wrong with a moment; its zone comes first. -/
def fault? (m : Moment) : Option CalendarFault :=
  (m.zone.bind Zone.fault?).or <| m.date.fault?.or <|
    if 23 < m.hour then some .hour
    else if 59 < m.minute then some .minute
    else if 59 < m.second then some .second
    else none

/-- The moment one second later. -/
def next? (m : Moment) : Option Moment :=
  if m.second < 59 then some { m with second := m.second + 1 }
  else if m.minute < 59 then some { m with minute := m.minute + 1, second := 0 }
  else if m.hour < 23 then some { m with hour := m.hour + 1, minute := 0, second := 0 }
  else m.date.next?.map fun date => { m with date, hour := 0, minute := 0, second := 0 }

/-- The number of microseconds since the calendar began, in universal time if there is a zone. -/
def instant (m : Moment) : Int :=
  let minutes : Int := ((m.date.number * 24 + m.hour) * 60 + m.minute : Nat)
  let offset : Int := (m.zone.map (·.minutes)).getD 0
  ((minutes - offset) * 60 + m.second) * 1000000 + m.micros

def text (m : Moment) : Text :=
  let fraction := if m.micros = 0 then [] else '.' :: Calendar.padded 6 m.micros
  m.date.text ++ ' ' :: Text.join [':'] ([m.hour, m.minute, m.second].map (Calendar.padded 2)) ++
    fraction ++ (m.zone.map Zone.text).getD []

/-- A moment as it stands in a collection. Seconds and their fraction are left out when they are
nought. -/
def printed (m : Moment) : Text :=
  let fine := if m.micros ≠ 0 then [m.second, m.micros] else if m.second ≠ 0 then [m.second] else []
  let numbers := [m.date.year, m.date.month, m.date.day, m.hour, m.minute] ++ fine
  let zone := match m.zone with
    | some z => ", tzinfo=".toList ++ z.printed
    | none => []
  "datetime.datetime(".toList ++ Text.join ", ".toList (numbers.map Text.ofNat) ++ zone ++ [')']

end Moment

example : (⟨2000, 2, 29⟩ : Date).fault? = none := by decide

example : (⟨1900, 2, 29⟩ : Date).fault? = some .day := by decide

end Whisker
