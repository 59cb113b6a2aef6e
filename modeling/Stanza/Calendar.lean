import Stanza.Number.Decimal

/-!
Dates and times of day, as document scalars denote them.

`Date.ofFields` and `Moment.ofFields` refuse fields that are out of range and say which one it
was. A value has two texts: the standard one, with hyphens and colons, and the literal that
messages quote, which lists its fields.
-/

namespace Stanza

/-- A day of the Gregorian calendar. -/
structure Date where
  year : Nat
  month : Nat
  day : Nat
  deriving DecidableEq, Repr, Inhabited

/-- A date with a time of day, and the distance from universal time in minutes when known. -/
structure Moment where
  date : Date
  hour : Nat
  minute : Nat
  second : Nat
  microsecond : Nat
  offset : Option Int
  deriving DecidableEq, Repr, Inhabited

/-- The field of a date or time that is out of range. -/
inductive CalendarError where
  | year (year : Nat)
  | month
  | day
  | hour
  | minute
  | second
  | offset (minutes : Int)
  deriving DecidableEq, Repr, Inhabited

/-- Whether a year has a leap day. -/
def isLeapYear (year : Nat) : Bool :=
  year % 4 = 0 && (year % 100 ≠ 0 || year % 400 = 0)

/-- The number of days of a month, counted from one. -/
def daysInMonth (year month : Nat) : Nat :=
  if month = 2 then if isLeapYear year then 29 else 28
  else if month = 4 ∨ month = 6 ∨ month = 9 ∨ month = 11 then 30
  else 31

/-- A natural in at least `width` decimal digits. -/
def padded (width n : Nat) : List Char :=
  let digits := Nat.toDigits 10 n
  List.replicate (width - digits.length) '0' ++ digits

/-- The minutes of a day. -/
def minutesPerDay : Int := 1440

namespace Date

/-- The day of a year, a month and a day of the month, if there is one. -/
def ofFields (year month day : Nat) : Except CalendarError Date :=
  if year = 0 ∨ 9999 < year then .error (.year year)
  else if month = 0 ∨ 12 < month then .error .month
  else if day = 0 ∨ daysInMonth year month < day then .error .day
  else .ok ⟨year, month, day⟩

/-- Year, month and day, with hyphens between them. -/
def text (d : Date) : List Char :=
  padded 4 d.year ++ '-' :: padded 2 d.month ++ '-' :: padded 2 d.day

/-- The number of days from the first day of the calendar to a date, counting both. -/
def dayNumber (d : Date) : Nat :=
  let years := d.year - 1
  (List.range (d.month - 1)).foldl (fun days i => days + daysInMonth d.year (i + 1))
    (years * 365 + years / 4 - years / 100 + years / 400 + d.day)

/-- The fields of a date, with commas between them. -/
def fieldList (d : Date) : List Char :=
  Nat.toDigits 10 d.year ++ ", ".toList ++ Nat.toDigits 10 d.month ++ ", ".toList ++
    Nat.toDigits 10 d.day

/-- The date as messages quote it. -/
def literal (d : Date) : List Char := "datetime.date(".toList ++ d.fieldList ++ [')']

end Date

namespace Moment

/-- The moment of a date and the fields of a time, if they are in range. -/
def ofFields (year month day hour minute second microsecond : Nat) (offset : Option Int) :
    Except CalendarError Moment :=
  match offset.filter fun minutes => decide (minutesPerDay ≤ minutes.natAbs) with
  | some minutes => .error (.offset minutes)
  | none => do
      let date ← Date.ofFields year month day
      if 23 < hour then .error .hour
      else if 59 < minute then .error .minute
      else if 59 < second then .error .second
      else .ok ⟨date, hour, minute, second, microsecond, offset⟩

/-- A distance from universal time as messages quote it: whole days, then seconds. -/
def spanLiteral (minutes : Int) : List Char :=
  let days := minutes.fdiv minutesPerDay
  let seconds := minutes.fmod minutesPerDay * 60
  let dayPart := if days = 0 then [] else "days=".toList ++ integerText days
  let secondPart := if seconds = 0 then [] else "seconds=".toList ++ integerText seconds
  let comma := if days = 0 ∨ seconds = 0 then [] else ", ".toList
  let fields := if days = 0 ∧ seconds = 0 then ['0'] else dayPart ++ comma ++ secondPart
  "datetime.timedelta(".toList ++ fields ++ [')']

/-- The microseconds in universal time up to a moment; if the distance from universal time is not
known, those of the moment as it is written. -/
def instant (t : Moment) : Int :=
  (((t.date.dayNumber * minutesPerDay + t.hour * 60 + t.minute - t.offset.getD 0) * 60 + t.second) *
    1000000) + t.microsecond

/-- Whether two moments are the same instant, as far as that is known of both or of none. -/
def isSame (t u : Moment) : Bool :=
  t.offset.isSome = u.offset.isSome && decide (t.instant = u.instant)

/-- The date, a space, the time of day and the distance from universal time. -/
def text (t : Moment) : List Char :=
  let micro := if t.microsecond = 0 then [] else '.' :: padded 6 t.microsecond
  let offset := match t.offset with
    | none => []
    | some minutes =>
        (if minutes < 0 then '-' else '+') :: padded 2 (minutes.natAbs / 60) ++
          ':' :: padded 2 (minutes.natAbs % 60)
  t.date.text ++ ' ' :: padded 2 t.hour ++ ':' :: padded 2 t.minute ++ ':' :: padded 2 t.second ++
    micro ++ offset

/-- The moment as messages quote it: seconds and microseconds only where they count. -/
def literal (t : Moment) : List Char :=
  let number (n : Nat) : List Char := ", ".toList ++ Nat.toDigits 10 n
  let time := number t.hour ++ number t.minute ++
    (if t.second = 0 ∧ t.microsecond = 0 then [] else number t.second) ++
    (if t.microsecond = 0 then [] else number t.microsecond)
  let zone := match t.offset with
    | none => []
    | some 0 => ", tzinfo=datetime.timezone.utc".toList
    | some minutes => ", tzinfo=datetime.timezone(".toList ++ spanLiteral minutes ++ [')']
  "datetime.datetime(".toList ++ t.date.fieldList ++ time ++ zone ++ [')']

end Moment

namespace CalendarError

/-- What is out of range. -/
def message : CalendarError → String
  | .year n => s!"year {n} is out of range"
  | .month => "month must be in 1..12"
  | .day => "day is out of range for month"
  | .hour => "hour must be in 0..23"
  | .minute => "minute must be in 0..59"
  | .second => "second must be in 0..59"
  | .offset minutes =>
      "offset must be a timedelta strictly between -timedelta(hours=24) and timedelta(hours=24)" ++
        ", not " ++ String.ofList (Moment.spanLiteral minutes) ++ "."

end CalendarError

end Stanza
