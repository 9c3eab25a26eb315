/-
  NormalAlgorithm.Value.Calendar

  Calendar dates and moments of the proleptic Gregorian calendar, years 1 to
  9999, with an optional offset from universal time.

    * `Date.ofFields?`, `Moment.ofFields?`: refuse fields out of range.
    * `Moment.same`: whether two moments are the same instant.
    * `Date.display`, `Moment.display`: `2024-01-31`, `2024-01-31 10:00:00+01:00`.
    * `Date.literal`, `Moment.literal`: the constructor form used inside quoted
      values.
-/

import NormalAlgorithm.Text.Digit
import NormalAlgorithm.Text.Split

namespace NormalAlgorithm

open NormalAlgorithm.Text

/-- A calendar date. -/
structure Date where
  year : Nat
  month : Nat
  day : Nat
  deriving DecidableEq, Repr, Inhabited

/-- A date with a time of day and, if known, the offset from universal time in
    minutes. -/
structure Moment where
  date : Date
  hour : Nat
  minute : Nat
  second : Nat
  microsecond : Nat
  offset : Option Int
  deriving DecidableEq, Repr, Inhabited

/-- Whether a year has a 29th of February. -/
def isLeapYear (year : Nat) : Bool :=
  year % 4 == 0 && (year % 100 != 0 || year % 400 == 0)

/-- The days of a month. -/
def daysInMonth (year month : Nat) : Nat :=
  if month = 2 then if isLeapYear year then 29 else 28
  else if month = 4 || month = 6 || month = 9 || month = 11 then 30
  else 31

/-- The date with the given fields, if the calendar has it. -/
def Date.ofFields? (year month day : Nat) : Option Date :=
  if 1 ≤ year ∧ year ≤ 9999 ∧ 1 ≤ month ∧ month ≤ 12 ∧ 1 ≤ day ∧ day ≤ daysInMonth year month then
    some ⟨year, month, day⟩
  else none

/-- The moment with the given fields, if they are in range; an offset stays below
    a day. -/
def Moment.ofFields? (date : Date) (hour minute second microsecond : Nat) (offset : Option Int) :
    Option Moment :=
  let offsetFits := offset.all fun m => decide (m.natAbs < 24 * 60)
  if hour < 24 ∧ minute < 60 ∧ second < 60 ∧ offsetFits = true then
    some ⟨date, hour, minute, second, microsecond, offset⟩
  else none

/-! ## Instants -/

/-- The number of days before the first of a month. -/
def daysBeforeMonth (year month : Nat) : Nat :=
  (List.range (month - 1)).foldl (fun days m => days + daysInMonth year (m + 1)) 0

/-- The number of a date, counted from the first day of year 1. -/
def Date.dayNumber (d : Date) : Nat :=
  let past := d.year - 1
  365 * past + past / 4 - past / 100 + past / 400 + daysBeforeMonth d.year d.month + d.day

/-- The microseconds from the start of the calendar to a moment, by the clock of its
    place. -/
def Moment.clock (m : Moment) : Nat :=
  (((m.date.dayNumber * 24 + m.hour) * 60 + m.minute) * 60 + m.second) * 1000000 + m.microsecond

/-- Whether two moments are the same: the same instant, or the same time of day in
    places unknown. -/
def Moment.same (m n : Moment) : Bool :=
  match m.offset, n.offset with
  | none, none => m.clock == n.clock
  | some a, some b =>
    let minute : Int := 60 * 1000000
    decide (Int.ofNat m.clock - a * minute = Int.ofNat n.clock - b * minute)
  | _, _ => false

/-! ## Texts -/

/-- A number with leading zeros up to a number of digits. -/
def zeroPadded (places n : Nat) : List Char :=
  let ds := decimal n
  List.replicate (places - ds.length) '0' ++ ds

/-- A date with its fields joined by hyphens. -/
def Date.display (d : Date) : List Char :=
  zeroPadded 4 d.year ++ ['-'] ++ zeroPadded 2 d.month ++ ['-'] ++ zeroPadded 2 d.day

/-- An offset as sign, hours and minutes. -/
def offsetText (minutes : Int) : List Char :=
  (if minutes < 0 then '-' else '+') :: zeroPadded 2 (minutes.natAbs / 60) ++ [':'] ++
    zeroPadded 2 (minutes.natAbs % 60)

/-- A moment as date, time and offset; a fraction only if there is one. -/
def Moment.display (m : Moment) : List Char :=
  m.date.display ++ [' '] ++ zeroPadded 2 m.hour ++ [':'] ++ zeroPadded 2 m.minute ++ [':'] ++
    zeroPadded 2 m.second ++
    (if m.microsecond = 0 then [] else '.' :: zeroPadded 6 m.microsecond) ++
    match m.offset with
    | some o => offsetText o
    | none => []

/-- Numbers as arguments of a constructor. -/
def argumentsText (ns : List Nat) : List Char := joinWith [',', ' '] (ns.map decimal)

/-- A date in constructor form. -/
def Date.literal (d : Date) : List Char :=
  "datetime.date(".toList ++ argumentsText [d.year, d.month, d.day] ++ [')']

/-- A duration of whole minutes in constructor form: days may be negative, the
    seconds of the day may not. -/
def durationLiteral (minutes : Int) : List Char :=
  let days := minutes.fdiv (24 * 60)
  let seconds := (minutes.fmod (24 * 60)) * 60
  let dayPart := if days = 0 then [] else "days=".toList ++ decimalInt days
  let secondPart := if seconds = 0 then [] else "seconds=".toList ++ decimalInt seconds
  let comma := if days = 0 || seconds = 0 then [] else [',', ' ']
  "datetime.timedelta(".toList ++ dayPart ++ comma ++ secondPart ++ [')']

/-- A moment in constructor form: trailing zero seconds are left out. -/
def Moment.literal (m : Moment) : List Char :=
  let fields := [m.date.year, m.date.month, m.date.day, m.hour, m.minute] ++
    (if m.microsecond ≠ 0 then [m.second, m.microsecond]
     else if m.second ≠ 0 then [m.second] else [])
  let zone := match m.offset with
    | none => []
    | some o =>
      if o = 0 then ", tzinfo=datetime.timezone.utc".toList
      else ", tzinfo=datetime.timezone(".toList ++ durationLiteral o ++ [')']
  "datetime.datetime(".toList ++ argumentsText fields ++ zone ++ [')']

end NormalAlgorithm
