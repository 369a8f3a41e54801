import TsxPreview.Number.Read
import TsxPreview.Text.Basic

/-!
Civil dates of the Gregorian calendar, extended in both directions, and moments of them in
milliseconds since 1970, without time zones.
-/

namespace TsxPreview.Calendar

/-! ## Dates and moments -/

def isLeap (year : Int) : Bool := year % 4 == 0 && (year % 100 != 0 || year % 400 == 0)

def daysInMonth (year : Int) (month : Nat) : Nat :=
  match month with
  | 2 => if isLeap year then 29 else 28
  | 4 | 6 | 9 | 11 => 30
  | _ => 31

/-- The years that dates may have. -/
def minYear : Int := -262143

def maxYear : Int := 262142

/-- A day; months and days count from one. -/
structure Date where
  year : Int
  month : Nat
  day : Nat
  deriving DecidableEq, Inhabited

namespace Date

/-- Whether the calendar has the day. -/
def isValid (d : Date) : Bool :=
  minYear ≤ d.year && d.year ≤ maxYear && 1 ≤ d.month && d.month ≤ 12 && 1 ≤ d.day
    && d.day ≤ daysInMonth d.year d.month

/-- Days from the start of 1970. Years are counted from March, so that a leap day is the last of its
year. -/
def toDays (d : Date) : Int :=
  let year := if d.month ≤ 2 then d.year - 1 else d.year
  let era := Int.fdiv year 400
  let ofEra := year - era * 400
  let month : Int := ((d.month + 9) % 12 : Nat)
  let ofYear := (153 * month + 2) / 5 + d.day - 1
  era * 146097 + (ofEra * 365 + ofEra / 4 - ofEra / 100 + ofYear) - 719468

def ofDays (days : Int) : Date :=
  let days := days + 719468
  let era := Int.fdiv days 146097
  let ofEra := days - era * 146097
  let yearOfEra := (ofEra - ofEra / 1460 + ofEra / 36524 - ofEra / 146096) / 365
  let ofYear := ofEra - (365 * yearOfEra + yearOfEra / 4 - yearOfEra / 100)
  let month := (5 * ofYear + 2) / 153
  let day := ofYear - (153 * month + 2) / 5 + 1
  let month := if month < 10 then month + 3 else month - 9
  let year := yearOfEra + era * 400
  ⟨if month ≤ 2 then year + 1 else year, month.toNat, day.toNat⟩

end Date

def msPerDay : Int := 86400000

/-- A moment by its fields. -/
structure Moment where
  date : Date
  hour : Nat
  minute : Nat
  second : Nat
  milli : Nat
  deriving DecidableEq, Inhabited

namespace Moment

def toMillis (m : Moment) : Int :=
  m.date.toDays * msPerDay + (((m.hour * 60 + m.minute) * 60 + m.second) * 1000 + m.milli : Nat)

def ofMillis (t : Int) : Moment :=
  let ofDay := (t - Int.fdiv t msPerDay * msPerDay).toNat
  { date := .ofDays (Int.fdiv t msPerDay)
    hour := ofDay / 3600000
    minute := ofDay / 60000 % 60
    second := ofDay / 1000 % 60
    milli := ofDay % 1000 }

/-- Days of the week count from Sunday. -/
def weekday (m : Moment) : Nat := (Int.fmod (m.date.toDays + 4) 7).toNat

end Moment

def minMillis : Int := (Date.mk minYear 1 1).toDays * msPerDay

def maxMillis : Int := (Date.mk (maxYear + 1) 1 1).toDays * msPerDay - 1

/-- The moment of a time, if the calendar has it. -/
def moment? (t : Int) : Option Moment :=
  if minMillis ≤ t ∧ t ≤ maxMillis then some (.ofMillis t) else none

/-! ### Written forms -/

/-- With zeros in front up to a width. -/
def padded (width n : Nat) : String :=
  let digits := Nat.repr n
  String.ofList (List.replicate (width - digits.length) '0') ++ digits

/-- Years beyond four digits, and those before zero, carry a sign. -/
def yearText (year : Int) : String :=
  if year < 0 then "-" ++ padded 4 year.natAbs
  else if year < 10000 then padded 4 year.toNat
  else "+" ++ padded 4 year.toNat

def weekdayNames : List String := ["Sun", "Mon", "Tue", "Wed", "Thu", "Fri", "Sat"]

def monthNames : List String :=
  ["Jan", "Feb", "Mar", "Apr", "May", "Jun", "Jul", "Aug", "Sep", "Oct", "Nov", "Dec"]

namespace Moment

/-- `2024-02-29T23:59:59.987Z` -/
def isoText (m : Moment) : String :=
  yearText m.date.year ++ "-" ++ padded 2 m.date.month ++ "-" ++ padded 2 m.date.day ++ "T"
    ++ padded 2 m.hour ++ ":" ++ padded 2 m.minute ++ ":" ++ padded 2 m.second ++ "."
    ++ padded 3 m.milli ++ "Z"

/-- `2/29/2024` -/
def dateText (m : Moment) : String :=
  s!"{m.date.month}/{m.date.day}/" ++ yearText m.date.year

/-- `11:59:59 PM` -/
def timeText (m : Moment) : String :=
  let hour := if m.hour % 12 = 0 then 12 else m.hour % 12
  s!"{hour}:" ++ padded 2 m.minute ++ ":" ++ padded 2 m.second
    ++ if m.hour < 12 then " AM" else " PM"

/-- `Thu Feb 29 2024` -/
def dayText (m : Moment) : String :=
  weekdayNames.getD m.weekday "" ++ " " ++ monthNames.getD (m.date.month - 1) "" ++ " "
    ++ padded 2 m.date.day ++ " " ++ yearText m.date.year

end Moment

/-! ## Reading moments

Timestamps with an offset in their strict form, and dates with an optional time in a looser one,
which admits blanks and fewer digits. -/

/-- Reads something at the start of a text and gives the rest. -/
abbrev Scan (α : Type) := StateT (List Char) Option α

namespace Scan

def char (p : Char → Bool) : Scan Unit := fun
  | [] => none
  | c :: rest => if p c then some ((), rest) else none

def literal (c : Char) : Scan Unit := char (· == c)

/-- From `least` to `most` digits, as many as there are. -/
def digits (least most : Nat) : Scan Nat := fun cs =>
  let ds := (cs.take most).takeWhile isDecimalDigit
  if ds.length < least then none else some (readDigits ds, cs.drop ds.length)

def blank : Scan Unit := fun cs => some ((), trimBlankStart cs)

/-- A number up to a width after any blanks. -/
def number (width : Nat) : Scan Nat := do
  blank
  digits 1 width

/-- A year after any blanks; with a sign it may have any number of digits. -/
def year : Scan Int := do
  blank
  match ← get with
  | '-' :: rest =>
    set rest
    return -((← digits 1 rest.length : Nat) : Int)
  | '+' :: rest =>
    set rest
    return ((← digits 1 rest.length : Nat) : Int)
  | _ => return ((← digits 1 4 : Nat) : Int)

/-- A fraction of a second in milliseconds; digits past the ninth do not count. -/
def fraction : Scan Nat := fun
  | '.' :: rest =>
    let ds := rest.takeWhile isDecimalDigit
    if ds.isEmpty then none
    else some (readDigits ((ds ++ ['0', '0', '0']).take 3), rest.drop ds.length)
  | cs => some (0, cs)

/-- The distance from universal time in minutes. -/
def offset : Scan Int := fun
  | 'Z' :: rest | 'z' :: rest => some (0, rest)
  | sign :: rest =>
    if sign == '+' || sign == '-' || sign == '−' then
      let read : Scan Int := do
        let hours ← digits 2 2
        literal ':'
        let minutes ← digits 2 2
        if 60 ≤ minutes ∨ 24 ≤ hours then failure
        let size : Int := (hours * 60 + minutes : Nat)
        return if sign == '+' then size else -size
      read rest
    else none
  | [] => none

/-- The whole text. -/
def whole {α : Type} (x : Scan α) (cs : List Char) : Option α :=
  match x cs with
  | some (a, []) => some a
  | _ => none

end Scan

/-- The milliseconds of fields that the calendar has. The sixtieth second is the first of the next
minute. -/
def millis? (d : Date) (hour minute second milli : Nat) : Option Int :=
  if d.isValid ∧ hour < 24 ∧ minute < 60 ∧ second ≤ 60 then
    some (Moment.mk d hour minute second milli).toMillis
  else none

/-- A date and a time to the second with an offset. -/
def timestamp : Scan Int := do
  let year ← Scan.digits 4 4
  Scan.literal '-'
  let month ← Scan.digits 2 2
  Scan.literal '-'
  let day ← Scan.digits 2 2
  Scan.char fun c => c == 'T' || c == 't' || c == ' '
  let hour ← Scan.digits 2 2
  Scan.literal ':'
  let minute ← Scan.digits 2 2
  Scan.literal ':'
  let second ← Scan.digits 2 2
  let milli ← Scan.fraction
  let offset ← Scan.offset
  let t ← (millis? ⟨year, month, day⟩ hour minute second milli : Option Int)
  return t - offset * 60000

def dateFields : Scan Date := do
  let year ← Scan.year
  Scan.literal '-'
  let month ← Scan.number 2
  Scan.literal '-'
  let day ← Scan.number 2
  return ⟨year, month, day⟩

/-- A date, a separator and a time without an offset. -/
def dateTime (separator : Scan Unit) (withSeconds : Bool) : Scan Int := do
  let date ← dateFields
  separator
  let hour ← Scan.number 2
  Scan.literal ':'
  let minute ← Scan.number 2
  if withSeconds then
    Scan.literal ':'
    let second ← Scan.number 2
    let milli ← Scan.fraction
    (millis? date hour minute second milli : Option Int)
  else (millis? date hour minute 0 0 : Option Int)

def dateOnly : Scan Int := do
  let date ← dateFields
  (millis? date 0 0 0 0 : Option Int)

/-- The time that a text denotes. Without an offset it is universal; `Z` at the end is dropped, and
a missing day is the first. -/
def readMillis? (text : List Char) : Option Int :=
  let cs := trimBlank text
  let bare := (cs.reverse.dropWhile (· == 'Z')).reverse
  Scan.whole timestamp cs
    <|> Scan.whole (dateTime (Scan.literal 'T') true) bare
    <|> Scan.whole (dateTime (Scan.literal 'T') false) bare
    <|> Scan.whole (dateTime Scan.blank true) bare
    <|> Scan.whole (dateTime Scan.blank false) bare
    <|> Scan.whole dateOnly bare
    <|> Scan.whole dateOnly (bare ++ ['-', '0', '1'])

end TsxPreview.Calendar
