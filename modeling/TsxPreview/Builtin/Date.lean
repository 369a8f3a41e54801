import TsxPreview.Calendar
import TsxPreview.Script.Evaluator

/-!
`Date`. The time now is the configured one, and all fields are universal.
-/

namespace TsxPreview

open Calendar

namespace DateMethod

/-- The largest time of a date, in milliseconds. -/
def maxTime : Float := 8640000000000000

/-- Times are whole; those too large are none. -/
def clip (x : Float) : Float :=
  if x.isNaN || x.isInf || maxTime < x.abs then Binary64.nan else Binary64.trunc x

/-- The moment of a time, if it has one. -/
def momentOf? (time : Float) : Option Moment :=
  if time.isNaN || time.isInf then none else moment? (Binary64.truncToInt time)

/-- A field that takes part with its fraction dropped; `0` to `99` are years of the last century but
one. -/
def fullYear (x : Float) : Float :=
  let x := Binary64.trunc x
  if 0 <= x && x <= 99 then 1900 + x else x

/-- The time of fields; those out of range carry into the next larger unit. -/
def ofFields (year month day hours minutes seconds : Float) : Float :=
  if [year, month, day, hours, minutes, seconds].any fun x => x.isNaN || x.isInf then Binary64.nan
  else
    let month := Binary64.trunc month
    let year := fullYear year + (month / 12).floor
    if 400000 < year.abs then Binary64.nan
    else
      let month0 := Int.fmod (Binary64.truncToInt month) 12
      let first : Calendar.Date := ⟨Binary64.truncToInt year, month0.toNat + 1, 1⟩
      let offset := (Binary64.trunc day - 1) * 86400000 + hours * 3600000 + minutes * 60000
        + seconds * 1000
      if maxTime * 2 < offset.abs then Binary64.nan
      else
        match millis? first 0 0 0 0 with
        | none => Binary64.nan
        | some start =>
          let t := start + Binary64.truncToInt offset
          match moment? t with
          | some _ => Binary64.ofInt t
          | none => Binary64.nan

def ofText (s : String) : Float :=
  match readMillis? s.toList with
  | some t => Binary64.ofInt t
  | none => Binary64.nan

/-- The time that the arguments of `Date` denote. -/
def timeOf (h : Heap) (now : Float) (args : List Value) : Float :=
  match args with
  | [] => now
  | [.string s] => ofText s
  | [v] => v.toNumber h
  | year :: month :: rest =>
    let field (i : Nat) (fallback : Float) : Float :=
      (rest[i]?.map (Value.toNumber h)).getD fallback
    ofFields (year.toNumber h) (month.toNumber h) (field 0 1) (field 1 0) (field 2 0) (field 3 0)

/-- A date is an object of methods. -/
def make (time : Float) : Alloc Value := do
  Alloc.members (← Alloc.natives all name fun m => .dateMethod m time)

def construct (args : List Value) : Script Value := do
  let now ← Script.onRealm fun r => r.config.clockMs
  let time ← Script.onHeap fun h => timeOf h now args
  make (clip time)

def numberField (time : Float) (f : Moment → Int) : Value :=
  .number (((momentOf? time).map fun m => Binary64.ofInt (f m)).getD Binary64.nan)

def textField (time : Float) (f : Moment → String) : Value :=
  .string (((momentOf? time).map f).getD "Invalid Date")

def run (time : Float) : DateMethod → Value
  | getTime | valueOf => .number time
  | getFullYear => numberField time fun m => m.date.year
  | getMonth => numberField time fun m => m.date.month - 1
  | getDate => numberField time fun m => m.date.day
  | getDay => numberField time fun m => m.weekday
  | getHours => numberField time fun m => m.hour
  | getMinutes => numberField time fun m => m.minute
  | getSeconds => numberField time fun m => m.second
  | getMilliseconds => numberField time fun m => m.milli
  | toISOString | toJSON => textField time Moment.isoText
  | toLocaleDateString => textField time Moment.dateText
  | toLocaleTimeString => textField time Moment.timeText
  | toLocaleString => textField time fun m => m.dateText ++ ", " ++ m.timeText
  | toDateString => textField time Moment.dayText

end DateMethod

end TsxPreview
