import TsxPreview.Json.Basic
import TsxPreview.Number.Read
import TsxPreview.Text.Basic

/-!
Reading data text. A failure is a place: the line, from one, and the count of bytes of that line up
to and including the offending one.
-/

namespace TsxPreview

namespace Json

/-- Where data text stops making sense. -/
structure ReadError where
  line : Nat
  column : Nat
  deriving DecidableEq, Inhabited

/-- What is left to read, and the place reached. -/
structure Reader where
  rest : List Char
  line : Nat
  column : Nat

namespace Reader

/-- At most this many arrays and objects may be open at once. -/
def depthLimit : Nat := 127

def ofText (cs : List Char) : Reader := ⟨cs, 1, 0⟩

def advance (r : Reader) : Reader :=
  match r.rest with
  | [] => r
  | c :: rest => if c = '\n' then ⟨rest, r.line + 1, 0⟩ else ⟨rest, r.line, r.column + c.utf8Size⟩

def skip : Nat → Reader → Reader
  | 0, r => r
  | n + 1, r => skip n r.advance

def here (r : Reader) : ReadError := ⟨r.line, r.column⟩

/-- The place just past the next byte. -/
def past (r : Reader) : ReadError :=
  match r.rest with
  | [] => r.here
  | c :: _ => if c = '\n' then ⟨r.line + 1, 0⟩ else ⟨r.line, r.column + 1⟩

/-- The place `budget` bytes on, or the end. -/
def pastBytes : Nat → Reader → ReadError
  | 0, r => r.here
  | budget + 1, r =>
    match r.rest with
    | [] => r.here
    | c :: _ =>
      if c.utf8Size ≤ budget + 1 then pastBytes (budget + 1 - c.utf8Size) r.advance
      else ⟨r.line, r.column + budget + 1⟩
termination_by budget => budget
decreasing_by have := c.utf8Size_pos; omega

def fail {α : Type} (e : ReadError) : Except ReadError (α × Reader) := .error e

def isSpace (c : Char) : Bool := c == ' ' || c == '\n' || c == '\t' || c == '\r'

def space (r : Reader) : Reader := r.skip (r.rest.takeWhile isSpace).length

/-- Exactly the characters of a word. -/
def expectWord (value : Json) : List Char → Reader → Except ReadError (Json × Reader)
  | [], r => .ok (value, r)
  | c :: cs, r => if r.rest.head? = some c then expectWord value cs r.advance else fail r.past

/-! ### Numbers -/

/-- A power of ten as a double. -/
def pow10 (n : Nat) : Float := Binary64.ofDecimal 1 n

/-- `significand * 10 ^ exponent` by one multiplication or by divisions, each of them rounded;
`none` beyond the largest double. -/
def scaled (fuel : Nat) (f : Float) (exponent : Int) : Option Float :=
  if exponent.natAbs ≤ 308 then
    if 0 ≤ exponent then
      let x := f * pow10 exponent.toNat
      if x.isInf then none else some x
    else some (f / pow10 exponent.natAbs)
  else if f == 0 then some f
  else if 0 ≤ exponent then none
  else
    match fuel with
    | 0 => some 0
    | fuel + 1 => scaled fuel (f / pow10 308) (exponent + 308)

/-- The digits of a number so far: `significand * 10 ^ exponent`, the significand below `2 ^ 64`. -/
structure Decimal where
  negative : Bool
  significand : Nat
  exponent : Int

def finish (d : Decimal) (r : Reader) : Except ReadError (Json × Reader) :=
  match scaled 16 (Binary64.ofNat d.significand) d.exponent with
  | some x => .ok (.number (if d.negative then -x else x), r)
  | none => fail r.here

/-- Appends digits while the significand has room; gives how many were taken. -/
def takeDigits (limit : Nat) : List Char → Nat → Nat → Nat × Nat
  | [], n, count => (n, count)
  | c :: rest, n, count =>
    if isDecimalDigit c ∧ n * 10 + (c.toNat - 48) < limit
    then takeDigits limit rest (n * 10 + (c.toNat - 48)) (count + 1)
    else (n, count)

def wordLimit : Nat := Nat.pow 2 64

def skipDigits (r : Reader) : Reader := r.skip (r.rest.takeWhile isDecimalDigit).length

/-- The part after `e`; the reader stands on the `e`. -/
def exponentPart (d : Decimal) (r : Reader) : Except ReadError (Json × Reader) :=
  let r := r.advance
  let (negative, r) := match r.rest.head? with
    | some '+' => (false, r.advance)
    | some '-' => (true, r.advance)
    | _ => (false, r)
  let digits := r.rest.takeWhile isDecimalDigit
  if digits.isEmpty then fail r.past
  else
    let e : Int := readDigits digits
    if e < Nat.pow 2 31 then
      finish { d with exponent := if negative then d.exponent - e else d.exponent + e }
        (r.skip digits.length)
    else if d.significand ≠ 0 ∧ !negative then
      let (_, count) := takeDigits (Nat.pow 2 31) digits 0 0
      fail (r.skip (count + 1)).here
    else .ok (.number (if d.negative then -0.0 else 0.0), r.skip digits.length)

def isExponentMark (r : Reader) : Bool := r.rest.head? = some 'e' || r.rest.head? = some 'E'

/-- The part after the point; the reader stands on the point. -/
def fractionPart (d : Decimal) (r : Reader) : Except ReadError (Json × Reader) :=
  let r := r.advance
  let (n, count) := takeDigits wordLimit r.rest d.significand 0
  let r := r.skip count
  let d : Decimal := { d with significand := n, exponent := d.exponent - count }
  let overflow := r.rest.head?.any isDecimalDigit
  if count = 0 ∧ !overflow then fail r.past
  else
    let r := skipDigits r
    if r.isExponentMark then exponentPart d r else finish d r

/-- After the whole part. `whole`: no digit was dropped, so a number without point and exponent is
kept as it is. -/
def afterWhole (whole : Bool) (d : Decimal) (r : Reader) : Except ReadError (Json × Reader) :=
  if r.rest.head? = some '.' then fractionPart d r
  else if r.isExponentMark then exponentPart d r
  else if whole then
    if d.negative then
      if d.significand = 0 ∨ Nat.pow 2 63 < d.significand
      then .ok (.number (-(Binary64.ofNat d.significand)), r)
      else .ok (.integer (-(d.significand : Int)), r)
    else .ok (.integer d.significand, r)
  else finish d r

def number (negative : Bool) (r : Reader) : Except ReadError (Json × Reader) :=
  match r.rest with
  | [] => fail r.here
  | '0' :: rest =>
    if rest.head?.any isDecimalDigit then fail r.advance.past
    else afterWhole true ⟨negative, 0, 0⟩ r.advance
  | c :: _ =>
    if isDecimalDigit c then
      let (n, count) := takeDigits wordLimit r.rest 0 0
      let r := r.skip count
      let dropped := (r.rest.takeWhile isDecimalDigit).length
      afterWhole (dropped = 0) ⟨negative, n, dropped⟩ (r.skip dropped)
    else fail r.past

/-! ### Strings -/

/-- Four hexadecimal digits. -/
def hex4 (r : Reader) : Except ReadError (Nat × Reader) :=
  let digits := r.rest.take 4
  if byteLength digits < 4 then fail (pastBytes 4 r)
  else if digits.all isHexDigit then .ok ((readRadix 16 digits).getD 0, r.skip 4)
  else fail (pastBytes 4 r)

/-- The character of a `\u` escape, two escapes for one beyond the basic plane. -/
def unicodeEscape (r : Reader) : Except ReadError (Char × Reader) := do
  let (high, r) ← hex4 r
  if 0xdc00 ≤ high ∧ high ≤ 0xdfff then fail r.here
  else if high < 0xd800 ∨ 0xdbff < high then .ok (Char.ofNat high, r)
  else if r.rest.head? ≠ some '\\' then fail r.past
  else
    let r := r.advance
    if r.rest.head? ≠ some 'u' then fail r.past
    else
      let (low, r) ← hex4 r.advance
      if low < 0xdc00 ∨ 0xdfff < low then fail r.here
      else .ok (Char.ofNat (0x10000 + (high - 0xd800) * 0x400 + (low - 0xdc00)), r)

/-- The character of an escape; the reader stands after the backslash. -/
def escape (r : Reader) : Except ReadError (Char × Reader) :=
  match r.rest with
  | [] => fail r.here
  | c :: _ =>
    match c with
    | '"' | '\\' | '/' => .ok (c, r.advance)
    | 'b' => .ok ('\x08', r.advance)
    | 'f' => .ok ('\x0c', r.advance)
    | 'n' => .ok ('\n', r.advance)
    | 'r' => .ok ('\r', r.advance)
    | 't' => .ok ('\t', r.advance)
    | 'u' => unicodeEscape r.advance
    | _ => fail r.past

/-- The rest of a string after its opening quote; `read` holds what was read, last first. -/
def string : Nat → List Char → Reader → Except ReadError (String × Reader)
  | 0, _, r => fail r.here
  | fuel + 1, read, r =>
    match r.rest with
    | [] => fail r.here
    | c :: _ =>
      if c = '"' then .ok (String.ofList read.reverse, r.advance)
      else if c = '\\' then do
        let (e, r) ← escape r.advance
        string fuel (e :: read) r
      else if c.toNat < 0x20 then fail r.past
      else string fuel (c :: read) r.advance

/-! ### Values -/

/-- The items of an array after its bracket; `read` holds what was read, last first. -/
def items (value : Reader → Except ReadError (Json × Reader)) :
    Nat → List Json → Reader → Except ReadError (Json × Reader)
  | 0, _, r => fail r.here
  | fuel + 1, read, r =>
    let r := r.space
    match r.rest.head? with
    | none => fail r.here
    | some c =>
      if c = ']' then .ok (.array read.reverse, r.advance)
      else do
        let r ← if read.isEmpty then pure r
          else if c ≠ ',' then throw r.past
          else
            let r := r.advance.space
            if r.rest.head? = some ']' ∨ r.rest.isEmpty then throw r.past else pure r
        let (x, r) ← value r
        items value fuel (x :: read) r

/-- The members of an object after its brace; `read` holds what was read, last first. -/
def members (value : Reader → Except ReadError (Json × Reader)) :
    Nat → List (String × Json) → Reader → Except ReadError (Json × Reader)
  | 0, _, r => fail r.here
  | fuel + 1, read, r =>
    let r := r.space
    match r.rest.head? with
    | none => fail r.here
    | some c =>
      if c = '\x7d' then .ok (.object read.reverse, r.advance)
      else do
        let r ← if read.isEmpty then pure r
          else if c ≠ ',' then throw r.past
          else pure r.advance.space
        if r.rest.head? ≠ some '"' then fail r.past
        else
          let r := r.advance
          let (name, r) ← string (r.rest.length + 1) [] r
          let r := r.space
          if r.rest.head? ≠ some ':' then fail r.past
          else
            let (x, r) ← value r.advance
            members value fuel ((name, x) :: read) r

/-- One value, with `depth` more levels allowed inside it. -/
def value : Nat → Reader → Except ReadError (Json × Reader)
  | depth, r =>
    let r := r.space
    match r.rest with
    | [] => fail r.here
    | 'n' :: _ => expectWord .null "ull".toList r.advance
    | 't' :: _ => expectWord (.bool true) "rue".toList r.advance
    | 'f' :: _ => expectWord (.bool false) "alse".toList r.advance
    | '-' :: _ => number true r.advance
    | '"' :: rest => do
      let (s, r) ← string (rest.length + 1) [] r.advance
      .ok (.string s, r)
    | '[' :: rest =>
      match depth with
      | 0 => fail r.past
      | depth + 1 => items (value depth) (rest.length + 1) [] r.advance
    | '\x7b' :: rest =>
      match depth with
      | 0 => fail r.past
      | depth + 1 => members (value depth) (rest.length + 1) [] r.advance
    | c :: _ => if isDecimalDigit c then number false r else fail r.past

end Reader

/-- Reads one value that is the whole text. Objects keep repeated names. -/
def read (text : String) : Except ReadError Json := do
  let (j, r) ← Reader.value Reader.depthLimit (Reader.ofText text.toList)
  let r := r.space
  if r.rest.isEmpty then .ok j else .error r.past

mutual

/-- A repeated name keeps its first place and takes the last value. -/
def distinct : Json → Json
  | array items => array (distinctItems items)
  | object members => object (Record.ofList (distinctMembers members)).entries
  | j => j

def distinctItems : List Json → List Json
  | [] => []
  | x :: rest => distinct x :: distinctItems rest

def distinctMembers : List (String × Json) → List (String × Json)
  | [] => []
  | (name, x) :: rest => (name, distinct x) :: distinctMembers rest

end

/-- Reads one value that is the whole text, with distinct names in each object. -/
def parse (text : String) : Except ReadError Json := (read text).map distinct

end Json

end TsxPreview
