import TsxPreview.Number.Read
import TsxPreview.Text.Basic

/-!
The number that a text denotes when a script converts it, and the number at the start of a text,
where what follows it does not count.
-/

namespace TsxPreview

/-- Digits in a radix after an optional `+`, below `2 ^ 64`. -/
def readWord (radix : Nat) (cs : List Char) : Option Nat :=
  let digits := match cs with
    | '+' :: rest => rest
    | cs => cs
  (readRadix radix digits).filter (· < Nat.pow 2 64)

/-- What stands before the digits of a radix. -/
def radixMarks : List (Char × Nat) := [('x', 16), ('X', 16), ('o', 8), ('O', 8), ('b', 2), ('B', 2)]

/-- Blank text is zero. A radix is marked without a sign; any other letter than that of an exponent
makes the text no number, except in `Infinity`. -/
def numberOfChars (text : List Char) : Float :=
  let cs := trimBlank text
  let (negative, body) := match cs with
    | '-' :: rest => (true, rest)
    | '+' :: rest => (false, rest)
    | cs => (false, cs)
  let marked := match cs with
    | '0' :: c :: digits => (radixMarks.lookup c).map fun radix => (radix, digits)
    | _ => none
  if cs.isEmpty then 0
  else if body = "Infinity".toList then if negative then -Binary64.infinity else Binary64.infinity
  else
    match marked with
    | some (radix, digits) => ((readWord radix digits).map Binary64.ofNat).getD Binary64.nan
    | none =>
      if body.any fun c => c.isAlpha && c != 'e' && c != 'E' then Binary64.nan
      else (readDecimal cs).getD Binary64.nan

def numberOfText (s : String) : Float := numberOfChars s.toList

end TsxPreview

/-! ### Leading numbers -/

namespace TsxPreview.Leading

/-- An optional sign. -/
def sign : List Char → Bool × List Char
  | '-' :: rest => (true, rest)
  | '+' :: rest => (false, rest)
  | cs => (false, cs)

/-- The digits of a radix, added up in doubles. -/
def digits (radix : Nat) (cs : List Char) : List Nat :=
  match cs with
  | [] => []
  | c :: rest =>
    match (digitValue? c).filter (· < radix) with
    | some d => d :: digits radix rest
    | none => []

/-- An integer; radix zero means ten, or sixteen after `0x`. -/
def integer (text : List Char) (radix : Nat) : Float :=
  let (negative, cs) := sign (trimBlankStart text)
  let (radix, cs) := match cs with
    | '0' :: 'x' :: rest | '0' :: 'X' :: rest =>
      if radix = 0 ∨ radix = 16 then (16, rest) else (radix, cs)
    | cs => (radix, cs)
  let radix := if radix = 0 then 10 else radix
  if radix < 2 ∨ 36 < radix then Binary64.nan
  else
    match digits radix cs with
    | [] => Binary64.nan
    | ds =>
      let size := ds.foldl (fun x d => x * Binary64.ofNat radix + Binary64.ofNat d) 0
      if negative then -size else size

/-- How far a decimal number may have been read. -/
structure Progress where
  previous : Option Char := none
  read : Nat := 0
  /-- The characters up to the last digit. -/
  upToDigit : Nat := 0
  point : Bool := false
  exponent : Bool := false

def isExponentMark (c : Char) : Bool := c == 'e' || c == 'E'

/-- Whether a character can stand next in a decimal number. -/
def Progress.admits (p : Progress) (c : Char) : Bool :=
  if isDecimalDigit c then true
  else if c == '+' || c == '-' then p.read == 0 || p.previous.any isExponentMark
  else if c == '.' then !p.point && !p.exponent
  else isExponentMark c && !p.exponent && p.upToDigit != 0

def Progress.step (p : Progress) (c : Char) : Progress :=
  { previous := some c
    read := p.read + 1
    upToDigit := if isDecimalDigit c then p.read + 1 else p.upToDigit
    point := p.point || c == '.'
    exponent := p.exponent || isExponentMark c }

def scan : List Char → Progress → Progress
  | [], p => p
  | c :: rest, p => if p.admits c then scan rest (p.step c) else p

/-- A decimal number, or `Infinity`. -/
def decimal (text : List Char) : Float :=
  let cs := trimBlankStart text
  let p := scan cs {}
  if p.upToDigit = 0 then
    let (negative, word) := sign cs
    if "Infinity".toList.isPrefixOf word then
      if negative then -Binary64.infinity else Binary64.infinity
    else Binary64.nan
  else (readDecimal (cs.take p.upToDigit)).getD Binary64.nan

end TsxPreview.Leading
