import TsxPreview.Number.Binary64

/-!
Reading numbers: plain decimal text, and digits in a radix.
-/

namespace TsxPreview

/-- The value of a digit up to `z`. -/
def digitValue? (c : Char) : Option Nat :=
  if '0' ≤ c ∧ c ≤ '9' then some (c.toNat - 48)
  else if 'a' ≤ c ∧ c ≤ 'z' then some (c.toNat - 87)
  else if 'A' ≤ c ∧ c ≤ 'Z' then some (c.toNat - 55)
  else none

def isDecimalDigit (c : Char) : Bool := '0' ≤ c && c ≤ '9'

def isHexDigit (c : Char) : Bool :=
  isDecimalDigit c || ('a' ≤ c && c ≤ 'f') || ('A' ≤ c && c ≤ 'F')

/-- The number that digits spell in a radix; `none` for no digits or one out of range. -/
def readRadix (radix : Nat) (cs : List Char) : Option Nat :=
  let step (acc : Option Nat) (c : Char) : Option Nat := do
    let n ← acc
    let d ← digitValue? c
    if d < radix then some (n * radix + d) else none
  if cs.isEmpty then none else cs.foldl step (some 0)

/-- The number that decimal digits spell, zero for none. -/
def readDigits (cs : List Char) : Nat := cs.foldl (fun n c => n * 10 + (c.toNat - 48)) 0

/-- An exponent part, `none` if it is malformed. No exponent is exponent zero. -/
def readExponent : List Char → Option Int
  | [] => some 0
  | e :: rest =>
    if e = 'e' ∨ e = 'E' then
      let (negative, digits) := match rest with
        | '-' :: ds => (true, ds)
        | '+' :: ds => (false, ds)
        | ds => (false, ds)
      if digits.isEmpty ∨ !digits.all isDecimalDigit then none
      else
        let n : Int := readDigits digits
        some (if negative then -n else n)
    else none

/-- Digits with at most one point and an optional exponent, to the nearest double. -/
def readUnsigned (cs : List Char) : Option Float :=
  let whole := cs.takeWhile isDecimalDigit
  let rest := cs.dropWhile isDecimalDigit
  let (fraction, tail) := match rest with
    | '.' :: r => (r.takeWhile isDecimalDigit, r.dropWhile isDecimalDigit)
    | r => ([], r)
  if whole.isEmpty ∧ fraction.isEmpty then none
  else (readExponent tail).map fun e =>
    Binary64.ofDecimal (readDigits (whole ++ fraction)) (e - fraction.length)

/-- Decimal text with an optional sign, to the nearest double. -/
def readDecimal : List Char → Option Float
  | '-' :: rest => (readUnsigned rest).map fun x => -x
  | '+' :: rest => readUnsigned rest
  | cs => readUnsigned cs

end TsxPreview
