import TsxPreview.Number.Binary64

/-!
The written forms of a double. One `Style` record fixes where positional notation ends and how
exponents and special values are spelt; `Style.format` does the rest from the shortest digits. Other
forms have a given count of decimal places, another radix, or grouped thousands.

The shortest digits are the fewest that read back as the double. It owns the interval of reals that
round to it. For each count of digits the only candidates are the two neighbours of the value on that
decimal grid, so the first grid with a neighbour inside the interval gives the least count; of two
hits the nearer is taken, and of two equally near the greater.
-/

/-! ### The shortest digits -/

namespace TsxPreview.Shortest

/-- `digits * 10 ^ exponent`, the digits without trailing zeros. -/
structure Decimal where
  digits : Nat
  exponent : Int
  deriving DecidableEq

/-- The reals that round to `m * 2 ^ q`, as quarters of `2 ^ q`: both ends belong to the interval
iff `m` is even. -/
structure Interval where
  low : Nat
  value : Nat
  high : Nat
  closed : Bool
  q : Int

/-- Below a power of two the doubles are twice as dense. -/
def interval (p : Binary64.Parts) : Interval :=
  let narrow := p.m = Nat.pow 2 52 ∧ Binary64.minExponent < p.q
  { low := if narrow then 4 * p.m - 1 else 4 * p.m - 2
    value := 4 * p.m
    high := 4 * p.m + 2
    closed := p.m % 2 = 0
    q := p.q - 2 }

/-- Compares `d * 10 ^ e` with `n * 2 ^ q`. -/
def compareWith (d : Nat) (e : Int) (n : Nat) (q : Int) : Ordering :=
  let left := d * Nat.pow 10 e.toNat * Nat.pow 2 (-q).toNat
  let right := n * Nat.pow 2 q.toNat * Nat.pow 10 (-e).toNat
  compare left right

def Interval.contains (i : Interval) (d : Nat) (e : Int) : Bool :=
  let below := compareWith d e i.low i.q
  let above := compareWith d e i.high i.q
  if i.closed then below != .lt && above != .gt else below == .gt && above == .lt

/-- `floor (n * 2 ^ q / 10 ^ e)`. -/
def floorAt (n : Nat) (q e : Int) : Nat :=
  (n * Nat.pow 2 q.toNat * Nat.pow 10 (-e).toNat) / (Nat.pow 2 (-q).toNat * Nat.pow 10 e.toNat)

/-- The nearer of `d` and `d + 1` on the grid `10 ^ e`; a tie goes up. -/
def nearer (i : Interval) (d : Nat) (e : Int) : Nat :=
  -- `2 * value` against `(2 * d + 1) * 10 ^ e`
  if compareWith (2 * d + 1) e (2 * i.value) i.q == .gt then d else d + 1

/-- The neighbour of the value on the grid `10 ^ e` that lies in the interval, if any does. -/
def hitAt (i : Interval) (e : Int) : Option Nat :=
  let d := floorAt i.value i.q e
  match i.contains d e && d != 0, i.contains (d + 1) e with
  | true, true => some (nearer i d e)
  | true, false => some d
  | false, true => some (d + 1)
  | false, false => none

/-- The count of decimal digits of a natural. -/
def digitCount (n : Nat) : Nat := (Nat.repr n).length

/-- The least `k` with `n * 2 ^ q < 10 ^ k`. -/
def magnitude (n : Nat) (q : Int) : Int :=
  if 0 ≤ q then digitCount (n * Nat.pow 2 q.toNat)
  else
    let whole := n / Nat.pow 2 (-q).toNat
    if whole ≠ 0 then digitCount whole
    else
      -- scale up by enough tens to see the first digit
      let shift := (-q).toNat
      digitCount (n * Nat.pow 10 shift / Nat.pow 2 (-q).toNat) - (shift : Int)

def dropZeros (fuel : Nat) (d : Decimal) : Decimal :=
  match fuel with
  | 0 => d
  | fuel + 1 =>
    if d.digits ≠ 0 ∧ d.digits % 10 = 0 then dropZeros fuel ⟨d.digits / 10, d.exponent + 1⟩ else d

/-- Tries grids of one digit more each, `count` of them. -/
def search (i : Interval) (e : Int) : Nat → Decimal
  | 0 => ⟨floorAt i.value i.q e, e⟩
  | count + 1 =>
    match hitAt i e with
    | some d => ⟨d, e⟩
    | none => search i (e - 1) count

/-- The shortest decimal of a finite positive double. -/
def ofFloat (x : Float) : Decimal :=
  let p := Binary64.parts x
  if p.m = 0 then ⟨0, 0⟩ else
    let i := interval p
    dropZeros 400 (search i (magnitude p.m p.q - 1) 17)

end TsxPreview.Shortest

/-! ### Styles -/

namespace TsxPreview

/-- How doubles are written. A decimal point that stands `point` places after the first digit is
positional when `least < point ≤ most`. -/
structure Style where
  /-- Positional for every exponent. -/
  alwaysPositional : Bool
  least : Int
  most : Int
  /-- Whole numbers in positional form end in `.0`. -/
  pointZero : Bool
  /-- Positive exponents carry a `+`. -/
  plusExponent : Bool
  nan : String
  infinity : String
  negativeInfinity : String
  zero : String
  negativeZero : String

namespace Style

/-- Digits, sign apart, in positional notation. -/
def positional (style : Style) (digits : List Char) (point : Int) : List Char :=
  let n : Int := digits.length
  if point ≤ 0 then
    '0' :: '.' :: (List.replicate (-point).toNat '0' ++ digits)
  else if point < n then
    digits.take point.toNat ++ '.' :: digits.drop point.toNat
  else
    digits ++ List.replicate (point - n).toNat '0' ++ if style.pointZero then ['.', '0'] else []

/-- Digits, sign apart, in exponent notation. -/
def scientific (style : Style) (digits : List Char) (point : Int) : List Char :=
  let mantissa := match digits with
    | [] => ['0']
    | [d] => [d]
    | d :: ds => d :: '.' :: ds
  let e := point - 1
  let sign := if e < 0 then ['-'] else if style.plusExponent then ['+'] else []
  mantissa ++ 'e' :: (sign ++ (Nat.repr e.natAbs).toList)

/-- A finite double other than zero, sign apart. -/
def magnitude (style : Style) (x : Float) : List Char :=
  let d := Shortest.ofFloat x
  let digits := (Nat.repr d.digits).toList
  let point : Int := digits.length + d.exponent
  if style.alwaysPositional || (style.least < point && point ≤ style.most) then
    style.positional digits point
  else style.scientific digits point

def format (style : Style) (x : Float) : String :=
  if x.isNaN then style.nan
  else if x.isInf then if x < 0 then style.negativeInfinity else style.infinity
  else if x == 0 then if Binary64.signBit x then style.negativeZero else style.zero
  else if x < 0 then String.ofList ('-' :: style.magnitude (-x))
  else String.ofList (style.magnitude x)

/-- Numbers as they stand in token listings and object keys: never an exponent. -/
def plain : Style :=
  { alwaysPositional := true, least := 0, most := 0, pointZero := false, plusExponent := false
    nan := "NaN", infinity := "inf", negativeInfinity := "-inf", zero := "0", negativeZero := "-0" }

/-- Numbers as scripts see them: positional from `1e-6` up to, but not including, `1e21`. -/
def script : Style :=
  { alwaysPositional := false, least := -6, most := 21, pointZero := false, plusExponent := true
    nan := "NaN", infinity := "Infinity", negativeInfinity := "-Infinity"
    zero := "0", negativeZero := "0" }

/-- Fractional numbers as data text spells them: positional from `1e-5` up to, but not including,
`1e16`, whole numbers with `.0`. -/
def json : Style :=
  { alwaysPositional := false, least := -5, most := 16, pointZero := true, plusExponent := true
    nan := "null", infinity := "null", negativeInfinity := "null", zero := "0.0"
    negativeZero := "-0.0" }

end Style

/-- The text of a number as scripts see it. -/
def formatNumber (x : Float) : String :=
  match Binary64.toInt? x with
  -- whole numbers below the limit are written with all their digits, not only the significant ones
  | some n => if n.natAbs < Nat.pow 10 21 then toString n else Style.script.format x
  | none => Style.script.format x

end TsxPreview

/-! ### Fixed places, radixes and groups -/

namespace TsxPreview.Fixed

/-- The digits of a finite double's size with `places` places, rounded to the nearest, a half to the
even digit. -/
def magnitude (places : Nat) (x : Float) : List Char :=
  let (n, d) := (Binary64.parts x).ratio
  let scaled := Binary64.roundHalfEven (n * Nat.pow 10 places) d
  let digits := (Nat.repr scaled).toList
  let digits := List.replicate (places + 1 - digits.length) '0' ++ digits
  let whole := digits.take (digits.length - places)
  if places = 0 then whole else whole ++ '.' :: digits.drop (digits.length - places)

/-- With `places` decimal places; a negative zero keeps its sign. -/
def format (places : Nat) (x : Float) : String :=
  if x.isNaN || x.isInf then formatNumber x
  else String.ofList ((if Binary64.signBit x then ['-'] else []) ++ magnitude places x)

def radixDigit (n : Nat) : Char := if n < 10 then Char.ofNat (48 + n) else Char.ofNat (87 + n)

/-- Digits in a radix of two or more, the last first. -/
def reversedDigits (radix : Nat) : Nat → Nat → List Char
  | 0, _ => []
  | fuel + 1, n =>
    if n = 0 then [] else radixDigit (n % radix) :: reversedDigits radix fuel (n / radix)

/-- Whole numbers in a radix from 2 to 36; all else is decimal. Sizes end at the largest word. -/
def inRadix (radix : Nat) (x : Float) : String :=
  match Binary64.toInt? x with
  | some n =>
    if radix = 10 ∨ radix < 2 ∨ 36 < radix then formatNumber x
    else if n = 0 then "0"
    else
      let digits := reversedDigits radix 64 (min n.natAbs (Nat.pow 2 64 - 1))
      String.ofList ((if n < 0 then ['-'] else []) ++ digits.reverse)
  | none => formatNumber x

/-- A comma before each group of three digits but the first. -/
def grouped (digits : List Char) : List Char :=
  let rec go : List Char → List Char
    | [] => []
    | c :: rest => if rest.length % 3 = 0 ∧ rest ≠ [] then c :: ',' :: go rest else c :: go rest
  go digits

/-- Grouped thousands and at most three places. -/
def locale (x : Float) : String :=
  if x.isNaN || x.isInf then formatNumber x
  else
    let cs := magnitude 3 x
    let whole := cs.take (cs.length - 4)
    let fraction := ((cs.drop (cs.length - 3)).reverse.dropWhile (· == '0')).reverse
    let sign := if x < 0 && cs.any fun c => c != '0' && c != '.' then ['-'] else []
    String.ofList (sign ++ grouped whole ++ if fraction.isEmpty then [] else '.' :: fraction)

end TsxPreview.Fixed
