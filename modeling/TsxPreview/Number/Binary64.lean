/-!
Doubles as exact rationals. `parts` reads a finite double as `m * 2 ^ q`; `ofRatio` goes the other
way and rounds a quotient of naturals to the nearest double, a tie to the even significand.
-/

namespace TsxPreview.Binary64

/-- The least exponent of a significand. -/
def minExponent : Int := -1074

/-- Not-a-number. -/
def nan : Float := Float.ofBits 0x7ff8000000000000

def infinity : Float := Float.ofBits 0x7ff0000000000000

/-- `2 ^ e * n / d` as a quotient of naturals. -/
def scaled (n d : Nat) (e : Int) : Nat × Nat :=
  if 0 ≤ e then (n * Nat.pow 2 e.toNat, d) else (n, d * Nat.pow 2 (-e).toNat)

/-- `n / d` to the nearest natural, a half to the even neighbour. -/
def roundHalfEven (n d : Nat) : Nat :=
  let q := n / d
  let r := n % d
  if 2 * r < d then q
  else if d < 2 * r then q + 1
  else if q % 2 = 0 then q else q + 1

/-- The largest `e` with `2 ^ e ≤ n / d`, for positive `n` and `d`. -/
def log2Ratio (n d : Nat) : Int :=
  let e : Int := (n.log2 : Int) - (d.log2 : Int)
  let (a, b) := scaled n d (-e)
  if a < b then e - 1 else e

/-- The nearest double to `n / d`; infinity beyond the largest. -/
def ofRatio (n d : Nat) : Float :=
  if n = 0 ∨ d = 0 then 0 else
    let q := max (log2Ratio n d - 52) minExponent
    let (a, b) := scaled n d (-q)
    let bits := (q - minExponent).toNat * Nat.pow 2 52 + roundHalfEven a b
    if bits < 2047 * Nat.pow 2 52 then Float.ofBits bits.toUInt64 else infinity

/-- The nearest double to `digits * 10 ^ exponent`. Exponents far outside the range of doubles are
answered without computing the power. -/
def ofDecimal (digits : Nat) (exponent : Int) : Float :=
  let size : Int := (digits.log2 : Int) / 3
  if digits = 0 ∨ size + exponent < -400 then 0
  else if 400 < exponent then infinity
  else if 0 ≤ exponent then ofRatio (digits * Nat.pow 10 exponent.toNat) 1
  else ofRatio digits (Nat.pow 10 (-exponent).toNat)

/-- A natural number as the nearest double. -/
def ofNat (n : Nat) : Float := ofRatio n 1

/-- An integer as the nearest double. -/
def ofInt (n : Int) : Float := if n < 0 then -ofNat n.natAbs else ofNat n.natAbs

/-- A double taken apart: its sign, and `m * 2 ^ q` for its size. -/
structure Parts where
  negative : Bool
  m : Nat
  q : Int

/-- Meaningful for finite doubles only. -/
def parts (x : Float) : Parts :=
  let bits := x.toBits.toNat
  let field : Nat := bits / Nat.pow 2 52 % 2048
  let fraction : Nat := bits % Nat.pow 2 52
  if field = 0 then ⟨Nat.pow 2 63 ≤ bits, fraction, minExponent⟩
  else ⟨Nat.pow 2 63 ≤ bits, fraction + Nat.pow 2 52, (field : Int) - 1075⟩

/-- The sign bit, which tells the two zeros apart. -/
def signBit (x : Float) : Bool := Nat.pow 2 63 ≤ x.toBits.toNat

/-- The size of a finite double as a quotient. -/
def Parts.ratio (p : Parts) : Nat × Nat := scaled p.m 1 p.q

/-- The integer that a finite double denotes, if it denotes one. -/
def toInt? (x : Float) : Option Int :=
  if x.isNaN || x.isInf then none else
    let p := parts x
    let (n, d) := p.ratio
    if n % d = 0 then
      some (if p.negative then -((n / d : Nat) : Int) else ((n / d : Nat) : Int))
    else none

/-- The integer part of a finite double. -/
def truncToInt (x : Float) : Int :=
  let p := parts x
  let (n, d) := p.ratio
  if p.negative then -((n / d : Nat) : Int) else ((n / d : Nat) : Int)

/-- Toward zero; infinities and not-a-number stay. -/
def trunc (x : Float) : Float :=
  if x.isNaN || x.isInf then x
  else
    let n := ofNat (truncToInt x).natAbs
    if signBit x then -n else n

/-- The part of `x` that whole multiples of `y` leave, with the sign of `x`; exact. -/
def remainder (x y : Float) : Float :=
  if x.isNaN || y.isNaN || x.isInf || y == 0 then nan
  else if y.isInf || x == 0 then x
  else
    let a := parts x
    let b := parts y
    let q := min a.q b.q
    let r := a.m * Nat.pow 2 (a.q - q).toNat % (b.m * Nat.pow 2 (b.q - q).toNat)
    let (n, d) := scaled r 1 q
    if a.negative then -ofRatio n d else ofRatio n d

def cube (n : Nat) : Nat := n * n * n

/-- The largest natural whose cube is at most `n`, one binary digit after another. -/
def cubeRootFloor (n : Nat) : Nat :=
  (List.range (n.log2 / 3 + 1)).reverse.foldl (fun root k =>
    if cube (root + Nat.pow 2 k) ≤ n then root + Nat.pow 2 k else root) 0

/-- The nearest double to the cube root. The radicand is scaled until its integer root has more
digits than a double holds; a last odd digit stands for the rest. -/
def cubeRoot (x : Float) : Float :=
  if x.isNaN || x.isInf || x == 0 then x else
    let p := parts x
    let shift := 165 + (p.q % 3).toNat
    let n := p.m * Nat.pow 2 shift
    let root := cubeRootFloor n
    let digits := 2 * root + if cube root = n then 0 else 1
    let (a, b) := scaled digits 1 ((p.q - shift) / 3 - 1)
    if p.negative then -ofRatio a b else ofRatio a b

/-- The natural number below `limit` that a double becomes as an index: fractions are dropped, what
is below zero or no number is zero, and what is too large is the largest. -/
def toNatBelow (limit : Nat) (x : Float) : Nat :=
  if x.isNaN || x <= 0 then 0
  else if x.isInf then limit - 1
  else min (truncToInt x).toNat (limit - 1)

/-- A double as an index of 64 bits. -/
def toIndex (x : Float) : Nat := toNatBelow (Nat.pow 2 64) x

end TsxPreview.Binary64
