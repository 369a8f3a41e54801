import TsxPreview.Number.Binary64

/-!
A stream of random numbers: ChaCha with twelve rounds, keyed from a seed by a linear congruential
generator. The state is the key and how many numbers were drawn, so the stream depends on the seed
alone.
-/

namespace TsxPreview.Random

/-- The sixteen words of a block. -/
abbrev Block := Array UInt32

def rotateLeft (x : UInt32) (n : UInt32) : UInt32 := (x <<< n) ||| (x >>> (32 - n))

def rotateRight (x : UInt32) (n : UInt32) : UInt32 :=
  if n = 0 then x else (x >>> n) ||| (x <<< (32 - n))

/-! ### Keys -/

/-- One step of the generator that spreads a seed. -/
def advance (state : UInt64) : UInt64 := state * 6364136223846793005 + 11634580027462260723

/-- The word that a state gives. -/
def output (state : UInt64) : UInt32 :=
  rotateRight (((state >>> 18) ^^^ state) >>> 27).toUInt32 (state >>> 59).toUInt32

/-- `n` words from a state. -/
def spread : Nat → UInt64 → List UInt32
  | 0, _ => []
  | n + 1, state =>
    let state := advance state
    output state :: spread n state

/-! ### Blocks -/

def word (b : Block) (i : Nat) : UInt32 := b.getD i 0

def quarterRound (b : Block) (i j k l : Nat) : Block :=
  let a := word b i + word b j
  let d := rotateLeft (word b l ^^^ a) 16
  let c := word b k + d
  let e := rotateLeft (word b j ^^^ c) 12
  let a := a + e
  let d := rotateLeft (d ^^^ a) 8
  let c := c + d
  let e := rotateLeft (e ^^^ c) 7
  (((b.setIfInBounds i a).setIfInBounds j e).setIfInBounds k c).setIfInBounds l d

/-- One round over the columns and one over the diagonals. -/
def doubleRound (b : Block) : Block :=
  let columns := [(0, 4, 8, 12), (1, 5, 9, 13), (2, 6, 10, 14), (3, 7, 11, 15)]
  let diagonals := [(0, 5, 10, 15), (1, 6, 11, 12), (2, 7, 8, 13), (3, 4, 9, 14)]
  (columns ++ diagonals).foldl (fun b (i, j, k, l) => quarterRound b i j k l) b

def constants : List UInt32 := [0x61707865, 0x3320646e, 0x79622d32, 0x6b206574]

/-- The block of a key at a position. -/
def block (key : List UInt32) (position : Nat) : Block :=
  let low := (position % Nat.pow 2 32).toUInt32
  let high := (position / Nat.pow 2 32 % Nat.pow 2 32).toUInt32
  let start := (constants ++ key ++ [low, high, 0, 0]).toArray
  let mixed := (List.range 6).foldl (fun b _ => doubleRound b) start
  Array.ofFn fun i : Fin 16 => word mixed i + word start i

/-! ### Numbers -/

structure Generator where
  key : List UInt32
  drawn : Nat
  deriving Inhabited

namespace Generator

def ofSeed (seed : Nat) : Generator := ⟨spread 8 seed.toUInt64, 0⟩

/-- The next double in `[0, 1)`: each takes two words, low one first, and keeps 53 bits. -/
def next (g : Generator) : Float × Generator :=
  let b := block g.key (g.drawn / 8)
  let i := g.drawn % 8 * 2
  let bits := (word b i).toNat + (word b (i + 1)).toNat * Nat.pow 2 32
  (Binary64.ofRatio (bits / Nat.pow 2 11) (Nat.pow 2 53), { g with drawn := g.drawn + 1 })

end Generator

end TsxPreview.Random
