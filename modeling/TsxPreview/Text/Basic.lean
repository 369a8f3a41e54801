/-!
Basic operations on texts. White space is what has the Unicode property `White_Space`. Offsets in
bytes that come from tokens lie between characters; one inside a character counts as the end of it.
-/

namespace TsxPreview

/-- Has the property `White_Space`. -/
def isBlank (c : Char) : Bool :=
  let n := c.toNat
  (0x09 ≤ n && n ≤ 0x0d) || n == 0x20 || n == 0x85 || n == 0xa0 || n == 0x1680
    || (0x2000 ≤ n && n ≤ 0x200a) || n == 0x2028 || n == 0x2029 || n == 0x202f || n == 0x205f
    || n == 0x3000

def trimBlankStart (cs : List Char) : List Char := cs.dropWhile isBlank

def trimBlankEnd (cs : List Char) : List Char := (cs.reverse.dropWhile isBlank).reverse

/-- White space dropped at both ends. -/
def trimBlank (cs : List Char) : List Char := trimBlankEnd (trimBlankStart cs)

/-- The maximal runs without white space. -/
def blankSeparated (cs : List Char) : List (List Char) :=
  let rec go : List Char → List Char → List (List Char)
    | [], [] => []
    | [], word => [word.reverse]
    | c :: rest, word =>
      if isBlank c then
        match word with
        | [] => go rest []
        | _ => word.reverse :: go rest []
      else go rest (c :: word)
  go cs []

/-! ### Byte offsets -/

def byteLength : List Char → Nat
  | [] => 0
  | c :: rest => c.utf8Size + byteLength rest

def dropBytes (n : Nat) : List Char → List Char
  | [] => []
  | c :: rest => if n = 0 then c :: rest else dropBytes (n - c.utf8Size) rest

def takeBytes (n : Nat) : List Char → List Char
  | [] => []
  | c :: rest => if n = 0 then [] else c :: takeBytes (n - c.utf8Size) rest

/-- The characters from byte `lo` up to byte `hi`. -/
def sliceBytes (lo hi : Nat) (cs : List Char) : List Char := takeBytes (hi - lo) (dropBytes lo cs)

theorem takeBytes_append_dropBytes (n : Nat) (cs : List Char) :
    takeBytes n cs ++ dropBytes n cs = cs := by
  induction cs generalizing n with
  | nil => rfl
  | cons c rest ih => by_cases h : n = 0 <;> simp [takeBytes, dropBytes, h, ih]

/-- The characters before a byte offset and those from it on; `none` if the offset is inside a
character or behind the end. -/
def cutAt? (n : Nat) (cs : List Char) : Option (List Char × List Char) :=
  let front := takeBytes n cs
  if byteLength front = n then some (front, dropBytes n cs) else none

theorem append_of_cutAt? {n : Nat} {cs a b : List Char} (h : cutAt? n cs = some (a, b)) :
    a ++ b = cs ∧ byteLength a = n := by
  unfold cutAt? at h
  dsimp only at h
  split at h
  · rename_i whole
    cases h
    exact ⟨takeBytes_append_dropBytes n cs, whole⟩
  · cases h

/-- The byte offset of the first character with a property. -/
def findByte? (p : Char → Bool) : List Char → Option Nat
  | [] => none
  | c :: rest => if p c then some 0 else (findByte? p rest).map (c.utf8Size + ·)

/-- Lines, each with the line feed that ends it. -/
def splitInclusive : List Char → List (List Char)
  | [] => []
  | '\n' :: rest => ['\n'] :: splitInclusive rest
  | c :: rest =>
    match rest, splitInclusive rest with
    | [], _ => [[c]]
    | _, [] => [[c]]
    | _, line :: lines => (c :: line) :: lines

theorem flatten_splitInclusive (cs : List Char) : (splitInclusive cs).flatten = cs := by
  fun_induction splitInclusive cs with
  | case1 => rfl
  | case2 rest ih => simp [ih]
  | case3 c => rfl
  | case4 c rest _ _ h ih => simp_all
  | case5 c rest _ _ line lines h ih => simp_all

end TsxPreview

/-! ### Finding and cutting by a text. Places are counted in characters. -/

namespace TsxPreview.Search

/-- The first place of a text. -/
def find? (needle : List Char) : List Char → Option Nat
  | [] => if needle.isEmpty then some 0 else none
  | c :: rest =>
    if needle.isPrefixOf (c :: rest) then some 0 else (find? needle rest).map (· + 1)

/-- The last place of a text. -/
def findLast? (needle : List Char) : List Char → Option Nat
  | [] => if needle.isEmpty then some 0 else none
  | c :: rest =>
    match findLast? needle rest with
    | some i => some (i + 1)
    | none => if needle.isPrefixOf (c :: rest) then some 0 else none

/-- The stretches between the occurrences of a separator, from the left; each occurrence takes part
once. `skip` counts the characters of an occurrence that are still to be passed. -/
def splitFrom (separator : List Char) : (skip : Nat) → List Char → List (List Char)
  | _, [] => [[]]
  | skip + 1, _ :: rest => splitFrom separator skip rest
  | 0, c :: rest =>
    if separator.isPrefixOf (c :: rest) then
      [] :: splitFrom separator (separator.length - 1) rest
    else
      match splitFrom separator 0 rest with
      | [] => [[c]]
      | word :: words => (c :: word) :: words

/-- The stretches between the occurrences of a separator that is not empty. -/
def split (separator cs : List Char) : List (List Char) := splitFrom separator 0 cs

/-- Replaces every occurrence of a text that is not empty. -/
def replaceAll (needle replacement cs : List Char) : List Char :=
  List.intercalate replacement (split needle cs)

end TsxPreview.Search
