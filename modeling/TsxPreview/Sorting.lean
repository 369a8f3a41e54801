/-!
Sorting by a comparison that is asked in a monad, so that the order of the questions shows.
`less x y` asks whether `x` comes before `y`. Equal items keep their order: the right one is asked
about, and only if it is less does it go first.

Few items are sorted by insertion. More are cut into runs, stretches that are sorted as they stand
if those are long enough, and at once if not. Of many items, the runs that are not sorted as they
stand are put together and sorted by pivots.
-/

namespace TsxPreview.Sorting

/-! ## Insertion and merging

A merge from both ends at once asks each end without regard to the other. Answers that contradict
each other can make both ends take the same item; then there is no result.

Of short lists both halves are sorted by insertion, and the halves are merged from both ends. From a
certain length on a half starts from four items that are sorted with five questions. -/

section

variable {m : Type → Type} [Monad m] {α : Type} (less : α → α → m Bool)

/-! ### Insertion -/

/-- Inserts an item after those that are not greater; `sorted` holds them last first. -/
def insert (x : α) : (sorted : List α) → m (List α)
  | [] => return [x]
  | y :: rest => do
    if ← less x y then return y :: (← insert x rest) else return x :: y :: rest

/-- Inserts items one after another. -/
def insertAll : (items sorted : List α) → m (List α)
  | [], sorted => return sorted
  | x :: rest, sorted => do insertAll rest (← insert less x sorted)

/-! ### Merging from one end -/

/-- Merges from the front; `taken` holds what was taken, last first. -/
def mergeFront : (left right taken : List α) → m (List α)
  | [], right, taken => return taken.reverse ++ right
  | left, [], taken => return taken.reverse ++ left
  | x :: left, y :: right, taken => do
    if ← less y x then mergeFront (x :: left) right (y :: taken)
    else mergeFront left (y :: right) (x :: taken)
termination_by left right => left.length + right.length

/-- Merges lists that are given last first, from the back; `merged` is what was taken. -/
def mergeBack : (left right merged : List α) → m (List α)
  | [], right, merged => return right.reverse ++ merged
  | left, [], merged => return left.reverse ++ merged
  | x :: left, y :: right, merged => do
    if ← less y x then mergeBack left (y :: right) (x :: merged)
    else mergeBack (x :: left) right (y :: merged)
termination_by left right => left.length + right.length

/-- Merges two sorted lists: from the back if the left one is the longer. -/
def merge (left right : List α) : m (List α) :=
  if left.length ≤ right.length then mergeFront less left right []
  else mergeBack less left.reverse right.reverse []

end

/-! ### Merging from both ends -/

/-- Two sorted lists that are merged from both ends. Neither end knows what the other has taken. -/
structure Ends (α : Type) where
  /-- What the front has left of the left list. -/
  left : List α
  /-- What the front has left of the right list. -/
  right : List α
  /-- What the back has left of the left list, last first. -/
  leftBack : List α
  /-- What the back has left of the right list, last first. -/
  rightBack : List α
  /-- What the front has taken, last first. -/
  front : List α := []
  /-- What the back has taken. -/
  back : List α := []

namespace Ends

variable {m : Type → Type} [Monad m] {α : Type} (less : α → α → m Bool)

def ofLists (left right : List α) : Ends α :=
  { left, right, leftBack := left.reverse, rightBack := right.reverse }

/-- The front takes the lesser of the first items. -/
def takeFront (e : Ends α) : m (Ends α) :=
  match e.left, e.right with
  | x :: left, y :: right => do
    if ← less y x then return { e with right, front := y :: e.front }
    else return { e with left, front := x :: e.front }
  | _, _ => return e

/-- The back takes the greater of the last items. -/
def takeBack (e : Ends α) : m (Ends α) :=
  match e.leftBack, e.rightBack with
  | x :: leftBack, y :: rightBack => do
    if ← less y x then return { e with leftBack, back := x :: e.back }
    else return { e with rightBack, back := y :: e.back }
  | _, _ => return e

/-- Takes from both ends by turns. -/
def takeBoth : (rounds : Nat) → Ends α → m (Ends α)
  | 0, e => return e
  | rounds + 1, e => do takeBoth rounds (← takeBack less (← takeFront less e))

/-- All items, those that neither end took in between; nothing if an item was taken twice. The
numbers are the lengths of the lists. -/
def result? (e : Ends α) (left right : Nat) : Option (List α) :=
  let leftKept := e.left.length + e.leftBack.length
  let rightKept := e.right.length + e.rightBack.length
  if left ≤ leftKept ∧ right ≤ rightKept then
    some (e.front.reverse ++ e.left.take (leftKept - left) ++ e.right.take (rightKept - right)
      ++ e.back)
  else none

end Ends

/-- Merges two sorted lists from both ends; the right one may be longer by an item. -/
def mergeEnds {m : Type → Type} [Monad m] {α : Type} (less : α → α → m Bool)
    (left right : List α) : OptionT m (List α) := do
  let e ← OptionT.lift (Ends.takeBoth less left.length (.ofLists left right))
  OptionT.mk (pure (e.result? left.length right.length))

/-! ### Short lists -/

section

variable {m : Type → Type} [Monad m] {α : Type} (less : α → α → m Bool)

/-- The longest list that is short. -/
def shortLength : Nat := 32

/-- Two items in order. -/
def pair (x y : α) : m (α × α) := do
  if ← less y x then return (y, x) else return (x, y)

/-- Sorts four items: two pairs, then their least and their greatest, then the two between. -/
def sortFour (a b c d : α) : m (List α) := do
  let (a, b) ← pair less a b
  let (c, d) ← pair less c d
  let (least, x, y, greatest) := match ← less c a, ← less d b with
    | false, false => (a, b, c, d)
    | false, true => (a, c, d, b)
    | true, false => (c, a, b, d)
    | true, true => (c, a, d, b)
  let (x, y) ← pair less x y
  return [least, x, y, greatest]

/-- Sorts the first four items, if there are so many; gives them last first, and the others. -/
def sortFirst : List α → m (List α × List α)
  | a :: b :: c :: d :: rest => do return ((← sortFour less a b c d).reverse, rest)
  | items => return ([], items)

/-- From this length on halves start from four sorted items. -/
def fourFrom : Nat := 8

/-- Sorts a short list. -/
def sortShort (items : List α) : OptionT m (List α) := do
  if items.length < 2 then return items
  let (left, right) := items.splitAt (items.length / 2)
  let first (half : List α) : m (List α × List α) :=
    if items.length < fourFrom then return ([], half) else sortFirst less half
  let halves : m (List α × List α) := do
    let (leftFirst, leftRest) ← first left
    let (rightFirst, rightRest) ← first right
    let left ← insertAll less leftRest leftFirst
    return (left, ← insertAll less rightRest rightFirst)
  let (left, right) ← OptionT.lift halves
  mergeEnds less left.reverse right.reverse

end

/-! ## Runs

Neighbours are merged as a balanced tree over the positions would merge them, which a stack decides
while the runs are cut. Runs that are not sorted may be put together and sorted later. -/

/-- A stretch of a list. -/
structure Run (α : Type) where
  items : List α
  isSorted : Bool

/-- What is done with a stretch that is not sorted as it stands. -/
inductive Unsorted (m : Type → Type) (α : Type) where
  /-- So much of it as is short is sorted at once. -/
  | atOnce
  /-- It is put together with others up to a length, then sorted. -/
  | later (room : Nat) (sort : List α → OptionT m (List α))

/-! ### Cutting -/

section

variable {m : Type → Type} [Monad m] {α : Type} (less : α → α → m Bool)

/-- How far items go on as they began: each less than the one before, or none. -/
def extent (descending : Bool) (count : Nat) (previous : α) : List α → m Nat
  | [] => return count
  | x :: rest => do
    if (← less x previous) == descending then extent descending (count + 1) x rest
    else return count

/-- The length of the first run, and whether it goes down. -/
def firstRun : List α → m (Nat × Bool)
  | x :: y :: rest => do
    let descending ← less y x
    return (← extent less descending 2 y rest, descending)
  | items => return (items.length, false)

/-- The first run as it stands, turned round if it goes down; none if it is too short. -/
def foundRun? (least : Nat) (items : List α) : m (Option (Run α)) := do
  if items.length < least then return none
  let (count, descending) ← firstRun less items
  if count < least then return none
  let run := items.take count
  return some ⟨if descending then run.reverse else run, true⟩

/-- The next run of a list. -/
def nextRun (unsorted : Unsorted m α) (least : Nat) (items : List α) : OptionT m (Run α) := do
  match ← OptionT.lift (foundRun? less least items) with
  | some run => return run
  | none =>
    match unsorted with
    | .atOnce => return ⟨← sortShort less (items.take shortLength), true⟩
    | .later _ _ => return ⟨items.take least, false⟩

/-! ### Joining -/

/-- The items of a run, sorted. -/
def settle (unsorted : Unsorted m α) (run : Run α) : OptionT m (List α) :=
  match run.isSorted, unsorted with
  | false, .later _ sort => sort run.items
  | _, _ => return run.items

/-- Whether two runs are put together without sorting them. -/
def isPutOff (unsorted : Unsorted m α) (left right : Run α) : Bool :=
  match unsorted with
  | .atOnce => false
  | .later room _ =>
    !left.isSorted && !right.isSorted && left.items.length + right.items.length ≤ room

/-- Two neighbours as one run. -/
def join (unsorted : Unsorted m α) (left right : Run α) : OptionT m (Run α) := do
  if isPutOff unsorted left right then return ⟨left.items ++ right.items, false⟩
  let l ← settle unsorted left
  let r ← settle unsorted right
  return ⟨← OptionT.lift (merge less l r), true⟩

/-- Earlier runs, the newest first, each with the depth of the merge that joins it with the next. -/
abbrev Stack (α : Type) := List (Run α × Nat)

/-- Joins a run with those before it whose merge lies at least so deep. -/
def collapse (unsorted : Unsorted m α) (depth : Nat) :
    Stack α → Run α → OptionT m (Stack α × Run α)
  | (left, d) :: stack, right => do
    if depth ≤ d then collapse unsorted depth stack (← join less unsorted left right)
    else return ((left, d) :: stack, right)
  | [], right => return ([], right)

end

/-! ### The tree -/

/-- Positions are scaled by this, so that all lie below a power of two. -/
def scale (length : Nat) : Nat := (Nat.pow 2 62 + length - 1) / length

/-- The depth in a balanced tree of the merge of two neighbours: how many leading bits the scaled
midpoints have in common. -/
def mergeDepth (length start middle stop : Nat) : Nat :=
  let x := (scale length * (start + middle)).xor (scale length * (middle + stop))
  if x = 0 then 64 else 63 - x.log2

/-- About the square root. -/
def aboutSqrt (n : Nat) : Nat :=
  let shift := (1 + n.log2) / 2
  (Nat.pow 2 shift + n / Nat.pow 2 shift) / 2

/-- A run that is found must be this long. -/
def leastRun (length : Nat) : Nat :=
  if length ≤ 4096 then min (length - length / 2) 64 else aboutSqrt length

section

variable {m : Type → Type} [Monad m] {α : Type} (less : α → α → m Bool)

/-- Cuts and joins: `last` is the newest run, and what is left starts at `position`. -/
def joinRuns (unsorted : Unsorted m α) (length : Nat) :
    Stack α → Run α → (position : Nat) → (rest : List α) → OptionT m (List α)
  | stack, last, _, [] => do
    let (_, all) ← collapse less unsorted 0 stack last
    settle unsorted all
  | stack, last, position, x :: rest => do
    let next ← nextRun less unsorted (leastRun length) (x :: rest)
    -- a run holds an item at least
    let size := max 1 next.items.length
    let depth := mergeDepth length (position - last.items.length) position (position + size)
    let (stack, left) ← collapse less unsorted depth stack last
    joinRuns unsorted length ((left, depth) :: stack) next (position + size)
      ((x :: rest).drop size)
termination_by _ _ _ rest => rest.length
decreasing_by
  rw [List.length_drop, List.length_cons]
  omega

/-- Sorts by runs. -/
def sortRuns (unsorted : Unsorted m α) (items : List α) : OptionT m (List α) := do
  let first ← nextRun less unsorted (leastRun items.length) items
  let size := first.items.length
  joinRuns less unsorted items.length [] first size (items.drop size)

end

/-! ## The stable sort

Sorting by pivots: items go to either side of one of them, and the sides are sorted in turn. A
pivot that is not greater than the one to the left of all items equals it; then the items that
equal it are set apart, so that few different items are sorted fast. After too many rounds runs are
merged instead. -/

variable {m : Type → Type} [Monad m] {α : Type} (less : α → α → m Bool)

/-! ### Pivots -/

/-- The median of three items, which carry their places. -/
def median (a b c : α × Nat) : m (α × Nat) := do
  let x ← less a.1 b.1
  let y ← less a.1 c.1
  if x == y then
    let z ← less b.1 c.1
    return if z == x then b else c
  else return a

/-- Lists shorter than this are represented by their first item. -/
def eighths : Nat := 8

/-- An item that is not far from the middle: the median of such items of three of the eighths. -/
def aboutMedian (items : List (α × Nat)) : m (Option (α × Nat)) := do
  if h : items.length < eighths then return items.head?
  else
    let n := items.length / 8
    have : n < items.length := by
      simp only [eighths] at h
      omega
    match ← aboutMedian (items.take n), ← aboutMedian ((items.drop (4 * n)).take n),
        ← aboutMedian ((items.drop (7 * n)).take n) with
    | some a, some b, some c => return some (← median less a b c)
    | _, _, _ => return none
termination_by items.length
decreasing_by all_goals simp; omega

/-- The items that pass a test, and the others, in order. -/
def partition (test : α → m Bool) (items : List α) : m (List α × List α) := do
  let (yes, no) ← items.foldlM (fun (yes, no) x => do
    if ← test x then return (x :: yes, no) else return (yes, x :: no)) ([], [])
  return (yes.reverse, no.reverse)

/-- What is less than a pivot that stands between two lists, and all else. -/
def splitLess (before : List α) (pivot : α) (after : List α) : m (List α × List α) := do
  let (less₁, rest₁) ← partition (less · pivot) before
  let (less₂, rest₂) ← partition (less · pivot) after
  return (less₁ ++ less₂, rest₁ ++ pivot :: rest₂)

/-- What is not greater than a pivot that stands between two lists, and all else. -/
def splitEqual (before : List α) (pivot : α) (after : List α) : m (List α × List α) := do
  let notGreater (x : α) : m Bool := do return !(← less pivot x)
  let (equal₁, rest₁) ← partition notGreater before
  let (equal₂, rest₂) ← partition notGreater after
  return (equal₁ ++ pivot :: equal₂, rest₁ ++ rest₂)

/-- Whether a pivot equals the one to the left of all items. -/
def isRepeated (bound : Option α) (pivot : α) : m Bool :=
  match bound with
  | some b => do return !(← less b pivot)
  | none => return false

/-- Two sides of a list. -/
inductive Sides (α : Type) where
  /-- What is less than a pivot, and all else. -/
  | less (left : List α) (pivot : α) (right : List α)
  /-- What equals the least item, and all else. -/
  | equal (equal rest : List α)

/-- Splits a list at a pivot. If nothing is less than the pivot, what equals it is set apart. -/
def sides (bound : Option α) (items : List α) : m (Sides α) := do
  match ← aboutMedian less items.zipIdx with
  | none => return .equal items []
  | some (pivot, place) =>
    let before := items.take place
    let after := items.drop (place + 1)
    let (left, right) ←
      if ← isRepeated less bound pivot then pure ([], [])
      else splitLess less before pivot after
    if left.isEmpty then
      let (equal, rest) ← splitEqual less before pivot after
      return .equal equal rest
    else return .less left pivot right

/-- Sorts by pivots for at most so many rounds. No item is less than `bound`. -/
def sortPivots : (rounds : Nat) → (bound : Option α) → List α → OptionT m (List α)
  | rounds, bound, items => do
    if items.length ≤ shortLength then sortShort less items
    else
      match rounds with
      | 0 => sortRuns less .atOnce items
      | rounds + 1 =>
        match ← OptionT.lift (sides less bound items) with
        | .equal equal rest => return equal ++ (← sortPivots rounds none rest)
        | .less left pivot right =>
          let right ← sortPivots rounds (some pivot) right
          return (← sortPivots rounds bound left) ++ right

/-- How many rounds a list may take: twice the logarithm of its length. -/
def rounds (items : List α) : Nat := 2 * items.length.log2

/-! ### The sort -/

/-- Up to this length items are inserted. -/
def insertionLength : Nat := 20

/-- Up to this length all runs are sorted at once. -/
def atOnceLength : Nat := 2 * shortLength

/-- Stretches that are not sorted are put together up to this length. -/
def room (length : Nat) : Nat := max (length - length / 2) 333333

/-- Sorts; nothing if the answers contradict each other in a way that shows. -/
def sort (items : List α) : OptionT m (List α) := do
  let length := items.length
  if length ≤ insertionLength then
    return (← OptionT.lift (insertAll less items [])).reverse
  else if length ≤ atOnceLength then sortRuns less .atOnce items
  else
    let sortLater (stretch : List α) := sortPivots less (rounds stretch) none stretch
    sortRuns less (.later (room length) sortLater) items

end TsxPreview.Sorting
