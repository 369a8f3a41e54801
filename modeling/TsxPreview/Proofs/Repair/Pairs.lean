import TsxPreview.Proofs.Repair.Brackets
import TsxPreview.Proofs.Repair.Nesting

/-!
The structure that a scan finds in its tokens. Chunks cut the tokens into runs, whatever the text.
Where brackets nest properly, the depths noted before the tokens tell which of them belong together:
they are the same at both brackets of a pair and greater between them. So the searches by depth find
the partner of every bracket, and the innermost pair around every token.
-/

namespace TsxPreview

/-- The tokens of a chunk. -/
def Chunk.indices (c : Chunk) : List Nat := List.range' c.first (c.last + 1 - c.first)

namespace Scan

variable {s : Scan} {tokens : List Token} {before after : List TokenKind} {k : TokenKind}
  {i j o c : Nat}

/-! ## Kinds and depths -/

def kinds (s : Scan) : List TokenKind := s.tokens.toList.map Token.kind

theorem length_kinds (s : Scan) : s.kinds.length = s.size := by
  rw [kinds, List.length_map, Array.length_toList]
  rfl

theorem kind_of_kinds (h : s.kinds = before ++ k :: after) : s.kind before.length = k := by
  have found : s.kinds[before.length]? = some k := by
    rw [h, List.getElem?_append_right (Nat.le_refl _), Nat.sub_self]
    rfl
  rw [kinds, List.getElem?_map, Array.getElem?_toList] at found
  rw [kind, found]
  rfl

/-- Every token stands somewhere among the others. -/
theorem exists_kinds (h : i < s.size) :
    ∃ before after, s.kinds = before ++ s.kind i :: after ∧ before.length = i := by
  have lt : i < s.kinds.length := by rwa [length_kinds]
  have whole : s.kinds = s.kinds.take i ++ s.kinds[i] :: s.kinds.drop (i + 1) := by
    rw [← List.drop_eq_getElem_cons lt, List.take_append_drop]
  have length : (s.kinds.take i).length = i := List.length_take_of_le (Nat.le_of_lt lt)
  have kind := kind_of_kinds whole
  rw [length] at kind
  exact ⟨_, _, by rw [kind]; exact whole, length⟩

theorem getElem?_depths (depth : Nat) (h : tokens.map Token.kind = before ++ k :: after) :
    (depths isOpener isCloser depth tokens)[before.length]? =
      some (level (depthAfter depth before) k) := by
  induction before generalizing depth tokens with
  | nil =>
    cases tokens with
    | nil => cases h
    | cons t tokens =>
      obtain ⟨rfl, -⟩ := List.cons.inj h
      rfl
  | cons x before ih =>
    cases tokens with
    | nil => cases h
    | cons t tokens =>
      obtain ⟨rfl, rest⟩ := List.cons.inj h
      exact ih _ rest

theorem length_depths (up down : TokenKind → Bool) (depth : Nat) (tokens : List Token) :
    (depths up down depth tokens).length = tokens.length := by
  induction tokens generalizing depth with
  | nil => rfl
  | cons t tokens ih => rw [depths, List.length_cons, List.length_cons, ih]

theorem nesting_of_kinds (h : (ofTokens tokens).kinds = before ++ k :: after) :
    (ofTokens tokens).nesting before.length = level (depthAfter 0 before) k := by
  have found : (depths isOpener isCloser 0 tokens)[before.length]? = _ := getElem?_depths 0 h
  unfold nesting ofTokens
  dsimp only
  rw [List.getElem?_toArray, found]
  rfl

/-! ## Searches -/

/-- The first of some indices with a property. -/
theorem findIn_eq_some {first last : Nat} {q : Nat → Bool} (le : first ≤ j) (le' : j ≤ last)
    (holds : q j = true) (before : ∀ i, first ≤ i → i < j → q i = false) :
    findIn first last q = some j := by
  unfold findIn
  rw [List.find?_range'_eq_some]
  refine ⟨holds, List.mem_range'_1.mpr ⟨le, by omega⟩, fun i start stop => ?_⟩
  rw [before i start stop]
  rfl

/-- The last of the indices below `n` with a property. -/
theorem findBelow_eq_some {n : Nat} {q : Nat → Bool} (lt : j < n) (holds : q j = true)
    (behind : ∀ i, j < i → i < n → q i = false) : findBelow q n = some j := by
  induction n with
  | zero => omega
  | succ n ih =>
    rw [findBelow]
    rcases Nat.lt_or_eq_of_le (Nat.le_of_lt_succ lt) with less | rfl
    · rw [behind n less (Nat.lt_succ_self n), if_neg Bool.false_ne_true]
      exact ih less fun i start stop => behind i start (Nat.lt_succ_of_lt stop)
    · rw [holds, if_pos rfl]

/-! ## Pairs by depth -/

/-- Two brackets of one shape with the same depth, between which all depths are greater. -/
structure Paired (s : Scan) (o c : Nat) : Prop where
  lt : o < c
  size : c < s.size
  closer : ∃ p, closerOf? (s.kind o) = some p ∧ s.kind c = .punct p
  nesting : s.nesting c = s.nesting o
  inside : ∀ j, o < j → j < c → s.nesting o < s.nesting j

theorem paired_of_closes (h : Closes (ofTokens tokens).kinds o c) :
    (ofTokens tokens).Paired o c := by
  obtain ⟨before, k, inner, p, after, eq, closer, inside, rfl, rfl⟩ := h
  obtain ⟨⟨-, notCloses⟩, -, closes⟩ := brackets_of_closerOf? closer
  have first : (ofTokens tokens).kinds = before ++ k :: (inner ++ .punct p :: after) := by
    rw [eq, List.append_assoc]
    rfl
  have last : (ofTokens tokens).kinds = (before ++ k :: inner) ++ .punct p :: after := eq
  have position : before.length + inner.length + 1 = (before ++ k :: inner).length := by
    rw [List.length_append, List.length_cons, Nat.add_assoc]
  -- the depths at the opening bracket and behind it
  have outer : (ofTokens tokens).nesting before.length = depthAfter 0 before := by
    rw [nesting_of_kinds first, level_of_not_isCloser notCloses]
  have within (a : List TokenKind) : depthAfter 0 (before ++ k :: a) =
      depthAfter (depthAfter 0 before + 1) a := by
    rw [depthAfter_append, depthAfter_opener closer]
  refine ⟨by omega, ?_, ⟨p, ?_, ?_⟩, ?_, ?_⟩
  · rw [← length_kinds, last]
    simp only [List.length_append, List.length_cons]
    omega
  · rw [kind_of_kinds first]
    exact closer
  · rw [position, kind_of_kinds last]
  · rw [outer, position, nesting_of_kinds last, within, inside.depthAfter,
      level_of_isCloser closes, Nat.add_sub_cancel]
  · intro j behind inFront
    obtain ⟨m, rfl⟩ : ∃ m, j = before.length + (m + 1) := ⟨j - before.length - 1, by omega⟩
    have lt : m < inner.length := by omega
    have split : inner = inner.take m ++ inner[m] :: inner.drop (m + 1) := by
      rw [← List.drop_eq_getElem_cons lt, List.take_append_drop]
    have middle : (ofTokens tokens).kinds = (before ++ k :: inner.take m) ++
        inner[m] :: (inner.drop (m + 1) ++ .punct p :: after) := by
      rw [eq, List.append_assoc, List.append_assoc, List.cons_append, List.cons_append]
      congr 2
      rw [← List.cons_append, ← List.append_assoc, ← split]
    have place : before.length + (m + 1) = (before ++ k :: inner.take m).length := by
      rw [List.length_append, List.length_cons, List.length_take_of_le (Nat.le_of_lt lt)]
    rw [outer, place, nesting_of_kinds middle, within]
    exact inside.le_level split _

namespace Paired

theorem matching? (h : s.Paired o c) : s.matching? o = some c := by
  obtain ⟨p, closer, kind⟩ := h.closer
  have size := h.size
  unfold Scan.matching?
  rw [closer]
  refine findIn_eq_some h.lt (by omega) ?_ ?_
  · rw [isPunct, kind, h.nesting]
    simp [TokenKind.isPunct]
  · intro j behind inFront
    have := h.inside j behind inFront
    rw [Bool.and_eq_false_iff, beq_eq_false_iff_ne]
    exact .inl (Nat.ne_of_gt this)

theorem opening? (h : s.Paired o c) : s.opening? c = some o := by
  obtain ⟨p, closer, kind⟩ := h.closer
  unfold Scan.opening?
  rw [kind, if_pos (brackets_of_closerOf? closer).2.2, h.nesting]
  refine findBelow_eq_some h.lt (beq_self_eq_true _) ?_
  intro j behind inFront
  rw [beq_eq_false_iff_ne]
  exact Nat.ne_of_gt (h.inside j behind inFront)

/-- Right inside a pair, the opening bracket is the last one with the depth outside. -/
theorem enclosing? (h : s.Paired o c) (behind : o < i) (inFront : i < c)
    (right : s.nesting i = s.nesting o + 1) : s.enclosing? i = some o := by
  unfold Scan.enclosing?
  rw [right]
  refine findBelow_eq_some behind (beq_self_eq_true _) ?_
  intro j start stop
  rw [beq_eq_false_iff_ne]
  exact Nat.ne_of_gt (h.inside j start (Nat.lt_trans stop inFront))

/-- A pair right around a token lies within all others around it. -/
theorem within (h : s.Paired o c) (behind : o < i) (inFront : i < c)
    (right : s.nesting i = s.nesting o + 1) {o' c' : Nat} (k : s.Paired o' c') (behind' : o' < i)
    (inFront' : i < c') : o' ≤ o ∧ c ≤ c' := by
  have deeper := k.inside i behind' inFront'
  constructor
  · refine Nat.le_of_not_lt fun later => ?_
    have := h.inside o' later (Nat.lt_trans behind' inFront)
    omega
  · refine Nat.le_of_not_lt fun earlier => ?_
    have := h.inside c' (Nat.lt_trans behind inFront') earlier
    have := k.nesting
    omega

end Paired

namespace Balanced

variable (h : Balanced (ofTokens tokens).kinds)
include h

theorem matching?_iff :
    (ofTokens tokens).matching? o = some c ↔ Closes (ofTokens tokens).kinds o c := by
  refine ⟨fun found => ?_, fun closes => (paired_of_closes closes).matching?⟩
  -- what has a partner is an opening bracket
  obtain ⟨q, closer, -⟩ := Option.bind_eq_some_iff.mp found
  have size : o < (ofTokens tokens).size := lt_size_of_kind fun eof => by
    rw [eof] at closer
    cases closer
  obtain ⟨before, after, eq, length⟩ := exists_kinds size
  have role := h.role eq
  generalize kind : (ofTokens tokens).kind o = k at closer role eq
  cases role with
  | plain noOpener => rw [closerOf?_eq_none_iff.mpr noOpener] at closer; cases closer
  | @opener _ inner post _ p closer' inside =>
    have closes : Closes (ofTokens tokens).kinds o (o + inner.length + 1) :=
      ⟨before, k, inner, p, post, by rw [eq, List.append_assoc]; rfl, closer', inside, length, rfl⟩
    rw [(paired_of_closes closes).matching?] at found
    cases found
    exact closes
  | closer closer' =>
    have := (brackets_of_closerOf? closer).1.1
    rw [(brackets_of_closerOf? closer').2.1] at this
    cases this

theorem opening?_iff :
    (ofTokens tokens).opening? c = some o ↔ Closes (ofTokens tokens).kinds o c := by
  refine ⟨fun found => ?_, fun closes => (paired_of_closes closes).opening?⟩
  unfold opening? at found
  split at found
  · rename_i closes
    have size : c < (ofTokens tokens).size := lt_size_of_kind fun eof => by
      rw [eof] at closes
      cases closes
    obtain ⟨before, after, eq, length⟩ := exists_kinds size
    have role := h.role eq
    generalize kind : (ofTokens tokens).kind c = k at closes role eq
    cases role with
    | plain _ noCloser => rw [noCloser] at closes; cases closes
    | opener closer' => rw [(brackets_of_closerOf? closer').1.2] at closes; cases closes
    | @closer pre inner _ x p closer' inside =>
      have pair : Closes (ofTokens tokens).kinds pre.length c :=
        ⟨pre, x, inner, p, after, eq, closer', inside, rfl, by
          rw [← length, List.length_append, List.length_cons, Nat.add_assoc]⟩
      have this := (paired_of_closes pair).opening?
      unfold opening? at this
      rw [kind, if_pos closes] at this
      rw [this] at found
      cases found
      exact pair
  · cases found

/-- A token that is not at the top level stands right inside a pair. -/
theorem exists_right (deep : 0 < (ofTokens tokens).nesting i) :
    ∃ o c, Closes (ofTokens tokens).kinds o c ∧ o < i ∧ i < c ∧
      (ofTokens tokens).nesting i = (ofTokens tokens).nesting o + 1 := by
  have size : i < (ofTokens tokens).size := by
    refine Nat.lt_of_not_le fun le => ?_
    have none : (ofTokens tokens).nestings[i]? = none := by
      refine Array.getElem?_eq_none ?_
      rw [ofTokens, List.size_toArray, length_depths]
      exact le
    rw [nesting, none] at deep
    exact Nat.lt_irrefl 0 deep
  obtain ⟨before, after, eq, rfl⟩ := exists_kinds size
  generalize (ofTokens tokens).kind before.length = k at eq
  rw [nesting_of_kinds eq] at deep ⊢
  rcases h.rightInside eq 0 with outer | inside
  · rw [outer] at deep
    cases deep
  · cases inside with
    | @intro pre a b post x _ p closer inside _ right =>
      have closes : Closes (ofTokens tokens).kinds pre.length
          (pre.length + (a ++ k :: b).length + 1) :=
        ⟨pre, x, a ++ k :: b, p, post, by rw [eq]; simp, closer, inside, rfl, rfl⟩
      have first : (ofTokens tokens).kinds = pre ++ x :: (a ++ k :: (b ++ .punct p :: post)) := by
        rw [eq]
        simp
      refine ⟨_, _, closes, ?_, ?_, ?_⟩
      · rw [List.length_append, List.length_cons]
        omega
      · simp only [List.length_append, List.length_cons]
        omega
      · rw [right, nesting_of_kinds first,
          level_of_not_isCloser (brackets_of_closerOf? closer).1.2]

theorem enclosing?_iff :
    (ofTokens tokens).enclosing? i = some o ↔ Encloses (ofTokens tokens).kinds o i := by
  -- the pair right around a token is found, and lies within the others
  have right (deep : 0 < (ofTokens tokens).nesting i) :
      ∃ o, (ofTokens tokens).enclosing? i = some o ∧ Encloses (ofTokens tokens).kinds o i := by
    obtain ⟨o, c, closes, behind, inFront, right⟩ := h.exists_right deep
    have pair := paired_of_closes closes
    exact ⟨o, pair.enclosing? behind inFront right, c, closes, behind, inFront,
      fun _ _ closes' => pair.within behind inFront right (paired_of_closes closes')⟩
  constructor
  · intro found
    have deep : 0 < (ofTokens tokens).nesting i := by
      refine Nat.pos_of_ne_zero fun top => ?_
      rw [enclosing?, top] at found
      cases found
    obtain ⟨o', found', encloses⟩ := right deep
    rw [found'] at found
    cases found
    exact encloses
  · rintro ⟨c, closes, behind, inFront, least⟩
    have deep := (paired_of_closes closes).inside i behind inFront
    obtain ⟨o', found, c', closes', behind', inFront', least'⟩ := right (by omega)
    have := (least o' c' closes' behind' inFront').1
    have := (least' o c closes behind inFront).1
    rw [found, show o' = o by omega]

theorem enclosing?_eq_none_iff : (ofTokens tokens).enclosing? i = none ↔
    ∀ o c, Closes (ofTokens tokens).kinds o c → ¬ (o < i ∧ i < c) := by
  constructor
  · rintro none o c closes ⟨behind, inFront⟩
    have deep := (paired_of_closes closes).inside i behind inFront
    obtain ⟨o', c', closes', behind', inFront', right⟩ := h.exists_right (i := i) (by omega)
    rw [(paired_of_closes closes').enclosing? behind' inFront' right] at none
    cases none
  · intro outside
    have top : (ofTokens tokens).nesting i = 0 := by
      refine Nat.eq_zero_of_not_pos fun deep => ?_
      obtain ⟨o, c, closes, behind, inFront, -⟩ := h.exists_right deep
      exact outside o c closes ⟨behind, inFront⟩
    rw [enclosing?, top]

end Balanced

/-! ## Runs -/

/-- Chunks from their starts cover all from the first start on. -/
theorem flatMap_chunksOf {size first : Nat} {starts : List Nat}
    (inside : ∀ i ∈ first :: starts, i < size) (ordered : (first :: starts).Pairwise (· < ·)) :
    (chunksOf size (first :: starts)).flatMap Chunk.indices = List.range' first (size - first) := by
  induction starts generalizing first with
  | nil =>
    have := inside first List.mem_cons_self
    rw [chunksOf, List.flatMap_singleton, Chunk.indices]
    congr 1
    dsimp only
    omega
  | cons next starts ih =>
    obtain ⟨before, ordered⟩ := List.pairwise_cons.mp ordered
    have start := before next List.mem_cons_self
    have stop := inside next (List.mem_cons_of_mem _ List.mem_cons_self)
    rw [chunksOf, List.flatMap_cons, ih (fun i hi => inside i (List.mem_cons_of_mem _ hi)) ordered,
      Chunk.indices]
    dsimp only
    rw [show next - 1 + 1 - first = next - first by omega]
    have joined := List.range'_append_1 (s := first) (m := next - first) (n := size - next)
    rw [show first + (next - first) = next by omega,
      show next - first + (size - next) = size - first by omega] at joined
    exact joined

/-- The first token starts a chunk. -/
theorem startsChunk_zero (size : 0 < (ofTokens tokens).size) :
    (ofTokens tokens).startsChunk 0 = true := by
  obtain ⟨before, after, eq, length⟩ := exists_kinds size
  have top := nesting_of_kinds eq
  rw [List.length_eq_zero_iff.mp length] at top
  have : (ofTokens tokens).nesting 0 = 0 := by
    rw [show (0 : Nat) = ([] : List TokenKind).length from rfl, top, level]
    split <;> rfl
  rw [startsChunk, this]
  rfl

theorem flatMap_chunks (tokens : List Token) :
    (ofTokens tokens).chunks.flatMap Chunk.indices = List.range (ofTokens tokens).size := by
  unfold chunks
  cases size : (ofTokens tokens).size with
  | zero => rfl
  | succ n =>
    have first : (ofTokens tokens).startsChunk 0 = true := startsChunk_zero (by omega)
    have starts : (List.range (n + 1)).filter (ofTokens tokens).startsChunk =
        0 :: (List.range' 1 n).filter (ofTokens tokens).startsChunk := by
      rw [List.range_eq_range', List.range'_succ, List.filter_cons_of_pos first]
    have inside (i : Nat) (mem : i ∈ (List.range (n + 1)).filter (ofTokens tokens).startsChunk) :
        i < n + 1 := List.mem_range.mp (List.mem_filter.mp mem).1
    have ordered := List.pairwise_lt_range (n := n + 1) |>.filter (ofTokens tokens).startsChunk
    rw [starts] at inside ordered ⊢
    rw [flatMap_chunksOf inside ordered, Nat.sub_zero, List.range_eq_range']

/-- The structure that is found in any text. Its chunks are runs of tokens, none of them empty,
which one after another give all tokens in their order. If its brackets nest properly, looking for
the partner of one finds it from either side, and looking for what encloses a token finds the
innermost pair strictly around it, or nothing if there is none. -/
theorem ofText_consistent (text : String) :
    ((ofText text).chunks.flatMap Chunk.indices = List.range (ofText text).size ∧
        ∀ chunk ∈ (ofText text).chunks, chunk.first ≤ chunk.last) ∧
      (Balanced (ofText text).kinds →
        (∀ o c, (ofText text).matching? o = some c ↔ Closes (ofText text).kinds o c) ∧
        (∀ o c, (ofText text).opening? c = some o ↔ Closes (ofText text).kinds o c) ∧
        (∀ i o, (ofText text).enclosing? i = some o ↔ Encloses (ofText text).kinds o i) ∧
        ∀ i, (ofText text).enclosing? i = none ↔
          ∀ o c, Closes (ofText text).kinds o c → ¬ (o < i ∧ i < c)) := by
  refine ⟨⟨flatMap_chunks _, fun chunk mem => ((chunks_spec _).1 chunk mem).1⟩, fun h => ?_⟩
  exact ⟨fun _ _ => h.matching?_iff, fun _ _ => h.opening?_iff, fun _ _ => h.enclosing?_iff,
    fun _ => h.enclosing?_eq_none_iff⟩

/-- The body of a function, an object in it and a list in that. -/
theorem ofText_consistent_nested :
    let s := ofText "function f(a) \x7b g(\x7b b: [a] \x7d); \x7d f(c);"
    Balanced s.kinds ∧ Closes s.kinds 5 17 ∧ Encloses s.kinds 11 12 ∧
      ∀ o c, Closes s.kinds o c → ¬ (o < 18 ∧ 18 < c) := by
  intro s
  have balanced : Balanced s.kinds := by decide +kernel
  obtain ⟨-, h⟩ := ofText_consistent "function f(a) \x7b g(\x7b b: [a] \x7d); \x7d f(c);"
  obtain ⟨matching, opening, enclosing, outside⟩ := h balanced
  exact ⟨balanced, (matching 5 17).mp (by decide +kernel), (enclosing 12 11).mp (by decide +kernel),
    (outside 18).mp (by decide +kernel)⟩

end Scan

end TsxPreview
