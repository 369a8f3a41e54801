import TsxPreview.Proofs.Repair.Tokens
import TsxPreview.Repair.Helpers

/-!
The helpers to be moved are found in rounds, each of which leaves out some of the candidates.

Moving helpers into a component adds no weight to a text. What is moved is removed where it stood:
the ranges that go do not overlap although each may be widened to whole lines, since the next range
starts with a keyword and whatever stands before that on its line keeps the line from going.
-/

namespace TsxPreview

namespace Edit

variable {text : List Char}

theorem wholeLines_snd_le (text : List Char) (lo hi : Nat) :
    (wholeLines text lo hi).2 ≤ lineEnd text hi := by
  rw [wholeLines_eq]
  split
  · exact Nat.le_refl _
  · exact le_lineEnd text hi

theorem lineStart_le_wholeLines_fst (text : List Char) (lo hi : Nat) :
    lineStart text lo ≤ (wholeLines text lo hi).1 := by
  rw [wholeLines_eq]
  split
  · exact Nat.le_refl _
  · exact Nat.sub_le _ _

end Edit

namespace Scan

variable {text : String} {i j : Nat} {word : Keyword}

/-! ## Chunks -/

theorem chunksOf_spec (size : Nat) (starts : List Nat) (inside : ∀ i ∈ starts, i < size)
    (ordered : starts.Pairwise (· < ·)) :
    (∀ c ∈ chunksOf size starts, c.first ∈ starts ∧ c.first ≤ c.last ∧ c.last < size) ∧
      (chunksOf size starts).Pairwise fun a b => a.last < b.first := by
  fun_induction chunksOf size starts with
  | case1 => exact ⟨by simp, .nil⟩
  | case2 first =>
    have := inside first List.mem_cons_self
    refine ⟨?_, List.pairwise_singleton _ _⟩
    intro c hc
    rw [List.mem_singleton.mp hc]
    exact ⟨List.mem_cons_self, by dsimp only; omega, by dsimp only; omega⟩
  | case3 first next rest ih =>
    obtain ⟨before, ordered⟩ := List.pairwise_cons.mp ordered
    obtain ⟨each, apart⟩ := ih (fun i hi => inside i (List.mem_cons_of_mem _ hi)) ordered
    have start := before next List.mem_cons_self
    have stop := inside next (List.mem_cons_of_mem _ List.mem_cons_self)
    refine ⟨?_, List.pairwise_cons.mpr ⟨?_, apart⟩⟩
    · intro c hc
      rcases List.mem_cons.mp hc with rfl | hc
      · exact ⟨List.mem_cons_self, by dsimp only; omega, by dsimp only; omega⟩
      · exact ⟨List.mem_cons_of_mem _ (each c hc).1, (each c hc).2⟩
    · intro c hc
      have first := (List.pairwise_cons.mp ordered).1
      have le : next ≤ c.first := by
        rcases List.mem_cons.mp (each c hc).1 with eq | mem
        · exact Nat.le_of_eq eq.symm
        · exact Nat.le_of_lt (first c.first mem)
      dsimp only
      omega

theorem chunks_spec (s : Scan) :
    (∀ c ∈ s.chunks, c.first ≤ c.last ∧ c.last < s.size) ∧
      s.chunks.Pairwise fun a b => a.last < b.first := by
  obtain ⟨each, ordered⟩ := chunksOf_spec s.size ((List.range s.size).filter s.startsChunk)
    (fun i hi => List.mem_range.mp (List.mem_filter.mp hi).1)
    (List.pairwise_lt_range.filter _)
  exact ⟨fun c hc => (each c hc).2, ordered⟩

/-! ## Lines between chunks -/

theorem keyword_solid (k : Keyword) :
    ∃ c more, k.text.toList = c :: more ∧ isBlank c = false := by
  cases k <;> exact ⟨_, _, rfl, by decide⟩

/-- What stands between a token and a keyword behind it. -/
theorem gap (lt : i < j) (h : j < (ofText text).size) (kind : (ofText text).kind j = .keyword word) :
    ∃ pre lexeme gap c more, text.toList = pre ++ lexeme ++ gap ++ c :: more ∧ isBlank c = false
      ∧ (ofText text).hi i = byteLength (pre ++ lexeme)
      ∧ (ofText text).lo j = byteLength (pre ++ lexeme ++ gap)
      ∧ (Lexer.isMarkupText ((ofText text).kind i) = false →
        Lexer.EndsSolid lexeme (gap ++ c :: more)) := by
  obtain ⟨pre, lexeme, post, eq, -, hi, -, lexes⟩ := spelled (Nat.lt_trans lt h)
  obtain ⟨pre', lexeme', post', eq', lo, -, -, lexes'⟩ := spelled h
  -- a keyword starts with a letter
  have keyword := lexes' (by rw [kind]; rfl)
  rw [kind] at keyword
  obtain ⟨c, more, spells, solid⟩ := keyword_solid word
  have first : lexeme' = c :: more := keyword.spells.trans spells
  subst first
  have order := hi_le_lo lt h
  rw [hi, lo] at order
  obtain ⟨gap, rfl, rfl⟩ := exists_append_of_le
    (eq.symm.trans (eq'.trans (List.append_assoc ..))) order
  refine ⟨pre, lexeme, gap, c, more ++ post', ?_, solid, hi, lo, ?_⟩
  · rw [eq', List.append_assoc]
    rfl
  · exact fun code => (lexes code).solid

theorem not_newline_of_solid {c : Char} (h : isBlank c = false) : c ≠ '\n' := by
  rintro rfl
  revert h
  decide

/-- The solid end of a token stands on the line of what comes behind the token on that line. -/
theorem exists_solid_lineBefore (pre : List Char) {lexeme gap more : List Char} {c : Char}
    (solid : Lexer.EndsSolid lexeme (gap ++ c :: more)) (dark : isBlank c = false)
    (line : '\n' ∉ gap) :
    ∃ d ∈ Edit.lineBefore (pre ++ lexeme ++ gap ++ c :: more) (byteLength (pre ++ lexeme ++ gap)),
      isBlank d = false := by
  rcases solid with ⟨before, d, after, rfl, dark', line'⟩ | nil | next
  · have whole : '\n' ∉ d :: after ++ gap := by
      intro mem
      rcases List.mem_append.mp mem with mem | mem
      · rcases List.mem_cons.mp mem with eq | mem
        · exact not_newline_of_solid dark' eq.symm
        · exact line' mem
      · exact line mem
    have mem := Edit.mem_lineBefore (pre ++ before) (c :: more) whole List.mem_cons_self
    rw [show pre ++ before ++ (d :: after ++ gap) = pre ++ (before ++ d :: after) ++ gap by
      simp] at mem
    exact ⟨d, mem, dark'⟩
  · simp at nil
  · cases gap with
    | nil =>
      cases next
      exact absurd rfl (not_newline_of_solid dark)
    | cons g rest =>
      cases next
      exact absurd List.mem_cons_self line

/-- When only white space stands before a keyword on its line, the token before ends earlier. -/
theorem hi_le_lineStart (h : i + 1 < (ofText text).size)
    (kind : (ofText text).kind (i + 1) = .keyword word)
    (blank : (Edit.lineBefore text.toList ((ofText text).lo (i + 1))).all isBlank = true) :
    (ofText text).hi i ≤ Edit.lineStart text.toList ((ofText text).lo (i + 1)) := by
  have code : Lexer.isMarkupText ((ofText text).kind i) = false := by
    refine isMarkupText_pred h fun p => ?_
    rw [kind]
    exact TokenKind.noConfusion
  obtain ⟨pre, lexeme, gap, c, more, eq, dark, hi, lo, solid⟩ := gap (Nat.lt_add_one i) h kind
  rw [hi, lo, eq]
  rw [lo, eq] at blank
  -- either the line starts in the gap, or the end of the token stands on it
  by_cases newline : '\n' ∈ gap
  · obtain ⟨p, q, rfl⟩ := List.append_of_mem newline
    have start := Edit.le_lineStart (pre ++ lexeme ++ p) q (c :: more)
    have le : byteLength (pre ++ lexeme) ≤ byteLength (pre ++ lexeme ++ p ++ ['\n']) := by
      rw [List.append_assoc (pre ++ lexeme), byteLength_append (pre ++ lexeme)]
      omega
    rw [← List.append_assoc (pre ++ lexeme)]
    exact Nat.le_trans le start
  · obtain ⟨d, mem, dark'⟩ := exists_solid_lineBefore pre (solid code) dark newline
    have := List.all_eq_true.mp blank d mem
    rw [dark'] at this
    cases this

/-- Ranges of tokens, the later of which starts with a keyword, do not overlap when they are widened
to whole lines. -/
theorem wholeLines_ordered (lt : i < j) (h : j < (ofText text).size)
    (kind : (ofText text).kind j = .keyword word) (start stop : Nat) :
    (Edit.wholeLines text.toList start ((ofText text).hi i)).2
      ≤ (Edit.wholeLines text.toList ((ofText text).lo j) stop).1 := by
  obtain ⟨pre, lexeme, gap, c, more, eq, dark, hi, lo, -⟩ := gap lt h kind
  by_cases newline : '\n' ∈ gap
  · obtain ⟨p, q, rfl⟩ := List.append_of_mem newline
    have end' : Edit.lineEnd text.toList ((ofText text).hi i)
        ≤ byteLength (pre ++ lexeme ++ p ++ ['\n']) := by
      have := Edit.lineEnd_le (pre ++ lexeme) p (q ++ c :: more)
      rw [hi, eq]
      simpa only [List.append_assoc, List.cons_append] using this
    have start' : byteLength (pre ++ lexeme ++ p ++ ['\n'])
        ≤ Edit.lineStart text.toList ((ofText text).lo j) := by
      have := Edit.le_lineStart (pre ++ lexeme ++ p) q (c :: more)
      rw [lo, eq]
      simpa only [List.append_assoc, List.cons_append] using this
    calc (Edit.wholeLines text.toList start ((ofText text).hi i)).2
        ≤ Edit.lineEnd text.toList ((ofText text).hi i) := Edit.wholeLines_snd_le ..
      _ ≤ byteLength (pre ++ lexeme ++ p ++ ['\n']) := end'
      _ ≤ Edit.lineStart text.toList ((ofText text).lo j) := start'
      _ ≤ (Edit.wholeLines text.toList ((ofText text).lo j) stop).1 :=
        Edit.lineStart_le_wholeLines_fst ..
  -- the keyword stands on the line where the first range ends
  · have stays : (Edit.wholeLines text.toList start ((ofText text).hi i)).2
        = (ofText text).hi i := by
      have mem := Edit.mem_lineAfter (pre ++ lexeme) more newline (not_newline_of_solid dark)
      rw [← List.append_assoc, ← eq, ← hi] at mem
      rw [Edit.wholeLines_eq, if_neg]
      rw [Bool.and_eq_true, List.all_eq_true, List.all_eq_true]
      intro blank
      have := blank.2 c mem
      rw [dark] at this
      cases this
    rw [stays, Edit.wholeLines_eq]
    split
    · rename_i blank
      rw [Bool.and_eq_true] at blank
      obtain ⟨k, rfl⟩ : ∃ k, j = k + 1 := ⟨j - 1, by omega⟩
      calc (ofText text).hi i ≤ (ofText text).hi k := hi_le_hi (by omega) (by omega)
        _ ≤ Edit.lineStart text.toList ((ofText text).lo (k + 1)) := hi_le_lineStart h kind blank.1
    · exact hi_le_lo lt h

end Scan

namespace Repair

namespace Helpers

/-! ## The helpers that are moved -/

/-- Helpers are declarations that take up chunks, one chunk behind another. -/
structure InOrder (s : Scan) (helpers : List Helper) : Prop where
  declared : ∀ h ∈ helpers, (s.kind h.chunk.first).isDeclarationKeyword = true
  inside : ∀ h ∈ helpers, h.chunk.first ≤ h.chunk.last ∧ h.chunk.last < s.size
  ordered : helpers.Pairwise fun a b => a.chunk.last < b.chunk.first

theorem InOrder.sublist {s : Scan} {some helpers : List Helper} (h : InOrder s helpers)
    (sub : some.Sublist helpers) : InOrder s some :=
  ⟨fun x hx => h.declared x (sub.subset hx), fun x hx => h.inside x (sub.subset hx),
    h.ordered.sublist sub⟩

theorem helperName?_declares {s : Scan} {c : Chunk} {name : String}
    (found : helperName? s c = some name) : (s.kind c.first).isDeclarationKeyword = true := by
  obtain ⟨_, declared, -⟩ := Option.bind_eq_some_iff.mp found
  unfold declared? at declared
  split at declared
  · assumption
  · cases declared

/-- The helper that a chunk is. -/
def candidate? (s : Scan) (m : MainBody) (c : Chunk) : Option Helper := do
  let name ← helperName? s c
  guard (s.mentions name (m.openBrace + 1) (m.closeBrace - 1))
  guard (!declaredInBody s m name)
  return ⟨name, c⟩

theorem candidates_eq (s : Scan) (m : MainBody) (chunks : List Chunk) :
    candidates s m chunks = (chunks.filter (· != m.chunk)).filterMap (candidate? s m) := rfl

theorem candidate?_spec {s : Scan} {m : MainBody} {c : Chunk} {h : Helper}
    (found : candidate? s m c = some h) :
    h.chunk = c ∧ (s.kind c.first).isDeclarationKeyword = true := by
  obtain ⟨name, named, found⟩ := Option.bind_eq_some_iff.mp found
  obtain ⟨-, found⟩ := of_guard_bind found
  obtain ⟨-, found⟩ := of_guard_bind found
  cases found
  exact ⟨rfl, helperName?_declares named⟩

theorem candidates_inOrder (s : Scan) (m : MainBody) : InOrder s (candidates s m s.chunks) := by
  obtain ⟨each, ordered⟩ := s.chunks_spec
  rw [candidates_eq]
  have mem : ∀ h ∈ (s.chunks.filter (· != m.chunk)).filterMap (candidate? s m),
      h.chunk ∈ s.chunks ∧ (s.kind h.chunk.first).isDeclarationKeyword = true := by
    intro h mem
    obtain ⟨c, hc, found⟩ := List.mem_filterMap.mp mem
    obtain ⟨rfl, declared⟩ := candidate?_spec found
    exact ⟨(List.mem_filter.mp hc).1, declared⟩
  refine ⟨fun h hh => (mem h hh).2, fun h hh => each _ (mem h hh).1, ?_⟩
  refine (ordered.filter _).filterMap _ fun a b lt x hx y hy => ?_
  rw [(candidate?_spec hx).1, (candidate?_spec hy).1]
  exact lt

/-! ## Rounds -/

/-- One round over the helpers. -/
def round (s : Scan) (m : MainBody) (helpers : List Helper) : List Helper :=
  helpers.filter fun h => !usedOutside s m (staying m s.chunks helpers) h

/-- A number of rounds, the last of which leaves out nothing. -/
inductive Rounds (s : Scan) (m : MainBody) : Nat → List Helper → List Helper → Prop where
  | last {helpers : List Helper} (all : (round s m helpers).length = helpers.length) :
      Rounds s m 1 helpers helpers
  | more {n : Nat} {helpers out : List Helper}
      (fewer : (round s m helpers).length < helpers.length)
      (rest : Rounds s m n (round s m helpers) out) : Rounds s m (n + 1) helpers out

section

variable {s : Scan} {m : MainBody} {n : Nat} {helpers out : List Helper}

theorem Rounds.sublist (rounds : Rounds s m n helpers out) : out.Sublist helpers := by
  induction rounds with
  | last => exact List.Sublist.refl _
  | more _ _ ih => exact ih.trans List.filter_sublist

theorem Rounds.le (rounds : Rounds s m n helpers out) : n ≤ helpers.length + 1 := by
  induction rounds with
  | last => omega
  | more fewer _ ih => omega

/-- What the last round looked at is used by nothing outside. -/
theorem Rounds.not_usedOutside (rounds : Rounds s m n helpers out) :
    ∀ h ∈ out, usedOutside s m (staying m s.chunks out) h = false := by
  induction rounds with
  | last all =>
    intro h mem
    rw [← List.filter_sublist.eq_of_length all, List.mem_filter, Bool.not_eq_true'] at mem
    exact mem.2
  | more _ _ ih => exact ih

/-- The fuel of the rounds is enough. -/
theorem rounds_movable {fuel : Nat} (enough : helpers.length < fuel) :
    ∃ n, Rounds s m n helpers (movable s m s.chunks fuel helpers) := by
  induction fuel generalizing helpers with
  | zero => omega
  | succ fuel ih =>
    have le : (round s m helpers).length ≤ helpers.length := List.length_filter_le _ _
    rw [movable]
    split
    · rename_i all
      exact ⟨1, .last all⟩
    · rename_i fewer
      have fewer : (round s m helpers).length < helpers.length := Nat.lt_of_le_of_ne le fewer
      obtain ⟨n, rest⟩ := ih (Nat.lt_of_lt_of_le fewer (Nat.le_of_lt_succ enough))
      exact ⟨n + 1, .more fewer rest⟩

end

/-! ## What moving them does -/

variable {text : String} {helpers : List Helper}

/-- The removal of a helper with its lines. -/
def removalOf (text : String) (h : Helper) : Edit :=
  Edit.removeLines text.toList ((Scan.ofText text).lo h.chunk.first)
    ((Scan.ofText text).hi h.chunk.last)

/-- The text of a helper. -/
def sourceOf (text : String) (h : Helper) : List Char :=
  sliceBytes ((Scan.ofText text).lo h.chunk.first) ((Scan.ofText text).hi h.chunk.last)
    text.toList

theorem lo_le_hi_of_chunk {c : Chunk} (inside : c.first ≤ c.last ∧ c.last < (Scan.ofText text).size) :
    (Scan.ofText text).lo c.first ≤ (Scan.ofText text).hi c.last :=
  Nat.le_trans (Scan.lo_le_hi text c.first) (Scan.hi_le_hi inside.1 inside.2)

theorem removalOf_fits {h : Helper}
    (inside : h.chunk.first ≤ h.chunk.last ∧ h.chunk.last < (Scan.ofText text).size) :
    (removalOf text h).Fits text.toList :=
  Edit.removeLines_fits (Scan.boundary_lo _ _) (Scan.boundary_hi _ _) (lo_le_hi_of_chunk inside)

theorem removalOf_ordered {a b : Helper} (lt : a.chunk.last < b.chunk.first)
    (inside : b.chunk.first < (Scan.ofText text).size)
    (declared : ((Scan.ofText text).kind b.chunk.first).isDeclarationKeyword = true) :
    (removalOf text a).hi ≤ (removalOf text b).lo := by
  unfold TokenKind.isDeclarationKeyword at declared
  split at declared
  · rename_i kind
    exact Scan.wholeLines_ordered lt inside kind _ _
  · cases declared

/-- What is removed weighs at least what is moved. -/
theorem weight_sourceOf_le {h : Helper}
    (inside : h.chunk.first ≤ h.chunk.last ∧ h.chunk.last < (Scan.ofText text).size) :
    weight (sourceOf text h)
      ≤ weight (sliceBytes (removalOf text h).lo (removalOf text h).hi text.toList) := by
  have fits := removalOf_fits inside
  have wide := Edit.weightTo_removeLines (Scan.boundary_lo text h.chunk.first)
    (Scan.boundary_hi text h.chunk.last)
  have moved := (Scan.boundary_lo text h.chunk.first).weightTo_add_slice (lo_le_hi_of_chunk inside)
  have removed := fits.lo.weightTo_add_slice fits.le
  have lo : weightTo text.toList (removalOf text h).lo
    ≤ weightTo text.toList ((Scan.ofText text).lo h.chunk.first) := wide.1
  have hi : weightTo text.toList ((Scan.ofText text).hi h.chunk.last)
    ≤ weightTo text.toList (removalOf text h).hi := wide.2
  unfold sourceOf
  omega

/-- What takes the place of the helpers. -/
def edits (text : String) (m : MainBody) (helpers : List Helper) : List Edit :=
  helpers.map (removalOf text) ++ [Edit.insertAt ((Scan.ofText text).hi m.openBrace)
    (helpers.flatMap fun h => '\n' :: sourceOf text h)]

theorem nested_eq (text : String) (m : MainBody) (helpers : List Helper) :
    nested text.toList (Scan.ofText text) m helpers
      = Edit.applyAll text.toList (edits text m helpers) := (rfl)

theorem InOrder.edits_fits (h : InOrder (Scan.ofText text) helpers) (m : MainBody) :
    ∀ e ∈ edits text m helpers, e.Fits text.toList := by
  intro e he
  rcases List.mem_append.mp he with he | he
  · obtain ⟨x, hx, rfl⟩ := List.mem_map.mp he
    exact removalOf_fits (h.inside x hx)
  · rw [List.mem_singleton.mp he]
    exact ⟨Scan.boundary_hi _ _, Scan.boundary_hi _ _, Nat.le_refl _⟩

theorem InOrder.edits_apart (h : InOrder (Scan.ofText text) helpers) (m : MainBody) :
    (edits text m helpers).Pairwise Edit.Apart := by
  refine List.pairwise_append.mpr ⟨?_, List.pairwise_singleton _ _, ?_⟩
  · rw [List.pairwise_map]
    refine h.ordered.imp_of_mem fun {a b} _ hb lt => Or.inl ?_
    obtain ⟨le, size⟩ := h.inside b hb
    exact removalOf_ordered lt (Nat.lt_of_le_of_lt le size) (h.declared b hb)
  -- what is inserted takes no room
  · intro a _ b hb
    rw [List.mem_singleton.mp hb]
    exact Or.inr (Or.inr (Or.inr rfl))

/-- Only what is inserted puts something in. -/
theorem text_edits (text : String) (m : MainBody) (helpers : List Helper) :
    (edits text m helpers).flatMap Edit.text
      = helpers.flatMap fun h => '\n' :: sourceOf text h := by
  have none : (helpers.map (removalOf text)).flatMap Edit.text = [] := by
    rw [List.flatMap_eq_nil_iff]
    intro e he
    obtain ⟨x, -, rfl⟩ := List.mem_map.mp he
    rfl
  rw [edits, List.flatMap_append, none, List.nil_append, List.flatMap_singleton]
  rfl

/-- Only the removals take something. -/
theorem slice_edits (text : String) (m : MainBody) (helpers : List Helper) :
    (edits text m helpers).flatMap (fun e => sliceBytes e.lo e.hi text.toList)
      = helpers.flatMap fun h =>
        sliceBytes (removalOf text h).lo (removalOf text h).hi text.toList := by
  have nothing (at' : Nat) (moved : List Char) :
      sliceBytes (Edit.insertAt at' moved).lo (Edit.insertAt at' moved).hi text.toList = [] := by
    show takeBytes (at' - at') _ = []
    rw [Nat.sub_self, takeBytes_zero]
  rw [edits, List.flatMap_append, List.flatMap_map, List.flatMap_singleton, nothing,
    List.append_nil]

/-- Moving helpers makes no text heavier. The line feeds that are put before them weigh nothing. -/
theorem InOrder.weight_nested (h : InOrder (Scan.ofText text) helpers) (m : MainBody) :
    weight (nested text.toList (Scan.ofText text) m helpers) ≤ weight text.toList := by
  have moves := Edit.weight_applyAll_moves (h.edits_fits m) (h.edits_apart m)
  have removed : weight (helpers.flatMap fun x => '\n' :: sourceOf text x)
      ≤ weight (helpers.flatMap fun x =>
        sliceBytes (removalOf text x).lo (removalOf text x).hi text.toList) := by
    refine weight_flatMap_le fun x hx => ?_
    rw [weight_cons, show charWeight '\n' = 0 by decide, Nat.zero_add]
    exact weight_sourceOf_le (h.inside x hx)
  rw [text_edits, slice_edits] at moves
  rw [nested_eq]
  omega

end Helpers

/-- Helpers that have been moved add no weight, and fewer declarations stand outside braces. -/
theorem nestHelpers_spec {text result : String} {fix : Fix}
    (h : nestHelpers text = .applied result fix) :
    weight result.toList ≤ weight text.toList ∧
      (Census.ofText result).topLevel < (Census.ofText text).topLevel := by
  unfold nestHelpers at h
  dsimp only at h
  split at h
  · cases h
  · rename_i m _
    obtain ⟨_, rounds⟩ := Helpers.rounds_movable (s := Scan.ofText text) (m := m)
      (Nat.lt_succ_self (Helpers.candidates (Scan.ofText text) m (Scan.ofText text).chunks).length)
    generalize Helpers.movable _ _ _ _ _ = moved at h rounds
    have order := (Helpers.candidates_inOrder (Scan.ofText text) m).sublist rounds.sublist
    split at h
    · cases h
    · rename_i some
      split at h
      · rename_i census
        cases h
        refine ⟨?_, ?_⟩
        · rw [String.toList_ofList]
          exact order.weight_nested m
        · have pos : 0 < moved.length := List.length_pos_iff.mpr (by simpa using some)
          rw [List.length_map] at census
          show _ < (Census.ofScan (Scan.ofText text)).topLevel
          omega
      · cases h

end Repair

end TsxPreview
