import TsxPreview.Proofs.Lexer.Literals

/-!
Text that gives no token: white space, comments and characters that were reported. A gap is described
by the text alone; passing it notes a line break exactly if there is one in it.
-/

namespace TsxPreview

namespace Lexer

/-- A line break in white space. In a comment only a line feed counts. -/
def isLineBreak (c : Char) : Bool := c == '\n' || c.toNat == 0x2028 || c.toNat == 0x2029

/-- White space that trivia consists of, besides comments. -/
def isTrivial (c : Char) : Prop :=
  c = '\n' ∨ c = ' ' ∨ c = '\t' ∨ c = '\r' ∨ (0x80 ≤ c.toNat ∧ isBlank c = true)

def opensComment : List Char → Bool
  | '/' :: '/' :: _ | '/' :: '*' :: _ => true
  | _ => false

/-- The characters `cs`, between `pre` and `post`, form no token, and `errors` tells of those that
might. The flag is set if there is a line break among them. -/
inductive Gap (errors : List Diagnostic) : (pre cs post : List Char) → (breaks : Bool) → Prop where
  | nil {pre post : List Char} : Gap errors pre [] post false
  | blank {pre cs post : List Char} {c : Char} {breaks : Bool} (blank : isBlank c = true)
      (more : Gap errors (pre ++ [c]) cs post breaks) :
      Gap errors pre (c :: cs) post (isLineBreak c || breaks)
  /-- A comment up to the end of its line. -/
  | line {pre body cs post : List Char} {breaks : Bool} (line : '\n' ∉ body)
      (ends : ∀ c ∈ (cs ++ post).head?, c = '\n')
      (more : Gap errors (pre ++ '/' :: '/' :: body) cs post breaks) :
      Gap errors pre ('/' :: '/' :: body ++ cs) post breaks
  /-- A comment up to the first end mark. -/
  | block {pre body cs post : List Char} {breaks : Bool}
      (first : ¬ ['*', '/'] <:+: body ++ ['*'])
      (more : Gap errors (pre ++ '/' :: '*' :: body ++ ['*', '/']) cs post breaks) :
      Gap errors pre ('/' :: '*' :: body ++ ['*', '/'] ++ cs) post (body.contains '\n' || breaks)
  /-- A comment that does not end. -/
  | openBlock {pre body : List Char} (first : ¬ ['*', '/'] <:+: body) :
      Gap errors pre ('/' :: '*' :: body) [] (body.contains '\n')
  /-- A character that is reported where it stands. -/
  | unexpected {pre cs post : List Char} {c : Char} {breaks : Bool} (visible : ¬ isTrivial c)
      (code : opensComment (c :: cs ++ post) = false)
      (reported : ∃ d ∈ errors, d.code = .unexpectedCharacter ∧ d.span.lo = byteLength pre ∧
        d.span.hi = byteLength (pre ++ [c]))
      (more : Gap errors (pre ++ [c]) cs post breaks) : Gap errors pre (c :: cs) post breaks

namespace Gap

variable {errors : List Diagnostic} {pre xs ys post : List Char} {a b : Bool}

theorem append (h : Gap errors pre xs (ys ++ post) a) (k : Gap errors (pre ++ xs) ys post b) :
    Gap errors pre (xs ++ ys) post (a || b) := by
  generalize eq : ys ++ post = behind at h
  induction h with
  | nil =>
    rw [List.append_nil] at k
    exact k
  | blank blank _ ih =>
    rw [Bool.or_assoc]
    exact .blank blank (ih (by simpa using k) eq)
  | @line pre body cs post' _ line ends _ ih =>
    subst eq
    rw [List.append_assoc]
    exact .line line (by simpa using ends) (ih (by simpa using k) rfl)
  | @block pre body cs post' _ first _ ih =>
    rw [Bool.or_assoc, List.append_assoc]
    exact .block first (ih (by simpa using k) eq)
  | openBlock first =>
    -- nothing is left behind it
    obtain ⟨rfl, rfl⟩ := List.append_eq_nil_iff.mp eq
    cases k
    rw [Bool.or_false, List.append_nil]
    exact .openBlock first
  | unexpected visible code reported _ ih =>
    subst eq
    exact .unexpected visible (by simpa using code) reported (ih (by simpa using k) rfl)

theorem mono {errors' : List Diagnostic} (le : errors ⊆ errors') (h : Gap errors pre xs post a) :
    Gap errors' pre xs post a := by
  induction h with
  | nil => exact .nil
  | blank blank _ ih => exact .blank blank ih
  | line line ends _ ih => exact .line line ends ih
  | block first _ ih => exact .block first ih
  | openBlock first => exact .openBlock first
  | unexpected visible code reported _ ih =>
    obtain ⟨d, mem, reported⟩ := reported
    exact .unexpected visible code ⟨d, le mem, reported⟩ ih

end Gap

/-- The state of a lexer that has read `pre`. -/
structure State.Behind (s : State) (pre : List Char) : Prop where
  offset : s.cursor.offset = byteLength pre
  counted : s.found.errors.length ≤ s.found.total

/-- From behind `pre`, a gap is passed. -/
structure Passes (pre : List Char) (s : State) (cs : List Char) (breaks : Bool) (t : State) :
    Prop where
  reads : s.cursor.Reads cs t.cursor
  found : s.found.Grows t.found
  sawNewline : t.sawNewline = (s.sawNewline || breaks)
  gap : s.Behind pre → Gap t.found.errors pre cs t.cursor.rest breaks

theorem State.Behind.reads {s t : State} {pre cs : List Char} (h : s.Behind pre)
    (reads : s.cursor.Reads cs t.cursor) (found : s.found.Grows t.found) : t.Behind (pre ++ cs) :=
  ⟨by rw [reads.offset, h.offset, byteLength_append], found.counted h.counted⟩

namespace Passes

variable {pre xs ys : List Char} {s t u : State} {a b : Bool}

theorem refl (pre : List Char) (s : State) : Passes pre s [] false s :=
  ⟨.refl _, .refl _, (Bool.or_false _).symm, fun _ => .nil⟩

theorem trans (h : Passes pre s xs a t) (k : Passes (pre ++ xs) t ys b u) :
    Passes pre s (xs ++ ys) (a || b) u where
  reads := h.reads.trans k.reads
  found := h.found.trans k.found
  sawNewline := by rw [k.sawNewline, h.sawNewline, Bool.or_assoc]
  gap start := by
    have first := (h.gap start).mono k.found.errors.subset
    rw [k.reads.rest] at first
    exact first.append (k.gap (start.reads h.reads h.found))

end Passes

/-! ## Trivia -/

/-- What a block comment reads behind its opening, in front of `rest`. -/
inductive EndsComment : (cs rest body : List Char) → Prop where
  | closed {rest body : List Char} (first : ¬ ['*', '/'] <:+: body ++ ['*']) :
      EndsComment (body ++ ['*', '/']) rest body
  | atEnd {body : List Char} (first : ¬ ['*', '/'] <:+: body) : EndsComment body [] body

theorem EndsComment.cons {cs rest body : List Char} {c : Char} (h : EndsComment cs rest body)
    (k : ¬ ['*', '/'] <+: c :: cs ++ rest) : EndsComment (c :: cs) rest (c :: body) := by
  -- an end mark that starts with `c` would have been the first
  cases h with
  | closed first =>
    show EndsComment (c :: body ++ ['*', '/']) rest (c :: body)
    refine .closed fun infix' => ?_
    rcases List.infix_cons_iff.mp infix' with start | later
    · refine k (start.trans ⟨'/' :: rest, ?_⟩)
      simp
    · exact first later
  | atEnd first =>
    refine .atEnd fun infix' => ?_
    rcases List.infix_cons_iff.mp infix' with start | later
    · exact k (by simpa using start)
    · exact first later

/-- A block comment is read up to its end. -/
theorem reads_blockComment (start : Cursor) (fuel : Nat) (s : State)
    (enough : s.cursor.rest.length < fuel) :
    ∃ cs body, s.cursor.Reads cs (blockComment start fuel s).cursor ∧
      EndsComment cs (blockComment start fuel s).cursor.rest body ∧
      s.found.Grows (blockComment start fuel s).found ∧
      (blockComment start fuel s).sawNewline = (s.sawNewline || body.contains '\n') := by
  induction fuel generalizing s with
  | zero => omega
  | succ fuel ih =>
    unfold blockComment
    split
    · rename_i hr
      refine ⟨[], [], .refl _, ?_, Diagnostics.grows_push _ _, (Bool.or_false _).symm⟩
      show EndsComment [] s.cursor.rest []
      rw [hr]
      exact .atEnd (by decide)
    · rename_i rest hr
      have reads := s.reads_skip 2
      rw [hr] at reads
      have first : ¬ ['*', '/'] <:+: [] ++ ['*'] := by decide
      exact ⟨_, [], reads, .closed first, .refl _, (Bool.or_false _).symm⟩
    · rename_i rest hr
      obtain ⟨reads, tail⟩ := @State.reads_skip_of_rest s ['\n'] rest hr
      rw [hr, List.length_cons] at enough
      obtain ⟨cs, body, more, ends, found, saw⟩ := ih { s.skip 1 with sawNewline := true } (by
        show (s.skip 1).cursor.rest.length < fuel
        rw [show (s.skip 1).cursor.rest = rest from tail]
        omega)
      refine ⟨_, '\n' :: body, reads.trans more, ends.cons ?_, found, ?_⟩
      · rintro ⟨_, eq⟩
        cases eq
      · rw [saw]
        simp
    · rename_i more notEnd notNewline
      obtain ⟨c, rest, hr⟩ := List.exists_cons_of_ne_nil more
      obtain ⟨reads, tail⟩ := @State.reads_skip_of_rest s [c] rest hr
      rw [hr, List.length_cons] at enough
      obtain ⟨cs, body, more, ends, found, saw⟩ := ih (s.skip 1) (by
        rw [show (s.skip 1).cursor.rest = rest from tail]
        omega)
      refine ⟨_, c :: body, reads.trans more, ends.cons ?_, found, ?_⟩
      · rintro ⟨behind, eq⟩
        have whole := (reads.trans more).rest
        exact notEnd behind (whole.trans eq.symm)
      · have other : ('\n' == c) = false := by
          rw [beq_eq_false_iff_ne]
          rintro rfl
          exact notNewline rest hr
        rw [saw, List.contains_cons, other, Bool.false_or]
        rfl

/-- Trivia ends in front of a character that is none of it. -/
structure Stops (rest : List Char) : Prop where
  code : opensComment rest = false
  visible : ∀ c more, rest = c :: more → ¬ isTrivial c

/-- Trivia is passed to its end. -/
theorem passes_skipTrivia (fuel : Nat) (pre : List Char) (s : State)
    (enough : s.cursor.rest.length < fuel) :
    ∃ cs breaks, Passes pre s cs breaks (skipTrivia fuel s) ∧
      Stops (skipTrivia fuel s).cursor.rest := by
  induction fuel generalizing pre s with
  | zero => omega
  | succ fuel ih =>
    -- a stretch that was passed, and the trivia behind it
    have further {cs : List Char} {breaks : Bool} {t : State} (h : Passes pre s cs breaks t)
        (pos : cs ≠ []) : ∃ cs breaks, Passes pre s cs breaks (skipTrivia fuel t) ∧
          Stops (skipTrivia fuel t).cursor.rest := by
      have length := h.reads.length
      have := List.length_pos_iff.mpr pos
      obtain ⟨more, b, passes, last⟩ := ih (pre ++ cs) t (by omega)
      exact ⟨_, _, h.trans passes, last⟩
    -- one character of white space
    have one {c : Char} {rest : List Char} {t : State} (hr : s.cursor.rest = c :: rest)
        (cursor : t.cursor = (s.skip 1).cursor) (found : t.found = s.found)
        (blank : isBlank c = true) (saw : t.sawNewline = (s.sawNewline || isLineBreak c)) :
        Passes pre s [c] (isLineBreak c || false) t := by
      obtain ⟨reads, tail⟩ := @State.reads_skip_of_rest s [c] rest hr
      exact ⟨cursor ▸ reads, found ▸ .refl _, by rw [saw, Bool.or_false], fun _ => .blank blank .nil⟩
    unfold skipTrivia
    split
    · rename_i rest hr
      refine further (one (t := { s.skip 1 with sawNewline := true }) hr rfl rfl (by decide) ?_)
        (by simp)
      simp [isLineBreak]
    · rename_i rest hr
      have reads := s.reads_skipWhile (· != '\n')
      rw [hr, List.takeWhile_cons_of_pos (by decide), List.takeWhile_cons_of_pos (by decide)] at reads
      -- the comment takes all but a line feed
      have behind : (s.skipWhile (· != '\n')).cursor.rest = rest.dropWhile (· != '\n') := by
        have split := List.takeWhile_append_dropWhile (p := (· != '\n')) (l := rest)
        have eq := reads.rest
        rw [hr, List.cons_append, List.cons_append] at eq
        exact List.append_cancel_left ((List.cons.inj (List.cons.inj eq).2).2.symm.trans split.symm)
      have ends (c : Char) (hc : c ∈ ([] ++ rest.dropWhile (· != '\n')).head?) : c = '\n' := by
        have head := List.head?_dropWhile_not (· != '\n') rest
        rw [List.nil_append] at hc
        rw [hc] at head
        simpa using head
      have comment := Gap.line (not_newline_of_mem_takeWhile (by decide) rest) ends
        (Gap.nil : Gap s.found.errors (pre ++ '/' :: '/' :: rest.takeWhile (· != '\n')) [] _ false)
      rw [List.append_nil] at comment
      have passes : Passes pre s _ false (s.skipWhile (· != '\n')) :=
        ⟨reads, .refl _, (Bool.or_false _).symm, fun _ => by rw [behind]; exact comment⟩
      exact further passes (by simp)
    · rename_i rest hr
      obtain ⟨opening, tail⟩ := @State.reads_skip_of_rest s ['/', '*'] rest hr
      have room : (s.skip 2).cursor.rest.length < rest.length + 1 := by
        rw [show (s.skip 2).cursor.rest = rest from tail]
        exact Nat.lt_succ_self _
      obtain ⟨cs, body, more, ends, found, saw⟩ := reads_blockComment s.cursor _ (s.skip 2) room
      have comment (errors : List Diagnostic) {behind : List Char} (ends : EndsComment cs behind body) :
          Gap errors pre ('/' :: '*' :: cs) behind (body.contains '\n') := by
        cases ends with
        | closed first => simpa using Gap.block first (Gap.nil : Gap errors _ [] behind false)
        | atEnd first => exact .openBlock first
      have passes : Passes pre s ('/' :: '*' :: cs) _ (blockComment s.cursor _ (s.skip 2)) :=
        ⟨opening.trans more, found, saw, fun _ => comment _ ends⟩
      exact further passes (by simp)
    · rename_i c rest newline notLine notBlock hr
      split
      · rename_i plain
        refine further (one (t := s.skip 1) hr rfl rfl ?_ ?_) (by simp)
        · rcases plain with rfl | rfl | rfl <;> decide
        · have : isLineBreak c = false := by rcases plain with rfl | rfl | rfl <;> decide
          rw [this, Bool.or_false]
          rfl
      · split
        · rename_i plain wide
          refine further (one hr ?_ ?_ wide.2 ?_) (by simp)
          · rfl
          · rfl
          have notFeed : (c == '\n') = false := by
            rw [beq_eq_false_iff_ne]
            exact newline
          rw [isLineBreak, notFeed, Bool.false_or, Bool.decide_or]
          rfl
        · rename_i plain wide
          refine ⟨[], false, .refl _ _, ?_, fun c' rest' h => ?_⟩
          · rw [hr]
            unfold opensComment
            split
            · rename_i eq
              exact (notLine _ (List.cons.inj eq).1 (List.cons.inj eq).2).elim
            · rename_i eq
              exact (notBlock _ (List.cons.inj eq).1 (List.cons.inj eq).2).elim
            · rfl
          · rw [hr] at h
            obtain ⟨rfl, rfl⟩ := List.cons.inj h
            rintro (eq | eq | eq | eq | beyond)
            · exact newline eq
            · exact plain (Or.inl eq)
            · exact plain (Or.inr (Or.inl eq))
            · exact plain (Or.inr (Or.inr eq))
            · exact wide beyond
    · rename_i hr
      exact ⟨[], false, .refl _ _, by rw [hr]; rfl, fun c rest h => by rw [hr] at h; cases h⟩

theorem passes_trivia (pre : List Char) (s : State) :
    ∃ cs breaks, Passes pre s cs breaks (trivia s) ∧ Stops (trivia s).cursor.rest :=
  passes_skipTrivia (s.cursor.rest.length + 1) pre s (Nat.lt_succ_self _)

end Lexer

end TsxPreview
