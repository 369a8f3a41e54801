import TsxPreview.Proofs.Lexer.Tiling

/-!
The lexer goes on. Each loop leaves less of the text for its next round, so that its fuel, more than
the characters that are left, is never what ends it; and a step takes a byte or ends the stream.
-/

namespace TsxPreview

/-- If less is left after every round of a loop, fuel for more rounds than what is left is as good
as any other. -/
theorem fuel_irrelevant {α β : Type} {f : Nat → α → β} (left : α → Nat)
    (round : ∀ n m a, (∀ b, left b < left a → f n b = f m b) → f (n + 1) a = f (m + 1) a)
    {n m : Nat} {a : α} (hn : left a < n) (hm : left a < m) : f n a = f m a := by
  induction n generalizing m a with
  | zero => cases hn
  | succ n ih =>
    cases m with
    | zero => cases hm
    | succ m => exact round n m a fun b less => ih (by omega) (by omega)

namespace Lexer

/-- How many characters are left. -/
abbrev State.left (s : State) : Nat := s.cursor.rest.length

theorem State.left_skip {s : State} {c : Char} {rest : List Char} (h : s.cursor.rest = c :: rest)
    (n : Nat) : (s.skip (n + 1)).left < s.left := by
  rw [left, left, skip, Cursor.rest_skip, h, List.length_drop, List.length_cons]
  omega

theorem left_escape {s : State} {c : Char} {rest : List Char} (h : s.cursor.rest = c :: rest) :
    (escape s).2.left < s.left :=
  Nat.lt_of_le_of_lt (readsOn_escape s).length_le (State.left_skip h 0)

/-! ## Fuel -/

/-- A loop does not end for want of fuel, given fuel for more rounds than characters are left: more
of it changes nothing. -/
def EndsByItself {α : Type} (f : Nat → State → α) : Prop :=
  ∀ n m s, s.left < n → s.left < m → f n s = f m s

theorem blockComment_ends (start : Cursor) : EndsByItself (blockComment start) := by
  refine fun _ _ _ => fuel_irrelevant State.left fun n m s next => ?_
  unfold blockComment
  split
  · rfl
  · rfl
  · rename_i hr
    exact next _ (State.left_skip hr 0)
  · rename_i more _ _
    obtain ⟨c, rest, hr⟩ := List.exists_cons_of_ne_nil more
    exact next _ (State.left_skip hr 0)

theorem skipTrivia_ends : EndsByItself skipTrivia := by
  refine fun _ _ _ => fuel_irrelevant State.left fun n m s next => ?_
  unfold skipTrivia
  split
  · rename_i hr
    exact next _ (State.left_skip hr 0)
  · rename_i hr
    have reads := (s.reads_skipWhile (· != '\n')).length
    refine next _ ?_
    simp only [State.left, hr] at reads ⊢
    simp at reads ⊢
    omega
  · rename_i rest hr
    have room : (s.skip 2).cursor.rest.length < rest.length + 1 := by
      rw [State.skip, Cursor.rest_skip, hr]
      exact Nat.lt_succ_self _
    obtain ⟨cs, body, reads, -⟩ := reads_blockComment s.cursor _ (s.skip 2) room
    exact next _ (Nat.lt_of_le_of_lt reads.length_le (State.left_skip hr 1))
  · rename_i hr
    have less := State.left_skip hr 0
    split
    · exact next _ less
    · split
      · exact next _ less
      · rfl
  · rfl

theorem quoted_ends (start : Cursor) (quote : Char) (read : List Char) :
    EndsByItself (fun n => quoted start quote n read) := by
  refine fun _ _ s => fuel_irrelevant (f := fun n (a : List Char × State) =>
    quoted start quote n a.1 a.2) (a := (read, s)) (fun a => a.2.left) fun n m (read, s) next => ?_
  dsimp only at next ⊢
  unfold quoted
  split
  · rfl
  · rename_i c rest hr
    split
    · rfl
    · split
      · rfl
      · split
        · have less := left_escape hr
          split <;> rename_i eq <;> rw [eq] at less
          · exact next (_, _) less
          · exact next (_, _) less
        · exact next (_, _) (State.left_skip hr 0)

theorem template_ends (start : Cursor) (head : Bool) (read : List Char) :
    EndsByItself (fun n => template start head n read) := by
  refine fun _ _ s => fuel_irrelevant (f := fun n (a : List Char × State) =>
    template start head n a.1 a.2) (a := (read, s)) (fun a => a.2.left) fun n m (read, s) next => ?_
  dsimp only at next ⊢
  unfold template
  split
  · rfl
  · rfl
  · rfl
  · rename_i hr
    have less := left_escape hr
    split <;> rename_i eq <;> rw [eq] at less
    · exact next (_, _) less
    · exact next (_, _) less
  · rename_i hr
    exact next (_, _) (State.left_skip hr 0)
  · rename_i hr
    exact next (_, _) (State.left_skip hr 0)

theorem next_ends (scan : Char → State → Option (TokenKind × State)) (place : String) :
    EndsByItself (next scan place) := by
  refine fun _ _ _ => fuel_irrelevant State.left fun n m s further => ?_
  obtain ⟨cs, breaks, passes, -⟩ := passes_trivia [] s
  unfold next
  dsimp only
  split
  · rfl
  · rename_i hr
    split
    · rfl
    · split
      · rfl
      · exact further _ (Nat.lt_of_lt_of_le (State.left_skip hr 0) passes.reads.length_le)

/-! ## Steps -/

/-- A step takes a byte or ends the stream. -/
theorem step_advances (s : State) : (step s).1.kind = .eof ∨
    s.cursor.offset < (step s).2.cursor.offset ∧ (step s).2.left < s.left := by
  have further {cs lexeme : List Char} {a : Cursor} {t : State} (skips : s.cursor.Reads cs a)
      (reads : a.Reads lexeme t.cursor) (nonempty : lexeme ≠ []) :
      s.cursor.offset < t.cursor.offset ∧ t.left < s.left := by
    have := (skips.trans reads).length
    have := List.length_pos_iff.mpr nonempty
    have := byteLength_pos nonempty
    rw [reads.offset, skips.offset, State.left, State.left]
    simp only [List.length_append] at *
    omega
  have spec := step_spec [] s
  generalize step s = r at spec
  cases spec with
  | next next =>
    cases next with
    | eof passes stop => exact .inl rfl
    | token passes keeps reads lexes => exact .inr (further passes.reads reads lexes.nonempty)
  | text reads keeps nonempty mark => exact .inr (further (.refl _) reads nonempty)

theorem run_ends : EndsByItself run := by
  refine fun _ _ _ => fuel_irrelevant State.left fun n m s next => ?_
  unfold run
  split
  · rfl
  · dsimp only [settle]
    split
    · rfl
    · rename_i more
      obtain eof | ⟨-, less⟩ := step_advances s
      · rw [eof] at more
        exact absurd rfl more
      · exact congrArg (fun r : List Token × State => (_ :: r.1, r.2)) (next _ less)

/-- Every loop of the lexer ends by itself. -/
structure LoopsEnd : Prop where
  blockComment (start : Cursor) : EndsByItself (blockComment start)
  skipTrivia : EndsByItself skipTrivia
  quoted (start : Cursor) (quote : Char) (read : List Char) :
    EndsByItself fun n => quoted start quote n read
  template (start : Cursor) (head : Bool) (read : List Char) :
    EndsByItself fun n => template start head n read
  next (scan : Char → State → Option (TokenKind × State)) (place : String) :
    EndsByItself (next scan place)
  run : EndsByItself run

theorem loopsEnd : LoopsEnd where
  blockComment := blockComment_ends
  skipTrivia := skipTrivia_ends
  quoted := quoted_ends
  template := template_ends
  next := next_ends
  run := run_ends

end Lexer

end TsxPreview
