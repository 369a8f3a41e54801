import TsxPreview.Script.Hooks

/-!
What the notes of a store of slots tell about cleanups. The notes are kept newest first; a cleanup
is owed from the run of an effect that gave it until it is called.
-/

namespace TsxPreview

namespace HookNote

/-- Whether a note says that a hook was called. -/
def IsCall (n : HookNote) : Prop := ∃ place hook, n = .called place hook

/-- Whether a note says that a cleanup was called for a cause. -/
def IsCleanup (cause : CleanupCause) (n : HookNote) : Prop :=
  ∃ place cleanup, n = .cleaned place cleanup cause

/-- Whether a note is about a run of the effect of a place, or about its cleanup. -/
def Concerns (place : String × Nat) : HookNote → Prop
  | .ran other _ | .cleaned other _ _ => other = place
  | _ => False

end HookNote

/-- Over a whole log, oldest first, every cleanup is called once, and at its time. -/
structure CleanedOnce (log : List HookNote) : Prop where
  /-- The cleanup that a run gives is called before anything else happens to the effect. -/
  called : ∀ before place given after, log = before ++ .ran place given :: after →
    given.isCallable = true → ∃ between cause rest,
      after = between ++ .cleaned place given cause :: rest ∧ ∀ n ∈ between, ¬ n.Concerns place
  /-- What is called as a cleanup was given by the run before, and not called since. -/
  given : ∀ before place cleanup cause after, log = before ++ .cleaned place cleanup cause :: after →
    ∃ earlier between, before = earlier ++ .ran place cleanup :: between ∧
      ∀ n ∈ between, ¬ n.Concerns place
  /-- Right before the next run of the effect. -/
  again : ∀ before place cleanup after, log = before ++ .cleaned place cleanup .again :: after →
    ∃ calls given rest, after = calls ++ .ran place given :: rest ∧ ∀ n ∈ calls, n.IsCall
  /-- When a pass that did not visit the instance has dropped it. -/
  left : ∀ before place cleanup after, log = before ++ .cleaned place cleanup .left :: after →
    ∃ earlier visited between, before = earlier ++ .swept visited :: between ∧
      place.1 ∉ visited ∧ ∀ n ∈ between, n.IsCall ∨ n.IsCleanup .left
  /-- When everything is unmounted. -/
  unmounted : ∀ before place cleanup after,
    log = before ++ .cleaned place cleanup .unmounted :: after →
    ∃ earlier between, before = earlier ++ .cleared :: between ∧
      ∀ n ∈ between, n.IsCall ∨ n.IsCleanup .unmounted

namespace HookNote

/-! ## Reading the notes -/

/-- The cleanup of a place that is still to be called. -/
def owed (place : String × Nat) : List HookNote → Option Value
  | [] => none
  | .ran other given :: rest =>
    if other = place then (if given.isCallable then some given else none) else owed place rest
  | .cleaned other _ _ :: rest => if other = place then none else owed place rest
  | _ :: rest => owed place rest

/-- What goes on after what was noted. -/
inductive Phase where
  | calm
  | sweeping (visited : List String)
  | clearing
  /-- The effect of a place is about to run again. -/
  | rerun (place : String × Nat)

def phase : List HookNote → Phase
  | .called _ _ :: rest => phase rest
  | .swept visited :: _ => .sweeping visited
  | .cleared :: _ => .clearing
  | .cleaned place _ .again :: _ => .rerun place
  | .cleaned _ _ .left :: rest | .cleaned _ _ .unmounted :: rest => phase rest
  | _ => .calm

/-- Whether no effect is about to run again. -/
def Settled (notes : List HookNote) : Prop := ∀ place, phase notes ≠ .rerun place

/-- Whether something may happen after what was noted. -/
def Follows (rest : List HookNote) : HookNote → Prop
  | .called _ _ => True
  | .ran place _ => owed place rest = none ∧ ∀ other, phase rest = .rerun other → other = place
  | .cleaned place cleanup .again => owed place rest = some cleanup ∧ Settled rest
  | .cleaned place cleanup .left =>
    owed place rest = some cleanup ∧ ∃ visited, phase rest = .sweeping visited ∧ place.1 ∉ visited
  | .cleaned place cleanup .unmounted => owed place rest = some cleanup ∧ phase rest = .clearing
  | .swept _ | .cleared => Settled rest
  | .raised _ => False

/-- Everything that was noted might happen when it did. -/
def Sound : List HookNote → Prop
  | [] => True
  | n :: rest => n.Follows rest ∧ Sound rest

variable {place : String × Nat} {c : Value} {pre notes : List HookNote}

theorem Sound.of_append (h : Sound (pre ++ notes)) : Sound notes := by
  induction pre with
  | nil => exact h
  | cons n pre ih => exact ih h.2

theorem Follows.owed_eq {cleanup : Value} {cause : CleanupCause}
    (h : (cleaned place cleanup cause).Follows notes) : owed place notes = some cleanup := by
  cases cause with
  | again | left | unmounted => exact h.1

/-! ## Owed cleanups -/

theorem owed_cons_of_not_concerns {n : HookNote} (h : ¬ n.Concerns place) :
    owed place (n :: notes) = owed place notes := by
  cases n with
  | ran other given => exact if_neg h
  | cleaned other cleanup cause => exact if_neg h
  | called | raised | swept | cleared => rfl

/-- A cleanup is owed to the last run of its effect. -/
theorem ran_of_owed (h : owed place notes = some c) :
    ∃ between earlier, notes = between ++ .ran place c :: earlier ∧
      ∀ n ∈ between, ¬ n.Concerns place := by
  induction notes with
  | nil => cases h
  | cons n notes ih =>
    by_cases hn : n.Concerns place
    · cases n with
      | ran other given =>
        obtain rfl : other = place := hn
        rw [owed, if_pos rfl] at h
        split at h
        · cases h
          exact ⟨[], notes, rfl, fun _ hm => by cases hm⟩
        · cases h
      | cleaned other cleanup cause =>
        obtain rfl : other = place := hn
        rw [owed, if_pos rfl] at h
        cases h
      | called | raised | swept | cleared => exact hn.elim
    · rw [owed_cons_of_not_concerns hn] at h
      obtain ⟨between, earlier, rfl, apart⟩ := ih h
      exact ⟨n :: between, earlier, rfl, List.forall_mem_cons.2 ⟨hn, apart⟩⟩

/-- The first thing that happens to an effect which owes a cleanup is that it is called. -/
theorem cleaned_of_owed (sound : Sound (pre ++ notes)) (h : owed place notes = some c) :
    (∀ n ∈ pre, ¬ n.Concerns place) ∧ owed place (pre ++ notes) = some c ∨
      ∃ later cause between, pre = later ++ .cleaned place c cause :: between ∧
        ∀ n ∈ between, ¬ n.Concerns place := by
  induction pre with
  | nil => exact .inl ⟨fun _ hn => (List.not_mem_nil hn).elim, h⟩
  | cons n pre ih =>
    obtain ⟨follows, sound⟩ : n.Follows (pre ++ notes) ∧ Sound (pre ++ notes) := sound
    obtain ⟨apart, still⟩ | ⟨later, cause, between, rfl, apart⟩ := ih sound
    · by_cases hn : n.Concerns place
      · cases n with
        | ran other given =>
          obtain rfl : other = place := hn
          rw [follows.1] at still
          cases still
        | cleaned other cleanup cause =>
          obtain rfl : other = place := hn
          rw [follows.owed_eq] at still
          cases still
          exact .inr ⟨[], cause, pre, rfl, apart⟩
        | called | raised | swept | cleared => exact hn.elim
      · exact .inl ⟨List.forall_mem_cons.2 ⟨hn, apart⟩,
          (owed_cons_of_not_concerns hn).trans still⟩
    · exact .inr ⟨n :: later, cause, between, rfl, apart⟩

/-! ## Phases -/

theorem swept_of_phase {visited : List String} (sound : Sound notes)
    (h : phase notes = .sweeping visited) :
    ∃ between earlier, notes = between ++ .swept visited :: earlier ∧
      ∀ n ∈ between, n.IsCall ∨ n.IsCleanup .left := by
  induction notes with
  | nil => cases h
  | cons n notes ih =>
    obtain ⟨follows, sound⟩ := sound
    have more (hn : n.IsCall ∨ n.IsCleanup .left) (h : phase notes = .sweeping visited) :
        ∃ between earlier, n :: notes = between ++ .swept visited :: earlier ∧
          ∀ n ∈ between, n.IsCall ∨ n.IsCleanup .left := by
      obtain ⟨between, earlier, rfl, only⟩ := ih sound h
      exact ⟨n :: between, earlier, rfl, List.forall_mem_cons.2 ⟨hn, only⟩⟩
    cases n with
    | called place hook => exact more (.inl ⟨place, hook, rfl⟩) h
    | swept other =>
      cases h
      exact ⟨[], notes, rfl, fun _ hn => (List.not_mem_nil hn).elim⟩
    | cleaned place cleanup cause =>
      cases cause with
      | left => exact more (.inr ⟨place, cleanup, rfl⟩) h
      | unmounted =>
        have clearing : phase notes = .clearing := follows.2
        rw [phase, clearing] at h
        cases h
      | again => cases h
    | ran | raised | cleared => cases h

theorem cleared_of_phase (sound : Sound notes) (h : phase notes = .clearing) :
    ∃ between earlier, notes = between ++ .cleared :: earlier ∧
      ∀ n ∈ between, n.IsCall ∨ n.IsCleanup .unmounted := by
  induction notes with
  | nil => cases h
  | cons n notes ih =>
    obtain ⟨follows, sound⟩ := sound
    have more (hn : n.IsCall ∨ n.IsCleanup .unmounted) (h : phase notes = .clearing) :
        ∃ between earlier, n :: notes = between ++ .cleared :: earlier ∧
          ∀ n ∈ between, n.IsCall ∨ n.IsCleanup .unmounted := by
      obtain ⟨between, earlier, rfl, only⟩ := ih sound h
      exact ⟨n :: between, earlier, rfl, List.forall_mem_cons.2 ⟨hn, only⟩⟩
    cases n with
    | called place hook => exact more (.inl ⟨place, hook, rfl⟩) h
    | cleared => exact ⟨[], notes, rfl, fun _ hn => (List.not_mem_nil hn).elim⟩
    | cleaned place cleanup cause =>
      cases cause with
      | unmounted => exact more (.inr ⟨place, cleanup, rfl⟩) h
      | left =>
        obtain ⟨-, visited, sweeping, -⟩ := follows
        rw [phase, sweeping] at h
        cases h
      | again => cases h
    | ran | raised | swept => cases h

/-- An effect that is about to run again runs before anything else happens than calls of hooks. -/
theorem ran_of_rerun (sound : Sound (pre ++ notes)) (h : phase notes = .rerun place) :
    (∀ n ∈ pre, n.IsCall) ∧ phase (pre ++ notes) = .rerun place ∨
      ∃ later given calls, pre = later ++ .ran place given :: calls ∧ ∀ n ∈ calls, n.IsCall := by
  induction pre with
  | nil => exact .inl ⟨fun _ hn => (List.not_mem_nil hn).elim, h⟩
  | cons n pre ih =>
    obtain ⟨follows, sound⟩ : n.Follows (pre ++ notes) ∧ Sound (pre ++ notes) := sound
    obtain ⟨only, still⟩ | ⟨later, given, calls, rfl, only⟩ := ih sound
    · cases n with
      | called other hook =>
        exact .inl ⟨List.forall_mem_cons.2 ⟨⟨other, hook, rfl⟩, only⟩, still⟩
      | ran other given =>
        obtain rfl := follows.2 _ still
        exact .inr ⟨[], given, pre, rfl, only⟩
      | cleaned other cleanup cause =>
        cases cause with
        | again => exact absurd still (follows.2 _)
        | left =>
          obtain ⟨-, visited, sweeping, -⟩ := follows
          rw [sweeping] at still
          cases still
        | unmounted =>
          have clearing : phase (pre ++ notes) = .clearing := follows.2
          rw [clearing] at still
          cases still
      | swept | cleared => exact absurd still (follows _)
      | raised => exact follows.elim
    · exact .inr ⟨n :: later, given, calls, rfl, only⟩

/-! ## The whole log -/

/-- Read backwards, a log splits where its notes do. -/
theorem notes_of_reverse {before after : List HookNote} {n : HookNote}
    (h : notes.reverse = before ++ n :: after) : notes = after.reverse ++ n :: before.reverse := by
  have := congrArg List.reverse h
  rwa [List.reverse_reverse, List.reverse_append, List.reverse_cons, List.append_assoc,
    List.singleton_append] at this

theorem forall_mem_reverse {p : HookNote → Prop} {l : List HookNote} (h : ∀ n ∈ l, p n) :
    ∀ n ∈ l.reverse, p n := fun n hn => h n (List.mem_reverse.1 hn)

/-- Notes that are sound and leave nothing owed tell that every cleanup was called once. -/
theorem Sound.cleanedOnce (sound : Sound notes) (settled : Settled notes)
    (paid : ∀ place, owed place notes = none) : CleanedOnce notes.reverse where
  called before place given after split callable := by
    have eq := notes_of_reverse split
    have owes : owed place (.ran place given :: before.reverse) = some given := by
      rw [owed, if_pos rfl, if_pos callable]
    obtain ⟨-, still⟩ | ⟨later, cause, between, eq', apart⟩ := cleaned_of_owed (eq ▸ sound) owes
    · rw [← eq, paid] at still
      cases still
    · refine ⟨between.reverse, cause, later.reverse, ?_, forall_mem_reverse apart⟩
      rw [← List.reverse_reverse after, eq']
      simp
  given before place cleanup cause after split := by
    have eq := notes_of_reverse split
    obtain ⟨follows, -⟩ := (eq ▸ sound).of_append
    obtain ⟨between, earlier, eq', apart⟩ := ran_of_owed follows.owed_eq
    refine ⟨earlier.reverse, between.reverse, ?_, forall_mem_reverse apart⟩
    rw [← List.reverse_reverse before, eq']
    simp
  again before place cleanup after split := by
    have eq := notes_of_reverse split
    have rerun : phase (.cleaned place cleanup .again :: before.reverse) = .rerun place := rfl
    obtain ⟨-, still⟩ | ⟨later, given, calls, eq', only⟩ := ran_of_rerun (eq ▸ sound) rerun
    · exact absurd (eq ▸ still) (settled place)
    · refine ⟨calls.reverse, given, later.reverse, ?_, forall_mem_reverse only⟩
      rw [← List.reverse_reverse after, eq']
      simp
  left before place cleanup after split := by
    have eq := notes_of_reverse split
    obtain ⟨⟨-, visited, sweeping, gone⟩, sound⟩ := (eq ▸ sound).of_append
    obtain ⟨between, earlier, eq', only⟩ := swept_of_phase sound sweeping
    refine ⟨earlier.reverse, visited, between.reverse, ?_, gone, forall_mem_reverse only⟩
    rw [← List.reverse_reverse before, eq']
    simp
  unmounted before place cleanup after split := by
    have eq := notes_of_reverse split
    obtain ⟨⟨-, clearing⟩, sound⟩ := (eq ▸ sound).of_append
    obtain ⟨between, earlier, eq', only⟩ := cleared_of_phase sound clearing
    refine ⟨earlier.reverse, between.reverse, ?_, forall_mem_reverse only⟩
    rw [← List.reverse_reverse before, eq']
    simp

end HookNote

end TsxPreview
