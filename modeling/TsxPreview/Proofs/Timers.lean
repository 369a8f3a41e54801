import Mathlib.Data.List.Nodup
import Mathlib.Logic.Relation
import TsxPreview.Builtin.Function
import TsxPreview.Proofs.Sorted

/-!
Timers and their history. Between rounds timers are scheduled and cancelled, by scripts or not, and
callbacks do no more. What is pending is what the history tells: a timer that was scheduled, was not
cancelled since then, and has not fired unless it repeats.
-/

namespace TsxPreview

/-- The number of the timer that fires. -/
def TimerEvent.fired? : TimerEvent → Option Nat
  | reached id true => some id
  | _ => none

namespace Timers

/-! ## Histories -/

/-- The numbers of the timers that fired, newest first. -/
def firings (events : List TimerEvent) : List Nat := events.filterMap TimerEvent.fired?

/-- The timer with a number, if it is pending after all that happened. -/
def pendingAfter : List TimerEvent → Nat → Option Timer
  | [], _ => none
  | .scheduled i timer :: older, id => if id = i then some timer else pendingAfter older id
  | .cancelled i :: older, id => if id = i then none else pendingAfter older id
  | .reached i _ :: older, id =>
    if id = i then (pendingAfter older id).filter Timer.repeats else pendingAfter older id

/-- A timer as scripts describe it. -/
def IsDescribed (timer : Timer) : Prop := ∃ h args repeats, timer = ofArguments h args repeats

/-- A history that there can be: numbers grow, and only what is pending has a turn. -/
inductive Told : List TimerEvent → Prop
  | nil : Told []
  | scheduled {id : Nat} {timer : Timer} {older : List TimerEvent} (h : Told older)
      (described : IsDescribed timer) (fresh : ∀ i timer', .scheduled i timer' ∈ older → i < id) :
      Told (.scheduled id timer :: older)
  | cancelled {id : Nat} {older : List TimerEvent} (h : Told older) : Told (.cancelled id :: older)
  | reached {id : Nat} {timer : Timer} {fires : Bool} {older : List TimerEvent} (h : Told older)
      (pending : pendingAfter older id = some timer) (called : fires = timer.callback.isCallable) :
      Told (.reached id fires :: older)

variable {t t' : Timers} {id i j : Nat} {timer : Timer} {older newer events : List TimerEvent}

theorem mem_firings : id ∈ firings events ↔ .reached id true ∈ events := by
  unfold firings
  rw [List.mem_filterMap]
  constructor
  · rintro ⟨e, mem, eq⟩
    unfold TimerEvent.fired? at eq
    split at eq
    · cases eq
      exact mem
    · cases eq
  · exact fun mem => ⟨_, mem, rfl⟩

theorem firings_append (newer older : List TimerEvent) :
    firings (newer ++ older) = firings newer ++ firings older :=
  List.filterMap_append

theorem scheduled_of_pendingAfter (h : pendingAfter events id = some timer) :
    .scheduled id timer ∈ events := by
  induction events with
  | nil => cases h
  | cons e older ih =>
    cases e with
    | scheduled i timer' =>
      unfold pendingAfter at h
      split_ifs at h with same
      · cases h
        rw [same]
        exact List.mem_cons_self
      · exact List.mem_cons_of_mem _ (ih h)
    | cancelled i =>
      unfold pendingAfter at h
      split_ifs at h
      exact List.mem_cons_of_mem _ (ih h)
    | reached i fires =>
      unfold pendingAfter at h
      split_ifs at h
      · exact List.mem_cons_of_mem _ (ih (Option.filter_eq_some_iff.1 h).1)
      · exact List.mem_cons_of_mem _ (ih h)

/-- What is pending remains so until it is cancelled or has its turn. -/
theorem pendingAfter_append_ne_none (pending : pendingAfter older id ≠ none)
    (kept : .cancelled id ∉ newer) (waits : ∀ fires, .reached id fires ∉ newer) :
    pendingAfter (newer ++ older) id ≠ none := by
  induction newer with
  | nil => exact pending
  | cons e newer ih =>
    have before := ih (fun mem => kept (List.mem_cons_of_mem _ mem))
      fun fires mem => waits fires (List.mem_cons_of_mem _ mem)
    rw [List.cons_append]
    cases e with
    | scheduled i timer =>
      unfold pendingAfter
      split_ifs
      · exact Option.some_ne_none _
      · exact before
    | cancelled i =>
      have other : id ≠ i := by
        rintro rfl
        exact kept List.mem_cons_self
      rwa [pendingAfter, if_neg other]
    | reached i fires =>
      have other : id ≠ i := by
        rintro rfl
        exact waits fires List.mem_cons_self
      rwa [pendingAfter, if_neg other]

/-- A timer that does not repeat is consumed when its turn comes. -/
theorem pendingAfter_reached {fires : Bool} (pending : pendingAfter older id = some timer)
    (once : timer.repeats = false) : pendingAfter (.reached id fires :: older) id = none := by
  rw [pendingAfter, if_pos rfl, pending, Option.filter_some, once]
  rfl

namespace Told

theorem of_append (h : Told (newer ++ older)) : Told older := by
  induction newer with
  | nil => exact h
  | cons e newer ih =>
    cases h with
    | scheduled h | cancelled h | reached h => exact ih h

theorem described (h : Told events) (mem : .scheduled id timer ∈ events) : IsDescribed timer := by
  induction h with
  | nil => cases mem
  | scheduled _ described _ ih =>
    rcases List.mem_cons.1 mem with eq | mem
    · cases eq
      exact described
    · exact ih mem
  | cancelled _ ih | reached _ _ _ ih => exact ih ((List.mem_cons.1 mem).resolve_left nofun)

/-- A number is given to one timer only. -/
theorem unique {other : Timer} (h : Told events) (mem : .scheduled id timer ∈ events)
    (mem' : .scheduled id other ∈ events) : timer = other := by
  induction h with
  | nil => cases mem
  | scheduled _ _ fresh ih =>
    rcases List.mem_cons.1 mem with new | old <;> rcases List.mem_cons.1 mem' with new' | old'
    · cases new
      cases new'
      rfl
    · cases new
      exact absurd (fresh _ _ old') (Nat.lt_irrefl _)
    · cases new'
      exact absurd (fresh _ _ old) (Nat.lt_irrefl _)
    · exact ih old old'
  | cancelled _ ih | reached _ _ _ ih =>
    exact ih ((List.mem_cons.1 mem).resolve_left nofun) ((List.mem_cons.1 mem').resolve_left nofun)

/-- What is not pending, though it was scheduled, never is again. -/
theorem pendingAfter_append_eq_none (h : Told (newer ++ older))
    (mem : .scheduled id timer ∈ older) (gone : pendingAfter older id = none) :
    pendingAfter (newer ++ older) id = none := by
  induction newer with
  | nil => exact gone
  | cons e newer ih =>
    rw [List.cons_append] at h ⊢
    cases h with
    | scheduled h _ fresh =>
      rw [pendingAfter, if_neg (Nat.ne_of_lt (fresh id timer (List.mem_append_right _ mem)))]
      exact ih h
    | cancelled h =>
      rw [pendingAfter]
      split_ifs
      · rfl
      · exact ih h
    | reached h =>
      rw [pendingAfter, ih h]
      split_ifs <;> rfl

/-- What is not pending, though it was scheduled, does not fire any more. -/
theorem not_mem_firings (h : Told (newer ++ older)) (mem : .scheduled id timer ∈ older)
    (gone : pendingAfter older id = none) : id ∉ firings newer := by
  rw [mem_firings]
  intro fired
  obtain ⟨later, earlier, eq⟩ := List.append_of_mem fired
  rw [eq, List.append_assoc, List.cons_append] at h
  cases h.of_append with
  | reached before pending =>
    rw [before.pendingAfter_append_eq_none mem gone] at pending
    cases pending

/-- A timer that was cancelled does not fire any more. -/
theorem not_mem_firings_of_cancelled (h : Told (newer ++ .cancelled id :: older))
    (mem : .scheduled id timer ∈ older) : id ∉ firings newer := by
  refine h.not_mem_firings (List.mem_cons_of_mem _ mem) ?_
  rw [pendingAfter, if_pos rfl]

/-- What has its turn was pending. -/
theorem turn {fires : Bool} (h : Told (newer ++ .reached id fires :: older))
    (mem : .scheduled id timer ∈ newer ++ .reached id fires :: older) :
    pendingAfter older id = some timer := by
  cases h.of_append with
  | reached _ pending =>
    have before := List.mem_cons_of_mem (.reached id fires) (scheduled_of_pendingAfter pending)
    rw [pending, h.unique mem (List.mem_append_right newer before)]

/-- A timer that does not repeat is not pending once it has fired. -/
theorem consumed (h : Told events) (mem : .scheduled id timer ∈ events)
    (once : timer.repeats = false) (fired : id ∈ firings events) :
    pendingAfter events id = none := by
  obtain ⟨newer, older, rfl⟩ := List.append_of_mem (mem_firings.1 fired)
  have pending := h.turn mem
  exact h.pendingAfter_append_eq_none
    (List.mem_cons_of_mem _ (scheduled_of_pendingAfter pending)) (pendingAfter_reached pending once)

/-- A timer that does not repeat fires once only. -/
theorem count_firings_le (h : Told events) (mem : .scheduled id timer ∈ events)
    (once : timer.repeats = false) : (firings events).count id ≤ 1 := by
  by_cases fired : id ∈ firings events
  · obtain ⟨newer, older, rfl⟩ := List.append_of_mem (mem_firings.1 fired)
    have pending := h.turn mem
    have mem' := scheduled_of_pendingAfter pending
    have before : id ∉ firings older := fun again => by
      cases h.of_append with
      | reached h' =>
        rw [h'.consumed mem' once again] at pending
        cases pending
    have after : id ∉ firings newer :=
      h.not_mem_firings (List.mem_cons_of_mem _ mem') (pendingAfter_reached pending once)
    have split : firings (newer ++ .reached id true :: older) =
        firings newer ++ id :: firings older := firings_append newer _
    have none := List.count_eq_zero_of_not_mem before
    have none' := List.count_eq_zero_of_not_mem after
    rw [split, List.count_append, List.count_cons_self]
    omega
  · rw [List.count_eq_zero_of_not_mem fired]
    exact Nat.zero_le 1

/-- A number that was given is not given again. -/
theorem not_mem_scheduled {other : Timer} (h : Told (newer ++ older))
    (mem : .scheduled id timer ∈ newer) : .scheduled id other ∉ older := by
  obtain ⟨later, earlier, rfl⟩ := List.append_of_mem mem
  rw [List.append_assoc] at h
  cases h.of_append with
  | scheduled _ _ fresh =>
    exact fun mem' => Nat.lt_irrefl _ (fresh _ _ (List.mem_append_right earlier mem'))

end Told

/-! ## What is pending -/

/-- A single change of timers that is no turn. -/
inductive Move (t : Timers) : Timers → Prop
  | schedule {timer : Timer} (h : IsDescribed timer) : Move t (t.schedule timer).2
  | cancel (id : Nat) : Move t (t.cancel id)

/-- What becomes of timers outside their turns. -/
abbrev Moves : Timers → Timers → Prop := Relation.ReflTransGen Move

theorem moves_schedule (described : IsDescribed timer) : t.Moves (t.schedule timer).2 :=
  .single (.schedule described)

@[grind ←] theorem moves_cancel (t : Timers) (id : Nat) : t.Moves (t.cancel id) :=
  .single (.cancel id)

/-- All timers are dropped by cancelling each. -/
theorem moves_clear (t : Timers) : t.Moves t.clear := by
  unfold clear
  generalize t.pending = list
  induction list generalizing t with
  | nil => exact .refl
  | cons e rest ih => exact .head (.cancel e.1) (ih _)

theorem Moves.history (h : t.Moves t') : ∃ events, t'.history = events ++ t.history ∧
    ∀ id fires, .reached id fires ∉ events := by
  induction h with
  | refl => exact ⟨[], rfl, fun _ _ => List.not_mem_nil⟩
  | tail _ move ih =>
    obtain ⟨events, eq, quiet⟩ := ih
    cases move with
    | schedule => exact ⟨_ :: events, congrArg _ eq, by simpa using quiet⟩
    | cancel => exact ⟨_ :: events, congrArg _ eq, by simpa using quiet⟩

/-- What is pending is what the history tells. -/
structure Sound (t : Timers) : Prop where
  told : Told t.history
  numbered : ∀ id timer, .scheduled id timer ∈ t.history → id ≤ t.last
  nodup : (t.pending.map Prod.fst).Nodup
  known : ∀ id, t.get? id = pendingAfter t.history id

theorem sound_empty : Sound {} :=
  ⟨.nil, fun _ _ mem => absurd mem List.not_mem_nil, List.nodup_nil, fun _ => rfl⟩

namespace Sound

theorem scheduled (h : t.Sound) (pending : t.get? id = some timer) :
    .scheduled id timer ∈ t.history :=
  scheduled_of_pendingAfter ((h.known id).symm.trans pending)

theorem schedule (h : t.Sound) (described : IsDescribed timer) : (t.schedule timer).2.Sound := by
  have fresh (i : Nat) (timer' : Timer) (mem : .scheduled i timer' ∈ t.history) : i < t.last + 1 :=
    Nat.lt_succ_of_le (h.numbered i timer' mem)
  have unknown : t.get? (t.last + 1) = none := by
    refine Option.eq_none_iff_forall_ne_some.2 fun timer' pending => ?_
    exact Nat.lt_irrefl _ (fresh _ _ (h.scheduled pending))
  have new : t.last + 1 ∉ t.pending.map Prod.fst := by
    intro mem
    obtain ⟨timer', pending⟩ := lookup_of_mem_keys mem
    exact absurd (unknown.symm.trans pending) nofun
  refine ⟨.scheduled h.told described fresh, fun i timer' mem => ?_, ?_, fun i => ?_⟩
  · rcases List.mem_cons.1 mem with eq | mem
    · cases eq
      exact Nat.le_refl _
    · exact Nat.le_of_lt (fresh i timer' mem)
  · show ((t.pending ++ [(t.last + 1, timer)]).map Prod.fst).Nodup
    rw [List.map_append]
    exact h.nodup.append (List.nodup_singleton _) (List.disjoint_singleton.2 new)
  · show (t.pending ++ [(t.last + 1, timer)]).lookup i =
      if i = t.last + 1 then some timer else pendingAfter t.history i
    rw [List.lookup_append, ← h.known]
    split_ifs with same
    · rw [same, show t.pending.lookup (t.last + 1) = none from unknown]
      simp
    · have other : List.lookup i [(t.last + 1, timer)] = none := by simp [same]
      rw [other, Option.or_none]
      rfl

/-- What is removed as the history tells. -/
theorem remove (h : t.Sound) {e : TimerEvent} (told : Told (e :: t.history))
    (move : ∀ i timer, e ≠ .scheduled i timer) (id : Nat)
    (known : ∀ i, pendingAfter (e :: t.history) i = if i = id then none else t.get? i) :
    Sound { t.remove id with history := e :: t.history } := by
  refine ⟨told, fun i timer mem => ?_, ?_, fun i => ?_⟩
  · exact h.numbered i timer ((List.mem_cons.1 mem).resolve_left (move i timer).symm)
  · exact h.nodup.sublist (List.filter_sublist.map Prod.fst)
  · rw [known]
    exact lookup_filter_ne t.pending id i

theorem cancel (h : t.Sound) (id : Nat) : (t.cancel id).Sound :=
  h.remove (.cancelled h.told) nofun id fun i => by rw [pendingAfter, h.known]

theorem reach (h : t.Sound) (pending : t.get? id = some timer) : (t.reach id timer).Sound := by
  have told : Told (.reached id timer.callback.isCallable :: t.history) :=
    .reached h.told ((h.known id).symm.trans pending) rfl
  unfold Timers.reach
  cases repeats : timer.repeats with
  | true =>
    refine ⟨told, fun i timer mem => ?_, h.nodup, fun i => ?_⟩
    · exact h.numbered i timer ((List.mem_cons.1 mem).resolve_left nofun)
    · show t.get? i = pendingAfter (.reached id _ :: t.history) i
      rw [pendingAfter, ← h.known]
      split_ifs with same
      · rw [same, pending, Option.filter_some, if_pos repeats]
      · rfl
  | false =>
    refine h.remove told nofun id fun i => ?_
    split_ifs with same
    · rw [same, pendingAfter_reached ((h.known id).symm.trans pending) repeats]
    · rw [pendingAfter, if_neg same, h.known]

theorem moves (h : t.Sound) (moves : t.Moves t') : t'.Sound := by
  induction moves with
  | refl => exact h
  | tail _ move ih =>
    cases move with
    | schedule described => exact ih.schedule described
    | cancel id => exact ih.cancel id

end Sound

end Timers

end TsxPreview
