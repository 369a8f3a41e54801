import TsxPreview.Proofs.Hooks.Changes
import TsxPreview.Script.Run

/-!
Relations between the machines before and after a computation. A relation that holds of every step
and goes on from one step to the next holds of all evaluation, however deep, once it holds of
`require`.
-/

namespace TsxPreview

namespace Script

variable {α β : Type} {R : Machine → Machine → Prop} {x : Script α}

/-! ## Outcomes -/

theorem outcome_bind (x : Script α) (f : α → Script β) (m : Machine) :
    (x >>= f).outcome m =
      match x.outcome m with
      | (.ok a, m') => (f a).outcome m'
      | (.error e, m') => (.error e, m') := by
  show outcome (EStateM.bind x f) m = _
  unfold outcome EStateM.bind
  cases x m <;> rfl

/-- An error is kept as the outcome, unless it ends the run. -/
theorem outcome_attempt (x : Script α) (m : Machine) :
    (attempt x).outcome m =
      match x.outcome m with
      | (.ok a, m') => (.ok (.ok a), m')
      | (.error e, m') => if e.endsRun then (.error e, m') else (.ok (.error e), m') := by
  unfold outcome attempt
  cases x m with
  | ok a m' => rfl
  | error e m' =>
    dsimp only
    cases e.endsRun <;> rfl

theorem outcome_located (span : Span) (x : Script α) (m : Machine) :
    (located span x).outcome m =
      match x.outcome m with
      | (.ok a, m') => (.ok a, m')
      | (.error e, m') => (.error e, if e.endsRun then m' else noteFault span m') := by
  unfold outcome located
  cases x m <;> rfl

theorem outcome_finallyModify (f : Machine → Machine) (x : Script α) (m : Machine) :
    (finallyModify f x).outcome m =
      match x.outcome m with
      | (.ok a, m') => (.ok a, f m')
      | (.error e, m') => (.error e, if e.endsRun then m' else f m') := by
  unfold outcome finallyModify
  cases x m <;> rfl

/-! ## Relations -/

/-- A relation of machines that single steps keep. It says at least what becomes of the hooks. -/
structure Steady (R : Machine → Machine → Prop) : Prop where
  refl : ∀ m, R m m
  trans : ∀ {a b c}, R a b → R b c → R a c
  heap : ∀ m heap, R m { m with heap }
  realm : ∀ m realm, m.realm.hooks.Change realm.hooks → m.realm.timers.Moves realm.timers →
    R m { m with realm }
  reaches : ∀ {a b}, R a b → a.realm.hooks.Reaches b.realm.hooks

/-- The relation that says nothing more. -/
theorem steady_reaches : Steady fun m m' => m.realm.hooks.Reaches m'.realm.hooks where
  refl _ := .refl
  trans := .trans
  heap _ _ := .refl
  realm _ _ h _ := .single h
  reaches h := h

/-- However a computation ends, it leaves a machine that is related to the one before. -/
def Within (R : Machine → Machine → Prop) (x : Script α) : Prop := ∀ m, R m (x.outcome m).2

theorem within_iff_ends : Within R x ↔ ∀ m, Ends x m (fun _ => R m) (R m) := by
  refine forall_congr' fun m => ?_
  unfold outcome Ends
  cases x m <;> rfl

theorem Within.bind {f : α → Script β} (hx : Within R x) (trans : ∀ {a b c}, R a b → R b c → R a c)
    (hf : ∀ a, Within R (f a)) : Within R (x >>= f) := by
  intro m
  have first := hx m
  rw [outcome_bind]
  generalize x.outcome m = r at first
  obtain ⟨_ | a, m'⟩ := r
  · exact first
  · exact trans first (hf a m')

theorem Within.attempt (hx : Within R x) : Within R (attempt x) := by
  intro m
  have first := hx m
  rw [outcome_attempt]
  generalize x.outcome m = r at first
  obtain ⟨e | a, m'⟩ := r
  · dsimp only
    split <;> exact first
  · exact first

namespace Steady

variable (h : Steady R)

include h

theorem within_pure (a : α) : Within R (pure a : Script α) := h.refl

theorem within_throw (e : ScriptError) : Within R (throw e : Script α) := h.refl

theorem hooks (m : Machine) {hooks : HookStore} (change : m.realm.hooks.Change hooks) :
    R m { m with realm := { m.realm with hooks } } :=
  h.realm m _ change .refl

/-- What changes nothing of the hooks and the timers. -/
theorem realm_of_eq (m : Machine) {realm : Realm} (hooks : realm.hooks = m.realm.hooks)
    (timers : realm.timers = m.realm.timers) : R m { m with realm } :=
  h.realm m realm (hooks ▸ .keep (.refl _)) (timers ▸ .refl)

theorem within_modifyRealm {f : Realm → Realm} (hooks : ∀ r, (f r).hooks = r.hooks)
    (timers : ∀ r, (f r).timers = r.timers) : Within R (modifyRealm f) :=
  fun m => h.realm_of_eq m (hooks m.realm) (timers m.realm)

theorem within_bind {f : α → Script β} (hx : Within R x) (hf : ∀ a, Within R (f a)) :
    Within R (x >>= f) :=
  hx.bind h.trans hf

/-- A check comes first, which may end the computation. -/
theorem within_checked {c : Prop} [Decidable c] {stop : Script PUnit} {x : PUnit → Script β}
    (hs : Within R stop) (hx : Within R (x ⟨⟩)) : Within R (if c then stop >>= x else x ⟨⟩) := by
  split
  · exact h.within_bind hs fun _ => hx
  · exact hx

theorem within_located (span : Span) (hx : Within R x) : Within R (located span x) := by
  intro m
  have first := hx m
  rw [outcome_located]
  generalize x.outcome m = r at first
  obtain ⟨e | a, m'⟩ := r
  · dsimp only
    split
    · exact first
    · refine h.trans first ?_
      unfold noteFault
      split
      · exact h.refl m'
      · exact h.realm_of_eq m' rfl rfl
  · exact first

theorem within_finallyModify {f : Machine → Machine} (hf : ∀ m, R m (f m)) (hx : Within R x) :
    Within R (finallyModify f x) := by
  intro m
  have first := hx m
  rw [outcome_finallyModify]
  generalize x.outcome m = r at first
  obtain ⟨e | a, m'⟩ := r
  · dsimp only
    split
    · exact first
    · exact h.trans first (hf m')
  · exact h.trans first (hf m')

theorem within_inModule (path : Option String) (hx : Within R x) : Within R (inModule path x) :=
  h.within_bind h.refl fun _ => h.within_bind (h.within_modifyRealm (fun _ => rfl) fun _ => rfl) fun _ =>
    h.within_finallyModify (fun m => h.realm_of_eq m rfl rfl) hx

theorem within_deeper (hx : Within R x) : Within R (Evaluator.deeper x) :=
  h.within_bind (h.within_modifyRealm (fun _ => rfl) fun _ => rfl) fun _ =>
    h.within_finallyModify (fun m => h.realm_of_eq m rfl rfl) hx

theorem within_tick : Within R tick := by
  intro m
  have counted : ∃ r, tick.outcome m =
      (r, { m with realm := { m.realm with steps := m.realm.steps + 1 } }) := by
    unfold outcome tick
    dsimp only
    cases m.realm.config.stepLimit with
    | none => exact ⟨_, rfl⟩
    | some limit =>
      dsimp only
      by_cases beyond : limit < m.realm.steps + 1
      · rw [if_pos beyond]
        exact ⟨_, rfl⟩
      · rw [if_neg beyond]
        exact ⟨_, rfl⟩
  obtain ⟨r, eq⟩ := counted
  rw [eq]
  exact h.realm_of_eq m rfl rfl

end Steady

end Script

open Script

/-- Evaluation one level down leaves machines that are related to those before. -/
structure Evaluator.Within (ev : Evaluator) (R : Machine → Machine → Prop) : Prop where
  eval : ∀ e scope, Script.Within R (ev.eval e scope)
  exec : ∀ s scope, Script.Within R (ev.exec s scope)
  call : ∀ fn this args, Script.Within R (ev.call fn this args)

end TsxPreview
