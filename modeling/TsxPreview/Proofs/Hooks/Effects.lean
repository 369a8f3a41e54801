import TsxPreview.Proofs.Hooks.Calls

/-!
What setters, dispatchers and queued effects do to the slots, and what happens to the slots when
instances leave.
-/

namespace TsxPreview

namespace Hook

open Script

variable {ev : Evaluator} {m : Machine}

/-! ## Setters and dispatchers -/

/-- A next state, computed by `x`, arrives at its place, unless it is the state that was there. -/
def Delivers (x : Script Value) (place : String × Nat) (current : Value)
    (content : Value → HookSlot) (m m' : Machine) : Prop :=
  ∃ next m₁, x m = .ok next m₁ ∧ m.realm.hooks.Updates m₁.realm.hooks
    ∧ (next.is current = true ∧ m'.realm.hooks = m₁.realm.hooks
      ∨ next.is current = false
        ∧ m₁.realm.hooks.Takes place (content next) m'.realm.hooks)

theorem Delivers.updates {x : Script Value} {key : String} {slot : Nat} {current : Value}
    {content : Value → HookSlot} {m' : Machine} {old : HookSlot}
    (h : Delivers x (key, slot) current content m m')
    (hc : m.realm.hooks.slot? key slot = some old)
    (hcont : ∀ c next, old.Updated c → c.Updated (content next)) :
    m.realm.hooks.Updates m'.realm.hooks := by
  obtain ⟨next, m₁, -, hu, ⟨-, heq⟩ | ⟨-, ht⟩⟩ := h
  · rw [heq]
    exact hu
  · obtain ⟨c, hc₁, hupd⟩ := hu.slot_some hc
    exact hu.trans (ht.updates hc₁ (hcont c next hupd))

/-- The next state that a setter is given, or a function of it. -/
def nextState (ev : Evaluator) (next current : Value) : Script Value :=
  if next.isCallable then ev.apply next [current] else pure next

theorem nextState_ends (hev : ev.Quiet) (next current : Value) :
    Ends (nextState ev next current) m (fun _ m' => m.realm.hooks.Updates m'.realm.hooks)
      (fun m' => m.realm.hooks.Updates m'.realm.hooks) := by
  unfold nextState
  split
  · exact hev next .undefined [current] m
  · exact .refl _

/-- Writes a next state that differs from the one that was there, if its slot is still there. -/
def writeState (place : String × Nat) (current next : Value) : Script Value := do
  if !next.is current then
    match ← slotAt place with
    | some (.state _ setter) => update place (.state next setter)
    | _ => pure ()
  return .undefined

/-- Once the next state is known, the slot is still a state slot with the same setter. -/
theorem writeState_ends {x : Script Value} {key : String} {slot : Nat}
    {current setter next : Value} {m₁ : Machine}
    (hc : m.realm.hooks.slot? key slot = some (.state current setter))
    (hx : x m = .ok next m₁) (hu : m.realm.hooks.Updates m₁.realm.hooks) :
    Ends (writeState (key, slot) current next) m₁
      (fun _ m' => Delivers x (key, slot) current (.state · setter) m m')
      (fun m' => m.realm.hooks.Updates m'.realm.hooks) := by
  unfold writeState
  cases hw : next.is current with
  | true => exact ⟨next, m₁, hx, hu, .inl ⟨hw, rfl⟩⟩
  | false =>
    obtain ⟨c, hc', hupd⟩ := hu.slot_some hc
    obtain ⟨v, rfl⟩ : ∃ v, c = .state v setter := by cases hupd <;> exact ⟨_, rfl⟩
    dsimp only
    rw [if_pos (Bool.not_false), ends_bind, ends_slotAt, hc']
    exact ⟨next, m₁, hx, hu, .inr ⟨hw, HookStore.takes_update _ hc'⟩⟩

theorem setState_ends (hev : ev.Quiet) {key : String} {slot : Nat} {current setter : Value}
    (hc : m.realm.hooks.slot? key slot = some (.state current setter)) (next : Value) :
    Ends (setState ev key slot next) m
      (fun _ m' => Delivers (nextState ev next current) (key, slot) current (.state · setter) m m')
      (fun m' => m.realm.hooks.Updates m'.realm.hooks) := by
  have hnext := (nextState_ends (m := m) hev next current).with_eq
  unfold setState
  rw [ends_bind, ends_slotAt, hc]
  dsimp only
  split
  · rename_i hcall
    rw [ends_bind, show ev.apply next [current] = nextState ev next current from (if_pos hcall).symm]
    exact hnext.mono (fun _ _ h => writeState_ends hc h.1 h.2) (fun _ h => h)
  · rename_i hcall
    exact writeState_ends hc (congrFun (if_neg hcall) m) (.refl _)

/-- A setter whose slot is gone does nothing. -/
theorem setState_gone {key : String} {slot : Nat} (next : Value)
    (hc : ∀ v setter, m.realm.hooks.slot? key slot ≠ some (.state v setter)) :
    Ends (setState ev key slot next) m (fun _ m' => m' = m) (fun _ => False) := by
  unfold setState
  rw [ends_bind, ends_slotAt]
  split
  · rename_i v setter hslot
    exact absurd hslot (hc v setter)
  · rfl

theorem setState_updates (hev : ev.Quiet) (key : String) (slot : Nat) (next : Value) :
    Ends (setState ev key slot next) m (fun _ m' => m.realm.hooks.Updates m'.realm.hooks)
      (fun m' => m.realm.hooks.Updates m'.realm.hooks) := by
  by_cases hc : ∃ v setter, m.realm.hooks.slot? key slot = some (.state v setter)
  · obtain ⟨v, setter, hc⟩ := hc
    refine (setState_ends hev hc next).mono (fun _ _ h => h.updates hc ?_) (fun _ h => h)
    intro c w hu
    cases hu <;> exact .state _ _ _
  · refine (setState_gone next (fun v setter h => hc ⟨v, setter, h⟩)).mono ?_ (fun _ h => h.elim)
    rintro _ _ rfl
    exact .refl _

/-- A dispatcher runs the reducer of its slot and writes the next state there, unless it is the
state that was there. -/
theorem dispatch_ends (hev : ev.Quiet) {key : String} {slot : Nat} {current reducer own : Value}
    (hc : m.realm.hooks.slot? key slot = some (.reducer current reducer own)) (action : Value) :
    Ends (dispatch ev key slot action) m
      (fun _ m' => Delivers (ev.apply reducer [current, action]) (key, slot) current
        (.reducer · reducer own) m m')
      (fun m' => m.realm.hooks.Updates m'.realm.hooks) := by
  unfold dispatch
  rw [ends_bind, ends_slotAt, hc]
  dsimp only
  rw [ends_bind]
  refine (Ends.with_eq (hev reducer .undefined [current, action] m)).mono ?_ (fun _ h => h)
  intro w m₁ h
  obtain ⟨hx, hu⟩ := h
  cases hw : w.is current with
  | true => exact ⟨w, m₁, hx, hu, .inl ⟨hw, rfl⟩⟩
  | false =>
    obtain ⟨c, hc', hupd⟩ := hu.slot_some hc
    obtain ⟨v, rfl⟩ : ∃ v, c = .reducer v reducer own := by cases hupd <;> exact ⟨_, rfl⟩
    rw [if_pos (Bool.not_false), ends_bind, ends_slotAt, hc']
    exact ⟨w, m₁, hx, hu, .inr ⟨hw, HookStore.takes_update _ hc'⟩⟩

theorem dispatch_gone {key : String} {slot : Nat} (action : Value)
    (hc : ∀ v reducer own, m.realm.hooks.slot? key slot ≠ some (.reducer v reducer own)) :
    Ends (dispatch ev key slot action) m (fun _ m' => m' = m) (fun _ => False) := by
  unfold dispatch
  rw [ends_bind, ends_slotAt]
  split
  · rename_i v reducer own hslot
    exact absurd hslot (hc v reducer own)
  · rfl

theorem dispatch_updates (hev : ev.Quiet) (key : String) (slot : Nat) (action : Value) :
    Ends (dispatch ev key slot action) m (fun _ m' => m.realm.hooks.Updates m'.realm.hooks)
      (fun m' => m.realm.hooks.Updates m'.realm.hooks) := by
  by_cases hc : ∃ v reducer own, m.realm.hooks.slot? key slot = some (.reducer v reducer own)
  · obtain ⟨v, reducer, own, hc⟩ := hc
    refine (dispatch_ends hev hc action).mono (fun _ _ h => h.updates hc ?_) (fun _ h => h)
    intro c w hu
    cases hu <;> exact .reducer _ _ _ _
  · refine (dispatch_gone action (fun v r own h => hc ⟨v, r, own, h⟩)).mono ?_ (fun _ h => h.elim)
    rintro _ _ rfl
    exact .refl _

/-! ## Effects and cleanups -/

theorem updates_note (s : HookStore) (n : HookNote) : s.Updates (s.note n) :=
  .of_slots rfl rfl rfl rfl

theorem ends_callAt {place : String × Nat} {fn : Value} {post : Value → Machine → Prop}
    {fail : Machine → Prop} :
    Ends (callAt ev place fn) m post fail ↔ Ends (ev.apply fn []) m post fun m' =>
      fail { m' with realm.hooks := m'.realm.hooks.note (.raised place) } := by
  unfold Ends callAt
  cases ev.apply fn [] m <;> rfl

/-- A function of a place may set state; that it raised an error is noted only. -/
theorem callAt_ends (hev : ev.Quiet) (place : String × Nat) (fn : Value) (m : Machine) :
    Ends (callAt ev place fn) m (fun _ m' => m.realm.hooks.Updates m'.realm.hooks)
      (fun m' => m.realm.hooks.Updates m'.realm.hooks) := by
  rw [ends_callAt]
  exact hev.ends_apply (fun _ _ h => h) fun m' h => h.trans (updates_note m'.realm.hooks _)

theorem cleanUp_ends (hev : ev.Quiet) (cause : CleanupCause) (place : String × Nat)
    (cleanup : Value) (m : Machine) :
    Ends (cleanUp ev cause place cleanup) m (fun _ m' => m.realm.hooks.Updates m'.realm.hooks)
      (fun m' => m.realm.hooks.Updates m'.realm.hooks) := by
  have hn := updates_note m.realm.hooks (.cleaned place cleanup cause)
  unfold cleanUp
  rw [ends_bind, ends_modifyHooks, ends_bind]
  exact (callAt_ends hev place cleanup _).mono (fun _ _ h => hn.trans h) (fun _ h => hn.trans h)

/-- An effect keeps its cleanup in the slot that it came from. -/
theorem runEffect_ends (hev : ev.Quiet) (place : String × Nat) (callback : Value) (m : Machine) :
    Ends (runEffect ev place callback) m (fun _ m' => m.realm.hooks.Updates m'.realm.hooks)
      (fun m' => m.realm.hooks.Updates m'.realm.hooks) := by
  unfold runEffect
  rw [ends_bind]
  refine (callAt_ends hev place callback m).mono ?_ (fun _ h => h)
  intro given m₁ hu
  rw [ends_bind, ends_modifyHooks, ends_bind, ends_slotAt]
  have hn := hu.trans (updates_note m₁.realm.hooks (.ran place given))
  split
  · rename_i deps old hc
    exact hn.trans (.store hc (.effect _ _ _))
  · exact hn

/-- Effects write the cleanups of effect slots. -/
theorem runEffects_ends (hev : ev.Quiet) (pending : List PendingEffect) (m : Machine) :
    Ends (runEffects ev pending) m (fun _ m' => m.realm.hooks.Updates m'.realm.hooks)
      (fun m' => m.realm.hooks.Updates m'.realm.hooks) := by
  induction pending generalizing m with
  | nil => exact .refl _
  | cons e rest ih =>
    have others : ∀ m₁, m.realm.hooks.Updates m₁.realm.hooks →
        Ends (runEffects ev rest) m₁ (fun _ m' => m.realm.hooks.Updates m'.realm.hooks)
          (fun m' => m.realm.hooks.Updates m'.realm.hooks) :=
      fun m₁ hu => (ih m₁).mono (fun _ _ h => hu.trans h) (fun _ h => hu.trans h)
    have runs : ∀ m₁, m.realm.hooks.Updates m₁.realm.hooks →
        Ends (do runEffect ev (e.key, e.slot) e.callback; runEffects ev rest) m₁
          (fun _ m' => m.realm.hooks.Updates m'.realm.hooks)
          (fun m' => m.realm.hooks.Updates m'.realm.hooks) := by
      intro m₁ hu
      rw [ends_bind]
      exact (runEffect_ends hev _ _ m₁).mono (fun _ _ h => others _ (hu.trans h))
        (fun _ h => hu.trans h)
    unfold runEffects
    rw [ends_bind, ends_slotAt]
    dsimp only
    split
    · rename_i deps previous hc
      rw [ends_bind, ends_store]
      -- the old cleanup is taken from the slot before it runs
      have hu : m.realm.hooks.Updates
          (m.realm.hooks.store e.key e.slot (.effect deps .undefined)) :=
        .store hc (.effect _ _ _)
      split
      · rw [ends_bind]
        exact (cleanUp_ends hev .again _ _ _).mono (fun _ _ h => runs _ (hu.trans h))
          (fun _ h => hu.trans h)
      · exact runs _ hu
    · exact others m (.refl _)

theorem runPending_ends (hev : ev.Quiet) (m : Machine) :
    Ends (runPending ev) m
      (fun _ m' => HookStore.Updates { m.realm.hooks with pending := [] } m'.realm.hooks)
      (fun m' => HookStore.Updates { m.realm.hooks with pending := [] } m'.realm.hooks) :=
  runEffects_ends hev _ _

theorem cleanUpAll_ends (hev : ev.Quiet) (list : List ((String × Nat) × Value)) (m : Machine) :
    Ends (cleanUpAll ev list) m (fun _ m' => m.realm.hooks.Updates m'.realm.hooks)
      (fun m' => m.realm.hooks.Updates m'.realm.hooks) := by
  induction list generalizing m with
  | nil => exact .refl _
  | cons entry rest ih =>
    unfold cleanUpAll
    rw [ends_bind]
    refine (cleanUp_ends hev .left _ _ m).mono ?_ (fun _ h => h)
    exact fun _ m₁ hu => (ih m₁).mono (fun _ _ h => hu.trans h) (fun _ h => hu.trans h)

theorem sweep_ends (hev : ev.Quiet) (m : Machine) :
    Ends (sweep ev) m (fun _ m' => m.realm.hooks.sweep.2.Updates m'.realm.hooks)
      (fun m' => m.realm.hooks.sweep.2.Updates m'.realm.hooks) :=
  cleanUpAll_ends hev _ _

theorem cleanUpEach_ends (hev : ev.Quiet) (list : List ((String × Nat) × Value)) (m : Machine) :
    Ends (cleanUpEach ev list) m (fun _ m' => m.realm.hooks.Updates m'.realm.hooks)
      (fun m' => m.realm.hooks.Updates m'.realm.hooks) := by
  induction list generalizing m with
  | nil => exact .refl _
  | cons entry rest ih =>
    have others : ∀ m₁, m.realm.hooks.Updates m₁.realm.hooks →
        Ends (cleanUpEach ev rest) m₁ (fun _ m' => m.realm.hooks.Updates m'.realm.hooks)
          (fun m' => m.realm.hooks.Updates m'.realm.hooks) :=
      fun m₁ hu => (ih m₁).mono (fun _ _ h => hu.trans h) (fun _ h => hu.trans h)
    unfold cleanUpEach
    rw [ends_bind]
    exact ends_attempt ((cleanUp_ends hev .unmounted _ _ m).mono (fun _ m₁ hu => others m₁ hu)
      (fun m₁ hu => ⟨fun _ => others m₁ hu, hu⟩))

theorem unmount_ends (hev : ev.Quiet) (m : Machine) :
    Ends (unmount ev) m (fun _ m' => m.realm.hooks.clear.2.Updates m'.realm.hooks)
      (fun m' => m.realm.hooks.clear.2.Updates m'.realm.hooks) := by
  unfold unmount
  rw [ends_bind, ends_onRealm]
  dsimp only
  rw [ends_bind, ends_modifyHooks, ends_bind]
  exact cleanUpEach_ends hev _ _

end Hook

end TsxPreview
