import TsxPreview.Proofs.Hooks.Effects
import TsxPreview.Proofs.Script.Relations

/-!
Every hook, and every setter and dispatcher, changes the store of slots in steps that scripts may
take, if what it calls does.
-/

namespace TsxPreview

namespace Script

variable {α β : Type} {R : Machine → Machine → Prop}

/-- A computation that starts at one machine leaves a machine that is related to it. -/
def WithinAt (R : Machine → Machine → Prop) (x : Script α) (m : Machine) : Prop :=
  Ends x m (fun _ => R m) (R m)

theorem Within.at {x : Script α} (h : Within R x) (m : Machine) : WithinAt R x m :=
  within_iff_ends.mp h m

namespace Steady

variable (h : Steady R) {m : Machine}

include h

theorem at_pure (a : α) : WithinAt R (pure a : Script α) m := h.refl m

theorem at_alloc (x : Alloc α) : WithinAt R (liftM x : Script α) m := h.heap m _

theorem at_bind {x : Script α} {f : α → Script β}
    (hx : Ends x m (fun a m₁ => R m m₁ ∧ WithinAt R (f a) m₁) (R m)) :
    WithinAt R (x >>= f) m := by
  unfold WithinAt
  rw [ends_bind]
  refine hx.mono ?_ (fun _ first => first)
  rintro a m₁ ⟨first, hf⟩
  exact hf.mono (fun _ _ => h.trans first) (fun _ => h.trans first)

/-- What comes first may be any evaluation. -/
theorem at_then {x : Script α} {f : α → Script β} (hx : Within R x)
    (hf : ∀ a m₁, R m m₁ → WithinAt R (f a) m₁) : WithinAt R (x >>= f) m :=
  h.at_bind ((hx.at m).mono (fun a m₁ first => ⟨first, hf a m₁ first⟩) (fun _ first => first))

theorem at_alloc_bind {x : Alloc α} {f : α → Script β}
    (hf : ∀ a m₁, m₁.realm = m.realm → WithinAt R (f a) m₁) :
    WithinAt R ((liftM x : Script α) >>= f) m := by
  refine h.at_bind ?_
  rw [ends_alloc]
  exact ⟨h.heap m _, hf _ _ rfl⟩

end Steady

end Script

namespace Hook

open Script

variable {ev : Evaluator} {R : Machine → Machine → Prop} {m : Machine} {place : String × Nat}
  {hook : Hook} {α : Type}

/-! ## Reading and writing a place -/

theorem at_slotAt_bind {f : Option HookSlot → Script α}
    (hf : WithinAt R (f (m.realm.hooks.slot? place.1 place.2)) m) :
    WithinAt R (slotAt place >>= f) m := by
  unfold WithinAt
  rw [ends_bind, ends_slotAt]
  exact hf

section

variable (h : Steady R)

include h

/-- Without an instance that is being rendered, nothing is claimed. -/
theorem within_claim_bind {f : String × Nat → Script α}
    (hf : ∀ place m, m.realm.hooks.Holds place hook → WithinAt R (f place) m) :
    Within R (claim hook >>= f) := by
  refine within_iff_ends.mpr fun m => ?_
  cases hfr : m.realm.hooks.frames with
  | nil =>
    unfold claim HookStore.claim
    simp only [ends_bind, ends_onRealm, hfr, ends_typeError]
    exact h.refl m
  | cons frame rest =>
    refine h.at_bind ?_
    rw [ends_claim hfr]
    exact ⟨h.hooks m (.claim hfr hook), hf _ _ ⟨List.mem_cons_self, rfl⟩⟩

theorem at_store_bind {content : HookSlot} {f : Unit → Script α}
    (hc : m.realm.hooks.Change (m.realm.hooks.store place.1 place.2 content))
    (hf : ∀ m₁, R m m₁ →
      m₁.realm.hooks = m.realm.hooks.store place.1 place.2 content → WithinAt R (f ()) m₁) :
    WithinAt R (store place content >>= f) m := by
  refine h.at_bind ?_
  rw [ends_store]
  have first := h.hooks m hc
  exact ⟨first, hf _ first rfl⟩

/-- A hook that runs no effects writes what it keeps at its place, and goes on from there. -/
theorem at_put_bind {content : HookSlot} {f : Unit → Script α}
    (held : m.realm.hooks.Holds place hook) (kind : hook.keeps content = true)
    (later : hook.isEffect = false) (hf : ∀ m₁, R m m₁ → WithinAt R (f ()) m₁) :
    WithinAt R (store place content >>= f) m :=
  at_store_bind h (.put held kind fun is => by rw [later] at is; cases is)
    fun m₁ first _ => hf m₁ first

/-- A state is written over another one, and an update is to be shown. -/
theorem at_reset {key : String} {slot : Nat} {old new : HookSlot}
    (found : m.realm.hooks.slot? key slot = some old) (updated : old.Updated new)
    (carried : new.cleanup? = old.cleanup?) :
    WithinAt R (do
      update (key, slot) new
      return Value.undefined) m :=
  h.hooks m (.set found updated carried)

/-- A hook makes a value, perhaps by a function that it was given, and stores it. -/
theorem at_made_bind {c : Prop} [Decidable c] {fn : Value} {args : List Value} {given : Value}
    {f : Value → Script α} (hev : ev.Within R) (held : m.realm.hooks.Holds place hook)
    (hf : ∀ value m₁, m₁.realm.hooks.Holds place hook → WithinAt R (f value) m₁) :
    WithinAt R (if c then ev.apply fn args >>= f else pure given >>= f) m := by
  split
  · exact h.at_then (hev.call _ _ _) fun value m₁ first => hf value m₁ (held.reaches (h.reaches first))
  · exact hf given m held

end

/-! ## The hooks -/

section

variable (h : Steady R) (hev : ev.Within R)

include h

theorem within_dependencies (v : Value) : Within R (dependencies v) := by
  refine within_iff_ends.mpr fun m => ?_
  exact ends_dependencies (fun _ => h.refl m) (h.refl m)

theorem within_useRefSlot (initial : Value) : Within R (useRefSlot initial) := by
  refine within_claim_bind h fun place m held => at_slotAt_bind ?_
  split
  · exact h.at_pure _
  · refine h.at_alloc_bind fun object m₁ eq => ?_
    exact at_put_bind h (eq ▸ held) rfl rfl fun _ _ => h.at_pure _

theorem within_useIdSlot : Within R useIdSlot := by
  refine within_claim_bind h fun place m held => at_slotAt_bind ?_
  split
  · exact h.at_pure _
  · refine h.at_bind ⟨h.refl m, h.at_bind ?_⟩
    rw [ends_modifyHooks]
    have kept : m.realm.hooks.Change { m.realm.hooks with nextId := m.realm.hooks.nextId + 1 } :=
      .keep ⟨rfl, rfl, rfl, rfl, rfl, rfl, rfl⟩
    refine ⟨h.hooks m kept, ?_⟩
    exact at_put_bind h (held.reaches (.single kept)) rfl rfl fun _ _ => h.at_pure _

theorem within_useContextValue (context : Value) : Within R (useContextValue context) := by
  refine within_claim_bind h fun place m _ => h.at_bind ⟨h.refl m, ?_⟩
  split
  · exact h.refl m
  · exact h.refl m

/-- The effect of a place is kept with its cleanup, and queued if its dependencies changed. -/
theorem within_useEffectSlot (callback deps : Value) (layout : Bool) :
    Within R (useEffectSlot callback deps layout) := by
  generalize hh : (if layout then useLayoutEffect else useEffect) = hook
  have later : hook.isEffect = true := by
    rw [← hh]
    cases layout <;> rfl
  have keeps (deps : Option (List Value)) (cleanup : Value) :
      hook.keeps (.effect deps cleanup) = true := by
    rw [← hh]
    cases layout <;> rfl
  unfold useEffectSlot
  rw [hh]
  refine within_claim_bind h fun place m held => h.at_then (within_dependencies h deps) ?_
  intro deps m₁ first
  replace held := held.reaches (h.reaches first)
  -- what comes last
  have queued (changed : Bool) {m₂ : Machine} (held : m₂.realm.hooks.Holds place hook) :
      WithinAt R (do
        if changed then
          Script.modifyHooks fun s =>
            { s with pending := s.pending ++ [⟨place.1, place.2, callback, layout⟩] }
        return Value.undefined) m₂ := by
    cases changed with
    | false => exact h.at_pure _
    | true => exact h.hooks m₂ (.queue held later)
  refine at_slotAt_bind ?_
  dsimp only
  split
  · rename_i old cleanup found
    have carried (deps : Option (List Value)) :
        (HookSlot.effect deps cleanup).cleanup? = m₁.realm.hooks.cleanupAt place := by
      unfold HookStore.cleanupAt
      rw [found]
      rfl
    split
    · have put : m₁.realm.hooks.Change _ := .put held (keeps deps cleanup) fun _ => carried deps
      exact at_store_bind h put fun m₂ _ eq => queued _ (eq ▸ held.reaches (.single put))
    · exact queued _ held
  · rename_i fresh
    -- no effect is there, so that no cleanup is lost
    have none_there : m₁.realm.hooks.cleanupAt place = none := by
      unfold HookStore.cleanupAt
      cases hc : m₁.realm.hooks.slot? place.1 place.2 with
      | none => rfl
      | some content =>
        cases content with
        | effect deps cleanup => exact absurd hc (fresh deps cleanup)
        | _ => rfl
    have put : m₁.realm.hooks.Change (m₁.realm.hooks.store place.1 place.2 (.effect none .undefined)) :=
      .put held (keeps _ _) fun _ => none_there.symm
    refine at_store_bind h put fun m₂ _ eq => at_slotAt_bind ?_
    replace held : m₂.realm.hooks.Holds place hook := eq ▸ held.reaches (.single put)
    split
    · rename_i old cleanup found
      have again : m₂.realm.hooks.Change _ := .put held (keeps deps cleanup) fun _ => by
        unfold HookStore.cleanupAt
        rw [found]
        rfl
      exact at_store_bind h again fun m₃ _ eq => queued true (eq ▸ held.reaches (.single again))
    · exact queued true held

include hev

theorem within_useStateSlot (initial : Value) : Within R (useStateSlot ev initial) := by
  refine within_claim_bind h fun place m held => at_slotAt_bind ?_
  split
  · exact h.at_alloc _
  · dsimp only
    refine at_made_bind h hev held fun value m₁ held => h.at_alloc_bind fun setter m₂ eq => ?_
    exact at_put_bind h (eq ▸ held) rfl rfl fun _ _ => h.at_alloc _

theorem within_useReducerSlot (reducer initial init : Value) :
    Within R (useReducerSlot ev reducer initial init) := by
  refine within_claim_bind h fun place m held => at_slotAt_bind ?_
  split
  · exact at_put_bind h held rfl rfl fun _ _ => h.at_alloc _
  · dsimp only
    refine at_made_bind h hev held fun state m₁ held => h.at_alloc_bind fun dispatch m₂ eq => ?_
    exact at_put_bind h (eq ▸ held) rfl rfl fun _ _ => h.at_alloc _

theorem within_useMemoSlot (factory deps : Value) (callback : Bool) :
    Within R (useMemoSlot ev factory deps callback) := by
  generalize hh : (if callback then useCallback else useMemo) = hook
  have keeps (deps : Option (List Value)) (value : Value) :
      hook.keeps (.memo deps value) = true := by
    rw [← hh]
    cases callback <;> rfl
  have later : hook.isEffect = false := by
    rw [← hh]
    cases callback <;> rfl
  unfold useMemoSlot
  rw [hh]
  refine within_claim_bind h fun place m held => h.at_then (within_dependencies h deps) ?_
  intro deps m₁ first
  replace held := held.reaches (h.reaches first)
  let keep (value : Value) : Script Value := do
    store place (.memo deps value)
    return value
  have stored (value : Value) (m₂ : Machine) (held : m₂.realm.hooks.Holds place hook) :
      WithinAt R (keep value) m₂ :=
    at_put_bind h held (keeps deps value) later fun _ _ => h.at_pure _
  have made : WithinAt R (if callback then pure factory >>= keep
      else ev.apply factory [] >>= keep) m₁ := by
    cases callback with
    | true => exact stored factory m₁ held
    | false =>
      exact h.at_then (hev.call _ _ _) fun value m₂ second =>
        stored value m₂ (held.reaches (h.reaches second))
  refine at_slotAt_bind ?_
  dsimp only
  split
  · rename_i old value _
    by_cases hd : depsChanged old deps = true
    · rw [if_pos hd]
      exact made
    · rw [if_neg hd]
      exact h.at_pure _
  · exact made

/-- A hook leaves what scripts may leave. -/
theorem within_run (hook : Hook) (args : List Value) : Within R (hook.run ev args) := by
  cases hook with
  | useState => exact within_useStateSlot h hev _
  | useReducer => exact within_useReducerSlot h hev _ _ _
  | useEffect => exact within_useEffectSlot h _ _ false
  | useLayoutEffect => exact within_useEffectSlot h _ _ true
  | useMemo => exact within_useMemoSlot h hev _ _ false
  | useCallback => exact within_useMemoSlot h hev _ _ true
  | useRef => exact within_useRefSlot h _
  | useId => exact within_useIdSlot h
  | useContext => exact within_useContextValue h _

/-! ## Setters and dispatchers -/

theorem within_setState (key : String) (slot : Nat) (next : Value) :
    Within R (setState ev key slot next) := by
  refine within_iff_ends.mpr fun m => at_slotAt_bind ?_
  split
  · rename_i current setter found
    -- what is written depends on what is there once the next state is known
    have written (next : Value) (m₁ : Machine) :
        WithinAt R (writeState (key, slot) current next) m₁ := by
      unfold writeState
      dsimp only
      split
      · refine at_slotAt_bind ?_
        split
        · rename_i v setter found
          exact at_reset h found (.state v next setter) rfl
        · exact h.at_pure _
      · exact h.at_pure _
    dsimp only
    split
    · exact h.at_then (hev.call _ _ _) fun next m₁ _ => written next m₁
    · exact written next m
  · exact h.at_pure _

theorem within_dispatch (key : String) (slot : Nat) (action : Value) :
    Within R (dispatch ev key slot action) := by
  refine within_iff_ends.mpr fun m => at_slotAt_bind ?_
  split
  · refine h.at_then (hev.call _ _ _) fun next m₁ _ => ?_
    dsimp only
    split
    · refine at_slotAt_bind ?_
      split
      · rename_i v reducer own found
        exact at_reset h found (.reducer v next reducer own) rfl
      · exact h.at_pure _
    · exact h.at_pure _
  · exact h.at_pure _

end

end Hook

end TsxPreview
