import TsxPreview.Package.Hook
import TsxPreview.Proofs.Hooks.Updates
import TsxPreview.Proofs.Script.Running

/-!
What each hook does to the store of slots. A call claims a place, and all hooks but `useContext`
leave there a slot of their own kind: the slot that they found, or one that is tied to the place.
Functions that a hook is given may set state while it runs; they are taken to call no hooks.
-/

namespace TsxPreview

/-- Every call of a function that ends leaves updates only. -/
def Evaluator.Quiet (ev : Evaluator) : Prop :=
  ∀ fn this args (m : Machine), Script.Ends (ev.call fn this args) m
    (fun _ m' => m.realm.hooks.Updates m'.realm.hooks)
    (fun m' => m.realm.hooks.Updates m'.realm.hooks)

theorem Evaluator.Quiet.ends_apply {ev : Evaluator} (hev : ev.Quiet) {fn : Value}
    {args : List Value} {m : Machine} {post : Value → Machine → Prop} {fail : Machine → Prop}
    (hp : ∀ v m', m.realm.hooks.Updates m'.realm.hooks → post v m')
    (hf : ∀ m', m.realm.hooks.Updates m'.realm.hooks → fail m') :
    Script.Ends (ev.apply fn args) m post fail :=
  (hev fn .undefined args m).mono hp hf

/-- The store in which an instance has claimed its next slot for a hook. -/
def HookStore.claimed (s : HookStore) (hook : Hook) (f : Frame) (rest : List Frame) : HookStore :=
  { s with frames := { f with claimed := f.claimed + 1 } :: rest }.note
    (.called (f.key, f.claimed) hook)

@[simp] theorem HookStore.slot?_claimed (s : HookStore) (hook : Hook) (f : Frame)
    (rest : List Frame) : (s.claimed hook f rest).slot? = s.slot? := rfl

namespace Hook

open Script

/-- The effect that a call queues when its dependencies changed. -/
def queues (hook : Hook) (args : List Value) (place : String × Nat) : List PendingEffect :=
  match hook with
  | useEffect => [⟨place.1, place.2, argument args 0, false⟩]
  | useLayoutEffect => [⟨place.1, place.2, argument args 0, true⟩]
  | _ => []

/-- A call of a hook by the instance of the frame `f` stored `c` at its place. Before that it left
the store `s`, in which functions that it was given may have set state. -/
structure Stored (hook : Hook) (args : List Value) (f : Frame) (rest : List Frame)
    (m : Machine) (s : HookStore) (c : HookSlot) (v : Value) (m' : Machine) : Prop where
  updates : (m.realm.hooks.claimed hook f rest).Updates s
  frames : m'.realm.hooks.frames = s.frames
  visited : m'.realm.hooks.visited = s.visited
  slots : m'.realm.hooks.slot? = (s.store f.key f.claimed c).slot?
  pending : m'.realm.hooks.pending
      = m.realm.hooks.pending ++ hook.queues args (f.key, f.claimed)
    ∨ m'.realm.hooks.pending = m.realm.hooks.pending
      ∧ m.realm.hooks.slot? f.key f.claimed = some c
  keeps : hook.keeps c
  acts : (∀ old, m.realm.hooks.slot? f.key f.claimed = some old → old.ActsOn (f.key, f.claimed)) →
    c.ActsOn (f.key, f.claimed)
  reread : ∀ old, m.realm.hooks.slot? f.key f.claimed = some old → hook.keeps old → old.Reread c
  gives : c.Gives m'.heap v

variable {ev : Evaluator} {m : Machine} {f : Frame} {rest : List Frame}

theorem ends_claim {hook : Hook} (hf : m.realm.hooks.frames = f :: rest)
    {post : String × Nat → Machine → Prop} {fail : Machine → Prop} :
    Ends (claim hook) m post fail
      ↔ post (f.key, f.claimed) { m with realm.hooks := m.realm.hooks.claimed hook f rest } := by
  unfold claim HookStore.claim
  simp only [ends_bind, ends_onRealm, hf]
  exact Iff.rfl

theorem ends_slotAt {place : String × Nat} {post : Option HookSlot → Machine → Prop}
    {fail : Machine → Prop} :
    Ends (slotAt place) m post fail ↔ post (m.realm.hooks.slot? place.1 place.2) m := Iff.rfl

theorem ends_store {place : String × Nat} {c : HookSlot} {post : Unit → Machine → Prop}
    {fail : Machine → Prop} :
    Ends (store place c) m post fail
      ↔ post () { m with realm.hooks := m.realm.hooks.store place.1 place.2 c } := Iff.rfl

/-- What a call leaves that found its slot and stored nothing. -/
theorem Stored.found {hook : Hook} {args : List Value} {c : HookSlot} {v : Value} {heap : Heap}
    (hc : m.realm.hooks.slot? f.key f.claimed = some c) (hk : hook.keeps c)
    (hv : c.Gives heap v) :
    hook.Stored args f rest m (m.realm.hooks.claimed hook f rest) c v
      { m with heap := heap, realm.hooks := m.realm.hooks.claimed hook f rest } where
  updates := .refl _
  frames := rfl
  visited := rfl
  slots := (HookStore.store_slot?_eq_self _ hc).symm
  pending := .inr ⟨rfl, hc⟩
  keeps := hk
  acts := fun h => h c hc
  reread := by
    intro old ho _
    rw [hc] at ho
    cases ho
    exact .same c
  gives := hv

/-- What a call leaves that stored a slot last, and queued nothing. -/
theorem Stored.written {hook : Hook} {args : List Value} {m₁ : Machine} {c : HookSlot} {v : Value}
    {heap : Heap} (hu : (m.realm.hooks.claimed hook f rest).Updates m₁.realm.hooks)
    (hq : hook.queues args (f.key, f.claimed) = []) (hk : hook.keeps c)
    (ha : (∀ old, m.realm.hooks.slot? f.key f.claimed = some old →
      old.ActsOn (f.key, f.claimed)) → c.ActsOn (f.key, f.claimed))
    (hr : ∀ old, m.realm.hooks.slot? f.key f.claimed = some old → hook.keeps old → old.Reread c)
    (hv : c.Gives heap v) :
    hook.Stored args f rest m m₁.realm.hooks c v
      { m₁ with heap := heap, realm.hooks := m₁.realm.hooks.store f.key f.claimed c } where
  updates := hu
  frames := rfl
  visited := rfl
  slots := rfl
  pending := by
    rw [hq, List.append_nil]
    exact .inl hu.pending
  keeps := hk
  acts := ha
  reread := hr
  gives := hv

/-- A new slot with a function for its place, and the pair of a value and that function. -/
def handOut (place : String × Nat) (fn : HostFunction) (content : Value → HookSlot)
    (value : Value) : Script Value := do
  let handle ← Alloc.native fn
  store place (content handle)
  Alloc.ofList [value, handle]

theorem handOut_ends {hook : Hook} (args : List Value) (fn : HostFunction)
    (content : Value → HookSlot) (value : Value) {m₁ : Machine}
    (hu : (m.realm.hooks.claimed hook f rest).Updates m₁.realm.hooks)
    (hq : hook.queues args (f.key, f.claimed) = []) (hk : ∀ handle, hook.keeps (content handle))
    (ha : ∀ id, (content (.native id fn none)).ActsOn (f.key, f.claimed))
    (hv : ∀ {h : Heap} {r handle}, h.items r = #[value, handle] →
      (content handle).Gives h (.array r))
    (hno : ∀ old, m.realm.hooks.slot? f.key f.claimed = some old → hook.keeps old ≠ true) :
    Ends (handOut (f.key, f.claimed) fn content value) m₁
      (fun v m' => ∃ s c, hook.Stored args f rest m s c v m')
      (fun m' => (m.realm.hooks.claimed hook f rest).Updates m'.realm.hooks) := by
  unfold handOut
  rw [ends_bind, ends_alloc, ends_bind, ends_store, ends_alloc]
  exact ⟨_, _, Stored.written hu hq (hk _) (fun _ => ha _)
    (fun old ho hkeep => absurd hkeep (hno old ho)) (hv (Heap.items_newArray _ _))⟩

theorem useStateSlot_ends (hev : ev.Quiet) (hf : m.realm.hooks.frames = f :: rest)
    (args : List Value) :
    Ends (useStateSlot ev (argument args 0)) m
      (fun v m' => ∃ s c, useState.Stored args f rest m s c v m')
      (fun m' => (m.realm.hooks.claimed .useState f rest).Updates m'.realm.hooks) := by
  unfold useStateSlot
  rw [ends_bind, ends_claim hf, ends_bind, ends_slotAt, HookStore.slot?_claimed]
  split
  · rename_i value setter hc
    exact ⟨_, _, Stored.found hc rfl ⟨_, rfl, Heap.items_newArray _ _⟩⟩
  · rename_i hno
    -- no state was found, so what is stored is new
    have hnew : ∀ old, m.realm.hooks.slot? f.key f.claimed = some old →
        useState.keeps old ≠ true := by
      intro old ho hk
      cases old with
      | state => exact absurd ho (hno _ _)
      | _ => cases hk
    have made (value : Value) {m₁ : Machine}
        (hu : (m.realm.hooks.claimed .useState f rest).Updates m₁.realm.hooks) :=
      handOut_ends args (.setState f.key f.claimed) (.state value) value hu rfl (fun _ => rfl)
        (fun _ => ⟨_, rfl⟩) (fun h => ⟨_, rfl, h⟩) hnew
    dsimp only
    split
    · rw [ends_bind]
      exact hev.ends_apply (fun value _ hu => made value hu) (fun _ hu => hu)
    · exact made _ (.refl _)

theorem useReducerSlot_ends (hev : ev.Quiet) (hf : m.realm.hooks.frames = f :: rest)
    (args : List Value) :
    Ends (useReducerSlot ev (argument args 0) (argument args 1) (argument args 2)) m
      (fun v m' => ∃ s c, useReducer.Stored args f rest m s c v m')
      (fun m' => (m.realm.hooks.claimed .useReducer f rest).Updates m'.realm.hooks) := by
  unfold useReducerSlot
  rw [ends_bind, ends_claim hf, ends_bind, ends_slotAt, HookStore.slot?_claimed]
  split
  · rename_i value reducer dispatch hc
    -- the reducer of this call replaces the one that was found
    rw [ends_bind, ends_store, ends_alloc]
    refine ⟨_, _, Stored.written (.refl _) rfl rfl (fun ha => (ha _ hc :)) ?_
      ⟨_, rfl, Heap.items_newArray _ _⟩⟩
    intro old ho _
    rw [hc] at ho
    cases ho
    exact .reducer _ _ _ _
  · rename_i hno
    have hnew : ∀ old, m.realm.hooks.slot? f.key f.claimed = some old →
        useReducer.keeps old ≠ true := by
      intro old ho hk
      cases old with
      | reducer => exact absurd ho (hno _ _ _)
      | _ => cases hk
    have made (value : Value) {m₁ : Machine}
        (hu : (m.realm.hooks.claimed .useReducer f rest).Updates m₁.realm.hooks) :=
      handOut_ends args (.dispatch f.key f.claimed) (.reducer value (argument args 0)) value hu rfl
        (fun _ => rfl) (fun _ => ⟨_, rfl⟩) (fun h => ⟨_, rfl, h⟩) hnew
    dsimp only
    split
    · rw [ends_bind]
      exact hev.ends_apply (fun value _ hu => made value hu) (fun _ hu => hu)
    · exact made _ (.refl _)

theorem ends_dependencies {v : Value} {post : Option (List Value) → Machine → Prop}
    {fail : Machine → Prop} (hp : ∀ deps, post deps m) (hf : fail m) :
    Ends (dependencies v) m post fail := by
  unfold dependencies
  split
  · exact hp none
  · exact hp none
  · rw [ends_bind]
    exact ends_iterate (fun items => hp (some items)) hf

theorem keeps_memo {hook : Hook} (hh : hook = useMemo ∨ hook = useCallback) {c : HookSlot} :
    hook.keeps c = true ↔ ∃ deps value, c = .memo deps value := by
  obtain rfl | rfl := hh <;> cases c <;> simp [keeps]

/-- Computes a value and keeps it with its dependencies. -/
def remember (ev : Evaluator) (place : String × Nat) (deps : Option (List Value)) (factory : Value)
    (callback : Bool) : Script Value := do
  let value ← if callback then pure factory else ev.apply factory []
  store place (.memo deps value)
  return value

/-- A value is made when nothing was kept, or when the dependencies changed. -/
theorem remember_ends {hook : Hook} (hev : ev.Quiet) (args : List Value)
    (deps : Option (List Value)) (factory : Value) (callback : Bool)
    (hh : hook = useMemo ∨ hook = useCallback)
    (hc : ∀ old value, m.realm.hooks.slot? f.key f.claimed = some (.memo old value) →
      depsChanged old deps = true) :
    Ends (remember ev (f.key, f.claimed) deps factory callback)
      { m with realm.hooks := m.realm.hooks.claimed hook f rest }
      (fun v m' => ∃ s c, hook.Stored args f rest m s c v m')
      (fun m' => (m.realm.hooks.claimed hook f rest).Updates m'.realm.hooks) := by
  have hq : hook.queues args (f.key, f.claimed) = [] := by obtain rfl | rfl := hh <;> rfl
  have stored : ∀ value (m₁ : Machine),
      (m.realm.hooks.claimed hook f rest).Updates m₁.realm.hooks →
      Ends (do store (f.key, f.claimed) (.memo deps value); return value) m₁
        (fun v m' => ∃ s c, hook.Stored args f rest m s c v m')
        (fun m' => (m.realm.hooks.claimed hook f rest).Updates m'.realm.hooks) := by
    intro value m₁ hu
    rw [ends_bind, ends_store, ends_pure]
    refine ⟨_, _, Stored.written hu hq ((keeps_memo hh).2 ⟨_, _, rfl⟩) (fun _ => trivial) ?_ rfl⟩
    intro old ho hkeep
    obtain ⟨oldDeps, oldValue, rfl⟩ := (keeps_memo hh).1 hkeep
    exact .memo _ _ (hc _ _ ho)
  -- the factory may set state before its value is stored
  unfold remember
  dsimp only
  split
  · exact stored _ _ (.refl _)
  · rw [ends_bind]
    exact hev.ends_apply (fun value m₁ hu => stored value m₁ hu) (fun _ hu => hu)

theorem useMemoSlot_ends {hook : Hook} (hev : ev.Quiet) (hf : m.realm.hooks.frames = f :: rest)
    (args : List Value) (callback : Bool)
    (hh : (if callback then useCallback else useMemo) = hook) :
    Ends (useMemoSlot ev (argument args 0) (argument args 1) callback) m
      (fun v m' => ∃ s c, hook.Stored args f rest m s c v m')
      (fun m' => (m.realm.hooks.claimed hook f rest).Updates m'.realm.hooks) := by
  have hm : hook = useMemo ∨ hook = useCallback := by
    rw [← hh]
    cases callback
    · exact .inl rfl
    · exact .inr rfl
  unfold useMemoSlot
  rw [ends_bind, ends_claim hf, hh, ends_bind]
  refine ends_dependencies ?_ (.refl _)
  intro deps
  rw [ends_bind, ends_slotAt, HookStore.slot?_claimed]
  dsimp only
  split
  · rename_i old value hc
    rw [ends_bind, ends_pure]
    by_cases hd : depsChanged old deps = true
    · rw [if_pos hd]
      refine remember_ends hev args deps _ callback hm ?_
      intro old' value' ho
      rw [hc] at ho
      cases ho
      exact hd
    · rw [if_neg hd]
      exact ⟨_, _, Stored.found hc ((keeps_memo hm).2 ⟨_, _, rfl⟩) rfl⟩
  · rename_i hno
    exact remember_ends hev args deps _ callback hm fun old value ho => absurd ho (hno old value)

/-- The hook of effects, and whether its effects run before the others. -/
def IsEffect (hook : Hook) (layout : Bool) : Prop :=
  hook = useEffect ∧ layout = false ∨ hook = useLayoutEffect ∧ layout = true

theorem IsEffect.hook_eq {hook : Hook} {layout : Bool} (hh : hook.IsEffect layout) :
    (if layout then useLayoutEffect else useEffect) = hook := by
  obtain ⟨rfl, rfl⟩ | ⟨rfl, rfl⟩ := hh <;> rfl

theorem IsEffect.keeps {hook : Hook} {layout : Bool} (hh : hook.IsEffect layout) {c : HookSlot} :
    hook.keeps c = true ↔ ∃ deps cleanup, c = .effect deps cleanup := by
  obtain ⟨rfl, -⟩ | ⟨rfl, -⟩ := hh <;> cases c <;> simp [Hook.keeps]

/-- What a call leaves that has written its slot and queued its effect. -/
theorem Stored.queued {hook : Hook} {layout : Bool} (hh : hook.IsEffect layout) {args : List Value}
    {hooks : HookStore} {deps : Option (List Value)} {cleanup : Value}
    (hfr : hooks.frames = { f with claimed := f.claimed + 1 } :: rest)
    (hvi : hooks.visited = m.realm.hooks.visited) (hpe : hooks.pending = m.realm.hooks.pending)
    (hsl : hooks.slot?
      = ((m.realm.hooks.claimed hook f rest).store f.key f.claimed (.effect deps cleanup)).slot?)
    (hre : ∀ old, m.realm.hooks.slot? f.key f.claimed = some old → hook.keeps old →
      old.Reread (.effect deps cleanup)) :
    ∃ s c, hook.Stored args f rest m s c .undefined { m with realm.hooks := { hooks with
      pending := hooks.pending ++ [⟨f.key, f.claimed, argument args 0, layout⟩] } } := by
  have hq : hook.queues args (f.key, f.claimed)
      = [⟨f.key, f.claimed, argument args 0, layout⟩] := by
    obtain ⟨rfl, rfl⟩ | ⟨rfl, rfl⟩ := hh <;> rfl
  refine ⟨_, _, .refl _, hfr, hvi, hsl, .inl ?_, hh.keeps.2 ⟨_, _, rfl⟩, fun _ => trivial, hre, rfl⟩
  rw [hq]
  exact congrArg (· ++ _) hpe

theorem useEffectSlot_ends {hook : Hook} (hf : m.realm.hooks.frames = f :: rest)
    (args : List Value) (layout : Bool) (hh : hook.IsEffect layout) :
    Ends (useEffectSlot (argument args 0) (argument args 1) layout) m
      (fun v m' => ∃ s c, hook.Stored args f rest m s c v m')
      (fun m' => (m.realm.hooks.claimed hook f rest).Updates m'.realm.hooks) := by
  unfold useEffectSlot
  rw [ends_bind, ends_claim hf, hh.hook_eq, ends_bind]
  refine ends_dependencies ?_ (.refl _)
  intro deps
  rw [ends_bind, ends_slotAt, HookStore.slot?_claimed]
  dsimp only
  split
  -- an effect was found, and runs again only if the dependencies changed
  · rename_i old cleanup hc
    by_cases hd : depsChanged old deps = true
    · rw [if_pos hd, ends_bind, ends_store, ends_bind, ends_pure, if_pos hd, ends_bind,
        ends_modifyHooks, ends_pure]
      refine Stored.queued hh rfl rfl rfl rfl ?_
      intro old' ho _
      rw [hc] at ho
      cases ho
      exact .effect _ hd
    · rw [if_neg hd, ends_bind, ends_pure, if_neg hd, ends_pure]
      exact ⟨_, _, Stored.found hc (hh.keeps.2 ⟨_, _, rfl⟩) rfl⟩
  -- a new effect is stored twice, first without its dependencies
  · rename_i hno
    have hre : ∀ {c : HookSlot}, ∀ old, m.realm.hooks.slot? f.key f.claimed = some old →
        hook.keeps old → old.Reread c := by
      intro c old ho hkeep
      obtain ⟨oldDeps, oldCleanup, rfl⟩ := hh.keeps.1 hkeep
      exact absurd ho (hno _ _)
    rw [ends_bind, ends_store, ends_bind, ends_slotAt]
    dsimp only
    split
    · rename_i deps' cleanup' hs
      rw [ends_bind, ends_store, ends_bind, ends_pure, if_pos rfl, ends_bind, ends_modifyHooks,
        ends_pure]
      have hle := HookStore.le_slotCount_of_store hs
      exact Stored.queued hh rfl rfl rfl (HookStore.store_store _ _ _ hle) hre
    · rw [ends_bind, ends_pure, if_pos rfl, ends_bind, ends_modifyHooks, ends_pure]
      exact Stored.queued hh rfl rfl rfl rfl hre

theorem useRefSlot_ends (hf : m.realm.hooks.frames = f :: rest) (args : List Value) :
    Ends (useRefSlot (argument args 0)) m
      (fun v m' => ∃ s c, useRef.Stored args f rest m s c v m')
      (fun m' => (m.realm.hooks.claimed .useRef f rest).Updates m'.realm.hooks) := by
  unfold useRefSlot
  rw [ends_bind, ends_claim hf, ends_bind, ends_slotAt, HookStore.slot?_claimed]
  split
  · rename_i object hc
    exact ⟨_, _, Stored.found hc rfl rfl⟩
  · rename_i hno
    rw [ends_bind, ends_alloc, ends_bind, ends_store, ends_pure]
    refine ⟨_, _, Stored.written (.refl _) rfl rfl (fun _ => trivial) ?_ rfl⟩
    intro old ho hk
    cases old with
    | ref => exact absurd ho (hno _)
    | _ => cases hk

theorem useIdSlot_ends (hf : m.realm.hooks.frames = f :: rest) (args : List Value) :
    Ends useIdSlot m (fun v m' => ∃ s c, useId.Stored args f rest m s c v m')
      (fun m' => (m.realm.hooks.claimed .useId f rest).Updates m'.realm.hooks) := by
  unfold useIdSlot
  rw [ends_bind, ends_claim hf, ends_bind, ends_slotAt, HookStore.slot?_claimed]
  split
  · rename_i text hc
    exact ⟨_, _, Stored.found hc rfl rfl⟩
  · rename_i hno
    rw [ends_bind, ends_onRealm, ends_bind, ends_modifyHooks, ends_bind, ends_store, ends_pure]
    refine ⟨_, _, Stored.written (.of_slots rfl rfl rfl rfl) rfl rfl (fun _ => trivial) ?_ rfl⟩
    intro old ho hk
    cases old with
    | id => exact absurd ho (hno _)
    | _ => cases hk

/-- Every hook but `useContext` leaves a slot of its kind at the place that it claimed. -/
theorem run_ends (hev : ev.Quiet) (hf : m.realm.hooks.frames = f :: rest) {hook : Hook}
    (hh : hook ≠ useContext) (args : List Value) :
    Ends (hook.run ev args) m (fun v m' => ∃ s c, hook.Stored args f rest m s c v m')
      (fun m' => (m.realm.hooks.claimed hook f rest).Updates m'.realm.hooks) := by
  cases hook with
  | useState => exact useStateSlot_ends hev hf args
  | useReducer => exact useReducerSlot_ends hev hf args
  | useEffect => exact useEffectSlot_ends hf args false (.inl ⟨rfl, rfl⟩)
  | useLayoutEffect => exact useEffectSlot_ends hf args true (.inr ⟨rfl, rfl⟩)
  | useMemo => exact useMemoSlot_ends hev hf args false rfl
  | useCallback => exact useMemoSlot_ends hev hf args true rfl
  | useRef => exact useRefSlot_ends hf args
  | useId => exact useIdSlot_ends hf args
  | useContext => exact absurd rfl hh

/-- A context claims a place and stores nothing there. -/
theorem run_useContext_ends (hf : m.realm.hooks.frames = f :: rest) (args : List Value) :
    Ends (useContext.run ev args) m
      (fun _ m' => m'.realm.hooks = m.realm.hooks.claimed .useContext f rest)
      (fun m' => m'.realm.hooks = m.realm.hooks.claimed .useContext f rest) := by
  show Ends (useContextValue _) _ _ _
  unfold useContextValue
  rw [ends_bind, ends_claim hf, ends_bind, ends_onHeap]
  split <;> exact rfl

/-! ## Slots after a call -/

section Slots

variable {hook : Hook} {args : List Value} {s : HookStore} {c : HookSlot} {v : Value} {m' : Machine}

theorem Stored.le_slotCount (h : hook.Stored args f rest m s c v m')
    (hle : f.claimed ≤ m.realm.hooks.slotCount f.key) : f.claimed ≤ s.slotCount f.key := by
  rw [h.updates.slotCount]
  exact hle

theorem Stored.own (h : hook.Stored args f rest m s c v m')
    (hle : f.claimed ≤ m.realm.hooks.slotCount f.key) :
    m'.realm.hooks.slot? f.key f.claimed = some c := by
  rw [h.slots]
  exact HookStore.slot?_store_self s c (h.le_slotCount hle)

/-- A call changes the slots of other places only through functions that it calls. -/
theorem Stored.others (h : hook.Stored args f rest m s c v m')
    (hle : f.claimed ≤ m.realm.hooks.slotCount f.key) {key : String} {i : Nat}
    (hne : (key, i) ≠ (f.key, f.claimed)) :
    Option.Rel HookSlot.Updated (m.realm.hooks.slot? key i) (m'.realm.hooks.slot? key i) := by
  rw [h.slots, HookStore.slot?_store_of_ne s c (h.le_slotCount hle) hne]
  exact h.updates.slots key i

theorem Stored.isSome (h : hook.Stored args f rest m s c v m')
    (hle : f.claimed ≤ m.realm.hooks.slotCount f.key) {key : String} {i : Nat}
    (hs : (m.realm.hooks.slot? key i).isSome) : (m'.realm.hooks.slot? key i).isSome := by
  by_cases hp : (key, i) = (f.key, f.claimed)
  · obtain ⟨rfl, rfl⟩ := Prod.mk.inj hp
    rw [h.own hle]
    rfl
  · rw [HookSlot.Updated.rel_isSome (h.others hle hp)]
    exact hs

/-- At most one slot is added. -/
theorem Stored.slotCount_le (h : hook.Stored args f rest m s c v m') :
    m'.realm.hooks.slotCount f.key ≤ m.realm.hooks.slotCount f.key + 1 := by
  rw [HookStore.slotCount_congr h.slots]
  have := HookStore.slotCount_store_le s f.key f.claimed c
  rw [h.updates.slotCount] at this
  exact this

/-- The effects that are pending after a call were so before, or are of the call. -/
theorem Stored.mem_pending (h : hook.Stored args f rest m s c v m') {e : PendingEffect}
    (he : e ∈ m'.realm.hooks.pending) : e ∈ m.realm.hooks.pending
      ∨ (e.key, e.slot) = (f.key, f.claimed) ∧ ∀ deps cleanup, hook.keeps (.effect deps cleanup) := by
  obtain hp | ⟨hp, -⟩ := h.pending
  · rw [hp, List.mem_append] at he
    refine he.imp_right fun hq => ?_
    cases hook with
    | useEffect | useLayoutEffect =>
      obtain rfl := List.mem_singleton.1 hq
      exact ⟨rfl, fun _ _ => rfl⟩
    | _ => cases hq
  · exact .inl (hp ▸ he)

end Slots

end Hook

end TsxPreview
