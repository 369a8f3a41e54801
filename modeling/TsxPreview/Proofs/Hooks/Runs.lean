import TsxPreview.Script.Run
import TsxPreview.Proofs.Hooks.Effects

/-!
Runs of previews, as far as hooks see them: passes that enter and leave component instances, calls of
hooks by the innermost instance, setters and dispatchers at any time, effects, and instances that
are dropped. Between these steps everything else may change. Every instance follows a plan: it calls
the same hooks in the same order in each render. A call that fails ends its render.
-/

namespace TsxPreview

/-- The hooks that each instance calls, by its key. -/
abbrev HookPlan := String → List Hook

/-- What a step does to slots. -/
inductive HookEvent where
  /-- A hook was called at a place, and gave a result. -/
  | call (place : String × Nat) (hook : Hook) (args : List Value) (result : Value)
  | set (place : String × Nat) (next : Value)
  | dispatch (place : String × Nat) (action : Value)
  | effects
  /-- The instances that the last pass did not visit were dropped. -/
  | sweep
  | unmount
  | other

namespace HookEvent

/-- The place whose slot an event is about. -/
def place? : HookEvent → Option (String × Nat)
  | call place _ _ _ | set place _ | dispatch place _ => some place
  | _ => none

/-- Whether an event drops an instance. -/
def Drops (e : HookEvent) (s : HookStore) (key : String) : Prop :=
  match e with
  | sweep => s.visited.contains key = false
  | unmount => True
  | _ => False

end HookEvent

/-- Whichever way a computation ends, it leaves the second machine. -/
def Script.Leaves {α : Type} (x : Script α) (m m' : Machine) : Prop := (x.outcome m).2 = m'

theorem Script.Ends.leaves {α : Type} {x : Script α} {m m' : Machine} {q : Machine → Prop}
    (h : Script.Ends x m (fun _ => q) q) (hx : x.Leaves m m') : q m' := by
  unfold Script.Leaves Script.outcome at hx
  unfold Script.Ends at h
  cases hr : x m with
  | ok a m₁ =>
    rw [hr] at h hx
    exact hx ▸ h
  | error e m₁ =>
    rw [hr] at h hx
    exact hx ▸ h

/-- One step of a run. Functions of scripts that are called in the step are called by `ev`. -/
inductive HookStep (plan : HookPlan) (ev : Evaluator) : Machine → HookEvent → Machine → Prop
  | beginPass (m : Machine) :
      HookStep plan ev m .other { m with realm.hooks := m.realm.hooks.beginPass }
  | enter (m : Machine) (key : String) :
      HookStep plan ev m .other { m with realm.hooks := m.realm.hooks.enter key }
  | leave (m : Machine) : HookStep plan ev m .other { m with realm.hooks := m.realm.hooks.leave }
  /-- The hook is the one that the plan has next. -/
  | call {m m' : Machine} {f : Frame} {rest : List Frame} {hook : Hook} {args : List Value}
      {v : Value} (hf : m.realm.hooks.frames = f :: rest)
      (hp : (plan f.key)[f.claimed]? = some hook) (hx : hook.run ev args m = .ok v m') :
      HookStep plan ev m (.call (f.key, f.claimed) hook args v) m'
  /-- A call that fails ends the render, or the whole pass. -/
  | fail {m m' : Machine} {f : Frame} {rest : List Frame} {hook : Hook} {args : List Value}
      {e : ScriptError} {s : HookStore} (hf : m.realm.hooks.frames = f :: rest)
      (hp : (plan f.key)[f.claimed]? = some hook) (hx : hook.run ev args m = .error e m')
      (hs : s = m'.realm.hooks.leave ∨ s = m'.realm.hooks.beginPass) :
      HookStep plan ev m .other { m' with realm.hooks := s }
  | set {m m' : Machine} {place : String × Nat} {next v : Value}
      (hx : Hook.setState ev place.1 place.2 next m = .ok v m') :
      HookStep plan ev m (.set place next) m'
  | setFail {m m' : Machine} {place : String × Nat} {next : Value} {e : ScriptError}
      (hx : Hook.setState ev place.1 place.2 next m = .error e m') : HookStep plan ev m .other m'
  | dispatch {m m' : Machine} {place : String × Nat} {action v : Value}
      (hx : Hook.dispatch ev place.1 place.2 action m = .ok v m') :
      HookStep plan ev m (.dispatch place action) m'
  | dispatchFail {m m' : Machine} {place : String × Nat} {action : Value} {e : ScriptError}
      (hx : Hook.dispatch ev place.1 place.2 action m = .error e m') : HookStep plan ev m .other m'
  | effects {m m' : Machine} (hx : (Hook.runPending ev).Leaves m m') :
      HookStep plan ev m .effects m'
  | sweep {m m' : Machine} (hx : (Hook.sweep ev).Leaves m m') : HookStep plan ev m .sweep m'
  | unmount {m m' : Machine} (hx : (Hook.unmount ev).Leaves m m') : HookStep plan ev m .unmount m'
  /-- What is not about slots. -/
  | other {m m' : Machine} (hs : m'.realm.hooks.slots = m.realm.hooks.slots)
      (hf : m'.realm.hooks.frames = m.realm.hooks.frames)
      (hv : m'.realm.hooks.visited = m.realm.hooks.visited)
      (hp : m'.realm.hooks.pending = m.realm.hooks.pending) : HookStep plan ev m .other m'

/-- What a run under a plan can reach from a machine on which nothing is mounted. -/
inductive HookReachable (plan : HookPlan) : Machine → Prop
  | start {m : Machine} (hs : m.realm.hooks.slots = .empty) (hf : m.realm.hooks.frames = [])
      (hp : m.realm.hooks.pending = []) : HookReachable plan m
  | step {m m' : Machine} {ev : Evaluator} {e : HookEvent} (hm : HookReachable plan m)
      (hev : ev.Quiet) (hs : HookStep plan ev m e m') : HookReachable plan m'

/-- A run through which an instance stays. -/
inductive HookStays (plan : HookPlan) (key : String) : Machine → Machine → Prop
  | refl (m : Machine) : HookStays plan key m m
  | step {m m₁ m₂ : Machine} {ev : Evaluator} {e : HookEvent} (h : HookStays plan key m m₁)
      (hev : ev.Quiet) (hs : HookStep plan ev m₁ e m₂) (hd : ¬ e.Drops m₁.realm.hooks key) :
      HookStays plan key m m₂

/-- Once a context is called, only contexts are. -/
def HookPlan.ContextsLast (plan : HookPlan) : Prop :=
  ∀ key, (plan key).Pairwise fun a b => a = .useContext → b = .useContext

/-! ## The invariant -/

/-- Slots stand where the plan has their hooks, and what an instance has claimed is there. -/
structure HookPlan.Aligned (plan : HookPlan) (s : HookStore) : Prop where
  visited : ∀ f ∈ s.frames, s.visited.contains f.key
  claimed : ∀ f ∈ s.frames, ∀ i < f.claimed, ∀ hook, (plan f.key)[i]? = some hook →
    hook ≠ .useContext → (s.slot? f.key i).isSome
  kinds : ∀ key i c, s.slot? key i = some c →
    ∃ hook, (plan key)[i]? = some hook ∧ hook.keeps c ∧ c.ActsOn (key, i)
  pending : ∀ e ∈ s.pending, ∃ deps cleanup, s.slot? e.key e.slot = some (.effect deps cleanup)

namespace HookPlan.Aligned

variable {plan : HookPlan} {s s' : HookStore}

theorem start (hs : s.slots = .empty) (hf : s.frames = []) (hp : s.pending = []) :
    plan.Aligned s := by
  have hnone : ∀ key i, s.slot? key i = none := by
    intro key i
    unfold HookStore.slot?
    rw [hs]
    rfl
  refine ⟨?_, ?_, ?_, ?_⟩
  · rw [hf]
    intro f h
    cases h
  · rw [hf]
    intro f h
    cases h
  · intro key i c h
    rw [hnone] at h
    cases h
  · rw [hp]
    intro e h
    cases h

/-- Fewer frames and fewer pending effects over the same slots. -/
theorem of_subset (h : plan.Aligned s) (hs : s'.slot? = s.slot?)
    (hf : ∀ f ∈ s'.frames, f ∈ s.frames ∧ s'.visited = s.visited)
    (hp : ∀ e ∈ s'.pending, e ∈ s.pending) : plan.Aligned s' := by
  refine ⟨?_, ?_, ?_, ?_⟩
  · intro f hmem
    rw [(hf f hmem).2]
    exact h.visited f (hf f hmem).1
  · intro f hmem
    rw [hs]
    exact h.claimed f (hf f hmem).1
  · rw [hs]
    exact h.kinds
  · intro e hmem
    rw [hs]
    exact h.pending e (hp e hmem)

theorem updates (h : plan.Aligned s) (hu : s.Updates s') : plan.Aligned s' := by
  refine ⟨?_, ?_, ?_, ?_⟩
  · rw [hu.frames, hu.visited]
    exact h.visited
  · rw [hu.frames]
    intro f hmem i hi hook hp hne
    rw [hu.isSome]
    exact h.claimed f hmem i hi hook hp hne
  · intro key i c' hc'
    obtain ⟨c, hc, hupd⟩ := hu.of_slot_some hc'
    obtain ⟨hook, hp, hk, ha⟩ := h.kinds key i c hc
    exact ⟨hook, hp, by rw [Hook.keeps_updated hupd]; exact hk, hupd.actsOn ha⟩
  · rw [hu.pending]
    intro e hmem
    obtain ⟨deps, cleanup, hc⟩ := h.pending e hmem
    obtain ⟨c', hc', hupd⟩ := hu.slot_some hc
    cases hupd with
    | same => exact ⟨deps, cleanup, hc'⟩
    | effect _ _ x => exact ⟨deps, x, hc'⟩

theorem enter (h : plan.Aligned s) (key : String) : plan.Aligned (s.enter key) := by
  refine ⟨?_, ?_, h.kinds, h.pending⟩
  · intro f hmem
    obtain rfl | hmem := List.mem_cons.1 hmem
    · simp [HookStore.enter]
    · have := h.visited f hmem
      simp only [HookStore.enter, List.contains_cons, this, Bool.or_true]
  · intro f hmem i hi hook hp hne
    obtain rfl | hmem := List.mem_cons.1 hmem
    · cases hi
    · exact h.claimed f hmem i hi hook hp hne

theorem leave (h : plan.Aligned s) : plan.Aligned s.leave :=
  h.of_subset rfl (fun _ hmem => ⟨List.mem_of_mem_tail hmem, rfl⟩) (fun _ he => he)

theorem beginPass (h : plan.Aligned s) : plan.Aligned s.beginPass :=
  h.of_subset rfl (fun _ hmem => by cases hmem) (fun _ he => he)

/-- The instances with frames were visited, so that a sweep keeps their slots. -/
theorem sweep (h : plan.Aligned s) : plan.Aligned s.sweep.2 := by
  refine ⟨h.visited, ?_, ?_, ?_⟩
  · intro f hmem i hi hook hp hne
    rw [HookStore.slot?_sweep, if_pos (h.visited f hmem)]
    exact h.claimed f hmem i hi hook hp hne
  · intro key i c hc
    rw [HookStore.slot?_sweep] at hc
    split at hc
    · exact h.kinds key i c hc
    · cases hc
  · intro e hmem
    have hold : e ∈ s.pending := (List.mem_filter.1 hmem).1
    obtain ⟨deps, cleanup, hc⟩ := h.pending e hold
    have hkept := (HookStore.mem_pending_sweep hmem (by rw [hc]; rfl)).2
    refine ⟨deps, cleanup, ?_⟩
    rw [HookStore.slot?_sweep, if_pos hkept, hc]

theorem clear (_h : plan.Aligned s) : plan.Aligned s.clear.2 := start rfl rfl rfl

/-! ## Calls -/

/-- Under a plan with contexts last, what is claimed for a slot is one that exists or the next. -/
theorem le_slotCount (h : plan.Aligned s) (hl : plan.ContextsLast) {f : Frame}
    (hf : f ∈ s.frames) {hook : Hook} (hp : (plan f.key)[f.claimed]? = some hook)
    (hne : hook ≠ .useContext) : f.claimed ≤ s.slotCount f.key := by
  refine Nat.le_of_not_lt fun hlt => ?_
  obtain ⟨hk, rfl⟩ := List.getElem?_eq_some_iff.1 hp
  have hi : s.slotCount f.key < (plan f.key).length := by omega
  have hfirst : (plan f.key)[s.slotCount f.key] ≠ .useContext := fun hc =>
    hne (List.pairwise_iff_getElem.1 (hl f.key) _ _ hi hk hlt hc)
  have := h.claimed f hf _ hlt _ (List.getElem?_eq_getElem hi) hfirst
  rw [HookStore.slot?_isSome] at this
  omega

section Stored

variable {m m' : Machine} {f : Frame} {rest : List Frame} {hook : Hook} {args : List Value}
  {s₁ : HookStore} {c : HookSlot} {v : Value}

/-- The place of a call has its slot now, and the places before it had theirs. -/
theorem stored_claimed (h : plan.Aligned m.realm.hooks) (hf : m.realm.hooks.frames = f :: rest)
    (hle : f.claimed ≤ m.realm.hooks.slotCount f.key)
    (hst : hook.Stored args f rest m s₁ c v m') :
    ∀ g ∈ m'.realm.hooks.frames, ∀ i < g.claimed, ∀ hook', (plan g.key)[i]? = some hook' →
      hook' ≠ .useContext → (m'.realm.hooks.slot? g.key i).isSome := by
  rw [show m'.realm.hooks.frames = { f with claimed := f.claimed + 1 } :: rest from
    hst.frames.trans hst.updates.frames]
  intro g hmem i hi hook' hp' hne
  -- the frame of the call has moved on, the others are as they were
  obtain rfl | hmem := List.mem_cons.1 hmem
  · obtain hi | rfl := Nat.lt_succ_iff_lt_or_eq.1 hi
    · exact hst.isSome hle
        (h.claimed f (by rw [hf]; exact List.mem_cons_self) i hi hook' hp' hne)
    · show (m'.realm.hooks.slot? f.key f.claimed).isSome
      rw [hst.own hle]
      rfl
  · exact hst.isSome hle
      (h.claimed g (by rw [hf]; exact List.mem_cons_of_mem _ hmem) i hi hook' hp' hne)

theorem stored_kinds (h : plan.Aligned m.realm.hooks) (hp : (plan f.key)[f.claimed]? = some hook)
    (hle : f.claimed ≤ m.realm.hooks.slotCount f.key)
    (hst : hook.Stored args f rest m s₁ c v m') {key : String} {i : Nat} {c' : HookSlot}
    (hc' : m'.realm.hooks.slot? key i = some c') :
    ∃ hook', (plan key)[i]? = some hook' ∧ hook'.keeps c' ∧ c'.ActsOn (key, i) := by
  -- the slot at the place of the call is new, the others were only updated
  by_cases hplace : (key, i) = (f.key, f.claimed)
  · obtain ⟨rfl, rfl⟩ := Prod.mk.inj hplace
    rw [hst.own hle] at hc'
    cases hc'
    refine ⟨hook, hp, hst.keeps, hst.acts ?_⟩
    intro old hold
    obtain ⟨-, -, -, ha⟩ := h.kinds _ _ old hold
    exact ha
  · have hr := hst.others hle hplace
    rw [hc'] at hr
    obtain ⟨c₀, hc₀, hupd⟩ := HookSlot.Updated.of_rel_some hr
    obtain ⟨hook', hp', hk, ha⟩ := h.kinds key i c₀ hc₀
    exact ⟨hook', hp', by rw [Hook.keeps_updated hupd]; exact hk, hupd.actsOn ha⟩

theorem stored_pending (h : plan.Aligned m.realm.hooks)
    (hp : (plan f.key)[f.claimed]? = some hook) (hle : f.claimed ≤ m.realm.hooks.slotCount f.key)
    (hst : hook.Stored args f rest m s₁ c v m') {e : PendingEffect}
    (hmem : e ∈ m'.realm.hooks.pending) :
    ∃ deps cleanup, m'.realm.hooks.slot? e.key e.slot = some (.effect deps cleanup) := by
  by_cases hplace : (e.key, e.slot) = (f.key, f.claimed)
  -- both for an old effect and for a new one, the hook is one of effects
  · have hkeep : ∃ deps cleanup, hook.keeps (.effect deps cleanup) := by
      obtain hold | ⟨-, hnew⟩ := hst.mem_pending hmem
      · obtain ⟨deps, cleanup, hc'⟩ := h.pending e hold
        obtain ⟨hook', hp', hk, -⟩ := h.kinds _ _ _ hc'
        rw [(Prod.mk.inj hplace).1, (Prod.mk.inj hplace).2, hp] at hp'
        cases hp'
        exact ⟨deps, cleanup, hk⟩
      · exact ⟨none, .undefined, hnew _ _⟩
    obtain ⟨_, _, hk⟩ := hkeep
    obtain ⟨deps, cleanup, rfl⟩ := Hook.keeps_effect hk hst.keeps
    rw [(Prod.mk.inj hplace).1, (Prod.mk.inj hplace).2]
    exact ⟨deps, cleanup, hst.own hle⟩
  · obtain hold | ⟨hnew, -⟩ := hst.mem_pending hmem
    · obtain ⟨deps, cleanup, hc'⟩ := h.pending e hold
      have hr := hst.others hle hplace
      rw [hc'] at hr
      exact HookSlot.Updated.effect_some hr
    · exact absurd hnew hplace

/-- A call of a hook that stores, at a place that exists or is the next. -/
theorem stored (h : plan.Aligned m.realm.hooks) (hf : m.realm.hooks.frames = f :: rest)
    (hp : (plan f.key)[f.claimed]? = some hook) (hle : f.claimed ≤ m.realm.hooks.slotCount f.key)
    (hst : hook.Stored args f rest m s₁ c v m') : plan.Aligned m'.realm.hooks := by
  refine ⟨?_, h.stored_claimed hf hle hst, fun _ _ _ => h.stored_kinds hp hle hst,
    fun _ => h.stored_pending hp hle hst⟩
  rw [hst.frames.trans hst.updates.frames, hst.visited.trans hst.updates.visited]
  intro g hmem
  obtain rfl | hmem := List.mem_cons.1 hmem
  · exact h.visited f (by rw [hf]; exact List.mem_cons_self)
  · exact h.visited g (by rw [hf]; exact List.mem_cons_of_mem _ hmem)

end Stored

/-- A context claims a place for which no slot is needed. -/
theorem claimed_context (h : plan.Aligned s) {f : Frame} {rest : List Frame}
    (hf : s.frames = f :: rest) (hp : (plan f.key)[f.claimed]? = some .useContext) :
    plan.Aligned (s.claimed .useContext f rest) := by
  refine ⟨?_, ?_, h.kinds, h.pending⟩
  · intro g hmem
    obtain rfl | hmem := List.mem_cons.1 hmem
    · exact h.visited f (by rw [hf]; exact List.mem_cons_self)
    · exact h.visited g (by rw [hf]; exact List.mem_cons_of_mem _ hmem)
  · intro g hmem i hi hook hp' hne
    obtain rfl | hmem := List.mem_cons.1 hmem
    · obtain hi | rfl := Nat.lt_succ_iff_lt_or_eq.1 hi
      · exact h.claimed f (by rw [hf]; exact List.mem_cons_self) i hi hook hp' hne
      · rw [hp] at hp'
        cases hp'
        exact absurd rfl hne
    · exact h.claimed g (by rw [hf]; exact List.mem_cons_of_mem _ hmem) i hi hook hp' hne

end HookPlan.Aligned

section Runs

variable {plan : HookPlan} {ev : Evaluator} {m m' : Machine}

/-- A failing call has claimed a place and stored nothing. -/
theorem Hook.run_error_updates (hev : ev.Quiet) {f : Frame} {rest : List Frame} {hook : Hook}
    {args : List Value} {e : ScriptError} (hf : m.realm.hooks.frames = f :: rest)
    (hx : hook.run ev args m = .error e m') :
    (m.realm.hooks.claimed hook f rest).Updates m'.realm.hooks := by
  by_cases hc : hook = .useContext
  · subst hc
    rw [(run_useContext_ends hf args).error hx]
    exact .refl _
  · exact (run_ends hev hf hc args).error hx

/-- Every step of a run preserves the invariant. -/
theorem HookStep.aligned {e : HookEvent} (hl : plan.ContextsLast) (hev : ev.Quiet)
    (h : plan.Aligned m.realm.hooks) (hs : HookStep plan ev m e m') :
    plan.Aligned m'.realm.hooks := by
  cases hs with
  | beginPass => exact h.beginPass
  | enter key => exact h.enter key
  | leave => exact h.leave
  | call hf hp hx =>
    rename_i f rest hook args v
    by_cases hc : hook = .useContext
    · subst hc
      rw [(Hook.run_useContext_ends hf args).ok hx]
      exact h.claimed_context hf hp
    · obtain ⟨s, c, hst⟩ := (Hook.run_ends hev hf hc args).ok hx
      have hle := h.le_slotCount hl (by rw [hf]; exact List.mem_cons_self) hp hc
      exact h.stored hf hp hle hst
  | fail hf hp hx hs =>
    rename_i f rest hook args e s
    have hu := Hook.run_error_updates hev hf hx
    -- what the call has claimed leaves with its frame
    obtain rfl | rfl := hs
    · have hleave : m.realm.hooks.leave.Updates (m.realm.hooks.claimed hook f rest).leave :=
        .of_slots (congrArg List.tail hf).symm rfl rfl rfl
      exact h.leave.updates (hleave.trans hu.leave)
    · have hbegin : m.realm.hooks.beginPass.Updates (m.realm.hooks.claimed hook f rest).beginPass :=
        .of_slots rfl rfl rfl rfl
      exact h.beginPass.updates (hbegin.trans hu.beginPass)
  | set hx => exact h.updates ((Hook.setState_updates hev _ _ _).ok hx)
  | setFail hx => exact h.updates ((Hook.setState_updates hev _ _ _).error hx)
  | dispatch hx => exact h.updates ((Hook.dispatch_updates hev _ _ _).ok hx)
  | dispatchFail hx => exact h.updates ((Hook.dispatch_updates hev _ _ _).error hx)
  | effects hx =>
    -- the queue is taken first, and the effects in it run then
    have hnone : plan.Aligned { m.realm.hooks with pending := [] } :=
      h.of_subset rfl (fun _ hmem => ⟨hmem, rfl⟩) (fun _ hmem => by cases hmem)
    exact hnone.updates ((Hook.runPending_ends hev m).leaves hx)
  | sweep hx => exact h.sweep.updates ((Hook.sweep_ends hev m).leaves hx)
  | unmount hx => exact h.clear.updates ((Hook.unmount_ends hev m).leaves hx)
  | other hs hf hv hp =>
    exact h.of_subset (HookStore.slot?_congr hs) (fun f hmem => ⟨hf ▸ hmem, hv⟩)
      (fun e hmem => hp ▸ hmem)

/-- The invariant holds throughout every run. -/
theorem HookReachable.aligned (hl : plan.ContextsLast) (h : HookReachable plan m) :
    plan.Aligned m.realm.hooks := by
  induction h with
  | start hs hf hp => exact .start hs hf hp
  | step _ hev hs ih => exact hs.aligned hl hev ih

end Runs

end TsxPreview
