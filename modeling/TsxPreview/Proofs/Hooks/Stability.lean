import TsxPreview.Proofs.Hooks.Runs

/-!
When the slots of hooks are stable: each call of a hook finds what the call before it at the same
place stored, and what it hands out acts on that slot. It is so as long as an instance calls nothing
but contexts after its first context. A context claims a place without storing anything there, and
what a later hook stores then lands before its place, where neither its next call nor its setter
looks for it.
-/

namespace TsxPreview

/-- A hook stored at a place, and its instance has stayed since. -/
def HookInUse (plan : HookPlan) (hook : Hook) (place : String × Nat) (m : Machine) : Prop :=
  ∃ ev m₀ m₁ args v, ev.Quiet ∧ HookReachable plan m₀
    ∧ HookStep plan ev m₀ (.call place hook args v) m₁ ∧ HookStays plan place.1 m₁ m

/-- Whatever run of passes and updates, slots keep to their hooks. -/
structure HookPlan.Stable (plan : HookPlan) : Prop where
  /-- A call leaves a slot of its kind at its place, as it found it there or new. What it gives is
  what the slot holds, and acts on that place. -/
  calls : ∀ {ev : Evaluator} {m m' : Machine} {place : String × Nat} {hook : Hook}
    {args : List Value} {v : Value}, ev.Quiet → HookReachable plan m →
    HookStep plan ev m (.call place hook args v) m' → hook ≠ .useContext →
    ∃ c, m'.realm.hooks.slot? place.1 place.2 = some c ∧ hook.keeps c ∧ c.ActsOn place
      ∧ c.Gives m'.heap v
      ∧ (∀ old, m.realm.hooks.slot? place.1 place.2 = some old → old.Reread c)
      ∧ (m'.realm.hooks.pending = m.realm.hooks.pending ++ hook.queues args place
        ∨ m'.realm.hooks.pending = m.realm.hooks.pending
          ∧ m.realm.hooks.slot? place.1 place.2 = some c)
  /-- The slot of a call is there as long as the instance stays, and belongs to the same functions
  and objects. -/
  stays : ∀ {ev : Evaluator} {m m₁ m₂ : Machine} {place : String × Nat} {hook : Hook}
    {args : List Value} {v : Value}, ev.Quiet → HookReachable plan m →
    HookStep plan ev m (.call place hook args v) m₁ → hook ≠ .useContext →
    HookStays plan place.1 m₁ m₂ →
    ∃ c c', m₁.realm.hooks.slot? place.1 place.2 = some c
      ∧ m₂.realm.hooks.slot? place.1 place.2 = some c' ∧ c'.handle = c.handle
  /-- A step changes the slots of other places only through the functions of scripts that it
  calls. -/
  others : ∀ {ev : Evaluator} {m m' : Machine} {e : HookEvent} {place : String × Nat}, ev.Quiet →
    HookReachable plan m → HookStep plan ev m e m' → e.place? ≠ some place →
    ¬ e.Drops m.realm.hooks place.1 →
    Option.Rel HookSlot.Updated (m.realm.hooks.slot? place.1 place.2)
      (m'.realm.hooks.slot? place.1 place.2)
  /-- What is set through a setter arrives. -/
  sets : ∀ {ev : Evaluator} {m m' : Machine} {place : String × Nat} {next : Value}, ev.Quiet →
    HookInUse plan .useState place m → HookStep plan ev m (.set place next) m' →
    ∃ current setter, m.realm.hooks.slot? place.1 place.2 = some (.state current setter)
      ∧ Hook.Delivers (Hook.nextState ev next current) place current (.state · setter) m m'
  /-- What is dispatched arrives, by the reducer of the last render. -/
  dispatches : ∀ {ev : Evaluator} {m m' : Machine} {place : String × Nat} {action : Value},
    ev.Quiet → HookInUse plan .useReducer place m →
    HookStep plan ev m (.dispatch place action) m' →
    ∃ current reducer own,
      m.realm.hooks.slot? place.1 place.2 = some (.reducer current reducer own)
      ∧ Hook.Delivers (ev.apply reducer [current, action]) place current (.reducer · reducer own)
        m m'
  /-- No queued effect is passed over: each finds the slot of its place. -/
  effects : ∀ {m : Machine} {e : PendingEffect}, HookReachable plan m →
    e ∈ m.realm.hooks.pending →
    ∃ deps cleanup, m.realm.hooks.slot? e.key e.slot = some (.effect deps cleanup)

section Runs

variable {plan : HookPlan} {ev : Evaluator} {m m' : Machine}

/-! ## Contexts last -/

/-- What a call leaves when its place exists or is the next. -/
theorem HookStep.stored (hl : plan.ContextsLast) (hev : ev.Quiet) (hm : HookReachable plan m)
    {place : String × Nat} {hook : Hook} {args : List Value} {v : Value}
    (hs : HookStep plan ev m (.call place hook args v) m') (hc : hook ≠ .useContext) :
    ∃ f rest s c, place = (f.key, f.claimed) ∧ (plan f.key)[f.claimed]? = some hook
      ∧ f.claimed ≤ m.realm.hooks.slotCount f.key ∧ hook.Stored args f rest m s c v m' := by
  cases hs with
  | call hf hp hx =>
    rename_i f rest
    obtain ⟨s, c, hst⟩ := (Hook.run_ends hev hf hc args).ok hx
    have hmem : f ∈ m.realm.hooks.frames := by rw [hf]; exact List.mem_cons_self
    exact ⟨f, rest, s, c, rfl, hp, (hm.aligned hl).le_slotCount hl hmem hp hc, hst⟩

theorem HookStep.others (hl : plan.ContextsLast) (hev : ev.Quiet) (hm : HookReachable plan m)
    {e : HookEvent} {place : String × Nat} (hs : HookStep plan ev m e m')
    (he : e.place? ≠ some place) (hd : ¬ e.Drops m.realm.hooks place.1) :
    Option.Rel HookSlot.Updated (m.realm.hooks.slot? place.1 place.2)
      (m'.realm.hooks.slot? place.1 place.2) := by
  have hrefl := (HookStore.Updates.refl m.realm.hooks).slots place.1 place.2
  cases hs with
  | beginPass => exact hrefl
  | enter key => exact hrefl
  | leave => exact hrefl
  | call hf hp hx =>
    rename_i f rest hook args v
    by_cases hc : hook = .useContext
    · subst hc
      rw [(Hook.run_useContext_ends hf args).ok hx]
      exact hrefl
    · obtain ⟨f', rest', s, c, hplace, -, hle, hst⟩ :=
        HookStep.stored hl hev hm (.call hf hp hx) hc
      exact hst.others hle fun h => he (congrArg some (hplace.trans h.symm))
  | fail hf hp hx hs =>
    have hu := Hook.run_error_updates hev hf hx
    obtain rfl | rfl := hs
    · exact hu.leave.slots _ _
    · exact hu.beginPass.slots _ _
  | set hx => exact ((Hook.setState_updates hev _ _ _).ok hx).slots _ _
  | setFail hx => exact ((Hook.setState_updates hev _ _ _).error hx).slots _ _
  | dispatch hx => exact ((Hook.dispatch_updates hev _ _ _).ok hx).slots _ _
  | dispatchFail hx => exact ((Hook.dispatch_updates hev _ _ _).error hx).slots _ _
  | effects hx => exact ((Hook.runPending_ends hev m).leaves hx).slots _ _
  | sweep hx =>
    have hkept : m.realm.hooks.visited.contains place.1 = true := by
      cases hv : m.realm.hooks.visited.contains place.1 with
      | true => rfl
      | false => exact absurd hv hd
    have hr := ((Hook.sweep_ends hev m).leaves hx).slots place.1 place.2
    rw [HookStore.slot?_sweep, if_pos hkept] at hr
    exact hr
  | unmount hx => exact absurd trivial hd
  | other hs hf hv hp =>
    rw [HookStore.slot?_congr hs]
    exact hrefl

/-- What a call reads and what it leaves. -/
theorem HookStep.called (hl : plan.ContextsLast) (hev : ev.Quiet) (hm : HookReachable plan m)
    {place : String × Nat} {hook : Hook} {args : List Value} {v : Value}
    (hs : HookStep plan ev m (.call place hook args v) m') (hc : hook ≠ .useContext) :
    ∃ c, m'.realm.hooks.slot? place.1 place.2 = some c ∧ hook.keeps c ∧ c.ActsOn place
      ∧ c.Gives m'.heap v
      ∧ (∀ old, m.realm.hooks.slot? place.1 place.2 = some old → old.Reread c)
      ∧ (m'.realm.hooks.pending = m.realm.hooks.pending ++ hook.queues args place
        ∨ m'.realm.hooks.pending = m.realm.hooks.pending
          ∧ m.realm.hooks.slot? place.1 place.2 = some c) := by
  obtain ⟨f, rest, s, c, rfl, hp, hle, hst⟩ := hs.stored hl hev hm hc
  have hkinds : ∀ old, m.realm.hooks.slot? f.key f.claimed = some old →
      hook.keeps old ∧ old.ActsOn (f.key, f.claimed) := by
    intro old hold
    obtain ⟨hook', hp', hk, ha⟩ := (hm.aligned hl).kinds _ _ _ hold
    rw [hp] at hp'
    cases hp'
    exact ⟨hk, ha⟩
  exact ⟨c, hst.own hle, hst.keeps, hst.acts fun old hold => (hkinds old hold).2, hst.gives,
    fun old hold => hst.reread old hold (hkinds old hold).1, hst.pending⟩

/-- A slot stays what it is through every step that keeps its instance. -/
theorem HookStep.handle_eq (hl : plan.ContextsLast) (hev : ev.Quiet) (hm : HookReachable plan m)
    {e : HookEvent} {place : String × Nat} {c : HookSlot} (hs : HookStep plan ev m e m')
    (hd : ¬ e.Drops m.realm.hooks place.1)
    (hc : m.realm.hooks.slot? place.1 place.2 = some c) :
    ∃ c', m'.realm.hooks.slot? place.1 place.2 = some c' ∧ c'.handle = c.handle := by
  -- a step at the place itself rereads or updates the slot, any other only updates it
  by_cases he : e.place? = some place
  · cases e with
    | call p hook args v =>
      obtain rfl := Option.some.inj he
      obtain ⟨hook', hp', hk, -⟩ := (hm.aligned hl).kinds _ _ _ hc
      have hne : hook ≠ .useContext := by
        rintro rfl
        cases hs with
        | call hf hp hx =>
          rw [hp] at hp'
          cases hp'
          cases hk
      obtain ⟨c', hc', -, -, -, hr, -⟩ := hs.called hl hev hm hne
      exact ⟨c', hc', (hr c hc).handle_eq⟩
    | set p next =>
      obtain rfl := Option.some.inj he
      cases hs with
      | set hx =>
        obtain ⟨c', hc', hu⟩ := ((Hook.setState_updates hev _ _ _).ok hx).slot_some hc
        exact ⟨c', hc', hu.handle_eq⟩
    | dispatch p action =>
      obtain rfl := Option.some.inj he
      cases hs with
      | dispatch hx =>
        obtain ⟨c', hc', hu⟩ := ((Hook.dispatch_updates hev _ _ _).ok hx).slot_some hc
        exact ⟨c', hc', hu.handle_eq⟩
    | _ => cases he
  · have hr := hs.others hl hev hm he hd
    rw [hc] at hr
    obtain ⟨c', hc', hu⟩ := HookSlot.Updated.rel_some hr
    exact ⟨c', hc', hu.handle_eq⟩

/-- A slot stays what it is as long as its instance does. -/
theorem HookStays.handle_eq (hl : plan.ContextsLast) {place : String × Nat}
    (h : HookStays plan place.1 m m') (hm : HookReachable plan m) {c : HookSlot}
    (hc : m.realm.hooks.slot? place.1 place.2 = some c) :
    HookReachable plan m'
      ∧ ∃ c', m'.realm.hooks.slot? place.1 place.2 = some c' ∧ c'.handle = c.handle := by
  induction h with
  | refl => exact ⟨hm, c, hc, rfl⟩
  | step _ hev hs hd ih =>
    obtain ⟨hm₁, c₁, hc₁, hh₁⟩ := ih
    obtain ⟨c₂, hc₂, hh₂⟩ := hs.handle_eq hl hev hm₁ hd hc₁
    exact ⟨hm₁.step hev hs, c₂, hc₂, hh₂.trans hh₁⟩

/-- The slot of a hook that is in use. -/
theorem HookInUse.slot (hl : plan.ContextsLast) {hook : Hook} {place : String × Nat}
    (h : HookInUse plan hook place m) (hc : hook ≠ .useContext) :
    ∃ c c', hook.keeps c ∧ c'.handle = c.handle
      ∧ m.realm.hooks.slot? place.1 place.2 = some c' := by
  obtain ⟨ev, m₀, m₁, args, v, hev, hm₀, hs, hstay⟩ := h
  obtain ⟨c, hc₁, hk, -⟩ := hs.called hl hev hm₀ hc
  obtain ⟨-, c', hc', hh⟩ := hstay.handle_eq hl (hm₀.step hev hs) hc₁
  exact ⟨c, c', hk, hh, hc'⟩

theorem HookPlan.ContextsLast.stable (hl : plan.ContextsLast) : plan.Stable where
  calls hev hm hs hc := hs.called hl hev hm hc
  stays := by
    intro ev m m₁ m₂ place hook args v hev hm hs hc hstay
    obtain ⟨c, hc₁, -⟩ := hs.called hl hev hm hc
    obtain ⟨-, c', hc', hh⟩ := hstay.handle_eq hl (hm.step hev hs) hc₁
    exact ⟨c, c', hc₁, hc', hh⟩
  others hev hm hs he hd := hs.others hl hev hm he hd
  sets := by
    intro ev m m' place next hev hu hs
    obtain ⟨c, c', hk, hh, hslot⟩ := hu.slot hl (by decide)
    obtain ⟨current, setter, rfl⟩ : ∃ current setter, c' = .state current setter := by
      cases c <;> cases hk
      cases c' <;> cases hh
      exact ⟨_, _, rfl⟩
    cases hs with
    | set hx => exact ⟨current, setter, hslot, (Hook.setState_ends hev hslot next).ok hx⟩
  dispatches := by
    intro ev m m' place action hev hu hs
    obtain ⟨c, c', hk, hh, hslot⟩ := hu.slot hl (by decide)
    obtain ⟨current, reducer, own, rfl⟩ : ∃ current reducer own,
        c' = .reducer current reducer own := by
      cases c <;> cases hk
      cases c' <;> cases hh
      exact ⟨_, _, _, rfl⟩
    cases hs with
    | dispatch hx =>
      exact ⟨current, reducer, own, hslot, (Hook.dispatch_ends hev hslot action).ok hx⟩
  effects hm he := (hm.aligned hl).pending _ he

/-! ## Contexts before other hooks -/

/-- Functions that do nothing. -/
def Evaluator.idle : Evaluator where
  rounds := 0
  eval _ _ := pure .undefined
  exec _ _ := pure .normal
  call _ _ _ := pure .undefined

theorem Evaluator.idle_quiet : Evaluator.idle.Quiet := fun _ _ _ _ => .refl _

/-- A heap with a context, and the context. -/
def contextHeap : Heap := (({} : Heap).newObject ⟨[("_id", .number 0)]⟩).2

def contextArgs : List Value := [.object ⟨0⟩]

/-- Effects without dependencies are always queued. -/
theorem useEffectSlot_succeeds {f : Frame} {rest : List Frame}
    (hf : m.realm.hooks.frames = f :: rest) (callback : Value) (layout : Bool) :
    Script.Ends (Hook.useEffectSlot callback .undefined layout) m (fun _ _ => True)
      (fun _ => False) := by
  unfold Hook.useEffectSlot
  rw [Script.ends_bind, Hook.ends_claim hf, Script.ends_bind]
  rw [show Hook.dependencies .undefined = pure none from rfl, Script.ends_pure, Script.ends_bind,
    Hook.ends_slotAt]
  dsimp only
  split
  · rename_i old cleanup _
    have hd : depsChanged old none = true := by cases old <;> rfl
    rw [hd]
    trivial
  · rw [Script.ends_bind, Hook.ends_store, Script.ends_bind, Hook.ends_slotAt]
    dsimp only
    split <;> trivial

theorem useMemoSlot_succeeds {f : Frame} {rest : List Frame}
    (hf : m.realm.hooks.frames = f :: rest) (factory : Value) (callback : Bool) :
    Script.Ends (Hook.useMemoSlot .idle factory .undefined callback) m (fun _ _ => True)
      (fun _ => False) := by
  unfold Hook.useMemoSlot
  rw [Script.ends_bind, Hook.ends_claim hf, Script.ends_bind]
  rw [show Hook.dependencies .undefined = pure none from rfl, Script.ends_pure, Script.ends_bind,
    Hook.ends_slotAt]
  dsimp only
  split
  · rw [Script.ends_bind, Script.ends_pure]
    split <;> cases callback <;> trivial
  · cases callback <;> trivial

/-- Every hook can be called with a context. -/
theorem Hook.run_idle (hook : Hook) {f : Frame} {rest : List Frame}
    (hf : m.realm.hooks.frames = f :: rest) (hh : m.heap = contextHeap) :
    ∃ v m', hook.run .idle contextArgs m = .ok v m' := by
  refine Script.Ends.succeeds ?_
  cases hook with
  | useState =>
    show Script.Ends (useStateSlot _ _) _ _ _
    unfold useStateSlot
    rw [Script.ends_bind, ends_claim hf, Script.ends_bind, ends_slotAt]
    split <;> trivial
  | useReducer =>
    show Script.Ends (useReducerSlot _ _ _ _) _ _ _
    unfold useReducerSlot
    rw [Script.ends_bind, ends_claim hf, Script.ends_bind, ends_slotAt]
    split <;> trivial
  | useEffect => exact useEffectSlot_succeeds hf _ _
  | useLayoutEffect => exact useEffectSlot_succeeds hf _ _
  | useMemo => exact useMemoSlot_succeeds hf _ _
  | useCallback => exact useMemoSlot_succeeds hf _ _
  | useRef =>
    show Script.Ends (useRefSlot _) _ _ _
    unfold useRefSlot
    rw [Script.ends_bind, ends_claim hf, Script.ends_bind, ends_slotAt]
    split <;> trivial
  | useId =>
    show Script.Ends useIdSlot _ _ _
    unfold useIdSlot
    rw [Script.ends_bind, ends_claim hf, Script.ends_bind, ends_slotAt]
    split <;> trivial
  | useContext =>
    show Script.Ends (useContextValue _) _ _ _
    unfold useContextValue
    rw [Script.ends_bind, ends_claim hf, Script.ends_bind, Script.ends_onHeap]
    rw [hh]
    trivial

/-- A run that calls hooks one after another. As soon as a context was called, there is one slot
less than there are calls. -/
theorem HookPlan.exists_reachable (plan : HookPlan) {key : String} {i j : Nat}
    (hi : (plan key)[i]? = some .useContext) (hj : j < (plan key).length) {n : Nat} (hn : n ≤ j) :
    ∃ m : Machine, HookReachable plan m ∧ m.realm.hooks.frames = [⟨key, n⟩]
      ∧ m.heap = contextHeap
      ∧ m.realm.hooks.slotCount key + (if i < n then 1 else 0) ≤ n := by
  induction n with
  | zero =>
    let m₀ : Machine := { (default : Machine) with heap := contextHeap, realm.hooks := {} }
    have hstart : HookReachable plan m₀ := .start rfl rfl rfl
    exact ⟨_, hstart.step Evaluator.idle_quiet (.enter m₀ key), rfl, rfl, Nat.le_refl 0⟩
  | succ n ih =>
    obtain ⟨m, hm, hf, hh, hcount⟩ := ih (by omega)
    obtain ⟨hook, hp⟩ : ∃ hook, (plan key)[n]? = some hook :=
      ⟨_, List.getElem?_eq_getElem (by omega)⟩
    obtain ⟨v, m', hx⟩ := Hook.run_idle hook hf hh
    -- each hook of the plan is called with the context
    have hstep : HookReachable plan m' := hm.step Evaluator.idle_quiet (.call hf hp hx)
    -- the heap is put back for the next call
    let m'' : Machine := { m' with heap := contextHeap }
    have hnext : HookReachable plan m'' :=
      hstep.step Evaluator.idle_quiet (.other rfl rfl rfl rfl)
    refine ⟨m'', hnext, ?_⟩
    -- a context adds no slot, any other hook at most one
    by_cases hc : hook = .useContext
    · subst hc
      have heq := (Hook.run_useContext_ends hf contextArgs).ok hx
      refine ⟨congrArg HookStore.frames heq, rfl, ?_⟩
      have hcount' : m''.realm.hooks.slotCount key = m.realm.hooks.slotCount key :=
        congrArg (·.slotCount key) heq
      rw [hcount']
      split <;> split at hcount <;> omega
    · obtain ⟨s, c, hst⟩ := (Hook.run_ends Evaluator.idle_quiet hf hc contextArgs).ok hx
      refine ⟨hst.frames.trans hst.updates.frames, rfl, ?_⟩
      have hcount' : m''.realm.hooks.slotCount key ≤ m.realm.hooks.slotCount key + 1 :=
        hst.slotCount_le
      have hne : i ≠ n := by
        rintro rfl
        rw [hi] at hp
        cases hp
        exact hc rfl
      split <;> split at hcount <;> omega

/-- A hook that stores, called after a context, does not find its slot. -/
theorem HookPlan.Stable.contextsLast (h : plan.Stable) : plan.ContextsLast := by
  intro key
  refine List.pairwise_iff_getElem.2 fun i j hi hj hij hctx => ?_
  by_cases hc : (plan key)[j] = .useContext
  · exact hc
  · have hctx' : (plan key)[i]? = some .useContext := by rw [List.getElem?_eq_getElem hi, hctx]
    obtain ⟨m, hm, hf, hh, hcount⟩ := plan.exists_reachable hctx' hj (Nat.le_refl j)
    obtain ⟨v, m', hx⟩ := Hook.run_idle (plan key)[j] hf hh
    have hp : (plan key)[j]? = some (plan key)[j] := List.getElem?_eq_getElem hj
    obtain ⟨c, hslot, -⟩ := h.calls Evaluator.idle_quiet hm (.call hf hp hx) hc
    obtain ⟨s, c', hst⟩ := (Hook.run_ends Evaluator.idle_quiet hf hc contextArgs).ok hx
    have hlt := (HookStore.slot?_isSome _ _ _).1 (by rw [hslot]; rfl)
    have hle := hst.slotCount_le
    rw [if_pos hij] at hcount
    dsimp only at hlt hle
    omega

/-- The slots of a plan are stable just when no hook that stores comes after a context. -/
theorem HookPlan.stable_iff (plan : HookPlan) : plan.Stable ↔ plan.ContextsLast :=
  ⟨Stable.contextsLast, ContextsLast.stable⟩

/-- A component that reads a context and then has a state. -/
theorem HookPlan.not_stable_context_state :
    ¬ HookPlan.Stable fun _ => [.useContext, .useState] := by
  intro h
  have hl := h.contextsLast "root:App#1"
  revert hl
  decide

end Runs

end TsxPreview
