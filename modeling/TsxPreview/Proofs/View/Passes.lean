import TsxPreview.Proofs.Hooks.Carrying
import TsxPreview.Proofs.View.Places
import TsxPreview.Proofs.View.Stages

/-!
What a pass does to the slots. The instances that it shows find what was carried along to them and
leave what is carried on; the slots of all others are dropped and their cleanups called. So an
instance that two passes show in a row finds in the second what it left in the first; what only the
second shows starts anew, and what only the first showed is unmounted.
-/

namespace TsxPreview

open HookSlot

namespace HookStore

/-- Instances were shown one after another, between two stores. -/
structure Shows (shown : List Instance) (s s' : HookStore) : Prop where
  openKeys : s'.openKeys = s.openKeys
  visited : s'.visited = (shown.map Instance.key).reverse ++ s.visited
  names : s.slots.keys.Nodup → s'.slots.keys.Nodup
  notes : ∃ calls, s'.history = calls ++ s.history ∧ ∀ n ∈ calls, n.IsCall
  updates : s.updates <:+ s'.updates
  stays : ∀ key, s.slots.get? key ≠ none → s'.slots.get? key ≠ none
  others : s.openKeys = [] → ∀ key ∉ shown.map Instance.key,
    Throughout (fun i => Carried (s.Still s' (key, i))) (s.slots.get? key) (s'.slots.get? key)
  found : s.openKeys = [] → ∀ x ∈ shown, (shown.map Instance.key).count x.key = 1 →
    Throughout (fun i => Carried (s.Still s' (x.key, i))) (s.slots.get? x.key) x.found
  left : s.openKeys = [] → ∀ x ∈ shown, (shown.map Instance.key).count x.key = 1 →
    Throughout (fun i => Carried (s.Still s' (x.key, i))) x.left (s'.slots.get? x.key)

variable {s s' : HookStore}

/-- An instance whose key is used once was shown in one of two parts, and the other part does not
use the key. -/
theorem sole {first second : List Instance} {x : Instance} (hx : x ∈ first ++ second)
    (once : ((first ++ second).map Instance.key).count x.key = 1) :
    (x ∈ first ∧ (first.map Instance.key).count x.key = 1 ∧ x.key ∉ second.map Instance.key) ∨
      (x ∈ second ∧ (second.map Instance.key).count x.key = 1 ∧
        x.key ∉ first.map Instance.key) := by
  rw [List.map_append, List.count_append] at once
  simp only [← List.count_eq_zero]
  obtain mine | mine := List.mem_append.1 hx
  · have := List.count_pos_iff.2 (List.mem_map_of_mem (f := Instance.key) mine)
    exact .inl ⟨mine, by omega, by omega⟩
  · have := List.count_pos_iff.2 (List.mem_map_of_mem (f := Instance.key) mine)
    exact .inr ⟨mine, by omega, by omega⟩

theorem Shows.trans {a b c : HookStore} {first second : List Instance} (h : Shows first a b)
    (h' : Shows second b c) : Shows (first ++ second) a c := by
  have split {place : String × Nat} : a.Still c place → a.Still b place ∧ b.Still c place :=
    Still.split h.updates h'.updates
  exact {
    openKeys := h'.openKeys.trans h.openKeys
    visited := by
      rw [h'.visited, h.visited, List.map_append, List.reverse_append, List.append_assoc]
    names := h'.names ∘ h.names
    notes := by
      obtain ⟨calls, eq, only⟩ := h.notes
      obtain ⟨more, eq', only'⟩ := h'.notes
      exact ⟨more ++ calls, by rw [eq', eq, List.append_assoc],
        List.forall_mem_append.2 ⟨only', only⟩⟩
    updates := h.updates.trans h'.updates
    stays := fun key there => h'.stays key (h.stays key there)
    others := fun closed key hk => by
      rw [List.map_append, List.mem_append, not_or] at hk
      exact (h.others closed key hk.1).trans (h'.others (h.openKeys.trans closed) key hk.2)
        fun _ _ _ _ k k' => k.trans k' split
    found := fun closed x hx once => by
      obtain ⟨mine, one, before⟩ | ⟨mine, one, before⟩ := sole hx once
      · exact (h.found closed x mine one).mono fun _ _ _ k => k.mono fun still => (split still).1
      · exact (h.others closed _ before).trans (h'.found (h.openKeys.trans closed) x mine one)
          fun _ _ _ _ k k' => k.trans k' split
    left := fun closed x hx once => by
      obtain ⟨mine, one, after⟩ | ⟨mine, one, after⟩ := sole hx once
      · exact (h.left closed x mine one).trans (h'.others (h.openKeys.trans closed) _ after)
          fun _ _ _ _ k k' => k.trans k' split
      · exact (h'.left (h.openKeys.trans closed) x mine one).mono
          fun _ _ _ k => k.mono fun still => (split still).2 }

theorem Reaches.shows (h : s.Reaches s') : Shows [] s s' where
  openKeys := h.openKeys
  visited := h.visited
  names := h.names
  notes := h.history
  updates := h.updates
  stays _ := h.stays
  others closed key _ := h.carried (by simp [closed])
  found _ x hx := by cases hx
  left _ x hx := by cases hx

theorem calm_shows : HookStore.Calm (Shows []) where
  trans h h' := h.trans h'
  reaches h := h.shows

/-- What changes nothing but providers. -/
theorem shows_of_eq (hs : s'.slots = s.slots) (hf : s'.frames = s.frames)
    (hv : s'.visited = s.visited) (hu : s'.updates = s.updates) (hh : s'.history = s.history) :
    Shows [] s s' where
  openKeys := congrArg (List.map Frame.key) hf
  visited := hv
  names := hs ▸ id
  notes := ⟨[], hh, fun n hn => by cases hn⟩
  updates := hu ▸ List.suffix_rfl
  stays _ there := hs ▸ there
  others _ key _ := by
    rw [hs]
    exact .refl (fun _ => Carried.refl _) _
  found _ x hx := by cases hx
  left _ x hx := by cases hx

/-- A component is called between its marks. -/
theorem shows_visit (x : Instance) (found : x.found = s.slots.get? x.key)
    (called : (s.enter x.key).Reaches s') (left : x.left = s'.slots.get? x.key) :
    Shows [x] s s'.leave where
  openKeys := by
    have same : s'.frames.map Frame.key = x.key :: s.openKeys := called.openKeys
    show s'.frames.tail.map Frame.key = s.openKeys
    rw [List.map_tail, same, List.tail_cons]
  visited := called.visited
  names := called.names
  notes := called.history
  updates := called.updates
  stays _ := called.stays
  others _ key hk :=
    called.carried fun same => hk <| List.mem_singleton.2 (Option.some.inj same).symm
  found _ y hy _ := by
    obtain rfl := List.mem_singleton.1 hy
    rw [found]
    exact .refl (fun _ => Carried.refl _) _
  left _ y hy _ := by
    obtain rfl := List.mem_singleton.1 hy
    rw [left]
    exact .refl (fun _ => Carried.refl _) _

end HookStore

/-! ## Passes -/

namespace HookStore

theorem get?_sweep (s : HookStore) (key : String) :
    s.sweep.2.slots.get? key = if key ∈ s.visited then s.slots.get? key else none := by
  unfold sweep
  dsimp only
  rw [Record.get?_filter s.slots fun key => s.visited.contains key]
  simp

/-- A pass that ended well and showed the given instances. -/
structure Passed (shown : List Instance) (s s' : HookStore) : Prop where
  openKeys : s'.openKeys = []
  visited : s'.visited = (shown.map Instance.key).reverse
  names : s.slots.keys.Nodup → s'.slots.keys.Nodup
  updates : s.updates <:+ s'.updates
  found : ∀ x ∈ shown, (shown.map Instance.key).count x.key = 1 →
    Throughout (fun i => Carried (s.Still s' (x.key, i))) (s.slots.get? x.key) x.found
  left : ∀ x ∈ shown, (shown.map Instance.key).count x.key = 1 →
    Throughout (fun i => Retained (s.Still s' (x.key, i))) x.left (s'.slots.get? x.key)
  stays : ∀ key ∈ shown.map Instance.key, s.slots.get? key ≠ none → s'.slots.get? key ≠ none
  dropped : ∀ key ∉ shown.map Instance.key, s'.slots.get? key = none
  cleaned : s.slots.keys.Nodup → ∃ new, s'.history = new ++ s.history ∧
    ((leftCleanups new).map Prod.fst).Nodup ∧
    ∀ place c, (place, c) ∈ leftCleanups new ↔
      place.1 ∉ shown.map Instance.key ∧ s.cleanupAt place = some c

theorem Shows.passed {shown : List Instance} {s s₁ s' : HookStore} (h : Shows shown s.beginPass s₁)
    (tended : Tended s₁.sweep.1 s₁.sweep.2 s') : Passed shown s s' := by
  have closed : s.beginPass.openKeys = [] := rfl
  have closed' : s₁.sweep.2.openKeys = [] := h.openKeys
  have visited : s₁.visited = (shown.map Instance.key).reverse := by
    rw [h.visited]
    exact List.append_nil _
  have there (key : String) : key ∈ s₁.visited ↔ key ∈ shown.map Instance.key := by
    rw [visited, List.mem_reverse]
  have split {place : String × Nat} (still : s.Still s' place) :
      s.beginPass.Still s₁ place ∧ s₁.sweep.2.Still s' place :=
    Still.split (s := s.beginPass) h.updates tended.updates still
  -- what the sweep leaves of an instance, and what follows makes of it
  have kept (key : String) : Throughout (fun i => Retained (s₁.sweep.2.Still s' (key, i)))
      (if key ∈ shown.map Instance.key then s₁.slots.get? key else none) (s'.slots.get? key) := by
    simp only [← there, ← get?_sweep]
    exact tended.slots closed' key
  exact {
    openKeys := tended.openKeys.trans closed'
    visited := tended.visited.trans visited
    names := fun names => tended.names <|
      (h.names names).sublist (List.filter_sublist.map Prod.fst)
    updates := h.updates.trans tended.updates
    found := fun x hx once => (h.found closed x hx once).mono
      fun _ _ _ k => k.mono fun still => (split still).1
    left := fun x hx once => by
      have after := kept x.key
      rw [if_pos (List.mem_map_of_mem hx)] at after
      exact (h.left closed x hx once).trans after fun _ _ _ _ k k' => k.retained.trans k' split
    stays := fun key hk some => by
      have after := kept key
      rw [if_pos hk] at after
      exact mt after.eq_none_iff.1 (h.stays key some)
    dropped := fun key hk => by
      have after := kept key
      rw [if_neg hk] at after
      exact after.eq_none_iff.2 rfl
    cleaned := fun names => by
      obtain ⟨calls, eq, only⟩ := h.notes
      obtain ⟨new, eq', cleaned⟩ := tended.notes
      have all : leftCleanups (new ++ .swept s₁.visited :: calls) = s₁.sweep.1 := by
        rw [leftCleanups_append, cleaned, ← List.singleton_append, leftCleanups_append,
          leftCleanups_of_calls only]
        rfl
      refine ⟨new ++ .swept s₁.visited :: calls, ?_, ?_, fun place c => ?_⟩
      · rw [eq']
        show new ++ .swept s₁.visited :: s₁.history = _
        rw [eq, List.append_assoc, List.cons_append]
        rfl
      · rw [all]
        exact nodup_sweep (h.names names)
      · rw [all, mem_sweep (h.names names), there]
        refine and_congr_right fun gone => ?_
        rw [cleanupAt_of_carried (h.others closed _ gone)]
        rfl }

end HookStore

/-! ## Work that ends well -/

namespace View

open HookStore

variable {α β : Type} {P : HookStore → Prop} {Q : α → HookStore → Prop}

/-- Where `P` holds before, `Q` holds after the work, if it ends well. -/
def Leads (P : HookStore → Prop) (x : View α) (Q : α → HookStore → Prop) : Prop :=
  ∀ s a s', x.outcome s = (.ok a, s') → P s.machine.realm.hooks → Q a s'.machine.realm.hooks

theorem Leads.bind {x : View α} {f : α → View β} {S : β → HookStore → Prop} (hx : Leads P x Q)
    (hf : ∀ a, Leads (Q a) (f a) S) : Leads P (x >>= f) S := by
  intro s b s' run start
  rw [outcome_bind] at run
  cases hr : x.outcome s with
  | mk r s₁ =>
    rw [hr] at run
    cases r with
    | error e => cases run
    | ok a => exact hf a s₁ b s' run (hx s a s₁ hr start)

theorem Leads.pre {x : View α} {P' : HookStore → Prop} (h : Leads P x Q) (le : ∀ s, P' s → P s) :
    Leads P' x Q :=
  fun s a s' run start => h s a s' run (le _ start)

theorem Leads.post {x : View α} {Q' : α → HookStore → Prop} (h : Leads P x Q)
    (le : ∀ a s, Q a s → Q' a s) : Leads P x Q' :=
  fun s a s' run start => le a _ (h s a s' run start)

theorem leads_pure {a : α} (h : ∀ s, P s → Q a s) : Leads P (pure a) Q := by
  rintro s b s' run start
  cases run
  exact h _ start

theorem leads_throw (e : ScriptError) : Leads P (throw e : View α) Q := fun _ _ _ run _ => by
  cases run

theorem leads_of_ends {x : Script α}
    (h : ∀ m, P m.realm.hooks → Script.Ends x m (fun a m' => Q a m'.realm.hooks) fun _ => True) :
    Leads P (script x) Q := by
  intro s a s' run start
  rw [outcome_script] at run
  have ends := h s.machine start
  unfold Script.Ends at ends
  unfold Script.outcome at run
  cases hx : x s.machine with
  | error e m =>
    rw [hx] at run
    cases run
  | ok b m =>
    rw [hx] at run ends
    cases run
    exact ends

theorem leads_modifyHooks {f : HookStore → HookStore} {Q : Unit → HookStore → Prop}
    (h : ∀ s, P s → Q () (f s)) : Leads P (script (Script.modifyHooks f)) Q :=
  leads_of_ends fun _ start => h _ start

/-- Work that keeps a relation, after what led to where it begins. -/
theorem Within.leads {R : HookStore → HookStore → Prop} {x : View α} (h : Within R x) :
    Leads P x fun _ s' => ∃ s, P s ∧ R s s' := fun s a s' run start =>
  ⟨_, start, by simpa [run] using h s⟩

theorem Leads.finallyHooks {f : HookStore → HookStore} {x : View α} (h : Leads P x Q) :
    Leads P (finallyHooks f x) fun a s' => ∃ s, Q a s ∧ s' = f s := by
  intro s a s' run start
  unfold outcome View.finallyHooks at run
  cases hx : x s with
  | error e s₁ =>
    rw [hx] at run
    cases run
  | ok b s₁ =>
    rw [hx] at run
    cases run
    exact ⟨_, h s _ s₁ (by unfold outcome; rw [hx]) start, rfl⟩

end View

/-! ## Rendering -/

namespace Render

open View HookStore

variable {ev : Evaluator} {s₀ : HookStore} {shown : List Instance}

section

variable (hev : ev.Within fun m m' => m.realm.hooks.Reaches m'.realm.hooks)

/-- What shows nothing leaves what was shown. -/
theorem leads_silent {α : Type} {x : View α} (h : Within (Shows []) x) :
    Leads (Shows shown s₀) x fun _ => Shows shown s₀ := by
  intro s a s' run start
  obtain ⟨s₁, first, rest⟩ := h.leads s a s' run start
  simpa using first.trans rest

theorem leads_slotsOf {P : HookStore → Prop} (key : String) :
    Leads P (slotsOf key) fun slots s => P s ∧ slots = s.slots.get? key :=
  leads_of_ends fun _ start => ⟨start, rfl⟩

include hev

theorem leads_visit (position : String) (component : Value) (props : ObjectRef) :
    Leads (Shows shown s₀) (visit ev position component props)
      fun r => Shows (shown ++ r.2.instances position) s₀ := by
  have called {P : HookStore → Prop} : Leads P (script (ev.apply component [.object props]))
      fun _ s' => ∃ s, P s ∧ s.Reaches s' :=
    (within_script fun m => hev.call component .undefined [.object props] m).leads
  refine (leads_slotsOf _).bind fun found => .bind (leads_modifyHooks (Q := fun _ s' => ∃ s,
      Shows shown s₀ s ∧ found = s.slots.get? (instanceKey position component) ∧
        s' = s.enter (instanceKey position component)) fun s h => ⟨s, h.1, h.2, rfl⟩) fun _ =>
    .bind called.finallyHooks fun output => (leads_slotsOf _).bind fun left => leads_pure ?_
  rintro _ ⟨⟨s', ⟨_, ⟨s, first, rfl, rfl⟩, reached⟩, rfl⟩, rfl⟩
  exact first.trans (shows_visit ⟨position, component, _, _⟩ rfl reached rfl)

/-- What a rendered value shows is the instances of the scene that it gives. -/
def Displays (s₀ : HookStore) (shown : List Instance) (value : Value) (position : String)
    (scene : Scene) (s : HookStore) : Prop :=
  scene.key? = value.elementKey? ∧ Shows (shown ++ scene.instances position) s₀ s

omit hev in
theorem leads_renderItems {render : Value → String → View Scene}
    (hr : ∀ shown item position, Leads (Shows shown s₀) (render item position)
      (Displays s₀ shown item position)) (position : String) (i : Nat) (items : List Value) :
    Leads (Shows shown s₀) (renderItems render position i items)
      fun scenes => Shows (shown ++ Scene.instancesAll position i scenes) s₀ := by
  induction items generalizing i shown with
  | nil => exact leads_pure fun s h => by simpa [Scene.instancesAll] using h
  | cons item rest ih =>
    refine (hr shown item _).bind fun scene => ?_
    rintro s scenes s' run ⟨key, first⟩
    have others : Leads
        (Shows (shown ++ scene.instances (itemPosition position i item.elementKey?)) s₀)
        (do return scene :: (← renderItems render position (i + 1) rest))
        fun scenes => Shows (shown ++ Scene.instancesAll position i scenes) s₀ :=
      (ih (i + 1)).bind fun scenes => leads_pure fun s second => by
        rwa [Scene.instancesAll, key, ← List.append_assoc]
    exact others s scenes s' run first

theorem leads_render (levels : Nat) (parent : NodeId) (value : Value) (position : String) :
    Leads (Shows shown s₀) (render ev levels parent value position)
      (Displays s₀ shown value position) := by
  induction levels generalizing shown parent value position with
  | zero => exact leads_throw _
  | succ levels ih =>
    -- what shows no instance
    have nothing {key : Option String} {part : Part} (hp : part.instances position = []) (s)
        (h : Shows shown s₀ s) :
        Shows (shown ++ (Scene.element key part .plain).instances position) s₀ s := by
      simpa [Scene.instances, hp] using h
    have plain (s) (h : Shows shown s₀ s) :
        Shows (shown ++ Scene.plain.instances position) s₀ s := by
      simpa [Scene.instances] using h
    -- an element around what its child shows
    have around {key : Option String} {part : Part} (hp : part.instances position = [])
        {child : Value} {scene : Scene} (s)
        (h : Displays s₀ shown child (part.below position) scene s) :
        Shows (shown ++ (Scene.element key part scene).instances position) s₀ s := by
      simpa [Scene.instances, hp] using h.2
    have text (parent : NodeId) (content : String) :
        Leads (Shows shown s₀) (placeText parent content) fun _ => Shows shown s₀ :=
      leads_silent (calm_shows.within_placeText parent content)
    have read {α : Type} (f : Heap → α) :
        Leads (Shows shown s₀) (script (Script.onHeap f)) fun _ => Shows shown s₀ :=
      leads_silent (calm_shows.within_read f)
    unfold render
    cases value with
    | undefined | null | bool | closure | native | icons =>
      exact leads_pure fun s h => ⟨rfl, plain s h⟩
    | number | string => exact (text parent _).bind fun _ => leads_pure fun s h => ⟨rfl, plain s h⟩
    | array r =>
      exact (read _).bind fun items =>
        (leads_renderItems (fun shown item position => ih parent item position) position 0
          items).bind fun scenes => leads_pure fun s h => ⟨rfl, h⟩
    | object r => exact (read _).bind fun keys => leads_throw _
    | element id type props key =>
      have children :
          Leads (Shows shown s₀) (propertyOf props "children") fun _ => Shows shown s₀ :=
        read _
      cases type with
      | tag tag =>
        refine (leads_silent (calm_shows.within_place parent _)).bind fun node =>
          (read _).bind fun entries =>
          (leads_silent (within_applyProperties calm_shows hev node tag props none entries)).bind
            fun inner => ?_
        cases inner with
        | some content =>
          exact (text node content).bind fun _ => leads_pure fun s h => ⟨rfl, nothing rfl s h⟩
        | none =>
          exact children.bind fun child =>
            (ih node child _).bind fun scene => leads_pure fun s h => ⟨rfl, around rfl s h⟩
      | fragment =>
        exact children.bind fun child =>
          (ih parent child position).bind fun scene => leads_pure fun s h => ⟨rfl, around rfl s h⟩
      | provider context =>
        have child : Leads (Shows shown s₀)
            (do render ev levels parent (← propertyOf props "children") position)
            fun scene => Shows (shown ++ scene.instances position) s₀ :=
          children.bind fun child => (ih parent child position).post fun _ _ h => h.2
        have pushed (given : Value) : Leads (Shows shown s₀)
            (script (Script.modifyHooks (·.pushProvider context given))) fun _ => Shows shown s₀ :=
          leads_silent (within_modifyHooks fun s => shows_of_eq rfl rfl rfl rfl rfl)
        refine (read _).bind fun given => (pushed given).bind fun _ =>
          child.finallyHooks.bind fun scene => leads_pure ?_
        rintro _ ⟨s, h, rfl⟩
        refine ⟨rfl, ?_⟩
        have popped : Shows [] s s.popProvider := shows_of_eq rfl rfl rfl rfl rfl
        simpa [Scene.instances, Part.instances, Part.below] using h.trans popped
      | consumer context =>
        exact .bind (leads_silent (within_script fun _ => calm_shows.refl _)) fun given =>
          children.bind fun child =>
          .bind (leads_silent (within_script fun m => calm_shows.reaches (hev.call _ _ _ m)))
            fun output =>
          (ih parent output _).bind fun scene => leads_pure fun s h => ⟨rfl, around rfl s h⟩
      | component component =>
        refine (leads_visit hev position component props).bind fun r =>
          (ih parent r.1 _).bind fun scene => leads_pure fun s h => ⟨rfl, ?_⟩
        rw [Scene.instances, ← List.append_assoc]
        exact h.2

/-- A pass that ends well shows the instances of the scene that it gives. -/
theorem pass_passed {container : NodeId} {root : Value} {s s' : Stage} {scene : Scene}
    (run : (pass ev container root).outcome s = (.ok scene, s')) :
    Passed (scene.instances rootPosition) s.machine.realm.hooks s'.machine.realm.hooks := by
  have swept (scene : Scene) : Leads
      (Displays s.machine.realm.hooks.beginPass [] root rootPosition scene) (script (Hook.sweep ev))
      fun _ s₂ => ∃ s₁, Shows (scene.instances rootPosition) s.machine.realm.hooks.beginPass s₁ ∧
        Tended s₁.sweep.1 s₁.sweep.2 s₂ :=
    leads_of_ends fun m shown => (Hook.sweep_tends hev m).mono
      (fun _ _ tended => ⟨_, shown.2, tended⟩) fun _ _ => trivial
  have ran (scene : Scene) : Leads
      (fun s₂ => ∃ s₁, Shows (scene.instances rootPosition) s.machine.realm.hooks.beginPass s₁ ∧
        Tended s₁.sweep.1 s₁.sweep.2 s₂) (script (Hook.runPending ev))
      fun _ => Passed (scene.instances rootPosition) s.machine.realm.hooks := by
    refine leads_of_ends fun m => ?_
    rintro ⟨s₁, shown, tended⟩
    refine (Hook.tends_runPending hev m).mono (fun _ _ rest => shown.passed ?_) fun _ _ => trivial
    simpa using tended.trans rest
  have leads : Leads (· = s.machine.realm.hooks) (pass ev container root)
      fun scene => Passed (scene.instances rootPosition) s.machine.realm.hooks :=
    .bind (leads_modifyHooks (Q := fun _ => Shows [] s.machine.realm.hooks.beginPass)
      fun _ start => start ▸ calm_shows.refl _) fun _ =>
    .bind (leads_silent (calm_shows.within_modifyDocument _)) fun _ =>
    (leads_render hev _ container root rootPosition).bind fun scene =>
    (swept scene).bind fun _ => (ran scene).bind fun _ => leads_pure fun _ h => h
  exact leads s scene s' run rfl

end

end Render

end TsxPreview

namespace TsxPreview

/-! ## Two passes in a row -/

open HookSlot HookStore

/-- An instance is unmounted between two stores: its slots are gone, and each of its cleanups is
called once. -/
structure HookStore.Unmounts (key : String) (s s' : HookStore) : Prop where
  gone : s'.slots.get? key = none
  cleaned : ∃ new, s'.history = new ++ s.history ∧ ((leftCleanups new).map Prod.fst).Nodup ∧
    ∀ i c, s.cleanupAt (key, i) = some c → ((key, i), c) ∈ leftCleanups new

/-- Instances with the same keys are related one by one. -/
theorem forall₂_of_keys {R : Instance → Instance → Prop} {xs ys : List Instance}
    (same : xs.map Instance.key = ys.map Instance.key)
    (each : ∀ x ∈ xs, ∀ y ∈ ys, x.key = y.key → R x y) :
    List.Forall₂ (fun x y => x.key = y.key ∧ R x y) xs ys := by
  induction xs generalizing ys with
  | nil =>
    obtain rfl := List.map_eq_nil_iff.1 same.symm
    exact .nil
  | cons x xs ih =>
    cases ys with
    | nil => cases same
    | cons y ys =>
      obtain ⟨key, rest⟩ := List.cons.inj same
      exact .cons ⟨key, each x List.mem_cons_self y List.mem_cons_self key⟩ <|
        ih rest fun x hx y hy => each x (List.mem_cons_of_mem _ hx) y (List.mem_cons_of_mem _ hy)

namespace Scene

theorem exists_placed {item : Scene} {items : List Scene} (h : item ∈ items) (p : String)
    (i : Nat) : ∃ q, (q, item) ∈ placed p i items := by
  induction items generalizing i with
  | nil => cases h
  | cons first rest ih =>
    obtain rfl | h := List.mem_cons.1 h
    · exact ⟨_, List.mem_cons_self⟩
    · obtain ⟨q, hq⟩ := ih h (i + 1)
      exact ⟨q, List.mem_cons_of_mem _ hq⟩

/-- The instances in those items of an array whose keys no items of another array have. -/
def removed (place : String) (as bs : List Scene) : List String :=
  ((placed place 0 as).filter fun a => bs.all fun b => b.key? != a.2.key?).flatMap fun a =>
    a.2.keys a.1

variable {place p key : String} {as bs : List Scene} {s : Scene}

theorem mem_removed : key ∈ removed place as bs ↔
    ∃ a ∈ placed place 0 as, (∀ b ∈ bs, b.key? ≠ a.2.key?) ∧ key ∈ a.2.keys a.1 := by
  simp [removed, and_assoc]

theorem mem_instances_of_item {a : String × Scene} (ha : a ∈ placed place 0 as)
    (there : (place, as) ∈ s.arrays p) {x : Instance} (hx : x ∈ a.2.instances a.1) :
    x ∈ s.instances p :=
  mem_instances_of_place (l := (place, list as)) (mem_instancesAll.2 ⟨a, ha, hx⟩) p s
    (mem_arrays.1 there)

theorem mem_keys_of_item {a : String × Scene} (ha : a ∈ placed place 0 as)
    (there : (place, as) ∈ s.arrays p) (hk : key ∈ a.2.keys a.1) : key ∈ s.keys p := by
  obtain ⟨x, hx, rfl⟩ := List.mem_map.1 hk
  exact List.mem_map_of_mem (mem_instances_of_item ha there hx)

theorem count_keys_of_item {a : String × Scene} (ha : a ∈ placed place 0 as)
    (keyed : s.KeyedTo place p) (there : (place, as) ∈ s.arrays p) {x : Instance}
    (hx : x ∈ a.2.instances a.1) : (s.keys p).count x.key = (a.2.keys a.1).count x.key := by
  have under := under_key _ _ x hx
  have above := placed_under ha
  have longer := above.length_le.trans_lt (length_lt_key _ _ x hx)
  rw [count_keys_of_place (l := (place, list as)) (above.trans under) longer p s keyed
    (mem_arrays.1 there)]
  exact (keyed.keysApart there).count_instancesAll ha under

theorem not_mem_keys_of_removed (apart : KeysApart as) (keyed : s.KeyedTo place p)
    (there : (place, bs) ∈ s.arrays p) (hk : key ∈ removed place as bs) : key ∉ s.keys p := by
  obtain ⟨a, ha, gone, hk⟩ := mem_removed.1 hk
  obtain ⟨x, hx, rfl⟩ := List.mem_map.1 hk
  intro mem
  obtain ⟨b, hb, same⟩ := exists_item_of_under apart ha keyed there mem (under_key _ _ x hx)
  exact gone b hb same

end Scene

namespace Render

/-- Two passes that end well and show scenes, with whatever scripts do between them. The stores are
those before the first pass, before the second one and after it. -/
structure Successive (A B : Scene) (s₀ s s' : HookStore) : Prop where
  first : ∃ container root m m', (pass Evaluator.standard container root).outcome m = (.ok A, m') ∧
    m.machine.realm.hooks = s₀ ∧ m'.machine.realm.hooks.Reaches s
  second : ∃ container root m m',
    (pass Evaluator.standard container root).outcome m = (.ok B, m') ∧
    m.machine.realm.hooks = s ∧ m'.machine.realm.hooks = s'
  /-- No instance is listed twice. -/
  names : s₀.slots.keys.Nodup

namespace Successive

variable {A B : Scene} {s₀ s s' : HookStore} (h : Successive A B s₀ s s')

include h

theorem passed_first : ∃ s₁, Passed (A.instances rootPosition) s₀ s₁ ∧ s₁.Reaches s := by
  obtain ⟨container, root, m, m', run, rfl, reached⟩ := h.first
  exact ⟨_, pass_passed Evaluator.reaches_standard run, reached⟩

theorem passed_second : Passed (B.instances rootPosition) s s' := by
  obtain ⟨container, root, m, m', run, rfl, rfl⟩ := h.second
  exact pass_passed Evaluator.reaches_standard run

theorem names_second : s.slots.keys.Nodup := by
  obtain ⟨s₁, passed, reached⟩ := h.passed_first
  exact reached.names (passed.names h.names)

/-- Between the passes, only what the first one showed has slots. -/
theorem none_of_not_shown {key : String} (hk : key ∉ A.keys rootPosition) :
    s.slots.get? key = none := by
  obtain ⟨s₁, passed, reached⟩ := h.passed_first
  have carried : Throughout _ _ (s.slots.get? key) := reached.carried (by simp [passed.openKeys])
  exact carried.eq_none_iff.2 (passed.dropped key hk)

/-- What both passes show finds what it left, if it shares its key with nothing else. -/
theorem kept {x y : Instance} (hx : x ∈ A.instances rootPosition)
    (hy : y ∈ B.instances rootPosition) (same : x.key = y.key)
    (sole : (A.keys rootPosition).count x.key = 1)
    (sole' : (B.keys rootPosition).count y.key = 1) :
    Throughout (fun i => Retained (s₀.Still s' (x.key, i))) x.left y.found := by
  obtain ⟨s₁, passed, reached⟩ := h.passed_first
  have again := h.passed_second
  have left := passed.left x hx sole
  have closed : s₁.openKeys.head? ≠ some x.key := by simp [passed.openKeys]
  have carried := reached.carried closed
  have found := again.found y hy sole'
  rw [← same] at found
  have splitLater {place : String × Nat} (still : s₁.Still s' place) :
      s₁.Still s place ∧ s.Still s' place :=
    Still.split reached.updates again.updates still
  refine left.trans (carried.trans found fun _ _ _ _ k k' => k.trans k' splitLater)
    fun _ _ _ _ k k' => k.trans k'.retained ?_
  exact Still.split passed.updates (reached.updates.trans again.updates)

/-- What only the second pass shows starts anew. -/
theorem fresh (keyed' : B.wellKeyed) {y : Instance} (hy : y ∈ B.instances rootPosition)
    (new : y.key ∉ A.keys rootPosition) : y.found = none := by
  have sole : (B.keys rootPosition).count y.key = 1 :=
    List.count_eq_one_of_mem (B.nodup_keys rootPosition keyed') (List.mem_map_of_mem hy)
  exact (h.passed_second.found y hy sole).eq_none_iff.2 (h.none_of_not_shown new)

/-- What the second pass does not show is unmounted. -/
theorem unmounts {key : String} (gone : key ∉ B.keys rootPosition) : Unmounts key s s' := by
  have passed := h.passed_second
  obtain ⟨new, eq, once, cleaned⟩ := passed.cleaned h.names_second
  exact ⟨passed.dropped key gone, new, eq, once, fun i c there => (cleaned _ c).2 ⟨gone, there⟩⟩

end Successive

end Render

end TsxPreview
