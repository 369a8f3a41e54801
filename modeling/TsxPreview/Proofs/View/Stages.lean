import TsxPreview.Proofs.Script.Levels
import TsxPreview.View.Render

/-!
Relations between the stores of hooks before and after work on a document. Rendering keeps every
relation that scripts keep, and that does not notice which instances are being rendered.
-/

namespace TsxPreview

namespace View

variable {α β : Type} {R : HookStore → HookStore → Prop} {x : View α}

/-- However work ends, the store of hooks that it leaves is related to the one before. -/
def Within (R : HookStore → HookStore → Prop) (x : View α) : Prop :=
  ∀ s : Stage, R s.machine.realm.hooks (x.outcome s).2.machine.realm.hooks

theorem outcome_bind (x : View α) (f : α → View β) (s : Stage) :
    (x >>= f).outcome s =
      match x.outcome s with
      | (.ok a, s') => (f a).outcome s'
      | (.error e, s') => (.error e, s') := by
  show outcome (EStateM.bind x f) s = _
  unfold outcome EStateM.bind
  cases x s <;> rfl

theorem outcome_script (x : Script α) (s : Stage) :
    (script x).outcome s =
      ((x.outcome s.machine).1, ⟨(x.outcome s.machine).2, s.document⟩) := by
  unfold outcome Script.outcome script
  simp only [liftM, monadLift, MonadLift.monadLift]
  cases x s.machine <;> rfl

theorem within_script {x : Script α}
    (h : Script.Within (fun m m' => R m.realm.hooks m'.realm.hooks) x) : Within R (script x) := by
  intro s
  rw [outcome_script]
  exact h s.machine

theorem within_modifyHooks {f : HookStore → HookStore} (hf : ∀ s, R s (f s)) :
    Within R (script (Script.modifyHooks f)) :=
  within_script fun _ => hf _

end View

/-- A relation of stores of hooks that scripts keep. -/
structure HookStore.Calm (R : HookStore → HookStore → Prop) : Prop where
  trans : ∀ {a b c}, R a b → R b c → R a c
  reaches : ∀ {s s'}, s.Reaches s' → R s s'

/-- A relation that the marks of instances and providers keep, too. -/
structure HookStore.Steady (R : HookStore → HookStore → Prop) : Prop extends HookStore.Calm R where
  enter : ∀ s key, R s (s.enter key)
  leave : ∀ s, R s s.leave
  pushProvider : ∀ s context value, R s (s.pushProvider context value)
  popProvider : ∀ s, R s s.popProvider

/-- A relation that a pass keeps once it has begun. -/
structure HookStore.Lasting (ev : Evaluator) (R : HookStore → HookStore → Prop) : Prop extends
    HookStore.Steady R where
  sweep : Script.Within (fun m m' => R m.realm.hooks m'.realm.hooks) (Hook.sweep ev)
  effects : Script.Within (fun m m' => R m.realm.hooks m'.realm.hooks) (Hook.runPending ev)

/-- A relation that passes keep, too. -/
structure HookStore.Enduring (ev : Evaluator) (R : HookStore → HookStore → Prop) : Prop extends
    HookStore.Lasting ev R where
  beginPass : ∀ s, R s s.beginPass

namespace HookStore.Calm

open View

variable {α β : Type} {R : HookStore → HookStore → Prop} (h : HookStore.Calm R)

include h

theorem refl (s : HookStore) : R s s := h.reaches .refl

theorem within_pure (a : α) : Within R (pure a : View α) := fun _ => h.refl _

theorem within_throw (e : ScriptError) : Within R (throw e : View α) := fun _ => h.refl _

theorem within_onDocument (f : Document → α) : Within R (onDocument f) := fun _ => h.refl _

theorem within_modifyDocument (f : Document → Document) : Within R (modifyDocument f) :=
  fun _ => h.refl _

theorem within_place (parent : NodeId) (kind : NodeKind) : Within R (place parent kind) :=
  fun _ => h.refl _

theorem within_bind {x : View α} {f : α → View β} (hx : Within R x) (hf : ∀ a, Within R (f a)) :
    Within R (x >>= f) := by
  intro s
  have first := hx s
  rw [View.outcome_bind]
  generalize x.outcome s = r at first
  obtain ⟨_ | a, s'⟩ := r
  · exact first
  · exact h.trans first (hf a s')

theorem within_placeText (parent : NodeId) (content : String) :
    Within R (placeText parent content) :=
  h.within_bind (h.within_place parent _) fun _ => h.within_pure _

/-- A script that does what scripts may do. -/
theorem within_made {ev : Evaluator} {x : Script α} (made : Script.Made ev x)
    (hev : ev.Within fun m m' => m.realm.hooks.Reaches m'.realm.hooks) : Within R (script x) :=
  within_script fun m => h.reaches (made.within Script.steady_reaches hev m)

theorem within_read (f : Heap → α) : Within R (script (Script.onHeap f)) :=
  within_script fun _ => h.refl _

theorem within_finallyHooks {f : HookStore → HookStore} {x : View α} (hf : ∀ s, R s (f s))
    (hx : Within R x) : Within R (finallyHooks f x) := by
  intro s
  have first := hx s
  unfold outcome finallyHooks at *
  cases hr : x s with
  | ok a s' =>
    rw [hr] at first
    exact h.trans first (hf _)
  | error e s' =>
    rw [hr] at first
    dsimp only at first ⊢
    split
    · exact first
    · exact h.trans first (hf _)

end HookStore.Calm

/-! ## Rendering -/

namespace Render

open View Script

variable {R : HookStore → HookStore → Prop} {ev : Evaluator}

theorem made_attachRef (reference : Value) (tag : String) (props : ObjectRef) :
    Made ev (attachRef ev reference tag props) := by
  unfold attachRef
  refine .bind (made_onHeap _) fun heap => .bind (made_alloc _) fun made => ?_
  split
  · exact made_setProperty _ _ _
  · split
    · exact .bind (Evaluator.made_apply _ _) fun _ => .pure _
    · exact .pure _

section

variable (h : HookStore.Calm R)
  (hev : ev.Within fun m m' => m.realm.hooks.Reaches m'.realm.hooks)

include h hev

theorem within_applyProperty (node : NodeId) (tag : String) (props : ObjectRef) (name : String)
    (value : Value) : Within R (applyProperty ev node tag props name value) := by
  unfold applyProperty
  split
  · exact h.within_pure _
  · exact h.within_pure _
  · exact h.within_made (made_attachRef value tag props) hev
  · refine h.within_bind (h.within_read _) fun css => ?_
    split
    · exact h.within_modifyDocument _
    · exact h.within_pure _
  · split
    · split
      · exact h.within_modifyDocument _
      · exact h.within_pure _
    · refine h.within_bind (h.within_read _) fun text => ?_
      cases text with
      | some text => exact h.within_modifyDocument _
      | none => exact h.within_pure _

theorem within_applyProperties (node : NodeId) (tag : String) (props : ObjectRef)
    (inner : Option String) (entries : List (String × Value)) :
    Within R (applyProperties ev node tag props inner entries) := by
  induction entries generalizing inner with
  | nil => exact h.within_pure _
  | cons entry rest ih =>
    obtain ⟨name, value⟩ := entry
    unfold applyProperties
    split
    · exact h.within_bind (h.within_read _) fun text => ih _
    · exact h.within_bind (within_applyProperty h hev node tag props name value) fun _ => ih _

end

section

variable (h : HookStore.Steady R)
  (hev : ev.Within fun m m' => m.realm.hooks.Reaches m'.realm.hooks)

include h

theorem within_renderItems {render : Value → String → View Scene}
    (hr : ∀ item position, Within R (render item position)) (position : String) (i : Nat)
    (items : List Value) : Within R (renderItems render position i items) := by
  induction items generalizing i with
  | nil => exact h.within_pure _
  | cons item rest ih =>
    exact h.within_bind (hr _ _) fun _ => h.within_bind (ih _) fun _ => h.within_pure _

include hev

theorem within_visit (position : String) (component : Value) (props : ObjectRef) :
    Within R (visit ev position component props) := by
  have slots (key : String) : Within R (slotsOf key) := within_script fun _ => h.refl _
  exact h.within_bind (slots _) fun _ =>
    h.within_bind (within_modifyHooks fun s => h.enter s _) fun _ =>
    h.within_bind (h.within_finallyHooks h.leave
      (within_script fun m => h.reaches (hev.call _ _ _ m))) fun _ =>
    h.within_bind (slots _) fun _ => h.within_pure _

/-- Rendering keeps what scripts keep. -/
theorem within_render (levels : Nat) (parent : NodeId) (value : Value) (position : String) :
    Within R (render ev levels parent value position) := by
  induction levels generalizing parent value position with
  | zero => exact h.within_throw _
  | succ levels ih =>
    unfold render
    cases value with
    | undefined | null | bool | closure | native | icons => exact h.within_pure _
    | number | string => exact h.within_bind (h.within_placeText parent _) fun _ => h.within_pure _
    | array r =>
      exact h.within_bind (h.within_read _) fun items =>
        h.within_bind (within_renderItems h (ih parent) _ _ _) fun _ => h.within_pure _
    | object r => exact h.within_bind (h.within_read _) fun keys => h.within_throw _
    | element id type props key =>
      have children : View.Within R (propertyOf props "children") := h.within_read _
      cases type with
      | tag tag =>
        refine h.within_bind (h.within_place parent _) fun node =>
          h.within_bind (h.within_read _) fun entries =>
          h.within_bind (within_applyProperties h.toCalm hev node tag props none entries)
            fun inner => ?_
        cases inner with
        | some text => exact h.within_bind (h.within_placeText node text) fun _ => h.within_pure _
        | none =>
          exact h.within_bind children fun child =>
            h.within_bind (ih node child _) fun _ => h.within_pure _
      | fragment =>
        exact h.within_bind children fun child =>
          h.within_bind (ih parent child position) fun _ => h.within_pure _
      | provider context =>
        exact h.within_bind (h.within_read _) fun given =>
          h.within_bind (within_modifyHooks fun s => h.pushProvider s context given) fun _ =>
          h.within_bind (h.within_finallyHooks h.popProvider
            (h.within_bind children fun child => ih parent child position)) fun _ => h.within_pure _
      | consumer context =>
        exact h.within_bind (within_script fun _ => h.refl _) fun given =>
          h.within_bind children fun child =>
          h.within_bind (within_script fun m => h.reaches (hev.call _ _ _ m)) fun output =>
          h.within_bind (ih parent output _) fun _ => h.within_pure _
      | component component =>
        exact h.within_bind (within_visit h hev position component props) fun _ =>
          h.within_bind (ih parent _ _) fun _ => h.within_pure _

end

/-! ### Passes -/

theorem within_takeDirty (h : HookStore.Calm R) : Within R (script takeDirty) :=
  within_script fun _ => h.reaches (.single (.keep ⟨rfl, rfl, rfl, rfl, rfl, rfl, rfl⟩))

section

variable (h : HookStore.Lasting ev R)
  (hev : ev.Within fun m m' => m.realm.hooks.Reaches m'.realm.hooks)

include h hev

/-- What a pass leaves is related to the store in which it has begun. -/
theorem within_begun (container : NodeId) (root : Value) :
    Within (fun s s' => R s.beginPass s') (pass ev container root) := by
  have rest : Within R (do
      modifyDocument (Document.clear · container)
      let shown ← render ev Evaluator.levels container root rootPosition
      script (Hook.sweep ev)
      script (Hook.runPending ev)
      return shown) :=
    h.within_bind (h.within_modifyDocument _) fun _ =>
      h.within_bind (within_render h.toSteady hev _ container root _) fun _ =>
      h.within_bind (within_script h.sweep) fun _ =>
      h.within_bind (within_script h.effects) fun _ => h.within_pure _
  intro s
  unfold pass
  rw [View.outcome_bind, outcome_script]
  exact rest { s with machine.realm.hooks := s.machine.realm.hooks.beginPass }

end

variable (h : HookStore.Enduring ev R)
  (hev : ev.Within fun m m' => m.realm.hooks.Reaches m'.realm.hooks) (container : NodeId)
  (root : Value)

include h hev

theorem within_pass : Within R (pass ev container root) := fun s =>
  h.trans (h.beginPass _) (within_begun h.toLasting hev container root s)

theorem within_passes (count : Nat) : Within R (passes ev container root count) := by
  induction count with
  | zero => exact h.within_throw _
  | succ count ih =>
    unfold passes
    refine h.within_bind (within_pass h hev container root) fun _ =>
      h.within_bind (within_takeDirty h.toCalm) fun dirty => ?_
    split
    · exact ih
    · exact h.within_pure _

theorem within_display : Within R (display ev container root) :=
  h.within_bind (within_takeDirty h.toCalm) fun _ => within_passes h hev container root _

end Render

end TsxPreview
