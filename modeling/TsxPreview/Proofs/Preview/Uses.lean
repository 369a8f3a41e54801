import TsxPreview.Preview.Interaction
import TsxPreview.Proofs.View.Stages

/-!
What is done with previews, from the mount over uses of any kind to the end. A relation of stores of
hooks that passes keep holds from the mount on.
-/

namespace TsxPreview

open View Script

/-! ## Events and timers -/

section

variable {R : HookStore → HookStore → Prop} {ev : Evaluator}

namespace Event

section

variable (h : HookStore.Steady R) (hev : ev.Within fun m m' => m.realm.hooks.Reaches m'.realm.hooks)

include h hev

theorem within_bubble (e : Event) (object : Value) (route : List NodeId) :
    View.Within R (e.bubble ev object route) := by
  induction route with
  | nil => exact h.within_pure _
  | cons n rest ih =>
    unfold bubble
    refine h.within_bind (h.within_onDocument _) fun listener => ?_
    cases listener with
    | none => exact ih
    | some handler =>
      refine h.within_bind (h.within_onDocument _) fun d =>
        h.within_bind (h.within_made (made_alloc _) hev) fun current =>
        h.within_bind (h.within_made (made_setProperty _ _ _) hev) fun _ =>
        h.within_bind (h.within_made (Evaluator.made_apply _ _) hev) fun _ =>
        h.within_bind (h.within_read _) fun stopped => ?_
      split
      · exact ih
      · exact h.within_pure _

theorem within_fire (container target : NodeId) (e : Event) :
    View.Within R (e.fire ev container target) := by
  have delivered : View.Within R (do
      modifyDocument (e.apply target)
      let d ← onDocument id
      let self ← script (nodeObject d target : Alloc Value)
      let object ← script (e.object self : Alloc Value)
      bubble ev e object (route d container target)
      let prevented ← script (onHeap fun h => object.get h "defaultPrevented")
      return prevented.isTruthy) :=
    h.within_bind (h.within_modifyDocument _) fun _ =>
      h.within_bind (h.within_onDocument _) fun d =>
      h.within_bind (h.within_made (made_alloc _) hev) fun self =>
      h.within_bind (h.within_made (made_alloc _) hev) fun object =>
      h.within_bind (within_bubble h hev e object _) fun _ =>
      h.within_bind (h.within_read _) fun prevented => h.within_pure _
  unfold fire
  refine h.within_bind (h.within_onDocument _) fun there => ?_
  split
  · exact h.within_bind (h.within_throw _) fun _ => delivered
  · exact delivered

end

end Event

namespace Timers

variable (hev : ev.Within fun m m' => m.realm.hooks.Reaches m'.realm.hooks)

include hev

theorem within_fire (ids : List Nat) (fired : Nat) :
    Script.Within (fun m m' => m.realm.hooks.Reaches m'.realm.hooks) (fire ev ids fired) := by
  have steady := steady_reaches
  induction ids generalizing fired with
  | nil => exact steady.within_pure _
  | cons id rest ih =>
    unfold fire
    refine steady.within_bind (fun _ => .refl) fun timers => ?_
    cases timers.get? id with
    | none => exact ih _
    | some timer =>
      refine steady.within_bind (fun _ => .refl) fun _ => ?_
      split
      · exact steady.within_bind ((Evaluator.made_apply _ _).within steady hev) fun _ => ih _
      · exact ih _

/-- A round changes the hooks as its callbacks do. -/
theorem within_round :
    Script.Within (fun m m' => m.realm.hooks.Reaches m'.realm.hooks) (round ev) :=
  steady_reaches.within_bind (fun _ => .refl) fun _ => within_fire hev _ 0

end Timers

theorem Mount.made_rootElement (entry : String) (exports : Value) (props : GivenProps) :
    Made ev (Mount.rootElement entry exports props) := by
  unfold Mount.rootElement
  refine .bind (made_alloc _) fun injected => .bind (made_onHeap _) fun exported => ?_
  split
  · exact .bind (made_alloc _) fun defaults => .bind (made_onHeap _) fun own =>
      .bind (made_alloc _) fun overrides => made_alloc _
  · exact made_typeError _
  · split
    · exact .bind (made_alloc _) fun given => ElementFunction.made_run _ _
    · exact made_typeError _

end

section

open Evaluator

variable {R : HookStore → HookStore → Prop} (h : HookStore.Enduring standard R)

include h

namespace Interaction

theorem within_refresh (container : NodeId) (root : Value) :
    View.Within R (refresh container root) := by
  unfold refresh
  refine h.within_bind (within_script fun _ => h.refl _) fun dirty => ?_
  split
  · exact Render.within_display h reaches_standard container root
  · exact h.within_pure _

theorem within_unlessInert {α : Type} {x : View α} (mode : Mode) (hx : View.Within R x) :
    View.Within R (unlessInert mode x) := by
  cases mode with
  | isolated => exact hx
  | shared => exact h.within_throw _

theorem within_target (container : NodeId) (selector : String) :
    View.Within R (target container selector) := by
  unfold target
  split
  · exact h.within_throw _
  · refine h.within_bind (h.within_onDocument _) fun found => ?_
    cases found with
    | some n => exact h.within_pure _
    | none => exact h.within_throw _

theorem within_fire (container n : NodeId) (e : Event) : View.Within R (fire container n e) :=
  Event.within_fire h.toSteady reaches_standard container n e

theorem within_click (container n : NodeId) : View.Within R (click container n) := by
  unfold click
  refine h.within_bind (h.within_onDocument _) fun d => ?_
  split
  · exact h.within_bind (within_fire h container n _) fun _ =>
      h.within_bind (within_fire h container n _) fun _ => h.within_pure _
  · exact h.within_bind (within_fire h container n _) fun _ => h.within_pure _

theorem within_input (container n : NodeId) (value : String) :
    View.Within R (input container n value) :=
  h.within_bind (within_fire h container n _) fun _ =>
    h.within_bind (within_fire h container n _) fun _ => h.within_pure _

end Interaction

namespace Mount

theorem within_prepare (project : CompiledProject) : View.Within R (script (prepare project)) := by
  have done : Script.Within (fun m m' => m.realm.hooks.Reaches m'.realm.hooks) (prepare project) := by
    unfold prepare
    generalize PackageTable.make = make
    refine steady_reaches.within_bind (fun _ => .refl) fun table =>
      steady_reaches.within_bind (fun _ => .refl) fun globals => ?_
    dsimp only
    generalize table.install globals = install
    exact steady_reaches.within_bind (fun _ => .refl) fun _ => fun _ => .refl
  exact within_script fun m => h.reaches (done m)

theorem within_start (project : CompiledProject) (props : GivenProps) (container : NodeId)
    (loader : Nat) : View.Within R (start project props container loader) := by
  refine h.within_bind (within_script fun m => h.reaches ?_) fun exports =>
    h.within_bind (h.within_made (made_rootElement _ _ _) reaches_standard) fun root =>
    h.within_bind (Render.within_display h reaches_standard container root) fun _ => h.within_pure _
  exact within_require steady_reaches reaches_standard (fun _ _ => .refl) _ _ m

end Mount

end

/-! ## Previews -/

namespace MountedTree

/-- What is done with a preview between its mount and its end. -/
inductive Use where
  | dispatch (target : NodeId) (e : Event)
  | click (selector : String)
  | input (selector value : String)
  | rerender
  | runTimers

/-- The preview after a use, on a page as it is then. -/
def use (t : MountedTree) (p : Page) : Use → MountedTree
  | .dispatch target e => (t.dispatch p target e).2.1
  | .click selector => (t.click p selector).2.1
  | .input selector value => (t.input p selector value).2.1
  | .rerender => (t.rerender p).2.1
  | .runTimers => (t.runTimers p).2.1

/-- The preview after uses, one after another. -/
def after (t : MountedTree) : List (Use × Page) → MountedTree
  | [] => t
  | (u, p) :: rest => (t.use p u).after rest

/-- What happened to the instances of a preview up to its end, oldest first. -/
def log (t : MountedTree) (uses : List (Use × Page)) (last : Page) : List HookNote :=
  ((t.after uses).close last).1.realm.hooks.history.reverse

theorem perform_realm {α : Type} (t : MountedTree) (p : Page) (x : View α) :
    (t.perform p x).2.1.realm = (x.outcome (t.stage p)).2.machine.realm := by
  unfold perform commit
  dsimp only
  cases t.place <;> rfl

section

variable {R : HookStore → HookStore → Prop} (h : HookStore.Enduring Evaluator.standard R)

include h

omit h in
theorem related_perform {α : Type} (t : MountedTree) (p : Page) {x : View α} (hx : View.Within R x) :
    R t.realm.hooks (t.perform p x).2.1.realm.hooks := by
  rw [perform_realm]
  exact hx (t.stage p)

theorem related_use (t : MountedTree) (p : Page) (u : Use) :
    R t.realm.hooks (t.use p u).realm.hooks := by
  have refresh : View.Within R t.refresh := Interaction.within_refresh h _ _
  cases u with
  | dispatch target e =>
    exact t.related_perform p <| Interaction.within_unlessInert h _ <|
      h.within_bind (Interaction.within_fire h _ _ _) fun _ =>
      h.within_bind refresh fun _ => h.within_pure _
  | click selector =>
    exact t.related_perform p <| h.within_bind (Interaction.within_target h _ _) fun n =>
      Interaction.within_unlessInert h _ <|
      h.within_bind (Interaction.within_click h _ n) fun _ => refresh
  | input selector value =>
    exact t.related_perform p <| h.within_bind (Interaction.within_target h _ _) fun n =>
      Interaction.within_unlessInert h _ <|
      h.within_bind (Interaction.within_input h _ n value) fun _ => refresh
  | rerender =>
    exact t.related_perform p (Render.within_display h Evaluator.reaches_standard _ _)
  | runTimers =>
    exact t.related_perform p <|
      h.within_bind (within_script fun m =>
        h.reaches (Timers.within_round Evaluator.reaches_standard m)) fun _ =>
      h.within_bind refresh fun _ => h.within_pure _

theorem related_after (t : MountedTree) (uses : List (Use × Page)) :
    R t.realm.hooks (t.after uses).realm.hooks := by
  induction uses generalizing t with
  | nil => exact h.refl _
  | cons u rest ih => exact h.trans (t.related_use h u.2 u.1) (ih _)

/-- A mount starts with an empty store. -/
theorem related_mount {project : CompiledProject} {mode : Mode} {config : RuntimeConfig}
    {props : GivenProps} {p p' : Page} {t : MountedTree}
    (mounted : project.mount mode config props p = (.ok t, p')) : R {} t.realm.hooks := by
  have fresh : (Mount.site mode config p).1.realm.hooks = {} := by
    unfold Mount.site
    cases mode with
    | isolated =>
      generalize Globals.make p.heap = globals
      rfl
    | shared =>
      generalize p.lend = lent
      rfl
  unfold CompiledProject.mount at mounted
  generalize Mount.site mode config p = site at mounted fresh
  obtain ⟨t₀, p₀⟩ := site
  dsimp only at mounted fresh
  have started : View.Within R (do
      let loader ← script (Mount.prepare project)
      Mount.start project props t₀.container loader) :=
    h.within_bind (Mount.within_prepare h project) fun loader => Mount.within_start h _ _ _ _
  have related := t₀.related_perform p₀ started
  rw [fresh] at related
  generalize t₀.perform p₀ _ = r at mounted related
  obtain ⟨e | root, t', p''⟩ := r
  · cases mounted
  · cases mounted
    exact related

end

end MountedTree

/-! ## Previews that are worked out -/

/-- Whether files compile and mount, and the preview passes a check on the page. -/
def Compiler.shows (c : Compiler) (files : Project) (p : Page)
    (check : MountedTree → Page → Bool) : Bool :=
  match (c.compile files none).1 with
  | .error _ => false
  | .ok project =>
    match project.mount .isolated {} {} p with
    | (.error _, _) => false
    | (.ok t, p) => check t p

theorem Compiler.exists_of_shows {c : Compiler} {files : Project} {p : Page}
    {check : MountedTree → Page → Bool} (h : c.shows files p check = true) :
    ∃ project t p', (c.compile files none).1 = .ok project ∧
      project.mount .isolated {} {} p = (.ok t, p') ∧ check t p' = true := by
  unfold shows at h
  split at h
  · cases h
  · rename_i project compiled
    split at h
    · cases h
    · rename_i t p' mounted
      exact ⟨project, t, p', compiled, mounted, h⟩

end TsxPreview
