import TsxPreview.Proofs.Hooks.Steps
import TsxPreview.Proofs.Script.Builtins

/-!
Relations that evaluation keeps at every level, and what modules are to them.
-/

namespace TsxPreview

open Script

variable {ev : Evaluator} {R : Machine → Machine → Prop}

theorem Script.Made.within {α : Type} {x : Script α} (made : Made ev x) (steady : Steady R)
    (hev : ev.Within R) : Script.Within R x := by
  induction made with
  | pure a => exact steady.within_pure a
  | bind _ _ ihx ihf => exact steady.within_bind ihx ihf
  | throw e => exact steady.within_throw e
  | heap h =>
    intro m
    obtain ⟨a, heap, eq⟩ := h m
    unfold outcome
    rw [eq]
    exact steady.heap m heap
  | store h =>
    intro m
    obtain ⟨a, realm, eq, keeps⟩ := h m
    unfold outcome
    rw [eq]
    exact steady.realm m realm (.keep keeps.hooks) keeps.timers
  | tick => exact steady.within_tick
  | clearFault => exact steady.within_modifyRealm (fun _ => rfl) fun _ => rfl
  | located span _ ih => exact steady.within_located span ih
  | inModule path _ ih => exact steady.within_inModule path ih
  | attempt _ ih => exact ih.attempt
  | hook hook args => exact Hook.within_run steady hev hook args
  | setState key slot next => exact Hook.within_setState steady hev key slot next
  | dispatch key slot action => exact Hook.within_dispatch steady hev key slot action
  | eval e scope => exact hev.eval e scope
  | exec s scope => exact hev.exec s scope
  | call fn this args => exact hev.call fn this args

namespace Evaluator

/-- A call is within a relation if `require` is. -/
theorem within_callValue (steady : Steady R) (hev : ev.Within R)
    (required : ∀ id args, Script.Within R (ev.requireCall id args)) (callee this : Value)
    (args : List Value) : Script.Within R (ev.callValue callee this args) := by
  have host (fn : HostFunction) : Script.Within R (ev.callHost fn this args) := by
    by_cases h : ∃ id, fn = .require id
    · obtain ⟨id, rfl⟩ := h
      exact required id args
    · exact (made_callHost (fun id eq => h ⟨id, eq⟩) this args).within steady hev
  unfold callValue
  refine steady.within_checked (steady.within_throw _) ?_
  refine steady.within_bind ((made_onRealm _).within steady hev) fun depth => ?_
  refine steady.within_checked (steady.within_throw _) ?_
  split
  · exact steady.within_deeper (steady.within_inModule _
      ((made_callClosure ..).within steady hev))
  · exact steady.within_deeper (host _)
  · exact steady.within_pure _

/-- What holds of `require` at every level, as soon as it holds one level down, holds of evaluation
at every level. -/
theorem within_atLevel (steady : Steady R)
    (required : ∀ ev : Evaluator, ev.Within R → ∀ id args, Script.Within R (ev.requireCall id args))
    (levels : Nat) : (atLevel levels).Within R := by
  induction levels with
  | zero => exact ⟨fun _ _ => steady.refl, fun _ _ => steady.refl, fun _ _ _ => steady.refl⟩
  | succ levels ih =>
    exact ⟨fun e scope => (made_evalExpr e scope).within steady ih,
      fun s scope => (made_execStmt s scope).within steady ih,
      within_callValue steady ih (required _ ih)⟩

/-! ## Modules -/

/-- The scope of a module is made in any case, and only the heap changes. -/
theorem outcome_moduleScope (number : Nat) (exports : ObjectRef) (m : Machine) :
    ∃ scope heap, (moduleScope number exports).outcome m = (.ok scope, { m with heap }) := by
  obtain ⟨heap, realm, loaders⟩ := m
  exact ⟨_, _, rfl⟩

/-- The default export is taken, if only that was asked for. -/
theorem outcome_chosenExports (all : Bool) (exports : Value) (m : Machine) :
    ∃ v, (chosenExports all exports).outcome m = (.ok v, m) ∧ (all = true → v = exports) := by
  unfold chosenExports
  cases all with
  | true => exact ⟨exports, rfl, fun _ => rfl⟩
  | false =>
    have chosen (v : Value) : ∃ v', Script.outcome (pure v) m = (.ok v', m) ∧
        (false = true → v' = exports) := ⟨v, rfl, fun h => absurd h Bool.false_ne_true⟩
    rw [if_neg Bool.false_ne_true, outcome_bind,
      show (Script.onHeap fun h => exports.get h "default").outcome m =
        (.ok (exports.get m.heap "default"), m) from rfl]
    dsimp only
    split <;> exact chosen _

section

variable {number : Nat} (steady : Steady R) (hev : ev.Within R)
  (updated : ∀ f, Script.Within R (Loader.update number f))

include steady hev updated

/-- A request for a module is within a relation if the loader may be changed. -/
theorem within_exportsOf (specifier : String) :
    Script.Within R (ev.exportsOf number specifier) := by
  have evaluated (path : String) (body : List Stmt) :
      Script.Within R (ev.evaluateModule number path body) := by
    unfold evaluateModule
    refine steady.within_bind ((made_alloc _).within steady hev) fun exports =>
      steady.within_bind (updated _) fun _ => steady.within_bind ?_ fun scope =>
      steady.within_bind ((made_execModule path body scope).within steady hev).attempt fun r => ?_
    · intro m
      obtain ⟨scope, heap, inScope⟩ := outcome_moduleScope number exports m
      rw [inScope]
      exact steady.heap m heap
    · cases r with
      | ok _ => exact steady.within_pure _
      | error e => exact steady.within_bind (updated _) fun _ => steady.within_throw e
  unfold exportsOf
  refine steady.within_bind (fun m => steady.refl m) fun m => ?_
  cases m.loaders[number]? with
  | none => exact steady.within_throw _
  | some l =>
    dsimp only
    repeat' split
    all_goals first | exact steady.within_pure _ | exact steady.within_throw _ | exact evaluated _ _

theorem within_require (specifier : String) (all : Bool) :
    Script.Within R (ev.require number specifier all) := by
  have chosen (v : Value) : Script.Within R (chosenExports all v) := fun m => by
    obtain ⟨v', eq, -⟩ := outcome_chosenExports all v m
    rw [eq]
    exact steady.refl m
  unfold require
  refine steady.within_bind
    (steady.within_bind (within_exportsOf steady hev updated specifier) chosen).attempt fun answer =>
    steady.within_bind (updated _) fun _ => ?_
  cases answer with
  | ok v => exact steady.within_pure v
  | error e => exact steady.within_throw e

end

/-- What holds of requests holds of `require` as scripts call it. -/
theorem within_requireCall (steady : Steady R) {number : Nat} (args : List Value)
    (required : ∀ specifier all, Script.Within R (ev.require number specifier all)) :
    Script.Within R (ev.requireCall number args) := by
  have found : Script.Within R (do
      ev.require number (← Script.textOf (argument args 0)) (argument args 1).isTruthy) :=
    steady.within_bind (fun m => steady.refl m) fun _ => required _ _
  unfold requireCall
  exact steady.within_bind (fun m => steady.refl m) fun m =>
    steady.within_checked (steady.within_throw _) found

/-- All evaluation is within a relation that does not look at the loaders. -/
theorem within_standard (steady : Steady R) (loaders : ∀ m loaders, R m { m with loaders }) :
    standard.Within R :=
  within_atLevel steady (fun _ hev _ args => within_requireCall steady args
    (within_require steady hev fun _ m => loaders m _)) levels

/-- All evaluation changes the hooks as scripts may. -/
theorem reaches_standard : standard.Within fun m m' => m.realm.hooks.Reaches m'.realm.hooks :=
  within_standard steady_reaches fun _ _ => .refl

end Evaluator

end TsxPreview
