import TsxPreview.Builtin.Globals
import TsxPreview.Package.ClassName
import TsxPreview.Package.Element
import TsxPreview.Package.Router
import TsxPreview.Package.Table
import TsxPreview.Script.Statements

/-!
Calls. A script function runs in a scope of its own; a host function does what it stands for.
Modules are evaluated when they are first required.
-/

namespace TsxPreview

namespace Loader

def count (l : Loader) (path : String) : Nat := (l.counts.lookup path).getD 0

def note (l : Loader) (e : LoaderEvent) : Loader := { l with history := e :: l.history }

/-- Begins the evaluation of a module: its exports are known from here on. -/
def begin (l : Loader) (path : String) (exports : ObjectRef) : Loader :=
  { l with
    records := insertSorted path exports l.records
    counts := insertSorted path (l.count path + 1) l.counts }.note (.began path)

/-- Forgets a module that failed. -/
def forget (l : Loader) (path : String) : Loader :=
  { l with records := l.records.filter (·.1 != path) }.note (.failed path)

/-- Forgets all modules. -/
def reset (l : Loader) : Loader := { l with records := [] }

/-- The paths of the modules that were evaluated or are being evaluated, sorted. -/
def loaded (l : Loader) : List String := l.records.map (·.1)

def update (id : Nat) (f : Loader → Loader) : Script Unit :=
  modify fun m => { m with loaders := m.loaders.modify id f }

end Loader

namespace Evaluator

variable (ev : Evaluator)

/-- The scope of a module: the globals, its exports, and the import of others. -/
def moduleScope (id : Nat) (exports : ObjectRef) : Script ScopeRef := do
  let scope ← Script.newScope (← Script.onRealm Realm.globals)
  Script.define scope "exports" (.object exports) false
  Script.define scope "module" (← Alloc.members [("exports", .object exports)]) false
  Script.define scope "require" (← Alloc.native (.require id)) false
  return scope

/-- Evaluates a module. Its exports are recorded first, so that a module which requires it in the
meantime sees what there is of them. -/
def evaluateModule (id : Nat) (path : String) (body : List Stmt) : Script Value := do
  let exports ← Alloc.objectRef .empty
  Loader.update id (·.begin path exports)
  let scope ← moduleScope id exports
  match ← Script.attempt (ev.execModule path body scope) with
  | .ok _ => return .object exports
  | .error e =>
    Loader.update id (·.forget path)
    throw e

/-- The exports that a specifier names: those of a package, of a module that is known, or of one
that is evaluated now. -/
def exportsOf (id : Nat) (specifier : String) : Script Value := do
  let some loader := (← get).loaders[id]? | throw (.moduleNotFound specifier)
  match PackageTable.container? loader.packages specifier with
  | some container => return container
  | none =>
    match loader.records.lookup specifier with
    | some exports => return .object exports
    | none =>
      match loader.project.module? specifier with
      | some m => ev.evaluateModule id m.path m.executable.body.body
      | none => throw (.moduleNotFound specifier)

/-- All exports, or the default one if there is one and the others were not asked for. -/
def chosenExports (all : Bool) (exports : Value) : Script Value := do
  if all then return exports
  match ← Script.onHeap fun h => exports.get h "default" with
  | .undefined => return exports
  | v => return v

/-- What a specifier stands for. -/
def require (id : Nat) (specifier : String) (all : Bool) : Script Value := do
  let answer ← Script.attempt do chosenExports all (← ev.exportsOf id specifier)
  Loader.update id (·.note (.answered specifier all answer))
  match answer with
  | .ok v => return v
  | .error e => throw e

/-- `require` as scripts call it. -/
def requireCall (id : Nat) (args : List Value) : Script Value := do
  let isAlive := ((← get).loaders[id]?.map Loader.isAlive).getD false
  if !isAlive then throw (.unsupported .loaderGone)
  ev.require id (← Script.textOf (argument args 0)) (argument args 1).isTruthy

/-- Sets a mark on an event object. -/
def eventMethod (m : EventMethod) (this : Value) : Script Value := do
  match m with
  | .preventDefault => Script.setProperty this "defaultPrevented" (.bool true)
  | .stopPropagation => Script.setProperty this "_stopped" (.bool true)
  | .persist => pure ()
  return .undefined

/-- What a host function does. -/
def callHost (fn : HostFunction) (this : Value) (args : List Value) : Script Value :=
  let first := argument args 0
  match fn with
  | .global f => f.run args
  | .constructor c => c.run args
  | .error name => name.make args
  | .math f => f.run args
  | .json f => f.run args
  | .objectFunction f => f.run args
  | .arrayFunction f => f.run ev args
  | .numberFunction f => f.run args
  | .console level => level.write args
  | .now => do return .number (← Script.onRealm fun r => r.config.clockMs)
  | .dateMethod m time => pure (m.run time)
  | .hasOwnProperty r => Script.onHeap fun h => .bool ((h.members r).contains (first.key h))
  | .objectText => pure (.string "[object Object]")
  | .boolText b => pure (.string (toString b))
  | .arrayMethod r m => m.run ev r args
  | .textMethod s m => m.run ev s args
  | .numberMethod x m => m.run x args
  | .callOf f => FunctionMethod.call ev f args
  | .applyOf f => FunctionMethod.apply ev f args
  | .bindOf f => FunctionMethod.bind f args
  | .bound f this fixed => ev.call f this (fixed ++ args)
  | .require id => ev.requireCall id args
  | .elementFunction f => f.run args
  | .fragment => Script.onHeap fun h => first.get h "children"
  | .provider _ | .consumer _ | .noop => pure .undefined
  | .forwarded _ render => do
    let ref ← Script.onHeap fun h => first.get h "ref"
    ev.apply render [first, ref]
  | .childrenFunction f => f.run ev args
  | .hook h => h.run ev args
  | .setState key slot => Hook.setState ev key slot first
  | .dispatch key slot => Hook.dispatch ev key slot first
  | .slot => Slot.render first
  | .composedHandler child slot => Slot.handle ev child slot this args
  | .icon name => Icon.render name first
  | .classFunction f => f.run args
  | .variants base config => Script.onHeap fun h =>
    .string (ClassFunction.variantText h base config first)
  | .router f => f.run ev args
  | .routes route => RouterFunction.routes route first
  | .navigate => RouterFunction.navigate args
  | .follow handler target replace => RouterFunction.follow ev handler target replace first
  | .eventMethod m => eventMethod m this

/-- How many calls may be open. -/
def maxDepth : Nat := 100

/-- One more open call. -/
def deeper {α : Type} (x : Script α) : Script α := do
  Script.modifyRealm fun r => { r with depth := r.depth + 1 }
  Script.finallyModify (fun m => { m with realm := { m.realm with depth := m.realm.depth - 1 } }) x

/-- Calls a value. -/
def callValue (callee this : Value) (args : List Value) : Script Value := do
  if !callee.isCallable then Script.typeError (.notFunction callee.typeName)
  if maxDepth ≤ (← Script.onRealm Realm.depth) then Script.rangeError .callDepth
  match callee with
  | .closure _ fn scope path => deeper (Script.inModule path (ev.callClosure fn scope args))
  | .native _ fn _ => deeper (ev.callHost fn this args)
  | _ => return .undefined

/-- Evaluation that may go `levels` levels deep. -/
def atLevel : Nat → Evaluator
  | 0 =>
    { rounds := 0
      eval := fun _ _ => throw .exhausted
      exec := fun _ _ => throw .exhausted
      call := fun _ _ _ => throw .exhausted }
  | levels + 1 =>
    { rounds := levels
      eval := fun e scope => (atLevel levels).evalExpr e scope
      exec := fun s scope => (atLevel levels).execStmt s scope
      call := fun callee this args => (atLevel levels).callValue callee this args }

/-- More levels than any run can use. -/
def levels : Nat := Nat.pow 2 50

/-- Evaluation without a bound that shows. -/
def standard : Evaluator := atLevel levels

end Evaluator

end TsxPreview
