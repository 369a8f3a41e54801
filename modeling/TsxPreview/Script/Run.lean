import TsxPreview.Script.Host

/-!
Running scripts: machines to start from, and whole modules.
-/

namespace TsxPreview

/-- The outcome of a computation, and what it left. -/
def Script.outcome {α : Type} (x : Script α) (m : Machine) : Except ScriptError α × Machine :=
  match x m with
  | .ok a m => (.ok a, m)
  | .error e m => (.error e, m)

/-- Runs what only extends the heap. -/
def Machine.alloc {α : Type} (x : Alloc α) (m : Machine) : α × Machine :=
  let (a, heap) := x m.heap
  (a, { m with heap })

namespace Machine

/-- A machine with fresh globals. -/
def ofConfig (config : RuntimeConfig) : Machine :=
  let (globals, heap) := Globals.make {}
  { heap, realm := .ofGlobals globals config }

/-- Declares what code uses without importing it. -/
def withPackages (m : Machine) : Machine :=
  (m.alloc do
    let table ← PackageTable.make
    table.install m.realm.globals).2

end Machine

/-- Runs a module in a scope of its own and gives the scope. -/
def Script.runModule (path : String) (body : List Stmt) (scope : ScopeRef) : Script Unit :=
  Evaluator.standard.execModule path body scope

/-- A scope in which a module can run. -/
def Script.moduleScope : Script ScopeRef := do
  Script.newScope (← Script.onRealm Realm.globals)

/-- Fires the pending timers once. -/
def Script.runTimers : Script Nat := Timers.round Evaluator.standard

end TsxPreview
