import TsxPreview.Script.Property

/-!
What evaluation needs of itself: an `Evaluator` holds the meaning of expressions, statements and
calls one level down. The meaning of each construct is stated over it, without recursion.
-/

namespace TsxPreview

/-- How a statement ends. -/
inductive Completion where
  | normal
  | return (value : Value)
  | break
  | continue
  deriving Inhabited

structure Evaluator where
  /-- How many rounds a loop may take. -/
  rounds : Nat
  eval : Expr → ScopeRef → Script Value
  exec : Stmt → ScopeRef → Script Completion
  /-- Calls a function with a receiver and arguments. -/
  call : Value → Value → List Value → Script Value

namespace Evaluator

variable (ev : Evaluator)

/-- Calls without a receiver. -/
def apply (fn : Value) (args : List Value) : Script Value := ev.call fn .undefined args

/-- Names the functions that a block declares before it runs. -/
def hoist (scope : ScopeRef) : List Stmt → Script Unit
  | [] => pure ()
  | .function _ fn :: rest => do
    if let some name := fn.name? then
      Script.define scope name.name (← Script.newClosure fn scope) true
    hoist scope rest
  | _ :: rest => hoist scope rest

/-- Runs statements until one does not end normally. -/
def execAll (scope : ScopeRef) : List Stmt → Script Completion
  | [] => pure .normal
  | s :: rest => do
    match ← ev.exec s scope with
    | .normal => execAll scope rest
    | c => pure c

def execBlock (stmts : List Stmt) (scope : ScopeRef) : Script Completion := do
  hoist scope stmts
  ev.execAll scope stmts

/-- Runs the body of a module. -/
def execModule (path : String) (body : List Stmt) (scope : ScopeRef) : Script Unit :=
  Script.inModule (some path) do let _ ← ev.execBlock body scope

end Evaluator

namespace Script

/-- The value of a name; `undefined` is one unless it is declared. -/
def lookup (name : String) (scope : ScopeRef) : Script Value := do
  match ← onHeap fun h => h.lookup scope name with
  | some v => pure v
  | none => if name = "undefined" then pure .undefined else throw (.reference name)

/-- Assigns a variable. -/
def assignName (scope : ScopeRef) (name : String) (value : Value) : Script (Option AssignFault) :=
  fun m => match m with
  | ⟨heap, realm, loaders⟩ =>
    match heap.find? scope name with
    | none => .ok (some .undeclared) ⟨heap, realm, loaders⟩
    | some (owner, v) =>
      if v.isMutable then .ok none ⟨heap.define owner name value true, realm, loaders⟩
      else .ok (some .constant) ⟨heap, realm, loaders⟩

/-- A pattern does not match `undefined` or `null`. -/
def destructurable (v : Value) : Script Unit := do
  if v.isNullish then typeError (.notDestructurable (← textOf v))

end Script

end TsxPreview
