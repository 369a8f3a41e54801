import TsxPreview.Script.Expressions

/-!
The meaning of statements, and of calls of script functions.
-/

namespace TsxPreview.Evaluator

variable (ev : Evaluator)

def execDeclarators (scope : ScopeRef) (isMutable : Bool) : List Declarator → Script Unit
  | [] => pure ()
  | d :: rest => do
    let v ← match d.init? with
      | some e => ev.eval e scope
      | none => pure .undefined
    ev.bind scope isMutable d.pattern v
    execDeclarators scope isMutable rest

/-! ### Loops -/

/-- What the end of a loop's body means for the loop: it goes on, or ends. -/
def loopEnd : Completion → Option Completion
  | .normal | .continue => none
  | .break => some .normal
  | .return v => some (.return v)

def execWhile (test : Expr) (body : Stmt) (scope : ScopeRef) : Nat → Script Completion
  | 0 => throw .exhausted
  | rounds + 1 => do
    if (← ev.eval test scope).isTruthy then
      match loopEnd (← ev.exec body scope) with
      | some c => return c
      | none => execWhile test body scope rounds
    else return .normal

/-- The names that each round of a `for` has for itself. -/
def loopNames : Option Stmt → List String
  | some (.var _ .const decls) | some (.var _ .let decls) => decls.flatMap fun d => d.pattern.names
  | _ => []

def loopIsMutable : Option Stmt → Bool
  | some (.var _ .const _) => false
  | _ => true

/-- Copies variables into a new scope. -/
def copyNames (source target : ScopeRef) (isMutable : Bool) : List String → Script Unit
  | [] => pure ()
  | name :: rest => do
    let v ← Script.onHeap fun h => h.lookup source name
    Script.define target name (v.getD .undefined) isMutable
    copyNames source target isMutable rest

/-- The scope of the next round: a copy of the loop's own variables, if it has any. -/
def nextScope (outer scope : ScopeRef) (names : List String) (isMutable : Bool) :
    Script ScopeRef := do
  if names.isEmpty then return scope
  let next ← Script.newScope outer
  copyNames scope next isMutable names
  return next

def execRounds (outer : ScopeRef) (names : List String) (isMutable : Bool)
    (test update : Option Expr) (body : Stmt) : Nat → ScopeRef → Script Completion
  | 0, _ => throw .exhausted
  | rounds + 1, scope => do
    let goesOn ← match test with
      | some e => do pure (← ev.eval e scope).isTruthy
      | none => pure true
    if !goesOn then return .normal
    match loopEnd (← ev.exec body scope) with
    | some c => return c
    | none =>
      let scope ← nextScope outer scope names isMutable
      if let some e := update then
        let _ ← ev.eval e scope
      execRounds outer names isMutable test update body rounds scope

def execFor (init : Option Stmt) (test update : Option Expr) (body : Stmt) (outer : ScopeRef) :
    Script Completion := do
  let scope ← Script.newScope outer
  match init with
  | some (.var _ kind decls) => ev.execDeclarators scope (kind != .const) decls
  | some (.expr _ e) => let _ ← ev.eval e scope
  | _ => pure ()
  ev.execRounds outer (loopNames init) (loopIsMutable init) test update body ev.rounds scope

/-- Each item is bound in a scope of its own. -/
def execEach (pattern : Pattern) (isMutable : Bool) (body : Stmt) (outer : ScopeRef) :
    List Value → Script Completion
  | [] => pure .normal
  | v :: rest => do
    let scope ← Script.newScope outer
    ev.bind scope isMutable pattern v
    match loopEnd (← ev.exec body scope) with
    | some c => return c
    | none => execEach pattern isMutable body outer rest

/-! ### Choices -/

/-- The clauses from the first whose test equals the subject. -/
def matchingCases (subject : Value) (scope : ScopeRef) :
    List SwitchCase → Script (Option (List SwitchCase))
  | [] => pure none
  | .mk none _ :: rest => matchingCases subject scope rest
  | .mk (some test) body :: rest => do
    if (← ev.eval test scope).strictEq subject then return some (.mk (some test) body :: rest)
    else matchingCases subject scope rest

/-- The clauses from the default on. -/
def defaultCases : List SwitchCase → List SwitchCase
  | [] => []
  | .mk none body :: rest => .mk none body :: rest
  | .mk (some _) _ :: rest => defaultCases rest

def execCases (scope : ScopeRef) : List SwitchCase → Script Completion
  | [] => pure .normal
  | .mk _ body :: rest => do
    match ← ev.execBlock body scope with
    | .normal => execCases scope rest
    | .break => return .normal
    | c => return c

def execSwitch (subject : Expr) (cases : List SwitchCase) (outer : ScopeRef) :
    Script Completion := do
  let v ← ev.eval subject outer
  let scope ← Script.newScope outer
  let chosen ← ev.matchingCases v scope cases
  ev.execCases scope (chosen.getD (defaultCases cases))

/-! ### Errors -/

/-- What a `catch` receives. -/
def errorValue (e : ScriptError) : Script Value :=
  match e with
  | .thrown v => pure v
  | e =>
    let (name, message) := e.caughtParts
    Alloc.members [("name", .string name.name), ("message", .string message)]

def execHandler (param : Option Pattern) (handler : List Stmt) (outer : ScopeRef)
    (e : ScriptError) : Script Completion := do
  let v ← errorValue e
  Script.clearFault
  let scope ← Script.newScope outer
  if let some pattern := param then ev.bind scope true pattern v
  ev.execBlock handler scope

/-- Runs in a scope of its own. -/
def execInner (stmts : List Stmt) (outer : ScopeRef) : Script Completion := do
  let scope ← Script.newScope outer
  ev.execBlock stmts scope

/-- The finalizer runs in any case; it replaces the outcome unless it ends normally. -/
def execTry (block : List Stmt) (param : Option Pattern) (handler finalizer : Option (List Stmt))
    (outer : ScopeRef) : Script Completion := do
  let first ← Script.attempt (ev.execInner block outer)
  let outcome ← match first, handler with
    | .error e, some handler =>
      if e.isCatchable then Script.attempt (ev.execHandler param handler outer e) else pure first
    | _, _ => pure first
  let last ← match finalizer with
    | some stmts => ev.execInner stmts outer
    | none => pure .normal
  match last with
  | .normal => MonadExcept.ofExcept outcome
  | c => return c

/-! ### Statements and calls -/

def execKind (s : Stmt) (scope : ScopeRef) : Script Completion := do
  match s with
  | .var _ kind decls =>
    ev.execDeclarators scope (kind != .const) decls
    return .normal
  -- blocks have declared their functions already
  | .function _ _ => return .normal
  | .return _ value =>
    match value with
    | some e => return .return (← ev.eval e scope)
    | none => return .return .undefined
  | .if _ test yes no =>
    if (← ev.eval test scope).isTruthy then ev.exec yes scope
    else
      match no with
      | some no => ev.exec no scope
      | none => return .normal
  | .for _ init test update body => ev.execFor init test update body scope
  | .forEach _ kind binding pattern iterable body =>
    let v ← ev.eval iterable scope
    let items ← match kind with
      | .of => Script.iterate v
      | .in => Script.onHeap fun h => Script.keysOf h v
    ev.execEach pattern (binding != .const) body scope items
  | .while _ test body => ev.execWhile test body scope ev.rounds
  | .switch _ subject cases => ev.execSwitch subject cases scope
  | .break _ => return .break
  | .continue _ => return .continue
  | .throw _ e => throw (.thrown (← ev.eval e scope))
  | .try _ block param handler finalizer => ev.execTry block param handler finalizer scope
  | .block _ stmts => ev.execInner stmts scope
  | .expr _ e =>
    let _ ← ev.eval e scope
    return .normal
  | .empty _ => return .normal
  | .import _ _ | .export _ _ => throw (.unsupported .moduleSyntax)

/-- Runs a statement; an error is placed at the innermost statement that raises it. -/
def execStmt (s : Stmt) (scope : ScopeRef) : Script Completion := do
  Script.tick
  Script.located s.span (ev.execKind s scope)

/-- Runs a script function in a scope of its own. -/
def callClosure (fn : Function) (outer : ScopeRef) (args : List Value) : Script Value := do
  let scope ← Script.newScope outer
  ev.bindParameters scope fn.params args
  if let some pattern := fn.rest? then
    ev.bind scope true pattern (← Alloc.ofList (args.drop fn.params.length))
  match fn.body with
  | .block stmts =>
    match ← ev.execBlock stmts scope with
    | .return v => return v
    | _ => return .undefined
  | .expr e => Script.located e.span (ev.eval e scope)

end TsxPreview.Evaluator
