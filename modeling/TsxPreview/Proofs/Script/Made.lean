import TsxPreview.Package.Hook
import TsxPreview.Proofs.Script.Running
import TsxPreview.Proofs.Timers
import TsxPreview.Script.Statements

/-!
What evaluation is made of. Whatever the evaluator does is put together from few steps: it reads,
it extends or changes the heap, it changes the stores of its realm, it calls hooks and what hooks
handed out, and it goes one level down. So a property of these steps is one of all evaluation.
-/

namespace TsxPreview

/-- The parts of the store of hooks that only hooks and renders change. -/
@[grind intro] structure HookStore.Keeps (s s' : HookStore) : Prop where
  slots : s'.slots = s.slots
  frames : s'.frames = s.frames
  visited : s'.visited = s.visited
  pending : s'.pending = s.pending
  providers : s'.providers = s.providers
  updates : s'.updates = s.updates
  history : s'.history = s.history

theorem HookStore.Keeps.refl (s : HookStore) : s.Keeps s := ⟨rfl, rfl, rfl, rfl, rfl, rfl, rfl⟩

@[grind ←] theorem HookStore.keeps_defineContext (s : HookStore) (context : Nat) (value : Value) :
    s.Keeps (s.defineContext context value) :=
  ⟨rfl, rfl, rfl, rfl, rfl, rfl, rfl⟩

/-- The parts of a realm that only the evaluator itself changes, or hooks. Timers have no turn. -/
@[grind intro] structure Realm.Keeps (r r' : Realm) : Prop where
  globals : r'.globals = r.globals
  config : r'.config = r.config
  steps : r'.steps = r.steps
  depth : r'.depth = r.depth
  path : r'.path = r.path
  fault : r'.fault = r.fault
  hooks : r.hooks.Keeps r'.hooks
  timers : r.timers.Moves r'.timers

namespace Script

/-- Computations that are made of single steps and of evaluation one level down. -/
inductive Made (ev : Evaluator) : {α : Type} → Script α → Prop where
  | pure {α : Type} (a : α) : Made ev (pure a : Script α)
  | bind {α β : Type} {x : Script α} {f : α → Script β} (hx : Made ev x)
      (hf : ∀ a, Made ev (f a)) : Made ev (x >>= f)
  | throw {α : Type} (e : ScriptError) : Made ev (throw e : Script α)
  /-- What reads, and leaves another heap. -/
  | heap {α : Type} {x : Script α} (h : ∀ m, ∃ a heap, x m = .ok a { m with heap }) : Made ev x
  /-- What reads, and leaves other stores. -/
  | store {α : Type} {x : Script α}
      (h : ∀ m, ∃ a realm, x m = .ok a { m with realm } ∧ m.realm.Keeps realm) : Made ev x
  | tick : Made ev tick
  | clearFault : Made ev clearFault
  | located {α : Type} (span : Span) {x : Script α} (hx : Made ev x) : Made ev (located span x)
  | inModule {α : Type} (path : Option String) {x : Script α} (hx : Made ev x) :
      Made ev (inModule path x)
  | attempt {α : Type} {x : Script α} (hx : Made ev x) : Made ev (attempt x)
  | hook (hook : Hook) (args : List Value) : Made ev (hook.run ev args)
  | setState (key : String) (slot : Nat) (next : Value) :
      Made ev (Hook.setState ev key slot next)
  | dispatch (key : String) (slot : Nat) (action : Value) :
      Made ev (Hook.dispatch ev key slot action)
  | eval (e : Expr) (scope : ScopeRef) : Made ev (ev.eval e scope)
  | exec (s : Stmt) (scope : ScopeRef) : Made ev (ev.exec s scope)
  | call (fn this : Value) (args : List Value) : Made ev (ev.call fn this args)

attribute [grind ←] Made.pure Made.bind Made.throw Made.tick Made.clearFault Made.located
  Made.inModule Made.attempt Made.hook Made.setState Made.dispatch Made.eval Made.exec Made.call

variable {ev : Evaluator} {α β : Type}

/-! ## Steps -/

@[grind ←] theorem made_onHeap (f : Heap → α) : Made ev (onHeap f) :=
  .heap fun m => ⟨_, m.heap, rfl⟩

@[grind ←] theorem made_onRealm (f : Realm → α) : Made ev (onRealm f) :=
  .heap fun m => ⟨_, m.heap, rfl⟩

@[grind ←] theorem made_modifyHeap (f : Heap → Heap) : Made ev (modifyHeap f) :=
  .heap fun _ => ⟨_, _, rfl⟩

@[grind ←] theorem made_alloc (x : Alloc α) : Made ev (liftM x : Script α) :=
  .heap fun _ => ⟨_, _, rfl⟩

@[grind ←] theorem made_modifyRealm {f : Realm → Realm} (h : ∀ r : Realm, r.Keeps (f r)) :
    Made ev (modifyRealm f) :=
  .store fun _ => ⟨_, _, rfl, h _⟩

@[grind ←] theorem made_modifyHooks {f : HookStore → HookStore} (h : ∀ s : HookStore, s.Keeps (f s)) :
    Made ev (modifyHooks f) :=
  made_modifyRealm fun _ => ⟨rfl, rfl, rfl, rfl, rfl, rfl, h _, .refl⟩

@[grind ←] theorem made_log (level : ConsoleLevel) (message : String) :
    Made ev (log level message) :=
  made_modifyRealm fun _ => ⟨rfl, rfl, rfl, rfl, rfl, rfl, .refl _, .refl⟩

@[grind ←] theorem made_random : Made ev random :=
  .store fun _ => ⟨_, _, rfl, rfl, rfl, rfl, rfl, rfl, rfl, .refl _, .refl⟩

@[grind ←] theorem made_newScope (parent : ScopeRef) : Made ev (newScope parent) :=
  .heap fun _ => ⟨_, _, rfl⟩

@[grind ←] theorem made_newClosure (fn : Function) (scope : ScopeRef) :
    Made ev (newClosure fn scope) :=
  .heap fun _ => ⟨_, _, rfl⟩

@[grind ←] theorem made_define (scope : ScopeRef) (name : String) (value : Value)
    (isMutable : Bool) : Made ev (define scope name value isMutable) :=
  made_modifyHeap _

@[grind ←] theorem made_textOf (v : Value) : Made ev (textOf v) := made_onHeap _

@[grind ←] theorem made_numberOf (v : Value) : Made ev (numberOf v) := made_onHeap _

@[grind ←] theorem made_integerOf (v : Value) : Made ev (integerOf v) := made_onHeap _

@[grind ←] theorem made_ownEntries (v : Value) : Made ev (ownEntries v) := made_onHeap _

@[grind ←] theorem made_typeError (fault : TypeFault) : Made ev (typeError fault : Script α) :=
  .throw _

@[grind ←] theorem made_rangeError (fault : RangeFault) : Made ev (rangeError fault : Script α) :=
  .throw _

@[grind ←] theorem made_ofExcept (r : Except ScriptError α) :
    Made ev (MonadExcept.ofExcept r : Script α) := by
  cases r
  · exact .throw _
  · exact .pure _

@[grind ←] theorem made_assignName (scope : ScopeRef) (name : String) (value : Value) :
    Made ev (assignName scope name value) := by
  refine .heap fun ⟨heap, realm, loaders⟩ => ?_
  unfold assignName
  dsimp only
  cases heap.find? scope name with
  | none => exact ⟨some .undeclared, heap, rfl⟩
  | some found =>
    dsimp only
    split
    · exact ⟨none, _, rfl⟩
    · exact ⟨some .constant, heap, rfl⟩

/-! ## Lists -/

@[grind ←] theorem made_forIn (list : List α) (init : β) (f : α → β → Script (ForInStep β))
    (h : ∀ a b, Made ev (f a b)) : Made ev (forIn list init f) := by
  induction list generalizing init with
  | nil => exact .pure _
  | cons a rest ih =>
    rw [List.forIn_cons]
    grind

@[grind ←] theorem made_mapM (list : List α) (f : α → Script β) (h : ∀ a, Made ev (f a)) :
    Made ev (list.mapM f) := by
  induction list with
  | nil =>
    rw [List.mapM_nil]
    exact .pure _
  | cons a rest ih =>
    rw [List.mapM_cons]
    grind

/-! ## Values -/

@[grind ←] theorem made_arrayLength (x : Float) : Made ev (arrayLength x) := by
  unfold arrayLength
  grind

@[grind ←] theorem made_textLength (x : Float) : Made ev (textLength x) := by
  unfold textLength
  grind

@[grind ←] theorem made_functionProperty (fn : Value) (name key : String) :
    Made ev (functionProperty fn name key) := by
  unfold functionProperty
  grind

@[grind ←] theorem made_nativeOr (method : Option α) (fn : α → HostFunction) :
    Made ev (nativeOr method fn) := by
  unfold nativeOr
  grind

@[grind ←] theorem made_getProperty (object : Value) (key : String) :
    Made ev (getProperty object key) := by
  unfold getProperty
  grind

@[grind ←] theorem made_setProperty (object : Value) (key : String) (value : Value) :
    Made ev (setProperty object key value) := by
  unfold setProperty
  grind

@[grind ←] theorem made_iterate (v : Value) : Made ev (iterate v) := by
  unfold iterate
  grind

@[grind ←] theorem made_lookup (name : String) (scope : ScopeRef) :
    Made ev (lookup name scope) := by
  unfold lookup
  grind

@[grind ←] theorem made_destructurable (v : Value) : Made ev (destructurable v) := by
  unfold destructurable
  grind

@[grind ←] theorem made_hasProperty (v : Value) (key : String) : Made ev (hasProperty v key) := by
  unfold hasProperty
  grind

@[grind ←] theorem made_binary (op : BinaryOp) (a b : Value) : Made ev (binary op a b) := by
  unfold binary
  grind

@[grind ←] theorem made_unary (op : UnaryOp) (v : Value) : Made ev (unary op v) := by
  unfold unary
  grind

end Script

namespace Evaluator

open Script

variable {ev : Evaluator}

/-! ## Patterns and targets -/

@[grind ←] theorem made_keyName (scope : ScopeRef) (key : Key) :
    Made ev (ev.keyName scope key) := by
  unfold keyName
  grind

@[grind ←] theorem made_orFallback (scope : ScopeRef) (v : Value) (fallback : Option Expr) :
    Made ev (ev.orFallback scope v fallback) := by
  unfold orFallback
  grind

@[grind ←] theorem made_restEntries (v : Value) (used : List String) :
    Made ev (restEntries v used) := by
  unfold restEntries
  grind

section

variable (scope : ScopeRef) (isMutable : Bool)

mutual

@[grind ←] theorem made_bind : ∀ (pattern : Pattern) (v : Value),
    Made ev (ev.bind scope isMutable pattern v)
  | .ident name, v => by
    unfold Evaluator.bind
    grind
  | .object props rest, v => by
    have := made_bindProperties v props
    have := made_bindRest rest
    unfold Evaluator.bind
    grind
  | .array elems rest, v => by
    have := made_bindItems elems
    have := made_bindRest rest
    unfold Evaluator.bind
    grind

@[grind ←] theorem made_bindProperties (v : Value) : ∀ props : List PatternProperty,
    Made ev (ev.bindProperties scope isMutable v props)
  | [] => by
    unfold bindProperties
    grind
  | .mk key (.mk pattern fallback) :: rest => by
    have := made_bind pattern
    have := made_bindProperties v rest
    unfold bindProperties
    grind

@[grind ←] theorem made_bindItems : ∀ (elems : List (Option Binding)) (items : List Value),
    Made ev (ev.bindItems scope isMutable elems items)
  | [], items => by
    unfold bindItems
    grind
  | none :: rest, items => by
    have := made_bindItems rest
    unfold bindItems
    grind
  | some (.mk pattern fallback) :: rest, items => by
    have := made_bind pattern
    have := made_bindItems rest
    unfold bindItems
    grind

@[grind ←] theorem made_bindRest : ∀ (rest : Option Pattern) (value : Script Value),
    Made ev value → Made ev (ev.bindRest scope isMutable rest value)
  | none, value, _ => by
    unfold bindRest
    grind
  | some pattern, value, h => by
    have := made_bind pattern
    unfold bindRest
    grind

end

end

@[grind ←] theorem made_bindParameters (scope : ScopeRef) (params : List Binding)
    (args : List Value) : Made ev (ev.bindParameters scope params args) := by
  induction params generalizing args with
  | nil =>
    unfold bindParameters
    grind
  | cons p rest ih =>
    unfold bindParameters
    grind

section

variable (scope : ScopeRef)

mutual

@[grind ←] theorem made_assignTo : ∀ (inside : Bool) (target : Expr) (v : Value),
    Made ev (ev.assignTo scope inside target v)
  | _, .ident _ name, v => by
    unfold assignTo
    grind
  | _, .member _ object key _, v => by
    unfold assignTo
    grind
  | _, .array _ items, v => by
    have := made_assignItems items
    unfold assignTo
    grind
  | _, .object _ props, v => by
    have := made_assignProperties v props
    unfold assignTo
    grind
  | inside, .assign _ op target fallback, v => by
    have := made_assignTo false target
    unfold assignTo
    grind
  | _, .number _ _, v | _, .string _ _, v | _, .bool _ _, v | _, .null _, v
  | _, .template _ _ _, v | _, .function _ _, v | _, .call _ _ _ _, v | _, .new _ _ _, v
  | _, .unary _ _ _, v | _, .update _ _ _ _, v | _, .binary _ _ _ _, v | _, .logical _ _ _ _, v
  | _, .conditional _ _ _ _, v | _, .sequence _ _, v | _, .jsx _ _, v => by
    unfold assignTo
    grind

@[grind ←] theorem made_assignItems : ∀ (items : List Item) (values : List Value),
    Made ev (ev.assignItems scope items values)
  | [], values => by
    unfold assignItems
    grind
  | .expr target :: rest, values => by
    have := made_assignTo true target
    have := made_assignItems rest
    unfold assignItems
    grind
  | .spread target :: rest, values => by
    have := made_assignTo false target
    have := made_assignItems rest
    unfold assignItems
    grind
  | .hole :: rest, values => by
    have := made_assignItems rest
    unfold assignItems
    grind

@[grind ←] theorem made_assignProperties (v : Value) : ∀ props : List Property,
    Made ev (ev.assignProperties scope v props)
  | [] => by
    unfold assignProperties
    grind
  | .pair key target :: rest => by
    have := made_assignTo true target
    have := made_assignProperties v rest
    unfold assignProperties
    grind
  | .shorthand name :: rest => by
    have := made_assignProperties v rest
    unfold assignProperties
    grind
  | .spread _ :: _ => by
    unfold assignProperties
    grind

end

end

@[grind ←] theorem made_assign (scope : ScopeRef) (target : Expr) (v : Value) :
    Made ev (ev.assign scope target v) :=
  made_assignTo scope false target v

/-! ## Expressions -/

@[grind ←] theorem made_evalTemplate (scope : ScopeRef) (texts : List String) (exprs : List Expr)
    (out : String) : Made ev (ev.evalTemplate scope texts exprs out) := by
  fun_induction evalTemplate ev scope texts exprs out <;> grind

@[grind ←] theorem made_evalItems (scope : ScopeRef) (items : List Item) (out : Array Value) :
    Made ev (ev.evalItems scope items out) := by
  fun_induction evalItems ev scope items out <;> grind

@[grind ←] theorem made_evalProperties (scope : ScopeRef) (props : List Property)
    (out : Record Value) : Made ev (ev.evalProperties scope props out) := by
  fun_induction evalProperties ev scope props out <;> grind

@[grind ←] theorem made_memberOf (scope : ScopeRef) (object : Value) (key : Key)
    (isOptional : Bool) : Made ev (ev.memberOf scope object key isOptional) := by
  unfold memberOf
  grind

@[grind ←] theorem made_callOf (scope : ScopeRef) (callee : Expr) (fn this : Value)
    (args : List Item) (isOptional : Bool) :
    Made ev (ev.callOf scope callee fn this args isOptional) := by
  unfold callOf
  grind

@[grind ←] theorem made_evalChain (scope : ScopeRef) (e : Expr) :
    Made ev (ev.evalChain scope e) := by
  fun_induction evalChain ev scope e <;> grind

@[grind ←] theorem made_construct (callee : Value) (args : List Value) :
    Made ev (ev.construct callee args) := by
  unfold construct
  grind

@[grind ←] theorem made_evalUnary (scope : ScopeRef) (op : UnaryOp) (operand : Expr) :
    Made ev (ev.evalUnary scope op operand) := by
  unfold evalUnary
  grind

@[grind ←] theorem made_evalUpdate (scope : ScopeRef) (op : UpdateOp) (before : Bool)
    (target : Expr) : Made ev (ev.evalUpdate scope op before target) := by
  unfold evalUpdate
  grind

@[grind ←] theorem made_evalAssign (scope : ScopeRef) (op : AssignOp) (target value : Expr) :
    Made ev (ev.evalAssign scope op target value) := by
  unfold evalAssign
  grind

@[grind ←] theorem made_evalSequence (scope : ScopeRef) (exprs : List Expr) (last : Value) :
    Made ev (ev.evalSequence scope exprs last) := by
  fun_induction evalSequence ev scope exprs last <;> grind

theorem made_evalExpr (e : Expr) (scope : ScopeRef) : Made ev (ev.evalExpr e scope) := by
  unfold evalExpr
  grind

/-! ## Statements -/

@[grind ←] theorem made_hoist (scope : ScopeRef) (stmts : List Stmt) :
    Made ev (hoist scope stmts) := by
  fun_induction hoist scope stmts <;> grind

@[grind ←] theorem made_execAll (scope : ScopeRef) (stmts : List Stmt) :
    Made ev (ev.execAll scope stmts) := by
  fun_induction execAll ev scope stmts <;> grind

@[grind ←] theorem made_execBlock (stmts : List Stmt) (scope : ScopeRef) :
    Made ev (ev.execBlock stmts scope) := by
  unfold execBlock
  grind

theorem made_execModule (path : String) (body : List Stmt) (scope : ScopeRef) :
    Made ev (ev.execModule path body scope) := by
  unfold execModule
  grind

@[grind ←] theorem made_execDeclarators (scope : ScopeRef) (isMutable : Bool)
    (decls : List Declarator) : Made ev (ev.execDeclarators scope isMutable decls) := by
  fun_induction execDeclarators ev scope isMutable decls <;> grind

@[grind ←] theorem made_execWhile (test : Expr) (body : Stmt) (scope : ScopeRef) (rounds : Nat) :
    Made ev (ev.execWhile test body scope rounds) := by
  fun_induction execWhile ev test body scope rounds <;> grind

@[grind ←] theorem made_copyNames (source target : ScopeRef) (isMutable : Bool)
    (names : List String) : Made ev (copyNames source target isMutable names) := by
  fun_induction copyNames source target isMutable names <;> grind

@[grind ←] theorem made_nextScope (outer scope : ScopeRef) (names : List String)
    (isMutable : Bool) : Made ev (nextScope outer scope names isMutable) := by
  unfold nextScope
  grind

@[grind ←] theorem made_execRounds (outer : ScopeRef) (names : List String) (isMutable : Bool)
    (test update : Option Expr) (body : Stmt) (rounds : Nat) (scope : ScopeRef) :
    Made ev (ev.execRounds outer names isMutable test update body rounds scope) := by
  induction rounds generalizing scope with
  | zero =>
    unfold execRounds
    grind
  | succ rounds ih =>
    unfold execRounds
    cases test <;> cases update <;> grind

@[grind ←] theorem made_execFor (init : Option Stmt) (test update : Option Expr) (body : Stmt)
    (outer : ScopeRef) : Made ev (ev.execFor init test update body outer) := by
  unfold execFor
  grind

@[grind ←] theorem made_execEach (pattern : Pattern) (isMutable : Bool) (body : Stmt)
    (outer : ScopeRef) (items : List Value) :
    Made ev (ev.execEach pattern isMutable body outer items) := by
  fun_induction execEach ev pattern isMutable body outer items <;> grind

@[grind ←] theorem made_matchingCases (subject : Value) (scope : ScopeRef)
    (cases : List SwitchCase) : Made ev (ev.matchingCases subject scope cases) := by
  fun_induction matchingCases ev subject scope cases <;> grind

@[grind ←] theorem made_execCases (scope : ScopeRef) (cases : List SwitchCase) :
    Made ev (ev.execCases scope cases) := by
  fun_induction execCases ev scope cases <;> grind

@[grind ←] theorem made_execSwitch (subject : Expr) (cases : List SwitchCase) (outer : ScopeRef) :
    Made ev (ev.execSwitch subject cases outer) := by
  unfold execSwitch
  grind

@[grind ←] theorem made_errorValue (e : ScriptError) : Made ev (errorValue e) := by
  unfold errorValue
  grind

@[grind ←] theorem made_execHandler (param : Option Pattern) (handler : List Stmt)
    (outer : ScopeRef) (e : ScriptError) : Made ev (ev.execHandler param handler outer e) := by
  unfold execHandler
  grind

@[grind ←] theorem made_execInner (stmts : List Stmt) (outer : ScopeRef) :
    Made ev (ev.execInner stmts outer) := by
  unfold execInner
  grind

@[grind ←] theorem made_execTry (block : List Stmt) (param : Option Pattern)
    (handler finalizer : Option (List Stmt)) (outer : ScopeRef) :
    Made ev (ev.execTry block param handler finalizer outer) := by
  unfold execTry
  grind

@[grind ←] theorem made_execKind (s : Stmt) (scope : ScopeRef) : Made ev (ev.execKind s scope) := by
  unfold execKind
  grind

theorem made_execStmt (s : Stmt) (scope : ScopeRef) : Made ev (ev.execStmt s scope) := by
  unfold execStmt
  grind

@[grind ←] theorem made_callClosure (fn : Function) (outer : ScopeRef) (args : List Value) :
    Made ev (ev.callClosure fn outer args) := by
  unfold callClosure
  cases fn.rest? <;> cases fn.body <;> grind

end Evaluator

end TsxPreview
