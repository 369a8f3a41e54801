import TsxPreview.Script.Evaluator

/-!
Patterns in declarations and parameters, and targets of assignments.
-/

namespace TsxPreview.Evaluator

variable (ev : Evaluator)

/-- The name that a property key denotes. -/
def keyName (scope : ScopeRef) : Key → Script String
  | .named name => pure name
  | .computed e => do
    let v ← ev.eval e scope
    Script.onHeap v.key

/-- `undefined` gives way to the value that stands in for it. -/
def orFallback (scope : ScopeRef) (v : Value) (fallback : Option Expr) : Script Value :=
  match v, fallback with
  | .undefined, some e => ev.eval e scope
  | v, _ => pure v

/-- The entries that a pattern did not name. -/
def restEntries (v : Value) (used : List String) : Script Value := do
  let entries ← Script.ownEntries v
  Alloc.members (entries.filter fun (name, _) => !used.contains name)

mutual

/-- Declares the names of a pattern. -/
def bind (scope : ScopeRef) (isMutable : Bool) : Pattern → Value → Script Unit
  | .ident name, v => Script.define scope name.name v isMutable
  | .object props rest, v => do
    Script.destructurable v
    let used ← bindProperties scope isMutable v props
    bindRest scope isMutable rest (restEntries v used)
  | .array elems rest, v => do
    let items ← Script.iterate v
    bindItems scope isMutable elems items
    bindRest scope isMutable rest (Alloc.ofList (items.drop elems.length))

/-- Declares the names of properties; gives the keys that they used. -/
def bindProperties (scope : ScopeRef) (isMutable : Bool) (v : Value) :
    List PatternProperty → Script (List String)
  | [] => pure []
  | .mk key (.mk pattern fallback) :: rest => do
    let name ← ev.keyName scope key
    let item ← ev.orFallback scope (← Script.getProperty v name) fallback
    bind scope isMutable pattern item
    return name :: (← bindProperties scope isMutable v rest)

def bindItems (scope : ScopeRef) (isMutable : Bool) :
    List (Option Binding) → List Value → Script Unit
  | [], _ => pure ()
  | none :: rest, items => bindItems scope isMutable rest items.tail
  | some (.mk pattern fallback) :: rest, items => do
    let item ← ev.orFallback scope (items.headD .undefined) fallback
    bind scope isMutable pattern item
    bindItems scope isMutable rest items.tail

def bindRest (scope : ScopeRef) (isMutable : Bool) : Option Pattern → Script Value → Script Unit
  | none, _ => pure ()
  | some pattern, value => do bind scope isMutable pattern (← value)

end

/-- Binds parameters to arguments. -/
def bindParameters (scope : ScopeRef) : List Binding → List Value → Script Unit
  | [], _ => pure ()
  | p :: rest, args => do
    let v ← ev.orFallback scope (args.headD .undefined) p.fallback
    ev.bind scope true p.pattern v
    bindParameters scope rest args.tail

mutual

/-- Stores a value into a target: a variable, a member, or a literal that takes the value apart.
Inside a literal, a target may come with a value that stands in for `undefined`. -/
def assignTo (scope : ScopeRef) : (inside : Bool) → Expr → Value → Script Unit
  | _, .ident _ name, v => do
    match ← Script.assignName scope name v with
    | none => pure ()
    | some .constant => Script.typeError .constant
    | some .undeclared => throw (.reference name)
  | _, .member _ object key _, v => do
    let object ← ev.eval object scope
    let name ← ev.keyName scope key
    Script.setProperty object name v
  | _, .array _ items, v => do assignItems scope items (← Script.iterate v)
  | _, .object _ props, v => do
    Script.destructurable v
    assignProperties scope v props
  | true, .assign _ .assign target fallback, v => do
    let v ← ev.orFallback scope v (some fallback)
    assignTo scope false target v
  | _, _, _ => throw (.unsupported .assignmentTarget)

def assignItems (scope : ScopeRef) : List Item → List Value → Script Unit
  | [], _ => pure ()
  | .expr target :: rest, items => do
    assignTo scope true target (items.headD .undefined)
    assignItems scope rest items.tail
  | .spread target :: rest, items => do
    assignTo scope false target (← Alloc.ofList items)
    assignItems scope rest items.tail
  | .hole :: rest, items => assignItems scope rest items.tail

def assignProperties (scope : ScopeRef) (v : Value) : List Property → Script Unit
  | [] => pure ()
  | .pair key target :: rest => do
    let name ← ev.keyName scope key
    assignTo scope true target (← Script.getProperty v name)
    assignProperties scope v rest
  | .shorthand name :: rest => do
    match ← Script.assignName scope name.name (← Script.getProperty v name.name) with
    | none => assignProperties scope v rest
    | some _ => throw (.reference name.name)
  | .spread _ :: _ => throw (.unsupported .restInAssignment)

end

/-- Stores a value into the target of an assignment. -/
def assign (scope : ScopeRef) (target : Expr) (v : Value) : Script Unit :=
  ev.assignTo scope false target v

end TsxPreview.Evaluator
