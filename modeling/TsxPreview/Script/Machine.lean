import TsxPreview.Compile.Compiler
import TsxPreview.Navigation
import TsxPreview.Number.Random
import TsxPreview.Script.Convert
import TsxPreview.Script.Error
import TsxPreview.Script.Hooks

/-!
The state in which scripts run, and the computations over it. The heap is shared by all previews of
a page; a realm belongs to one of them. A computation that fails keeps what it changed.
-/

namespace TsxPreview

/-! ### Timers

Nothing fires by itself: the host runs rounds. -/

structure Timer where
  callback : Value
  delay : Float
  args : List Value
  /-- Stays pending when it fires. -/
  repeats : Bool
  deriving Inhabited

/-- What happens to a timer. -/
inductive TimerEvent where
  | scheduled (id : Nat) (timer : Timer)
  | cancelled (id : Nat)
  /-- Its turn came in a round. It fires if its callback can be called. -/
  | reached (id : Nat) (fires : Bool)

structure Timers where
  /-- The last number given out. -/
  last : Nat := 0
  /-- By number, oldest first. -/
  pending : List (Nat × Timer) := []
  /-- What happened, newest first. -/
  history : List TimerEvent := []
  deriving Inhabited

namespace Timers

def schedule (t : Timers) (timer : Timer) : Nat × Timers :=
  (t.last + 1,
    { last := t.last + 1
      pending := t.pending ++ [(t.last + 1, timer)]
      history := .scheduled (t.last + 1) timer :: t.history })

def remove (t : Timers) (id : Nat) : Timers := { t with pending := t.pending.filter (·.1 != id) }

def cancel (t : Timers) (id : Nat) : Timers :=
  { t.remove id with history := .cancelled id :: t.history }

def get? (t : Timers) (id : Nat) : Option Timer := t.pending.lookup id

/-- The turn of a pending timer: it is consumed, unless it repeats. -/
def reach (t : Timers) (id : Nat) (timer : Timer) : Timers :=
  { (if timer.repeats then t else t.remove id) with
    history := .reached id timer.callback.isCallable :: t.history }

def clear (t : Timers) : Timers := t.pending.foldl (fun t (id, _) => t.cancel id) t

/-- The place of a double in the order of all doubles, in which minus zero comes before zero. -/
def rank (x : Float) : Int :=
  let bits := x.toBits.toNat
  if bits < Nat.pow 2 63 then bits else Nat.pow 2 63 - 1 - bits

/-- Shorter delays first, of equal ones the older timer. -/
def before (a b : Nat × Timer) : Bool :=
  rank a.2.delay < rank b.2.delay || (rank a.2.delay == rank b.2.delay && a.1 ≤ b.1)

/-- The numbers of the pending timers in the order in which a round fires them. -/
def due (t : Timers) : List Nat := (t.pending.mergeSort before).map (·.1)

end Timers

/-! ### Realms and machines -/

structure ConsoleEntry where
  level : ConsoleLevel
  message : String
  deriving DecidableEq, Inhabited

/-- What happens to a loader. -/
inductive LoaderEvent where
  /-- The evaluation of a module began. -/
  | began (path : String)
  /-- A module raised an error. -/
  | failed (path : String)
  /-- A specifier was required, with all exports or the default one. -/
  | answered (specifier : String) (all : Bool) (answer : Except ScriptError Value)

/-- The modules of a compiled project, as far as they were evaluated. -/
structure Loader where
  project : CompiledProject
  packages : List (HostPackage × Value)
  /-- Export containers by path, of modules that were evaluated or are being evaluated. -/
  records : List (String × ObjectRef) := []
  /-- How often each module was evaluated. -/
  counts : List (String × Nat) := []
  /-- What happened, newest first. -/
  history : List LoaderEvent := []
  /-- A loader outlives its preview only in the functions that scripts kept. -/
  isAlive : Bool := true
  deriving Inhabited

/-- What belongs to one run of scripts: settings, counters and the stores of the host. -/
structure Realm where
  globals : ScopeRef
  config : RuntimeConfig
  random : Random.Generator
  /-- Evaluation steps so far. -/
  steps : Nat := 0
  /-- Calls that are open. -/
  depth : Nat := 0
  /-- The module whose code runs. -/
  path : Option String := none
  /-- Where the error that is under way arose. -/
  fault : Option Location := none
  console : Array ConsoleEntry := #[]
  contexts : Nat := 0
  hooks : HookStore := {}
  timers : Timers := {}
  navigation : Navigation := {}
  deriving Inhabited

structure Machine where
  heap : Heap
  realm : Realm
  loaders : Array Loader := #[]
  deriving Inhabited

/-- Computations that only extend the heap. -/
abbrev Alloc := StateM Heap

abbrev Script := EStateM ScriptError Machine

namespace Alloc

def array (items : Array Value) : Alloc Value := fun h =>
  let (r, h) := h.newArray items
  (.array r, h)

def ofList (items : List Value) : Alloc Value := array items.toArray

def objectRef (members : Record Value) : Alloc ObjectRef := fun h => h.newObject members

def object (members : Record Value) : Alloc Value := return .object (← objectRef members)

/-- An object of entries with distinct names. -/
def members (entries : List (String × Value)) : Alloc Value := object ⟨entries⟩

def native (fn : HostFunction) : Alloc Value := do
  let n ← fun h => h.newId
  return .native (.made n) fn none

/-- A host function with properties of its own. -/
def nativeWith (fn : HostFunction) (statics : List (String × Value)) : Alloc Value := do
  let ref ← objectRef ⟨statics⟩
  let n ← fun h => h.newId
  return .native (.made n) fn (some ref)

def element (type : ElementType) (props : Record Value) (key : Option String) : Alloc Value := do
  let ref ← objectRef props
  let n ← fun h => h.newId
  return .element n type ref key

/-- The value of data. -/
def ofJson (j : Json) : Alloc Value := Value.ofJson j

/-- A native for each of a list of operations, by name. -/
def natives {α : Type} (list : List α) (name : α → String) (fn : α → HostFunction) :
    Alloc (List (String × Value)) :=
  list.mapM fun a => do return (name a, ← native (fn a))

end Alloc

namespace Script

instance : MonadLift Alloc Script where
  monadLift x := fun m => match m with
    | ⟨heap, realm, loaders⟩ =>
      let (a, heap) := x heap
      .ok a ⟨heap, realm, loaders⟩

def modifyHeap (f : Heap → Heap) : Script Unit := modify fun m => { m with heap := f m.heap }

def modifyRealm (f : Realm → Realm) : Script Unit := modify fun m => { m with realm := f m.realm }

def modifyHooks (f : HookStore → HookStore) : Script Unit :=
  modifyRealm fun r => { r with hooks := f r.hooks }

/-- Looks something up in the heap. -/
def onHeap {α : Type} (f : Heap → α) : Script α := fun m => .ok (f m.heap) m

def onRealm {α : Type} (f : Realm → α) : Script α := fun m => .ok (f m.realm) m

def textOf (v : Value) : Script String := onHeap v.text

def numberOf (v : Value) : Script Float := onHeap v.toNumber

def integerOf (v : Value) : Script Float := onHeap v.toInteger

def typeError {α : Type} (fault : TypeFault) : Script α := throw (.type fault)

def rangeError {α : Type} (fault : RangeFault) : Script α := throw (.range fault)

/-- Runs to the end and gives the outcome, with all changes kept. An error that ends the run passes
through. -/
def attempt {α : Type} (x : Script α) : Script (Except ScriptError α) := fun m =>
  match x m with
  | .ok a m => .ok (.ok a) m
  | .error e m => if e.endsRun then .error e m else .ok (.error e) m

/-- Makes a last change however a computation ends, unless an error ends the run. -/
def finallyModify {α : Type} (f : Machine → Machine) (x : Script α) : Script α := fun m =>
  match x m with
  | .ok a m => .ok a (f m)
  | .error e m => .error e (if e.endsRun then m else f m)

/-- One evaluation step. -/
def tick : Script Unit := fun m =>
  let steps := m.realm.steps + 1
  let limit := m.realm.config.stepLimit
  let m := { m with realm := { m.realm with steps } }
  match limit with
  | some limit => if limit < steps then .error (.stepLimit limit) m else .ok () m
  | none => .ok () m

/-- Runs code of a module. -/
def inModule {α : Type} (path : Option String) (x : Script α) : Script α := do
  let before ← onRealm Realm.path
  modifyRealm fun r => { r with path }
  finallyModify (fun m => { m with realm := { m.realm with path := before } }) x

/-- Remembers where an error passed first. -/
def noteFault (span : Span) : Machine → Machine := fun m =>
  match m.realm.fault with
  | some _ => m
  | none => { m with realm := { m.realm with fault := some ⟨m.realm.path, span⟩ } }

/-- Notes the place of an error that a computation raises, unless it ends the run. -/
def located {α : Type} (span : Span) (x : Script α) : Script α := fun m =>
  match x m with
  | .ok a m => .ok a m
  | .error e m => .error e (if e.endsRun then m else noteFault span m)

def clearFault : Script Unit := modifyRealm fun r => { r with fault := none }

/-- Takes the place of the last uncaught error. -/
def takeFault : Script (Option Location) := do
  let fault ← onRealm Realm.fault
  clearFault
  return fault

/-- A scope inside another. -/
def newScope (parent : ScopeRef) : Script ScopeRef := fun m => match m with
  | ⟨heap, realm, loaders⟩ =>
    let (r, heap) := heap.newScope (some parent)
    .ok r ⟨heap, realm, loaders⟩

def define (scope : ScopeRef) (name : String) (value : Value) (isMutable : Bool) : Script Unit :=
  modifyHeap fun h => h.define scope name value isMutable

/-- A function of the script. -/
def newClosure (fn : Function) (scope : ScopeRef) : Script Value := fun m => match m with
  | ⟨heap, realm, loaders⟩ =>
    let (n, heap) := heap.newId
    .ok (.closure n fn scope realm.path) ⟨heap, realm, loaders⟩

def log (level : ConsoleLevel) (message : String) : Script Unit :=
  modifyRealm fun r => { r with console := r.console.push ⟨level, message⟩ }

/-- The next random number of the realm. -/
def random : Script Float := fun m =>
  let (x, g) := m.realm.random.next
  .ok x { m with realm := { m.realm with random := g } }

end Script

/-- A realm over globals that exist. -/
def Realm.ofGlobals (globals : ScopeRef) (config : RuntimeConfig) : Realm :=
  { globals, config, random := .ofSeed config.randomSeed }

/-- An argument of a call; absent ones are `undefined`. -/
def argument (args : List Value) (i : Nat) : Value := args.getD i .undefined

end TsxPreview
