import TsxPreview.Script.Evaluator

/-!
Hooks. Each claims the next slot of the instance that is being rendered and finds there what it
stored in the render before.
-/

namespace TsxPreview

namespace Hook

variable (ev : Evaluator)

/-- The next slot, for a hook: the key of the instance and the place in it. -/
def claim (hook : Hook) : Script (String × Nat) := do
  match (← Script.onRealm Realm.hooks).claim with
  | none => Script.typeError .hookOutside
  | some (place, hooks) =>
    Script.modifyHooks fun _ => hooks.note (.called place hook)
    return place

def slotAt (place : String × Nat) : Script (Option HookSlot) :=
  Script.onRealm fun r => r.hooks.slot? place.1 place.2

def store (place : String × Nat) (content : HookSlot) : Script Unit :=
  Script.modifyHooks fun s => s.store place.1 place.2 content

def update (place : String × Nat) (content : HookSlot) : Script Unit :=
  Script.modifyHooks fun s => s.update place content

/-- A list of dependencies; without one a hook acts on every render. -/
def dependencies (v : Value) : Script (Option (List Value)) :=
  match v with
  | .undefined | .null => pure none
  | v => return some (← Script.iterate v)

def useStateSlot (initial : Value) : Script Value := do
  let place ← claim useState
  match ← slotAt place with
  | some (.state value setter) => Alloc.ofList [value, setter]
  | _ =>
    let value ← if initial.isCallable then ev.apply initial [] else pure initial
    let setter ← Alloc.native (.setState place.1 place.2)
    store place (.state value setter)
    Alloc.ofList [value, setter]

/-- Sets a state slot; a slot that is gone is left alone. -/
def setState (key : String) (slot : Nat) (next : Value) : Script Value := do
  match ← slotAt (key, slot) with
  | some (.state current _) =>
    let next ← if next.isCallable then ev.apply next [current] else pure next
    if !next.is current then
      match ← slotAt (key, slot) with
      | some (.state _ setter) => update (key, slot) (.state next setter)
      | _ => pure ()
    return .undefined
  | _ => return .undefined

/-- The newest reducer counts: it may see new props. -/
def useReducerSlot (reducer initial init : Value) : Script Value := do
  let place ← claim useReducer
  match ← slotAt place with
  | some (.reducer state _ dispatch) =>
    store place (.reducer state reducer dispatch)
    Alloc.ofList [state, dispatch]
  | _ =>
    let state ← if init.isCallable then ev.apply init [initial] else pure initial
    let dispatch ← Alloc.native (.dispatch place.1 place.2)
    store place (.reducer state reducer dispatch)
    Alloc.ofList [state, dispatch]

/-- Runs the reducer of a slot on an action. -/
def dispatch (key : String) (slot : Nat) (action : Value) : Script Value := do
  match ← slotAt (key, slot) with
  | some (.reducer current reducer _) =>
    let next ← ev.apply reducer [current, action]
    if !next.is current then
      match ← slotAt (key, slot) with
      | some (.reducer _ reducer own) => update (key, slot) (.reducer next reducer own)
      | _ => pure ()
    return .undefined
  | _ => return .undefined

/-- Queues an effect if its dependencies changed. -/
def useEffectSlot (callback deps : Value) (layout : Bool) : Script Value := do
  let place ← claim (if layout then useLayoutEffect else useEffect)
  let deps ← dependencies deps
  let changed ← match ← slotAt place with
    | some (.effect old cleanup) =>
      let changed := depsChanged old deps
      if changed then store place (.effect deps cleanup)
      pure changed
    | _ =>
      store place (.effect none .undefined)
      match ← slotAt place with
      | some (.effect _ cleanup) => store place (.effect deps cleanup)
      | _ => pure ()
      pure true
  if changed then
    Script.modifyHooks fun s =>
      { s with pending := s.pending ++ [⟨place.1, place.2, callback, layout⟩] }
  return .undefined

/-- The value of a slot while its dependencies stay; `useCallback` stores the function itself. -/
def useMemoSlot (factory deps : Value) (callback : Bool) : Script Value := do
  let place ← claim (if callback then useCallback else useMemo)
  let deps ← dependencies deps
  let kept ← match ← slotAt place with
    | some (.memo old value) => pure (if depsChanged old deps then none else some value)
    | _ => pure none
  match kept with
  | some value => return value
  | none =>
    let value ← if callback then pure factory else ev.apply factory []
    store place (.memo deps value)
    return value

def useRefSlot (initial : Value) : Script Value := do
  let place ← claim useRef
  match ← slotAt place with
  | some (.ref object) => return object
  | _ =>
    let object ← Alloc.members [("current", initial)]
    store place (.ref object)
    return object

def useIdSlot : Script Value := do
  let place ← claim useId
  match ← slotAt place with
  | some (.id text) => return .string text
  | _ =>
    let n ← Script.onRealm fun r => r.hooks.nextId
    let text := s!":r{n}:"
    Script.modifyHooks fun s => { s with nextId := n + 1 }
    store place (.id text)
    return .string text

/-- The value of a context. It claims a slot and stores nothing in it. -/
def useContextValue (context : Value) : Script Value := do
  let _ ← claim useContext
  match ← Script.onHeap fun h => context.get h "_id" with
  | .number id => Script.onRealm fun r => r.hooks.contextValue (Binary64.toIndex id)
  | _ => Script.typeError .notContext

def run (hook : Hook) (args : List Value) : Script Value :=
  let first := argument args 0
  let second := argument args 1
  match hook with
  | useState => useStateSlot ev first
  | useReducer => useReducerSlot ev first second (argument args 2)
  | useEffect => useEffectSlot first second false
  | useLayoutEffect => useEffectSlot first second true
  | useMemo => useMemoSlot ev first second false
  | useCallback => useMemoSlot ev first second true
  | useRef => useRefSlot first
  | useId => useIdSlot
  | useContext => useContextValue first

/-! ### Effects -/

/-- Calls a function of a place, and notes when it raises an error. -/
def callAt (place : String × Nat) (fn : Value) : Script Value := fun m =>
  match ev.apply fn [] m with
  | .ok v m => .ok v m
  | .error e m => .error e { m with realm.hooks := m.realm.hooks.note (.raised place) }

/-- Calls a cleanup. -/
def cleanUp (cause : CleanupCause) (place : String × Nat) (cleanup : Value) : Script Unit := do
  Script.modifyHooks (·.note (.cleaned place cleanup cause))
  let _ ← callAt ev place cleanup

/-- Runs an effect and keeps what it gives in its slot. -/
def runEffect (place : String × Nat) (callback : Value) : Script Unit := do
  let given ← callAt ev place callback
  Script.modifyHooks (·.note (.ran place given))
  match ← slotAt place with
  | some (.effect deps _) => store place (.effect deps given)
  | _ => pure ()

/-- Runs queued effects. The cleanup that an effect left before runs right before it. -/
def runEffects : List PendingEffect → Script Unit
  | [] => pure ()
  | e :: rest => do
    let place := (e.key, e.slot)
    match ← slotAt place with
    | some (.effect deps previous) =>
      store place (.effect deps .undefined)
      if previous.isCallable then cleanUp ev .again place previous
      runEffect ev place e.callback
    | _ => pure ()
    runEffects rest

/-- Runs the effects that the last pass queued. -/
def runPending : Script Unit := do
  let (pending, hooks) := (← Script.onRealm Realm.hooks).takePending
  Script.modifyHooks fun _ => hooks
  runEffects ev pending

def cleanUpAll : List ((String × Nat) × Value) → Script Unit
  | [] => pure ()
  | (place, cleanup) :: rest => do
    cleanUp ev .left place cleanup
    cleanUpAll rest

/-- Drops the instances that left the tree and runs their cleanups. -/
def sweep : Script Unit := do
  let (cleanups, hooks) := (← Script.onRealm Realm.hooks).sweep
  Script.modifyHooks fun _ => hooks
  cleanUpAll ev cleanups

/-- Runs each cleanup; errors do not stop the others. -/
def cleanUpEach : List ((String × Nat) × Value) → Script Unit
  | [] => pure ()
  | (place, cleanup) :: rest => do
    let _ ← Script.attempt (cleanUp ev .unmounted place cleanup)
    cleanUpEach rest

/-- Drops all instances and timers; every cleanup runs. -/
def unmount : Script Unit := do
  let (cleanups, hooks) := (← Script.onRealm Realm.hooks).clear
  Script.modifyHooks fun _ => hooks
  cleanUpEach ev cleanups
  Script.modifyRealm fun r => { r with timers := r.timers.clear }

end Hook

end TsxPreview
