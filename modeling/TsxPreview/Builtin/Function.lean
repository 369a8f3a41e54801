import TsxPreview.Script.Evaluator

/-!
Methods of functions, and the plain global functions.
-/

namespace TsxPreview

namespace FunctionMethod

variable (ev : Evaluator)

/-- `call`: the first argument is the receiver. -/
def call (fn : Value) (args : List Value) : Script Value :=
  ev.call fn (argument args 0) args.tail

/-- `apply`: the arguments come as a list. -/
def apply (fn : Value) (args : List Value) : Script Value := do
  let list ← match argument args 1 with
    | .undefined | .null => pure []
    | v => Script.iterate v
  ev.call fn (argument args 0) list

/-- `bind`: the receiver and the first arguments are fixed. -/
def bind (fn : Value) (args : List Value) : Script Value :=
  Alloc.native (.bound fn (argument args 0) args.tail)

end FunctionMethod

namespace Timers

/-- A timer as `setTimeout` describes it. -/
def ofArguments (h : Heap) (args : List Value) (repeats : Bool) : Timer :=
  let delay := (args[1]?.map (Value.toNumber h)).getD 0
  { callback := argument args 0
    delay := if delay.isNaN then 0 else delay
    args := args.drop 2
    repeats }

def start (args : List Value) (repeats : Bool) : Script Value := fun m =>
  let (id, timers) := m.realm.timers.schedule (ofArguments m.heap args repeats)
  .ok (.ofNat id) { m with realm := { m.realm with timers } }

/-- Fires the timers of a round; those that were cancelled meanwhile are passed over. -/
def fire (ev : Evaluator) : List Nat → Nat → Script Nat
  | [], fired => pure fired
  | id :: rest, fired => do
    match (← Script.onRealm Realm.timers).get? id with
    | none => fire ev rest fired
    | some timer =>
      Script.modifyRealm fun r => { r with timers := r.timers.reach id timer }
      if timer.callback.isCallable then
        let _ ← ev.apply timer.callback timer.args
        fire ev rest (fired + 1)
      else fire ev rest fired

/-- Fires every timer that is pending, once; gives how many fired. -/
def round (ev : Evaluator) : Script Nat := do
  fire ev (← Script.onRealm Realm.timers).due 0

end Timers

end TsxPreview
