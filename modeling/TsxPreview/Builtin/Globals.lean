import TsxPreview.Builtin.Array
import TsxPreview.Builtin.Date
import TsxPreview.Builtin.Function
import TsxPreview.Builtin.Object
import TsxPreview.Builtin.Math
import TsxPreview.Builtin.Text

/-!
The globals that every realm starts with.
-/

namespace TsxPreview

namespace GlobalFunction

def parseIntArgs (h : Heap) (args : List Value) : Value :=
  let radix := match argument args 1 with
    | .undefined => 0
    | v => Binary64.toNatBelow (Nat.pow 2 32) (v.toInteger h)
  .number (Leading.integer ((argument args 0).text h).toList radix)

def run (f : GlobalFunction) (args : List Value) : Script Value := do
  let first := argument args 0
  match f with
  | parseInt => Script.onHeap fun h => parseIntArgs h args
  | parseFloat => return .number (Leading.decimal (← Script.textOf first).toList)
  | isNaN => return .bool (← Script.numberOf first).isNaN
  | isFinite =>
    let x ← Script.numberOf first
    return .bool (!x.isNaN && !x.isInf)
  | structuredClone =>
    match ← Script.onHeap fun h => first.json? h with
    | some j => Alloc.ofJson j
    | none => return .undefined
  | setTimeout => Timers.start args false
  | setInterval => Timers.start args true
  | clearTimeout | clearInterval =>
    let id ← Script.numberOf first
    Script.modifyRealm fun r => { r with timers := r.timers.cancel (Binary64.toIndex id) }
    return .undefined

end GlobalFunction

namespace ConstructorName

def run (c : ConstructorName) (args : List Value) : Script Value := do
  let first := argument args 0
  match c with
  | object => ObjectFunction.convert first
  | array => ArrayFunction.construct args
  | string => if args.isEmpty then return .string "" else return .string (← Script.textOf first)
  | number => if args.isEmpty then return .number 0 else return .number (← Script.numberOf first)
  | boolean => return .bool first.isTruthy
  | date => DateMethod.construct args

/-- The functions that belong to a constructor. -/
def statics (c : ConstructorName) : Alloc (List (String × Value)) := do
  match c with
  | object => Alloc.natives ObjectFunction.all ObjectFunction.name .objectFunction
  | array => Alloc.natives ArrayFunction.all ArrayFunction.name .arrayFunction
  | number =>
    let functions ← Alloc.natives NumberFunction.all NumberFunction.name .numberFunction
    return functions ++ NumberFunction.constants
  | date => return [("now", ← Alloc.native .now)]
  | string | boolean => return []

end ConstructorName

namespace Globals

def constructors : List ConstructorName := [.object, .array, .string, .number, .boolean, .date]

/-- All globals by name. -/
def entries : Alloc (List (String × Value)) := do
  let math ← Alloc.members (← MathFunction.members)
  let json ← Alloc.members (← Alloc.natives [.stringify, .parse] JsonFunction.name .json)
  let console ← Alloc.members (← Alloc.natives ConsoleLevel.all ConsoleLevel.name .console)
  let constructed ← constructors.mapM fun c => do
    return (c.name, ← Alloc.nativeWith (.constructor c) (← c.statics))
  let errors ← Alloc.natives ErrorName.all ErrorName.name .error
  let functions ← Alloc.natives GlobalFunction.all GlobalFunction.name .global
  return [("NaN", .number Binary64.nan), ("Infinity", .number Binary64.infinity), ("Math", math),
    ("JSON", json), ("console", console)] ++ constructed ++ errors ++ functions

/-- A new outermost scope with the globals, which scripts cannot assign. -/
def make : Alloc ScopeRef := do
  let scope ← fun h => h.newScope none
  for (name, v) in ← entries do modify fun h => h.define scope name v false
  return scope

end Globals

end TsxPreview
