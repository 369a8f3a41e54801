import TsxPreview.Script.Evaluator
import TsxPreview.Sorting

/-!
`Array` and the methods of arrays. A method that calls back sees the items as they were when it
started.
-/

namespace TsxPreview

namespace Script

/-- What indices stay below. -/
def indexLimit : Nat := Nat.pow 2 64

def addIndex (a b : Nat) : Script Nat :=
  if a + b < indexLimit then pure (a + b) else throw (.index .addition)

def subIndex (a b : Nat) : Script Nat :=
  if b ≤ a then pure (a - b) else throw (.index .subtraction)

/-- A slice of a list starts before it ends, and ends within the list. -/
def checkSlice (start stop length : Nat) : Script Unit :=
  if stop < start then throw (.index (.order start stop))
  else if length < stop then throw (.index (.extent stop length))
  else pure ()

end Script

/-- Where a slice starts and ends in a length: negative places count from the end. -/
def sliceBound (length : Nat) (x : Float) : Nat :=
  if x < 0 then Binary64.toIndex (Binary64.ofNat length + x) else min (Binary64.toIndex x) length

/-- The start and end that two arguments of a slice denote. -/
def sliceRange (h : Heap) (length : Nat) (start stop : Value) : Nat × Nat :=
  (if start.isUndefined then 0 else sliceBound length (start.toInteger h),
    if stop.isUndefined then length else sliceBound length (stop.toInteger h))

/-- The place that an index denotes, counted from the end if it is negative. -/
def placeOf? (length : Nat) (x : Float) : Option Nat :=
  let x := if x < 0 then Binary64.ofNat length + x else x
  if x < 0 then none else some (Binary64.toIndex x)

namespace ArrayMethod

variable (ev : Evaluator)

/-- Calls back with an item, its index and the array. -/
def visit (fn this item : Value) (i : Nat) : Script Value := ev.apply fn [item, .ofNat i, this]

def mapFrom (fn this : Value) : List Value → Nat → Array Value → Script (Array Value)
  | [], _, out => pure out
  | v :: rest, i, out => do
    let mapped ← visit ev fn this v i
    mapFrom fn this rest (i + 1) (out.push mapped)

def filterFrom (fn this : Value) : List Value → Nat → Array Value → Script (Array Value)
  | [], _, out => pure out
  | v :: rest, i, out => do
    let kept ← visit ev fn this v i
    filterFrom fn this rest (i + 1) (if kept.isTruthy then out.push v else out)

def flatMapFrom (fn this : Value) : List Value → Nat → Array Value → Script (Array Value)
  | [], _, out => pure out
  | v :: rest, i, out => do
    match ← visit ev fn this v i with
    | .array inner =>
      let items ← Script.onHeap fun h => h.items inner
      flatMapFrom fn this rest (i + 1) (out ++ items)
    | mapped => flatMapFrom fn this rest (i + 1) (out.push mapped)

/-- The first item, in the given order, whose answer is `wanted`. -/
def search (fn this : Value) (wanted : Bool) : List (Value × Nat) → Script (Option (Value × Nat))
  | [] => pure none
  | (v, i) :: rest => do
    let answer ← visit ev fn this v i
    if answer.isTruthy == wanted then return some (v, i) else search fn this wanted rest

def reduceFrom (fn this : Value) : List (Value × Nat) → Value → Script Value
  | [], acc => pure acc
  | (v, i) :: rest, acc => do
    let acc ← ev.apply fn [acc, v, .ofNat i, this]
    reduceFrom fn this rest acc

/-- Folds from the first item unless there is an initial value. -/
def reduceItems (fn this : Value) (items : List (Value × Nat)) (initial : Option Value) :
    Script Value :=
  match initial, items with
  | some v, items => reduceFrom ev fn this items v
  | none, (v, _) :: rest => reduceFrom ev fn this rest v
  | none, [] => Script.typeError .emptyReduce

/-- `undefined` comes last; without a comparison items are ordered by their texts. -/
def orderOf (fn : Value) (a b : Value) : Script Ordering :=
  match a, b with
  | .undefined, .undefined => pure .eq
  | .undefined, _ => pure .gt
  | _, .undefined => pure .lt
  | a, b => do
    if fn.isCallable then
      let v ← ev.apply fn [a, b]
      let x ← Script.numberOf v
      return if x < 0 then .lt else if 0 < x then .gt else .eq
    else
      Script.onHeap fun h => compare (a.text h) (b.text h)

/-- Asks for an order until that fails once; from then on nothing is less than anything. -/
def isLess (fn a b : Value) : StateT (Option ScriptError) Script Bool := do
  if (← get).isSome then return false
  match ← Script.attempt (orderOf ev fn a b) with
  | .ok order => return order == .lt
  | .error e =>
    set (some e)
    return false

/-- The items in order. A comparison that failed fails the sort at its end. -/
def sortItems (fn : Value) (items : List Value) : Script (List Value) := do
  let (sorted, failure) ← (Sorting.sort (isLess ev fn) items).run.run none
  match sorted, failure with
  | none, _ => throw .contradiction
  | some _, some e => throw e
  | some sorted, none => return sorted

/-- The items with arrays among them opened, `depth` levels deep. -/
def flatten (h : Heap) : Nat → List Value → List Value
  | 0, items => items
  | depth + 1, items => items.flatMap fun
    | .array inner => flatten h depth (h.items inner).toList
    | v => [v]

/-- A depth as a number of levels: one and more by whole levels. -/
def levels (h : Heap) (v : Value) : Nat :=
  match v with
  | .undefined => 1
  | v => min (Binary64.toIndex (v.toInteger h)) Heap.levels

def requireCallback (fn : Value) : Script Unit := do
  unless fn.isCallable do Script.typeError (.notFunction (← Script.textOf fn))

/-- The item texts that `join` writes. -/
def joinTexts (h : Heap) (items : Array Value) (separator : String) : String :=
  String.intercalate separator
    (items.toList.map fun v => if v.isNullish then "" else v.text h)

/-- How many items a `splice` takes from a place on. -/
def spliceCount (h : Heap) (args : List Value) (room : Nat) : Nat :=
  match args[1]? with
  | some v => min (Binary64.toIndex (v.toInteger h)) room
  | none => room

/-- Where the items that a `splice` takes start and end in a length. -/
def spliceRange (args : List Value) (size : Nat) : Script (Nat × Nat) := do
  let (start, _) ← Script.onHeap fun h => sliceRange h size (argument args 0) .undefined
  let room ← Script.subIndex size start
  let count ← Script.onHeap fun h => spliceCount h args room
  let stop ← Script.addIndex start count
  Script.checkSlice start stop size
  return (start, stop)

def indexed (items : List Value) : List (Value × Nat) := items.zipIdx

/-- The methods that change the array itself. -/
def change (ref : ArrayRef) (m : ArrayMethod) (args : List Value) : Script Value := do
  let edit (f : Array Value → Array Value) : Script Unit :=
    Script.modifyHeap fun h => h.modifyItems ref f
  let size ← Script.onHeap fun h => (h.items ref).size
  match m with
  | push =>
    edit (· ++ args)
    return .ofNat (size + args.length)
  | unshift =>
    edit (args.toArray ++ ·)
    return .ofNat (size + args.length)
  | pop =>
    let last ← Script.onHeap fun h => (h.items ref).back?
    edit (·.pop)
    return last.getD .undefined
  | shift =>
    let first ← Script.onHeap fun h => (h.items ref)[0]?
    edit (·.extract 1)
    return first.getD .undefined
  | splice =>
    let (start, stop) ← spliceRange args size
    let taken ← Script.onHeap fun h => (h.items ref).extract start stop
    edit fun items => items.extract 0 start ++ args.drop 2 ++ items.extract stop
    Alloc.array taken
  | reverse =>
    edit (·.reverse)
    return .array ref
  | fill =>
    let value := argument args 0
    let (start, stop) ← Script.onHeap fun h =>
      sliceRange h size (argument args 1) (argument args 2)
    edit (·.mapIdx fun i v => if start ≤ i ∧ i < stop then value else v)
    return .array ref
  | sort =>
    let items ← Script.onHeap fun h => (h.items ref).toList
    let sorted ← sortItems ev (argument args 0) items
    edit fun _ => sorted.toArray
    return .array ref
  | _ => return .undefined

/-- The methods that look for an item or fold, by calling back. -/
def callBack (ref : ArrayRef) (m : ArrayMethod) (args : List Value) (items : List Value) :
    Script Value := do
  let this := Value.array ref
  let fn := argument args 0
  requireCallback fn
  match m with
  | map => Alloc.array (← mapFrom ev fn this items 0 #[])
  | filter => Alloc.array (← filterFrom ev fn this items 0 #[])
  | flatMap => Alloc.array (← flatMapFrom ev fn this items 0 #[])
  | forEach =>
    for (v, i) in indexed items do
      let _ ← visit ev fn this v i
    return .undefined
  | someItem => return .bool (← search ev fn this true (indexed items)).isSome
  | every => return .bool (← search ev fn this false (indexed items)).isNone
  | find => return ((← search ev fn this true (indexed items)).map (·.1)).getD .undefined
  | findLast =>
    return ((← search ev fn this true (indexed items).reverse).map (·.1)).getD .undefined
  | findIndex =>
    return ((← search ev fn this true (indexed items)).map (.ofNat ·.2)).getD (.number (-1))
  | findLastIndex =>
    return ((← search ev fn this true (indexed items).reverse).map (.ofNat ·.2)).getD
      (.number (-1))
  | reduce => reduceItems ev fn this (indexed items) args[1]?
  | reduceRight => reduceItems ev fn this (indexed items).reverse args[1]?
  | _ => return .undefined

/-- The methods that only read. -/
def read (ref : ArrayRef) (m : ArrayMethod) (args : List Value) (items : Array Value) :
    Script Value := do
  let first := argument args 0
  match m with
  | includes => return .bool (items.any fun v => v.is first || v.strictEq first)
  | indexOf => return ((items.findIdx? (·.strictEq first)).map Value.ofNat).getD (.number (-1))
  | lastIndexOf =>
    let found := (indexed items.toList).reverse.find? fun (v, _) => v.strictEq first
    return (found.map (.ofNat ·.2)).getD (.number (-1))
  | join =>
    let separator ← match first with
      | .undefined => pure ","
      | v => Script.textOf v
    return .string (← Script.onHeap fun h => joinTexts h items separator)
  | toText => return .string (← Script.textOf (.array ref))
  | slice =>
    let (start, stop) ← Script.onHeap fun h => sliceRange h items.size first (argument args 1)
    let stop := max stop start
    Alloc.array (if stop ≤ items.size then items.extract start stop else #[])
  | atIndex =>
    let x ← Script.integerOf first
    return ((placeOf? items.size x).bind (items[·]?)).getD .undefined
  | concat =>
    let extra ← Script.onHeap fun h => args.flatMap fun
      | .array more => (h.items more).toList
      | v => [v]
    Alloc.array (items ++ extra)
  | flat =>
    let opened ← Script.onHeap fun h => flatten h (levels h first) items.toList
    Alloc.ofList opened
  | keys => Alloc.ofList ((List.range items.size).map .ofNat)
  | entries =>
    let pairs ← (indexed items.toList).mapM fun (v, i) =>
      (Alloc.ofList [.ofNat i, v] : Script Value)
    Alloc.ofList pairs
  | _ => return .undefined

def run (ref : ArrayRef) (m : ArrayMethod) (args : List Value) : Script Value :=
  match m with
  | push | pop | shift | unshift | splice | reverse | fill | sort => change ev ref m args
  | map | filter | forEach | flatMap | someItem | every | find | findLast | findIndex
  | findLastIndex | reduce | reduceRight => do
    callBack ev ref m args (← Script.onHeap fun h => (h.items ref).toList)
  | includes | indexOf | lastIndexOf | join | slice | concat | flat | atIndex | keys | entries
  | toText => do
    read ref m args (← Script.onHeap fun h => h.items ref)

end ArrayMethod

namespace ArrayFunction

variable (ev : Evaluator)

def mapPairs (fn : Value) : List Value → Nat → Array Value → Script (Array Value)
  | [], _, out => pure out
  | v :: rest, i, out => do
    let mapped ← ev.apply fn [v, .ofNat i]
    mapPairs fn rest (i + 1) (out.push mapped)

/-- The items of a source: those of an array or a text, or as many holes as an object's length. -/
def sourceItems (source : Value) : Script (List Value) :=
  match source with
  | .object _ => do
    let length ← Script.integerOf (← Script.getProperty source "length")
    return List.replicate (← Script.arrayLength (if length < 0 then 0 else length)) .undefined
  | .array _ | .string _ => Script.iterate source
  | _ => pure []

def run (f : ArrayFunction) (args : List Value) : Script Value := do
  match f with
  | isArray =>
    return .bool (match argument args 0 with
      | .array _ => true
      | _ => false)
  | ofSource =>
    let items ← sourceItems (argument args 0)
    let fn := argument args 1
    if fn.isCallable then Alloc.array (← mapPairs ev fn items 0 #[]) else Alloc.ofList items
  | ofItems => Alloc.ofList args

/-- `Array(n)` has `n` holes; other arguments are the items. -/
def construct (args : List Value) : Script Value :=
  match args with
  | [.number x] => do Alloc.array (Array.replicate (← Script.arrayLength x) .undefined)
  | args => Alloc.ofList args

end ArrayFunction

end TsxPreview
