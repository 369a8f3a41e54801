import TsxPreview.Script.Machine

/-!
Properties of values: own ones, and the methods that the host gives to strings, arrays, numbers and
functions. A method is made anew each time it is read. And operators on evaluated operands.
-/

namespace TsxPreview

/-- The index that a key spells. -/
def arrayIndex? (key : String) : Option Nat := readWord 10 key.toList

/-- The longest array that a script may make. -/
def maxArrayLength : Nat := Nat.pow 2 22

/-- The longest text, in characters, that a script may build by repetition. -/
def maxTextLength : Nat := Nat.pow 2 24

namespace Script

/-- A number as the length of an array. -/
def arrayLength (x : Float) : Script Nat :=
  match Binary64.toInt? x with
  | some n => if 0 ≤ n ∧ n ≤ maxArrayLength then pure n.toNat else rangeError .arrayLength
  | none => rangeError .arrayLength

/-- A number of characters. -/
def textLength (x : Float) : Script Nat :=
  if Binary64.ofNat maxTextLength < x then rangeError .stringLength else pure (Binary64.toIndex x)

/-- A property that only functions have. -/
def functionProperty (fn : Value) (name : String) (key : String) : Script Value :=
  match key with
  | "name" => pure (.string name)
  | "call" => Alloc.native (.callOf fn)
  | "apply" => Alloc.native (.applyOf fn)
  | "bind" => Alloc.native (.bindOf fn)
  | _ => pure .undefined

def nativeOr {α : Type} (method : Option α) (fn : α → HostFunction) : Script Value :=
  match method with
  | some m => Alloc.native (fn m)
  | none => pure .undefined

/-- `object[key]` -/
def getProperty (object : Value) (key : String) : Script Value :=
  match object with
  | .undefined => typeError (.notReadable "undefined" key)
  | .null => typeError (.notReadable "null" key)
  | .object r => do
    match ← onHeap fun h => (h.members r).get? key with
    | some v => pure v
    | none =>
      match key with
      | "hasOwnProperty" => Alloc.native (.hasOwnProperty r)
      | "toString" => Alloc.native .objectText
      | _ => pure .undefined
  | .array r =>
    if key = "length" then onHeap fun h => .ofNat (h.items r).size
    else
      match arrayIndex? key with
      | some i => onHeap fun h => ((h.items r)[i]?).getD .undefined
      | none => nativeOr (ArrayMethod.ofName? key) (.arrayMethod r)
  | .string s =>
    if key = "length" then pure (.ofNat s.length)
    else
      match arrayIndex? key with
      | some i =>
        pure (match (s.toList.drop i).head? with
          | some c => .string (String.singleton c)
          | none => .undefined)
      | none => nativeOr (TextMethod.ofName? key) (.textMethod s)
  | .number x => nativeOr (NumberMethod.ofName? key) (.numberMethod x)
  | .bool b => if key = "toString" then Alloc.native (.boolText b) else pure .undefined
  | .closure _ fn _ _ => functionProperty object ((fn.name?.map Ident.name).getD "") key
  | .native _ fn statics => do
    let own ← match statics with
      | some r => onHeap fun h => ((h.members r).get? key).getD .undefined
      | none => pure .undefined
    if own.isUndefined then functionProperty object fn.name key else pure own
  | .element _ type props elementKey =>
    pure (match key with
      | "props" => .object props
      | "key" => (elementKey.map Value.string).getD .null
      | "type" =>
        match type with
        | .tag name => .string name
        | .component c => c
        | _ => .undefined
      | _ => .undefined)
  | .icons set => pure (.icon set key)

/-- The items with as many holes as make the length. -/
def padded (length : Nat) (items : Array Value) : Array Value :=
  items ++ Array.replicate (length - items.size) .undefined

/-- `object[key] = value`; what is neither an object nor an array keeps nothing. -/
def setProperty (object : Value) (key : String) (value : Value) : Script Unit :=
  match object with
  | .undefined => typeError (.notWritable "undefined" key)
  | .null => typeError (.notWritable "null" key)
  | .object r => modifyHeap fun h => h.modifyMembers r (·.insert key value)
  | .array r =>
    if key = "length" then do
      let length ← arrayLength (← numberOf value)
      modifyHeap fun h => h.modifyItems r fun items => (padded length items).take length
    else
      match arrayIndex? key with
      | none => pure ()
      | some i => do
        let size ← onHeap fun h => (h.items r).size
        if i < size then modifyHeap fun h => h.modifyItems r (·.setIfInBounds i value)
        else
          let length ← arrayLength (Binary64.ofNat i + 1)
          modifyHeap fun h => h.modifyItems r fun items =>
            (padded length items).setIfInBounds i value
  | _ => pure ()

/-! ### Collections -/

/-- The items that a spread or a loop sees. -/
def iterate (v : Value) : Script (List Value) :=
  match v with
  | .array r => onHeap fun h => (h.items r).toList
  | .string s => pure (s.toList.map fun c => .string (String.singleton c))
  | .undefined => typeError (.notIterable "undefined")
  | .null => typeError (.notIterable "null")
  | v => typeError (.notIterable v.typeName)

/-- The keys that a loop over properties visits. -/
def keysOf (h : Heap) : Value → List Value
  | .object r => (h.members r).keys.map .string
  | .array r => (List.range (h.items r).size).map fun i => .string (toString i)
  | .string s => (List.range s.length).map fun i => .string (toString i)
  | _ => []

def ownEntries (v : Value) : Script (List (String × Value)) := onHeap v.ownEntries

end Script

/-! ### Operators -/

/-- Whether the right operand is left alone. -/
def LogicalOp.decides : LogicalOp → Value → Bool
  | and, v => !v.isTruthy
  | or, v => v.isTruthy
  | nullish, v => !v.isNullish

namespace Value

/-- `+` joins texts if one operand is text, and adds numbers otherwise. -/
def add (h : Heap) (a b : Value) : Value :=
  match a.toPrimitive h, b.toPrimitive h with
  | string s, b => string (s ++ b.text h)
  | a, string t => string (a.text h ++ t)
  | a, b => number (a.toNumber h + b.toNumber h)

/-- Compares two texts by their characters and all else as numbers. -/
def compare (h : Heap) (a b : Value) (ofText : String → String → Bool)
    (ofNumbers : Float → Float → Bool) : Value :=
  match a.toPrimitive h, b.toPrimitive h with
  | string s, string t => bool (ofText s t)
  | a, b => bool (ofNumbers (a.toNumber h) (b.toNumber h))

def arithmetic (h : Heap) (f : Float → Float → Float) (a b : Value) : Value :=
  number (f (a.toNumber h) (b.toNumber h))

end Value

namespace Script

/-- Whether a value has a property. -/
def hasProperty (v : Value) (key : String) : Script Bool :=
  match v with
  | .object r => onHeap fun h => (h.members r).contains key
  | .array r => onHeap fun h =>
    key == "length" || (arrayIndex? key).any fun i => decide (i < (h.items r).size)
  | .icons set => pure !(Value.icon set key).isNullish
  | .closure _ _ _ _ | .native _ _ _ | .element _ _ _ _ => do
    return !(← getProperty v key).isNullish
  | v => do typeError (.notSearchable key (← textOf v))

def binary (op : BinaryOp) (a b : Value) : Script Value :=
  match op with
  | .add => onHeap fun h => a.add h b
  | .sub => onHeap fun h => a.arithmetic h (· - ·) b
  | .mul => onHeap fun h => a.arithmetic h (· * ·) b
  | .div => onHeap fun h => a.arithmetic h (· / ·) b
  | .mod => onHeap fun h => a.arithmetic h Binary64.remainder b
  | .exp => onHeap fun h => a.arithmetic h Float.pow b
  | .strictEq => pure (.bool (a.strictEq b))
  | .strictNotEq => pure (.bool !(a.strictEq b))
  | .looseEq => onHeap fun h => .bool (a.looseEq h b)
  | .looseNotEq => onHeap fun h => .bool !(a.looseEq h b)
  | .less => onHeap fun h => a.compare h b (fun s t => decide (s < t)) (fun x y => x < y)
  | .greater => onHeap fun h => a.compare h b (fun s t => decide (t < s)) (fun x y => y < x)
  | .lessEq => onHeap fun h => a.compare h b (fun s t => decide (s ≤ t)) (fun x y => x <= y)
  | .greaterEq => onHeap fun h => a.compare h b (fun s t => decide (t ≤ s)) (fun x y => y <= x)
  | .in => do
    let key ← onHeap a.key
    return .bool (← hasProperty b key)

def unary (op : UnaryOp) (v : Value) : Script Value :=
  match op with
  | .not => pure (.bool !v.isTruthy)
  | .neg => onHeap fun h => .number (-(v.toNumber h))
  | .plus => onHeap fun h => .number (v.toNumber h)
  | .typeOf => pure (.string v.typeName)
  | .void => pure .undefined

end Script

end TsxPreview
