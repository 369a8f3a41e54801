import TsxPreview.Json.Basic
import TsxPreview.Number.Text
import TsxPreview.Script.Heap
import TsxPreview.Text.Quoted

/-!
Conversions of values: to text, to numbers, to data text and back, and the form that the console
shows. A conversion that follows references ends where they do.
-/

namespace TsxPreview.Value

/-! ### Text -/

/-- The text of a value; `none` if arrays are nested more than `levels` deep. -/
def textAt? (h : Heap) : Nat → Value → Option String
  | _, undefined => some "undefined"
  | _, null => some "null"
  | _, bool b => some (toString b)
  | _, number x => some (formatNumber x)
  | _, string s => some s
  | 0, array _ => none
  | levels + 1, array r => do
    let texts ← (h.items r).toList.mapM fun v =>
      if v.isNullish then some "" else textAt? h levels v
    return String.intercalate "," texts
  | _, closure _ fn _ _ =>
    some ("function " ++ ((fn.name?.map Ident.name).getD "") ++ "() \x7b [native code] \x7d")
  | _, native _ fn _ => some ("function " ++ fn.name ++ "() \x7b [native code] \x7d")
  | _, object _ | _, element _ _ _ _ | _, icons _ => some "[object Object]"

/-- `String(v)`. Of an array that contains itself there is no text, and the search for one goes on
for longer than anybody waits. -/
def text (h : Heap) (v : Value) : String := (textAt? h Heap.levels v).getD ""

/-- The name of the property that a value denotes as a key. -/
def key (h : Heap) (v : Value) : String := v.text h

/-! ### Numbers -/

/-- `Number(v)` -/
def toNumber (h : Heap) : Value → Float
  | undefined => Binary64.nan
  | null => 0
  | bool b => if b then 1 else 0
  | number x => x
  | string s => numberOfText s
  | array r => numberOfText (text h (array r))
  | _ => Binary64.nan

/-- The integer part; not-a-number counts as zero. -/
def toInteger (h : Heap) (v : Value) : Float :=
  let x := v.toNumber h
  if x.isNaN then 0 else Binary64.trunc x

/-! ### Comparisons -/

/-- Arrays, objects and elements stand for their text. -/
def toPrimitive (h : Heap) (v : Value) : Value :=
  match v with
  | array _ | object _ | element _ _ _ _ | icons _ => string (v.text h)
  | v => v

def boolAsNumber : Value → Value
  | bool b => number (if b then 1 else 0)
  | v => v

def textOfReference (h : Heap) (v : Value) : Value :=
  match v with
  | array _ | object _ => string (v.text h)
  | v => v

/-- `==` of two values that are neither nullish nor booleans. -/
def looseEqPlain (h : Heap) (a b : Value) : Bool :=
  match a, b with
  | number _, string _ | string _, number _ => a.toNumber h == b.toNumber h
  | array _, string _ | array _, number _ | object _, string _ | object _, number _ =>
    let a := string (a.text h)
    match b with
    | number y => a.toNumber h == y
    | b => a.strictEq b
  | string _, array _ | number _, array _ | string _, object _ | number _, object _ =>
    let b := string (b.text h)
    match a with
    | number x => x == b.toNumber h
    | a => a.strictEq b
  | a, b => a.strictEq b

/-- `==` -/
def looseEq (h : Heap) (a b : Value) : Bool :=
  if a.isNullish && b.isNullish then true
  else if a.isNullish || b.isNullish then false
  else looseEqPlain h a.boolAsNumber b.boolAsNumber

/-! ### Own properties -/

/-- A property of an object or an icon; `undefined` for all else. -/
def get (h : Heap) (v : Value) (name : String) : Value :=
  match v with
  | object r => ((h.members r).get? name).getD undefined
  | icons set => icon set name
  | _ => undefined

/-- The entries of an object, of an array or of a string by index. -/
def ownEntries (h : Heap) : Value → List (String × Value)
  | object r => (h.members r).entries
  | array r => (h.items r).toList.mapIdx fun i v => (toString i, v)
  | string s => s.toList.mapIdx fun i c => (toString i, string (String.singleton c))
  | _ => []

/-! ### Data text -/

/-- Whole numbers below this are written as integers. -/
def integerLimit : Float := 9000000000000000

def jsonOfNumber (x : Float) : Json :=
  if x.isNaN || x.isInf then .null
  else
    match Binary64.toInt? x with
    | some n => if x.abs < integerLimit then .integer n else .number x
    | none => .number x

/-- The data of a value; functions and `undefined` have none, which is `some none`. It is `none` if
arrays and objects are nested more than `levels` deep. -/
def jsonAt? (h : Heap) : Nat → Value → Option (Option Json)
  | _, undefined | _, closure _ _ _ _ | _, native _ _ _ => some none
  | _, null => some (some .null)
  | _, bool b => some (some (.bool b))
  | _, number x => some (some (jsonOfNumber x))
  | _, string s => some (some (.string s))
  | 0, array _ | 0, object _ => none
  | levels + 1, array r => do
    let items ← (h.items r).toList.mapM (jsonAt? h levels)
    return some (.array (items.map (·.getD .null)))
  | levels + 1, object r => do
    let members ← (h.members r).entries.mapM fun (name, v) => do
      return (name, ← jsonAt? h levels v)
    return some (.object (members.filterMap fun (name, j) => j.map fun j => (name, j)))
  | _, element _ _ _ _ | _, icons _ => some (some (.object []))

/-- The data of a value. Of an array or object that contains itself there is none, as with texts. -/
def json? (h : Heap) (v : Value) : Option Json := (jsonAt? h Heap.levels v).join

mutual

/-- Makes the value of data. -/
def ofJson : Json → Heap → Value × Heap
  | .null, h => (null, h)
  | .bool b, h => (bool b, h)
  | .integer n, h => (number (Binary64.ofInt n), h)
  | .number x, h => (number x, h)
  | .string s, h => (string s, h)
  | .array items, h =>
    let (values, h) := ofJsonItems items h
    let (r, h) := h.newArray values.toArray
    (array r, h)
  | .object members, h =>
    let (members, h) := ofJsonMembers members h
    let (r, h) := h.newObject (.ofList members)
    (object r, h)

def ofJsonItems : List Json → Heap → List Value × Heap
  | [], h => ([], h)
  | j :: rest, h =>
    let (v, h) := ofJson j h
    let (vs, h) := ofJsonItems rest h
    (v :: vs, h)

def ofJsonMembers : List (String × Json) → Heap → List (String × Value) × Heap
  | [], h => ([], h)
  | (name, j) :: rest, h =>
    let (v, h) := ofJson j h
    let (vs, h) := ofJsonMembers rest h
    ((name, v) :: vs, h)

end

/-! ### The console -/

/-- How many levels of arrays and objects the console shows. -/
def shownLevels : Nat := 4

def shownElement : ElementType → String
  | .tag name => "<" ++ name ++ " />"
  | .component v => "<" ++ v.functionName?.getD "" ++ " />"
  | _ => "<>"

/-- A value inside another: strings are quoted. -/
def showAt (h : Heap) : Nat → Value → String
  | _, string s => showQuoted s
  | 0, array _ => "[Array]"
  | levels + 1, array r =>
    "[" ++ String.intercalate ", " ((h.items r).toList.map (showAt h levels)) ++ "]"
  | 0, object _ => "[Object]"
  | levels + 1, object r =>
    let members := (h.members r).entries
    if members.isEmpty then "\x7b\x7d"
    else
      "\x7b "
        ++ String.intercalate ", " (members.map fun (name, v) => name ++ ": " ++ showAt h levels v)
        ++ " \x7d"
  | _, closure _ fn _ _ => "[Function: " ++ ((fn.name?.map Ident.name).getD "") ++ "]"
  | _, native _ fn _ => "[Function: " ++ fn.name ++ "]"
  | _, element _ type _ _ => shownElement type
  | _, icons _ => "[Module: icons]"
  | _, undefined => "undefined"
  | _, null => "null"
  | _, bool b => toString b
  | _, number x => formatNumber x

/-- The console shows strings bare. -/
def inspect (h : Heap) : Value → String
  | string s => s
  | v => showAt h shownLevels v

/-- How an uncaught value reads in a message. -/
def describeThrown (h : Heap) (v : Value) : String :=
  match v with
  | object r =>
    match (h.members r).get? "message" with
    | some message =>
      let name := (((h.members r).get? "name").map (text h)).getD "Error"
      name ++ ": " ++ message.text h
    | none => v.text h
  | v => v.text h

end TsxPreview.Value
