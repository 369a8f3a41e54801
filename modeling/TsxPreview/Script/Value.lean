import TsxPreview.Script.Operation
import TsxPreview.Json.Basic
import TsxPreview.Syntax.Basic

/-!
Values of scripts. Arrays and objects are references into a heap; functions and elements are
immutable and carry their content together with an identity, which is what `===` compares.
-/

namespace TsxPreview

structure ArrayRef where
  index : Nat
  deriving DecidableEq, Inhabited

structure ObjectRef where
  index : Nat
  deriving DecidableEq, Inhabited

structure ScopeRef where
  index : Nat
  deriving DecidableEq, Inhabited

/-- What tells one host function from another. -/
inductive Identity where
  | made (n : Nat)
  /-- The icon of a name: a set of icons has one for each. -/
  | icon (set : Nat) (name : String)
  deriving DecidableEq, Inhabited

mutual

inductive Value where
  | undefined
  | null
  | bool (b : Bool)
  | number (x : Float)
  | string (s : String)
  | array (ref : ArrayRef)
  | object (ref : ObjectRef)
  /-- A script function with the scope it was made in and the module it was written in. -/
  | closure (id : Nat) (fn : Function) (scope : ScopeRef) (path : Option String)
  /-- A host function; `statics` are the properties that are read off the function itself. -/
  | native (id : Identity) (fn : HostFunction) (statics : Option ObjectRef)
  /-- A description of what to mount. -/
  | element (id : Nat) (type : ElementType) (props : ObjectRef) (key : Option String)
  /-- The icon package: every capitalised property is a component. -/
  | icons (set : Nat)

/-- What a host function does. -/
inductive HostFunction where
  | global (f : GlobalFunction)
  | «constructor» (c : ConstructorName)
  | error (name : ErrorName)
  | math (f : MathFunction)
  | json (f : JsonFunction)
  | objectFunction (f : ObjectFunction)
  | arrayFunction (f : ArrayFunction)
  | numberFunction (f : NumberFunction)
  | console (level : ConsoleLevel)
  | now
  | dateMethod (m : DateMethod) (time : Float)
  | hasOwnProperty (ref : ObjectRef)
  | objectText
  | boolText (b : Bool)
  | arrayMethod (ref : ArrayRef) (m : ArrayMethod)
  | textMethod (s : String) (m : TextMethod)
  | numberMethod (x : Float) (m : NumberMethod)
  /-- `call`, `apply` and `bind` of a function, and what `bind` gives. -/
  | callOf (fn : Value)
  | applyOf (fn : Value)
  | bindOf (fn : Value)
  | bound (fn this : Value) (args : List Value)
  /-- Imports modules through a loader. -/
  | require (loader : Nat)
  | elementFunction (f : ElementFunction)
  | fragment
  | provider (context : Nat)
  | consumer (context : Nat)
  /-- A component that takes its reference as a second argument. -/
  | forwarded (name : String) (render : Value)
  | childrenFunction (f : ChildrenFunction)
  | hook (h : Hook)
  /-- Changes a state slot of a component instance. -/
  | setState (instanceKey : String) (slot : Nat)
  | dispatch (instanceKey : String) (slot : Nat)
  | slot
  /-- The child's handler and then, unless it prevents that, the slot's. -/
  | composedHandler (child slot : Value)
  | icon (name : String)
  | classFunction (f : ClassFunction)
  | variants (base config : Value)
  | router (f : RouterFunction)
  /-- Chooses among elements of the given route component. -/
  | routes (route : Value)
  | navigate
  /-- Follows a link after the user's own handler. -/
  | follow (handler : Value) (target : String) (replace : Bool)
  | eventMethod (m : EventMethod)
  | noop

inductive ElementType where
  | tag (name : String)
  | fragment
  | provider (context : Nat)
  | consumer (context : Nat)
  | component (value : Value)

end

instance : Inhabited Value := ⟨.undefined⟩

instance : Inhabited ElementType := ⟨.fragment⟩

/-- The name that a script reads off a host function. -/
def HostFunction.name : HostFunction → String
  | global f => f.name
  | «constructor» c => c.name
  | error e => e.name
  | math f => f.name
  | json f => f.name
  | objectFunction f => f.name
  | arrayFunction f => f.name
  | numberFunction f => f.name
  | console level => level.name
  | now => "now"
  | dateMethod m _ => m.name
  | hasOwnProperty _ => "hasOwnProperty"
  | objectText => "toString"
  | boolText _ => "toString"
  | arrayMethod _ m => m.name
  | textMethod _ m => m.name
  | numberMethod _ m => m.name
  | callOf _ => "call"
  | applyOf _ => "apply"
  | bindOf _ => "bind"
  | bound _ _ _ => "bound"
  | require _ => "require"
  | elementFunction f => f.name
  | fragment => "Fragment"
  | provider _ => "Provider"
  | consumer _ => "Consumer"
  | forwarded name _ => name
  | childrenFunction f => f.name
  | hook h => h.name
  | setState _ _ => "setState"
  | dispatch _ _ => "dispatch"
  | slot => "Slot"
  | composedHandler _ _ => "composedHandler"
  | icon name => name
  | classFunction f => f.name
  | variants _ _ => "variants"
  | router f => f.name
  | routes _ => "Routes"
  | navigate => "navigate"
  | follow _ _ _ => "onClick"
  | eventMethod m => m.name
  | noop => "noop"

namespace Value

def typeName : Value → String
  | undefined => "undefined"
  | bool _ => "boolean"
  | number _ => "number"
  | string _ => "string"
  | closure _ _ _ _ | native _ _ _ => "function"
  | null | array _ | object _ | element _ _ _ _ | icons _ => "object"

def isTruthy : Value → Bool
  | undefined | null => false
  | bool b => b
  | number x => x != 0 && !x.isNaN
  | string s => !s.isEmpty
  | _ => true

def isNullish : Value → Bool
  | undefined | null => true
  | _ => false

def isUndefined : Value → Bool
  | undefined => true
  | _ => false

def isCallable : Value → Bool
  | closure _ _ _ _ | native _ _ _ => true
  | _ => false

def text? : Value → Option String
  | string s => some s
  | _ => none

/-- A number of things as a value. -/
def ofNat (n : Nat) : Value := number (Binary64.ofNat n)

/-- The name of a function, empty for one without. -/
def functionName? : Value → Option String
  | closure _ fn _ _ => some ((fn.name?.map Ident.name).getD "")
  | native _ fn _ => some fn.name
  | _ => none

/-- The key that an element was given. -/
def elementKey? : Value → Option String
  | element _ _ _ key => key
  | _ => none

/-- Arrays, objects, functions and elements are equal to themselves only. -/
def sameReference : Value → Value → Bool
  | array a, array b => a == b
  | object a, object b => a == b
  | closure a _ _ _, closure b _ _ _ => a == b
  | native a _ _, native b _ _ => a == b
  | element a _ _ _, element b _ _ _ => a == b
  | icons a, icons b => a == b
  | _, _ => false

/-- `===` -/
def strictEq : Value → Value → Bool
  | undefined, undefined | null, null => true
  | bool a, bool b => a == b
  | number a, number b => a == b
  | string a, string b => a == b
  | a, b => a.sameReference b

/-- As `===`, but not-a-number is itself and the zeros are two. -/
def is : Value → Value → Bool
  | number a, number b =>
    (a.isNaN && b.isNaN) || (a == b && Binary64.signBit a == Binary64.signBit b)
  | a, b => a.strictEq b

/-- The icon of a name; names that do not start with a capital have none. -/
def icon (set : Nat) (name : String) : Value :=
  match name.toList with
  | c :: _ => if c.isUpper then native (.icon set name) (.icon name) none else undefined
  | [] => undefined

end Value

namespace Identity

/-- Hexadecimal digits, two for each byte. -/
def hex (s : String) : List Char :=
  s.toUTF8.toList.flatMap fun b => [Json.lowerHex (b.toNat / 16), Json.lowerHex (b.toNat % 16)]

end Identity

/-- What tells one component from another. A script function is known by where it is written, so a
closure that is made anew on each render stays the same component; a host function is known by
itself. The text holds letters and digits only. -/
def Value.componentId : Value → String
  | .closure _ fn _ path =>
    "c" ++ String.ofList (Identity.hex (path.getD "")) ++ "x" ++ toString fn.span.lo ++ "x"
      ++ toString fn.span.hi
  | .native (.made n) _ _ => "n" ++ toString n
  | .native (.icon set name) _ _ => "i" ++ toString set ++ "x" ++ String.ofList (Identity.hex name)
  | _ => "0"

end TsxPreview
