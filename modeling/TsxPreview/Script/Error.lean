import TsxPreview.Failure
import TsxPreview.Script.Convert

/-!
Errors that scripts raise, as causes, and their wording.
-/

namespace TsxPreview

inductive TypeFault where
  /-- What is called is no function; the text says what it is. -/
  | notFunction (what : String)
  | notConstructor (what : String)
  | notIterable (what : String)
  /-- A pattern takes properties of `undefined` or `null`. -/
  | notDestructurable (what : String)
  | notSearchable (key what : String)
  | notReadable (what key : String)
  | notWritable (what key : String)
  | constant
  | emptyReduce
  | elementType (kind : String)
  | notElement
  | notOnlyChild
  | hookOutside
  | notContext
  | noDefaultExport (entry : String)
  | notComponent (entry kind : String)
  deriving DecidableEq, Inhabited

def TypeFault.message : TypeFault → String
  | notFunction what => s!"{what} is not a function"
  | notConstructor what => s!"{what} is not a constructor"
  | notIterable what => s!"{what} is not iterable"
  | notDestructurable what => s!"Cannot destructure '{what}' as it is {what}."
  | notSearchable key what => s!"Cannot use 'in' operator to search for '{key}' in {what}"
  | notReadable what key => s!"Cannot read properties of {what} (reading '{key}')"
  | notWritable what key => s!"Cannot set properties of {what} (setting '{key}')"
  | constant => "Assignment to constant variable."
  | emptyReduce => "Reduce of empty array with no initial value"
  | elementType kind =>
    "Element type is invalid: expected a string (for built-in components) or a function "
      ++ "(for composite components) but got: " ++ kind
  | notElement => "cloneElement expects an element"
  | notOnlyChild => "React.Children.only expected to receive a single React element child."
  | hookOutside =>
    "Invalid hook call. Hooks can only be called inside of the body of a function component."
  | notContext => "useContext expects a context object"
  | noDefaultExport entry => s!"{entry} has no default export to mount"
  | notComponent entry kind =>
    s!"the default export of {entry} is not a component (found {kind})"

inductive RangeFault where
  | callDepth | arrayLength | stringLength | fixedDigits
  | repeatCount (count : String)
  deriving DecidableEq, Inhabited

def RangeFault.message : RangeFault → String
  | callDepth => "Maximum call stack size exceeded"
  | arrayLength => "Invalid array length"
  | stringLength => "Invalid string length"
  | fixedDigits => "toFixed() digits argument must be between 0 and 100"
  | repeatCount count => s!"Invalid count value: {count}"

/-- What scripts may write and the evaluator does not run. -/
inductive Unsupported where
  | newClosure | moduleSyntax | markup | restInAssignment | assignmentTarget | loaderGone
  deriving DecidableEq, Inhabited

def Unsupported.message : Unsupported → String
  | newClosure => "constructing script functions with `new`"
  | moduleSyntax => "module syntax must be lowered before evaluation"
  | markup => "markup must be lowered before evaluation"
  | restInAssignment => "rest properties in assignment"
  | assignmentTarget => "invalid assignment target"
  | loaderGone => "require after the loader was dropped"

/-- A tree that cannot be mounted, or an event that cannot be delivered. -/
inductive RenderFault where
  | invalidChild (keys : List String)
  | tooManyPasses
  | noMatch (selector : String)
  /-- A selector that cannot be read. -/
  | unreadable (selector : String)
  | targetGone
  deriving DecidableEq, Inhabited

def RenderFault.message : RenderFault → String
  | invalidChild keys =>
    "Objects are not valid as a React child (found: object with keys \x7b"
      ++ String.intercalate ", " keys ++ "\x7d)."
  | tooManyPasses => "Too many re-renders. Updates kept being scheduled while rendering."
  | noMatch selector => s!"no element matches '{selector}'"
  | unreadable text => s!"'{text}' is no selector"
  | targetGone => "event target is no longer mounted"

/-- An index of 64 bits, or a slice of a list, that is out of range. -/
inductive IndexFault where
  | addition | subtraction
  | order (start stop : Nat)
  | extent (stop length : Nat)
  deriving DecidableEq, Inhabited

def IndexFault.message : IndexFault → String
  | addition => "attempt to add with overflow"
  | subtraction => "attempt to subtract with overflow"
  | order start stop => s!"slice index starts at {start} but ends at {stop}"
  | extent stop length => s!"range end index {stop} out of range for slice of length {length}"

inductive ScriptError where
  /-- A value that a script threw. -/
  | thrown (value : Value)
  | type (fault : TypeFault)
  /-- A name that is not declared. -/
  | reference (name : String)
  | range (fault : RangeFault)
  | moduleNotFound (specifier : String)
  | stepLimit (limit : Nat)
  | unsupported (what : Unsupported)
  | render (fault : RenderFault)
  /-- Shared previews take no events. -/
  | interactionBlocked
  /-- The answers of a comparison contradict each other. -/
  | contradiction
  /-- A method of the host left the range of its indices. -/
  | index (fault : IndexFault)
  /-- The evaluator itself ran out of levels. -/
  | exhausted

namespace ScriptError

instance : Inhabited ScriptError := ⟨.exhausted⟩

def message (h : Heap) : ScriptError → String
  | thrown v => "Uncaught " ++ v.describeThrown h
  | type fault => "TypeError: " ++ fault.message
  | reference name => s!"ReferenceError: {name} is not defined"
  | range fault => "RangeError: " ++ fault.message
  | moduleNotFound specifier => s!"module not found: {specifier}"
  | stepLimit limit => s!"evaluation exceeded {limit} steps"
  | unsupported what => "unsupported at runtime: " ++ what.message
  | render fault => "render error: " ++ fault.message
  | interactionBlocked => "interaction is blocked in shared mode"
  | contradiction =>
    "internal error: user-provided comparison function does not correctly implement a total order"
  | index fault => "internal error: " ++ fault.message
  | exhausted => "evaluation is nested too deeply"

/-- Whether a script can catch the error. -/
def isCatchable : ScriptError → Bool
  | thrown _ | type _ | reference _ | range _ => true
  | _ => false

/-- Whether the error ends a run at once: nothing handles it, notes its place or tidies up. -/
def endsRun : ScriptError → Bool
  | contradiction | index _ | exhausted => true
  | _ => false

/-- The name and message of the object that a `catch` receives for an error of the host. -/
def caughtParts : ScriptError → ErrorName × String
  | type fault => (.typeError, fault.message)
  | reference name => (.referenceError, s!"{name} is not defined")
  | range fault => (.rangeError, fault.message)
  | e => (.error, e.message {})

end ScriptError

/-- Where an error arose. -/
structure Location where
  path : Option String
  span : Span
  deriving DecidableEq, Inhabited

/-- An uncaught error as the reason why nothing is shown. -/
def ScriptError.renderError (h : Heap) (e : ScriptError) (place : Option Location) : RenderError :=
  match e with
  | .moduleNotFound specifier => .moduleNotFound specifier
  | e => .evaluation (e.message h) (place.bind Location.path) (place.map Location.span)

end TsxPreview
