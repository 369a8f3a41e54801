import TsxPreview.Script.Host
import TsxPreview.View.Scene
import TsxPreview.View.Stage

/-!
Rendering: the children of a container are built anew from the root element. The properties of an
element become attributes, listeners and inline style. A component instance is known by where it
stands; while it stands there its hooks keep what they stored. A pass that leaves updates is followed
by another.
-/

namespace TsxPreview

/-! ### Attributes -/

namespace Attribute

/-- Properties whose attributes have another name. -/
def renamed : List (String × String) :=
  [("className", "class"), ("htmlFor", "for"), ("tabIndex", "tabindex"), ("readOnly", "readonly"),
    ("autoFocus", "autofocus"), ("autoComplete", "autocomplete"), ("maxLength", "maxlength"),
    ("minLength", "minlength"), ("colSpan", "colspan"), ("rowSpan", "rowspan"),
    ("srcSet", "srcset"), ("crossOrigin", "crossorigin"), ("strokeWidth", "stroke-width"),
    ("strokeLinecap", "stroke-linecap"), ("strokeLinejoin", "stroke-linejoin"),
    ("strokeDasharray", "stroke-dasharray"), ("strokeDashoffset", "stroke-dashoffset"),
    ("strokeOpacity", "stroke-opacity"), ("fillOpacity", "fill-opacity"),
    ("fillRule", "fill-rule"), ("clipRule", "clip-rule"), ("stopColor", "stop-color"),
    ("textAnchor", "text-anchor")]

def ofProperty (name : String) : String := (renamed.lookup name).getD name

/-- The value of an attribute; none if the attribute is not set. -/
def value? (h : Heap) (name : String) : Value → Option String
  | .undefined | .null | .bool false | .closure _ _ _ _ | .native _ _ _ => none
  | .bool true =>
    some (if name.startsWith "aria-" || name.startsWith "data-" then "true" else "")
  | v => some (v.text h)

/-- The event that a property listens to: `click` for `onClick`. -/
def event? (property : String) : Option String :=
  match property.toList with
  | 'o' :: 'n' :: c :: rest =>
    if c.isUpper then some (String.ofList ((c :: rest).map Char.toLower)) else none
  | _ => none

end Attribute

namespace Style

/-- Properties whose numbers have no unit. -/
def unitless : List String :=
  ["opacity", "zIndex", "fontWeight", "lineHeight", "flex", "flexGrow", "flexShrink", "order",
    "zoom", "gridRow", "gridColumn", "aspectRatio", "scale"]

/-- `background-color` for `backgroundColor`; custom properties stay as they are. -/
def propertyName (name : String) : String :=
  if name.startsWith "--" then name
  else String.ofList (name.toList.flatMap fun c => if c.isUpper then ['-', c.toLower] else [c])

def valueText (h : Heap) (name : String) : Value → String
  | .number x =>
    if x != 0 && !unitless.contains name then formatNumber x ++ "px" else formatNumber x
  | v => v.text h

def entry? (h : Heap) (name : String) : Value → Option String
  | .undefined | .null | .bool _ => none
  | v => some (propertyName name ++ ": " ++ valueText h name v)

/-- Inline style, in the order of the properties. -/
def text (h : Heap) : Value → String
  | .string css => css
  | .object r =>
    String.intercalate "; " ((h.members r).entries.filterMap fun (n, v) => entry? h n v)
  | _ => ""

end Style

namespace Render

/-! ### Elements -/

variable (ev : Evaluator)

/-- What a reference to an element receives. -/
def handle (tag : String) (h : Heap) (props : ObjectRef) : Alloc Value := do
  let focus ← Alloc.native .noop
  let blur ← Alloc.native .noop
  let scroll ← Alloc.native .noop
  Alloc.members [("tagName", .string (tag.map Char.toUpper)),
    ("id", (Value.object props).get h "id"), ("value", (Value.object props).get h "value"),
    ("focus", focus), ("blur", blur), ("scrollIntoView", scroll)]

/-- Fills in a reference object, or calls a reference function. -/
def attachRef (reference : Value) (tag : String) (props : ObjectRef) : Script Unit := do
  let made ← handle tag (← Script.onHeap id) props
  match reference with
  | .object _ => Script.setProperty reference "current" made
  | reference =>
    if reference.isCallable then
      let _ ← ev.apply reference [made]

/-- Applies one property to a node. -/
def applyProperty (node : NodeId) (tag : String) (props : ObjectRef) (name : String)
    (value : Value) : View Unit :=
  match name with
  | "children" | "key" => pure ()
  | "ref" => View.script (attachRef ev value tag props)
  | "style" => do
    let css ← View.script (Script.onHeap fun h => Style.text h value)
    if !css.isEmpty then View.modifyDocument (·.setAttribute node "style" css)
  | name =>
    match Attribute.event? name with
    | some event =>
      if value.isCallable then View.modifyDocument (·.setListener node event value) else pure ()
    | none => do
      let own := Attribute.ofProperty name
      match ← View.script (Script.onHeap fun h => Attribute.value? h own value) with
      | some text => View.modifyDocument (·.setAttribute node own text)
      | none => pure ()

/-- Applies properties in order and gives the text that one of them puts in place of children. -/
def applyProperties (node : NodeId) (tag : String) (props : ObjectRef) :
    Option String → List (String × Value) → View (Option String)
  | inner, [] => pure inner
  | inner, (name, value) :: rest => do
    if name = "dangerouslySetInnerHTML" then
      let text ← View.script (Script.onHeap fun h => (value.get h "__html").text h)
      applyProperties node tag props (some text) rest
    else
      applyProperty ev node tag props name value
      applyProperties node tag props inner rest

/-- Renders items one after another. -/
def renderItems (render : Value → String → View Scene) (position : String) :
    Nat → List Value → View (List Scene)
  | _, [] => pure []
  | i, item :: rest => do
    let shown ← render item (itemPosition position i item.elementKey?)
    return shown :: (← renderItems render position (i + 1) rest)

def propertyOf (props : ObjectRef) (name : String) : View Value :=
  View.script (Script.onHeap fun h => (Value.object props).get h name)

def slotsOf (key : String) : View (Option (Array HookSlot)) :=
  View.script (Script.onRealm fun r => r.hooks.slots.get? key)

/-- Calls a component at a position. -/
def visit (position : String) (component : Value) (props : ObjectRef) : View (Value × Part) := do
  let key := instanceKey position component
  let found ← slotsOf key
  View.script (Script.modifyHooks (·.enter key))
  let output ← View.finallyHooks HookStore.leave (View.script (ev.apply component [.object props]))
  return (output, .component component found (← slotsOf key))

/-- Renders a value at the end of a parent, at most `levels` deep. -/
def render : (levels : Nat) → NodeId → Value → String → View Scene
  | 0, _, _, _ => throw .exhausted
  | levels + 1, parent, value, position =>
    match value with
    | .undefined | .null | .bool _ | .closure _ _ _ _ | .native _ _ _ | .icons _ => pure .plain
    | .number x => do
      View.placeText parent (formatNumber x)
      return .plain
    | .string s => do
      View.placeText parent s
      return .plain
    | .array r => do
      let items ← View.script (Script.onHeap fun h => (h.items r).toList)
      return .list (← renderItems (render levels parent) position 0 items)
    | .object r => do
      let keys ← View.script (Script.onHeap fun h => (h.members r).keys)
      throw (.render (.invalidChild keys))
    | .element _ type props key =>
      match type with
      | .tag tag => do
        let node ← View.place parent (.element tag [] [])
        let entries ← View.script (Script.onHeap fun h => (h.members props).entries)
        match ← applyProperties ev node tag props none entries with
        | some text =>
          View.placeText node text
          return .element key (.tag tag) .plain
        | none =>
          let children ← propertyOf props "children"
          return .element key (.tag tag)
            (← render levels node children (childrenPosition position tag))
      | .fragment => do
        let children ← propertyOf props "children"
        return .element key .group (← render levels parent children position)
      | .provider context => do
        let given ← propertyOf props "value"
        View.script (Script.modifyHooks (·.pushProvider context given))
        let shown ← View.finallyHooks HookStore.popProvider do
          render levels parent (← propertyOf props "children") position
        return .element key .group shown
      | .consumer context => do
        let given ← View.script (Script.onRealm fun r => r.hooks.contextValue context)
        let child ← View.script (ev.apply (← propertyOf props "children") [given])
        return .element key .consumer (← render levels parent child (consumerPosition position))
      | .component component => do
        let (output, part) ← visit ev position component props
        return .element key part (← render levels parent output (part.below position))

/-! ### Passes -/

/-- Whether updates were made since the last time it was asked. -/
def takeDirty : Script Bool := do
  let dirty ← Script.onRealm fun r => r.hooks.dirty
  Script.modifyHooks fun s => { s with dirty := false }
  return dirty

/-- Builds the children of a container, drops the instances that are gone and runs effects. -/
def pass (container : NodeId) (root : Value) : View Scene := do
  View.script (Script.modifyHooks HookStore.beginPass)
  View.modifyDocument (·.clear container)
  let shown ← render ev Evaluator.levels container root rootPosition
  View.script (Hook.sweep ev)
  View.script (Hook.runPending ev)
  return shown

/-- Passes until one leaves no updates, at most `count` of them. -/
def passes (container : NodeId) (root : Value) : (count : Nat) → View Unit
  | 0 => throw (.render .tooManyPasses)
  | count + 1 => do
    let _ ← pass ev container root
    if ← View.script takeDirty then passes container root count

def maxPasses : Nat := 50

/-- Shows a root element in a container. -/
def display (container : NodeId) (root : Value) : View Unit := do
  let _ ← View.script takeDirty
  passes ev container root maxPasses

end Render

end TsxPreview
