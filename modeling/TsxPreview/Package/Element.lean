import TsxPreview.Script.Evaluator

/-!
Elements: their making, and the helpers that take them apart. Packages make elements of their own:
icons are outlines drawn by class name, and the slot renders its child with its own props merged in.
-/

namespace TsxPreview

namespace ElementFunction

/-- What an element of a type is: a tag, a marker of the host, or a component. -/
def elementType (v : Value) : Script ElementType :=
  match v with
  | .string tag => pure (.tag tag)
  | .native _ .fragment _ => pure .fragment
  | .native _ (.provider context) _ => pure (.provider context)
  | .native _ (.consumer context) _ => pure (.consumer context)
  | .native _ _ _ | .closure _ _ _ _ => pure (.component v)
  | v => Script.typeError (.elementType v.typeName)

/-- The text of a key that is given. -/
def keyText (h : Heap) (v : Option Value) : Option String :=
  match v with
  | none | some .undefined | some .null => none
  | some v => some (v.text h)

/-- Children as a prop: one stands for itself, several are a list. -/
def withChildren (props : Record Value) (children : List Value) : Script (Record Value) := do
  match children with
  | [] => return props
  | [child] => return props.insert "children" child
  | children => return props.insert "children" (← Alloc.ofList children)

/-- `createElement(type, props, ...children)`; the key is no prop. -/
def create (args : List Value) : Script Value := do
  let type ← elementType (argument args 0)
  let entries ← Script.ownEntries (argument args 1)
  let props : Record Value := .ofList entries
  let key ← Script.onHeap fun h => keyText h (props.get? "key")
  let props ← withChildren (props.erase "key") (args.drop 2)
  Alloc.element type props key

/-- A copy of an element with more props, and other children if there are any. -/
def clone (args : List Value) : Script Value := do
  match argument args 0 with
  | .element _ type ref oldKey =>
    let own ← Script.onHeap fun h => (h.members ref).entries
    let more ← Script.ownEntries (argument args 1)
    let props : Record Value := .ofList (own ++ more)
    let props ← withChildren props (args.drop 2)
    let key ← Script.onHeap fun h => keyText h (props.get? "key")
    Alloc.element type (props.erase "key") (key <|> oldKey)
  | _ => Script.typeError .notElement

/-- A context with its provider and its consumer. -/
def makeContext (value : Value) : Script Value := do
  Script.modifyRealm fun r => { r with contexts := r.contexts + 1 }
  let id ← Script.onRealm Realm.contexts
  Script.modifyHooks fun s => s.defineContext id value
  let provider ← Alloc.native (.provider id)
  let consumer ← Alloc.native (.consumer id)
  Alloc.members [("Provider", provider), ("Consumer", consumer), ("_id", .ofNat id),
    ("_defaultValue", value)]

def run (f : ElementFunction) (args : List Value) : Script Value := do
  let first := argument args 0
  match f with
  | createElement => create args
  | cloneElement => clone args
  | isValidElement =>
    return .bool (match first with
      | .element _ _ _ _ => true
      | _ => false)
  | memo => return first
  | forwardRef => Alloc.native (.forwarded (first.functionName?.getD "ForwardRef") first)
  | createContext => makeContext first

end ElementFunction

namespace ChildrenFunction

/-- Children as a list: lists among them are opened, and nothing stands for what is not shown. -/
def flatten (h : Heap) : Nat → Value → List Value
  | _, .undefined | _, .null | _, .bool _ => []
  | 0, .array _ => []
  | levels + 1, .array r => (h.items r).toList.flatMap (flatten h levels)
  | _, v => [v]

def run (ev : Evaluator) (f : ChildrenFunction) (args : List Value) : Script Value := do
  let first := argument args 0
  let list ← Script.onHeap fun h => flatten h Heap.levels first
  let fn := argument args 1
  match f with
  | toArray => Alloc.ofList list
  | count => return .ofNat list.length
  | map =>
    let mapped ← list.zipIdx.mapM fun (child, i) => ev.apply fn [child, .ofNat i]
    Alloc.ofList mapped
  | forEach =>
    for (child, i) in list.zipIdx do
      let _ ← ev.apply fn [child, .ofNat i]
    return .undefined
  | only =>
    match first with
    | .element _ _ _ _ => return first
    | _ => Script.typeError .notOnlyChild

end ChildrenFunction

end TsxPreview

/-! ### Icons -/

namespace TsxPreview.Icon

/-- Props that an icon uses itself and does not pass on. -/
def consumed : List String := ["size", "color", "strokeWidth", "absoluteStrokeWidth", "className"]

/-- Whether a word starts at a character after another. -/
def startsWord (previous c : Char) : Bool :=
  (c.isUpper && !previous.isUpper) || (c.isDigit && !previous.isDigit)

/-- Hyphens between words, which start at capitals and at digits. -/
def hyphenated : Option Char → List Char → List Char
  | _, [] => []
  | previous, c :: rest =>
    let opens := previous.any fun p => startsWord p c && p != '-'
    (if opens then ['-'] else []) ++ c.toLower :: hyphenated (some c) rest

def className (name : String) : String :=
  "lucide lucide-" ++ String.ofList (hyphenated none name.toList)

def nonNullishOr (v : Value) (fallback : Float) : Value :=
  if v.isNullish then .number fallback else v

def render (name : String) (props : Value) : Script Value := do
  let get (key : String) : Script Value := Script.onHeap fun h => props.get h key
  let size := nonNullishOr (← get "size") 24
  let width := nonNullishOr (← get "strokeWidth") 2
  let color := match ← get "color" with
    | .string s => Value.string s
    | _ => .string "currentColor"
  let classes := match ← get "className" with
    | .string extra => if extra.isEmpty then className name else className name ++ " " ++ extra
    | _ => className name
  let passed := (← Script.ownEntries props).filter fun (key, _) => !consumed.contains key
  let attrs : List (String × Value) :=
    [("xmlns", .string "http://www.w3.org/2000/svg"), ("width", size), ("height", size),
      ("viewBox", .string "0 0 24 24"), ("fill", .string "none"), ("stroke", color),
      ("strokeWidth", width), ("strokeLinecap", .string "round"),
      ("strokeLinejoin", .string "round"), ("className", .string classes)]
  Alloc.element (.tag "svg") (.ofList (attrs ++ passed)) none

end TsxPreview.Icon

/-! ### The slot -/

namespace TsxPreview

/-- Whether a prop is an event handler by its name. -/
def isHandlerName (name : String) : Bool :=
  match name.toList with
  | 'o' :: 'n' :: c :: _ => c.isUpper
  | _ => false

namespace Slot

/-- Both class names if there are two. -/
def joinClasses (slot child : Value) : Value :=
  match slot, child with
  | .string a, .string b =>
    if !a.isEmpty && !b.isEmpty then .string (a ++ " " ++ b)
    else if b.isEmpty then .string a else child
  | .string a, child => if child.isNullish then .string a else child
  | _, child => child

/-- Both styles; the child's entries win. -/
def mergeStyles (slot child : Value) : Script Value := do
  if slot.isNullish then return child
  let own ← Script.ownEntries slot
  let more ← Script.ownEntries child
  Alloc.object (.ofList (own ++ more))

/-- The prop of the child, merged with the slot's of that name. -/
def mergeProp (name : String) (slot child : Value) : Script Value :=
  match name with
  | "className" => pure (joinClasses slot child)
  | "style" => mergeStyles slot child
  | name =>
    if isHandlerName name && slot.isCallable && child.isCallable then
      Alloc.native (.composedHandler child slot)
    else pure child

def mergeProps : List (String × Value) → Record Value → Script (Record Value)
  | [], out => pure out
  | (name, child) :: rest, out => do
    let v ← mergeProp name ((out.get? name).getD .undefined) child
    mergeProps rest (out.insert name v)

/-- The only child of a list stands for the list. -/
def onlyChild (h : Heap) (v : Value) : Value :=
  match v with
  | .array r => match (h.items r).toList with
    | [child] => child
    | _ => v
  | v => v

def render (props : Value) : Script Value := do
  let child ← Script.onHeap fun h => onlyChild h (props.get h "children")
  match child with
  | .element _ type ref key =>
    let own := (← Script.ownEntries props).filter fun (name, _) => name != "children"
    let entries ← Script.onHeap fun h => (h.members ref).entries
    Alloc.element type (← mergeProps entries (.ofList own)) key
  | child => return child

/-- The child's handler, then the slot's unless the event was prevented. -/
def handle (ev : Evaluator) (child slot this : Value) (args : List Value) : Script Value := do
  let result ← ev.call child this args
  let prevented ← match args with
    | event :: _ => Script.onHeap fun h => (event.get h "defaultPrevented").isTruthy
    | [] => pure false
  if !prevented then
    let _ ← ev.call slot this args
  return result

end Slot

end TsxPreview
