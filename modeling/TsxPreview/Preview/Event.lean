import TsxPreview.Preview.Mount

/-!
Events. An event goes from its target up to the container and calls the listeners that it meets; if
they made updates, the preview is rendered again. A shared preview takes no events.
-/

namespace TsxPreview

structure Event where
  kind : String
  value : Option String := none
  checked : Option Bool := none
  key : Option String := none
  deriving DecidableEq, Inhabited

namespace Event

def ofJson? (j : Json) : Option Event := do
  let fields ← j.fields? .lenient ["type", "value", "checked", "key"]
  return {
    kind := ← (← fields.lookup "type").string?
    value := ← Json.fieldOr none (Json.nullable? Json.string?) fields "value"
    checked := ← Json.fieldOr none (Json.nullable? Json.bool?) fields "checked"
    key := ← Json.fieldOr none (Json.nullable? Json.string?) fields "key" }

/-! ### What scripts see -/

/-- A node as scripts see it. -/
def nodeObject (d : Document) (n : NodeId) : Alloc Value :=
  let read (name : String) : Value := ((d.attribute? n name).map Value.string).getD .undefined
  Alloc.members [("tagName", .string (((d.tag? n).getD "").map Char.toUpper)), ("id", read "id"),
    ("name", read "name"), ("type", read "type"),
    ("value", .string ((d.attribute? n "value").getD "")),
    ("checked", .bool (d.hasAttribute n "checked"))]

def object (e : Event) (target : Value) : Alloc Value := do
  let prevent ← Alloc.native (.eventMethod .preventDefault)
  let stop ← Alloc.native (.eventMethod .stopPropagation)
  let persist ← Alloc.native (.eventMethod .persist)
  let key := match e.key with
    | some key => [("key", Value.string key)]
    | none => []
  Alloc.members ([("type", .string e.kind), ("target", target), ("currentTarget", target),
    ("bubbles", .bool true), ("defaultPrevented", .bool false)] ++ key
    ++ [("preventDefault", prevent), ("stopPropagation", stop), ("persist", persist)])

/-! ### Delivery -/

variable (ev : Evaluator)

/-- The state of a form element after an event. -/
def apply (e : Event) (target : NodeId) (d : Document) : Document :=
  let d := match e.value with
    | some value => d.setAttribute target "value" value
    | none => d
  match e.checked with
  | some true => d.setAttribute target "checked" ""
  | some false => d.removeAttribute target "checked"
  | none => d

/-- The nodes up to the first that satisfies a condition. -/
def upTo (p : NodeId → Bool) : List NodeId → List NodeId
  | [] => []
  | n :: rest => if p n then [n] else n :: upTo p rest

/-- The nodes that an event passes. -/
def route (d : Document) (container target : NodeId) : List NodeId :=
  upTo (· == container) (target :: d.ancestors target)

/-- Calls the listeners on a route until one stops the event. -/
def bubble (e : Event) (object : Value) : List NodeId → View Unit
  | [] => pure ()
  | n :: rest => do
    match ← View.onDocument fun d => d.listener? n e.kind with
    | none => bubble e object rest
    | some handler =>
      let d ← View.onDocument id
      let current ← View.script (nodeObject d n : Alloc Value)
      View.script (Script.setProperty object "currentTarget" current)
      let _ ← View.script (ev.apply handler [object])
      let stopped ← View.script (Script.onHeap fun h => object.get h "_stopped")
      if !stopped.isTruthy then bubble e object rest

/-- Delivers an event; gives whether a listener prevented what would follow. -/
def fire (container target : NodeId) (e : Event) : View Bool := do
  if !(← View.onDocument fun d => d.contains target) then throw (.render .targetGone)
  View.modifyDocument (e.apply target)
  let d ← View.onDocument id
  let self ← View.script (nodeObject d target : Alloc Value)
  let object ← View.script (e.object self : Alloc Value)
  bubble ev e object (route d container target)
  let prevented ← View.script (Script.onHeap fun h => object.get h "defaultPrevented")
  return prevented.isTruthy

end Event

end TsxPreview
