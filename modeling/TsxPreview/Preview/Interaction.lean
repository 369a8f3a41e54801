import TsxPreview.Preview.Event

/-!
What a user does to a preview, and what time does to it.
-/

namespace TsxPreview

namespace Interaction

/-- Renders again if updates were made. -/
def refresh (container : NodeId) (root : Value) : View Unit := do
  if ← View.script (Script.onRealm fun r => r.hooks.dirty) then
    Render.display Evaluator.standard container root

/-- Whether a click turns an element on and off. -/
def isToggle (d : Document) (n : NodeId) : Bool :=
  d.tag? n == some "input"
    && (d.attribute? n "type" == some "checkbox" || d.attribute? n "type" == some "radio")

/-- The first element under a container that matches. -/
def target (container : NodeId) (selector : String) : View NodeId :=
  match Selector.ofText? selector with
  | none => throw (.render (.unreadable selector))
  | some s => do
    match ← View.onDocument fun d => (d.selectAll container s).head? with
    | some n => return n
    | none => throw (.render (.noMatch selector))

/-- Work that only an isolated preview does. -/
def unlessInert {α : Type} (mode : Mode) (x : View α) : View α :=
  match mode with
  | .isolated => x
  | .shared => throw .interactionBlocked

def fire (container target : NodeId) (e : Event) : View Bool :=
  e.fire Evaluator.standard container target

/-- A click; what it toggles also hears of the change. -/
def click (container n : NodeId) : View Unit := do
  let d ← View.onDocument id
  if isToggle d n then
    let checked := some (!d.hasAttribute n "checked")
    let _ ← fire container n { kind := "click", checked }
    let _ ← fire container n { kind := "change", checked }
  else
    let _ ← fire container n { kind := "click" }

/-- Text that is typed. -/
def input (container n : NodeId) (value : String) : View Unit := do
  let _ ← fire container n { kind := "input", value := some value }
  let _ ← fire container n { kind := "change", value := some value }

end Interaction

namespace MountedTree

variable (t : MountedTree) (p : Page)

/-- The outcome of work, the preview after it, and its page. -/
abbrev Performed (α : Type) := Except ScriptError α × MountedTree × Page

def refresh : View Unit := Interaction.refresh t.container t.root

/-- Delivers an event; gives whether a listener prevented what would follow. -/
def dispatch (target : NodeId) (e : Event) : Performed Bool :=
  t.perform p <| Interaction.unlessInert t.mode do
    let prevented ← Interaction.fire t.container target e
    t.refresh
    return prevented

/-- Clicks the first element that matches. -/
def click (selector : String) : Performed Unit :=
  t.perform p do
    let n ← Interaction.target t.container selector
    Interaction.unlessInert t.mode do
      Interaction.click t.container n
      t.refresh

/-- Types into the first element that matches. -/
def input (selector value : String) : Performed Unit :=
  t.perform p do
    let n ← Interaction.target t.container selector
    Interaction.unlessInert t.mode do
      Interaction.input t.container n value
      t.refresh

/-- Renders again from the root element. -/
def rerender : Performed Unit :=
  t.perform p (Render.display Evaluator.standard t.container t.root)

/-- Fires the pending timers once; gives how many fired. -/
def runTimers : Performed Nat :=
  t.perform p do
    let fired ← View.script Script.runTimers
    t.refresh
    return fired

end MountedTree

end TsxPreview
