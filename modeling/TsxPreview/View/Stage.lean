import TsxPreview.Script.Machine
import TsxPreview.View.Selector

/-!
Work on a document that may run scripts. A script sees the machine only: that scripts leave the
document alone shows in the type of `Script`.
-/

namespace TsxPreview

structure Stage where
  machine : Machine
  document : Document
  deriving Inhabited

abbrev View := EStateM ScriptError Stage

namespace View

instance : MonadLift Script View where
  monadLift x := fun s => match s with
    | ⟨machine, document⟩ =>
      match x machine with
      | .ok a machine => .ok a ⟨machine, document⟩
      | .error e machine => .error e ⟨machine, document⟩

/-- Runs a script. -/
def script {α : Type} (x : Script α) : View α := liftM x

def onDocument {α : Type} (f : Document → α) : View α := fun s => .ok (f s.document) s

def modifyDocument (f : Document → Document) : View Unit := fun s => match s with
  | ⟨machine, document⟩ => .ok () ⟨machine, f document⟩

/-- Makes a node at the end of a parent. -/
def place (parent : NodeId) (kind : NodeKind) : View NodeId := fun s => match s with
  | ⟨machine, document⟩ =>
    let (id, document) := document.add kind
    .ok id ⟨machine, document.append parent id⟩

def placeText (parent : NodeId) (content : String) : View Unit := do
  let _ ← place parent (.text content)

/-- Makes a last change of the hooks however the work ends, unless an error ends the run. -/
def finallyHooks {α : Type} (f : HookStore → HookStore) (x : View α) : View α := fun s =>
  let change (s : Stage) : Stage :=
    { s with machine.realm.hooks := f s.machine.realm.hooks }
  match x s with
  | .ok a s => .ok a (change s)
  | .error e s => .error e (if e.endsRun then s else change s)

/-- The outcome of the work, and what it left. -/
def outcome {α : Type} (x : View α) (s : Stage) : Except ScriptError α × Stage :=
  match x s with
  | .ok a s => (.ok a, s)
  | .error e s => (.error e, s)

end View

end TsxPreview
