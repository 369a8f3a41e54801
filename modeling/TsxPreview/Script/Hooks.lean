import TsxPreview.Script.Convert

/-!
The slots of mounted component instances. An instance is known by its key: where it stands in the
tree and which component it is of. Hooks claim its slots in the order in which they are called. A
pass over the tree marks the instances that it visits; `sweep` drops the others.
-/

namespace TsxPreview

inductive HookSlot where
  | state (value setter : Value)
  | reducer (state reducer dispatch : Value)
  | effect (deps : Option (List Value)) (cleanup : Value)
  | memo (deps : Option (List Value)) (value : Value)
  | ref (object : Value)
  | id (text : String)

/-- The cleanup that an effect left, if that can be called. -/
def HookSlot.cleanup? : HookSlot → Option Value
  | .effect _ cleanup => if cleanup.isCallable then some cleanup else none
  | _ => none

/-- An instance that is being rendered, and how many slots it has claimed. -/
structure Frame where
  key : String
  claimed : Nat
  deriving Inhabited

structure PendingEffect where
  key : String
  slot : Nat
  callback : Value
  /-- Layout effects run before the others. -/
  layout : Bool
  deriving Inhabited

/-- Why a cleanup is called. -/
inductive CleanupCause where
  /-- Its effect is about to run again. -/
  | again
  /-- Its instance left the tree. -/
  | left
  /-- Everything is unmounted. -/
  | unmounted
  deriving DecidableEq, Inhabited

/-- What happens to instances. A place is the key of an instance and the number of a slot. -/
inductive HookNote where
  /-- A hook claimed a place. -/
  | called (place : String × Nat) (hook : Hook)
  /-- The effect of a place ran; what it gave is its cleanup, if that can be called. -/
  | ran (place : String × Nat) (given : Value)
  /-- A cleanup of an effect is called. -/
  | cleaned (place : String × Nat) (cleanup : Value) (cause : CleanupCause)
  /-- An effect or a cleanup of it raised an error. -/
  | raised (place : String × Nat)
  /-- Only the instances that were visited stay. -/
  | swept (visited : List String)
  /-- No instance stays. -/
  | cleared
  deriving Inhabited

structure HookStore where
  slots : Record (Array HookSlot) := .empty
  /-- Innermost first. -/
  frames : List Frame := []
  visited : List String := []
  pending : List PendingEffect := []
  /-- The values that surrounding providers give to contexts, innermost first. -/
  providers : List (Nat × Value) := []
  contextDefaults : List (Nat × Value) := []
  /-- An update was made that no pass has shown. -/
  dirty : Bool := false
  nextId : Nat := 0
  /-- The places whose state was updated, newest first. -/
  updates : List (String × Nat) := []
  /-- What happened, newest first. -/
  history : List HookNote := []
  deriving Inhabited

namespace HookStore

def note (s : HookStore) (n : HookNote) : HookStore := { s with history := n :: s.history }

def beginPass (s : HookStore) : HookStore := { s with visited := [], providers := [], frames := [] }

def enter (s : HookStore) (key : String) : HookStore :=
  { s with visited := key :: s.visited, frames := ⟨key, 0⟩ :: s.frames }

def leave (s : HookStore) : HookStore := { s with frames := s.frames.tail }

def pushProvider (s : HookStore) (context : Nat) (value : Value) : HookStore :=
  { s with providers := (context, value) :: s.providers }

def popProvider (s : HookStore) : HookStore := { s with providers := s.providers.tail }

def defineContext (s : HookStore) (context : Nat) (value : Value) : HookStore :=
  { s with contextDefaults := (context, value) :: s.contextDefaults }

/-- The innermost value given to a context, else its default. -/
def contextValue (s : HookStore) (context : Nat) : Value :=
  ((s.providers.lookup context) <|> (s.contextDefaults.lookup context)).getD .undefined

def instanceCount (s : HookStore) : Nat := s.slots.size

/-- Claims the next slot of the instance that is being rendered. -/
def claim (s : HookStore) : Option ((String × Nat) × HookStore) :=
  match s.frames with
  | [] => none
  | f :: rest =>
    some ((f.key, f.claimed), { s with frames := { f with claimed := f.claimed + 1 } :: rest })

def slot? (s : HookStore) (key : String) (slot : Nat) : Option HookSlot :=
  (s.slots.get? key).bind (·[slot]?)

/-- Writes a slot that exists; a slot further on is appended. -/
def store (s : HookStore) (key : String) (slot : Nat) (content : HookSlot) : HookStore :=
  let list := (s.slots.get? key).getD #[]
  let list := if slot < list.size then list.setIfInBounds slot content else list.push content
  { s with slots := s.slots.insert key list }

/-- Writes the next state of a place. -/
def update (s : HookStore) (place : String × Nat) (content : HookSlot) : HookStore :=
  { s.store place.1 place.2 content with dirty := true, updates := place :: s.updates }

/-- Changes a slot that exists. -/
def modify (s : HookStore) (key : String) (slot : Nat) (f : HookSlot → HookSlot) : HookStore :=
  match s.slot? key slot with
  | some content => s.store key slot (f content)
  | none => s

/-- The cleanups that the effects of an instance have left, with their places. -/
def cleanups (key : String) (slots : Array HookSlot) : List ((String × Nat) × Value) :=
  slots.toList.zipIdx.filterMap fun (content, i) =>
    content.cleanup?.map fun cleanup => ((key, i), cleanup)

/-- Instances in the order of their keys. -/
def sorted (list : List (String × Array HookSlot)) : List (String × Array HookSlot) :=
  list.mergeSort fun a b => decide (a.1 ≤ b.1)

/-- The cleanups of instances, in the order of their keys. -/
def cleanupsOf (list : List (String × Array HookSlot)) : List ((String × Nat) × Value) :=
  (sorted list).flatMap fun (key, slots) => cleanups key slots

/-- Drops the instances that the last pass did not visit, with their effects; gives their
cleanups. -/
def sweep (s : HookStore) : List ((String × Nat) × Value) × HookStore :=
  let stale := s.slots.entries.filter fun (key, _) => !s.visited.contains key
  let kept := s.slots.entries.filter fun (key, _) => s.visited.contains key
  let gone := stale.map (·.1)
  (cleanupsOf stale,
    { s with
      slots := ⟨kept⟩, pending := s.pending.filter fun e => !gone.contains e.key
      history := .swept s.visited :: s.history })

/-- Drops all instances; gives their cleanups. -/
def clear (s : HookStore) : List ((String × Nat) × Value) × HookStore :=
  (cleanupsOf s.slots.entries,
    { s with
      slots := .empty, pending := [], providers := [], frames := []
      history := .cleared :: s.history })

/-- Takes the pending effects, layout effects first, each kind in the order of the calls. -/
def takePending (s : HookStore) : List PendingEffect × HookStore :=
  (s.pending.filter (·.layout) ++ s.pending.filter (!·.layout), { s with pending := [] })

end HookStore

/-- Whether a list of dependencies differs from the one before; without a list it always does. -/
def depsChanged : Option (List Value) → Option (List Value) → Bool
  | some old, some new => old.length != new.length || (old.zip new).any fun (a, b) => !a.is b
  | _, _ => true

end TsxPreview
