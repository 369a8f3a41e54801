import TsxPreview.Script.Value

/-!
The store of scripts: arrays, objects and scopes. References index it, and nothing is ever freed.
A scope is newer than its parent, so a chain of scopes ends.
-/

namespace TsxPreview

structure Variable where
  value : Value
  isMutable : Bool
  deriving Inhabited

structure Scope where
  bindings : Record Variable := .empty
  parent : Option ScopeRef := none
  deriving Inhabited

/-- Why a variable cannot be assigned. -/
inductive AssignFault where
  | undeclared | constant
  deriving DecidableEq, Inhabited

structure Heap where
  arrays : Array (Array Value) := #[]
  objects : Array (Record Value) := #[]
  scopes : Array Scope := #[]
  /-- The next identity of a function or an element. -/
  nextId : Nat := 0
  deriving Inhabited

namespace Heap

/-! ### Arrays and objects -/

def items (h : Heap) (r : ArrayRef) : Array Value := h.arrays.getD r.index #[]

def members (h : Heap) (r : ObjectRef) : Record Value := h.objects.getD r.index .empty

def newArray (h : Heap) (items : Array Value) : ArrayRef × Heap :=
  (⟨h.arrays.size⟩, { h with arrays := h.arrays.push items })

def newObject (h : Heap) (members : Record Value) : ObjectRef × Heap :=
  (⟨h.objects.size⟩, { h with objects := h.objects.push members })

def modifyItems (h : Heap) (r : ArrayRef) (f : Array Value → Array Value) : Heap :=
  { h with arrays := h.arrays.modify r.index f }

def modifyMembers (h : Heap) (r : ObjectRef) (f : Record Value → Record Value) : Heap :=
  { h with objects := h.objects.modify r.index f }

def newId (h : Heap) : Nat × Heap := (h.nextId, { h with nextId := h.nextId + 1 })

/-- More levels of nesting than any store has room for. What follows references goes this deep, so
only a chain that comes back to itself does not end before. -/
def levels : Nat := Nat.pow 2 50

theorem items_newArray (h : Heap) (items : Array Value) :
    (h.newArray items).2.items (h.newArray items).1 = items := by
  simp [newArray, Heap.items]

theorem members_newObject (h : Heap) (members : Record Value) :
    (h.newObject members).2.members (h.newObject members).1 = members := by
  simp [newObject, Heap.members]

/-! ### Scopes -/

def scope (h : Heap) (r : ScopeRef) : Scope := h.scopes.getD r.index {}

def newScope (h : Heap) (parent : Option ScopeRef) : ScopeRef × Heap :=
  (⟨h.scopes.size⟩, { h with scopes := h.scopes.push { parent } })

/-- Declares a variable in a scope, or declares it anew. -/
def define (h : Heap) (r : ScopeRef) (name : String) (value : Value) (isMutable : Bool) : Heap :=
  { h with
    scopes := h.scopes.modify r.index fun s =>
      { s with bindings := s.bindings.insert name ⟨value, isMutable⟩ } }

/-- The scopes of a chain that are asked for a variable, innermost first. -/
def findFrom (h : Heap) (name : String) : Nat → ScopeRef → Option (ScopeRef × Variable)
  | 0, _ => none
  | levels + 1, r =>
    let s := h.scope r
    match s.bindings.get? name with
    | some v => some (r, v)
    | none => s.parent.bind (h.findFrom name levels)

/-- The nearest declaration of a name. -/
def find? (h : Heap) (r : ScopeRef) (name : String) : Option (ScopeRef × Variable) :=
  h.findFrom name (r.index + 1) r

def lookup (h : Heap) (r : ScopeRef) (name : String) : Option Value :=
  (h.find? r name).map (·.2.value)

def isDeclared (h : Heap) (r : ScopeRef) (name : String) : Bool := (h.find? r name).isSome

/-- Assigns the nearest declaration. -/
def assign (h : Heap) (r : ScopeRef) (name : String) (value : Value) : Except AssignFault Heap :=
  match h.find? r name with
  | none => .error .undeclared
  | some (owner, v) =>
    if v.isMutable then .ok (h.define owner name value true) else .error .constant

/-- The names that a scope itself declares, sorted. -/
def names (h : Heap) (r : ScopeRef) : List String :=
  (h.scope r).bindings.keys.mergeSort fun a b => decide (a ≤ b)

end Heap

end TsxPreview
