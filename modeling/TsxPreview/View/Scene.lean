import TsxPreview.Script.Hooks

/-!
What a pass shows: the tree of elements with their keys. Where a component was called, the scene
has the slots that the call found and those that it left.
-/

namespace TsxPreview

/-! ### Positions -/

/-- The name of an item among others: its key, else its number. -/
def itemName (index : Nat) : Option String → String
  | some key => "k" ++ key
  | none => toString index

def itemPosition (position : String) (index : Nat) (key : Option String) : String :=
  position ++ "/" ++ itemName index key

def consumerPosition (position : String) : String := position ++ "/consumer"

def childrenPosition (position tag : String) : String := position ++ "." ++ tag

/-- The name of a component, empty for one without. -/
def Value.componentName (v : Value) : String := v.functionName?.getD ""

/-- What a component instance is known by. -/
def instanceKey (position : String) (component : Value) : String :=
  position ++ ":" ++ component.componentName ++ "#" ++ component.componentId

/-- Where the root element stands. -/
def rootPosition : String := "root"

/-! ### Scenes -/

/-- What an element is, apart from its child. -/
inductive Part where
  /-- A fragment or a provider. -/
  | group
  | tag (name : String)
  | consumer
  | component (component : Value) (found left : Option (Array HookSlot))

/-- Where the child of an element stands. -/
def Part.below (position : String) : Part → String
  | group => position
  | tag name => childrenPosition position name
  | consumer => consumerPosition position
  | component c _ _ => instanceKey position c

inductive Scene where
  /-- Text, or nothing. -/
  | plain
  | list (items : List Scene)
  | element (key : Option String) (part : Part) (child : Scene)
  deriving Inhabited

namespace Scene

def key? : Scene → Option String
  | element key _ _ => key
  | _ => none

end Scene

end TsxPreview
