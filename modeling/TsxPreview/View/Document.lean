import TsxPreview.Record
import TsxPreview.Script.Value
import TsxPreview.Text.Basic
import TsxPreview.View.Tree

/-!
Documents. A node is known by its place in a table; places are never used twice, so a node that was
removed stays unknown for good. Links go both ways: a node knows its parent and its children.
-/

namespace TsxPreview

structure NodeId where
  index : Nat
  deriving DecidableEq, Inhabited

/-- Attributes and listeners are sorted by name. -/
inductive NodeKind where
  | element (tag : String) (attributes : List (String × String)) (listeners : List (String × Value))
  | text (content : String)
  deriving Inhabited

structure Node where
  kind : NodeKind
  parent : Option NodeId := none
  children : List NodeId := []
  deriving Inhabited

structure Document where
  nodes : Array (Option Node)
  deriving Inhabited

namespace Document

/-- A document of an empty body. -/
def empty : Document := ⟨#[some { kind := .element "body" [] [] }]⟩

def body : NodeId := ⟨0⟩

variable (d : Document)

def node? (id : NodeId) : Option Node := (d.nodes[id.index]?).join

def contains (id : NodeId) : Bool := (d.node? id).isSome

def modifyNode (id : NodeId) (f : Node → Node) : Document :=
  ⟨d.nodes.modify id.index fun n => n.map f⟩

/-- A new node that stands nowhere. -/
def add (kind : NodeKind) : NodeId × Document := (⟨d.nodes.size⟩, ⟨d.nodes.push (some { kind })⟩)

def addElement (tag : String) : NodeId × Document := d.add (.element tag [] [])

def addText (content : String) : NodeId × Document := d.add (.text content)

def tag? (id : NodeId) : Option String :=
  match (d.node? id).map Node.kind with
  | some (.element tag _ _) => some tag
  | _ => none

def text? (id : NodeId) : Option String :=
  match (d.node? id).map Node.kind with
  | some (.text content) => some content
  | _ => none

def parent? (id : NodeId) : Option NodeId := (d.node? id).bind Node.parent

def children (id : NodeId) : List NodeId := ((d.node? id).map Node.children).getD []

/-! ### Structure -/

/-- The nodes from `id` downward, each before its children, at most `depth` levels. -/
def descend : (depth : Nat) → NodeId → List NodeId
  | 0, _ => []
  | depth + 1, id =>
    if d.contains id then id :: (d.children id).flatMap (descend depth) else []

/-- A node with all that is below it. No path is longer than the table. -/
def subtree (id : NodeId) : List NodeId := d.descend d.nodes.size id

/-- Takes a node out of the list of its parent. -/
def unlink (id : NodeId) : Document :=
  match d.parent? id with
  | some parent =>
    d.modifyNode parent fun n => { n with children := n.children.filter (· != id) }
  | none => d

/-- Moves a node to the end of a parent's list. -/
def append (parent child : NodeId) : Document :=
  ((d.unlink child).modifyNode child fun n => { n with parent := some parent }).modifyNode parent
    fun n => { n with children := n.children ++ [child] }

/-- Forgets nodes. -/
def forget (ids : List NodeId) : Document :=
  ⟨ids.foldl (fun nodes id => nodes.setIfInBounds id.index none) d.nodes⟩

/-- Removes a node with all that is below it. -/
def remove (id : NodeId) : Document :=
  let d := d.unlink id
  d.forget (d.subtree id)

/-- Removes all that is below a node. -/
def clear (id : NodeId) : Document :=
  (d.forget ((d.children id).flatMap d.subtree)).modifyNode id fun n => { n with children := [] }

/-- The parents of a node, nearest first, at most `depth` of them. -/
def climb : (depth : Nat) → NodeId → List NodeId
  | 0, _ => []
  | depth + 1, id =>
    match d.parent? id with
    | some parent => parent :: climb depth parent
    | none => []

def ancestors (id : NodeId) : List NodeId := d.climb d.nodes.size id

/-! ### Attributes and listeners -/

def attributes (id : NodeId) : List (String × String) :=
  match (d.node? id).map Node.kind with
  | some (.element _ attributes _) => attributes
  | _ => []

def attribute? (id : NodeId) (name : String) : Option String := (d.attributes id).lookup name

def hasAttribute (id : NodeId) (name : String) : Bool := (d.attribute? id name).isSome

def modifyAttributes (id : NodeId) (f : List (String × String) → List (String × String)) :
    Document :=
  d.modifyNode id fun n => match n.kind with
    | .element tag attributes listeners => { n with kind := .element tag (f attributes) listeners }
    | .text _ => n

def setAttribute (id : NodeId) (name value : String) : Document :=
  d.modifyAttributes id (insertSorted name value)

def removeAttribute (id : NodeId) (name : String) : Document :=
  d.modifyAttributes id fun list => list.filter (·.1 != name)

def listeners (id : NodeId) : List (String × Value) :=
  match (d.node? id).map Node.kind with
  | some (.element _ _ listeners) => listeners
  | _ => []

def listener? (id : NodeId) (event : String) : Option Value := (d.listeners id).lookup event

/-- Replaces the listener of an event, if there is one. -/
def setListener (id : NodeId) (event : String) (handler : Value) : Document :=
  d.modifyNode id fun n => match n.kind with
    | .element tag attributes listeners =>
      { n with kind := .element tag attributes (insertSorted event handler listeners) }
    | .text _ => n

/-- How many listeners there are on a node and below it. -/
def listenerCount (id : NodeId) : Nat :=
  (d.subtree id).foldr (fun i count => (d.listeners i).length + count) 0

/-! ### Reading -/

/-- A node as a tree, cut at `depth` levels. -/
def treeAt : (depth : Nat) → NodeId → Option Tree
  | 0, _ => none
  | depth + 1, id =>
    (d.node? id).map fun n => match n.kind with
      | .element tag attributes _ =>
        .element tag attributes (n.children.filterMap (treeAt depth))
      | .text content => .text content

def tree? (id : NodeId) : Option Tree := d.treeAt d.nodes.size id

/-- The trees right below a node. -/
def childTrees (id : NodeId) : List Tree := (d.children id).filterMap d.tree?

def textOf (id : NodeId) : String := ((d.tree? id).map Tree.content).getD ""

def innerHtml (id : NodeId) : String := Tree.htmlAll (d.childTrees id)

def outerHtml (id : NodeId) : String := ((d.tree? id).map Tree.html).getD ""

/-- The elements below a node that only elements lead to, in the order of the document. -/
def elementsTo : (depth : Nat) → NodeId → List NodeId
  | 0, _ => []
  | depth + 1, id =>
    (d.children id).flatMap fun c =>
      if (d.tag? c).isSome then c :: elementsTo depth c else []

def elementsUnder (id : NodeId) : List NodeId := d.elementsTo d.nodes.size id

/-- The text right inside an element. -/
def ownText (id : NodeId) : String := String.join ((d.children id).filterMap d.text?)

/-- The first element below a node whose own text, without white space at its ends, is the given
one. -/
def findByText (id : NodeId) (text : String) : Option NodeId :=
  (d.elementsUnder id).find? fun e => trimBlank (d.ownText e).toList == text.toList

end Document

end TsxPreview
