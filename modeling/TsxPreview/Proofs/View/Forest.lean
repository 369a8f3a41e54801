import Mathlib.Data.Finset.Range
import Mathlib.Data.Finset.Card
import Mathlib.Data.List.Nodup
import Mathlib.Logic.Relation
import TsxPreview.Proofs.View.Documents

/-!
Documents as forests. A node is among the children of another exactly if that is its parent, once,
and nobody stands below itself. Every operation keeps it so, as long as a node is not put below
itself, and so a node is removed with exactly what stands below it. An identity is given once only.
-/

namespace TsxPreview

namespace Document

open Relation

variable {d e : Document} {n m c p id parent child : NodeId}

/-! ## Standing below -/

/-- One step up. -/
def Up (d : Document) (c p : NodeId) : Prop := d.parent? c = some p

/-- From a node, parents lead to another one, or it is that. -/
def Under (d : Document) : NodeId → NodeId → Prop := ReflTransGen d.Up

/-- From a node, parents lead to another one, in at least one step. -/
def Below (d : Document) : NodeId → NodeId → Prop := TransGen d.Up

theorem under_iff : d.Under n id ↔ n = id ∨ d.Below n id := by
  rw [Under, reflTransGen_iff_eq_or_transGen, eq_comm]
  rfl

/-- What stands below a node stands below one of its children, or is one. -/
theorem below_iff : d.Below n id ↔ ∃ c, d.Under n c ∧ d.parent? c = some id :=
  TransGen.tail'_iff

/-- What has a parent stands below what its parent stands below. -/
theorem below_of_up (up : d.parent? c = some p) : d.Below c id ↔ d.Under p id := by
  constructor
  · intro h
    obtain ⟨q, first, rest⟩ := TransGen.head'_iff.1 h
    rw [Up, up] at first
    cases first
    exact rest
  · exact fun h => TransGen.head' up h

/-- A document whose links go both ways, and never around. -/
structure Forest (d : Document) : Prop where
  linked : ∀ c p, c ∈ d.children p ↔ d.parent? c = some p
  nodup : ∀ p, (d.children p).Nodup
  acyclic : ∀ n, ¬d.Below n n

/-- Being a forest is a matter of the links alone. -/
theorem Forest.congr (h : Forest d) (parents : ∀ n, e.parent? n = d.parent? n)
    (children : ∀ n, e.children n = d.children n) : Forest e := by
  have same : e.Up = d.Up := by
    funext c p
    rw [Up, parents, Up]
  refine ⟨fun c p => ?_, fun p => ?_, fun n => ?_⟩
  · rw [children, parents, h.linked]
  · rw [children]
    exact h.nodup p
  · rw [Below, same]
    exact h.acyclic n

theorem forest_empty : Forest empty := by
  have alone (n : NodeId) : empty.parent? n = none ∧ empty.children n = [] := by
    unfold parent? children node?
    by_cases first : n.index = 0
    · rw [first]
      exact ⟨rfl, rfl⟩
    · have past : empty.nodes.size ≤ n.index := Nat.one_le_iff_ne_zero.2 first
      rw [Array.getElem?_eq_none past]
      exact ⟨rfl, rfl⟩
  refine ⟨fun c p => ?_, fun p => ?_, fun n loop => ?_⟩
  · rw [(alone c).1, (alone p).2]
    simp
  · rw [(alone p).2]
    exact List.nodup_nil
  · obtain ⟨c, -, up⟩ := below_iff.1 loop
    rw [(alone c).1] at up
    cases up

section

variable (h : Forest d)

include h

theorem Forest.contains_child (mem : c ∈ d.children p) : d.contains c = true := by
  have up := (h.linked c p).1 mem
  unfold parent? at up
  obtain ⟨x, there, -⟩ := Option.bind_eq_some_iff.1 up
  exact contains_iff.2 ⟨x, there⟩

theorem Forest.contains_parent (up : d.parent? c = some p) : d.contains p = true := by
  obtain ⟨x, there, -⟩ := mem_children.1 ((h.linked c p).2 up)
  exact contains_iff.2 ⟨x, there⟩

theorem Forest.contains_of_below (below : d.Below n id) : d.contains n = true := by
  obtain ⟨p, up, -⟩ := TransGen.head'_iff.1 below
  exact h.contains_child ((h.linked n p).2 up)

/-- A parent does not stand below its child. -/
theorem Forest.not_under_of_up (up : d.parent? c = some p) : ¬d.Under p c := fun under =>
  h.acyclic c ((below_of_up up).2 under)

/-- Nothing stands below a node that is not there. -/
theorem Forest.not_below_of_gone (gone : ¬d.contains id = true) : ¬d.Below n id := by
  intro below
  obtain ⟨c, -, up⟩ := below_iff.1 below
  exact gone (h.contains_parent up)

end

/-! ## What is found below a node -/

open Classical in
/-- The places of what stands below a node. -/
noncomputable def placesUnder (d : Document) (id : NodeId) : Finset Nat :=
  (Finset.range d.nodes.size).filter fun i => d.Under ⟨i⟩ id

open Classical in
theorem mem_placesUnder : n.index ∈ d.placesUnder id ↔ n.index < d.nodes.size ∧ d.Under n id := by
  rw [placesUnder, Finset.mem_filter, Finset.mem_range]

open Classical in
theorem card_placesUnder_le (d : Document) (id : NodeId) :
    (d.placesUnder id).card ≤ d.nodes.size := by
  have within := Finset.card_filter_le (Finset.range d.nodes.size) fun i => d.Under ⟨i⟩ id
  rwa [Finset.card_range] at within

theorem index_lt_size (there : d.contains n = true) : n.index < d.nodes.size := by
  obtain ⟨x, hx⟩ := contains_iff.1 there
  exact lt_size_of_node? hx

/-- Fewer nodes stand below a child. -/
theorem Forest.card_placesUnder_lt (h : Forest d) (mem : c ∈ d.children p) :
    (d.placesUnder c).card < (d.placesUnder p).card := by
  have up := (h.linked c p).1 mem
  refine Finset.card_lt_card ⟨fun i inside => ?_, fun sub => ?_⟩
  · have place : (⟨i⟩ : NodeId).index ∈ d.placesUnder c := inside
    obtain ⟨small, under⟩ := mem_placesUnder.1 place
    exact mem_placesUnder.2 ⟨small, under.tail up⟩
  · have self : p.index ∈ d.placesUnder p :=
      mem_placesUnder.2 ⟨index_lt_size (h.contains_parent up), ReflTransGen.refl⟩
    exact h.not_under_of_up up (mem_placesUnder.1 (sub self)).2

theorem Forest.mem_descend (h : Forest d) {depth : Nat}
    (enough : (d.placesUnder id).card ≤ depth) :
    n ∈ d.descend depth id ↔ d.contains n = true ∧ d.Under n id := by
  induction depth generalizing id with
  | zero =>
    -- what is there and stands below has a place
    have nobody : d.placesUnder id = ∅ := Finset.card_eq_zero.1 (Nat.le_zero.1 enough)
    constructor
    · intro mem
      cases mem
    · rintro ⟨there, under⟩
      have mem := mem_placesUnder.2 ⟨index_lt_size there, under⟩
      rw [nobody] at mem
      exact absurd mem (Finset.notMem_empty _)
  | succ depth ih =>
    have below : (∃ c ∈ d.children id, n ∈ d.descend depth c) ↔ d.Below n id := by
      rw [below_iff]
      constructor
      · rintro ⟨c, mem, inside⟩
        have fewer := h.card_placesUnder_lt mem
        exact ⟨c, ((ih (by omega)).1 inside).2, (h.linked c id).1 mem⟩
      · rintro ⟨c, under, up⟩
        have mem := (h.linked c id).2 up
        have fewer := h.card_placesUnder_lt mem
        have there := h.contains_of_below (below_iff.2 ⟨c, under, up⟩)
        exact ⟨c, mem, (ih (by omega)).2 ⟨there, under⟩⟩
    unfold descend
    by_cases stands : d.contains id = true
    · rw [if_pos stands, List.mem_cons, List.mem_flatMap, below, under_iff]
      constructor
      · rintro (rfl | under)
        · exact ⟨stands, .inl rfl⟩
        · exact ⟨h.contains_of_below under, .inr under⟩
      · exact fun both => both.2
    · rw [if_neg stands, under_iff]
      constructor
      · intro mem
        cases mem
      · rintro ⟨there, rfl | under⟩
        · exact absurd there stands
        · exact absurd under (h.not_below_of_gone stands)

/-- A subtree is what stands below a node, with the node itself. -/
theorem Forest.mem_subtree (h : Forest d) :
    n ∈ d.subtree id ↔ d.contains n = true ∧ d.Under n id :=
  h.mem_descend (card_placesUnder_le d id)

/-- The subtrees of the children hold what stands below a node. -/
theorem Forest.mem_subtrees (h : Forest d) :
    n ∈ (d.children id).flatMap d.subtree ↔ d.Below n id := by
  rw [List.mem_flatMap, below_iff]
  constructor
  · rintro ⟨c, mem, inside⟩
    exact ⟨c, (h.mem_subtree.1 inside).2, (h.linked c id).1 mem⟩
  · rintro ⟨c, under, up⟩
    have there := h.contains_of_below (below_iff.2 ⟨c, under, up⟩)
    exact ⟨c, (h.linked c id).2 up, h.mem_subtree.2 ⟨there, under⟩⟩

/-- What is found below a node depends on the nodes below it only. -/
theorem Forest.descend_congr (h : Forest d) {depth : Nat}
    (same : ∀ m, d.Under m id → e.node? m = d.node? m) :
    e.descend depth id = d.descend depth id := by
  induction depth generalizing id with
  | zero => rfl
  | succ depth ih =>
    have here := same id ReflTransGen.refl
    unfold descend contains children
    rw [here]
    refine if_congr Iff.rfl (congrArg (id :: ·) (List.flatMap_congr fun c mem => ?_)) rfl
    exact ih fun m under => same m (under.tail ((h.linked c id).1 mem))

/-! ## Removal -/

/-- A node is in no list but that of its parent. -/
theorem Forest.filter_children (h : Forest d) {x : Node} (there : d.node? n = some x)
    (apart : d.parent? id ≠ some n) : x.children.filter (· != id) = x.children := by
  rw [List.filter_eq_self]
  intro c mem
  have other : c ≠ id := by
    rintro rfl
    exact apart ((h.linked c n).1 (mem_children.2 ⟨x, there, mem⟩))
  simpa using other

/-- Once it is unlinked, a node is in no list. -/
theorem Forest.node?_unlink (h : Forest d) (id n : NodeId) :
    (d.unlink id).node? n =
      (d.node? n).map fun x => { x with children := x.children.filter (· != id) } := by
  have elsewhere (apart : d.parent? id ≠ some n) :
      d.node? n = (d.node? n).map fun x => { x with children := x.children.filter (· != id) } := by
    cases there : d.node? n with
    | none => rfl
    | some x => simp [h.filter_children there apart]
  unfold unlink
  split
  · rename_i p up
    rw [node?_modifyNode]
    split_ifs with here
    · rfl
    · exact elsewhere fun eq => here (Option.some_inj.1 (eq.symm.trans up))
  · rename_i root
    exact elsewhere (by simp [root])

/-- What stands below a node stands below it when it is unlinked. -/
theorem Forest.subtree_unlink (h : Forest d) (id : NodeId) :
    (d.unlink id).subtree id = d.subtree id := by
  unfold subtree
  rw [size_unlink]
  refine h.descend_congr fun m under => ?_
  unfold unlink
  split
  · rename_i p up
    refine node?_modifyNode_of_ne ?_ _
    rintro rfl
    exact h.not_under_of_up up under
  · rfl

/-- A node is removed with its subtree, and nothing else changes but the list it is taken from. -/
theorem Forest.node?_remove (h : Forest d) (id n : NodeId) :
    (d.remove id).node? n =
      if n ∈ d.subtree id then none
      else (d.node? n).map fun x => { x with children := x.children.filter (· != id) } := by
  unfold remove
  rw [node?_forget, h.subtree_unlink, h.node?_unlink]

/-- All that is below a node is removed, and nothing else changes but its list. -/
theorem Forest.node?_clear (h : Forest d) (id n : NodeId) :
    (d.clear id).node? n =
      if n = id then (d.node? n).map fun x => { x with children := [] }
      else if n ∈ d.subtree id then none else d.node? n := by
  rw [Document.node?_clear]
  by_cases self : n = id
  · subst self
    rw [if_pos rfl, if_pos rfl, if_neg fun mem => h.acyclic n (h.mem_subtrees.1 mem)]
  · have inside : n ∈ (d.children id).flatMap d.subtree ↔ n ∈ d.subtree id := by
      rw [h.mem_subtrees, h.mem_subtree, under_iff]
      exact ⟨fun below => ⟨h.contains_of_below below, .inr below⟩,
        fun under => under.2.resolve_left self⟩
    rw [if_neg self, if_neg self]
    exact if_congr inside rfl rfl

/-- A part of the links of a forest. -/
theorem Forest.of_sublist (h : Forest d)
    (linked : ∀ c p, c ∈ e.children p ↔ e.parent? c = some p)
    (fewer : ∀ p, (e.children p).Sublist (d.children p)) : Forest e := by
  have steps : e.Up ≤ d.Up := fun c p up =>
    (h.linked c p).1 ((fewer p).subset ((linked c p).2 up))
  exact ⟨linked, fun p => (h.nodup p).sublist (fewer p),
    fun n loop => h.acyclic n (TransGen.mono steps n n loop)⟩

/-- A child stands below what its parent stands below. -/
theorem Forest.below_of_mem (h : Forest d) (mem : c ∈ d.children p) :
    d.Below c id ↔ p ∈ d.subtree id := by
  have up := (h.linked c p).1 mem
  rw [below_of_up up, h.mem_subtree, and_iff_right (h.contains_parent up)]

theorem Forest.remove (h : Forest d) (id : NodeId) : Forest (d.remove id) := by
  have parents (c p : NodeId) :
      (d.remove id).parent? c = some p ↔ d.parent? c = some p ∧ c ∉ d.subtree id := by
    unfold parent?
    rw [h.node?_remove]
    split_ifs with inside
    · simp [inside]
    · rw [Option.bind_map, and_iff_left inside]
      rfl
  have children (p : NodeId) : (d.remove id).children p =
      if p ∈ d.subtree id then [] else (d.children p).filter (· != id) := by
    unfold Document.children
    rw [h.node?_remove]
    split_ifs
    · rfl
    · cases d.node? p <;> rfl
  refine h.of_sublist (fun c p => ?_) fun p => ?_
  · have goes (mem : c ∈ d.children p) : c ∈ d.subtree id ↔ c = id ∨ p ∈ d.subtree id := by
      rw [h.mem_subtree, under_iff, h.below_of_mem mem, and_iff_right (h.contains_child mem)]
    rw [parents, children, ← h.linked]
    split_ifs with inside
    · simpa using fun mem => (goes mem).2 (.inr inside)
    · rw [List.mem_filter]
      refine and_congr_right fun mem => ?_
      rw [goes mem, or_iff_left inside, bne_iff_ne]
  · rw [children]
    split_ifs
    · exact List.nil_sublist _
    · exact List.filter_sublist

theorem Forest.clear (h : Forest d) (id : NodeId) : Forest (d.clear id) := by
  have parents (c p : NodeId) :
      (d.clear id).parent? c = some p ↔ d.parent? c = some p ∧ ¬d.Below c id := by
    unfold parent?
    rw [Document.node?_clear, ← h.mem_subtrees]
    split_ifs with below
    · simp [below]
    · rw [Option.bind_map, and_iff_left below]
      rfl
    · rw [and_iff_left below]
  have children (p : NodeId) : (d.clear id).children p =
      if p ∈ d.subtree id then [] else d.children p := by
    unfold Document.children
    rw [h.node?_clear]
    by_cases self : p = id
    · subst self
      rw [if_pos rfl]
      cases there : d.node? p with
      | none => simp
      | some x => rw [if_pos (mem_subtree_self (contains_iff.2 ⟨x, there⟩))]; rfl
    · rw [if_neg self]
      split_ifs <;> rfl
  refine h.of_sublist (fun c p => ?_) fun p => ?_
  · rw [parents, children, ← h.linked]
    split_ifs with inside
    · simpa using fun mem => (h.below_of_mem mem).2 inside
    · exact (and_iff_left_of_imp fun mem below => inside ((h.below_of_mem mem).1 below)).symm
  · rw [children]
    split_ifs
    · exact List.nil_sublist _
    · exact List.Sublist.refl _

/-! ## Growth -/

/-- Without a change of links, a forest remains one. -/
theorem Forest.modifyNode (h : Forest d) (id : NodeId) {f : Node → Node}
    (kept : ∀ x, (f x).parent = x.parent ∧ (f x).children = x.children) :
    Forest (d.modifyNode id f) := by
  refine h.congr (fun n => ?_) fun n => ?_
  · unfold parent?
    rw [node?_modifyNode]
    split_ifs
    · cases d.node? n with
      | none => rfl
      | some x => exact (kept x).1
    · rfl
  · unfold Document.children
    rw [node?_modifyNode]
    split_ifs
    · cases d.node? n with
      | none => rfl
      | some x => exact (kept x).2
    · rfl

theorem Forest.add (h : Forest d) (kind : NodeKind) : Forest (d.add kind).2 := by
  have gone : d.node? ⟨d.nodes.size⟩ = none := node?_eq_none (Nat.le_refl _)
  refine h.congr (fun n => ?_) fun n => ?_
  · unfold parent?
    rw [node?_add]
    split_ifs with new
    · rw [new, gone]
      rfl
    · rfl
  · unfold Document.children
    rw [node?_add]
    split_ifs with new
    · rw [new, gone]
      rfl
    · rfl

/-- A node is moved to the end of a list, and nothing else changes. -/
theorem Forest.node?_append (h : Forest d) (parent child n : NodeId) :
    (d.append parent child).node? n = (d.node? n).map fun x =>
      { x with
        parent := if n = child then some parent else x.parent
        children := x.children.filter (· != child) ++ if n = parent then [child] else [] } := by
  unfold append
  rw [node?_modifyNode, node?_modifyNode, h.node?_unlink]
  cases d.node? n with
  | none => simp
  | some x =>
    split_ifs <;> simp

theorem Forest.parent?_append (h : Forest d) (there : d.contains child = true) :
    (d.append parent child).parent? c = some p ↔
      if c = child then p = parent else d.parent? c = some p := by
  unfold parent?
  rw [h.node?_append, Option.bind_map]
  by_cases self : c = child
  · obtain ⟨x, hx⟩ := contains_iff.1 there
    subst self
    simp [hx, eq_comm]
  · simp only [if_neg self]
    rfl

theorem Forest.children_append (h : Forest d) (there : d.contains parent = true) (p : NodeId) :
    (d.append parent child).children p =
      (d.children p).filter (· != child) ++ if p = parent then [child] else [] := by
  unfold Document.children
  rw [h.node?_append]
  cases hx : d.node? p with
  | some x => rfl
  | none =>
    have other : p ≠ parent := by
      rintro rfl
      obtain ⟨x, hx'⟩ := contains_iff.1 there
      rw [hx] at hx'
      cases hx'
    simp [other]

/-- A chain of parents that is new leads to the node that was moved, and on from its new parent. -/
theorem Forest.below_append (h : Forest d) (there : d.contains child = true)
    (chain : (d.append parent child).Below n m) :
    d.Below n m ∨ d.Under n child ∧ d.Under parent m := by
  have step {n m : NodeId} (up : (d.append parent child).parent? n = some m) :
      d.Below n m ∨ d.Under n child ∧ d.Under parent m := by
    rw [h.parent?_append there] at up
    split_ifs at up with self
    · exact .inr ⟨self ▸ ReflTransGen.refl, up ▸ ReflTransGen.refl⟩
    · exact .inl (TransGen.single up)
  induction chain with
  | single up => exact step up
  | tail _ up ih =>
    rcases ih, step up with ⟨old | ⟨into, out⟩, old' | ⟨into', out'⟩⟩
    · exact .inl (old.trans old')
    · exact .inr ⟨old.to_reflTransGen.trans into', out'⟩
    · exact .inr ⟨into, out.trans old'.to_reflTransGen⟩
    · exact .inr ⟨into, out'⟩

theorem Forest.append (h : Forest d) (there : d.contains parent = true)
    (there' : d.contains child = true) (apart : parent ∉ d.subtree child) :
    Forest (d.append parent child) := by
  have outside : ¬d.Under parent child := fun under => apart (h.mem_subtree.2 ⟨there, under⟩)
  refine ⟨fun c p => ?_, fun p => ?_, fun n loop => ?_⟩
  · rw [h.parent?_append there', h.children_append there, List.mem_append, List.mem_filter,
      bne_iff_ne, h.linked]
    by_cases self : c = child
    · simp [self]
    · simp [self]
  · rw [h.children_append there]
    have others := (h.nodup p).filter (· != child)
    split_ifs
    · exact others.append (List.nodup_singleton child) (by simp [List.Disjoint])
    · rwa [List.append_nil]
  · rcases h.below_append there' loop with loop | ⟨into, out⟩
    · exact h.acyclic n loop
    · exact outside (out.trans into)

/-! ## Operations -/

/-- What may be done with a document. -/
inductive Operation where
  | addElement (tag : String)
  | addText (content : String)
  | append (parent child : NodeId)
  | remove (id : NodeId)
  | clear (id : NodeId)
  | setAttribute (id : NodeId) (name value : String)
  | removeAttribute (id : NodeId) (name : String)
  | setListener (id : NodeId) (event : String) (handler : Value)

def perform (d : Document) : Operation → Document
  | .addElement tag => (d.addElement tag).2
  | .addText content => (d.addText content).2
  | .append parent child => d.append parent child
  | .remove id => d.remove id
  | .clear id => d.clear id
  | .setAttribute id name value => d.setAttribute id name value
  | .removeAttribute id name => d.removeAttribute id name
  | .setListener id event handler => d.setListener id event handler

/-- The identity that an operation gives. -/
def given? (d : Document) : Operation → Option NodeId
  | .addElement tag => some (d.addElement tag).1
  | .addText content => some (d.addText content).1
  | _ => none

/-- A node is put into one that is not inside it, and both are there. -/
def Admits (d : Document) : Operation → Prop
  | .append parent child =>
    d.contains parent = true ∧ d.contains child = true ∧ parent ∉ d.subtree child
  | _ => True

def run : Document → List Operation → Document
  | d, [] => d
  | d, op :: rest => run (d.perform op) rest

/-- The identities that operations give, in their order. -/
def given : Document → List Operation → List NodeId
  | _, [] => []
  | d, op :: rest => (d.given? op).toList ++ given (d.perform op) rest

/-- Each operation is admitted when its turn comes. -/
def AdmitsAll : Document → List Operation → Prop
  | _, [] => True
  | d, op :: rest => d.Admits op ∧ AdmitsAll (d.perform op) rest

instance (d : Document) : DecidablePred d.Admits
  | .append parent child =>
    inferInstanceAs (Decidable
      (d.contains parent = true ∧ d.contains child = true ∧ parent ∉ d.subtree child))
  | .addElement .. | .addText .. | .remove .. | .clear .. | .setAttribute .. | .removeAttribute ..
  | .setListener .. => isTrue trivial

instance decidableAdmitsAll : (d : Document) → DecidablePred d.AdmitsAll
  | _, [] => isTrue trivial
  | d, op :: rest =>
    have := decidableAdmitsAll (d.perform op) rest
    inferInstanceAs (Decidable (d.Admits op ∧ (d.perform op).AdmitsAll rest))

variable {op : Operation} {ops more : List Operation}

theorem run_append (d : Document) (ops more : List Operation) :
    d.run (ops ++ more) = (d.run ops).run more := by
  induction ops generalizing d with
  | nil => rfl
  | cons op rest ih => exact ih (d.perform op)

theorem given_append (d : Document) (ops more : List Operation) :
    d.given (ops ++ more) = d.given ops ++ (d.run ops).given more := by
  induction ops generalizing d with
  | nil => rfl
  | cons op rest ih => rw [List.cons_append, given, ih, given, run, List.append_assoc]

theorem Forest.perform (h : Forest d) (admitted : d.Admits op) : Forest (d.perform op) := by
  cases op with
  | addElement tag => exact h.add _
  | addText content => exact h.add _
  | append parent child => exact h.append admitted.1 admitted.2.1 admitted.2.2
  | remove id => exact h.remove id
  | clear id => exact h.clear id
  | setAttribute id name value
  | removeAttribute id name
  | setListener id event handler => exact h.modifyNode id fun x => by split <;> exact ⟨rfl, rfl⟩

theorem Forest.run (h : Forest d) (admitted : d.AdmitsAll ops) : Forest (d.run ops) := by
  induction ops generalizing d with
  | nil => exact h
  | cons op rest ih => exact ih (h.perform admitted.1) admitted.2

/-! ## Identities -/

@[simp] theorem contains_modifyNode (d : Document) (id n : NodeId) (f : Node → Node) :
    (d.modifyNode id f).contains n = d.contains n := by
  unfold contains
  rw [node?_modifyNode]
  split_ifs
  · rw [Option.isSome_map]
  · rfl

@[simp] theorem contains_unlink (d : Document) (id n : NodeId) :
    (d.unlink id).contains n = d.contains n := by
  unfold unlink
  split
  · rw [contains_modifyNode]
  · rfl

theorem contains_of_forget {ids : List NodeId} (there : (d.forget ids).contains n = true) :
    d.contains n = true := by
  unfold contains at *
  rw [node?_forget] at there
  split_ifs at there
  · cases there
  · exact there

theorem size_perform (d : Document) (op : Operation) :
    (d.perform op).nodes.size = d.nodes.size + (d.given? op).toList.length := by
  cases op with
  | addElement tag => exact size_add d _
  | addText content => exact size_add d _
  | append parent child => exact size_append d parent child
  | remove id => simp [perform, remove, given?]
  | clear id => exact size_clear d id
  | setAttribute id name value => exact size_modifyNode d id _
  | removeAttribute id name => exact size_modifyNode d id _
  | setListener id event handler => exact size_modifyNode d id _

theorem given?_eq (given : d.given? op = some n) : n = ⟨d.nodes.size⟩ := by
  cases op with
  | addElement tag => exact (Option.some_inj.1 given).symm
  | addText content => exact (Option.some_inj.1 given).symm
  | _ => cases given

/-- A node that was not there is there only because its identity was given. -/
theorem contains_of_perform (there : (d.perform op).contains n = true) :
    d.contains n = true ∨ d.given? op = some n := by
  have added {kind : NodeKind} (there : (d.add kind).2.contains n = true) :
      d.contains n = true ∨ some (d.add kind).1 = some n := by
    unfold contains at *
    rw [node?_add] at there
    split_ifs at there with new
    · exact .inr (congrArg some new.symm)
    · exact .inl there
  cases op with
  | addElement tag => exact added there
  | addText content => exact added there
  | append parent child => exact .inl (by simpa [perform, append] using there)
  | remove id => exact .inl (by simpa using contains_of_forget there)
  | clear id =>
    have cleared : (d.forget ((d.children id).flatMap d.subtree)).contains n = true := by
      simpa [perform, clear] using there
    exact .inl (contains_of_forget cleared)
  | setAttribute id name value
  | removeAttribute id name
  | setListener id event handler => exact .inl ((contains_modifyNode ..).symm.trans there)

theorem contains_of_run (there : (d.run ops).contains n = true) :
    d.contains n = true ∨ n ∈ d.given ops := by
  induction ops generalizing d with
  | nil => exact .inl there
  | cons op rest ih =>
    rw [given, List.mem_append, Option.mem_toList]
    rcases ih there with there | mem
    · exact (contains_of_perform there).imp_right .inl
    · exact .inr (.inr mem)

/-- Identities are given in the order of their places, from the end of the table on. -/
theorem given_eq (d : Document) (ops : List Operation) :
    d.given ops = (List.range' d.nodes.size (d.given ops).length).map NodeId.mk := by
  induction ops generalizing d with
  | nil => rfl
  | cons op rest ih =>
    rw [given]
    have later := ih (d.perform op)
    rw [size_perform] at later
    cases first : d.given? op with
    | none =>
      rw [first] at later
      exact later
    | some n =>
      rw [first] at later
      obtain rfl := given?_eq first
      rw [Option.toList_some, List.singleton_append, List.length_cons, List.range'_succ,
        List.map_cons]
      exact congrArg _ later

theorem nodup_body_given (ops : List Operation) : (body :: empty.given ops).Nodup := by
  have places : body :: empty.given ops =
      (List.range' 0 ((empty.given ops).length + 1)).map NodeId.mk := by
    rw [List.range'_succ, List.map_cons]
    exact congrArg (body :: ·) (given_eq empty ops)
  rw [places]
  exact List.Nodup.map (fun _ _ eq => congrArg NodeId.index eq) List.nodup_range'

/-- What is gone remains gone. -/
theorem gone_run (mem : n ∈ body :: empty.given ops) (gone : (empty.run ops).contains n = false)
    (more : List Operation) : ((empty.run ops).run more).contains n = false := by
  have apart := nodup_body_given (ops ++ more)
  rw [given_append, ← List.cons_append, List.nodup_append] at apart
  by_contra there
  rcases contains_of_run (Bool.not_eq_false _ ▸ there) with there | again
  · rw [gone] at there
    cases there
  · exact apart.2.2 n mem n again rfl

/-- A document is a forest whatever is done with it, if no node is put into its own subtree: links
go both ways, no list has a node twice or one that is gone, and no parents lead around. A subtree is
what stands below a node; a node is removed with its subtree, or it is cleared of the rest of it,
and nothing else goes. And no identity is given twice, so what is gone remains so. -/
theorem run_forest (admitted : empty.AdmitsAll ops) :
    let d := empty.run ops
    (∀ c p, c ∈ d.children p ↔ d.parent? c = some p) ∧
      (∀ p, (d.children p).Nodup ∧ ∀ c ∈ d.children p, d.contains c = true) ∧
      (∀ n, ¬d.Below n n) ∧
      (∀ id n, n ∈ d.subtree id ↔ d.contains n = true ∧ d.Under n id) ∧
      (∀ id n, (d.remove id).node? n =
        if n ∈ d.subtree id then none
        else (d.node? n).map fun x => { x with children := x.children.filter (· != id) }) ∧
      (∀ id n, (d.clear id).node? n =
        if n = id then (d.node? n).map fun x => { x with children := [] }
        else if n ∈ d.subtree id then none else d.node? n) ∧
      ∀ more, (body :: empty.given (ops ++ more)).Nodup ∧
        ∀ n ∈ body :: empty.given ops, d.contains n = false → (d.run more).contains n = false := by
  intro d
  have forest : Forest d := forest_empty.run admitted
  exact ⟨forest.linked, fun p => ⟨forest.nodup p, fun c => forest.contains_child⟩, forest.acyclic,
    fun _ _ => forest.mem_subtree, forest.node?_remove, forest.node?_clear,
    fun more => ⟨nodup_body_given _, fun _ mem gone => gone_run mem gone more⟩⟩

/-- An item goes to the end of its list and then to another list, which is removed with it. -/
theorem run_forest_lists :
    let ops : List Operation :=
      [.addElement "ul", .append body ⟨1⟩, .addElement "li", .append ⟨1⟩ ⟨2⟩, .addText "a",
        .append ⟨1⟩ ⟨3⟩, .append ⟨1⟩ ⟨2⟩, .addElement "ol", .append body ⟨4⟩, .append ⟨4⟩ ⟨2⟩,
        .setAttribute ⟨2⟩ "class" "x"]
    empty.AdmitsAll ops ∧ (empty.run ops).children ⟨1⟩ = [⟨3⟩] ∧
      (empty.run ops).parent? ⟨2⟩ = some ⟨4⟩ ∧
      ((empty.run ops).remove ⟨4⟩).node? ⟨2⟩ = none ∧
      ((empty.run ops).remove ⟨4⟩).contains ⟨3⟩ = true ∧
      ((empty.run ops).run [.remove ⟨4⟩, .addText "b"]).contains ⟨2⟩ = false := by
  intro ops
  have admitted : empty.AdmitsAll ops := by decide +kernel
  have admitted' : empty.AdmitsAll (ops ++ [.remove ⟨4⟩]) := by decide +kernel
  have removed := (run_forest admitted).2.2.2.2.1 ⟨4⟩
  have freed := ((run_forest admitted').2.2.2.2.2.2 [.addText "b"]).2 ⟨2⟩ (by decide +kernel)
    (by decide +kernel)
  refine ⟨admitted, by decide +kernel, ?_, ?_, ?_, ?_⟩
  · exact ((run_forest admitted).1 ⟨2⟩ ⟨4⟩).1 (by decide +kernel)
  · rw [removed, if_pos (by decide +kernel)]
  · rw [contains, removed, if_neg (by decide +kernel)]
    decide +kernel
  · rwa [run_append] at freed

end Document

end TsxPreview
