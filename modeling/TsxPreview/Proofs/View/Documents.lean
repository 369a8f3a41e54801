import Mathlib.Data.List.Basic
import TsxPreview.View.Document

/-!
What the operations on a document do to each node, and what is read of a document in which children
are younger than their parents. Two documents agree if they have the same nodes under the same
identities; how many identities were used up does not matter.
-/

namespace TsxPreview

namespace Document

variable {d e : Document} {n id parent : NodeId} {x : Node}

/-! ## Single nodes -/

theorem index_ne_of_ne (h : n ≠ id) : n.index ≠ id.index := by
  intro same
  exact h (by cases n; cases id; simpa using same)

theorem lt_size_of_node? (h : d.node? n = some x) : n.index < d.nodes.size := by
  refine Nat.lt_of_not_le fun past => ?_
  unfold node? at h
  rw [Array.getElem?_eq_none past] at h
  cases h

theorem node?_eq_none (h : d.nodes.size ≤ n.index) : d.node? n = none := by
  unfold node?
  rw [Array.getElem?_eq_none h]
  rfl

@[simp] theorem size_modifyNode (d : Document) (id : NodeId) (f : Node → Node) :
    (d.modifyNode id f).nodes.size = d.nodes.size := by
  simp [modifyNode]

theorem node?_modifyNode (d : Document) (id n : NodeId) (f : Node → Node) :
    (d.modifyNode id f).node? n = if n = id then (d.node? n).map f else d.node? n := by
  unfold node? modifyNode
  rw [Array.getElem?_modify]
  by_cases same : n = id
  · subst same
    rw [if_pos rfl, if_pos rfl]
    cases d.nodes[n.index]? with
    | none => rfl
    | some slot => rfl
  · rw [if_neg (Ne.symm (index_ne_of_ne same)), if_neg same]

theorem node?_modifyNode_of_ne (h : n ≠ id) (f : Node → Node) :
    (d.modifyNode id f).node? n = d.node? n := by
  rw [node?_modifyNode, if_neg h]

@[simp] theorem size_add (d : Document) (kind : NodeKind) :
    (d.add kind).2.nodes.size = d.nodes.size + 1 := by
  simp [add]

theorem node?_add (d : Document) (kind : NodeKind) (n : NodeId) :
    (d.add kind).2.node? n = if n = ⟨d.nodes.size⟩ then some { kind } else d.node? n := by
  unfold node? add
  dsimp only
  rw [Array.getElem?_push]
  by_cases new : n = ⟨d.nodes.size⟩
  · subst new
    rw [if_pos rfl, if_pos rfl]
    rfl
  · rw [if_neg (index_ne_of_ne new), if_neg new]

@[simp] theorem size_forget (d : Document) (ids : List NodeId) :
    (d.forget ids).nodes.size = d.nodes.size := by
  unfold forget
  dsimp only
  generalize d.nodes = nodes
  induction ids generalizing nodes with
  | nil => rfl
  | cons id rest ih => simp [ih]

theorem node?_forget (d : Document) (ids : List NodeId) (n : NodeId) :
    (d.forget ids).node? n = if n ∈ ids then none else d.node? n := by
  unfold forget node?
  dsimp only
  generalize d.nodes = nodes
  induction ids generalizing nodes with
  | nil => simp
  | cons id rest ih =>
    rw [List.foldl_cons, ih]
    by_cases later : n ∈ rest
    · simp [later]
    · rw [if_neg later, Array.getElem?_setIfInBounds]
      by_cases same : n = id
      · subst same
        rw [if_pos rfl, if_pos List.mem_cons_self]
        split <;> rfl
      · rw [if_neg (Ne.symm (index_ne_of_ne same)), if_neg]
        simp [same, later]

/-! ### Nodes that stand nowhere -/

theorem unlink_of_root (h : d.parent? id = none) : d.unlink id = d := by
  unfold unlink
  rw [h]

/-- A node without a parent is put at the end of one that stands. -/
theorem node?_append (root : d.parent? id = none) (apart : parent ≠ id) (n : NodeId) :
    (d.append parent id).node? n =
      if n = parent then (d.node? n).map fun x => { x with children := x.children ++ [id] }
      else if n = id then (d.node? n).map fun x => { x with parent := some parent }
      else d.node? n := by
  unfold append
  rw [unlink_of_root root, node?_modifyNode, node?_modifyNode]
  by_cases above : n = parent
  · subst above
    rw [if_pos rfl, if_pos rfl, if_neg apart]
  · rw [if_neg above, if_neg above]

@[simp] theorem size_unlink (d : Document) (id : NodeId) :
    (d.unlink id).nodes.size = d.nodes.size := by
  unfold unlink
  split
  · rw [size_modifyNode]
  · rfl

@[simp] theorem size_append (d : Document) (parent id : NodeId) :
    (d.append parent id).nodes.size = d.nodes.size := by
  simp [append]

@[simp] theorem size_clear (d : Document) (id : NodeId) :
    (d.clear id).nodes.size = d.nodes.size := by
  simp [clear]

/-- A new node at the end of a node that stands. -/
theorem node?_place (h : parent.index < d.nodes.size) (kind : NodeKind) (n : NodeId) :
    ((d.add kind).2.append parent ⟨d.nodes.size⟩).node? n =
      if n = parent then
        (d.node? n).map fun x => { x with children := x.children ++ [⟨d.nodes.size⟩] }
      else if n = ⟨d.nodes.size⟩ then some { kind, parent := some parent }
      else d.node? n := by
  have apart : parent ≠ ⟨d.nodes.size⟩ := by
    rintro rfl
    exact Nat.lt_irrefl _ h
  have root : (d.add kind).2.parent? ⟨d.nodes.size⟩ = none := by
    unfold parent?
    rw [node?_add, if_pos rfl]
    rfl
  rw [node?_append root apart, node?_add]
  by_cases above : n = parent
  · subst above
    rw [if_pos rfl, if_pos rfl, if_neg apart]
  · rw [if_neg above, if_neg above]
    by_cases new : n = ⟨d.nodes.size⟩
    · rw [if_pos new, if_pos new, if_pos new]
      rfl
    · rw [if_neg new, if_neg new, if_neg new]

/-! ## Documents with the same nodes -/

/-- The same nodes under the same identities. -/
def Agree (d e : Document) : Prop := ∀ n, d.node? n = e.node? n

theorem Agree.refl (d : Document) : Agree d d := fun _ => rfl

theorem Agree.symm (h : Agree d e) : Agree e d := fun n => (h n).symm

theorem Agree.trans {f : Document} (h : Agree d e) (h' : Agree e f) : Agree d f :=
  fun n => (h n).trans (h' n)

theorem Agree.children (h : Agree d e) (n : NodeId) : d.children n = e.children n := by
  unfold Document.children
  rw [h n]

theorem mem_children {c : NodeId} : c ∈ d.children n ↔ ∃ x, d.node? n = some x ∧ c ∈ x.children := by
  unfold children
  cases d.node? n with
  | none => simp
  | some x => simp

theorem contains_iff : d.contains n = true ↔ ∃ x, d.node? n = some x := by
  unfold contains
  rw [Option.isSome_iff_exists]

/-! ## Reading downward -/

/-- Children are younger than their parents. -/
def Ordered (d : Document) : Prop := ∀ n, ∀ c ∈ d.children n, n.index < c.index

theorem Ordered.congr (h : Ordered d) (agree : Agree d e) : Ordered e := by
  intro n c hc
  rw [← agree.children] at hc
  exact h n c hc

/-- Nothing is deeper than the number of younger nodes. -/
theorem treeAt_of_ordered (h : Ordered d) (depth depth' : Nat) (n : NodeId)
    (enough : d.nodes.size ≤ n.index + depth) (enough' : d.nodes.size ≤ n.index + depth') :
    d.treeAt depth n = d.treeAt depth' n := by
  induction depth generalizing depth' n with
  | zero =>
    have gone : d.node? n = none := node?_eq_none enough
    cases depth' with
    | zero => rfl
    | succ depth' => simp [treeAt, gone]
  | succ depth ih =>
    cases depth' with
    | zero =>
      have gone : d.node? n = none := node?_eq_none enough'
      simp [treeAt, gone]
    | succ depth' =>
      unfold treeAt
      cases hx : d.node? n with
      | none => rfl
      | some x =>
        obtain ⟨kind, parent, children⟩ := x
        cases kind with
        | text content => rfl
        | element tag attributes listeners =>
          have below : children.filterMap (d.treeAt depth) =
              children.filterMap (d.treeAt depth') := by
            refine List.filterMap_congr fun c hc => ?_
            have younger := h n c (mem_children.2 ⟨_, hx, hc⟩)
            exact ih depth' c (by omega) (by omega)
          simp [below]

/-- The tree of a node is made of the trees of its children. -/
theorem tree?_eq (h : Ordered d) (n : NodeId) :
    d.tree? n = (d.node? n).map fun x => match x.kind with
      | .element tag attributes _ => .element tag attributes (x.children.filterMap d.tree?)
      | .text content => .text content := by
  rw [show d.tree? = d.treeAt d.nodes.size from rfl]
  cases hx : d.node? n with
  | none =>
    cases d.nodes.size with
    | zero => rfl
    | succ depth => simp [treeAt, hx]
  | some x =>
    have inside := lt_size_of_node? hx
    refine (treeAt_of_ordered h d.nodes.size (d.nodes.size + 1) n (by omega) (by omega)).trans ?_
    obtain ⟨kind, parent, children⟩ := x
    cases kind <;> simp [treeAt, hx]

/-- Documents that agree show the same. -/
theorem Agree.tree? (h : Agree d e) (ordered : Ordered d) (n : NodeId) : d.tree? n = e.tree? n := by
  have same (depth : Nat) (n : NodeId) : d.treeAt depth n = e.treeAt depth n := by
    induction depth generalizing n with
    | zero => rfl
    | succ depth ih => simp only [treeAt, h n, funext ih]
  have inside (size : Nat) : d.nodes.size ≤ n.index + (d.nodes.size + size) := by omega
  unfold Document.tree?
  rw [treeAt_of_ordered ordered d.nodes.size (d.nodes.size + e.nodes.size) n (by omega) (by omega),
    same, treeAt_of_ordered (ordered.congr h) (d.nodes.size + e.nodes.size) e.nodes.size n
      (by omega) (by omega)]

/-! ## What is below a node -/

/-- What leads downward leads to children, too. -/
theorem mem_descend_child (h : Ordered d) {depth : Nat} {r m c : NodeId}
    (enough : d.nodes.size ≤ r.index + depth) (hm : m ∈ d.descend depth r)
    (hc : c ∈ d.children m) (there : d.contains c = true) : c ∈ d.descend depth r := by
  induction depth generalizing r with
  | zero => cases hm
  | succ depth ih =>
    unfold descend at hm ⊢
    by_cases stands : d.contains r = true
    · rw [if_pos stands] at hm ⊢
      obtain rfl | hm := List.mem_cons.1 hm
      · refine List.mem_cons_of_mem _ (List.mem_flatMap.2 ⟨c, hc, ?_⟩)
        have younger := h m c hc
        obtain ⟨x, hx⟩ := contains_iff.1 there
        have inside := lt_size_of_node? hx
        obtain ⟨depth, rfl⟩ : ∃ k, depth = k + 1 := ⟨depth - 1, by omega⟩
        unfold descend
        rw [if_pos there]
        exact List.mem_cons_self
      · obtain ⟨s, hs, hm⟩ := List.mem_flatMap.1 hm
        have younger := h r s hs
        exact List.mem_cons_of_mem _ (List.mem_flatMap.2 ⟨s, hs, ih (by omega) hm⟩)
    · rw [if_neg stands] at hm
      cases hm

/-- What holds of a node and of the children of what it holds of, holds of all that is below. -/
theorem descend_induction {P : NodeId → Prop} (down : ∀ m, P m → ∀ c ∈ d.children m, P c)
    {depth : Nat} {r m : NodeId} (hr : P r) (hm : m ∈ d.descend depth r) : P m := by
  induction depth generalizing r with
  | zero => cases hm
  | succ depth ih =>
    unfold descend at hm
    split at hm
    · obtain rfl | hm := List.mem_cons.1 hm
      · exact hr
      · obtain ⟨s, hs, hm⟩ := List.mem_flatMap.1 hm
        exact ih (down r hr s hs) hm
    · cases hm

theorem contains_of_mem_descend {depth : Nat} {r m : NodeId} (hm : m ∈ d.descend depth r) :
    d.contains m = true := by
  induction depth generalizing r with
  | zero => cases hm
  | succ depth ih =>
    unfold descend at hm
    split at hm
    · rename_i stands
      obtain rfl | hm := List.mem_cons.1 hm
      · exact stands
      · obtain ⟨s, -, hm⟩ := List.mem_flatMap.1 hm
        exact ih hm
    · cases hm

theorem mem_subtree_self (there : d.contains n = true) : n ∈ d.subtree n := by
  obtain ⟨x, hx⟩ := contains_iff.1 there
  have inside := lt_size_of_node? hx
  unfold subtree
  obtain ⟨depth, size⟩ : ∃ k, d.nodes.size = k + 1 := ⟨d.nodes.size - 1, by omega⟩
  rw [size]
  unfold descend
  rw [if_pos there]
  exact List.mem_cons_self

theorem mem_subtree_child (h : Ordered d) {r m c : NodeId} (hm : m ∈ d.subtree r)
    (hc : c ∈ d.children m) (there : d.contains c = true) : c ∈ d.subtree r :=
  mem_descend_child h (Nat.le_add_left _ _) hm hc there

theorem node?_clear (d : Document) (id n : NodeId) :
    (d.clear id).node? n =
      if n ∈ (d.children id).flatMap d.subtree then none
      else if n = id then (d.node? n).map fun x => { x with children := [] }
      else d.node? n := by
  unfold clear
  rw [node?_modifyNode, node?_forget]
  by_cases below : n ∈ (d.children id).flatMap d.subtree
  · rw [if_pos below, if_pos below]
    split <;> rfl
  · rw [if_neg below, if_neg below]

end Document

end TsxPreview
