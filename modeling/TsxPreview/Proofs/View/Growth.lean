import TsxPreview.Proofs.View.Documents

/-!
What grows below a node of a document. Nodes are made one after another and each is put at the end of
the given node or of one that was made before. The kinds of the nodes and the numbers of their
parents say all about what stands there then, whatever the rest of the document is.
-/

namespace TsxPreview

/-- Nodes in the order in which they were made, each with the number of its parent; the node that was
given has no number. -/
abbrev Growth := List (NodeKind × Option Nat)

namespace Growth

/-- The numbers of the children of a node. -/
def below (g : Growth) (parent : Option Nat) : List Nat :=
  (List.range g.length).filter fun k => (g[k]?).map Prod.snd = some parent

/-- Parents are made before their children. -/
def Rooted (g : Growth) : Prop := 
  ∀ (k : Nat) (kind : NodeKind) (j : Nat), g[k]? = some (kind, some j) → j < k

/-- Whether a node may be put there. -/
def Has (g : Growth) : Option Nat → Prop
  | none => True
  | some k => k < g.length

/-- Changes what a node is. -/
def change (g : Growth) (k : Nat) (f : NodeKind → NodeKind) : Growth :=
  g.modify k fun made => (f made.1, made.2)

variable {g : Growth} {k : Nat} {p q : Option Nat} {kind : NodeKind}

theorem Has.mono {g' : Growth} (h : g.Has p) (le : g.length ≤ g'.length) : g'.Has p := by
  cases p with
  | none => trivial
  | some k => exact Nat.lt_of_lt_of_le h le

theorem mem_below : k ∈ g.below p ↔ ∃ kind, g[k]? = some (kind, p) := by
  unfold below
  rw [List.mem_filter, List.mem_range, decide_eq_true_iff, Option.map_eq_some_iff]
  constructor
  · rintro ⟨-, ⟨kind, parent⟩, there, rfl⟩
    exact ⟨kind, there⟩
  · rintro ⟨kind, there⟩
    exact ⟨(List.getElem?_eq_some_iff.1 there).1, _, there, rfl⟩

theorem below_concat (g : Growth) (kind : NodeKind) (p q : Option Nat) :
    below (g ++ [(kind, p)]) q = g.below q ++ if p = q then [g.length] else [] := by
  unfold below
  rw [List.length_append, List.length_singleton, List.range_succ, List.filter_append]
  congr 1
  · refine List.filter_congr fun k hk => ?_
    rw [List.getElem?_append_left (List.mem_range.1 hk)]
  · by_cases same : p = q <;> simp [same]

@[simp] theorem length_change (g : Growth) (k : Nat) (f : NodeKind → NodeKind) :
    (g.change k f).length = g.length := by
  simp [change]

theorem getElem?_change (g : Growth) (k i : Nat) (f : NodeKind → NodeKind) :
    (g.change k f)[i]? = if k = i then (g[i]?).map fun made => (f made.1, made.2) else g[i]? := by
  unfold change
  rw [List.getElem?_modify]
  by_cases same : k = i
  · subst same
    simp
  · simp [same]

theorem below_change (g : Growth) (k : Nat) (f : NodeKind → NodeKind) (p : Option Nat) :
    (g.change k f).below p = g.below p := by
  unfold below
  rw [length_change]
  refine List.filter_congr fun i _ => ?_
  rw [getElem?_change]
  by_cases same : k = i
  · rw [if_pos same, Option.map_map]
    rfl
  · rw [if_neg same]

theorem Rooted.concat (h : g.Rooted) (there : g.Has p) : Rooted (g ++ [(kind, p)]) := by
  intro k kind' j hk
  by_cases old : k < g.length
  · rw [List.getElem?_append_left old] at hk
    exact h k kind' j hk
  · rw [List.getElem?_append_right (by omega)] at hk
    obtain ⟨here, made⟩ := List.getElem?_eq_some_iff.1 hk
    rw [List.length_singleton] at here
    have new : k = g.length := by omega
    subst new
    simp only [Nat.sub_self, List.getElem_cons_zero, Prod.mk.injEq] at made
    obtain ⟨rfl, rfl⟩ := made
    exact there

theorem Rooted.change (h : g.Rooted) (k : Nat) (f : NodeKind → NodeKind) :
    (g.change k f).Rooted := by
  intro i kind j hi
  rw [getElem?_change] at hi
  split at hi
  · obtain ⟨⟨kind', parent⟩, there, same⟩ := Option.map_eq_some_iff.1 hi
    cases same
    exact h i kind' j there
  · exact h i kind j hi

end Growth

/-- The node that a number stands for: the given node, or one that was made when so many identities
were used up. -/
def NodeId.spot (given : NodeId) (base : Nat) : Option Nat → NodeId
  | none => given
  | some k => ⟨base + k⟩

@[simp] theorem NodeId.spot_some (c : NodeId) (b k : Nat) : c.spot b (some k) = ⟨b + k⟩ := rfl

theorem NodeId.not_made_lt (b k : Nat) : ¬ (⟨b + k⟩ : NodeId).index < b :=
  Nat.not_lt_of_le (Nat.le_add_right b k)

namespace Document

/-- The document `e` with a growth below a node, made when `base` identities were used up. -/
structure Grown (c : NodeId) (base : Nat) (g : Growth) (e d : Document) : Prop where
  low : c.index < base
  fresh : ∀ n : NodeId, base ≤ n.index → e.node? n = none
  rooted : g.Rooted
  size : d.nodes.size = base + g.length
  made : ∀ k, d.node? ⟨base + k⟩ = (g[k]?).map fun made =>
    { kind := made.1, parent := some (c.spot base made.2)
      children := (g.below (some k)).map fun j => c.spot base (some j) }
  given : d.node? c = (e.node? c).map fun x =>
    { x with children := x.children ++ (g.below none).map fun j => c.spot base (some j) }
  rest : ∀ n : NodeId, n.index < base → n ≠ c → d.node? n = e.node? n

/-- A document that stands ready for a growth below a node. -/
structure Vacant (c : NodeId) (e : Document) : Prop where
  ordered : Ordered e
  there : e.contains c = true
  bare : e.children c = []

namespace Grown

variable {c : NodeId} {b k : Nat} {g : Growth} {d e : Document} {p : Option Nat}

theorem nil (low : c.index < d.nodes.size) : Grown c d.nodes.size [] d d where
  low := low
  fresh _ := node?_eq_none
  rooted := fun k kind j hk => by cases hk
  size := rfl
  made k := node?_eq_none (Nat.le_add_right _ _)
  given := by
    cases d.node? c with
    | none => rfl
    | some x => simp [Growth.below]
  rest _ _ _ := rfl

theorem congr {e' : Document} (h : Grown c b g e d) (agree : Agree e e') : Grown c b g e' d where
  low := h.low
  fresh n past := (agree n).symm.trans (h.fresh n past)
  rooted := h.rooted
  size := h.size
  made := h.made
  given := h.given.trans (by rw [agree c])
  rest n old other := (h.rest n old other).trans (agree n)

/-- A node is one of those before, or was made. -/
theorem old_or_made (b : Nat) (n : NodeId) : n.index < b ∨ ∃ k, n = ⟨b + k⟩ := by
  by_cases old : n.index < b
  · exact .inl old
  · refine .inr ⟨n.index - b, ?_⟩
    obtain ⟨i⟩ := n
    simp only [NodeId.mk.injEq] at old ⊢
    omega

/-- Where nothing has grown. -/
theorem agree (h : Grown c b [] e d) : Agree d e := by
  intro n
  obtain old | ⟨k, rfl⟩ := old_or_made b n
  · by_cases same : n = c
    · subst same
      rw [h.given]
      cases e.node? n with
      | none => rfl
      | some x => simp [Growth.below]
    · exact h.rest n old same
  · rw [h.made, h.fresh _ (Nat.le_add_right _ _)]
    rfl

theorem index_spot_lt (h : Grown c b g e d) (there : g.Has p) :
    (c.spot b p).index < d.nodes.size := by
  rw [h.size]
  cases p with
  | none => exact Nat.lt_of_lt_of_le h.low (Nat.le_add_right _ _)
  | some k => exact Nat.add_lt_add_left there b

theorem spot_ne_made (h : Grown c b g e d) (k : Nat) : (⟨b + k⟩ : NodeId) ≠ c := by
  rintro rfl
  exact absurd h.low (by simp)

/-- One more node is made. -/
theorem place (h : Grown c b g e d) (there : g.Has p) (kind : NodeKind) :
    Grown c b (g ++ [(kind, p)]) e
      ((d.add kind).2.append (c.spot b p) ⟨d.nodes.size⟩) := by
  have node := node?_place (h.index_spot_lt there) kind
  have new : (⟨d.nodes.size⟩ : NodeId) = ⟨b + g.length⟩ := by rw [h.size]
  rw [new] at node ⊢
  exact {
    low := h.low
    fresh := h.fresh
    rooted := h.rooted.concat there
    size := by
      rw [size_append, size_add, h.size, List.length_append]
      rfl
    made := fun k => by
      rw [node, Growth.below_concat]
      by_cases above : (⟨b + k⟩ : NodeId) = c.spot b p
      · -- the new node is a child of this one
        have same : p = some k := by
          cases p with
          | none => exact absurd above (h.spot_ne_made k)
          | some j =>
            simp only [NodeId.spot, NodeId.mk.injEq] at above
            rw [Nat.add_left_cancel above]
        subst same
        have old : k < g.length := there
        rw [if_pos above, h.made, List.getElem?_append_left old, Option.map_map, if_pos rfl]
        simp [Function.comp_def, NodeId.spot]
      · have other : p ≠ some k := by
          rintro rfl
          exact above rfl
        rw [if_neg above, if_neg other, List.append_nil]
        by_cases last : k = g.length
        · subst last
          -- nothing was put below the new node
          have none : g.below (some g.length) = [] := by
            refine List.eq_nil_iff_forall_not_mem.2 fun j hj => ?_
            obtain ⟨kind', hj⟩ := Growth.mem_below.1 hj
            have younger := h.rooted j kind' _ hj
            have inside := (List.getElem?_eq_some_iff.1 hj).1
            omega
          rw [if_pos rfl, none]
          simp
        · have apart : (⟨b + k⟩ : NodeId) ≠ ⟨b + g.length⟩ := by
            simp only [ne_eq, NodeId.mk.injEq]
            omega
          rw [if_neg apart, h.made]
          by_cases old : k < g.length
          · rw [List.getElem?_append_left old]
          · rw [List.getElem?_eq_none (by omega), List.getElem?_eq_none (by simp; omega)]
    given := by
      rw [node, Growth.below_concat]
      by_cases above : c = c.spot b p
      · have same : p = none := by
          cases p with
          | none => rfl
          | some j => exact absurd above.symm (h.spot_ne_made j)
        subst same
        rw [if_pos above, h.given, Option.map_map, if_pos rfl]
        simp [Function.comp_def, NodeId.spot]
      · have other : p ≠ none := by
          rintro rfl
          exact above rfl
        rw [if_neg above, if_neg (h.spot_ne_made _).symm, h.given, if_neg other, List.append_nil]
    rest := fun n old other => by
      have apart : n ≠ ⟨b + g.length⟩ := by
        rintro rfl
        exact NodeId.not_made_lt b _ old
      have apart' : n ≠ c.spot b p := by
        rintro rfl
        cases p with
        | none => exact other rfl
        | some j => exact NodeId.not_made_lt b j old
      rw [node, if_neg apart', if_neg apart]
      exact h.rest n old other }

/-- A node that was made is changed. -/
theorem change (h : Grown c b g e d) (k : Nat) (f : NodeKind → NodeKind) :
    Grown c b (g.change k f) e (d.modifyNode (c.spot b (some k)) fun x => { x with kind := f x.kind })
    where
  low := h.low
  fresh := h.fresh
  rooted := h.rooted.change k f
  size := by rw [size_modifyNode, h.size, Growth.length_change]
  made i := by
    rw [node?_modifyNode, h.made, Growth.getElem?_change, Growth.below_change]
    by_cases same : k = i
    · subst same
      rw [NodeId.spot_some, if_pos rfl, if_pos rfl, Option.map_map, Option.map_map]
      rfl
    · have apart : (⟨b + i⟩ : NodeId) ≠ c.spot b (some k) := by
        simp only [NodeId.spot_some, ne_eq, NodeId.mk.injEq]
        omega
      rw [if_neg apart, if_neg same]
  given := by
    rw [NodeId.spot_some, node?_modifyNode_of_ne (h.spot_ne_made k).symm, h.given,
      Growth.below_change]
  rest n old other := by
    have apart : n ≠ c.spot b (some k) := by
      rintro rfl
      exact NodeId.not_made_lt b k old
    rw [node?_modifyNode_of_ne apart]
    exact h.rest n old other

/-! ## What stands there -/

theorem children_made (h : Grown c b g e d) (k : Nat) :
    d.children ⟨b + k⟩ = (g.below (some k)).map fun j => c.spot b (some j) := by
  unfold children
  rw [h.made]
  cases hk : g[k]? with
  | some made => rfl
  | none =>
    have none : g.below (some k) = [] := by
      refine List.eq_nil_iff_forall_not_mem.2 fun j hj => ?_
      obtain ⟨kind, hj⟩ := Growth.mem_below.1 hj
      have older := h.rooted j kind _ hj
      have inside := (List.getElem?_eq_some_iff.1 hj).1
      have past := List.getElem?_eq_none_iff.1 hk
      omega
    rw [none]
    rfl

theorem ordered (h : Grown c b g e d) (ordered : Ordered e) : Ordered d := by
  intro n m hm
  obtain old | ⟨k, rfl⟩ := old_or_made b n
  · obtain ⟨x, hx, hm⟩ := mem_children.1 hm
    by_cases same : n = c
    · subst same
      rw [h.given] at hx
      obtain ⟨y, hy, rfl⟩ := Option.map_eq_some_iff.1 hx
      obtain hm | hm := List.mem_append.1 hm
      · exact ordered n m (mem_children.2 ⟨y, hy, hm⟩)
      · obtain ⟨j, -, rfl⟩ := List.mem_map.1 hm
        exact Nat.lt_of_lt_of_le old (Nat.le_add_right _ _)
    · rw [h.rest n old same] at hx
      exact ordered n m (mem_children.2 ⟨x, hx, hm⟩)
  · rw [h.children_made] at hm
    obtain ⟨j, hj, rfl⟩ := List.mem_map.1 hm
    obtain ⟨kind, hj⟩ := Growth.mem_below.1 hj
    exact Nat.add_lt_add_left (h.rooted j kind k hj) b

theorem children_given (h : Grown c b g e d) (vacant : Vacant c e) :
    d.children c = (g.below none).map fun j => c.spot b (some j) := by
  obtain ⟨x, hx⟩ := contains_iff.1 vacant.there
  have bare := vacant.bare
  unfold children at bare ⊢
  rw [hx] at bare
  have bare : x.children = [] := bare
  rw [h.given, hx, Option.map_some, Option.map_some, bare]
  rfl

/-- To clear the given node takes back what has grown. -/
theorem clear (h : Grown c b g e d) (vacant : Vacant c e) : Agree (d.clear c) e := by
  have younger := h.ordered vacant.ordered
  have children := h.children_given vacant
  -- what is below is what was made
  have below (n : NodeId) : n ∈ (d.children c).flatMap d.subtree ↔ ∃ k < g.length, n = ⟨b + k⟩ := by
    constructor
    · intro hn
      obtain ⟨r, hr, hn⟩ := List.mem_flatMap.1 hn
      have grown : ∃ k, n = ⟨b + k⟩ := by
        refine descend_induction (P := fun n => ∃ k, n = ⟨b + k⟩) ?_ ?_ hn
        · rintro m ⟨k, rfl⟩ n hn
          rw [h.children_made] at hn
          obtain ⟨j, -, rfl⟩ := List.mem_map.1 hn
          exact ⟨j, rfl⟩
        · rw [children] at hr
          obtain ⟨j, -, rfl⟩ := List.mem_map.1 hr
          exact ⟨j, rfl⟩
      obtain ⟨k, rfl⟩ := grown
      obtain ⟨x, hx⟩ := contains_iff.1 (contains_of_mem_descend hn)
      rw [h.made] at hx
      obtain ⟨made, hk, -⟩ := Option.map_eq_some_iff.1 hx
      exact ⟨k, (List.getElem?_eq_some_iff.1 hk).1, rfl⟩
    · rintro ⟨k, hk, rfl⟩
      -- the path up to the given node leads over nodes that were made before
      induction k using Nat.strongRecOn with
      | ind k ih =>
        have stands : d.contains ⟨b + k⟩ = true := by
          rw [contains_iff, h.made, List.getElem?_eq_getElem hk]
          exact ⟨_, rfl⟩
        obtain ⟨⟨kind, parent⟩, made⟩ : ∃ made, g[k]? = some made :=
          ⟨_, List.getElem?_eq_getElem hk⟩
        have listed : k ∈ g.below parent := Growth.mem_below.2 ⟨kind, made⟩
        cases parent with
        | none =>
          refine List.mem_flatMap.2 ⟨⟨b + k⟩, ?_, mem_subtree_self stands⟩
          rw [children]
          exact List.mem_map_of_mem listed
        | some j =>
          have older := h.rooted k kind j made
          obtain ⟨r, hr, hj⟩ := List.mem_flatMap.1 (ih j older (Nat.lt_trans older hk))
          refine List.mem_flatMap.2 ⟨r, hr, mem_subtree_child younger hj ?_ stands⟩
          rw [h.children_made]
          exact List.mem_map_of_mem listed
  intro n
  rw [node?_clear]
  obtain old | ⟨k, rfl⟩ := old_or_made b n
  · have stays : n ∉ (d.children c).flatMap d.subtree := by
      rw [below]
      rintro ⟨k, -, rfl⟩
      exact NodeId.not_made_lt b k old
    rw [if_neg stays]
    by_cases same : n = c
    · subst same
      obtain ⟨x, hx⟩ := contains_iff.1 vacant.there
      have none : x.children = [] := by
        have bare := vacant.bare
        unfold Document.children at bare
        rwa [hx] at bare
      rw [if_pos rfl, h.given, hx, Option.map_map, Option.map_some]
      simp [← none]
    · rw [if_neg same]
      exact h.rest n old same
  · rw [h.fresh _ (Nat.le_add_right _ _)]
    split
    · rfl
    · rename_i stays
      have gone : d.node? ⟨b + k⟩ = none := by
        rw [h.made, List.getElem?_eq_none, Option.map_none]
        refine Nat.le_of_not_lt fun hk => stays ((below _).2 ⟨k, hk, rfl⟩)
      rw [gone, if_neg (h.spot_ne_made k)]

/-- What has grown reads the same in every document. -/
theorem tree?_eq (h : Grown c b g e d) (ordered : Ordered e) {c' : NodeId} {b' : Nat}
    {d' e' : Document} (h' : Grown c' b' g e' d') (ordered' : Ordered e') (k : Nat) :
    d.tree? ⟨b + k⟩ = d'.tree? ⟨b' + k⟩ := by
  -- children were made later
  induction hn : g.length - k using Nat.strongRecOn generalizing k with
  | ind n ih =>
    rw [Document.tree?_eq (h.ordered ordered), Document.tree?_eq (h'.ordered ordered'), h.made,
      h'.made, Option.map_map, Option.map_map]
    refine Option.map_congr fun made hk => ?_
    obtain ⟨kind, parent⟩ := made
    cases kind with
    | text content => rfl
    | element tag attributes listeners =>
      have below : ((g.below (some k)).map fun j => c.spot b (some j)).filterMap d.tree? =
          ((g.below (some k)).map fun j => c'.spot b' (some j)).filterMap d'.tree? := by
        rw [List.filterMap_map, List.filterMap_map]
        refine List.filterMap_congr fun j hj => ?_
        obtain ⟨kind, made⟩ := Growth.mem_below.1 hj
        have older := h.rooted j kind k made
        have inside := (List.getElem?_eq_some_iff.1 made).1
        exact ih (g.length - j) (by omega) j rfl
      show Tree.element tag attributes _ = Tree.element tag attributes _
      rw [below]

theorem childTrees_eq (h : Grown c b g e d) (vacant : Vacant c e) {c' : NodeId} {b' : Nat}
    {d' e' : Document} (h' : Grown c' b' g e' d') (vacant' : Vacant c' e') :
    d.childTrees c = d'.childTrees c' := by
  unfold childTrees
  rw [h.children_given vacant, h'.children_given vacant', List.filterMap_map, List.filterMap_map]
  exact List.filterMap_congr fun k _ => h.tree?_eq vacant.ordered h' vacant'.ordered k

end Grown

end Document

end TsxPreview
