import TsxPreview.Preview.Page
import TsxPreview.Proofs.Sorted
import TsxPreview.Proofs.View.Growth

/-!
A page and its container. The page is free, or its container is lent: then the container carries the
marks, and a style node stands behind it. In both cases previews grow below the container only, so to
lend it and to take it back leads from one to the other, whatever has grown there.
-/

namespace TsxPreview

open Document

namespace Document

variable {d e : Document} {l : List (NodeId × Node)} {n id parent : NodeId}

/-! ## Documents that are listed -/

/-- The nodes of a document, all of them. -/
def Lists (e : Document) (l : List (NodeId × Node)) : Prop := ∀ n, e.node? n = l.lookup n

theorem Lists.agree (h : e.Lists l) (h' : d.Lists l) : Agree e d := fun n =>
  (h n).trans (h' n).symm

theorem Lists.congr (h : e.Lists l) (agree : Agree d e) : d.Lists l := fun n =>
  (agree n).trans (h n)

theorem Lists.of_eq {l' : List (NodeId × Node)} (h : e.Lists l) (eq : l = l') : e.Lists l' := eq ▸ h

theorem Lists.ordered (h : e.Lists l) (younger : ∀ p ∈ l, ∀ c ∈ p.2.children, p.1.index < c.index) :
    Ordered e := by
  intro n c hc
  obtain ⟨x, hx, hc⟩ := mem_children.1 hc
  rw [h n] at hx
  exact younger (n, x) (mem_of_lookup hx) c hc

theorem lookup_map_values (f : NodeId → Node → Node) (l : List (NodeId × Node)) (n : NodeId) :
    (l.map fun p => (p.1, f p.1 p.2)).lookup n = (l.lookup n).map (f n) := by
  induction l with
  | nil => rfl
  | cons p rest ih =>
    rw [List.map_cons, List.lookup_cons, List.lookup_cons, ih]
    by_cases same : n = p.1
    · subst same
      simp
    · rw [beq_eq_false_iff_ne.2 same]

theorem Lists.modifyNode (h : e.Lists l) (id : NodeId) (f : Node → Node) :
    (e.modifyNode id f).Lists (l.map fun p => (p.1, if p.1 = id then f p.2 else p.2)) := by
  intro n
  rw [node?_modifyNode, lookup_map_values fun i x => if i = id then f x else x, h n]
  by_cases same : n = id
  · simp [same]
  · simp [same]

/-- Changes the attributes of a node. -/
def withAttributes (f : List (String × String) → List (String × String)) (x : Node) : Node :=
  match x.kind with
  | .element tag attributes listeners => { x with kind := .element tag (f attributes) listeners }
  | .text _ => x

theorem Lists.modifyAttributes (h : e.Lists l) (id : NodeId)
    (f : List (String × String) → List (String × String)) :
    (e.modifyAttributes id f).Lists
      (l.map fun p => (p.1, if p.1 = id then withAttributes f p.2 else p.2)) :=
  h.modifyNode id (withAttributes f)

theorem Lists.add (h : e.Lists l) (kind : NodeKind) :
    (e.add kind).2.Lists (l ++ [(⟨e.nodes.size⟩, { kind := kind })]) := by
  intro n
  rw [node?_add, List.lookup_append, ← h n]
  by_cases new : n = ⟨e.nodes.size⟩
  · rw [if_pos new, node?_eq_none (Nat.le_of_eq (congrArg NodeId.index new).symm), new]
    simp
  · rw [if_neg new, List.lookup_cons, beq_eq_false_iff_ne.2 new]
    simp

/-- A node that has no parent is put below another. -/
theorem Lists.append (h : e.Lists l) (root : (l.lookup id).bind Node.parent = none)
    (apart : parent ≠ id) :
    (e.append parent id).Lists (l.map fun p =>
      (p.1, if p.1 = parent then { p.2 with children := p.2.children ++ [id] }
        else if p.1 = id then { p.2 with parent := some parent } else p.2)) := by
  intro n
  have alone : e.parent? id = none := by
    unfold parent?
    rw [h, root]
  rw [node?_append alone apart, lookup_map_values fun i x =>
    if i = parent then { x with children := x.children ++ [id] }
    else if i = id then { x with parent := some parent } else x, h]
  by_cases above : n = parent
  · simp [above]
  · by_cases same : n = id
    · subst same
      simp [above]
    · simp [above, same]

end Document

namespace Page

/-! ## Free and lent pages -/

/-- The container of a page. -/
def room : NodeId := ⟨1⟩

/-- The attributes of the container while it is lent. -/
def marks : List (String × String) :=
  [(inertAttribute, ""), ("id", "canvas-root"), ("style", "pointer-events: none")]

/-- An empty container and nothing else. -/
def freeNodes : List (NodeId × Node) :=
  [(body, { kind := .element "body" [] [], children := [room] }),
    (room, { kind := .element "div" [("id", "canvas-root")] [], parent := some body })]

/-- An empty container with marks and nothing else. -/
def markedNodes : List (NodeId × Node) :=
  [(body, { kind := .element "body" [] [], children := [room] }),
    (room, { kind := .element "div" marks [], parent := some body })]

/-- An empty container with marks, a style node and nothing else. -/
def lentNodes (style css : NodeId) : List (NodeId × Node) :=
  [(body, { kind := .element "body" [] [], children := [room, style] }),
    (room, { kind := .element "div" marks [], parent := some body }),
    (style, { kind := .element "style" [(styleAttribute, "")] [], parent := some body
              children := [css] }),
    (css, { kind := .text inertCss, parent := some style })]

/-- A document whose container is lent, with a style node. -/
structure Lent (style : NodeId) (e : Document) : Prop where
  lists : ∃ css, style.index < css.index ∧ e.Lists (lentNodes style css)
  younger : room.index < style.index

abbrev Free (e : Document) : Prop := e.Lists freeNodes

variable {d e e' : Document} {style css : NodeId}

theorem new_container : new.container = room := by
  unfold new
  generalize Globals.make {} = globals
  rfl

theorem new_leases : new.leases = 0 := by
  unfold new
  generalize Globals.make {} = globals
  rfl

theorem free_new : Free new.document := by
  have document : new.document = (Document.ofContainer "canvas-root").2 := by
    unfold new
    generalize Globals.make {} = globals
    rfl
  rw [document]
  intro n
  obtain ⟨i⟩ := n
  match i with
  | 0 => rfl
  | 1 => rfl
  | i + 2 => rfl

theorem Free.vacant (h : Free e) : Vacant room e where
  ordered := h.ordered (by decide)
  there := contains_iff.2 ⟨_, h room⟩
  bare := by
    unfold children
    rw [h room]
    rfl

theorem Lent.congr (h : Lent style e) (agree : Agree e' e) : Lent style e' := by
  obtain ⟨css, inside, lists⟩ := h.lists
  exact ⟨⟨css, inside, lists.congr agree⟩, h.younger⟩

theorem Lent.vacant (h : Lent style e) : Vacant room e := by
  obtain ⟨css, inside, lists⟩ := h.lists
  exact {
    ordered := lists.ordered (by
      have younger := h.younger
      simp only [lentNodes, room, body] at younger ⊢
      simp
      omega)
    there := contains_iff.2 ⟨_, lists room⟩
    bare := by
      unfold children
      rw [lists room]
      rfl }

theorem body_ne_room : body ≠ room := by decide

namespace Lent

variable (h : Lent style e)

include h

theorem ne_body : style ≠ body := by
  rintro rfl
  exact absurd h.younger (by decide)

theorem ne_room : style ≠ room := by
  rintro rfl
  exact Nat.lt_irrefl _ h.younger

theorem ne_of_inside {css : NodeId} (inside : style.index < css.index) :
    css ≠ body ∧ css ≠ room ∧ css ≠ style := by
  have younger := h.younger
  refine ⟨?_, ?_, ?_⟩ <;> rintro rfl
  · exact absurd (Nat.lt_trans younger inside) (by decide)
  · exact Nat.lt_asymm younger inside
  · exact Nat.lt_irrefl _ inside

/-- The nodes of a lent page. -/
theorem nodes : ∃ css, style.index < css.index ∧
    e.node? body = some { kind := .element "body" [] [], children := [room, style] } ∧
    e.node? room = some { kind := .element "div" marks [], parent := some body } ∧
    e.node? style = some { kind := .element "style" [(styleAttribute, "")] [], parent := some body
                           children := [css] } ∧
    e.node? css = some { kind := .text inertCss, parent := some style } := by
  obtain ⟨css, inside, lists⟩ := h.lists
  have apart := h.ne_of_inside inside
  refine ⟨css, inside, lists body, lists room, ?_, ?_⟩
  · rw [lists style]
    simp [lentNodes, List.lookup_cons, beq_eq_false_iff_ne.2 h.ne_body,
      beq_eq_false_iff_ne.2 h.ne_room]
  · rw [lists css]
    simp [lentNodes, List.lookup_cons, beq_eq_false_iff_ne.2 apart.1,
      beq_eq_false_iff_ne.2 apart.2.1, beq_eq_false_iff_ne.2 apart.2.2]

end Lent

/-! ## To lend -/

variable {b : Nat} {g : Growth}

/-- The container is marked. -/
def marked (d : Document) : Document :=
  (d.setAttribute room inertAttribute "").setAttribute room "style" "pointer-events: none"

theorem Free.marked (h : Free d) : (marked d).Lists markedNodes := by
  refine ((h.modifyAttributes room (insertSorted inertAttribute "")).modifyAttributes room
    (insertSorted "style" "pointer-events: none")).of_eq ?_
  rfl

theorem Lent.marked (h : Lent style d) : Lent style (marked d) := by
  obtain ⟨css, inside, lists⟩ := h.lists
  refine ⟨⟨css, inside, ((lists.modifyAttributes room (insertSorted inertAttribute "")
    ).modifyAttributes room (insertSorted "style" "pointer-events: none")).of_eq ?_⟩, h.younger⟩
  have apart := (h.ne_of_inside inside).2.1
  have kept : withAttributes (insertSorted "style" "pointer-events: none")
      (withAttributes (insertSorted inertAttribute "")
        { kind := .element "div" marks [], parent := some body }) =
      { kind := .element "div" marks [], parent := some body } := rfl
  simp [lentNodes, h.ne_room, apart, body_ne_room, kept]

theorem selectAll_marked (h : d.Lists markedNodes) : d.selectAll body styleSelector = [] := by
  have atBody : d.node? body = some { kind := .element "body" [] [], children := [room] } := h body
  have atRoom : d.node? room = some { kind := .element "div" marks [], parent := some body } :=
    h room
  have size : 2 ≤ d.nodes.size := lt_size_of_node? atRoom
  obtain ⟨depth, size⟩ : ∃ k, d.nodes.size = k + 2 := ⟨d.nodes.size - 2, by omega⟩
  have under : d.elementsUnder body = [room] := by
    unfold elementsUnder
    rw [size]
    simp [elementsTo, children, tag?, atBody, atRoom]
  unfold Document.selectAll
  rw [under]
  simp [Selector.isMatch, styleSelector, Compound.isMatch, tag?, atRoom]

theorem Lent.selectAll (h : Lent style d) : d.selectAll body styleSelector = [style] := by
  obtain ⟨css, inside, atBody, atRoom, atStyle, atCss⟩ := h.nodes
  have size := lt_size_of_node? atCss
  have younger : 1 < style.index := h.younger
  obtain ⟨depth, size⟩ : ∃ k, d.nodes.size = k + 2 := ⟨d.nodes.size - 2, by omega⟩
  have under : d.elementsUnder body = [room, style] := by
    unfold elementsUnder
    rw [size]
    cases depth <;> simp [elementsTo, children, tag?, atBody, atRoom, atStyle, atCss]
  unfold Document.selectAll
  rw [under]
  simp [Selector.isMatch, styleSelector, Compound.isMatch, tag?, hasAttribute, attribute?,
    attributes, atRoom, atStyle]

theorem Lent.withStyle (h : Lent style d) : withStyle d = (style, d) := by
  unfold Page.withStyle
  rw [h.selectAll]
  rfl

/-- The document with a style node and its text, which stand nowhere yet. -/
def styled (d : Document) : Document :=
  (((d.add (.element "style" [] [])).2.modifyAttributes ⟨d.nodes.size⟩
    (insertSorted styleAttribute "")).add (.text inertCss)).2

theorem withStyle_eq (none : d.selectAll body styleSelector = []) : withStyle d =
    (⟨d.nodes.size⟩, ((styled d).append ⟨d.nodes.size⟩ ⟨d.nodes.size + 1⟩).append body
      ⟨d.nodes.size⟩) := by
  have size : ((d.add (.element "style" [] [])).2.modifyAttributes ⟨d.nodes.size⟩
      (insertSorted styleAttribute "")).nodes.size = d.nodes.size + 1 := by
    simp [modifyAttributes]
  unfold withStyle
  rw [none, ← size]
  rfl

/-- What is listed while the style node stands nowhere, with given children. -/
def looseNodes (style css : NodeId) (children : List NodeId) (parent : Option NodeId) :
    List (NodeId × Node) :=
  markedNodes ++ [(style, { kind := .element "style" [(styleAttribute, "")] [], children }),
    (css, { kind := .text inertCss, parent })]

theorem styled_marked (h : d.Lists markedNodes) :
    (styled d).Lists (looseNodes ⟨d.nodes.size⟩ ⟨d.nodes.size + 1⟩ [] none) := by
  have younger : 1 < d.nodes.size := lt_size_of_node? (h room)
  have size : ((d.add (.element "style" [] [])).2.modifyAttributes ⟨d.nodes.size⟩
      (insertSorted styleAttribute "")).nodes.size = d.nodes.size + 1 := by
    simp [modifyAttributes]
  have made := ((h.add (.element "style" [] [])).modifyAttributes ⟨d.nodes.size⟩
    (insertSorted styleAttribute "")).add (.text inertCss)
  rw [size] at made
  refine made.of_eq ?_
  have apart : body ≠ ⟨d.nodes.size⟩ ∧ room ≠ ⟨d.nodes.size⟩ := by
    simp only [body, room, ne_eq, NodeId.mk.injEq]
    omega
  simp [looseNodes, markedNodes, apart.1, apart.2, withAttributes, insertSorted]

theorem withStyle_marked (h : d.Lists markedNodes) : Lent (withStyle d).1 (withStyle d).2 := by
  have younger : 1 < d.nodes.size := lt_size_of_node? (h room)
  have lists := styled_marked h
  rw [withStyle_eq (selectAll_marked h)]
  have apart : (⟨d.nodes.size⟩ : NodeId) ≠ body ∧ (⟨d.nodes.size⟩ : NodeId) ≠ room ∧
      (⟨d.nodes.size + 1⟩ : NodeId) ≠ body ∧ (⟨d.nodes.size + 1⟩ : NodeId) ≠ room ∧
      (⟨d.nodes.size + 1⟩ : NodeId) ≠ ⟨d.nodes.size⟩ := by
    simp only [body, room, ne_eq, NodeId.mk.injEq]
    omega
  have inside : (⟨d.nodes.size⟩ : NodeId).index < (⟨d.nodes.size + 1⟩ : NodeId).index :=
    Nat.lt_succ_self _
  generalize styled d = d' at lists
  have younger : room.index < (⟨d.nodes.size⟩ : NodeId).index := younger
  generalize (⟨d.nodes.size⟩ : NodeId) = style at *
  generalize (⟨d.nodes.size + 1⟩ : NodeId) = css at *
  obtain ⟨one, two, three, four, five⟩ := apart
  have below : (d'.append style css).Lists (looseNodes style css [css] (some style)) := by
    refine (lists.append ?_ five.symm).of_eq ?_
    · simp [looseNodes, markedNodes, List.lookup_cons, beq_eq_false_iff_ne.2 three,
        beq_eq_false_iff_ne.2 four, beq_eq_false_iff_ne.2 five]
    · simp [looseNodes, markedNodes, one.symm, two.symm, three.symm, four.symm, five]
  have whole : ((d'.append style css).append body style).Lists (lentNodes style css) := by
    refine (below.append ?_ one.symm).of_eq ?_
    · simp [looseNodes, markedNodes, List.lookup_cons, beq_eq_false_iff_ne.2 one,
        beq_eq_false_iff_ne.2 two]
    · simp [looseNodes, markedNodes, lentNodes, one, two.symm, three, five, body_ne_room.symm]
  exact ⟨⟨css, inside, whole⟩, younger⟩

/-! ## To take back -/

/-- The style node is taken out, and the container loses its marks. -/
theorem Lent.restored (h : Lent style d) :
    Free (((d.removeAttribute room inertAttribute).removeAttribute room "style").remove style) := by
  obtain ⟨css, inside, lists⟩ := h.lists
  obtain ⟨three, four, five⟩ := h.ne_of_inside inside
  have one := h.ne_body
  have two := h.ne_room
  have bare := (lists.modifyAttributes room (List.filter (·.1 != inertAttribute))).modifyAttributes
    room (List.filter (·.1 != "style"))
  unfold removeAttribute
  generalize (d.modifyAttributes room _).modifyAttributes room _ = d' at bare ⊢
  have parent : d'.parent? style = some body := by
    unfold parent?
    rw [bare]
    simp [lentNodes, List.lookup_cons, beq_eq_false_iff_ne.2 one, beq_eq_false_iff_ne.2 two, two]
  have unlinked : (d'.unlink style).Lists (freeNodes ++
      [(style, { kind := .element "style" [(styleAttribute, "")] [], parent := some body
                 children := [css] }),
        (css, { kind := .text inertCss, parent := some style })]) := by
    unfold unlink
    rw [parent]
    refine (bare.modifyNode body fun n =>
      { n with children := n.children.filter (· != style) }).of_eq ?_
    have unmarked : withAttributes (List.filter (·.1 != "style"))
        (withAttributes (List.filter (·.1 != inertAttribute))
          { kind := .element "div" marks [], parent := some body }) =
        { kind := .element "div" [("id", "canvas-root")] [], parent := some body } := rfl
    simp [lentNodes, freeNodes, one, two, two.symm, three, four, body_ne_room, body_ne_room.symm,
      unmarked]
  unfold remove
  dsimp only
  generalize d'.unlink style = d'' at unlinked
  have atStyle : d''.node? style = some { kind := .element "style" [(styleAttribute, "")] []
                                          parent := some body, children := [css] } := by
    rw [unlinked]
    simp [freeNodes, List.lookup_cons, beq_eq_false_iff_ne.2 one, beq_eq_false_iff_ne.2 two]
  have atCss : d''.node? css = some { kind := .text inertCss, parent := some style } := by
    rw [unlinked]
    simp [freeNodes, List.lookup_cons, beq_eq_false_iff_ne.2 three, beq_eq_false_iff_ne.2 four,
      beq_eq_false_iff_ne.2 five]
  have size := lt_size_of_node? atCss
  obtain ⟨depth, size⟩ : ∃ k, d''.nodes.size = k + 2 := ⟨d''.nodes.size - 2, by omega⟩
  have below : d''.subtree style = [style, css] := by
    unfold subtree
    rw [size]
    cases depth <;> simp [descend, contains, children, atStyle, atCss]
  intro n
  rw [node?_forget, below, unlinked, List.lookup_append]
  by_cases gone : n ∈ [style, css]
  · rw [if_pos gone]
    simp only [List.mem_cons, List.not_mem_nil, or_false] at gone
    obtain rfl | rfl := gone
    · simp [freeNodes, List.lookup_cons, beq_eq_false_iff_ne.2 one, beq_eq_false_iff_ne.2 two]
    · simp [freeNodes, List.lookup_cons, beq_eq_false_iff_ne.2 three, beq_eq_false_iff_ne.2 four]
  · rw [if_neg gone]
    simp only [List.mem_cons, List.not_mem_nil, or_false, not_or] at gone
    simp [List.lookup_cons, beq_eq_false_iff_ne.2 gone.1, beq_eq_false_iff_ne.2 gone.2]

end Page

end TsxPreview
