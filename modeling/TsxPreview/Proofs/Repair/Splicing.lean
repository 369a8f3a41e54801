import Mathlib.Data.List.Pairwise
import TsxPreview.Proofs.Repair.Weight

/-!
A text after its edits, piece by piece. Edits that come one after another are all made, in whatever
order they are given: what is left of the text stands between what is put in. Nothing is lost but
the ranges of the edits, and of a range that is widened to whole lines the rest is white space.
-/

namespace TsxPreview

/-! ## Slices -/

namespace Boundary

variable {text : List Char} {a b : Nat}

theorem dropBytes_eq (h : Boundary text a) (le : a ≤ b) :
    dropBytes a text = sliceBytes a b text ++ dropBytes b text := by
  rw [← h.dropBytes_dropBytes le, sliceBytes, takeBytes_append_dropBytes]

theorem sliceBytes_append (h : Boundary text a) (k : Boundary text b) {c : Nat} (le : a ≤ b)
    (le' : b ≤ c) : sliceBytes a c text = sliceBytes a b text ++ sliceBytes b c text := by
  have whole := h.takeBytes_eq (Nat.le_trans le le')
  rw [k.takeBytes_eq le', h.takeBytes_eq le, List.append_assoc] at whole
  exact (List.append_cancel_left whole).symm

theorem sliceBytes_byteLength (h : Boundary text a) :
    sliceBytes a (byteLength text) text = dropBytes a text := by
  obtain ⟨pre, post, rfl, rfl⟩ := h
  have all := takeBytes_byteLength post []
  rw [List.append_nil] at all
  rw [sliceBytes, dropBytes_byteLength, byteLength_append, Nat.add_sub_cancel_left, all]

end Boundary

theorem sliceBytes_byteLength_append (pre middle post : List Char) :
    sliceBytes (byteLength pre) (byteLength (pre ++ middle)) (pre ++ middle ++ post) = middle := by
  rw [sliceBytes, byteLength_append, Nat.add_sub_cancel_left, List.append_assoc,
    dropBytes_byteLength, takeBytes_byteLength]

/-! ## What is not white space -/

/-- The characters of a text that are not white space. -/
def solids (cs : List Char) : List Char := cs.filter fun c => !isBlank c

@[simp] theorem solids_append (a b : List Char) : solids (a ++ b) = solids a ++ solids b :=
  List.filter_append ..

theorem solids_eq_nil {cs : List Char} (h : cs.all isBlank = true) : solids cs = [] := by
  rw [List.all_eq_true] at h
  exact List.filter_eq_nil_iff.mpr fun c hc => by simp [h c hc]

theorem solids_flatMap_congr {α : Type} {l : List α} {f g : α → List Char}
    (h : ∀ x ∈ l, solids (f x) = solids (g x)) : solids (l.flatMap f) = solids (l.flatMap g) := by
  induction l with
  | nil => rfl
  | cons x rest ih =>
    rw [List.flatMap_cons, List.flatMap_cons, solids_append, solids_append,
      h x List.mem_cons_self, ih fun y hy => h y (List.mem_cons_of_mem _ hy)]

namespace Edit

variable {text : List Char} {edits : List Edit}

/-- What stands on the line of a place, before it. -/
theorem slice_lineStart {lo : Nat} (h : Boundary text lo) :
    sliceBytes (lineStart text lo) lo text = (lineBefore text lo).reverse := by
  obtain ⟨pre, post, rfl, rfl⟩ := h
  obtain ⟨front, eq, start⟩ := append_lineBefore pre post
  generalize (lineBefore (pre ++ post) (byteLength pre)).reverse = line at eq ⊢
  rw [start, eq]
  exact sliceBytes_byteLength_append front line post

/-- What stands on the line of a place, behind it, and the end of the line. -/
theorem slice_lineEnd {hi : Nat} (h : Boundary text hi) :
    sliceBytes hi (lineEnd text hi) text = lineAfter text hi ∨
      sliceBytes hi (lineEnd text hi) text = lineAfter text hi ++ ['\n'] := by
  obtain ⟨pre, post, rfl, rfl⟩ := h
  rcases lineAfter_append pre post with ⟨eq, stop⟩ | ⟨more, eq, stop⟩
  · have slice := sliceBytes_byteLength_append pre (lineAfter (pre ++ post) (byteLength pre)) []
    rw [← stop, List.append_nil, ← eq] at slice
    exact Or.inl (slice.trans eq)
  · have slice := sliceBytes_byteLength_append pre
      (lineAfter (pre ++ post) (byteLength pre) ++ ['\n']) more
    rw [← List.append_assoc, ← stop, List.append_assoc, List.append_assoc, List.singleton_append,
      ← eq] at slice
    exact Or.inr slice

/-- Widening a removal to whole lines takes only white space along. -/
theorem solids_removeLines {lo hi : Nat} (hlo : Boundary text lo) (hhi : Boundary text hi)
    (le : lo ≤ hi) :
    solids (sliceBytes (removeLines text lo hi).lo (removeLines text lo hi).hi text)
      = solids (sliceBytes lo hi text) := by
  show solids (sliceBytes (wholeLines text lo hi).1 (wholeLines text lo hi).2 text) = _
  rw [wholeLines_eq]
  split
  · rename_i blank
    rw [Bool.and_eq_true] at blank
    have start : solids (sliceBytes (lineStart text lo) lo text) = [] := by
      rw [slice_lineStart hlo]
      exact solids_eq_nil (by rw [List.all_reverse]; exact blank.1)
    have stop : solids (sliceBytes hi (lineEnd text hi) text) = [] := by
      rcases slice_lineEnd hhi with eq | eq
      · rw [eq, solids_eq_nil blank.2]
      · rw [eq, solids_append, solids_eq_nil blank.2]
        rfl
    rw [(boundary_lineStart hlo).sliceBytes_append hlo (Nat.sub_le _ _)
        (Nat.le_trans le (le_lineEnd text hi)),
      hlo.sliceBytes_append hhi le (le_lineEnd text hi), solids_append, solids_append, start, stop,
      List.nil_append, List.append_nil]
  · rfl

/-! ## Edits that come one after another -/

/-- One edit is over where the other one starts, and does not stand at its end. -/
def Precedes (a b : Edit) : Prop := a.hi ≤ b.lo ∧ a.lo < b.hi

theorem le_of_precedes {a b : Edit} (h : Precedes a b) (ha : a.lo ≤ a.hi) (hb : b.lo ≤ b.hi) :
    le a b = true := by
  unfold Precedes at h
  simp only [Edit.le, Bool.or_eq_true, Bool.and_eq_true, decide_eq_true_eq, beq_iff_eq]
  omega

theorem not_le_of_precedes {a b : Edit} (h : Precedes a b) (ha : a.lo ≤ a.hi) :
    ¬ le b a = true := by
  unfold Precedes at h
  simp only [Edit.le, Bool.or_eq_true, Bool.and_eq_true, decide_eq_true_eq, beq_iff_eq]
  omega

/-- There is one order in which edits come one after another. -/
theorem mergeSort_eq {sorted : List Edit} (fits : ∀ e ∈ sorted, e.lo ≤ e.hi)
    (perm : sorted.Perm edits) (order : sorted.Pairwise Precedes) :
    edits.mergeSort le = sorted := by
  have ordered : sorted.Pairwise fun a b => le a b = true :=
    order.imp_of_mem fun ha hb h => le_of_precedes h (fits _ ha) (fits _ hb)
  have same : (edits.mergeSort le).Perm sorted := (List.mergeSort_perm edits le).trans perm.symm
  have symm : Std.Symm fun a b : Edit => le a b = true → le b a = true → a = b :=
    ⟨fun _ _ h ab ba => (h ba ab).symm⟩
  have apart : sorted.Pairwise fun a b => le a b = true → le b a = true → a = b :=
    order.imp_of_mem fun ha _ h _ back => absurd back (not_le_of_precedes h (fits _ ha))
  have unique := apart.forall_of_forall fun _ _ _ _ => rfl
  exact List.Perm.eq_of_pairwise (fun a b ha hb => unique (same.subset ha) hb)
    (List.pairwise_mergeSort le_trans' le_total' edits) ordered same

/-- A text from one place up to another, with the ranges of edits replaced. -/
def splice (text : List Char) (stop : Nat) : (cursor : Nat) → List Edit → List Char
  | cursor, [] => sliceBytes cursor stop text
  | cursor, e :: rest => sliceBytes cursor e.lo text ++ e.text ++ splice text stop e.hi rest

/-- What comes before an edit is as it is, whatever comes behind it. -/
theorem splice_append (text : List Char) (stop cursor : Nat) (before : List Edit) (e : Edit)
    (after : List Edit) :
    splice text stop cursor (before ++ e :: after)
      = splice text e.lo cursor before ++ e.text ++ splice text stop e.hi after := by
  induction before generalizing cursor with
  | nil => rfl
  | cons b rest ih => simp only [List.cons_append, splice, ih, List.append_assoc]

/-- Edits that come one after another, from a place on. -/
structure Chain (text : List Char) (cursor : Nat) (edits : List Edit) : Prop where
  start : Boundary text cursor
  fits : ∀ e ∈ edits, e.Fits text
  behind : ∀ e ∈ edits, cursor ≤ e.lo
  order : edits.Pairwise Precedes

theorem Chain.tail {cursor : Nat} {e : Edit} (h : Chain text cursor (e :: edits)) :
    Chain text e.hi edits :=
  ⟨(h.fits e List.mem_cons_self).hi, fun x hx => h.fits x (List.mem_cons_of_mem _ hx),
    fun x hx => ((List.pairwise_cons.mp h.order).1 x hx).1, (List.pairwise_cons.mp h.order).2⟩

theorem Chain.applyFrom {cursor : Nat} (h : Chain text cursor edits) :
    applyFrom cursor (dropBytes cursor text) edits
      = splice text (byteLength text) cursor edits := by
  induction edits generalizing cursor with
  | nil => exact h.start.sliceBytes_byteLength.symm
  | cons e rest ih =>
    rw [applyFrom_cons rest h.start (h.fits e List.mem_cons_self) (h.behind e List.mem_cons_self),
      ih h.tail]
    rfl

/-- What edits take from a text and what they put in make up the difference. -/
theorem Chain.splice_perm {cursor : Nat} (h : Chain text cursor edits) :
    (splice text (byteLength text) cursor edits
        ++ edits.flatMap fun e => sliceBytes e.lo e.hi text).Perm
      (dropBytes cursor text ++ edits.flatMap Edit.text) := by
  induction edits generalizing cursor with
  | nil =>
    rw [splice, h.start.sliceBytes_byteLength]
    exact .refl _
  | cons e rest ih =>
    have fits := h.fits e List.mem_cons_self
    have pieces : dropBytes cursor text
        = sliceBytes cursor e.lo text ++ (sliceBytes e.lo e.hi text ++ dropBytes e.hi text) := by
      rw [h.start.dropBytes_eq (h.behind e List.mem_cons_self), fits.lo.dropBytes_eq fits.le]
    rw [pieces, splice, List.flatMap_cons, List.flatMap_cons, List.perm_iff_count]
    intro c
    have later := List.perm_iff_count.mp (ih h.tail) c
    simp only [List.count_append] at later ⊢
    omega

/-- Edits that come one after another are all made, whatever the order they are given in. -/
theorem applyAll_eq_splice {sorted : List Edit} (perm : sorted.Perm edits)
    (chain : Chain text 0 sorted) :
    applyAll text edits = splice text (byteLength text) 0 sorted := by
  have whole := chain.applyFrom
  rw [dropBytes_zero] at whole
  rw [applyAll, mergeSort_eq (fun e he => (chain.fits e he).le) perm chain.order, whole]

/-- Edits that put in what they take, up to white space, rearrange a text. -/
theorem solids_applyAll {sorted : List Edit} (perm : sorted.Perm edits)
    (chain : Chain text 0 sorted)
    (moves : (solids (edits.flatMap Edit.text)).Perm
      (solids (edits.flatMap fun e => sliceBytes e.lo e.hi text))) :
    (solids (applyAll text edits)).Perm (solids text) := by
  have pieces := chain.splice_perm
  rw [← applyAll_eq_splice perm chain, dropBytes_zero] at pieces
  have pieces := pieces.filter fun c => !isBlank c
  rw [List.filter_append, List.filter_append] at pieces
  have taken := (perm.flatMap_right fun e => sliceBytes e.lo e.hi text).filter fun c => !isBlank c
  have given := (perm.flatMap_right Edit.text).filter fun c => !isBlank c
  have same := given.trans (moves.trans taken.symm)
  exact (List.perm_append_right_iff _).mp (pieces.trans (same.append_left _))

end Edit

end TsxPreview
