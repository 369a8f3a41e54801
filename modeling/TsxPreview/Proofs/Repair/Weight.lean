import TsxPreview.Proofs.Repair.Places

/-!
The weight of a text. White space weighs nothing, so that a repair which removes code makes the text
lighter whatever it does to the lines around it. An opening brace weighs more than other characters:
the text `export default X;` takes the place of `export { X as default }` and is to weigh less.
-/

namespace TsxPreview

/-! ## Weights -/

def charWeight (c : Char) : Nat := if isBlank c then 0 else if c = '\x7b' then 10 else 1

def weight : List Char → Nat
  | [] => 0
  | c :: rest => charWeight c + weight rest

@[simp] theorem weight_nil : weight [] = 0 := rfl

@[simp] theorem weight_cons (c : Char) (cs : List Char) :
    weight (c :: cs) = charWeight c + weight cs := rfl

@[simp] theorem weight_append (a b : List Char) : weight (a ++ b) = weight a + weight b := by
  induction a with
  | nil => rw [List.nil_append, weight_nil, Nat.zero_add]
  | cons c rest ih => rw [List.cons_append, weight_cons, weight_cons, ih, Nat.add_assoc]

theorem charWeight_pos {c : Char} (h : isBlank c = false) : 0 < charWeight c := by
  unfold charWeight
  rw [h]
  simp only [Bool.false_eq_true, ↓reduceIte]
  split <;> decide

theorem weight_pos {cs : List Char} {c : Char} (mem : c ∈ cs) (h : isBlank c = false) :
    0 < weight cs := by
  obtain ⟨before, after, rfl⟩ := List.append_of_mem mem
  have := charWeight_pos h
  rw [weight_append, weight_cons]
  omega

theorem weight_perm {a b : List Char} (h : a.Perm b) : weight a = weight b := by
  induction h with
  | nil => rfl
  | cons c _ ih => rw [weight_cons, weight_cons, ih]
  | swap c d rest =>
    simp only [weight_cons]
    omega
  | trans _ _ ih₁ ih₂ => exact ih₁.trans ih₂

theorem weight_flatMap_le {α : Type} {l : List α} {f g : α → List Char}
    (h : ∀ x ∈ l, weight (f x) ≤ weight (g x)) : weight (l.flatMap f) ≤ weight (l.flatMap g) := by
  induction l with
  | nil => exact Nat.zero_le _
  | cons x rest ih =>
    have first := h x List.mem_cons_self
    have more := ih fun y hy => h y (List.mem_cons_of_mem _ hy)
    rw [List.flatMap_cons, List.flatMap_cons, weight_append, weight_append]
    omega

/-! ## Weights up to a place -/

/-- The weight of what stands before a byte offset. -/
def weightTo (text : List Char) (n : Nat) : Nat := weight (takeBytes n text)

theorem weightTo_add (text : List Char) (n : Nat) :
    weightTo text n + weight (dropBytes n text) = weight text := by
  rw [weightTo, ← weight_append, takeBytes_append_dropBytes]

theorem weightTo_mono (text : List Char) {m n : Nat} (h : m ≤ n) :
    weightTo text m ≤ weightTo text n := by
  unfold weightTo
  induction text generalizing m n with
  | nil => exact Nat.le_refl _
  | cons c rest ih =>
    by_cases hm : m = 0
    · rw [takeBytes, if_pos hm]
      exact Nat.zero_le _
    · rw [takeBytes, takeBytes, if_neg hm, if_neg (by omega), weight_cons, weight_cons]
      have := ih (m := m - c.utf8Size) (n := n - c.utf8Size) (by omega)
      omega

theorem weightTo_append (pre post : List Char) :
    weightTo (pre ++ post) (byteLength pre) = weight pre := by
  rw [weightTo, takeBytes_byteLength]

theorem Boundary.weightTo_add_slice {text : List Char} {a b : Nat} (h : Boundary text a)
    (le : a ≤ b) : weightTo text a + weight (sliceBytes a b text) = weightTo text b := by
  rw [weightTo, weightTo, h.takeBytes_eq le, weight_append, sliceBytes]

/-! ## Edits -/

namespace Edit

variable {text : List Char}

/-- An edit that starts at the cursor or later is made. -/
theorem applyFrom_cons {cursor : Nat} {e : Edit} (edits : List Edit) (hc : Boundary text cursor)
    (fits : e.Fits text) (le : cursor ≤ e.lo) :
    applyFrom cursor (dropBytes cursor text) (e :: edits)
      = takeBytes (e.lo - cursor) (dropBytes cursor text) ++ e.text
        ++ applyFrom e.hi (dropBytes e.hi text) edits := by
  have hi := fits.hi.le
  have total := hc.add_byteLength_dropBytes
  rw [applyFrom, if_neg (by omega), hc.dropBytes_dropBytes (Nat.le_trans le fits.le)]

theorem weight_applyFrom_cons {cursor : Nat} {e : Edit} (edits : List Edit)
    (hc : Boundary text cursor) (fits : e.Fits text) (le : cursor ≤ e.lo) :
    weightTo text cursor + weight (applyFrom cursor (dropBytes cursor text) (e :: edits))
      = weightTo text e.lo + weight e.text
        + weight (applyFrom e.hi (dropBytes e.hi text) edits) := by
  have := hc.weightTo_add_slice le
  rw [sliceBytes] at this
  rw [applyFrom_cons edits hc fits le, weight_append, weight_append]
  omega

theorem applyFrom_dropped {cursor : Nat} {e : Edit} (edits : List Edit) {rest : List Char}
    (lt : e.lo < cursor) : applyFrom cursor rest (e :: edits) = applyFrom cursor rest edits := by
  rw [applyFrom, if_pos (Or.inl lt)]

/-- Edits that add no weight where they stand add none to the text. -/
theorem weight_applyFrom_le {edits : List Edit} (fits : ∀ e ∈ edits, e.Fits text)
    (light : ∀ e ∈ edits, weightTo text e.lo + weight e.text ≤ weightTo text e.hi) {cursor : Nat}
    (hc : Boundary text cursor) :
    weightTo text cursor + weight (applyFrom cursor (dropBytes cursor text) edits)
      ≤ weight text := by
  induction edits generalizing cursor with
  | nil => exact Nat.le_of_eq (weightTo_add text cursor)
  | cons e edits ih =>
    have rest := fun {c} => @ih (fun x hx => fits x (List.mem_cons_of_mem _ hx))
      (fun x hx => light x (List.mem_cons_of_mem _ hx)) c
    by_cases lt : e.lo < cursor
    · rw [applyFrom_dropped edits lt]
      exact rest hc
    · have first := fits e List.mem_cons_self
      have less := light e List.mem_cons_self
      have more := rest first.hi
      rw [weight_applyFrom_cons edits hc first (by omega)]
      omega

theorem mem_sorted {edits : List Edit} {e : Edit} (h : e ∈ edits.mergeSort Edit.le) :
    e ∈ edits :=
  (List.mergeSort_perm edits Edit.le).mem_iff.mp h

/-- An edit that puts something lighter in the place of its range. -/
structure Lightens (text : List Char) (e : Edit) : Prop extends Fits text e where
  light : weightTo text e.lo + weight e.text < weightTo text e.hi

/-- Edits each of which removes weight make the text lighter. -/
theorem weight_applyAll_lt {edits : List Edit} (some : edits ≠ [])
    (lightens : ∀ e ∈ edits, e.Lightens text) : weight (applyAll text edits) < weight text := by
  have zero : weightTo text 0 = 0 := by rw [weightTo, takeBytes_zero, weight_nil]
  have each := fun e he => lightens e (mem_sorted he)
  have start := dropBytes_zero text
  unfold applyAll
  -- the first edit is made whatever becomes of the others
  cases sorted : edits.mergeSort Edit.le with
  | nil =>
    have := (List.mergeSort_perm edits Edit.le).length_eq
    rw [sorted] at this
    exact absurd (List.eq_nil_of_length_eq_zero this.symm) some
  | cons e rest =>
    rw [sorted] at each
    have first := each e List.mem_cons_self
    have light := first.light
    have cons := weight_applyFrom_cons rest (.zero text) first.toFits (Nat.zero_le _)
    have more := weight_applyFrom_le (fun x hx => (each x (List.mem_cons_of_mem _ hx)).toFits)
      (fun x hx => Nat.le_of_lt (each x (List.mem_cons_of_mem _ hx)).light) first.hi
    rw [start] at cons
    omega

/-! ## Edits that move text -/

/-- Ranges that do not overlap are all removed, so what is put in their place bounds the weight that
is gained. Insertions may stand anywhere. -/
theorem weight_applyFrom_moves {edits : List Edit} (fits : ∀ e ∈ edits, e.Fits text)
    (apart : edits.Pairwise fun a b => a.hi ≤ b.lo ∨ b.lo = b.hi) {cursor : Nat}
    (hc : Boundary text cursor) (after : ∀ e ∈ edits, cursor ≤ e.lo ∨ e.lo = e.hi) :
    weightTo text cursor + weight (applyFrom cursor (dropBytes cursor text) edits)
        + weight (edits.flatMap fun e => sliceBytes e.lo e.hi text)
      ≤ weight text + weight (edits.flatMap Edit.text) := by
  induction edits generalizing cursor with
  | nil => exact Nat.le_of_eq (weightTo_add text cursor)
  | cons e edits ih =>
    have first := fits e List.mem_cons_self
    have slice := first.lo.weightTo_add_slice first.le
    have rest := fun {c} => @ih (fun x hx => fits x (List.mem_cons_of_mem _ hx))
      (List.pairwise_cons.mp apart).2 c
    simp only [List.flatMap_cons, weight_append]
    by_cases lt : e.lo < cursor
    -- only an insertion can have been passed over
    · have point : e.lo = e.hi := by
        rcases after e List.mem_cons_self with le | point
        · omega
        · exact point
      rw [point] at slice
      have more := rest hc fun x hx => after x (List.mem_cons_of_mem _ hx)
      rw [applyFrom_dropped edits lt]
      rw [← point] at slice ⊢
      omega
    · have more := rest first.hi (List.pairwise_cons.mp apart).1
      have cons := weight_applyFrom_cons edits hc first (by omega)
      omega

theorem le_trans' (a b c : Edit) (h : le a b = true) (k : le b c = true) : le a c = true := by
  simp only [le, Bool.or_eq_true, Bool.and_eq_true, decide_eq_true_eq, beq_iff_eq] at *
  omega

theorem le_total' (a b : Edit) : (le a b || le b a) = true := by
  simp only [le, Bool.or_eq_true, Bool.and_eq_true, decide_eq_true_eq, beq_iff_eq]
  omega

theorem lo_le_of_le {a b : Edit} (h : le a b = true) : a.lo ≤ b.lo := by
  simp only [le, Bool.or_eq_true, Bool.and_eq_true, decide_eq_true_eq, beq_iff_eq] at h
  omega

/-- Two edits of which neither reaches into the other. -/
def Apart (a b : Edit) : Prop := a.hi ≤ b.lo ∨ b.hi ≤ a.lo ∨ a.lo = a.hi ∨ b.lo = b.hi

theorem Apart.symm {a b : Edit} (h : Apart a b) : Apart b a := by
  unfold Apart at *
  omega

theorem weight_applyAll_moves {edits : List Edit} (fits : ∀ e ∈ edits, e.Fits text)
    (apart : edits.Pairwise Apart) :
    weight (applyAll text edits) + weight (edits.flatMap fun e => sliceBytes e.lo e.hi text)
      ≤ weight text + weight (edits.flatMap Edit.text) := by
  have perm := List.mergeSort_perm edits Edit.le
  have sorted := List.pairwise_mergeSort le_trans' le_total' edits
  have apart' := perm.symm.pairwise apart Apart.symm
  -- edits that are apart come one after another when they are sorted
  have ordered : (edits.mergeSort Edit.le).Pairwise fun a b => a.hi ≤ b.lo ∨ b.lo = b.hi := by
    refine (sorted.and apart').imp_of_mem fun {a b} ha hb h => ?_
    have lo := lo_le_of_le h.1
    have fitsA := (fits a (mem_sorted ha)).le
    have fitsB := (fits b (mem_sorted hb)).le
    have apart := h.2
    unfold Apart at apart
    omega
  have zero : weightTo text 0 = 0 := by rw [weightTo, takeBytes_zero, weight_nil]
  have moves := weight_applyFrom_moves (fun e he => fits e (mem_sorted he)) ordered (.zero text)
    (fun e _ => Or.inl (Nat.zero_le _))
  rw [zero, Nat.zero_add, dropBytes_zero, weight_perm (perm.flatMap_right _),
    weight_perm (perm.flatMap_right Edit.text)] at moves
  exact moves

/-- What a removal of whole lines removes weighs at least what the range weighs. -/
theorem weightTo_removeLines {lo hi : Nat} (hlo : Boundary text lo) (hhi : Boundary text hi) :
    weightTo text (removeLines text lo hi).lo ≤ weightTo text lo ∧
      weightTo text hi ≤ weightTo text (removeLines text lo hi).hi := by
  obtain ⟨-, -, leLo, leHi⟩ := wholeLines_spec hlo hhi
  exact ⟨weightTo_mono text leLo, weightTo_mono text leHi⟩

end Edit

end TsxPreview
