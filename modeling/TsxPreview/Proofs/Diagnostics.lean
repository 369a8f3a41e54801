import TsxPreview.Source.Diagnostic

/-!
A capped list of diagnostics stands for all that were found: it keeps the first of them and counts
the rest. Every operation is one on what was found, so no order of operations brings list and count
apart, and forgetting what came behind a mark gives back what stood there before.
-/

namespace TsxPreview

namespace Diagnostics

variable {d e : Diagnostics} {found more : List Diagnostic}

/-! ## All that was found -/

/-- What is kept and counted of all that was found. -/
def ofFound (found : List Diagnostic) : Diagnostics := ⟨found.take cap, found.length⟩

theorem empty_eq_ofFound : empty = ofFound [] := rfl

theorem push_ofFound (found : List Diagnostic) (e : Diagnostic) :
    (ofFound found).push e = ofFound (found ++ [e]) := by
  have length : (found ++ [e]).length = found.length + 1 := List.length_append
  unfold push ofFound
  rw [length]
  congr 1
  dsimp only
  rw [List.length_take]
  split
  · rename_i room
    -- nothing was left out so far
    rw [List.take_of_length_le (i := cap) (l := found) (by omega),
      List.take_of_length_le (by omega)]
  · rename_i full
    rw [List.take_append_of_le_length (by omega)]

theorem foldl_push_ofFound (found more : List Diagnostic) :
    more.foldl push (ofFound found) = ofFound (found ++ more) := by
  induction more generalizing found with
  | nil => rw [List.append_nil, List.foldl_nil]
  | cons e more ih =>
    rw [List.foldl_cons, push_ofFound, ih, List.append_assoc, List.singleton_append]

/-- What the other list does not keep has no place in this one either. -/
theorem extend_ofFound (found more : List Diagnostic) :
    (ofFound found).extend (ofFound more) = ofFound (found ++ more) := by
  unfold extend
  dsimp only [ofFound]
  rw [show (⟨found.take cap, found.length⟩ : Diagnostics) = ofFound found from rfl,
    foldl_push_ofFound]
  unfold ofFound
  dsimp only
  congr 1
  · rw [List.take_append, List.take_append, List.take_take]
    congr 2
    exact Nat.min_eq_left (Nat.sub_le _ _)
  · simp only [List.length_append, List.length_take]
    omega

theorem truncate_ofFound (found : List Diagnostic) (mark : Nat) :
    (ofFound found).truncate mark = ofFound (found.take mark) := by
  unfold truncate ofFound
  dsimp only
  split
  · rename_i less
    rw [List.take_take, List.take_take, Nat.min_comm, List.length_take,
      Nat.min_eq_left (Nat.le_of_lt less)]
  · rename_i all
    rw [List.take_of_length_le (i := mark) (l := found) (Nat.le_of_not_lt all)]

/-! ## Reachable lists -/

/-- What the operations build, starting with nothing found. -/
inductive Built : Diagnostics → Prop where
  | empty : Built empty
  | push {d : Diagnostics} (h : Built d) (e : Diagnostic) : Built (d.push e)
  | extend {d other : Diagnostics} (h : Built d) (k : Built other) : Built (d.extend other)
  | truncate {d : Diagnostics} (h : Built d) (mark : Nat) : Built (d.truncate mark)

/-- What pushing and extending make of a list. -/
inductive Continues (d : Diagnostics) : Diagnostics → Prop where
  | refl : Continues d d
  | push {e : Diagnostics} (h : Continues d e) (x : Diagnostic) : Continues d (e.push x)
  | extend {e other : Diagnostics} (h : Continues d e) (k : Built other) :
      Continues d (e.extend other)

theorem Built.exists_ofFound (h : Built d) : ∃ found, d = ofFound found := by
  induction h with
  | empty => exact ⟨[], empty_eq_ofFound⟩
  | push _ e ih =>
    obtain ⟨found, rfl⟩ := ih
    exact ⟨_, push_ofFound found e⟩
  | extend _ _ ih ih' =>
    obtain ⟨found, rfl⟩ := ih
    obtain ⟨more, rfl⟩ := ih'
    exact ⟨_, extend_ofFound found more⟩
  | truncate _ mark ih =>
    obtain ⟨found, rfl⟩ := ih
    exact ⟨_, truncate_ofFound found mark⟩

theorem Continues.exists_ofFound (h : Continues (ofFound found) e) :
    ∃ more, e = ofFound (found ++ more) := by
  induction h with
  | refl => exact ⟨[], by rw [List.append_nil]⟩
  | push _ x ih =>
    obtain ⟨more, rfl⟩ := ih
    exact ⟨more ++ [x], by rw [push_ofFound, List.append_assoc]⟩
  | extend _ k ih =>
    obtain ⟨more, rfl⟩ := ih
    obtain ⟨other, rfl⟩ := k.exists_ofFound
    exact ⟨more ++ other, by rw [extend_ofFound, List.append_assoc]⟩

theorem Built.foldl_push (h : Built d) (found : List Diagnostic) :
    Built (found.foldl Diagnostics.push d) := by
  induction found generalizing d with
  | nil => exact h
  | cons e found ih => exact ih (h.push e)

/-- However a list was built, it keeps as many as were found, up to the cap (so it never keeps more
than it counts), and cutting back to its count undoes whatever was pushed or added to it since. -/
theorem Built.capped_restored (h : Built d) :
    d.errors.length = min d.total cap ∧ ∀ e, Continues d e → e.truncate d.total = d := by
  obtain ⟨found, rfl⟩ := h.exists_ofFound
  refine ⟨?_, fun e continues => ?_⟩
  · show (found.take cap).length = min found.length cap
    rw [List.length_take, Nat.min_comm]
  · obtain ⟨more, rfl⟩ := continues.exists_ofFound
    rw [truncate_ofFound]
    exact congrArg ofFound List.take_left

/-- Cut back to a mark above the cap, and extended with a list that counts more than it keeps. -/
theorem capped_restored_saturated :
    let full := (List.replicate 25 default).foldl push empty
    Built (full.truncate 22) ∧ (full.truncate 22).errors.length = 20 ∧
      Continues (full.truncate 22) (((full.truncate 22).push default).extend full) ∧
      (((full.truncate 22).push default).extend full).truncate 22 = full.truncate 22 := by
  intro full
  have built : Built full := Built.empty.foldl_push _
  have continues := (Continues.refl (d := full.truncate 22)).push default |>.extend built
  have result := (built.truncate 22).capped_restored
  exact ⟨built.truncate 22, result.1, continues, result.2 _ continues⟩

end Diagnostics

end TsxPreview
