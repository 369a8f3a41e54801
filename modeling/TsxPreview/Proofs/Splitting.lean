import Mathlib.Data.List.Basic

/-!
Lists that are split at separators and joined again: what the parts hold, and where to find a part
of the whole that has no separator in it.
-/

namespace TsxPreview.Splitting

variable {α : Type} {p : α → Bool} {a : α} {xs part front behind : List α}
  {parts : List (List α)}

/-! ## Parts -/

theorem not_of_mem_splitOnP (h : part ∈ xs.splitOnP p) : ∀ x ∈ part, p x = false := by
  induction xs generalizing part with
  | nil => simp_all
  | cons y xs ih =>
    obtain ⟨first, more, split⟩ := List.exists_cons_of_ne_nil (List.splitOnP_ne_nil p xs)
    rw [split] at ih
    rw [List.splitOnP_cons_eq_if_modifyHead, split, List.modifyHead_cons] at h
    split_ifs at h with separates
    · rcases List.mem_cons.1 h with rfl | h
      · exact fun x mem => absurd mem List.not_mem_nil
      · exact ih h
    · rcases List.mem_cons.1 h with rfl | h
      · exact List.forall_mem_cons.2 ⟨by simpa using separates, ih List.mem_cons_self⟩
      · exact ih (List.mem_cons_of_mem _ h)

theorem infix_intercalate (separator : List α) (h : part ∈ parts) :
    part <:+: separator.intercalate parts := by
  induction parts with
  | nil => cases h
  | cons first more ih =>
    cases more with
    | nil =>
      rw [List.intercalate_singleton]
      exact List.mem_singleton.1 h ▸ List.infix_rfl
    | cons second more =>
      rw [List.intercalate_cons_cons, List.append_assoc]
      rcases List.mem_cons.1 h with rfl | h
      · exact List.infix_append_left
      · exact (ih h).trans (List.infix_append_of_infix_right List.infix_append_right)

/-- The last part has no separator behind it. -/
theorem intercalate_concat (separator last : List α) (parts : List (List α)) :
    separator.intercalate (parts ++ [last]) = parts.flatMap (· ++ separator) ++ last := by
  induction parts with
  | nil => simp
  | cons first more ih =>
    rw [List.cons_append, List.intercalate_cons_of_ne_nil (by simp), ih, List.flatMap_cons]
    simp

/-- Parts without separators are found again. -/
theorem splitOnP_intercalate (separates : p a = true)
    (plain : ∀ part ∈ parts, ∀ x ∈ part, p x = false) (some : parts ≠ []) :
    ([a].intercalate parts).splitOnP p = parts := by
  induction parts with
  | nil => exact absurd rfl some
  | cons first more ih =>
    obtain ⟨here, later⟩ := List.forall_mem_cons.1 plain
    cases more with
    | nil => rw [List.intercalate_singleton, List.splitOnP_eq_singleton here]
    | cons second more =>
      rw [List.intercalate_cons_cons, List.append_assoc, List.singleton_append,
        List.splitOnP_append_cons_of_forall_mem here a separates, ih later (by simp)]

/-! ## Stretches without separators -/

theorem prefix_of_prefix_append_cons (front : List α) (apart : a ∉ part)
    (h : part <+: front ++ a :: behind) :
    part <+: front := by
  induction front generalizing part with
  | nil =>
    cases part with
    | nil => exact List.nil_prefix
    | cons x part => exact absurd ((List.cons_prefix_cons.1 h).1 ▸ List.mem_cons_self) apart
  | cons y front ih =>
    cases part with
    | nil => exact List.nil_prefix
    | cons x part =>
      obtain ⟨rfl, rest⟩ := List.cons_prefix_cons.1 h
      exact List.cons_prefix_cons.2 ⟨rfl, ih (fun mem => apart (List.mem_cons_of_mem _ mem)) rest⟩

theorem infix_of_infix_append_cons (apart : a ∉ part) (h : part <:+: front ++ a :: behind) :
    part <:+: front ∨ part <:+: behind := by
  induction front with
  | nil =>
    rcases List.infix_cons_iff.1 h with start | h
    · exact .inl (prefix_of_prefix_append_cons [] apart start).isInfix
    · exact .inr h
  | cons y front ih =>
    rcases List.infix_cons_iff.1 h with start | h
    · exact .inl (prefix_of_prefix_append_cons (y :: front) apart start).isInfix
    · exact (ih h).imp_left List.infix_cons

/-- A stretch without separators stands within one part. -/
theorem exists_infix_of_intercalate (apart : a ∉ part) (some : part ≠ [])
    (h : part <:+: [a].intercalate parts) : ∃ whole ∈ parts, part <:+: whole := by
  induction parts with
  | nil => exact absurd (List.infix_nil.1 h) some
  | cons first more ih =>
    cases more with
    | nil => exact ⟨first, by simp, by simpa using h⟩
    | cons second more =>
      rw [List.intercalate_cons_cons, List.append_assoc, List.singleton_append] at h
      rcases infix_of_infix_append_cons apart h with h | h
      · exact ⟨first, by simp, h⟩
      · obtain ⟨whole, mem, h⟩ := ih h
        exact ⟨whole, List.mem_cons_of_mem _ mem, h⟩

end TsxPreview.Splitting
