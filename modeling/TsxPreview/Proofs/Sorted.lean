import TsxPreview.Record

/-!
Lookups in sorted entries.
-/

namespace TsxPreview

variable {α : Type}

theorem mem_of_lookup {κ : Type} [BEq κ] [LawfulBEq κ] {key : κ} {value : α}
    {entries : List (κ × α)} (h : entries.lookup key = some value) : (key, value) ∈ entries := by
  obtain ⟨before, after, eq, -⟩ := List.lookup_eq_some_iff.mp h
  rw [eq]
  exact List.mem_append_right _ List.mem_cons_self

theorem lookup_of_mem_keys {κ : Type} [BEq κ] [LawfulBEq κ] {key : κ} {entries : List (κ × α)}
    (h : key ∈ entries.map Prod.fst) : ∃ value, entries.lookup key = some value := by
  rw [← Option.isSome_iff_exists, List.lookup_isSome_iff]
  obtain ⟨e, he, rfl⟩ := List.mem_map.mp h
  exact ⟨e, he, beq_self_eq_true _⟩

theorem lookup_insertSorted (name : String) (value : α) (entries : List (String × α))
    (key : String) :
    (insertSorted name value entries).lookup key =
      if key = name then some value else entries.lookup key := by
  induction entries with
  | nil =>
    rw [insertSorted, List.lookup_cons]
    by_cases same : key = name
    · rw [if_pos same, beq_iff_eq.mpr same]
    · rw [if_neg same, beq_eq_false_iff_ne.mpr same]
  | cons e rest ih =>
    -- the new entry goes before the first one with a greater name, or replaces the one with its
    -- name
    obtain ⟨n, v⟩ := e
    unfold insertSorted
    by_cases same : key = name
    · subst same
      rw [if_pos rfl]
      split
      · simp
      · rename_i other
        split
        · simp
        · rw [List.lookup_cons, ih, if_pos rfl]
          have : (key == n) = false := by simpa using other
          rw [this]
    · rw [if_neg same]
      have other : (key == name) = false := by simpa using same
      split
      · rename_i eq
        have eq := eq_of_beq eq
        subst eq
        rw [List.lookup_cons, List.lookup_cons, other]
      · split
        · rw [List.lookup_cons, other]
        · rw [List.lookup_cons, List.lookup_cons, ih, if_neg same]

/-- What is left without one name. -/
theorem lookup_filter_ne {κ : Type} [DecidableEq κ] (entries : List (κ × α)) (name key : κ) :
    (entries.filter (·.1 != name)).lookup key =
      if key = name then none else entries.lookup key := by
  induction entries with
  | nil => simp
  | cons e rest ih =>
    obtain ⟨n, v⟩ := e
    by_cases gone : n = name
    · subst gone
      rw [List.filter_cons_of_neg (by simp), ih, List.lookup_cons]
      by_cases same : key = n
      · rw [if_pos same, if_pos same]
      · rw [if_neg same, if_neg same, beq_eq_false_iff_ne.mpr same]
    · rw [List.filter_cons_of_pos (by simpa using gone), List.lookup_cons, List.lookup_cons, ih]
      by_cases same : key = n
      · subst same
        simp [gone]
      · rw [beq_eq_false_iff_ne.mpr same]

/-- A new name is one more. -/
theorem keys_insertSorted_perm {name : String} (value : α) {entries : List (String × α)}
    (h : name ∉ entries.map Prod.fst) :
    ((insertSorted name value entries).map Prod.fst).Perm (name :: entries.map Prod.fst) := by
  induction entries with
  | nil => exact .refl _
  | cons e rest ih =>
    obtain ⟨n, v⟩ := e
    simp only [List.map_cons, List.mem_cons, not_or] at h
    unfold insertSorted
    split
    · rename_i eq
      exact absurd (eq_of_beq eq) h.1
    · split
      · exact .refl _
      · exact ((ih h.2).cons n).trans (.swap name n _)

/-- The entries are the new one and old ones. -/
theorem mem_insertSorted {name : String} {value : α} {entries : List (String × α)}
    {e : String × α} (h : e ∈ insertSorted name value entries) : e = (name, value) ∨ e ∈ entries := by
  induction entries with
  | nil => exact Or.inl (List.mem_singleton.mp h)
  | cons first rest ih =>
    obtain ⟨n, v⟩ := first
    unfold insertSorted at h
    split at h
    · rcases List.mem_cons.mp h with rfl | mem
      · exact Or.inl rfl
      · exact Or.inr (List.mem_cons_of_mem _ mem)
    · split at h
      · exact List.mem_cons.mp h
      · rcases List.mem_cons.mp h with rfl | mem
        · exact Or.inr List.mem_cons_self
        · exact (ih mem).imp_right (List.mem_cons_of_mem _)

theorem map_insertSorted {β : Type} (f : α → β) (name : String) (value : α)
    (entries : List (String × α)) :
    (insertSorted name value entries).map (Prod.map id f) =
      insertSorted name (f value) (entries.map (Prod.map id f)) := by
  induction entries with
  | nil => rfl
  | cons e rest ih =>
    obtain ⟨n, v⟩ := e
    simp only [insertSorted, List.map_cons, Prod.map, id]
    split
    · rfl
    · split
      · rfl
      · rw [List.map_cons, ih]
        rfl

end TsxPreview
