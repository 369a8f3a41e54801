import TsxPreview.Proofs.ClassNames

/-!
Which classes a merge keeps: those that no later class removes. A class removes its earlier copies,
and a utility removes what sets the same thing under the same variants. Besides, a class that is no
utility but is spelled like the name of a group is taken for a utility of that group.
-/

namespace TsxPreview.ClassNames

/-! ## Removal -/

/-- The group of a class; `none` for a class that is no utility. -/
def groupOf? (token : List Char) : Option (List Char) := group? (unmarked (afterVariants token))

/-- A class removes its copies and, if it is a utility, those of its group and of the groups which
that overrides, under the same variants. -/
def Removes (later earlier : List Char) : Prop :=
  later = earlier ∨ variantsOf later = variantsOf earlier ∧
    ∃ group ∈ groupOf? later, ∃ other ∈ groupOf? earlier, other = group ∨ other ∈ overrides group

instance : DecidableRel Removes := fun later earlier =>
  inferInstanceAs (Decidable (later = earlier ∨ variantsOf later = variantsOf earlier ∧
    ∃ group ∈ groupOf? later, ∃ other ∈ groupOf? earlier, other = group ∨ other ∈ overrides group))

/-- The names of groups that are no utilities themselves. -/
def bareNames : List (List Char) := ["display", "position"].map String.toList

/-- A class that is spelled like the group of a utility, with the variants of that utility. -/
def IsNamesake (custom utility : List Char) : Prop :=
  ∃ name ∈ bareNames, groupOf? utility = some name ∧ custom = variantsOf utility ++ name

/-- One of two classes is spelled like the group of the other one. -/
def Confused (later earlier : List Char) : Prop :=
  IsNamesake later earlier ∨ IsNamesake earlier later

instance : DecidableRel IsNamesake := fun custom utility =>
  inferInstanceAs (Decidable (∃ name ∈ bareNames,
    groupOf? utility = some name ∧ custom = variantsOf utility ++ name))

instance : DecidableRel Confused := fun later earlier =>
  inferInstanceAs (Decidable (IsNamesake later earlier ∨ IsNamesake earlier later))

variable {token later earlier group : List Char} {tokens rest taken : List (List Char)}

/-- A class that is no utility removes nothing but its copies. -/
theorem removes_iff_of_custom (custom : groupOf? later = none) :
    Removes later earlier ↔ later = earlier := by
  simp [Removes, custom]

/-! ## Claims -/

/-- A group is spelled like a utility, but for two. -/
theorem mem_bareNames (mem : group ∈ groups) (bare : group? (unmarked group) = none) :
    group ∈ bareNames := by
  have each : ∀ group ∈ groups, group? (unmarked group) = none → group ∈ bareNames := by
    decide +kernel
  exact each group mem bare

theorem claims_of_utility (h : groupOf? token = some group) :
    claims token = (variantsOf token ++ group, (overrides group).map (variantsOf token ++ ·)) := by
  rw [groupOf?] at h
  rw [claims_eq, h]

theorem claims_of_custom (h : groupOf? token = none) : claims token = (token, []) := by
  rw [groupOf?] at h
  rw [claims_eq, h]

theorem variantsOf_append_inj {other : List Char} (unbroken : ':' ∉ group)
    (unbroken' : ':' ∉ other) :
    variantsOf later ++ group = variantsOf earlier ++ other ↔
      variantsOf later = variantsOf earlier ∧ group = other := by
  constructor
  · intro eq
    have variants := congrArg variantsOf eq
    have rest := congrArg afterVariants eq
    rw [variantsOf_append later unbroken, variantsOf_append earlier unbroken'] at variants
    rw [afterVariants_append later unbroken, afterVariants_append earlier unbroken'] at rest
    exact ⟨variants, rest⟩
  · rintro ⟨variants, rfl⟩
    rw [variants]

/-- A class that is spelled like a group is a utility, but for two names. -/
theorem mem_bareNames_of_eq {utility : List Char} (mem : group ∈ groups)
    (custom : groupOf? token = none) (eq : token = variantsOf utility ++ group) :
    group ∈ bareNames := by
  have unbroken : ∀ group ∈ groups, ':' ∉ group := by decide
  subst eq
  rw [groupOf?, afterVariants_append utility (unbroken group mem)] at custom
  exact mem_bareNames mem custom

theorem custom_of_isNamesake {utility : List Char} (h : IsNamesake token utility) :
    groupOf? token = none := by
  have each : ∀ name ∈ bareNames, ':' ∉ name ∧ group? (unmarked name) = none := by decide +kernel
  obtain ⟨name, mem, -, rfl⟩ := h
  obtain ⟨unbroken, custom⟩ := each name mem
  rwa [groupOf?, afterVariants_append utility unbroken]

/-- A group that is overridden is spelled like a utility. -/
theorem ne_overridden {other : List Char} (custom : groupOf? token = none)
    (mem : other ∈ overrides group) (variants : List Char) :
    token ≠ variantsOf variants ++ other := by
  have each : ∀ group ∈ overriding, ∀ other ∈ overrides group,
      ':' ∉ other ∧ group? (unmarked other) ≠ none := by
    decide +kernel
  obtain ⟨unbroken, utility⟩ := each group (mem_overriding (List.ne_nil_of_mem mem)) other mem
  rintro rfl
  rw [groupOf?, afterVariants_append variants unbroken] at custom
  exact utility custom

theorem isNamesake_iff {utility : List Char} (custom : groupOf? token = none)
    (found : groupOf? utility = some group) :
    IsNamesake token utility ↔ token = variantsOf utility ++ group := by
  constructor
  · rintro ⟨name, -, named, eq⟩
    rw [found] at named
    cases named
    exact eq
  · intro eq
    exact ⟨group, mem_bareNames_of_eq (mem_groups found) custom eq, found, eq⟩

theorem not_isNamesake_of_custom {utility : List Char} (h : groupOf? utility = none) :
    ¬IsNamesake token utility := by
  rintro ⟨name, -, named, -⟩
  rw [h] at named
  cases named

theorem not_isNamesake_of_utility {utility : List Char} (h : groupOf? token = some group) :
    ¬IsNamesake token utility := by
  intro namesake
  rw [custom_of_isNamesake namesake] at h
  cases h

/-- Two classes claim the same if they are the same, or of one group, or if they are confused. -/
theorem claim_eq_iff : (claims earlier).1 = (claims later).1 ↔
    later = earlier ∨
      (variantsOf later = variantsOf earlier ∧ ∃ group ∈ groupOf? later, group ∈ groupOf? earlier) ∨
      Confused later earlier := by
  unfold Confused
  cases found : groupOf? later with
  | none =>
    cases found' : groupOf? earlier with
    | none =>
      simp [claims_of_custom found, claims_of_custom found', not_isNamesake_of_custom found,
        not_isNamesake_of_custom found', eq_comm]
    | some group =>
      have apart : later ≠ earlier := by
        rintro rfl
        simp [found] at found'
      simp [claims_of_custom found, claims_of_utility found', isNamesake_iff found found',
        not_isNamesake_of_custom found, apart, eq_comm]
  | some group =>
    cases found' : groupOf? earlier with
    | none =>
      have apart : later ≠ earlier := by
        rintro rfl
        simp [found] at found'
      simp [claims_of_utility found, claims_of_custom found', isNamesake_iff found' found,
        not_isNamesake_of_custom found', apart]
    | some other =>
      have unbroken := colon_not_mem_group found
      have unbroken' := colon_not_mem_group found'
      simp only [claims_of_utility found, claims_of_utility found',
        variantsOf_append_inj unbroken' unbroken, not_isNamesake_of_utility found,
        not_isNamesake_of_utility found', or_self, or_false, Option.mem_some_iff,
        exists_eq_left']
      constructor
      · rintro ⟨variants, rfl⟩
        exact .inr ⟨variants.symm, rfl⟩
      · rintro (rfl | ⟨variants, rfl⟩)
        · rw [found] at found'
          cases found'
          exact ⟨rfl, rfl⟩
        · exact ⟨variants.symm, rfl⟩

/-- What a class claims besides is of the groups that its own overrides. -/
theorem claim_mem_iff : (claims earlier).1 ∈ (claims later).2 ↔
    variantsOf later = variantsOf earlier ∧
      ∃ group ∈ groupOf? later, ∃ other ∈ groupOf? earlier, other ∈ overrides group := by
  cases found : groupOf? later with
  | none => simp [claims_of_custom found]
  | some group =>
    cases found' : groupOf? earlier with
    | none =>
      simp only [claims_of_utility found, claims_of_custom found', List.mem_map]
      constructor
      · rintro ⟨other, mem, eq⟩
        exact absurd eq.symm (ne_overridden found' mem later)
      · rintro ⟨-, -, -, other, named, -⟩
        cases named
    | some other =>
      have unbroken' := colon_not_mem_group found'
      simp only [claims_of_utility found, claims_of_utility found', List.mem_map,
        Option.mem_some_iff, exists_eq_left']
      constructor
      · rintro ⟨lost, mem, eq⟩
        obtain ⟨variants, rfl⟩ :=
          (variantsOf_append_inj (overrides_overrides mem).1 unbroken').1 eq
        exact ⟨variants, mem⟩
      · rintro ⟨variants, mem⟩
        exact ⟨other, mem, by rw [variants]⟩

/-- What a class claims for itself or besides decides on an earlier one. -/
theorem claim_taken_iff : (claims earlier).1 ∈ (claims later).1 :: (claims later).2 ↔
    Removes later earlier ∨ Confused later earlier := by
  rw [List.mem_cons, claim_eq_iff, claim_mem_iff, Removes]
  constructor
  · rintro ((same | ⟨variants, group, mem, mem'⟩ | confused) |
      ⟨variants, group, mem, other, mem', lost⟩)
    · exact .inl (.inl same)
    · exact .inl (.inr ⟨variants, group, mem, group, mem', .inl rfl⟩)
    · exact .inr confused
    · exact .inl (.inr ⟨variants, group, mem, other, mem', .inr lost⟩)
  · rintro ((same | ⟨variants, group, mem, other, mem', rfl | lost⟩) | confused)
    · exact .inl (.inl same)
    · exact .inl (.inr (.inl ⟨variants, other, mem, mem'⟩))
    · exact .inr ⟨variants, group, mem, other, mem', lost⟩
    · exact .inl (.inr (.inr confused))

/-! ## What remains -/

/-- All that is taken in the end is claimed by some class. -/
theorem mem_takenBy {c : List Char} (closed : Closed taken) :
    c ∈ takenBy tokens taken ↔
      c ∈ taken ∨ ∃ token ∈ tokens, c ∈ (claims token).1 :: (claims token).2 := by
  induction tokens generalizing taken with
  | nil => simp [takenBy]
  | cons token rest ih =>
    rw [List.exists_mem_cons_iff]
    by_cases mem : (claims token).1 ∈ taken
    · -- a class that is dropped claims nothing that is not taken
      have own : c ∈ (claims token).1 :: (claims token).2 → c ∈ taken := by
        rw [claims_snd, List.mem_cons]
        rintro (rfl | lost)
        · exact mem
        · exact closed _ mem c lost
      rw [takenBy, if_pos mem, ih closed]
      tauto
    · rw [takenBy, if_neg mem, ih (closed.take token), ← List.cons_append, List.mem_append]
      tauto

/-- The classes, in their order, that no later one removes. -/
def remaining (removes : List Char → List Char → Prop) [DecidableRel removes] :
    List (List Char) → List (List Char)
  | [] => []
  | token :: rest =>
    if ∃ later ∈ rest, removes later token then remaining removes rest
    else token :: remaining removes rest

section

variable {removes removes' : List Char → List Char → Prop} [DecidableRel removes]
  [DecidableRel removes']

theorem mem_of_mem_remaining (h : token ∈ remaining removes tokens) : token ∈ tokens := by
  induction tokens with
  | nil => exact h
  | cons first rest ih =>
    unfold remaining at h
    split_ifs at h
    · exact List.mem_cons_of_mem _ (ih h)
    · rcases List.mem_cons.1 h with rfl | h
      · exact List.mem_cons_self
      · exact List.mem_cons_of_mem _ (ih h)

theorem length_remaining_le (more : ∀ later earlier, removes' later earlier → removes later earlier)
    (tokens : List (List Char)) :
    (remaining removes tokens).length ≤ (remaining removes' tokens).length := by
  induction tokens with
  | nil => exact Nat.le_refl _
  | cons token rest ih =>
    unfold remaining
    split_ifs with lost lost' lost'
    · exact ih
    · exact Nat.le_succ_of_le ih
    · obtain ⟨later, mem, removed⟩ := lost'
      exact absurd ⟨later, mem, more _ _ removed⟩ lost
    · exact Nat.succ_le_succ ih

/-- Removing more makes no difference exactly if it removes only what is removed anyway. -/
theorem remaining_eq_iff (more : ∀ later earlier, removes' later earlier → removes later earlier)
    (tokens : List (List Char)) :
    remaining removes tokens = remaining removes' tokens ↔
      ∀ token rest, token :: rest <:+ tokens → (∃ later ∈ rest, removes later token) →
        ∃ later ∈ rest, removes' later token := by
  induction tokens with
  | nil => simp [remaining]
  | cons token rest ih =>
    have split : (∀ t r, t :: r <:+ token :: rest → (∃ later ∈ r, removes later t) →
        ∃ later ∈ r, removes' later t) ↔
        ((∃ later ∈ rest, removes later token) → ∃ later ∈ rest, removes' later token) ∧
        ∀ t r, t :: r <:+ rest → (∃ later ∈ r, removes later t) →
          ∃ later ∈ r, removes' later t := by
      constructor
      · exact fun h => ⟨h _ _ List.suffix_rfl,
          fun t r behind => h t r (List.suffix_cons_iff.2 (.inr behind))⟩
      · rintro ⟨here, later⟩ t r behind
        rcases List.suffix_cons_iff.1 behind with eq | behind
        · cases eq
          exact here
        · exact later t r behind
    rw [split, ← ih, remaining, remaining]
    split_ifs with lost lost' lost'
    · simp [lost']
    · have shorter := length_remaining_le more rest
      constructor
      · intro eq
        rw [eq, List.length_cons] at shorter
        omega
      · exact fun h => absurd (h.1 lost) lost'
    · obtain ⟨later, mem, removed⟩ := lost'
      exact absurd ⟨later, mem, more _ _ removed⟩ lost
    · simp [lost]

end

/-- A class is kept unless a later one removes it or is confused with it. -/
theorem keptOf_eq (cs : List Char) : keptOf cs =
    remaining (fun later earlier => Removes later earlier ∨ Confused later earlier)
      (blankSeparated cs) := by
  unfold keptOf
  induction blankSeparated cs with
  | nil => rfl
  | cons token rest ih =>
    have taken : (claims token).1 ∈ takenBy rest.reverse [] ↔
        ∃ later ∈ rest, Removes later token ∨ Confused later token := by
      rw [mem_takenBy closed_nil]
      simp only [List.not_mem_nil, false_or, List.mem_reverse, claim_taken_iff]
    rw [List.reverse_cons, survivors_append, List.reverse_append, ih, remaining]
    by_cases lost : (claims token).1 ∈ takenBy rest.reverse []
    · rw [if_pos (taken.1 lost), survivors, if_pos lost, survivors]
      rfl
    · rw [if_neg (fun h => lost (taken.2 h)), survivors, if_neg lost, survivors]
      rfl

/-- Texts that are joined from words are the same if the words are. -/
theorem joined_inj {words words' : List (List Char)} (h : ∀ w ∈ words, IsWord w)
    (h' : ∀ w ∈ words', IsWord w) :
    String.ofList ([' '].intercalate words) = String.ofList ([' '].intercalate words') ↔
      words = words' := by
  constructor
  · intro eq
    rw [← blankSeparated_intercalate h, String.ofList_injective eq, blankSeparated_intercalate h']
  · rintro rfl
    rfl

/-- What a text keeps of its classes are those that no later one removes, unless two are confused. So
it is exactly the classes that no later one removes if those that are confused with a later one are
removed by another one anyway. -/
theorem merge_keeps (classes : String) :
    let words := blankSeparated classes.toList
    let joined := fun kept : List (List Char) => String.ofList ([' '].intercalate kept)
    merge classes = joined
        (remaining (fun later earlier => Removes later earlier ∨ Confused later earlier) words) ∧
      (merge classes = joined (remaining Removes words) ↔
        ∀ token rest, token :: rest <:+ words → (∃ later ∈ rest, Confused later token) →
          ∃ later ∈ rest, Removes later token) ∧
      ∀ later earlier, groupOf? later = none → (Removes later earlier ↔ later = earlier) := by
  intro words joined
  have kept : merge classes = joined
      (remaining (fun later earlier => Removes later earlier ∨ Confused later earlier) words) := by
    rw [← keptOf_eq, merge, mergeChars_eq]
  have areWords {removes : List Char → List Char → Prop} [DecidableRel removes] :
      ∀ w ∈ remaining removes words, IsWord w := fun w mem =>
    isWord_of_mem (mem_of_mem_remaining mem)
  refine ⟨kept, ?_, fun _ _ => removes_iff_of_custom⟩
  rw [kept, joined_inj areWords areWords, remaining_eq_iff fun _ _ => .inl]
  refine forall₂_congr fun token rest => imp_congr_right fun _ => ?_
  constructor
  · rintro h ⟨later, mem, confused⟩
    exact h ⟨later, mem, .inr confused⟩
  · rintro h ⟨later, mem, removed | confused⟩
    · exact ⟨later, mem, removed⟩
    · exact h ⟨later, mem, confused⟩

/-- A class named `display` is no utility, and a utility that sets the display removes it. -/
theorem not_merge_keeps_display :
    groupOf? "display".toList = none ∧
      ¬Removes "flex".toList "display".toList ∧
      remaining Removes (blankSeparated "display flex".toList) =
        ["display".toList, "flex".toList] ∧
      merge "display flex" = "flex" := by
  decide +kernel

end TsxPreview.ClassNames
