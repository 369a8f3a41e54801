import Mathlib.Data.List.DropRight
import TsxPreview.Proofs.Splitting
import TsxPreview.Text.ClassNames

/-!
Merging of class names. What a class claims holds with it what that claim overrides, and overriding
leads no further than its first step. So a class that is dropped takes nothing with it that is not
taken anyway, and merging may be done in parts.
-/

namespace TsxPreview

/-! ## Words -/

section

open Splitting

variable {cs : List Char} {words : List (List Char)}

/-- White space ends the word that is being read, if there is one. -/
theorem blankSeparated_go_cons (c : Char) (cs word : List Char) :
    blankSeparated.go (c :: cs) word =
      if isBlank c then [word.reverse].filter (!·.isEmpty) ++ blankSeparated.go cs []
      else blankSeparated.go cs (c :: word) := by
  cases word with
  | nil => rfl
  | cons d word =>
    have ended : [(d :: word).reverse].filter (!·.isEmpty) = [(d :: word).reverse] := by simp
    rw [ended]
    rfl

theorem blankSeparated_go (cs word : List Char) :
    blankSeparated.go cs word =
      ((cs.splitOnP isBlank).modifyHead (word.reverse ++ ·)).filter (!·.isEmpty) := by
  induction cs generalizing word with
  | nil =>
    cases word with
    | nil => rfl
    | cons c word =>
      have ended : blankSeparated.go [] (c :: word) = [(c :: word).reverse] := rfl
      simp [ended]
  | cons c cs ih =>
    rw [blankSeparated_go_cons, ih, ih, List.splitOnP_cons_eq_if_modifyHead]
    obtain ⟨first, more, split⟩ := List.exists_cons_of_ne_nil (List.splitOnP_ne_nil isBlank cs)
    by_cases blank : isBlank c = true
    · by_cases none : word = [] <;> simp [blank, split, List.filter_cons, none]
    · simp [blank, split]

theorem blankSeparated_eq (cs : List Char) :
    blankSeparated cs = (cs.splitOnP isBlank).filter (!·.isEmpty) := by
  obtain ⟨first, more, split⟩ := List.exists_cons_of_ne_nil (List.splitOnP_ne_nil isBlank cs)
  rw [blankSeparated, blankSeparated_go, split]
  simp

/-- A run of characters that are not white space. -/
structure IsWord (w : List Char) : Prop where
  some : w ≠ []
  unbroken : ∀ c ∈ w, isBlank c = false

theorem isWord_of_mem {w : List Char} (h : w ∈ blankSeparated cs) : IsWord w := by
  rw [blankSeparated_eq, List.mem_filter] at h
  exact ⟨by simpa using h.2, not_of_mem_splitOnP h.1⟩

theorem blankSeparated_append_space (front behind : List Char) :
    blankSeparated (front ++ ' ' :: behind) = blankSeparated front ++ blankSeparated behind := by
  have space : isBlank ' ' = true := by decide
  simp only [blankSeparated_eq, List.splitOnP_append_cons front behind space, List.filter_append]

/-- Words are found again in what is joined from them. -/
theorem blankSeparated_intercalate (h : ∀ w ∈ words, IsWord w) :
    blankSeparated ([' '].intercalate words) = words := by
  cases words with
  | nil => rfl
  | cons first more =>
    rw [blankSeparated_eq, splitOnP_intercalate (by decide) (fun w mem => (h w mem).unbroken)
      (by simp), List.filter_eq_self]
    intro w mem
    simpa using (h w mem).some

end

namespace ClassNames

/-! ## Variants -/

/-- What stands behind the last colon. -/
def afterVariants (cs : List Char) : List Char := cs.rtakeWhile (· != ':')

/-- What comes up to the last colon. -/
def variantsOf (cs : List Char) : List Char := cs.rdropWhile (· != ':')

theorem variantsOf_append_afterVariants (cs : List Char) :
    variantsOf cs ++ afterVariants cs = cs :=
  List.rdropWhile_append_rtakeWhile

variable {cs group : List Char}

theorem variantsOf_append (cs : List Char) (unbroken : ':' ∉ group) :
    variantsOf (variantsOf cs ++ group) = variantsOf cs := by
  induction group using List.reverseRecOn with
  | nil =>
    rw [List.append_nil]
    exact List.rdropWhile_idempotent _ cs
  | append_singleton front c ih =>
    simp only [List.mem_append, List.mem_singleton, not_or] at unbroken
    have plain : (c != ':') = true := by simpa using fun h : c = ':' => unbroken.2 h.symm
    have dropped :
        variantsOf (variantsOf cs ++ front ++ [c]) = variantsOf (variantsOf cs ++ front) :=
      List.rdropWhile_concat_pos _ _ c plain
    rw [← List.append_assoc, dropped]
    exact ih unbroken.1

theorem afterVariants_append (cs : List Char) (unbroken : ':' ∉ group) :
    afterVariants (variantsOf cs ++ group) = group := by
  have whole := variantsOf_append_afterVariants (variantsOf cs ++ group)
  rw [variantsOf_append cs unbroken] at whole
  exact List.append_cancel_left whole

/-! ## Claims -/

/-- A utility without its mark of importance. -/
def unmarked : List Char → List Char
  | '!' :: rest => rest
  | utility => utility

theorem takeApart_eq (token : List Char) :
    takeApart token = (variantsOf token, unmarked (afterVariants token)) := by
  have variants : token.take (token.length - (afterVariants token).length) = variantsOf token := by
    have whole := variantsOf_append_afterVariants token
    have length : token.length - (afterVariants token).length = (variantsOf token).length := by
      have both := congrArg List.length whole
      rw [List.length_append] at both
      omega
    have first : (variantsOf token ++ afterVariants token).take (variantsOf token).length =
        variantsOf token := List.take_left
    rw [length]
    rwa [whole] at first
  unfold takeApart unmarked
  rw [← variants]
  show (match afterVariants token with
    | '!' :: rest => (_, rest)
    | utility => (_, utility)) = _
  split <;> rfl

/-- What a claim overrides: the same variants stand before it. -/
def overridden (claim : List Char) : List (List Char) :=
  (overrides (afterVariants claim)).map (variantsOf claim ++ ·)

/-- The groups that override others. -/
def overriding : List (List Char) :=
  ["p-", "px-", "py-", "m-", "mx-", "my-", "inset-", "gap-", "size-"].map String.toList

theorem mem_overriding (h : overrides group ≠ []) : group ∈ overriding := by
  have spelled {name : String} (eq : String.ofList group = name) : group = name.toList := by
    rw [← eq, String.toList_ofList]
  unfold overrides at h
  split at h
  all_goals first
    | exact absurd rfl h
    | (rename_i eq; rw [spelled eq]; decide)

/-- Overriding leads no further than its first step. -/
theorem overrides_overrides {other : List Char} (h : other ∈ overrides group) :
    ':' ∉ other ∧ ∀ o ∈ overrides other, o ∈ overrides group := by
  have each : ∀ group ∈ overriding, ∀ other ∈ overrides group,
      ':' ∉ other ∧ ∀ o ∈ overrides other, o ∈ overrides group := by
    decide +kernel
  exact each group (mem_overriding (List.ne_nil_of_mem h)) other h

/-- A utility that is spelled like a group that overrides others is of that group. -/
theorem group?_unmarked_ne_none (h : overrides group ≠ []) : group? (unmarked group) ≠ none := by
  have each : ∀ group ∈ overriding, group? (unmarked group) ≠ none := by decide +kernel
  exact each group (mem_overriding h)

/-- The groups of utilities that are known by their whole names. -/
def groupNames : List String :=
  ["display", "position", "font-size", "text-align", "text-color", "font-weight", "font-family"]

theorem mem_of_namedGroup? {name : String} (h : namedGroup? cs = some name) :
    name ∈ groupNames := by
  unfold namedGroup? at h
  split at h
  · cases h
    decide
  · split at h
    · cases h
      decide
    · split at h
      · cases h
        split_ifs <;> decide
      · split at h
        · cases h
          split_ifs <;> decide
        · cases h

theorem mem_of_shapeGroup? {name : String} (h : shapeGroup? cs = some name) :
    name ∈ "shadow" :: "rounded" :: beginnings := by
  unfold shapeGroup? at h
  split_ifs at h
  · cases h
    exact List.mem_cons_self
  · cases h
    exact List.mem_cons_of_mem _ List.mem_cons_self
  · exact List.mem_cons_of_mem _ (List.mem_cons_of_mem _ (List.mem_of_find?_eq_some h))

/-- The groups of borders. -/
def borderGroups : List (List Char) :=
  "border-color".toList :: "border-width".toList ::
    "xytrbl".toList.map fun side => "border-width".toList ++ ['-', side]

/-- All groups that there are. -/
def groups : List (List Char) :=
  groupNames.map String.toList ++
    (borderGroups ++ ("shadow" :: "rounded" :: beginnings).map String.toList)

theorem mem_of_borderGroup? (h : borderGroup? cs = some group) : group ∈ borderGroups := by
  unfold borderGroup? at h
  split at h
  · cases h
  · rename_i rest found
    split at h
    · rename_i side sided
      cases h
      unfold borderSide? at sided
      split at sided
      · rename_i c rest'
        split_ifs at sided with named width
        · cases sided
          have mem : c ∈ "xytrbl".toList := by simpa using (Bool.and_eq_true_iff.1 named).1
          exact List.mem_cons_of_mem _ (List.mem_cons_of_mem _ (List.mem_map.2 ⟨c, mem, rfl⟩))
        · cases sided
          exact List.mem_cons_of_mem _ (by simp)
      · split_ifs at sided
        cases sided
        exact List.mem_cons_of_mem _ (by simp)
    · split_ifs at h
      cases h
      exact List.mem_cons_self

theorem mem_groups {utility : List Char} (h : group? utility = some group) : group ∈ groups := by
  obtain ⟨cs, h⟩ : ∃ cs, ((namedGroup? cs).map String.toList <|> borderGroup? cs <|>
      (shapeGroup? cs).map String.toList) = some group := ⟨_, h⟩
  cases named : namedGroup? cs with
  | some name =>
    rw [named] at h
    cases h
    exact List.mem_append_left _ (List.mem_map_of_mem (mem_of_namedGroup? named))
  | none =>
    cases border : borderGroup? cs with
    | some side =>
      rw [named, border] at h
      cases h
      exact List.mem_append_right _ (List.mem_append_left _ (mem_of_borderGroup? border))
    | none =>
      rw [named, border] at h
      obtain ⟨name, shape, rfl⟩ := Option.map_eq_some_iff.1 h
      exact List.mem_append_right _ (List.mem_append_right _
        (List.mem_map_of_mem (mem_of_shapeGroup? shape)))

/-- No group is spelled with a colon. -/
theorem colon_not_mem_group {utility : List Char} (h : group? utility = some group) :
    ':' ∉ group := by
  have unbroken : ∀ group ∈ groups, ':' ∉ group := by decide
  exact unbroken group (mem_groups h)

theorem claims_eq (token : List Char) :
    claims token = match group? (unmarked (afterVariants token)) with
      | some group => (variantsOf token ++ group, (overrides group).map (variantsOf token ++ ·))
      | none => (token, []) := by
  cases found : group? (unmarked (afterVariants token)) with
  | none => simp [claims, takeApart_eq, found]
  | some group => simp [claims, takeApart_eq, found]

/-- What a class claims besides is what its claim overrides. -/
theorem claims_snd (token : List Char) : (claims token).2 = overridden (claims token).1 := by
  rw [claims_eq]
  cases found : group? (unmarked (afterVariants token)) with
  | some group =>
    have unbroken := colon_not_mem_group found
    simp only [overridden, afterVariants_append token unbroken, variantsOf_append token unbroken]
  | none =>
    have nothing : overrides (afterVariants token) = [] := by
      by_contra some
      exact group?_unmarked_ne_none some found
    simp only [overridden, nothing, List.map_nil]

theorem overridden_overridden {claim other : List Char} (h : other ∈ overridden claim) :
    ∀ o ∈ overridden other, o ∈ overridden claim := by
  obtain ⟨group, mem, rfl⟩ := List.mem_map.1 h
  obtain ⟨unbroken, further⟩ := overrides_overrides mem
  intro o lost
  rw [overridden, afterVariants_append claim unbroken, variantsOf_append claim unbroken] at lost
  obtain ⟨last, next, rfl⟩ := List.mem_map.1 lost
  exact List.mem_map.2 ⟨last, further last next, rfl⟩

/-! ## What is kept -/

/-- The classes that are kept, from the last one to the first. -/
def survivors : (tokens taken : List (List Char)) → List (List Char)
  | [], _ => []
  | token :: rest, taken =>
    if (claims token).1 ∈ taken then survivors rest taken
    else token :: survivors rest ((claims token).1 :: ((claims token).2 ++ taken))

/-- All that is taken in the end. -/
def takenBy : (tokens taken : List (List Char)) → List (List Char)
  | [], taken => taken
  | token :: rest, taken =>
    if (claims token).1 ∈ taken then takenBy rest taken
    else takenBy rest ((claims token).1 :: ((claims token).2 ++ taken))

/-- With a claim, all that it overrides is taken. -/
def Closed (taken : List (List Char)) : Prop := ∀ c ∈ taken, ∀ o ∈ overridden c, o ∈ taken

variable {tokens earlier taken : List (List Char)}

theorem keep_eq (tokens taken kept : List (List Char)) :
    keep tokens taken kept = (survivors tokens taken).reverse ++ kept := by
  induction tokens generalizing taken kept with
  | nil => rfl
  | cons token rest ih =>
    by_cases mem : (claims token).1 ∈ taken
    · simp [keep, survivors, mem, ih]
    · simp [keep, survivors, mem, ih]

theorem survivors_append (front behind taken : List (List Char)) :
    survivors (front ++ behind) taken =
      survivors front taken ++ survivors behind (takenBy front taken) := by
  induction front generalizing taken with
  | nil => rfl
  | cons token rest ih =>
    by_cases mem : (claims token).1 ∈ taken
    · simp [survivors, takenBy, mem, ih]
    · simp [survivors, takenBy, mem, ih]

theorem mem_of_mem_survivors {token : List Char} (h : token ∈ survivors tokens taken) :
    token ∈ tokens := by
  induction tokens generalizing taken with
  | nil => exact h
  | cons first rest ih =>
    unfold survivors at h
    split_ifs at h
    · exact List.mem_cons_of_mem _ (ih h)
    · rcases List.mem_cons.1 h with rfl | h
      · exact List.mem_cons_self
      · exact List.mem_cons_of_mem _ (ih h)

theorem Closed.take (h : Closed taken) (token : List Char) :
    Closed ((claims token).1 :: ((claims token).2 ++ taken)) := by
  rw [claims_snd]
  intro c mem o lost
  rw [List.mem_cons, List.mem_append] at mem ⊢
  rcases mem with rfl | mem | mem
  · exact .inr (.inl lost)
  · exact .inr (.inl (overridden_overridden mem o lost))
  · exact .inr (.inr (h c mem o lost))

theorem Closed.takenBy (h : Closed taken) (tokens : List (List Char)) :
    Closed (takenBy tokens taken) := by
  induction tokens generalizing taken with
  | nil => exact h
  | cons token rest ih =>
    unfold ClassNames.takenBy
    split_ifs
    · exact ih h
    · exact ih (h.take token)

/-- A class that is dropped because of others would be dropped with more taken as well, and it
takes nothing that is not taken then. -/
theorem survivors_survivors (closed : Closed taken) (sub : earlier ⊆ taken) :
    survivors (survivors tokens earlier) taken = survivors tokens taken := by
  induction tokens generalizing earlier taken with
  | nil => rfl
  | cons token rest ih =>
    by_cases early : (claims token).1 ∈ earlier
    · rw [survivors, if_pos early, ih closed sub, survivors, if_pos (sub early)]
    · rw [survivors, if_neg early]
      by_cases mem : (claims token).1 ∈ taken
      · -- it is dropped in the second turn only; what it took in the first is taken
        have taken' : (claims token).1 :: ((claims token).2 ++ earlier) ⊆ taken := by
          rw [claims_snd]
          intro c hc
          rw [List.mem_cons, List.mem_append] at hc
          rcases hc with rfl | lost | hc
          · exact mem
          · exact closed _ mem c lost
          · exact sub hc
        rw [survivors, if_pos mem, ih closed taken', survivors, if_pos mem]
      · have sub' : (claims token).1 :: ((claims token).2 ++ earlier) ⊆
            (claims token).1 :: ((claims token).2 ++ taken) := by
          refine List.cons_subset_cons _ (List.append_subset.2 ⟨?_, ?_⟩)
          · exact List.subset_append_left _ _
          · exact List.subset_append_of_subset_right _ sub
        rw [survivors, if_neg mem, ih (closed.take token) sub', survivors, if_neg mem]

/-! ## Merging -/

/-- The classes of a text that are kept. -/
def keptOf (cs : List Char) : List (List Char) := (survivors (blankSeparated cs).reverse []).reverse

theorem mergeChars_eq (cs : List Char) : mergeChars cs = [' '].intercalate (keptOf cs) := by
  rw [mergeChars, keep_eq, List.append_nil, keptOf]

theorem blankSeparated_mergeChars (cs : List Char) :
    blankSeparated (mergeChars cs) = keptOf cs := by
  rw [mergeChars_eq]
  refine blankSeparated_intercalate fun w mem => ?_
  exact isWord_of_mem (List.mem_reverse.1 (mem_of_mem_survivors (List.mem_reverse.1 mem)))

theorem closed_nil : Closed [] := fun _ mem => absurd mem List.not_mem_nil

/-- The first half may be merged before: what decides on it is taken by the second. -/
theorem keptOf_append (front behind : List Char) :
    keptOf (mergeChars front ++ ' ' :: behind) = keptOf (front ++ ' ' :: behind) := by
  simp only [keptOf, blankSeparated_append_space, List.reverse_append, survivors_append,
    blankSeparated_mergeChars, List.reverse_reverse]
  rw [survivors_survivors (closed_nil.takenBy _) (List.nil_subset _)]

theorem merge_join (front behind : String) : merge (front ++ " " ++ behind) =
    String.ofList ([' '].intercalate (keptOf (front.toList ++ ' ' :: behind.toList))) := by
  have joined : (front ++ " " ++ behind).toList = front.toList ++ ' ' :: behind.toList := by simp
  rw [merge, joined, mergeChars_eq]

/-- Merging leaves nothing to merge, and parts may be merged before the whole. -/
theorem merge_composes :
    (∀ classes, merge (merge classes) = merge classes) ∧
    ∀ front behind, merge (merge front ++ " " ++ behind) = merge (front ++ " " ++ behind) := by
  constructor
  · intro classes
    have again : keptOf (mergeChars classes.toList) = keptOf classes.toList := by
      rw [keptOf, blankSeparated_mergeChars, keptOf, List.reverse_reverse,
        survivors_survivors closed_nil (List.Subset.refl _)]
    rw [merge, merge, String.toList_ofList, mergeChars_eq, again, ← mergeChars_eq]
  · intro front behind
    rw [merge_join, merge_join, merge, String.toList_ofList, keptOf_append]

/-- A padding on all sides drops the sides, though not those behind another variant. -/
example : merge (merge "px-2 hover:pt-1 pl-3" ++ " " ++ "p-4 text-sm") =
    "hover:pt-1 p-4 text-sm" := by
  decide +kernel

end ClassNames

end TsxPreview
