import Mathlib.Data.List.TakeWhile
import TsxPreview.Proofs.Markup.References
import TsxPreview.Proofs.Splitting

/-!
The layout of text between tags. What stands beside a line break is laid out for the reader of the
source, so any stretch of spaces, tabs and line feeds that has a line feed in it counts as one line
break. No line break is left in what the text stands for, unless a reference says so.
-/

namespace TsxPreview

open Splitting

namespace MarkupText

/-! ## Lines -/

theorem splitOnFeed_eq (cs : List Char) : lines.splitOnFeed cs = cs.splitOn '\n' := by
  induction cs with
  | nil => rfl
  | cons c cs ih =>
    rw [lines.splitOnFeed, List.splitOn_cons_eq_if_modifyHead, ih]
    by_cases feed : c = '\n'
    · simp [feed]
    · obtain ⟨line, more, split⟩ := List.exists_cons_of_ne_nil (List.splitOn_ne_nil '\n' cs)
      simp [feed, split]

theorem trimEnd_eq_self {p : Char → Bool} {line : List Char} (h : ∀ c ∈ line, p c = false) :
    trimEnd p line = line := by
  have none : line.reverse.dropWhile p = line.reverse := by
    cases reversed : line.reverse with
    | nil => rfl
    | cons c rest =>
      have mem : c ∈ line := by
        rw [← List.mem_reverse, reversed]
        exact List.mem_cons_self
      rw [List.dropWhile_cons_of_neg (by simp [h c mem])]
  rw [trimEnd, none, List.reverse_reverse]

theorem infix_of_mem_splitOn {a : Char} {cs line : List Char} (h : line ∈ cs.splitOn a) :
    line <:+: cs := by
  have joined := infix_intercalate [a] h
  rwa [List.intercalate_splitOn] at joined

/-- Without carriage returns, lines are what stands between line feeds. -/
theorem lines_eq {cs : List Char} (h : '\r' ∉ cs) : lines cs = cs.splitOn '\n' := by
  rw [lines, splitOnFeed_eq]
  conv_rhs => rw [← List.map_id (cs.splitOn '\n')]
  refine List.map_congr_left fun line mem => trimEnd_eq_self fun c inside => ?_
  have within := infix_of_mem_splitOn mem
  rw [beq_eq_false_iff_ne]
  rintro rfl
  exact h (within.subset inside)

/-! ## Trimmed lines -/

/-- Tabs become spaces. -/
def untab (line : List Char) : List Char := line.map fun c => if c = '\t' then ' ' else c

/-- A line without the spaces at its ends, but for an end where the text begins or ends. -/
def trim (atStart atEnd : Bool) (line : List Char) : List Char :=
  let line := if atStart then untab line else trimStart (· == ' ') (untab line)
  if atEnd then line else trimEnd (· == ' ') line

theorem trimmed_eq (count i : Nat) (line : List Char) :
    trimmed count i line = trim (i = 0) (i + 1 = count) line := by
  simp only [trimmed, trim, untab, decide_eq_true_eq]

/-- The lines of a text or of a part of it that begins or ends with a line break. -/
def trims (atStart atEnd : Bool) : List (List Char) → List (List Char)
  | [] => []
  | [line] => [trim atStart atEnd line]
  | line :: next :: more => trim atStart false line :: trims false atEnd (next :: more)

theorem map_trimmed (lines : List (List Char)) (k : Nat) :
    (lines.zipIdx k).map (fun (line, i) => trimmed (k + lines.length) i line)
      = trims (k = 0) true lines := by
  induction lines generalizing k with
  | nil => rfl
  | cons line more ih =>
    have rest := ih (k + 1)
    cases more with
    | nil => simp [trimmed_eq, trims]
    | cons next more =>
      simp only [List.length_cons, List.zipIdx_cons, List.map_cons, trims, trimmed_eq] at rest ⊢
      have later : k + 1 + (more.length + 1) = k + (more.length + 1 + 1) := by omega
      rw [later] at rest
      rw [rest]
      simp

/-- The lines that something is left of. -/
def kept (atStart atEnd : Bool) (lines : List (List Char)) : List (List Char) :=
  (trims atStart atEnd lines).filter fun line => !line.isEmpty

theorem forall_mem_dropWhile_iff {p : Char → Bool} {cs : List Char} :
    (∀ c ∈ cs.dropWhile p, p c = true) ↔ ∀ c ∈ cs, p c = true := by
  constructor
  · intro h c mem
    rw [← cs.takeWhile_append_dropWhile (p := p)] at mem
    rcases List.mem_append.1 mem with mem | mem
    · exact List.mem_takeWhile_imp mem
    · exact h c mem
  · exact fun h c mem => h c ((List.dropWhile_sublist p).mem mem)

theorem untab_blank_iff {line : List Char} :
    (∀ c ∈ untab line, (c == ' ') = true) ↔ ∀ c ∈ line, isSpace c = true := by
  simp only [untab, List.forall_mem_map]
  refine forall_congr' fun c => imp_congr_right fun _ => ?_
  by_cases tab : c = '\t' <;> simp [isSpace, tab]

/-- Something is left of a line that is trimmed unless it is blank. -/
theorem trim_eq_nil_iff {atStart atEnd : Bool} (part : (atStart && atEnd) = false)
    {line : List Char} : trim atStart atEnd line = [] ↔ ∀ c ∈ line, isSpace c = true := by
  rw [← untab_blank_iff]
  cases atStart <;> cases atEnd
  · rw [← forall_mem_dropWhile_iff]
    simp [trim, trimEnd, trimStart, List.dropWhile_eq_nil_iff]
  · simp [trim, trimStart, List.dropWhile_eq_nil_iff]
  · simp [trim, trimEnd, List.dropWhile_eq_nil_iff]
  · cases part

/-! ## Joined lines -/

theorem flatMap_filter {α β : Type} (p : α → Bool) (f : α → List β) (list : List α) :
    (list.filter p).flatMap f = list.flatMap fun a => if p a then f a else [] := by
  induction list with
  | nil => rfl
  | cons a list ih => by_cases holds : p a = true <;> simp [holds, ih]

/-- The lines that are not blank, with their numbers. -/
def filled (lines : List (List Char)) : List (List Char × Nat) :=
  lines.zipIdx.filter fun (line, _) => line.any fun c => !isSpace c

theorem isEmpty_trimmed {count : Nat} (several : 2 ≤ count) (line : List Char) (i : Nat) :
    (trimmed count i line).isEmpty = !line.any fun c => !isSpace c := by
  have part : (decide (i = 0) && decide (i + 1 = count)) = false := by
    simp only [Bool.and_eq_false_iff, decide_eq_false_iff_not]
    omega
  rw [Bool.eq_iff_iff, trimmed_eq, List.isEmpty_iff, trim_eq_nil_iff part]
  simp

theorem map_filled {lines : List (List Char)} (several : 2 ≤ lines.length) :
    (filled lines).map (fun (line, i) => trimmed lines.length i line) = kept true true lines := by
  have all : lines.zipIdx.map (fun (line, i) => trimmed lines.length i line)
      = trims true true lines := by
    simpa using map_trimmed lines 0
  rw [kept, ← all, List.filter_map, filled]
  congr 1
  refine List.filter_congr fun place _ => ?_
  simp [isEmpty_trimmed several]

/-- The filled lines with a space behind each but the last of them. -/
theorem joined_eq_of_several {lines : List (List Char)} (several : 2 ≤ lines.length) :
    joined lines = (filled lines).flatMap fun (line, i) =>
      if i = lastFilled lines then trimmed lines.length i line
      else trimmed lines.length i line ++ [' '] := by
  rw [filled, flatMap_filter, joined]
  congr 1
  funext ⟨line, i⟩
  simp only [isEmpty_trimmed several]
  cases line.any fun c => !isSpace c <;> rfl

theorem nodup_filled (lines : List (List Char)) : ((filled lines).map (·.2)).Nodup := by
  have all : (lines.zipIdx.map (·.2)).Nodup := by
    rw [List.zipIdx_map_snd]
    exact List.nodup_range'
  exact all.sublist (List.filter_sublist.map _)

/-- Joined lines are what is kept of each, with a space between each two. -/
theorem joined_eq (lines : List (List Char)) :
    joined lines = [' '].intercalate (kept true true lines) := by
  match lines with
  | [] => rfl
  | [line] =>
    have first : lastFilled [line] = 0 := by
      cases blank : line.any (fun c => !isSpace c) <;> simp [lastFilled, blank]
    cases empty : (trimmed 1 0 line).isEmpty <;>
      simp_all [joined, kept, trims, trimmed_eq]
  | first :: second :: more =>
    have several : 2 ≤ (first :: second :: more).length := by simp
    generalize first :: second :: more = lines at several
    rw [joined_eq_of_several several, ← map_filled several]
    rcases List.eq_nil_or_concat' (filled lines) with none | ⟨before, ⟨line, i⟩, split⟩
    · rw [none]
      rfl
    · have last : lastFilled lines = i := by
        rw [lastFilled, show (List.filter _ lines.zipIdx) = filled lines from rfl, split]
        simp
      have apart : ∀ place ∈ before, place.2 ≠ i := by
        have distinct := nodup_filled lines
        rw [split, List.map_append, List.nodup_append] at distinct
        exact fun place mem => distinct.2.2 _ (List.mem_map_of_mem mem) _ (by simp)
      rw [split, last, List.map_append, List.map_singleton, intercalate_concat,
        List.flatMap_append, List.flatMap_map, List.flatMap_singleton]
      dsimp only
      rw [if_pos rfl]
      congr 1
      refine List.flatMap_congr fun place mem => ?_
      rw [if_neg (apart place mem)]

/-! ## Line breaks -/

theorem trims_append {atStart atEnd : Bool} {before after : List (List Char)} (some : before ≠ [])
    (more : after ≠ []) : trims atStart atEnd (before ++ after)
      = trims atStart false before ++ trims false atEnd after := by
  induction before generalizing atStart with
  | nil => exact absurd rfl some
  | cons line before ih =>
    cases before with
    | nil =>
      obtain ⟨next, after, rfl⟩ := List.exists_cons_of_ne_nil more
      rfl
    | cons next before =>
      have rest := @ih false (List.cons_ne_nil next before)
      rw [List.cons_append, List.cons_append, trims, trims, ← List.cons_append, rest,
        List.cons_append]

theorem kept_append {atStart atEnd : Bool} {before after : List (List Char)} (some : before ≠ [])
    (more : after ≠ []) : kept atStart atEnd (before ++ after)
      = kept atStart false before ++ kept false atEnd after := by
  rw [kept, trims_append some more, List.filter_append]
  rfl

/-- Space at the start of a line is trimmed. -/
theorem trim_cons {c : Char} (space : isSpace c = true) (atEnd : Bool) (line : List Char) :
    trim false atEnd (c :: line) = trim false atEnd line := by
  have first : untab (c :: line) = ' ' :: untab line := by
    rcases (by simpa [isSpace] using space : c = ' ' ∨ c = '\t') with rfl | rfl <;> rfl
  simp [trim, first, trimStart]

/-- Space at the end of a line is trimmed. -/
theorem trim_append {blank : List Char} (space : ∀ c ∈ blank, isSpace c = true) (atStart : Bool)
    (line : List Char) : trim atStart false (line ++ blank) = trim atStart false line := by
  have spaces := untab_blank_iff.2 space
  have split : untab (line ++ blank) = untab line ++ untab blank := List.map_append
  have ends (line : List Char) :
      trimEnd (· == ' ') (line ++ untab blank) = trimEnd (· == ' ') line := by
    rw [trimEnd, List.reverse_append, List.dropWhile_append_of_pos (by simpa using spaces), trimEnd]
  cases atStart with
  | true => simp [trim, split, ends]
  | false =>
    have gone : (untab blank).dropWhile (· == ' ') = [] := List.dropWhile_eq_nil_iff.2 spaces
    simp only [trim, split, trimStart, List.dropWhile_append, Bool.false_eq_true, if_false]
    split_ifs with blank
    · rw [gone, List.isEmpty_iff.1 blank]
    · exact ends _

/-- Layout before a line adds nothing to what is kept. -/
theorem kept_layout {layout : List Char} (plain : ∀ c ∈ layout, isSpace c = true ∨ c = '\n')
    (atEnd : Bool) (cs : List Char) :
    kept false atEnd ((layout ++ cs).splitOn '\n') = kept false atEnd (cs.splitOn '\n') := by
  induction layout with
  | nil => rfl
  | cons c layout ih =>
    obtain ⟨here, plain⟩ := List.forall_mem_cons.1 plain
    rw [List.cons_append, List.splitOn_cons_eq_if_modifyHead, ← ih plain]
    obtain ⟨line, more, split⟩ :=
      List.exists_cons_of_ne_nil (List.splitOn_ne_nil '\n' (layout ++ cs))
    rw [split]
    rcases here with space | rfl
    · have other : c ≠ '\n' := by rintro rfl; cases space
      rw [if_neg (by simpa using other), List.modifyHead_cons]
      cases more <;> simp [kept, trims, trim_cons space]
    · simp [kept, trims, trim, trimEnd, trimStart, untab]

/-- The last line of a text can be written on. -/
theorem exists_splitOn_append (cs : List Char) : ∃ before last, ∀ more, '\n' ∉ more →
    (cs ++ more).splitOn '\n' = before ++ [last ++ more] := by
  induction cs with
  | nil => exact ⟨[], [], fun more plain => List.splitOn_eq_singleton plain⟩
  | cons c cs ih =>
    obtain ⟨before, last, split⟩ := ih
    by_cases feed : c = '\n'
    · refine ⟨[] :: before, last, fun more plain => ?_⟩
      rw [List.cons_append, List.splitOn_cons_eq_if_modifyHead, split more plain, if_pos (by simpa),
        List.cons_append]
    · cases before with
      | nil =>
        refine ⟨[], c :: last, fun more plain => ?_⟩
        rw [List.cons_append, List.splitOn_cons_eq_if_modifyHead, split more plain,
          if_neg (by simpa)]
        rfl
      | cons first before =>
        refine ⟨(c :: first) :: before, last, fun more plain => ?_⟩
        rw [List.cons_append, List.splitOn_cons_eq_if_modifyHead, split more plain,
          if_neg (by simpa)]
        rfl

/-- Space behind a line adds nothing to what is kept. -/
theorem kept_space {blank : List Char} (space : ∀ c ∈ blank, isSpace c = true) (atStart : Bool)
    (cs : List Char) :
    kept atStart false ((cs ++ blank).splitOn '\n') = kept atStart false (cs.splitOn '\n') := by
  obtain ⟨before, last, split⟩ := exists_splitOn_append cs
  have whole := split [] (by simp)
  rw [List.append_nil, List.append_nil] at whole
  have plain : '\n' ∉ blank := fun mem => by cases space _ mem
  rw [whole, split blank plain]
  have same (atStart : Bool) : trim atStart false (last ++ blank) = trim atStart false last :=
    trim_append space atStart last
  cases before with
  | nil => simp [kept, trims, same]
  | cons first before =>
    rw [kept_append (by simp) (by simp), kept_append (by simp) (by simp)]
    simp [kept, trims, same]

theorem not_return_of_layout {layout : List Char}
    (plain : ∀ c ∈ layout, isSpace c = true ∨ c = '\n') : '\r' ∉ layout := by
  intro mem
  rcases plain _ mem with space | feed
  · cases space
  · exact absurd feed (by decide)

/-- A stretch of layout with a line feed in it counts as one line break. -/
theorem joined_layout {before layout after : List Char}
    (plain : ∀ c ∈ layout, isSpace c = true ∨ c = '\n') (feed : '\n' ∈ layout)
    (noReturn : '\r' ∉ before ++ '\n' :: after) :
    joined (lines (before ++ layout ++ after)) = joined (lines (before ++ '\n' :: after)) := by
  have noReturnAlso : '\r' ∉ before ++ layout ++ after := by
    have noReturnHere := not_return_of_layout plain
    simp_all
  obtain ⟨blank, behind, rfl, first⟩ := List.eq_append_cons_of_mem feed
  have space : ∀ c ∈ blank, isSpace c = true := fun c mem =>
    (plain c (by simp [mem])).resolve_right fun same => first (same ▸ mem)
  have later : ∀ c ∈ behind, isSpace c = true ∨ c = '\n' := fun c mem => plain c (by simp [mem])
  have split : before ++ (blank ++ '\n' :: behind) ++ after
      = (before ++ blank) ++ '\n' :: (behind ++ after) := by simp
  rw [joined_eq, joined_eq, lines_eq noReturn, lines_eq noReturnAlso, split,
    List.splitOn_append_cons_self, List.splitOn_append_cons_self,
    kept_append (List.splitOn_ne_nil _ _) (List.splitOn_ne_nil _ _),
    kept_append (List.splitOn_ne_nil _ _) (List.splitOn_ne_nil _ _), kept_space space,
    kept_layout later]

/-- A text that was laid out anew: some of its line breaks have become longer stretches of spaces,
tabs and line breaks. -/
inductive Relaid : List Char → List Char → Prop where
  | nil : Relaid [] []
  | keep (c : Char) {cs relaid : List Char} (behind : Relaid cs relaid) :
      Relaid (c :: cs) (c :: relaid)
  | widen {layout cs relaid : List Char} (plain : ∀ c ∈ layout, isSpace c = true ∨ c = '\n')
      (feed : '\n' ∈ layout) (behind : Relaid cs relaid) : Relaid ('\n' :: cs) (layout ++ relaid)

theorem Relaid.refl (cs : List Char) : Relaid cs cs := by
  induction cs with
  | nil => exact .nil
  | cons c cs ih => exact .keep c ih

theorem Relaid.noReturn {cs relaid : List Char} (h : Relaid cs relaid) (noReturn : '\r' ∉ cs) :
    '\r' ∉ relaid := by
  induction h with
  | nil => exact noReturn
  | keep c _ ih => simp_all
  | widen plain feed _ ih =>
    have noReturnHere := not_return_of_layout plain
    simp_all

theorem joined_relaid {cs relaid : List Char} (h : Relaid cs relaid) (before : List Char)
    (noReturn : '\r' ∉ before ++ cs) :
    joined (lines (before ++ relaid)) = joined (lines (before ++ cs)) := by
  induction h generalizing before with
  | nil => rfl
  | @keep c cs relaid _ ih =>
    have rest := ih (before ++ [c]) (by simpa using noReturn)
    simpa using rest
  | @widen layout cs relaid plain feed behind ih =>
    have rest := ih (before ++ ['\n']) (by simpa using noReturn)
    have noReturnBehind : '\r' ∉ relaid := behind.noReturn fun mem => noReturn (by simp [mem])
    rw [← List.append_assoc, joined_layout plain feed (by simp_all)]
    simpa using rest

/-! ## What is left of a text -/

variable {spelling : List Char}

theorem trim_infix (atStart atEnd : Bool) (line : List Char) :
    trim atStart atEnd line <:+: untab line := by
  have start (line : List Char) : trimStart (· == ' ') line <:+: line :=
    (List.dropWhile_suffix _).isInfix
  have ending (line : List Char) : trimEnd (· == ' ') line <:+: line := by
    rw [trimEnd, ← List.reverse_infix, List.reverse_reverse]
    exact (List.dropWhile_suffix _).isInfix
  cases atStart <;> cases atEnd
  · exact (ending _).trans (start _)
  · exact start _
  · exact ending _
  · exact List.infix_rfl

theorem exists_of_mem_kept {atStart atEnd : Bool} {lines : List (List Char)} {line : List Char}
    (h : line ∈ kept atStart atEnd lines) : ∃ full ∈ lines, line <:+: untab full := by
  have part := (List.mem_filter.1 h).1
  clear h
  induction lines generalizing atStart with
  | nil => cases part
  | cons first more ih =>
    cases more with
    | nil => exact ⟨first, by simp, List.mem_singleton.1 part ▸ trim_infix _ _ first⟩
    | cons next more =>
      rcases List.mem_cons.1 part with rfl | part
      · exact ⟨first, by simp, trim_infix _ _ first⟩
      · obtain ⟨full, mem, inside⟩ := ih part
        exact ⟨full, List.mem_cons_of_mem _ mem, inside⟩

theorem infix_of_infix_untab {line : List Char} (apart : ' ' ∉ spelling)
    (h : spelling <:+: untab line) : spelling <:+: line := by
  obtain ⟨part, inside, rfl⟩ := List.infix_map_iff.1 h
  have same : part.map (fun c => if c = '\t' then ' ' else c) = part := by
    refine (List.map_congr_left fun c mem => ?_).trans (List.map_id part)
    rw [if_neg]
    · rfl
    · rintro rfl
      exact apart (List.mem_map.2 ⟨'\t', mem, rfl⟩)
  rwa [same]

/-- What has no space in it and is left of a text stands in one of its lines. -/
theorem exists_infix_of_joined {cs : List Char} (noReturn : '\r' ∉ cs) (apart : ' ' ∉ spelling)
    (some : spelling ≠ []) (h : spelling <:+: joined (lines cs)) :
    ∃ line ∈ cs.splitOn '\n', spelling <:+: line := by
  rw [joined_eq, lines_eq noReturn] at h
  obtain ⟨part, mem, inside⟩ := exists_infix_of_intercalate apart some h
  obtain ⟨line, mem, within⟩ := exists_of_mem_kept mem
  exact ⟨line, mem, infix_of_infix_untab apart (inside.trans within)⟩

theorem not_break_of_mem_joined {cs : List Char} {c : Char} (noReturn : '\r' ∉ cs)
    (h : c ∈ joined (lines cs)) : c ≠ '\n' ∧ c ≠ '\r' := by
  have alone : [c] <:+: joined (lines cs) := (List.singleton_infix_iff c _).2 h
  constructor
  · rintro rfl
    obtain ⟨line, mem, inside⟩ := exists_infix_of_joined noReturn (by decide) (by simp) alone
    exact absurd (not_of_mem_splitOnP mem _ (inside.subset List.mem_cons_self)) (by decide)
  · rintro rfl
    obtain ⟨line, mem, inside⟩ := exists_infix_of_joined noReturn (by decide) (by simp) alone
    exact noReturn ((inside.trans (infix_of_mem_splitOn mem)).subset (by simp))

end MarkupText

open CharacterReference MarkupText

theorem markupText?_eq_some {raw text : String} (h : markupText? raw = some text) :
    text.toList = decodeAll (joined (lines raw.toList)) := by
  unfold markupText? at h
  dsimp only at h
  split at h
  · cases h
  · cases h
    simp [decodeEntities]

/-- How a text between tags is laid out does not matter: spaces and tabs beside its line breaks, and
blank lines. Nor does it break a line, unless by a reference: it stands for a text without line
breaks whose references are written in it. -/
theorem markupText?_layout (raw : String) (noReturn : '\r' ∉ raw.toList) :
    (∀ relaid : String, Relaid raw.toList relaid.toList → markupText? relaid = markupText? raw) ∧
    ∀ text, markupText? raw = some text → ∃ flat, Replaced Known flat text.toList ∧
      (∀ c ∈ flat, c ≠ '\n' ∧ c ≠ '\r') ∧
      ∀ spelling c, Known spelling c → spelling <:+: flat → spelling <:+: raw.toList := by
  constructor
  · intro relaid h
    have same := joined_relaid h [] noReturn
    rw [List.nil_append, List.nil_append] at same
    simp only [markupText?, same]
  · intro text found
    refine ⟨joined (lines raw.toList), ?_, fun c mem => not_break_of_mem_joined noReturn mem, ?_⟩
    · rw [markupText?_eq_some found]
      exact replaced_decodeAll _
    · rintro spelling c ⟨signed, refers⟩ inside
      have apart : ' ' ∉ spelling := fun mem => absurd (refers.mem _ mem) (by decide)
      obtain ⟨body, rfl, -⟩ := refers.ampersand
      obtain ⟨line, mem, within⟩ := exists_infix_of_joined noReturn apart (by simp) inside
      exact within.trans (infix_of_mem_splitOn mem)

/-- A text of two lines with another tab, and with a blank line between them. -/
theorem markupText?_layout_blank : '\r' ∉ "R&amp;D\nlab".toList ∧
    Relaid "R&amp;D\nlab".toList "R&amp;D \n\t\n  lab".toList ∧
    markupText? "R&amp;D \n\t\n  lab" = markupText? "R&amp;D\nlab" ∧
    markupText? "R&amp;D\nlab" = some "R&D lab" := by
  have noReturn : '\r' ∉ "R&amp;D\nlab".toList := by decide
  have relaid : Relaid "R&amp;D\nlab".toList "R&amp;D \n\t\n  lab".toList := by
    have behind : Relaid ('\n' :: ['l', 'a', 'b'])
        ([' ', '\n', '\t', '\n', ' ', ' '] ++ ['l', 'a', 'b']) :=
      .widen (by simp [isSpace]) (by decide) (.refl _)
    exact .keep _ (.keep _ (.keep _ (.keep _ (.keep _ (.keep _ (.keep _ behind))))))
  exact ⟨noReturn, relaid, (markupText?_layout _ noReturn).1 _ relaid, by decide +kernel⟩

end TsxPreview
