import Mathlib.Data.List.TakeWhile
import TsxPreview.Proofs.Repair.Lighter

/-!
What stripping fences leaves: the lines of the text without some that are a fence or name a language.
No fence is among them, and a second run finds nothing to remove.
-/

namespace TsxPreview

/-! ## Lines -/

/-- The lines of a text: each ends with its only line feed, the last one may lack it. -/
inductive AreLines : List (List Char) → Prop where
  | nil : AreLines []
  | last {body : List Char} (solid : body ≠ []) (plain : '\n' ∉ body) : AreLines [body]
  | cons {body : List Char} {rest : List (List Char)} (plain : '\n' ∉ body) (lines : AreLines rest) :
      AreLines ((body ++ ['\n']) :: rest)

/-- A character that ends no line stands at the beginning of the first line. -/
theorem splitInclusive_cons {c : Char} (h : c ≠ '\n') (rest : List Char) :
    splitInclusive (c :: rest) =
      match splitInclusive rest with
      | [] => [[c]]
      | line :: lines => (c :: line) :: lines := by
  conv => lhs; unfold splitInclusive
  split
  · contradiction
  · rename_i eq
    exact absurd (List.cons.inj eq).1 h
  · rename_i eq
    cases eq
    cases rest with
    | nil => rfl
    | cons d rest => cases splitInclusive (d :: rest) <;> rfl

theorem areLines_splitInclusive (cs : List Char) : AreLines (splitInclusive cs) := by
  induction cs with
  | nil => exact .nil
  | cons c rest ih =>
    by_cases h : c = '\n'
    · subst h
      exact @AreLines.cons [] _ List.not_mem_nil ih
    · have plain {body : List Char} (not : '\n' ∉ body) : '\n' ∉ c :: body := by
        simpa [not] using fun eq => h eq.symm
      rw [splitInclusive_cons h]
      generalize splitInclusive rest = lines at ih
      cases ih with
      | nil => exact .last (List.cons_ne_nil c []) (plain List.not_mem_nil)
      | last solid not => exact .last (List.cons_ne_nil c _) (plain not)
      | cons not lines => exact .cons (plain not) lines

theorem splitInclusive_of_not_mem {body : List Char} (solid : body ≠ []) (plain : '\n' ∉ body) :
    splitInclusive body = [body] := by
  induction body with
  | nil => exact absurd rfl solid
  | cons c body ih =>
    rw [List.mem_cons, not_or] at plain
    rw [splitInclusive_cons (Ne.symm plain.1)]
    cases body with
    | nil => rfl
    | cons d body => rw [ih (List.cons_ne_nil d body) plain.2]

theorem splitInclusive_append {body : List Char} (plain : '\n' ∉ body) (rest : List Char) :
    splitInclusive (body ++ '\n' :: rest) = (body ++ ['\n']) :: splitInclusive rest := by
  induction body with
  | nil => rfl
  | cons c body ih =>
    rw [List.mem_cons, not_or] at plain
    rw [List.cons_append, splitInclusive_cons (Ne.symm plain.1), ih plain.2]
    rfl

namespace AreLines

/-- Put together, lines are found again. -/
theorem splitInclusive_flatten {lines : List (List Char)} (h : AreLines lines) :
    splitInclusive lines.flatten = lines := by
  induction h with
  | nil => rfl
  | last solid plain => rw [List.flatten_singleton, splitInclusive_of_not_mem solid plain]
  | cons plain _ ih =>
    rw [List.flatten_cons, List.append_assoc, List.singleton_append, splitInclusive_append plain, ih]

theorem of_sublist {kept lines : List (List Char)} (sub : kept.Sublist lines) (h : AreLines lines) :
    AreLines kept := by
  induction h generalizing kept with
  | nil => rw [List.sublist_nil.mp sub]; exact .nil
  | last solid plain =>
    cases sub with
    | cons _ sub => rw [List.sublist_nil.mp sub]; exact .nil
    | cons_cons _ sub => rw [List.sublist_nil.mp sub]; exact .last solid plain
  | cons plain _ ih =>
    cases sub with
    | cons _ sub => exact ih sub
    | cons_cons _ sub => exact .cons plain (ih sub)

end AreLines

/-- The second list is the first without some items, each of which has a property. -/
inductive LeavesOut {α : Type} (p : α → Prop) : List α → List α → Prop where
  | nil : LeavesOut p [] []
  | keep {before after : List α} (a : α) (rest : LeavesOut p before after) :
      LeavesOut p (a :: before) (a :: after)
  | drop {before after : List α} {a : α} (h : p a) (rest : LeavesOut p before after) :
      LeavesOut p (a :: before) after

theorem LeavesOut.sublist {α : Type} {p : α → Prop} {before after : List α}
    (h : LeavesOut p before after) : after.Sublist before := by
  induction h with
  | nil => exact .slnil
  | keep a _ ih => exact ih.cons_cons a
  | drop _ _ ih => exact ih.cons _

/-! ## Fences -/

namespace Repair

namespace Fences

/-- A fence is white space, three backticks or tildes, a language and white space. -/
theorem isFence_iff {line : List Char} :
    isFence line = true ↔ ∃ indent mark info rest, line = indent ++ mark ++ info ++ rest ∧
      (mark = ['`', '`', '`'] ∨ mark = ['~', '~', '~']) ∧
      (∀ c ∈ indent, isBlank c = true) ∧ (∀ c ∈ info, isInfoChar c = true) ∧
      ∀ c ∈ rest, isBlank c = true := by
  constructor
  · intro h
    have start : line = line.takeWhile isBlank ++ trimBlankStart line :=
      List.takeWhile_append_dropWhile.symm
    have parts (mark : List Char) {rest : List Char} (eq : trimBlankStart line = mark ++ rest)
        (h : (rest.dropWhile isInfoChar).all isBlank = true)
        (marks : mark = ['`', '`', '`'] ∨ mark = ['~', '~', '~']) :=
      show ∃ indent mark info rest, line = indent ++ mark ++ info ++ rest ∧
          (mark = ['`', '`', '`'] ∨ mark = ['~', '~', '~']) ∧
          (∀ c ∈ indent, isBlank c = true) ∧ (∀ c ∈ info, isInfoChar c = true) ∧
          ∀ c ∈ rest, isBlank c = true from
        ⟨line.takeWhile isBlank, mark, rest.takeWhile isInfoChar, rest.dropWhile isInfoChar,
          by rwa [List.append_assoc, List.takeWhile_append_dropWhile, List.append_assoc, ← eq], marks,
          fun _ => List.mem_takeWhile_imp, fun _ => List.mem_takeWhile_imp, List.all_eq_true.mp h⟩
    unfold isFence at h
    split at h
    · rename_i rest eq
      exact parts ['`', '`', '`'] eq h (.inl rfl)
    · rename_i rest eq
      exact parts ['~', '~', '~'] eq h (.inr rfl)
    · cases h
  · rintro ⟨indent, mark, info, rest, rfl, marks, blank, word, tail⟩
    have behind : ((info ++ rest).dropWhile isInfoChar).all isBlank = true := by
      rw [List.dropWhile_append_of_pos word]
      exact List.all_eq_true.mpr fun c mem => tail c ((List.dropWhile_sublist _).subset mem)
    have start : trimBlankStart (indent ++ mark ++ info ++ rest) = mark ++ (info ++ rest) := by
      unfold trimBlankStart
      rw [List.append_assoc, List.append_assoc, List.dropWhile_append_of_pos blank]
      rcases marks with rfl | rfl <;> rfl
    unfold isFence
    rw [start]
    rcases marks with rfl | rfl <;> exact behind

variable (afterFence seenCode : Bool) (lines : List (List Char))

theorem keep_leavesOut :
    LeavesOut (fun line => isFence line = true ∨ isLanguage line = true) lines
      (keep afterFence seenCode lines) := by
  induction lines generalizing afterFence seenCode with
  | nil => exact .nil
  | cons line rest ih =>
    unfold keep
    split
    · rename_i fence
      exact .drop (.inl fence) (ih true seenCode)
    · split
      · rename_i language
        exact .drop (.inr (Bool.and_eq_true_iff.mp language).1) (ih afterFence seenCode)
      · split
        · exact .keep line (ih afterFence seenCode)
        · exact .keep line (ih false true)

theorem isFence_of_mem_keep {line : List Char} (mem : line ∈ keep afterFence seenCode lines) :
    isFence line = false := by
  induction lines generalizing afterFence seenCode with
  | nil => cases mem
  | cons first rest ih =>
    unfold keep at mem
    split at mem
    · exact ih true seenCode mem
    · rename_i code
      have stays {after seen : Bool} (mem : line ∈ first :: keep after seen rest) :
          isFence line = false := by
        cases mem with
        | head => exact Bool.eq_false_iff.mpr code
        | tail _ mem => exact ih after seen mem
      split at mem
      · exact ih afterFence seenCode mem
      · split at mem <;> exact stays mem

/-- What stays once stays again: with fewer lines dropped right after a fence, fewer names of
languages stand there, and what comes first is code only if it was before. -/
theorem keep_keep :
    keep false seenCode (keep afterFence seenCode lines) = keep afterFence seenCode lines := by
  induction lines generalizing afterFence seenCode with
  | nil => rfl
  | cons line rest ih =>
    rw [keep]
    split
    · exact ih true seenCode
    · rename_i code
      split
      · exact ih afterFence seenCode
      · rename_i language
        have language : (isLanguage line && (false || !seenCode)) ≠ true := by
          revert language
          cases isLanguage line <;> cases afterFence <;> cases seenCode <;> decide
        split
        · rename_i blank
          rw [keep, if_neg code, if_neg language, if_pos blank, ih]
        · rename_i solid
          rw [keep, if_neg code, if_neg language, if_neg solid, ih]

end Fences

/-- The lines of what is left are those that stay. -/
theorem splitInclusive_of_stripFences {text result : String} (h : stripFences text = some result) :
    splitInclusive result.toList = Fences.keep false false (splitInclusive text.toList) := by
  unfold stripFences at h
  dsimp only at h
  split at h
  · cases h
  · cases h
    rw [String.toList_ofList]
    exact ((areLines_splitInclusive text.toList).of_sublist
      (Fences.keep_leavesOut false false _).sublist).splitInclusive_flatten

/-- Stripping fences removes nothing but fences and names of languages, and every fence. -/
theorem stripFences_leavesOut {text result : String} (h : stripFences text = some result) :
    LeavesOut (fun line => Fences.isFence line = true ∨ Fences.isLanguage line = true)
        (splitInclusive text.toList) (splitInclusive result.toList) ∧
      (∀ line ∈ splitInclusive result.toList, Fences.isFence line = false) ∧
      stripFences result = none := by
  have lines := splitInclusive_of_stripFences h
  refine ⟨?_, ?_, ?_⟩
  · rw [lines]
    exact Fences.keep_leavesOut false false _
  · rw [lines]
    exact fun line => Fences.isFence_of_mem_keep false false _
  · unfold stripFences
    dsimp only
    rw [lines, Fences.keep_keep, if_pos rfl]

/-- Fences of both kinds that match nothing, and a name of a language behind each and in the code. -/
theorem stripFences_leavesOut_unbalanced :
    stripFences "```tsx\nTSX\nconst a = 1;\njs\n  ~~~ \n\nJs\nf(a);\n```" =
        some "const a = 1;\njs\n\nf(a);\n" ∧
      stripFences "const a = 1;\njs\n\nf(a);\n" = none :=
  have strips : stripFences "```tsx\nTSX\nconst a = 1;\njs\n  ~~~ \n\nJs\nf(a);\n```" =
      some "const a = 1;\njs\n\nf(a);\n" := by decide +kernel
  ⟨strips, (stripFences_leavesOut strips).2.2⟩

end Repair

end TsxPreview
