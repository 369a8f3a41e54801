import Mathlib.Logic.Function.Iterate
import TsxPreview.Proofs.Repair.Lighter
import TsxPreview.Proofs.Repair.Nesting
import TsxPreview.Repair.Sanitize

/-!
Repairing a text a second time. A repair that does anything makes the text shrink: it loses weight,
or a declaration moves into braces and no weight is gained. So repairs cannot undo each other, a text
is stable exactly when none of them finds anything to do in it, and repairing again and again comes to
such a text. One run need not: a repair can leave something to do for one that was made before it.
-/

namespace TsxPreview

/-! ## Texts that shrink -/

/-- The text `a` is lighter than `b`, or as light with fewer declarations outside braces. -/
def Shrinks (a b : String) : Prop :=
  weight a.toList < weight b.toList ∨
    weight a.toList ≤ weight b.toList ∧ (Census.ofText a).topLevel < (Census.ofText b).topLevel

theorem Shrinks.irrefl (a : String) : ¬ Shrinks a a := by
  rintro (lt | ⟨-, lt⟩)
  · exact Nat.lt_irrefl _ lt
  · exact Nat.lt_irrefl _ lt

theorem Shrinks.trans {a b c : String} (h : Shrinks a b) (k : Shrinks b c) : Shrinks a c := by
  unfold Shrinks at *
  omega

/-- No text can shrink for ever. -/
theorem Shrinks.wf : WellFounded Shrinks := by
  refine Subrelation.wf ?_ (invImage (fun t : String => (weight t.toList, (Census.ofText t).topLevel))
    (Prod.lex Nat.lt_wfRel Nat.lt_wfRel)).wf
  intro a b h
  rcases h with lt | ⟨le, lt⟩
  · exact Prod.Lex.left _ _ lt
  · rcases Nat.lt_or_eq_of_le le with lt' | eq
    · exact Prod.Lex.left _ _ lt'
    · show Prod.Lex _ _ (weight a.toList, _) (weight b.toList, _)
      rw [eq]
      exact Prod.Lex.right _ lt

namespace Sanitized

/-! ## One repair -/

/-- A repair keeps the texts in which it has nothing to do and makes all others shrink. -/
structure Repairs (repair : Sanitized → Sanitized) (idle : String → Prop) : Prop where
  keeps : ∀ s, idle s.text → (repair s).text = s.text
  shrinks : ∀ s, ¬ idle s.text → Shrinks (repair s).text s.text

variable {f g : Sanitized → Sanitized} {p q : String → Prop}

/-- Two repairs have nothing to do when neither has. -/
theorem Repairs.comp (hf : Repairs f p) (hg : Repairs g q) :
    Repairs (fun s => g (f s)) fun text => p text ∧ q text := by
  refine ⟨fun s h => ?_, fun s h => ?_⟩
  · have first := hf.keeps s h.1
    exact (hg.keeps (f s) (first ▸ h.2)).trans first
  · by_cases first : p s.text
    · have same := hf.keeps s first
      have busy : ¬ q (f s).text := fun second => h ⟨first, same ▸ second⟩
      exact same ▸ hg.shrinks (f s) busy
    · have less := hf.shrinks s first
      by_cases second : q (f s).text
      · exact (hg.keeps (f s) second).symm ▸ less
      · exact (hg.shrinks (f s) second).trans less

theorem Repairs.onlyIf (h : Repairs f p) (wanted : Bool) :
    Repairs (onlyIf wanted f) fun text => wanted = true → p text := by
  cases wanted with
  | false => exact ⟨fun _ _ => rfl, fun _ busy => absurd (fun no => nomatch no) busy⟩
  | true => exact ⟨fun s idle => h.keeps s (idle rfl), fun s busy => h.shrinks s fun idle =>
      busy fun _ => idle⟩

theorem repairs_fences : Repairs fences fun text => Repair.stripFences text = none := by
  refine ⟨fun s idle => ?_, fun s busy => ?_⟩
  · unfold fences
    rw [idle]
  · unfold fences
    split
    · rename_i result found
      exact Or.inl (Repair.weight_stripFences found)
    · rename_i none
      exact absurd none busy

theorem repairs_imports (aliases : List String) :
    Repairs (imports aliases) fun text => Repair.removeExternalImports text aliases = none := by
  refine ⟨fun s idle => ?_, fun s busy => ?_⟩
  · unfold imports
    rw [idle]
  · unfold imports
    split
    · rename_i r found
      exact Or.inl (Repair.weight_removeExternalImports found)
    · rename_i none
      exact absurd none busy

theorem repairs_prose : Repairs prose fun text => Repair.stripProse text = none := by
  refine ⟨fun s idle => ?_, fun s busy => ?_⟩
  · unfold prose
    rw [idle]
  · unfold prose
    split
    · rename_i r found
      exact Or.inl (Repair.weight_stripProse found)
    · rename_i none
      exact absurd none busy

end Sanitized

/-- A guarded repair changes nothing: there is nothing to revise, or the revision is refused. -/
def Revision.Idle (r : Revision) : Prop := ∀ text fix, r ≠ .applied text fix

namespace Sanitized

theorem repairs_revise {revise' : String → Revision}
    (shrinks : ∀ text result fix, revise' text = .applied result fix → Shrinks result text) :
    Repairs (revise revise') fun text => (revise' text).Idle := by
  refine ⟨fun s idle => ?_, fun s busy => ?_⟩
  · unfold revise
    split
    · rfl
    · rename_i text fix found
      exact absurd found (idle text fix)
    · rfl
  · unfold revise
    split
    · rename_i found
      exact absurd (fun _ _ => found ▸ Revision.noConfusion) busy
    · rename_i found
      exact shrinks _ _ _ found
    · rename_i found
      exact absurd (fun _ _ => found ▸ Revision.noConfusion) busy

end Sanitized

/-! ## All repairs -/

/-- None of the repairs that are wanted finds anything to do in a text. -/
structure Settled (config : RepairConfig) (aliases : List String) (profile : Profile)
    (text : String) : Prop where
  fences : config.stripFences = true → Repair.stripFences text = none
  imports : profile = .entry → config.removeExternalImports = true →
    Repair.removeExternalImports text aliases = none
  annotations : profile = .entry → config.stripAnnotations = true →
    (Repair.stripAnnotations text).Idle
  prose : config.stripProse = true → Repair.stripProse text = none
  helpers : profile = .entry → config.nestHelpers = true → (Repair.nestHelpers text).Idle

variable (config : RepairConfig) (aliases : List String) (profile : Profile) (text : String)

/-- Repairs keep a settled text and make any other one shrink. -/
theorem sanitize_spec :
    (Settled config aliases profile text →
      (sanitize config aliases profile text).text = text) ∧
    (¬ Settled config aliases profile text →
      Shrinks (sanitize config aliases profile text).text text) := by
  have fences := Sanitized.repairs_fences.onlyIf config.stripFences
  have imports := (Sanitized.repairs_imports aliases).onlyIf
    (profile = .entry && config.removeExternalImports)
  have annotations := (Sanitized.repairs_revise fun _ _ _ found =>
    Or.inl (Repair.weight_stripAnnotations found)).onlyIf (profile = .entry && config.stripAnnotations)
  have prose := Sanitized.repairs_prose.onlyIf config.stripProse
  have helpers := (Sanitized.repairs_revise fun _ _ _ found =>
    Or.inr (Repair.nestHelpers_spec found)).onlyIf (profile = .entry && config.nestHelpers)
  -- no two of them can undo each other
  have all := (((fences.comp imports).comp annotations).comp prose).comp helpers
  simp only [Bool.and_eq_true, decide_eq_true_eq, and_imp] at all
  refine ⟨fun h => ?_, fun h => ?_⟩
  · exact all.keeps (.ofText text)
      ⟨⟨⟨⟨h.fences, h.imports⟩, h.annotations⟩, h.prose⟩, h.helpers⟩
  · refine all.shrinks (.ofText text) fun idle => h ?_
    obtain ⟨⟨⟨⟨fences, imports⟩, annotations⟩, prose⟩, helpers⟩ := idle
    exact ⟨fences, imports, annotations, prose, helpers⟩

theorem sanitize_eq_self_iff :
    (sanitize config aliases profile text).text = text ↔ Settled config aliases profile text := by
  obtain ⟨keeps, shrinks⟩ := sanitize_spec config aliases profile text
  refine ⟨fun same => ?_, keeps⟩
  by_cases settled : Settled config aliases profile text
  · exact settled
  · have less := shrinks settled
    rw [same] at less
    exact absurd less (Shrinks.irrefl text)

/-- A second run gives the text of the first exactly when the first leaves nothing to do. -/
theorem sanitize_idempotent_iff :
    (sanitize config aliases profile (sanitize config aliases profile text).text).text
        = (sanitize config aliases profile text).text ↔
      Settled config aliases profile (sanitize config aliases profile text).text :=
  sanitize_eq_self_iff config aliases profile _

/-- A line that names a language is code while an import stands before it. The import goes, and then
the line is the first one and goes too. -/
theorem sanitize_not_idempotent :
    let once := (sanitize {} [] .entry
      "import React from \"react\";\ntsx\nexport default () => null;\n").text
    (sanitize {} [] .entry once).text ≠ once := by
  decide +kernel

/-- Repairing over and over comes to a text that stays. -/
theorem exists_settled :
    ∃ n, Settled config aliases profile
      ((fun t => (sanitize config aliases profile t).text)^[n] text) := by
  induction text using Shrinks.wf.induction with
  | _ text ih =>
    by_cases settled : Settled config aliases profile text
    · exact ⟨0, settled⟩
    · obtain ⟨n, later⟩ := ih _ ((sanitize_spec config aliases profile text).2 settled)
      refine ⟨n + 1, ?_⟩
      rw [Function.iterate_succ_apply]
      exact later

end TsxPreview
