import TsxPreview.Proofs.Syntax.Formulas.RoundTrip

/-!
The trees of files are low, chains aside: what nests is bounded by the limit on nesting. A chain goes
on as long as its text, and with it the tree.
-/

namespace TsxPreview

/-! ## Low trees -/

/-- `x.x.x`, with so many dots. -/
def Expr.chain : Nat → Expr
  | 0 => .ident Span.start "x"
  | n + 1 => .member Span.start (chain n) (.named "x") false

theorem Expr.formula_chain (n : Nat) : Formula (chain n) := by
  induction n with
  | zero => exact .ident (by decide)
  | succ n ih => exact .named (by decide) ih

/-- A chain has a step for each of its members, wherever it stands. -/
theorem Expr.le_of_alike_chain {n k : Nat} {e : Expr} (alike : e.Alike (chain n))
    (h : (SyntaxNode.expr e).Height (fun _ => 0) k) : n ≤ k := by
  induction n generalizing e k with
  | zero => exact Nat.zero_le k
  | succ n ih =>
    cases e with
    | member span object key optional =>
      obtain ⟨k, rfl, lower⟩ := h.of_mem (.head _)
      have object : object.Alike (chain n) := by
        have same := alike
        simp only [Expr.Alike, chain, withoutSpans, Expr.member.injEq] at same
        exact same.2.1
      exact Nat.succ_le_succ (ih object lower)
    | _ => cases alike

open TsxPreview.Parser

/-- A loop reads all of the chain, and opens no construct for it. -/
theorem Expr.carries_chain {i : Input} (plain : i.Plain) (n : Nat) :
    Opens opensOperand (chain n).kinds ∧ Carries i 0 (chain n).kinds (chain n) anything 0
      Grammar.callRound Grammar.callOrMember := by
  induction n with
  | zero => exact (Readable.ident plain (by decide)).chain (by decide)
  | succ n ih =>
    have bare : decide (Printer.level (chain n) < Printer.callLevel) = false := by
      cases n <;> rfl
    have kinds : (chain (n + 1)).kinds = (chain n).kinds ++ keyKinds false (.named "x") := by
      rw [chain, Expr.kinds, bare]
      rfl
    rw [kinds]
    exact ⟨ih.1.append, ih.2.named plain⟩

/-- Chains of all lengths are accepted. -/
theorem Parsed.ofFile_chain (n : Nat) (path : String) :
    ∃ m, Parsed.ofFile ⟨path, (Module.constant (.chain n)).print⟩ = ⟨some m, .empty⟩ ∧
      m.Declares (.chain n) := by
  have bare : decide (Printer.level (.chain n) < Printer.assignLevel) = false := by cases n <;> rfl
  refine Parsed.ofFile_constant (d := 0) path ?_ (Expr.formula_chain n).calm (by decide)
    fun i plain => ?_
  · rw [bare]
    exact (Expr.formula_chain n).spelled 0 _ (.of_mem (by simp))
  · obtain ⟨opens, chain⟩ := Expr.carries_chain plain n
    exact (Readable.of_chain plain opens chain).assignment (by decide)

end TsxPreview
