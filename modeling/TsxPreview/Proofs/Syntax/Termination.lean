import TsxPreview.Proofs.Lexer.Progress
import TsxPreview.Proofs.Syntax.Progress.Statements

/-!
Reading a file ends. A nonterminal enters only a few others before a token is taken, so that fuel
for a few steps to each token that is left is enough for it, wherever it starts and whatever stands
there.
-/

namespace TsxPreview

namespace Parser

/-! ## Fuel -/

/-- Fuel for the tokens behind the position `m`, if `rank` nonterminals may be entered before one of
them is taken. -/
def Enough (i : Input) (fuel m rank : Nat) : Prop := 16 * (i.tokens.size - m) + rank < fuel

variable {i : Input} {m fuel rank : Nat} {g : Grammar}

/-- With enough fuel a nonterminal takes a token or fails. Those with a higher rank enter the others
before a token is taken. -/
structure Grammar.Fueled (i : Input) (fuel m : Nat) (g : Grammar) : Prop where
  statement : Enough i fuel m 4 → ∀ {P Q}, Runs i m P g.statement Q
  assignment : Enough i fuel m 3 → ∀ {P Q}, Runs i m P g.assignment Q
  binary : Enough i fuel m 2 → ∀ {P Q} least, Runs i m P (g.binary least) Q
  type : Enough i fuel m 2 → ∀ {P Q}, Runs i m P g.type Q
  unary : Enough i fuel m 1 → ∀ {P Q}, Runs i m P g.unary Q
  postfixType : Enough i fuel m 1 → ∀ {P Q}, Runs i m P g.postfixType Q
  newExpr : Enough i fuel m 0 → ∀ {P Q}, (∀ k, P k → k ≠ .eof) → Runs i m P g.newExpr Q
  pattern : Enough i fuel m 0 → ∀ {P Q}, Runs i m P g.pattern Q
  element : Enough i fuel m 0 → ∀ {P Q}, Runs i m P g.element Q
  primaryType : Enough i fuel m 0 → ∀ {P Q}, Runs i m P g.primaryType Q

theorem Enough.of_le {lower : Nat} (h : Enough i fuel m rank) (le : lower ≤ rank) :
    Enough i fuel m lower := by
  unfold Enough at *
  omega

theorem Grammar.Fueled.proceeds (h : g.Fueled i fuel m) (closed : i.Closed)
    (enough : Enough i fuel m 4) : g.Proceeds i m where
  closed := closed
  statement := h.statement enough
  assignment := h.assignment (enough.of_le (by decide))
  binary := h.binary (enough.of_le (by decide))
  unary := h.unary (enough.of_le (by decide))
  newExpr := h.newExpr (enough.of_le (by decide))
  pattern := h.pattern (enough.of_le (by decide))
  element := h.element (enough.of_le (by decide))
  type := h.type (enough.of_le (by decide))
  postfixType := h.postfixType (enough.of_le (by decide))
  primaryType := h.primaryType (enough.of_le (by decide))

/-- A nonterminal spends one step on the way to those that it enters before a token is taken, and
there is fuel for all of them behind a token. -/
theorem runs_of_enough (closed : i.Closed) (lower : ∀ m, (grammar fuel).Fueled i fuel m)
    (enough : Enough i (fuel + 1) m rank) {α : Type} {P : TokenKind → Prop} {p : Parser α}
    {Q : α → Prop} (body : (grammar fuel).Proceeds i (m + 1) → Runs i m P p Q) :
    Runs i m P p Q := by
  by_cases past : i.tokens.size ≤ m
  · exact .of_size_le past
  · refine body ((lower (m + 1)).proceeds closed ?_)
    unfold Enough at *
    omega

theorem grammar_fueled (closed : i.Closed) (fuel m : Nat) : (grammar fuel).Fueled i fuel m := by
  induction fuel generalizing m with
  | zero => constructor <;> exact fun enough => absurd enough (Nat.not_lt_zero _)
  | succ fuel ih =>
    have before {lower rank : Nat} (enough : Enough i (fuel + 1) m rank) (less : lower < rank) :
        Enough i fuel m lower := by
      unfold Enough at *
      omega
    exact {
      statement := fun enough => runs_of_enough closed ih enough fun ready =>
        ready.statementBody ((ih m).assignment (before enough (by decide)))
      assignment := fun enough => runs_of_enough closed ih enough fun ready =>
        ready.assignmentBody ((ih m).binary (before enough (by decide)))
      binary := fun enough _ _ least => runs_of_enough closed ih enough fun ready =>
        ready.binaryBody least ((ih m).unary (before enough (by decide)))
      type := fun enough => runs_of_enough closed ih enough fun ready =>
        ready.typeBody ((ih m).postfixType (before enough (by decide)))
      unary := fun enough => runs_of_enough closed ih enough fun ready =>
        ready.unaryBody ((ih m).element (before enough (by decide)))
          ((ih m).newExpr (before enough (by decide)))
      postfixType := fun enough => runs_of_enough closed ih enough fun ready =>
        ready.postfixTypeBody ((ih m).primaryType (before enough (by decide)))
      newExpr := fun enough _ _ live => runs_of_enough closed ih enough fun ready =>
        ready.newBody live
      pattern := fun enough => runs_of_enough closed ih enough fun ready => ready.patternBody
      element := fun enough => runs_of_enough closed ih enough fun ready => ready.elementBody
      primaryType := fun enough => runs_of_enough closed ih enough fun ready =>
        ready.primaryTypeBody }

/-! ## Readers that do not fail -/

def Outcome.Fails {α : Type} : Outcome α → Prop
  | .failed _ => True
  | _ => False

/-- A reader that never fails: a failure within it is caught. -/
def Unfailing {α : Type} (p : Parser α) : Prop := ∀ i s, ¬ (p i s).Fails

namespace Unfailing

variable {α β γ : Type} {p q : Parser α}

theorem pure (a : α) : Unfailing (Pure.pure a : Parser α) := fun _ _ => id

theorem ite {c : Prop} [Decidable c] (hp : Unfailing p) (hq : Unfailing q) :
    Unfailing (if c then p else q) := by
  split
  · exact hp
  · exact hq

theorem bind {f : α → Parser β} (hp : Unfailing p) (hf : ∀ a, Unfailing (f a)) :
    Unfailing (p >>= f) := by
  intro i s
  have first := hp i s
  change ¬ (Bind.bind p f i s).Fails
  simp only [Bind.bind]
  cases h : p i s with
  | parsed a t => exact hf a i t
  | failed t => exact absurd (h ▸ trivial) first
  | exhausted t => exact id

theorem look (g : Input → State → α) : Unfailing (look g) := fun _ _ => id

theorem advance : Unfailing advance := fun _ _ => id

theorem report (code : ErrorCode) (message : String) : Unfailing (report code message) :=
  fun _ _ => id

theorem attempt (p : Parser α) : Unfailing (attempt p) := by
  intro i s
  unfold Parser.attempt
  split <;> exact id

theorem loop {body : β → Parser (Round β γ)} (h : ∀ acc, Unfailing (body acc)) (acc : β) :
    Unfailing (loop acc body) := by
  have rounds (fuel : Nat) (acc : β) : Unfailing (rounds body fuel acc) := by
    induction fuel generalizing acc with
    | zero => exact fun _ _ => id
    | succ fuel ih =>
      refine bind (look _) fun _ => bind (h acc) fun round => ?_
      cases round with
      | again acc => exact bind (look _) fun _ => ite (ih acc) fun _ _ => id
      | done result => exact pure _
  exact fun i => rounds _ acc i

theorem synchronize : Unfailing synchronize := by
  refine bind (look _) fun start => loop (fun _ => bind (look _) fun _ => ?_) _
  refine bind (look _) fun _ => ite (pure _) (ite (bind advance fun _ => pure _) (ite (pure _) ?_))
  exact bind advance fun _ => pure _

theorem module (g : Grammar) : Unfailing g.module := by
  refine bind (look _) fun _ => bind (loop (fun acc => ?_) _) fun _ =>
    bind (bind (look _) fun _ => pure _) fun _ => pure _
  refine bind (bind (look _) fun _ => pure _) fun _ => bind (look _) fun _ => ite (pure _) ?_
  refine bind (bind (look _) fun _ => pure _) fun _ => ite ?_ ?_
  · exact bind (report _ _) fun _ => bind advance fun _ => pure _
  · refine bind (attempt _) fun stmt => ?_
    cases stmt with
    | some stmt => exact pure _
    | none => exact bind synchronize fun _ => pure _

end Unfailing

/-! ## What is read of a file -/

/-- What the parser is given of a file. -/
def Input.ofFile (file : SourceFile) : Input := ⟨file, (TokenStream.ofFile file).tokens.toArray⟩

theorem Input.closed_ofFile (file : SourceFile) : (ofFile file).Closed := by
  obtain ⟨code, eof, tokens, kind, -⟩ := (TokenStream.tiles file).ends
  intro n live
  simp only [kindAt, ofFile, tokens, List.getElem?_toArray, List.size_toArray, List.length_append,
    List.length_singleton] at live ⊢
  rcases Nat.lt_trichotomy n code.length with lt | rfl | gt
  · omega
  · simp [kind] at live
  · simp [List.getElem?_eq_none (show (code ++ [eof]).length ≤ n by simp; omega)] at live

theorem Input.size_ofFile (file : SourceFile) : 0 < (ofFile file).tokens.size := by
  obtain ⟨code, eof, tokens, -, -⟩ := (TokenStream.tiles file).ends
  simp [ofFile, tokens]

/-- Every reader, wherever it starts from `m` on, proceeds. -/
structure Grammar.Readers (i : Input) (m : Nat) (g : Grammar) : Prop where
  types : g.TypeReaders i m
  functions : g.FunctionReaders i m
  markup : g.MarkupReaders i m
  expressions : g.ExpressionReaders i m
  statements : g.StatementReaders i m

theorem Grammar.Proceeds.readers (ready : g.Proceeds i m) : g.Readers i m where
  types := ready.typeReaders
  functions := ready.functionReaders
  markup := ready.markupReaders
  expressions := ready.expressionReaders
  statements := ready.statementReaders

end Parser

/-- Reading a file ends. -/
structure ReadingEnds (file : SourceFile) : Prop where
  /-- A step of the lexer, in whatever state, takes a byte or ends the stream. -/
  step (s : Lexer.State) : (Lexer.step s).1.kind = .eof ∨
    s.cursor.offset < (Lexer.step s).2.cursor.offset ∧ (Lexer.step s).2.left < s.left
  loops : Lexer.LoopsEnd
  /-- The fuel of the lexer is more than enough. -/
  lexed (fuel : Nat) : file.text.toList.length < fuel →
    Lexer.run fuel (Lexer.State.ofFile file) =
      Lexer.run (file.text.toList.length + 2) (Lexer.State.ofFile file)
  /-- A loop of the parser that does not give out takes a token in every round that asks for
  another. -/
  rounds {i : Parser.Input} {β γ : Type} {body : β → Parser (Parser.Round β γ)} {fuel : Nat}
    {acc acc' : β} {s t : Parser.State} :
    (∀ u, Parser.rounds body (fuel + 1) acc i s ≠ .exhausted u) →
    body acc i s = .parsed (.again acc') t → s.pos < t.pos ∧
      Parser.rounds body (fuel + 1) acc i s = Parser.rounds body fuel acc' i t
  /-- Wherever a reader of the parser starts, with fuel for the tokens that are left, it does not
  give out. It stops at or behind the place, with as many constructs open as there were, and takes a
  token on success where that is said of it. -/
  readers (m fuel : Nat) : Parser.Enough (Parser.Input.ofFile file) fuel m 4 →
    (Parser.grammar fuel).Readers (Parser.Input.ofFile file) m
  /-- The fuel of the parser is enough for all tokens, and there is a tree whatever stands there. -/
  parsed : ∃ tree s, Parser.parseTokens (Parser.Input.ofFile file) = .parsed tree s ∧ s.depth = 0

open TsxPreview.Parser in
/-- Whatever a file holds, reading it ends. -/
theorem readingEnds (file : SourceFile) : ReadingEnds file := by
  have closed := Input.closed_ofFile file
  have readers (m fuel : Nat) (enough : Enough (Input.ofFile file) fuel m 4) :
      (grammar fuel).Readers (Input.ofFile file) m :=
    ((grammar_fueled closed fuel m).proceeds closed enough).readers
  refine ⟨Lexer.step_advances, Lexer.loopsEnd, fun fuel enough => ?_, rounds_again, readers, ?_⟩
  · exact Lexer.run_ends _ _ _ enough (Nat.lt_add_of_pos_right (by decide))
  · have enough : Enough (Input.ofFile file) (fuelFor (Input.ofFile file).tokens) 0 4 := by
      unfold Enough fuelFor
      omega
    have whole := (readers 0 _ enough).statements.module State.initial (Nat.le_refl _)
      (Input.size_ofFile file) trivial
    have never := Unfailing.module (grammar (fuelFor (Input.ofFile file).tokens))
      (Input.ofFile file) State.initial
    unfold parseTokens
    cases h : (grammar (fuelFor (Input.ofFile file).tokens)).module (Input.ofFile file)
      State.initial with
    | parsed tree s =>
      rw [h] at whole
      exact ⟨tree, s, rfl, whole.1.depth⟩
    | failed s =>
      rw [h] at never
      exact absurd trivial never
    | exhausted s =>
      rw [h] at whole
      exact whole.elim

end TsxPreview
