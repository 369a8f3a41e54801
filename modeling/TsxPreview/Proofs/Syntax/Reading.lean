import TsxPreview.Syntax.Parser

/-!
What a reader that succeeds does to the cursor: one lemma for each of the readers that the
productions are made of. Nothing is reported on the way, and nothing but the position changes.
-/

namespace TsxPreview

theorem TokenKind.eq_punct {kind : TokenKind} {p : Punct} (h : kind.isPunct p = true) :
    kind = .punct p := by
  cases kind <;> simp_all [isPunct]

theorem TokenKind.isPunct_of_ne {kind : TokenKind} {p : Punct} (h : kind ≠ .punct p) :
    kind.isPunct p = false := by
  cases same : kind.isPunct p with
  | false => rfl
  | true => exact absurd (eq_punct same) h

namespace Parser

variable {α β γ : Type}

/-- No token but the last is the end of the file. -/
def Input.Closed (i : Input) : Prop := ∀ n, i.kindAt n ≠ .eof → n + 1 < i.tokens.size

theorem Input.Closed.punct {i : Input} (closed : i.Closed) {n : Nat} {p : Punct}
    (h : (i.kindAt n).isPunct p = true) : n + 1 < i.tokens.size :=
  closed n fun eof => by simp [eof, TokenKind.isPunct] at h

theorem Input.Closed.word {i : Input} (closed : i.Closed) {n : Nat} {name : String}
    (h : i.kindAt n = .identifier name) : n + 1 < i.tokens.size :=
  closed n fun eof => by simp [eof] at h

theorem kind_tokenAt {i : Input} {n : Nat} (h : n < i.tokens.size) :
    (i.tokenAt n).kind = i.kindAt n := by
  simp [Input.tokenAt, Input.kindAt, h]

theorem Input.lt_size {i : Input} {n : Nat} (h : i.kindAt n ≠ .eof) : n < i.tokens.size := by
  rcases Nat.lt_or_ge n i.tokens.size with lt | past
  · exact lt
  · exact absurd (by simp [kindAt, Array.getElem?_eq_none past]) h

/-- The span of the token before `m`. -/
def Input.spanBefore (i : Input) (m : Nat) : Span :=
  if m = 0 then Span.start else (i.tokenAt (m - 1)).span

/-- From the start of `start` to the end of the token before `m`. -/
def Input.spanTo (i : Input) (start : Span) (m : Nat) : Span := start.merge (i.spanBefore m)

/-- From position `m`, with all else as in `s`, the reader yields `a` and stops at `n`. -/
def Reads (i : Input) (s : State) (m : Nat) (p : Parser α) (a : α) (n : Nat) : Prop :=
  p i { s with pos := m } = .parsed a { s with pos := n }

namespace Reads

variable {i : Input} {s : State} {m n k : Nat}

theorem pure (a : α) : Reads i s m (Pure.pure a) a m := rfl

theorem bind {p : Parser α} {f : α → Parser β} {a : α} {b : β} (h : Reads i s m p a n)
    (next : Reads i s n (f a) b k) : Reads i s m (p >>= f) b k := by
  change (Bind.bind p f : Parser β) i _ = _
  simp only [Bind.bind]
  rw [show p i _ = _ from h]
  exact next

theorem ite_true {c : Prop} [Decidable c] {p q : Parser α} {a : α} (hc : c)
    (h : Reads i s m p a n) : Reads i s m (if c then p else q) a n := by
  rwa [if_pos hc]

theorem ite_false {c : Prop} [Decidable c] {p q : Parser α} {a : α} (hc : ¬ c)
    (h : Reads i s m q a n) : Reads i s m (if c then p else q) a n := by
  rwa [if_neg hc]

theorem peek : Reads i s m peek (i.tokenAt m) m := rfl

theorem peekKind : Reads i s m peekKind (i.kindAt m) m := rfl

theorem ahead (j : Nat) : Reads i s m (ahead j) (i.kindAt (m + j)) m := rfl

theorem check (p : Punct) : Reads i s m (check p) ((i.kindAt m).isPunct p) m := rfl

theorem checkKeyword (w : Keyword) : Reads i s m (checkKeyword w) ((i.kindAt m).isKeyword w) m :=
  rfl

theorem atEnd : Reads i s m atEnd (i.kindAt m).isEof m := rfl

theorem checkWord (name : String) : Reads i s m (checkWord name) ((i.kindAt m).isWord name) m := rfl

theorem newlineAhead (j : Nat) :
    Reads i s m (newlineAhead j) (i.tokens[m + j]?.any Token.newlineBefore) m := rfl

theorem checkpoint : Reads i s m checkpoint ⟨m, s.found.total⟩ m := rfl

theorem here : Reads i s m here (i.tokenAt m).span m := rfl

theorem previous : Reads i s m previous (i.spanBefore m) m := rfl

theorem spanFrom (start : Span) : Reads i s m (spanFrom start) (i.spanTo start m) m := rfl

theorem advance (h : m + 1 < i.tokens.size) : Reads i s m advance (i.tokenAt m) (m + 1) := by
  simp [Reads, Parser.advance, h]

theorem eat {p : Punct} (here : (i.kindAt m).isPunct p = true) (h : m + 1 < i.tokens.size) :
    Reads i s m (eat p) true (m + 1) :=
  .bind (.check p) (.ite_true here (.bind (.advance h) (.pure true)))

theorem eat_none {p : Punct} (here : (i.kindAt m).isPunct p = false) :
    Reads i s m (Parser.eat p) false m :=
  .bind (.check p) (.ite_false (by simp [here]) (.pure false))

theorem expect {p : Punct} (here : (i.kindAt m).isPunct p = true) (h : m + 1 < i.tokens.size) :
    Reads i s m (expect p) (i.tokenAt m) (m + 1) :=
  .bind .peekKind (.ite_true here (.advance h))

theorem expectIdentifier {name : String} (word : i.kindAt m = .identifier name)
    (h : m + 1 < i.tokens.size) :
    Reads i s m expectIdentifier ⟨name, (i.tokenAt m).span⟩ (m + 1) := by
  refine .bind .peekKind ?_
  rw [word]
  exact .bind (.advance h) (.pure _)

theorem expectPropertyName {name : String} (word : (i.kindAt m).propertyName? = some name)
    (h : m + 1 < i.tokens.size) :
    Reads i s m expectPropertyName ⟨name, (i.tokenAt m).span⟩ (m + 1) := by
  refine .bind .peekKind ?_
  rw [word]
  exact .bind (.advance h) (.pure _)

theorem allowIn {p : Parser α} {a : α} (free : s.noIn = false) (h : Reads i s m p a n) :
    Reads i s m (allowIn p) a n := by
  have same (k : Nat) : { s with pos := k, noIn := false } = { s with pos := k } := by rw [← free]
  refine .bind (a := s.noIn) rfl ?_
  change (Bind.bind _ _ : Parser α) i _ = _
  simp only [Bind.bind, update, finally', same]
  rw [show p i _ = _ from h]

theorem nested {p : Parser α} {a : α} (room : s.depth < nestingLimit)
    (h : Reads i { s with depth := s.depth + 1 } m p a n) : Reads i s m (nested p) a n := by
  unfold Parser.nested
  refine .bind (a := s.depth) rfl (.ite_true room ?_)
  simp only [Reads, Bind.bind, update, finally'] at h ⊢
  rw [h]
  simp

/-! ### Loops -/

theorem again {body : β → Parser (Round β γ)} {acc acc' : β} {r : γ} {fuel : Nat}
    (round : Reads i s m (body acc) (.again acc') n) (moved : m < n)
    (rest : Reads i s n (rounds body fuel acc') r k) :
    Reads i s m (rounds body (fuel + 1) acc) r k :=
  .bind (a := m) rfl (.bind round (.bind (a := decide (m < n)) rfl
    (.ite_true (decide_eq_true moved) rest)))

theorem done {body : β → Parser (Round β γ)} {acc : β} {r : γ} {fuel : Nat}
    (round : Reads i s m (body acc) (.done r) n) : Reads i s m (rounds body (fuel + 1) acc) r n :=
  .bind (a := m) rfl (.bind round (.pure r))

theorem loop {body : β → Parser (Round β γ)} {acc : β} {r : γ}
    (h : Reads i s m (rounds body (i.tokens.size + 2) acc) r n) : Reads i s m (loop acc body) r n :=
  h

end Reads

/-- A loop with the body that goes on at `m` with `acc` yields `r` and stops at `n`. Every round takes
a token, so that there are rounds enough left. -/
def Loops (i : Input) (s : State) (body : β → Parser (Round β γ)) (acc : β) (m : Nat) (r : γ)
    (n : Nat) : Prop :=
  ∀ fuel, i.tokens.size + 2 ≤ fuel + m → Reads i s m (rounds body fuel acc) r n

namespace Loops

variable {i : Input} {s : State} {m n k : Nat} {body : β → Parser (Round β γ)} {acc acc' : β} {r : γ}

theorem done (inside : m < i.tokens.size) (round : Reads i s m (body acc) (.done r) n) :
    Loops i s body acc m r n := by
  intro fuel enough
  obtain ⟨fuel, rfl⟩ : ∃ k, fuel = k + 1 := ⟨fuel - 1, by omega⟩
  exact .done round

theorem again (inside : m < i.tokens.size) (round : Reads i s m (body acc) (.again acc') n)
    (moved : m < n) (rest : Loops i s body acc' n r k) : Loops i s body acc m r k := by
  intro fuel enough
  obtain ⟨fuel, rfl⟩ : ∃ k, fuel = k + 1 := ⟨fuel - 1, by omega⟩
  exact .again round moved (rest fuel (by omega))

theorem loop (h : Loops i s body acc m r n) : Reads i s m (loop acc body) r n :=
  h _ (Nat.le_add_right _ _)

end Loops

/-- From position `m` on, with all else as in `s`, the reader fails. -/
def Fails (i : Input) (s : State) (m : Nat) (p : Parser α) : Prop :=
  ∃ t, p i { s with pos := m } = .failed t

namespace Fails

variable {i : Input} {s : State} {m n : Nat}

theorem first {p : Parser α} (f : α → Parser β) (h : Fails i s m p) : Fails i s m (p >>= f) := by
  obtain ⟨t, failed⟩ := h
  refine ⟨t, ?_⟩
  simp only [Bind.bind]
  rw [failed]

theorem after {p : Parser α} {f : α → Parser β} {a : α} (h : Reads i s m p a n)
    (next : Fails i s n (f a)) : Fails i s m (p >>= f) := by
  obtain ⟨t, failed⟩ := next
  refine ⟨t, ?_⟩
  simp only [Bind.bind]
  rw [show p i _ = _ from h]
  exact failed

theorem expect {p : Punct} (here : (i.kindAt m).isPunct p = false) : Fails i s m (expect p) := by
  refine .after .peekKind ?_
  rw [if_neg (by simp [here])]
  exact ⟨_, rfl⟩

end Fails

end Parser

end TsxPreview
