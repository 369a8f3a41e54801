import TsxPreview.Text.Basic
import TsxPreview.Token.Lexer

/-!
Readers and what they read. A reader moves a cursor along its text, so what it read, put before what
it left, is what it started from; the offset grows by the bytes that were read, and line and column
are those behind them. Each reader of the lexer gets one lemma, which also says how the characters
it read spell its token.
-/

namespace TsxPreview

theorem byteLength_append (a b : List Char) : byteLength (a ++ b) = byteLength a + byteLength b := by
  induction a with
  | nil => simp [byteLength]
  | cons c rest ih => simp only [List.cons_append, byteLength, ih, Nat.add_assoc]

theorem byteLength_pos {cs : List Char} (h : cs ≠ []) : 0 < byteLength cs := by
  cases cs with
  | nil => exact absurd rfl h
  | cons c rest => exact Nat.add_pos_left c.utf8Size_pos _

/-- Behind `xs`, the walk goes on from the place it has reached. -/
theorem SourceFile.walk_append (xs ys : List Char) (budget line col : Nat) :
    walk (xs ++ ys) (byteLength xs + budget) line col =
      walk ys budget (walk xs (byteLength xs) line col).1 (walk xs (byteLength xs) line col).2 := by
  induction xs generalizing line col with
  | nil => simp [byteLength, walk]
  | cons c rest ih =>
    have enough (n : Nat) : ¬ c.utf8Size + n < c.utf8Size := by omega
    have feed (n : Nat) : '\n'.utf8Size + n - 1 = n := Nat.add_sub_cancel_left 1 n
    rw [List.cons_append, byteLength, Nat.add_assoc]
    simp only [walk, if_neg (enough _), Nat.add_sub_cancel_left]
    split
    · rename_i newline
      subst newline
      rw [feed, feed]
      exact ih (line + 1) 1
    · exact ih line (col + 1)

theorem SourceFile.walk_zero (cs : List Char) (line col : Nat) : walk cs 0 line col = (line, col) := by
  cases cs with
  | nil => rfl
  | cons c rest => rw [walk, if_pos c.utf8Size_pos]

namespace Cursor

/-- The place `b` is reached from `a` by reading `cs`. -/
structure Reads (a : Cursor) (cs : List Char) (b : Cursor) : Prop where
  rest : a.rest = cs ++ b.rest
  offset : b.offset = a.offset + byteLength cs
  place : (b.line, b.col) = SourceFile.walk cs (byteLength cs) a.line a.col

theorem Reads.length {a b : Cursor} {cs : List Char} (h : a.Reads cs b) :
    a.rest.length = cs.length + b.rest.length := by
  rw [h.rest, List.length_append]

theorem Reads.length_le {a b : Cursor} {cs : List Char} (h : a.Reads cs b) :
    b.rest.length ≤ a.rest.length := by
  have := h.length
  omega

theorem Reads.refl (c : Cursor) : c.Reads [] c := ⟨rfl, rfl, rfl⟩

theorem Reads.trans {a b c : Cursor} {xs ys : List Char} (h : a.Reads xs b) (k : b.Reads ys c) :
    a.Reads (xs ++ ys) c := by
  refine ⟨?_, ?_, ?_⟩
  · rw [h.rest, k.rest, List.append_assoc]
  · rw [k.offset, h.offset, byteLength_append, Nat.add_assoc]
  · rw [k.place, byteLength_append, SourceFile.walk_append, ← h.place]

theorem reads_advance {c : Cursor} {ch : Char} {rest : List Char} (h : c.rest = ch :: rest) :
    c.Reads [ch] c.advance := by
  unfold advance
  rw [h]
  dsimp only
  split
  · rename_i newline
    subst newline
    exact ⟨h, rfl, rfl⟩
  · rename_i other
    refine ⟨h, rfl, ?_⟩
    simp [byteLength, SourceFile.walk, other]

theorem reads_skip (n : Nat) (c : Cursor) : c.Reads (c.rest.take n) (c.skip n) := by
  induction n generalizing c with
  | zero => exact Reads.refl c
  | succ n ih =>
    cases h : c.rest with
    | nil =>
      have stay : c.advance = c := by
        unfold advance
        rw [h]
      have more := ih c
      rw [h, List.take_nil] at more
      rw [skip, stay, List.take_nil]
      exact more
    | cons ch rest =>
      have one := reads_advance h
      have tail : c.advance.rest = rest := by
        have eq := one.rest
        rw [h] at eq
        exact (List.cons.inj eq).2.symm
      have more := one.trans (ih c.advance)
      rw [tail] at more
      exact more

theorem rest_skip (n : Nat) (c : Cursor) : (c.skip n).rest = c.rest.drop n := by
  have h := (reads_skip n c).rest
  exact (List.append_cancel_left ((List.take_append_drop n c.rest).trans h)).symm

theorem reads_skipWhile (p : Char → Bool) (c : Cursor) :
    c.Reads (c.rest.takeWhile p) (c.skipWhile p) := by
  have h := reads_skip (c.rest.takeWhile p).length c
  rwa [← List.prefix_iff_eq_take.mp (List.takeWhile_prefix p)] at h

end Cursor

/-- What was found stays, and no more is kept than is counted. -/
structure Diagnostics.Grows (d e : Diagnostics) : Prop where
  errors : d.errors <+: e.errors
  counted : d.errors.length ≤ d.total → e.errors.length ≤ e.total

theorem Diagnostics.Grows.refl (d : Diagnostics) : d.Grows d := ⟨List.prefix_refl _, id⟩

theorem Diagnostics.Grows.trans {a b c : Diagnostics} (h : a.Grows b) (k : b.Grows c) :
    a.Grows c :=
  ⟨h.errors.trans k.errors, k.counted ∘ h.counted⟩

theorem Diagnostics.grows_push (d : Diagnostics) (e : Diagnostic) : d.Grows (d.push e) := by
  unfold push
  split
  · refine ⟨List.prefix_append _ _, fun counted => ?_⟩
    rw [List.length_append, List.length_singleton]
    exact Nat.succ_le_succ counted
  · exact ⟨List.prefix_refl _, Nat.le_succ_of_le⟩

namespace Lexer

namespace State

theorem reads_skip (s : State) (n : Nat) : s.cursor.Reads (s.cursor.rest.take n) (s.skip n).cursor :=
  Cursor.reads_skip n s.cursor

theorem reads_skipWhile (s : State) (p : Char → Bool) :
    s.cursor.Reads (s.cursor.rest.takeWhile p) (s.skipWhile p).cursor :=
  Cursor.reads_skipWhile p s.cursor

/-- Skipping the first characters of a text that is spelled out. -/
theorem reads_skip_of_rest {s : State} {cs rest : List Char} (h : s.cursor.rest = cs ++ rest) :
    s.cursor.Reads cs (s.skip cs.length).cursor ∧ (s.skip cs.length).cursor.rest = rest := by
  have reads := s.reads_skip cs.length
  rw [h, List.take_left] at reads
  exact ⟨reads, by rw [skip, Cursor.rest_skip, h, List.drop_left]⟩

/-- What readers leave besides the place: what was found stays, and no line break is noted. -/
structure Keeps (s t : State) : Prop where
  found : s.found.Grows t.found
  sawNewline : t.sawNewline = s.sawNewline

theorem Keeps.refl (s : State) : s.Keeps s := ⟨.refl _, rfl⟩

theorem Keeps.trans {s t u : State} (h : s.Keeps t) (k : t.Keeps u) : s.Keeps u :=
  ⟨h.found.trans k.found, k.sawNewline.trans h.sawNewline⟩

theorem keeps_skip (s : State) (n : Nat) : s.Keeps (s.skip n) := ⟨.refl _, rfl⟩

theorem keeps_reportFrom (s : State) (start : Cursor) (code : ErrorCode) (message : String)
    (suggestion : Option String) : s.Keeps (s.reportFrom start code message suggestion) :=
  ⟨Diagnostics.grows_push _ _, rfl⟩

/-- The parts of a state that do not depend on the modes. -/
def reading (s : State) : Cursor × Diagnostics × Bool := (s.cursor, s.found, s.sawNewline)

@[simp] theorem reading_popMode (s : State) : s.popMode.reading = s.reading := by
  unfold popMode
  split <;> rfl

@[simp] theorem reading_mapDepth (s : State) (f : Nat → Nat) :
    (s.mapDepth f).reading = s.reading := by
  unfold mapDepth
  split <;> rfl

theorem cursor_of_reading {s t : State} (h : t.reading = s.reading) : t.cursor = s.cursor :=
  congrArg Prod.fst h

theorem keeps_of_reading {s t : State} (h : t.reading = s.reading) : s.Keeps t := by
  have found : t.found = s.found := congrArg (·.2.1) h
  exact ⟨found ▸ .refl _, congrArg (·.2.2) h⟩

end State

/-! ## How tokens are spelled -/

/-- The last line of `cs` holds more than white space, or a line break or nothing follows. -/
def EndsSolid (cs rest : List Char) : Prop :=
  (∃ before c after, cs = before ++ c :: after ∧ isBlank c = false ∧ '\n' ∉ after) ∨
    rest = [] ∨ rest.head? = some '\n'

/-- The characters that the text of a token is known to consist of. -/
def Spells : TokenKind → List Char → Prop
  | .identifier name, cs => cs = name.toList ∧ ∃ c rest, cs = c :: rest ∧ isIdentStart c = true
  | .keyword k, cs => cs = k.text.toList
  | .punct p, cs => cs = p.text.toList
  | .eof, _ => False
  | _, _ => True

def isMarkupText : TokenKind → Bool
  | .jsxText _ => true
  | _ => false

/-- The characters `cs`, followed by `rest`, form a token of code or of a tag. -/
structure Lexeme (kind : TokenKind) (cs rest : List Char) : Prop where
  nonempty : cs ≠ []
  spells : Spells kind cs
  notText : isMarkupText kind = false
  solid : EndsSolid cs rest

theorem Lexeme.notEof {kind : TokenKind} {cs rest : List Char} (h : Lexeme kind cs rest) :
    kind.isEof = false := by
  cases kind with
  | eof => exact h.spells.elim
  | _ => rfl

/-- A reader that makes a token of what it reads. -/
structure ReadsToken (s : State) (r : TokenKind × State) : Prop where
  keeps : s.Keeps r.2
  reads : ∃ cs, s.cursor.Reads cs r.2.cursor ∧ Lexeme r.1 cs r.2.cursor.rest

theorem EndsSolid.of_last (cs : List Char) {rest : List Char} {c : Char} (h : isBlank c = false) :
    EndsSolid (cs ++ [c]) rest :=
  Or.inl ⟨cs, c, [], rfl, h, by simp⟩

theorem EndsSolid.of_line {cs rest : List Char} {c : Char} (h : isBlank c = false)
    (line : '\n' ∉ cs) : EndsSolid (c :: cs) rest :=
  Or.inl ⟨[], c, cs, rfl, h, line⟩

theorem EndsSolid.append {cs rest : List Char} (before : List Char) (h : EndsSolid cs rest) :
    EndsSolid (before ++ cs) rest := by
  rcases h with ⟨a, c, b, rfl, blank, line⟩ | h
  · exact Or.inl ⟨before ++ a, c, b, by simp, blank, line⟩
  · exact Or.inr h

/-- Punctuators are spelled as they are written and hold no white space. -/
theorem Lexeme.punct (p : Punct) (rest : List Char) : Lexeme (.punct p) p.text.toList rest := by
  have solid : ∃ before c, p.text.toList = before ++ [c] ∧ isBlank c = false := by
    cases p <;> first
      | exact ⟨[], _, rfl, by decide⟩
      | exact ⟨[_], _, rfl, by decide⟩
      | exact ⟨[_, _], _, rfl, by decide⟩
  obtain ⟨before, c, eq, blank⟩ := solid
  refine ⟨by rw [eq]; simp, rfl, rfl, ?_⟩
  rw [eq]
  exact .of_last _ blank

theorem readsToken_punct {s t : State} {p : Punct} {rest : List Char}
    (h : s.cursor.rest = p.text.toList ++ rest)
    (eq : t.reading = (s.skip p.text.toList.length).reading) : ReadsToken s (.punct p, t) := by
  refine ⟨(s.keeps_skip _).trans (State.keeps_of_reading eq), p.text.toList, ?_, Lexeme.punct p _⟩
  rw [State.cursor_of_reading eq]
  exact (State.reads_skip_of_rest h).1

end Lexer

end TsxPreview
