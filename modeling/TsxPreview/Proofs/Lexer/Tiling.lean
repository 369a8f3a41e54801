import TsxPreview.Proofs.Lexer.Gaps

/-!
The token stream and the text. Every token spells a stretch of the text, the stretches come in order
with gaps between them, and the span of a token is the place of its stretch. So the tokens tile the
text.
-/

namespace TsxPreview

namespace Lexer

/-- The tokens of a text from a place on, behind what was read before: each comes after a gap and
spells what stands behind it. Only a punctuator or the end of the file comes after text between
tags, and the end comes where the text ends or too much was reported. -/
inductive Tiles (found : Diagnostics) : (pre : List Char) → Cursor → List Token → Prop where
  | eof {pre skipped : List Char} {c a : Cursor} {t : Token} (skips : c.Reads skipped a)
      (gap : Gap found.errors pre skipped a.rest t.newlineBefore)
      (stop : a.rest = [] ∨ found.saturated = true) (kind : t.kind = .eof) (span : t.span = a.here) :
      Tiles found pre c [t]
  | token {pre skipped lexeme : List Char} {c a b : Cursor} {t : Token} {rest : List Token}
      (skips : c.Reads skipped a) (gap : Gap found.errors pre skipped a.rest t.newlineBefore)
      (reads : a.Reads lexeme b) (lexes : Lexeme t.kind lexeme b.rest) (span : t.span = a.spanTo b)
      (tiles : Tiles found (pre ++ skipped ++ lexeme) b rest) : Tiles found pre c (t :: rest)
  | text {pre lexeme : List Char} {c b : Cursor} {t : Token} {rest : List Token}
      (reads : c.Reads lexeme b) (nonempty : lexeme ≠ [])
      (kind : t.kind = .jsxText (String.ofList lexeme)) (span : t.span = c.spanTo b)
      (newline : t.newlineBefore = false)
      (next : ∀ n ∈ rest.head?, n.kind = .eof ∨ ∃ p, n.kind = .punct p)
      (tiles : Tiles found (pre ++ lexeme) b rest) : Tiles found pre c (t :: rest)

/-! ## One token -/

theorem not_isBlank_of_isIdentStart {c : Char} (h : isIdentStart c = true) (k : ¬ isTrivial c) :
    isBlank c = false := by
  by_cases wide : 0x80 ≤ c.toNat
  · cases blank : isBlank c with
    | false => rfl
    | true => exact absurd (Or.inr (Or.inr (Or.inr (Or.inr ⟨wide, blank⟩)))) k
  · delta isIdentStart Char.isAlpha Char.isUpper Char.isLower at h
    simp only [Bool.or_eq_true, Bool.and_eq_true, decide_eq_true_eq, beq_iff_eq,
      UInt32.le_iff_toNat_le, ge_iff_le] at h
    change (((65 ≤ c.toNat ∧ c.toNat ≤ 90 ∨ 97 ≤ c.toNat ∧ c.toNat ≤ 122) ∨ c = '_') ∨ c = '$') ∨
      128 ≤ c.toNat at h
    rcases h with ((letter | rfl) | rfl) | beyond
    · simp only [isBlank, Bool.or_eq_false_iff, Bool.and_eq_false_iff, decide_eq_false_iff_not,
        beq_eq_false_iff_ne]
      omega
    · decide
    · decide
    · exact absurd beyond wide

theorem readsToken_codeToken? {s : State} {r : TokenKind × State} {c : Char} {rest : List Char}
    (h : s.cursor.rest = c :: rest) (k : ¬ isTrivial c) (found : codeToken? c s = some r) :
    ReadsToken s r := by
  unfold codeToken? at found
  dsimp only at found
  split at found
  · rename_i start
    cases found
    exact readsToken_word false h start (not_isBlank_of_isIdentStart start k)
  · split at found
    · rename_i start
      cases found
      rw [Bool.or_eq_true, Bool.and_eq_true, beq_iff_eq] at start
      exact readsToken_number h start
    · have size : (s.skip 1).cursor.rest.length < s.cursor.rest.length := by
        rw [State.skip, Cursor.rest_skip, h]
        simp
      split at found
      case h_1 =>
        cases found
        exact (readsQuoted_quoted s.cursor (by decide) _ [] _ size).readsToken h
      case h_2 =>
        cases found
        exact (readsQuoted_quoted s.cursor (by decide) _ [] _ size).readsToken h
      case h_3 =>
        cases found
        exact (readsQuoted_template s.cursor true _ [] _ size).readsToken h
      case h_4 =>
        cases found
        exact readsToken_lessThan h
      case h_5 =>
        cases found
        exact readsToken_punct (p := .lBrace) h (State.reading_mapDepth _ _)
      case h_6 =>
        cases found
        exact readsToken_closeBrace h
      case h_7 => exact readsToken_punctuator found

theorem reading_tagEnd (closing : Bool) (s : State) :
    (tagEnd closing s).reading = (s.skip 1).reading := by
  have popped := State.reading_popMode (s.skip 1)
  unfold tagEnd
  dsimp only
  split
  · split
    · exact (State.reading_popMode _).trans popped
    · exact popped
  · exact popped

theorem readsToken_tagToken? {s : State} {r : TokenKind × State} {c : Char} {rest : List Char}
    (closing : Bool) (h : s.cursor.rest = c :: rest) (k : ¬ isTrivial c)
    (found : tagToken? closing c s = some r) : ReadsToken s r := by
  unfold tagToken? at found
  dsimp only at found
  split at found
  · rename_i start
    cases found
    exact readsToken_word true h start (not_isBlank_of_isIdentStart start k)
  · split at found
    case h_1 =>
      cases found
      exact (readsQuoted_attributeText s.cursor (by decide) _).readsToken h
    case h_2 =>
      cases found
      exact (readsQuoted_attributeText s.cursor (by decide) _).readsToken h
    case h_3 =>
      cases found
      exact readsToken_punct (p := .lBrace) h rfl
    case h_4 =>
      cases found
      exact readsToken_punct (p := .greater) h (reading_tagEnd closing s)
    case h_5 =>
      split at found
      · rename_i closes
        obtain ⟨more, rfl⟩ : ∃ more, rest = '>' :: more := by
          rw [Cursor.ahead?, h] at closes
          cases rest with
          | nil => cases closes
          | cons c more => exact ⟨more, by cases closes; rfl⟩
        cases found
        exact readsToken_punct (p := .jsxSelfClose) h (State.reading_popMode _)
      · cases found
    case h_6 =>
      cases found
      exact readsToken_punct (p := .jsxLt) h rfl
    case h_7 =>
      cases found
      exact readsToken_punct (p := .eq) h rfl
    case h_8 =>
      cases found
      exact readsToken_punct (p := .dot) h rfl
    case h_9 =>
      cases found
      exact readsToken_punct (p := .colon) h rfl
    case h_10 => cases found

/-- The outcome of one step from behind `pre`: a gap, and a token of code or of a tag or the end. -/
inductive ReadsNext (pre : List Char) (s : State) : Token × State → Prop where
  | eof {t : State} {skipped : List Char} {breaks : Bool} (passes : Passes pre s skipped breaks t)
      (stop : t.cursor.rest = [] ∨ t.found.saturated = true) : ReadsNext pre s (t.eofToken, t)
  | token {t u : State} {kind : TokenKind} {skipped lexeme : List Char} {breaks : Bool}
      (passes : Passes pre s skipped breaks t) (keeps : t.Keeps u)
      (reads : t.cursor.Reads lexeme u.cursor) (lexes : Lexeme kind lexeme u.cursor.rest) :
      ReadsNext pre s (u.token t.cursor kind, u)

theorem ReadsNext.after {pre cs : List Char} {s t : State} {breaks : Bool} {r : Token × State}
    (h : Passes pre s cs breaks t) (k : ReadsNext (pre ++ cs) t r) : ReadsNext pre s r := by
  cases k with
  | eof passes stop => exact .eof (h.trans passes) stop
  | token passes keeps reads lexes => exact .token (h.trans passes) keeps reads lexes

/-- A character that starts no token is reported, and kept among what was found. -/
theorem passes_unexpected {pre rest : List Char} {s : State} {c : Char} (message : String)
    (hr : s.cursor.rest = c :: rest) (stops : Stops s.cursor.rest)
    (room : s.found.saturated = false) :
    Passes pre s [c] false
      ((s.skip 1).reportFrom s.cursor .unexpectedCharacter message none) := by
  obtain ⟨reads, tail⟩ := @State.reads_skip_of_rest s [c] rest hr
  refine ⟨reads, Diagnostics.grows_push _ _, (Bool.or_false _).symm, fun start => ?_⟩
  have kept : s.found.errors.length < Diagnostics.cap := by
    have few : s.found.total < Diagnostics.cap := by simpa [Diagnostics.saturated] using room
    exact Nat.lt_of_le_of_lt start.counted few
  have code : opensComment (c :: [] ++ (s.skip 1).cursor.rest) = false := by
    rw [show (s.skip 1).cursor.rest = rest from tail]
    have code := stops.code
    rwa [hr] at code
  refine .unexpected (stops.visible c rest hr) code
    ⟨Diagnostic.at s.file .unexpectedCharacter message (s.cursor.spanTo (s.skip 1).cursor) none,
      ?_, rfl, start.offset, ?_⟩ .nil
  · show _ ∈ (Diagnostics.push _ _).errors
    rw [Diagnostics.push, if_pos (show (s.skip 1).found.errors.length < _ from kept)]
    exact List.mem_append_right _ (List.mem_singleton_self _)
  · show (s.skip 1).cursor.offset = _
    rw [show (s.skip 1).cursor.offset = _ from reads.offset, start.offset, byteLength_append]

theorem readsNext_next {scan : Char → State → Option (TokenKind × State)} (place : String)
    (tokens : ∀ {s : State} {r : TokenKind × State} {c : Char} {rest : List Char},
      s.cursor.rest = c :: rest → ¬ isTrivial c → scan c s = some r → ReadsToken s r)
    (fuel : Nat) (pre : List Char) (s : State) (enough : s.cursor.rest.length < fuel) :
    ReadsNext pre s (next scan place fuel s) := by
  induction fuel generalizing pre s with
  | zero => omega
  | succ fuel ih =>
    obtain ⟨skipped, breaks, passes, stops⟩ := passes_trivia pre s
    unfold next
    dsimp only
    split
    · rename_i done
      exact .eof passes (Or.inl done)
    · rename_i c rest hr
      split
      · rename_i full
        exact .eof passes (Or.inr full)
      · rename_i room
        split
        · rename_i kind t found
          obtain ⟨lexeme, reads, lexes⟩ := (tokens hr (stops.visible c rest hr) found).reads
          exact .token passes (tokens hr (stops.visible c rest hr) found).keeps reads lexes
        · have one := @passes_unexpected (pre ++ skipped) _ _ _ s!"Unexpected character '{c}'{place}"
            hr stops (Bool.eq_false_iff.mpr room)
          refine .after (passes.trans one) (ih _ _ ?_)
          have := (passes.trans one).reads.length
          simp only [List.length_append, List.length_singleton] at this
          omega

/-! ## The stream -/

/-- Text between tags goes on up to a brace or a tag. -/
def isTextChar (c : Char) : Bool := c != '\x7b' && c != '<'

/-- The outcome of one step between tags: a token, or the text up to the next one. -/
inductive ReadsChild (s : State) : TokenKind × State → Prop where
  | mark {r : TokenKind × State} {p : Punct} (kind : r.1 = .punct p) (token : ReadsToken s r) :
      ReadsChild s r
  | text (nonempty : s.cursor.rest.takeWhile isTextChar ≠ []) :
      ReadsChild s (.jsxText (String.ofList (s.cursor.rest.takeWhile isTextChar)),
        s.skipWhile isTextChar)

theorem readsChild_childToken (s : State) (more : s.cursor.rest ≠ []) :
    ReadsChild s (childToken s) := by
  unfold childToken
  split
  · rename_i hr
    exact .mark rfl (readsToken_punct (p := .lBrace) hr rfl)
  · rename_i hr
    exact .mark rfl (readsToken_punct (p := .jsxCloseStart) hr rfl)
  · rename_i hr
    exact .mark rfl (readsToken_punct (p := .jsxLt) hr rfl)
  · rename_i brace _ less
    refine .text ?_
    cases h : s.cursor.rest with
    | nil => exact absurd h more
    | cons c rest =>
      have first : isTextChar c = true := by
        have not_brace : c ≠ '\x7b' := fun eq => brace rest (by rw [h, eq])
        have not_less : c ≠ '<' := fun eq => less rest (by rw [h, eq])
        simp [isTextChar, not_brace, not_less]
      rw [List.takeWhile_cons_of_pos first]
      simp

/-- Behind text between tags the state is still between tags, before a brace, a tag or the end. -/
def BeforeMark (s : State) : Prop :=
  s.mode = .children ∧ ∀ c ∈ s.cursor.rest.head?, isTextChar c = false

/-- The outcome of one step: that of reading a token, or text between tags. -/
inductive ReadsStep (pre : List Char) (s : State) : Token × State → Prop where
  | next {r : Token × State} (next : ReadsNext pre s r) : ReadsStep pre s r
  | text {u : State} {lexeme : List Char} (reads : s.cursor.Reads lexeme u.cursor)
      (keeps : s.Keeps u) (nonempty : lexeme ≠ []) (mark : BeforeMark u) :
      ReadsStep pre s (u.token s.cursor (.jsxText (String.ofList lexeme)), u)

/-- One step reads a token, or text between tags. -/
theorem step_spec (pre : List Char) (s : State) : ReadsStep pre s (step s) := by
  have enough := Nat.lt_succ_self s.cursor.rest.length
  unfold step
  dsimp only
  split
  · exact .next (readsNext_next "" readsToken_codeToken? _ pre s enough)
  · exact .next (readsNext_next " in tag" (readsToken_tagToken? _) _ pre s enough)
  · rename_i mode
    split
    · rename_i done
      exact .next (.eof (.refl pre s) (Or.inl (List.isEmpty_iff.mp done)))
    · rename_i more
      -- between tags, where text goes up to the next brace or tag
      have child := readsChild_childToken s (by simpa using more)
      generalize childToken s = r at child
      cases child with
      | mark kind token =>
        obtain ⟨lexeme, reads, lexes⟩ := token.reads
        exact .next (.token (.refl pre s) token.keeps reads lexes)
      | text nonempty =>
        refine .text (s.reads_skipWhile isTextChar) ⟨.refl _, rfl⟩ nonempty ⟨mode, ?_⟩
        have reads := (s.reads_skipWhile isTextChar).rest
        have split := List.takeWhile_append_dropWhile (p := isTextChar) (l := s.cursor.rest)
        have rest : (s.skipWhile isTextChar).cursor.rest = s.cursor.rest.dropWhile isTextChar :=
          List.append_cancel_left (reads.symm.trans split.symm)
        intro c hc
        rw [rest] at hc
        have head := List.head?_dropWhile_not isTextChar s.cursor.rest
        rw [hc] at head
        simpa using head

/-- Between tags and before no text, only a punctuator or the end can come. -/
theorem step_beforeMark {s : State} (h : BeforeMark s) :
    (step s).1.kind = .eof ∨ ∃ p, (step s).1.kind = .punct p := by
  unfold step
  rw [h.1]
  dsimp only
  split
  · exact Or.inl rfl
  · rename_i more
    have child := readsChild_childToken s (by simpa using more)
    generalize childToken s = r at child
    cases child with
    | @mark r p kind token => exact Or.inr ⟨p, kind⟩
    | text nonempty =>
      cases hr : s.cursor.rest with
      | nil => rw [hr] at more; exact absurd rfl more
      | cons c rest =>
        have stop := h.2 c (by rw [hr]; rfl)
        rw [hr, List.takeWhile_cons_of_neg (by rw [stop]; decide)] at nonempty
        exact absurd rfl nonempty

/-- The first token after text between tags. -/
theorem head_run_beforeMark (fuel : Nat) {s : State} (h : BeforeMark s) :
    ∀ n ∈ (run fuel s).1.head?, n.kind = .eof ∨ ∃ p, n.kind = .punct p := by
  have first := step_beforeMark h
  cases fuel with
  | zero =>
    rintro n ⟨⟩
    exact Or.inl rfl
  | succ fuel =>
    unfold run
    split
    · rintro n ⟨⟩
      exact Or.inl rfl
    · dsimp only [settle]
      split <;> (rintro n ⟨⟩; exact first)

/-- A run only finds more. -/
theorem grows_run (fuel : Nat) (s : State) : s.found.Grows (run fuel s).2.found := by
  induction fuel generalizing s with
  | zero => exact .refl _
  | succ fuel ih =>
    have first : s.found.Grows (step s).2.found := by
      have spec := step_spec [] s
      generalize step s = r at spec
      cases spec with
      | next next =>
        cases next with
        | eof passes stop => exact passes.found
        | token passes keeps reads lexes => exact passes.found.trans keeps.found
      | text reads keeps nonempty mark => exact keeps.found
    unfold run
    split
    · exact .refl _
    · dsimp only
      split
      · exact first
      · exact first.trans (ih (settle (step s).1 (step s).2).2)

/-- The tokens of a run tile what is left of the text. -/
theorem run_tiles (fuel : Nat) (pre : List Char) (s : State) (start : s.Behind pre)
    (noBreak : s.sawNewline = false) (enough : s.cursor.rest.length < fuel) :
    Tiles (run fuel s).2.found pre s.cursor (run fuel s).1 := by
  induction fuel generalizing pre s with
  | zero => omega
  | succ fuel ih =>
    unfold run
    split
    · rename_i full
      exact .eof (.refl _) .nil (Or.inr full) rfl rfl
    · have spec := step_spec pre s
      generalize step s = r at spec
      -- the line break that is noted is that of the gap
      have noted {skipped : List Char} {breaks : Bool} {t : State}
          (passes : Passes pre s skipped breaks t) : t.sawNewline = breaks := by
        rw [passes.sawNewline, noBreak, Bool.false_or]
      cases spec with
      | next next =>
        cases next with
        | @eof t skipped breaks passes stop =>
          dsimp only [settle, State.eofToken]
          rw [if_pos (by rfl)]
          refine .eof passes.reads ?_ stop rfl rfl
          rw [noted passes]
          exact passes.gap start
        | @token t u kind skipped lexeme breaks passes keeps reads lexes =>
          dsimp only [settle, State.token]
          rw [if_neg (by rw [lexes.notEof]; exact Bool.false_ne_true)]
          have less : u.cursor.rest.length < fuel := by
            have := (passes.reads.trans reads).length
            have := List.length_pos_iff.mpr lexes.nonempty
            simp only [List.length_append] at *
            omega
          have behind := (start.reads passes.reads passes.found).reads reads keeps.found
          refine .token passes.reads ?_ reads lexes rfl (ih _ _ ⟨behind.offset, behind.counted⟩ rfl less)
          rw [show u.sawNewline = breaks from keeps.sawNewline.trans (noted passes)]
          have grows := grows_run fuel (settle (u.token t.cursor kind) u).2
          exact (passes.gap start).mono (keeps.found.trans grows).errors.subset
      | @text u lexeme reads keeps nonempty mark =>
        dsimp only [settle, State.token]
        rw [if_neg (show ¬ (TokenKind.jsxText _).isEof = true from Bool.false_ne_true)]
        have less : u.cursor.rest.length < fuel := by
          have := reads.length
          have := List.length_pos_iff.mpr nonempty
          omega
        have behind := start.reads reads keeps.found
        exact .text reads nonempty rfl rfl (keeps.sawNewline.trans noBreak)
          (head_run_beforeMark fuel mark) (ih _ _ ⟨behind.offset, behind.counted⟩ rfl less)

/-- Only the last token is the end of the file. -/
theorem Tiles.ends {found : Diagnostics} {pre : List Char} {c : Cursor} {tokens : List Token}
    (h : Tiles found pre c tokens) :
    ∃ code eof, tokens = code ++ [eof] ∧ eof.kind = .eof ∧ ∀ t ∈ code, t.kind.isEof = false := by
  induction h with
  | @eof _ _ _ _ t _ _ _ kind => exact ⟨[], t, rfl, kind, by simp⟩
  | @token _ _ _ _ _ _ t _ _ _ _ lexes _ _ ih =>
    obtain ⟨code, eof, rfl, kind, all⟩ := ih
    refine ⟨t :: code, eof, rfl, kind, ?_⟩
    simpa using ⟨lexes.notEof, all⟩
  | @text _ _ _ _ t _ _ _ kind' _ _ _ _ ih =>
    obtain ⟨code, eof, rfl, kind, all⟩ := ih
    refine ⟨t :: code, eof, rfl, kind, ?_⟩
    simpa [kind', TokenKind.isEof] using all

end Lexer

namespace TokenStream

/-- The tokens of a text, in the order in which they stand in it. -/
theorem tiles (file : SourceFile) :
    Lexer.Tiles (ofFile file).diagnostics [] (Cursor.ofText file.text.toList)
      (ofFile file).tokens :=
  Lexer.run_tiles (file.text.toList.length + 2) [] (Lexer.State.ofFile file)
    ⟨rfl, Nat.le_refl 0⟩ rfl (Nat.lt_succ_of_lt (Nat.lt_succ_self _))

/-! ## Places -/

/-- A span covers the characters `lexeme` behind `pre`, and knows the line and column where they
start. -/
structure Covers (file : SourceFile) (span : Span) (pre lexeme post : List Char) : Prop where
  whole : file.text.toList = pre ++ lexeme ++ post
  lo : span.lo = byteLength pre
  hi : span.hi = byteLength (pre ++ lexeme)
  place : (span.line, span.col) = file.lineCol span.lo

/-- Between the byte `behind` and the first token there is a gap, and so between each token and the
next. A token notes a line break exactly if there is one in the gap before it. -/
def Spaced (file : SourceFile) (errors : List Diagnostic) : (behind : Nat) → List Token → Prop
  | _, [] => True
  | behind, t :: rest =>
    (∃ pre skipped post, file.text.toList = pre ++ skipped ++ post ∧ byteLength pre = behind ∧
      byteLength (pre ++ skipped) = t.span.lo ∧
      Lexer.Gap errors pre skipped post t.newlineBefore) ∧
    Spaced file errors t.span.hi rest

/-- How the tokens of a text tile it. -/
structure TilesText (stream : TokenStream) (file : SourceFile) : Prop where
  ends : ∃ code eof, stream.tokens = code ++ [eof] ∧ eof.kind = .eof ∧ ∀ t ∈ code, t.kind ≠ .eof
  covers : ∀ t ∈ stream.tokens, ∃ pre lexeme post, Covers file t.span pre lexeme post ∧
    (lexeme = [] ↔ t.kind = .eof)
  ordered : stream.tokens.Pairwise fun a b => a.span.hi ≤ b.span.lo
  spaced : Spaced file stream.diagnostics.errors 0 stream.tokens
  reaches : stream.diagnostics.saturated = false →
    ∀ t ∈ stream.tokens, t.kind = .eof → t.span.lo = byteLength file.text.toList

variable {file : SourceFile} {found : Diagnostics} {pre : List Char} {c a b : Cursor}
  {tokens : List Token}

/-- The place that is reached by reading `pre` is the one behind it. -/
theorem lineCol_of_reads (h : (Cursor.ofText file.text.toList).Reads pre c) :
    (c.line, c.col) = file.lineCol c.offset := by
  have whole : file.text.toList = pre ++ c.rest := h.rest
  have offset : c.offset = byteLength pre + 0 := by rw [h.offset]; exact Nat.add_comm 0 _
  rw [h.place, SourceFile.lineCol, whole, offset, SourceFile.walk_append, SourceFile.walk_zero]
  rfl

theorem covers_of_reads {lexeme : List Char} (h : (Cursor.ofText file.text.toList).Reads pre a)
    (reads : a.Reads lexeme b) : Covers file (a.spanTo b) pre lexeme b.rest where
  whole := (h.trans reads).rest
  lo := h.offset.trans (Nat.zero_add _)
  hi := (h.trans reads).offset.trans (Nat.zero_add _)
  place := lineCol_of_reads h

theorem covers_of_tiles (h : Lexer.Tiles found pre c tokens)
    (start : (Cursor.ofText file.text.toList).Reads pre c) :
    ∀ t ∈ tokens, ∃ pre lexeme post, Covers file t.span pre lexeme post ∧
      (lexeme = [] ↔ t.kind = .eof) := by
  -- a token in front of others
  have further {t : Token} {rest : List Token} {pre lexeme post : List Char}
      (here : Covers file t.span pre lexeme post) (kind : lexeme = [] ↔ t.kind = .eof)
      (ih : ∀ t ∈ rest, ∃ pre lexeme post, Covers file t.span pre lexeme post ∧
        (lexeme = [] ↔ t.kind = .eof)) (x : Token) (hx : x ∈ t :: rest) :
      ∃ pre lexeme post, Covers file x.span pre lexeme post ∧ (lexeme = [] ↔ x.kind = .eof) := by
    rcases List.mem_cons.mp hx with rfl | hx
    · exact ⟨_, _, _, here, kind⟩
    · exact ih x hx
  induction h with
  | @eof _ _ _ a _ skips _ _ kind span =>
    have here : Covers file a.here _ [] a.rest := covers_of_reads (start.trans skips) (.refl a)
    exact further (span ▸ here) ⟨fun _ => kind, fun _ => rfl⟩ (by simp)
  | token skips _ reads lexes span _ ih =>
    have here := covers_of_reads (start.trans skips) reads
    refine further (span ▸ here) ⟨fun eq => absurd eq lexes.nonempty, fun eof => ?_⟩
      (ih ((start.trans skips).trans reads))
    have := lexes.notEof
    rw [eof] at this
    cases this
  | text reads nonempty kind span _ _ _ ih =>
    have here := covers_of_reads start reads
    refine further (span ▸ here) ⟨fun eq => absurd eq nonempty, fun eof => ?_⟩
      (ih (start.trans reads))
    rw [kind] at eof
    cases eof

theorem offset_le_of_tiles (h : Lexer.Tiles found pre c tokens) :
    ∀ t ∈ tokens, c.offset ≤ t.span.lo := by
  induction h with
  | @eof _ _ c a _ skips _ _ _ span =>
    intro x hx
    rw [List.mem_singleton.mp hx, span]
    show c.offset ≤ a.offset
    have := skips.offset
    omega
  | @token _ _ _ c a b _ _ skips _ reads _ span _ ih =>
    intro x hx
    have first := skips.offset
    have second := reads.offset
    rcases List.mem_cons.mp hx with rfl | hx
    · rw [span]
      show c.offset ≤ a.offset
      omega
    · have := ih x hx
      omega
  | text reads _ _ span _ _ _ ih =>
    intro x hx
    have first := reads.offset
    rcases List.mem_cons.mp hx with rfl | hx
    · rw [span]
      exact Nat.le_refl _
    · have := ih x hx
      omega

theorem ordered_of_tiles (h : Lexer.Tiles found pre c tokens) :
    tokens.Pairwise fun a b => a.span.hi ≤ b.span.lo := by
  induction h with
  | eof => exact List.pairwise_singleton _ _
  | token _ _ _ _ span tiles ih =>
    exact List.pairwise_cons.mpr ⟨fun x hx => span ▸ offset_le_of_tiles tiles x hx, ih⟩
  | text _ _ _ span _ _ tiles ih =>
    exact List.pairwise_cons.mpr ⟨fun x hx => span ▸ offset_le_of_tiles tiles x hx, ih⟩

theorem spaced_of_tiles (h : Lexer.Tiles found pre c tokens)
    (start : (Cursor.ofText file.text.toList).Reads pre c) :
    Spaced file found.errors c.offset tokens := by
  -- the offsets of a place and of one behind a gap
  have offset {pre : List Char} {c : Cursor}
      (h : (Cursor.ofText file.text.toList).Reads pre c) : byteLength pre = c.offset :=
    (h.offset.trans (Nat.zero_add _)).symm
  induction h with
  | @eof pre skipped _ a _ skips gap _ _ span =>
    refine ⟨⟨pre, skipped, a.rest, (start.trans skips).rest, offset start, ?_, gap⟩, trivial⟩
    rw [offset (start.trans skips), span]
    rfl
  | @token pre skipped lexeme _ a b _ _ skips gap reads _ span _ ih =>
    refine ⟨⟨pre, skipped, a.rest, (start.trans skips).rest, offset start, ?_, gap⟩, ?_⟩
    · rw [offset (start.trans skips), span]
      rfl
    · rw [span]
      exact ih ((start.trans skips).trans reads)
  | @text pre lexeme c b t _ reads _ _ span newline _ _ ih =>
    refine ⟨⟨pre, [], c.rest, ?_, offset start, ?_, newline ▸ .nil⟩, ?_⟩
    · rw [List.append_nil]
      exact start.rest
    · rw [List.append_nil, offset start, span]
      rfl
    · rw [span]
      exact ih (start.trans reads)

theorem reaches_of_tiles (h : Lexer.Tiles found pre c tokens)
    (start : (Cursor.ofText file.text.toList).Reads pre c) (room : found.saturated = false) :
    ∀ t ∈ tokens, t.kind = .eof → t.span.lo = byteLength file.text.toList := by
  induction h with
  | @eof pre skipped _ a t skips _ stop _ span =>
    intro x hx _
    have whole := (start.trans skips).rest
    have offset := (start.trans skips).offset
    have done : a.rest = [] := stop.resolve_right (by rw [room]; exact Bool.false_ne_true)
    rw [done, List.append_nil] at whole
    rw [List.mem_singleton.mp hx, span]
    exact offset.trans ((Nat.zero_add _).trans (congrArg byteLength whole.symm))
  | token skips _ reads lexes _ _ ih =>
    intro x hx eof
    rcases List.mem_cons.mp hx with rfl | hx
    · have := lexes.notEof
      rw [eof] at this
      cases this
    · exact ih ((start.trans skips).trans reads) x hx eof
  | text reads _ kind _ _ _ _ ih =>
    intro x hx eof
    rcases List.mem_cons.mp hx with rfl | hx
    · rw [kind] at eof
      cases eof
    · exact ih (start.trans reads) x hx eof

/-- The tokens of every text tile it: one end of the file, behind all others; spans in order, between
characters, each with the line and column of its start; and between them nothing but gaps. -/
theorem tilesText (file : SourceFile) : (ofFile file).TilesText file where
  ends := by
    obtain ⟨code, eof, tokens, kind, all⟩ := (tiles file).ends
    refine ⟨code, eof, tokens, kind, fun t ht eq => ?_⟩
    have := all t ht
    rw [eq] at this
    cases this
  covers := covers_of_tiles (tiles file) (.refl _)
  ordered := ordered_of_tiles (tiles file)
  spaced := spaced_of_tiles (tiles file) (.refl _)
  reaches := reaches_of_tiles (tiles file) (.refl _)

end TokenStream

end TsxPreview
