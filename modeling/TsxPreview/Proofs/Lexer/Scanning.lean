import TsxPreview.Proofs.Lexer.Progress
import TsxPreview.Proofs.Syntax.ReadBack

/-!
Texts that are read as known tokens. A piece of text stands for a list of token kinds if, wherever
the lexer meets it in front of a given rest, it makes these tokens on one line, reports nothing and
stops before the rest. Pieces follow one another, so that a whole text is read by reading its pieces.
-/

namespace TsxPreview

namespace Lexer

/-! ### Where a lexer stands -/

/-- The lexer is in front of `rest`, on the line of the token before, and nothing was reported. -/
structure State.At (s : State) (modes : List Mode) (rest : List Char) : Prop where
  rest : s.cursor.rest = rest
  modes : s.modes = modes
  found : s.found = .empty
  sameLine : s.sawNewline = false

variable {s t u : State} {modes modes' outer : List Mode} {depth : Nat} {closer : Closer}
  {cs ds rest : List Char} {kind : TokenKind} {kinds kinds' : List TokenKind}

theorem State.At.skip (h : s.At modes (cs ++ rest)) : (s.skip cs.length).At modes rest :=
  ⟨s.rest_skip cs h.rest, h.modes, h.found, h.sameLine⟩

/-- All tokens from here on, and the state behind them. -/
def State.stream (s : State) : List Token × State := run (s.left + 1) s

/-- The tokens from `s` to `t` are of these kinds, and no line break stands before any of them. -/
def Emits (s : State) (kinds : List TokenKind) (t : State) : Prop :=
  ∃ tokens, tokens.map Token.kind = kinds ∧ (∀ token ∈ tokens, token.newlineBefore = false) ∧
    s.stream = (tokens ++ t.stream.1, t.stream.2)

theorem Emits.refl (s : State) : Emits s [] s := ⟨[], rfl, by simp, rfl⟩

theorem Emits.trans (h : Emits s kinds t) (k : Emits t kinds' u) : Emits s (kinds ++ kinds') u := by
  obtain ⟨first, rfl, firstLine, first_eq⟩ := h
  obtain ⟨second, rfl, secondLine, second_eq⟩ := k
  refine ⟨first ++ second, List.map_append, ?_, ?_⟩
  · intro token mem
    rcases List.mem_append.mp mem with mem | mem
    · exact firstLine token mem
    · exact secondLine token mem
  · rw [first_eq, second_eq, List.append_assoc]

/-! ### One step -/

theorem trivia_of_stops (h : Stops s.cursor.rest) : trivia s = s := by
  unfold trivia skipTrivia
  split
  · rename_i eq
    exact (h.visible _ _ eq (.inl rfl)).elim
  · rename_i eq
    have := h.code
    simp [eq, opensComment] at this
  · rename_i eq
    have := h.code
    simp [eq, opensComment] at this
  · rename_i eq
    have visible := h.visible _ _ eq
    simp only [isTrivial, not_or] at visible
    rw [if_neg (by simp [visible]), if_neg (by simpa using visible.2.2.2.2)]
  · rfl

theorem step_of_codeToken? {c : Char} (h : s.At (.code depth closer :: outer) (c :: rest))
    (stops : Stops (c :: rest)) (read : codeToken? c s = some (kind, t)) :
    step s = (t.token s.cursor kind, t) := by
  have calm : s.found.saturated = false := by rw [h.found]; decide
  simp [step, State.mode, h.modes, next, trivia_of_stops (h.rest ▸ stops), h.rest, calm, read]

/-- A step that makes a token. -/
theorem emits_of_step {token : Token} (step_eq : step s = (token, t)) (calm : s.found = .empty)
    (sameLine : t.sawNewline = false) (notEof : token.kind.isEof = false) (less : t.left < s.left) :
    Emits s [token.kind] (settle token t).2 := by
  have unsaturated : s.found.saturated = false := by rw [calm]; decide
  refine ⟨[(settle token t).1], rfl, by simp [settle, sameLine], ?_⟩
  have ends : run s.left (settle token t).2 = (settle token t).2.stream :=
    run_ends _ _ _ less (Nat.lt_succ_self _)
  rw [State.stream, run]
  simp only [unsaturated, Bool.false_eq_true, if_false, step_eq, ends]
  simp [settle, notEof]

theorem step_space (h : s.At (.code depth closer :: outer) (' ' :: rest)) :
    step s = step (s.skip 1) := by
  have less : (s.skip 1).left < s.left := State.left_skip h.rest 0
  have passed : trivia s = trivia (s.skip 1) := by
    have first : skipTrivia (s.left + 1) s = skipTrivia s.left (s.skip 1) := by
      simp [skipTrivia, h.rest]
    exact first.trans (skipTrivia_ends _ _ _ less (Nat.lt_succ_self _))
  have here : (s.skip 1).modes = .code depth closer :: outer := h.modes
  have fuel : next codeToken? "" ((s.skip 1).left + 1) (s.skip 1)
      = next codeToken? "" (s.left + 1) (s.skip 1) :=
    next_ends _ _ _ _ _ (Nat.lt_succ_self _) (by omega)
  simp only [step, State.mode, h.modes, here, List.headD_cons]
  rw [fuel, next, next, passed]

theorem emits_space (h : s.At (.code depth closer :: outer) (' ' :: rest)) :
    Emits s [] (s.skip 1) := by
  have less : (s.skip 1).left < s.left := State.left_skip h.rest 0
  have unsaturated : s.found.saturated = false := by rw [h.found]; decide
  have fuel : (s.skip 1).stream = run (s.left + 1) (s.skip 1) :=
    run_ends _ _ _ (Nat.lt_succ_self _) (by omega)
  refine ⟨[], rfl, by simp, ?_⟩
  rw [fuel, State.stream, run, run, step_space h,
    show (s.skip 1).found.saturated = s.found.saturated from rfl]
  simp [unsaturated]

/-! ### Pieces of text -/

/-- Wherever `cs` stands in front of `rest`, it is read as tokens of these kinds. -/
def Scans (modes : List Mode) (cs : List Char) (kinds : List TokenKind) (modes' : List Mode)
    (rest : List Char) : Prop :=
  ∀ s : State, s.At modes (cs ++ rest) → ∃ t : State, t.At modes' rest ∧ Emits s kinds t

namespace Scans

theorem nil : Scans modes [] [] modes rest := fun s h => ⟨s, h, .refl s⟩

theorem append {middle : List Mode} (h : Scans modes cs kinds middle (ds ++ rest))
    (k : Scans middle ds kinds' modes' rest) :
    Scans modes (cs ++ ds) (kinds ++ kinds') modes' rest := by
  intro s start
  rw [List.append_assoc] at start
  obtain ⟨t, middle, first⟩ := h s start
  obtain ⟨u, stop, second⟩ := k t middle
  exact ⟨u, stop, first.trans second⟩

theorem space (h : Scans (.code depth closer :: outer) cs kinds modes' rest) :
    Scans (.code depth closer :: outer) (' ' :: cs) kinds modes' rest := by
  intro s start
  have here : s.At _ ([' '] ++ (cs ++ rest)) := start
  obtain ⟨t, stop, emits⟩ := h (s.skip 1) here.skip
  exact ⟨t, stop, (emits_space start).trans emits⟩

/-- One token. -/
theorem token {c : Char} (stops : Stops (c :: cs ++ rest)) (notEof : kind.isEof = false)
    (read : ∀ s : State, s.At (.code depth closer :: outer) (c :: cs ++ rest) →
      ∃ t : State, codeToken? c s = some (kind, t) ∧ t.At modes' rest) :
    Scans (.code depth closer :: outer) (c :: cs) [kind] modes' rest := by
  intro s start
  obtain ⟨t, found, stop⟩ := read s start
  refine ⟨(settle (t.token s.cursor kind) t).2, ⟨stop.rest, stop.modes, stop.found, rfl⟩, ?_⟩
  refine emits_of_step (step_of_codeToken? start stops found) start.found stop.sameLine notEof ?_
  rw [State.left, State.left, stop.rest, start.rest]
  simp only [List.length_append, List.length_cons]
  omega

/-- One token that only moves the lexer along. -/
theorem skip {c : Char} (stops : Stops (c :: cs ++ rest)) (notEof : kind.isEof = false)
    (read : ∀ s : State, s.cursor.rest = c :: cs ++ rest →
      codeToken? c s = some (kind, s.skip (c :: cs).length)) :
    Scans (.code depth closer :: outer) (c :: cs) [kind] (.code depth closer :: outer) rest :=
  .token stops notEof fun s start => ⟨_, read s start.rest, start.skip⟩

end Scans

/-! ### Tokens of code -/

/-- What may continue a punctuator. -/
def continuesPunct (c : Char) : Bool :=
  c ∈ ['=', '+', '-', '*', '&', '|', '?', '.', '/', '>'] || isDecimalDigit c

theorem isIdentStart_of_isDecimalDigit {c : Char} (h : isDecimalDigit c = true) :
    isIdentStart c = false := by
  have bounds : 48 ≤ c.toNat ∧ c.toNat ≤ 57 := by
    simpa [isDecimalDigit, Char.le_def, UInt32.le_iff_toNat_le] using h
  have other : c ≠ '_' ∧ c ≠ '$' := by
    constructor <;> rintro rfl <;> exact absurd h (by decide)
  have value : c.val.toNat = c.toNat := rfl
  delta isIdentStart Char.isAlpha Char.isUpper Char.isLower
  simp [other, UInt32.le_iff_toNat_le]
  omega

theorem continuesPunct_of_isIdentStart {c : Char} (h : isIdentStart c = true) :
    continuesPunct c = false := by
  rw [continuesPunct, Bool.or_eq_false_iff]
  constructor
  · simp only [List.mem_cons, List.not_mem_nil, or_false, decide_eq_false_iff_not]
    rintro (rfl | rfl | rfl | rfl | rfl | rfl | rfl | rfl | rfl | rfl) <;> exact absurd h (by decide)
  · cases digit : isDecimalDigit c with
    | false => rfl
    | true =>
      rw [isIdentStart_of_isDecimalDigit digit] at h
      cases h

/-- Neither a brace nor a sign of markup: the lexer reads these in their own ways. -/
def isPlainPunct (p : Punct) : Bool :=
  !p ∈ [Punct.less, .lessEq, .lBrace, .rBrace, .jsxLt, .jsxCloseStart, .jsxSelfClose]

theorem punctuator?_apart {p : Punct} {rest : List Char} (plain : isPlainPunct p = true)
    (apart : rest.head?.all (!continuesPunct ·) = true) :
    punctuator? (p.text.toList ++ rest) = some (p, p.text.toList.length) := by
  cases rest with
  | nil => cases p <;> first | rfl | exact absurd plain (by decide)
  | cons c rest =>
    have no : continuesPunct c = false := by simpa using apart
    simp only [continuesPunct, List.mem_cons, List.not_mem_nil, or_false, Bool.or_eq_false_iff,
      decide_eq_false_iff_not, not_or] at no
    cases p <;> first | rfl | exact absurd plain (by decide) | simp [Punct.text, punctuator?, no]

/-- How a punctuator starts, and how it goes on. -/
theorem exists_text_eq {p : Punct} (plain : isPlainPunct p = true) :
    ∃ c tail, p.text.toList = c :: tail ∧ isIdentStart c = false ∧ isDecimalDigit c = false ∧
      isBlank c = false ∧ c ∉ ['"', '\'', '`', '<', '\x7b', '\x7d'] ∧
      tail.all (!isDecimalDigit ·) = true ∧ (c = '/' → tail = [] ∨ tail = ['=']) := by
  cases p <;> first
    | exact absurd plain (by decide)
    | exact ⟨_, [], rfl, by decide⟩
    | exact ⟨_, [_], rfl, by decide⟩
    | exact ⟨_, [_, _], rfl, by decide⟩

/-- No punctuator starts with one of these and goes on. -/
def isSolid (p : Punct) : Bool :=
  p ∈ [Punct.lParen, .rParen, .lBracket, .rBracket, .comma, .semicolon, .colon, .dotDotDot]

theorem punctuator?_solid {p : Punct} {rest : List Char} (solid : isSolid p = true) :
    punctuator? (p.text.toList ++ rest) = some (p, p.text.toList.length) := by
  cases p <;> first | rfl | exact absurd solid (by decide)

theorem codeToken?_punct {p : Punct} {c : Char} {tail : List Char} (plain : isPlainPunct p = true)
    (read : punctuator? (p.text.toList ++ rest) = some (p, p.text.toList.length))
    (noNumber : c = '.' → (tail ++ rest).head?.all (!isDecimalDigit ·) = true)
    (text : p.text.toList = c :: tail)
    (h : s.cursor.rest = c :: tail ++ rest) :
    codeToken? c s = some (.punct p, s.skip (c :: tail).length) := by
  obtain ⟨c', tail', text', notLetter, notDigit, -, other, noDigits, -⟩ := exists_text_eq plain
  obtain ⟨rfl, rfl⟩ : c' = c ∧ tail' = tail := by simpa using text'.symm.trans text
  have digits : (c' == '.' && (s.cursor.ahead? 1).any isDecimalDigit) = false := by
    rw [Cursor.ahead?, h, Bool.and_eq_false_imp]
    intro dot
    have next := noNumber (by simpa using dot)
    cases here : tail' ++ rest <;> simp_all
  rw [text, ← h] at read
  unfold codeToken?
  simp only [notLetter, notDigit, digits, Bool.or_self, Bool.false_eq_true, if_false]
  split <;> simp_all

namespace Scans

theorem stops_of_visible {c : Char} (visible : isBlank c = false)
    (noComment : c = '/' → rest.head? ≠ some '/' ∧ rest.head? ≠ some '*') : Stops (c :: rest) := by
  refine ⟨?_, ?_⟩
  · unfold opensComment
    split <;> simp_all
  · rintro d more eq trivial
    obtain ⟨rfl, rfl⟩ := List.cons.inj eq
    rcases trivial with rfl | rfl | rfl | rfl | ⟨-, blank⟩
    all_goals first | exact absurd visible (by decide) | simp_all

/-- A punctuator in front of something that does not continue it. -/
theorem punct {p : Punct} (plain : isPlainPunct p = true)
    (apart : rest.head?.all (!continuesPunct ·) = true) :
    Scans (.code depth closer :: outer) p.text.toList [.punct p] (.code depth closer :: outer)
      rest := by
  obtain ⟨c, tail, text, -, -, visible, -, noDigits, slash⟩ := exists_text_eq plain
  rw [text]
  refine .skip (stops_of_visible visible fun eq => ?_) rfl fun s h =>
    codeToken?_punct plain (punctuator?_apart plain apart) (fun _ => ?_) text h
  · rcases slash eq with rfl | rfl
    · cases rest <;> simp_all [continuesPunct]
    · simp
  · cases tail <;> cases rest <;> simp_all [continuesPunct]

/-- A punctuator that nothing continues. -/
theorem solid {p : Punct} (solid : isSolid p = true) :
    Scans (.code depth closer :: outer) p.text.toList [.punct p] (.code depth closer :: outer)
      rest := by
  have plain : isPlainPunct p = true := by
    cases p <;> first | rfl | exact absurd solid (by decide)
  obtain ⟨c, tail, text, -, -, visible, -, noDigits, -⟩ := exists_text_eq plain
  have single : c = '.' → tail = ['.', '.'] := by
    cases p <;> first | exact absurd solid (by decide) | cases text <;> decide
  have noSlash : c ≠ '/' := by
    cases p <;> first | exact absurd solid (by decide) | cases text <;> decide
  rw [text]
  refine .skip (stops_of_visible visible fun eq => absurd eq noSlash) rfl fun s h =>
    codeToken?_punct plain (punctuator?_solid solid) (fun dot => ?_) text h
  rw [single dot]
  rfl

/-- The one comparison that starts like a tag. -/
theorem lessEq : Scans (.code depth closer :: outer) Punct.lessEq.text.toList [.punct .lessEq]
    (.code depth closer :: outer) rest := by
  have spelled : Punct.lessEq.text.toList = ['<', '='] := rfl
  rw [spelled]
  refine .skip (stops_of_visible (by decide) (by simp)) rfl fun s h => ?_
  have next : s.cursor.ahead? 1 = some '=' := by rw [Cursor.ahead?, h]; rfl
  have noLetter : isIdentStart '=' = false := by decide
  simp [codeToken?, show isIdentStart '<' = false by decide,
    show isDecimalDigit '<' = false by decide, lessThan, next, noLetter]

/-- A printed string, whatever follows it. -/
theorem string (value : String) :
    Scans (.code depth closer :: outer) (quote value).toList [.string value]
      (.code depth closer :: outer) rest := by
  have spelled : (quote value).toList = '"' :: (value.toList.flatMap Quoted.escape ++ ['"']) := by
    simp [quote, Quoted.encode]
  rw [spelled]
  refine .skip (stops_of_visible (by decide) (by simp)) rfl fun s h => ?_
  rw [← spelled] at h ⊢
  exact codeToken?_quote h

end Scans

/-! ### Words -/

/-- A text that the lexer reads as one word. -/
def isWord (name : String) : Bool :=
  match name.toList with
  | [] => false
  | c :: rest => isIdentStart c && !isBlank c && rest.all isIdentContinue

/-- What a word is read as. -/
def wordKind (name : String) : TokenKind :=
  match Keyword.ofText? name with
  | some k => .keyword k
  | none => .identifier name

theorem wordKind_text (k : Keyword) : wordKind k.text = .keyword k := by
  have found : Keyword.ofText? k.text = some k := by cases k <;> decide
  rw [wordKind, found]

theorem isWord_text (k : Keyword) : isWord k.text = true := by
  cases k <;> decide

theorem propertyName?_wordKind (name : String) : (wordKind name).propertyName? = some name := by
  unfold wordKind
  split
  · rename_i k eq
    exact congrArg some (Keyword.text_of_ofText? eq)
  · rfl

/-- A word in front of something that does not continue it. -/
theorem Scans.word {name : String} (word : isWord name = true)
    (ends : rest.head?.all (!isIdentContinue ·) = true) :
    Scans (.code depth closer :: outer) name.toList [wordKind name]
      (.code depth closer :: outer) rest := by
  unfold isWord at word
  split at word
  · cases word
  rename_i c tail spelled
  simp only [Bool.and_eq_true, Bool.not_eq_true'] at word
  obtain ⟨⟨letter, visible⟩, continues⟩ := word
  rw [spelled]
  refine .skip (stops_of_visible visible fun slash => ?_) ?_ fun s h => ?_
  · subst slash
    exact absurd letter (by decide)
  · unfold wordKind
    split <;> rfl
  · rw [← spelled] at h ⊢
    refine codeToken?_word h letter ?_ ?_
    · rw [spelled]
      rintro d (_ | ⟨_, mem⟩)
      · simp [isIdentContinue, letter]
      · exact List.all_eq_true.mp continues d mem
    · cases rest <;> simp_all

/-! ### The end of a text -/

theorem stream_end (h : s.At (.code depth closer :: outer) rest)
    (blank : rest = [] ∨ rest = ['\n']) :
    ∃ eof t, s.stream = ([eof], t) ∧ eof.kind = .eof ∧ t.found = .empty := by
  have unsaturated : s.found.saturated = false := by rw [h.found]; decide
  have passed : (trivia s).cursor.rest = [] ∧ (trivia s).found = .empty := by
    rcases blank with rfl | rfl
    · rw [trivia_of_stops ⟨by rw [h.rest]; rfl, by simp [h.rest]⟩]
      exact ⟨h.rest, h.found⟩
    · have behind : (s.skip 1).cursor.rest = [] := s.rest_skip ['\n'] h.rest
      have skipped : trivia s = { s.skip 1 with sawNewline := true } := by
        simp [trivia, skipTrivia, h.rest, behind]
      rw [skipped]
      exact ⟨behind, h.found⟩
  have step_eq : step s = ((trivia s).eofToken, trivia s) := by
    simp [step, State.mode, h.modes, next, passed.1]
  refine ⟨(settle (trivia s).eofToken (trivia s)).1, (settle (trivia s).eofToken (trivia s)).2,
    ?_, rfl, passed.2⟩
  rw [State.stream, run]
  simp [unsaturated, step_eq, settle, State.eofToken, TokenKind.isEof]

end Lexer

/-- The tokens of a text whose pieces are read as known tokens. -/
theorem TokenStream.ofFile_of_scans (name : String) {text : String} {cs rest : List Char}
    {kinds : List TokenKind} {depth : Nat} {closer : Lexer.Closer} {outer : List Lexer.Mode}
    (scans : Lexer.Scans [.code 0 .root] cs kinds (.code depth closer :: outer) rest)
    (whole : text.toList = cs ++ rest) (blank : rest = [] ∨ rest = ['\n']) :
    ∃ tokens eof, TokenStream.ofFile ⟨name, text⟩ = ⟨tokens ++ [eof], .empty⟩ ∧
      tokens.map Token.kind = kinds ∧ (∀ token ∈ tokens, token.newlineBefore = false) ∧
      eof.kind = .eof := by
  have start : (Lexer.State.ofFile ⟨name, text⟩).At [.code 0 .root] (cs ++ rest) :=
    ⟨whole, rfl, rfl, rfl⟩
  obtain ⟨t, stop, tokens, kinds, sameLine, stream⟩ := scans _ start
  obtain ⟨eof, u, last, isEof, calm⟩ := Lexer.stream_end stop blank
  refine ⟨tokens, eof, ?_, kinds, sameLine, isEof⟩
  have fuel : Lexer.run ((Lexer.State.ofFile ⟨name, text⟩).cursor.rest.length + 2)
      (Lexer.State.ofFile ⟨name, text⟩) = (Lexer.State.ofFile ⟨name, text⟩).stream :=
    Lexer.run_ends _ _ _ (by rw [Lexer.State.left]; omega) (Nat.lt_succ_self _)
  rw [TokenStream.ofFile, fuel, stream, last]
  simp [calm]

/-- The text of a printed string is read as that string and nothing else, and nothing is wrong with
it. -/
theorem TokenStream.ofFile_quote (name value : String) :
    (TokenStream.ofFile ⟨name, quote value⟩).tokens.map Token.kind = [.string value, .eof] ∧
      (TokenStream.ofFile ⟨name, quote value⟩).diagnostics = .empty := by
  obtain ⟨tokens, eof, stream, kinds, -, isEof⟩ := TokenStream.ofFile_of_scans name
    (Lexer.Scans.string value) (List.append_nil _).symm (.inl rfl)
  rw [stream]
  simp [kinds, isEof]

end TsxPreview
