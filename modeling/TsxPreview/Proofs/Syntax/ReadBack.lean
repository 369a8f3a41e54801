import TsxPreview.Proofs.Lexer.Reading
import TsxPreview.Proofs.Syntax.Reading
import TsxPreview.Syntax.Executable

/-!
Literals read back. The text that is printed for a string, or for a stretch of a template, is read as
one token with the value that was printed, whatever stands behind it, and nothing is reported.
-/

namespace TsxPreview

theorem Cursor.skip_skip (a b : Nat) (c : Cursor) : (c.skip a).skip b = c.skip (a + b) := by
  induction a generalizing c with
  | zero => simp [skip]
  | succ a ih => rw [Nat.add_right_comm]; exact ih c.advance

namespace Quoted

/-- A character that stands for itself between quotes. -/
theorem of_escape_eq {c : Char} (h : escape c = [c]) : c ≠ '"' ∧ c ≠ '\\' ∧ c ≠ '\n' := by
  refine ⟨?_, ?_, ?_⟩ <;> (rintro rfl; revert h; decide)

theorem escape_ne {c : Char} (h : escape c ≠ [c]) : ∃ tail, escape c = '\\' :: tail := by
  unfold escape at h ⊢
  repeat' split
  all_goals grind

/-- A text with each of its line breaks as a line feed. -/
def withLineFeeds : List Char → List Char
  | [] => []
  | '\r' :: cs => if cs.head? = some '\n' then withLineFeeds cs else '\n' :: withLineFeeds cs
  | c :: cs => c :: withLineFeeds cs

theorem withLineFeeds_cons {c : Char} (cs : List Char) (h : c ≠ '\r') :
    withLineFeeds (c :: cs) = c :: withLineFeeds cs := by
  rw [withLineFeeds]
  simpa using h

theorem withLineFeeds_return (cs : List Char) : withLineFeeds ('\r' :: cs)
    = (if cs.head? = some '\n' then [] else ['\n']) ++ withLineFeeds cs := by
  rw [withLineFeeds]
  split <;> rfl

/-- Exactly the texts without carriage returns stay as they are. -/
theorem withLineFeeds_eq_iff {cs : List Char} : withLineFeeds cs = cs ↔ '\r' ∉ cs := by
  have never (cs : List Char) : '\r' ∉ withLineFeeds cs := by
    induction cs with
    | nil => exact nofun
    | cons c cs ih =>
      by_cases h : c = '\r'
      · subst h
        rw [withLineFeeds_return]
        split <;> simp [ih]
      · rw [withLineFeeds_cons cs h]
        simp [ih, Ne.symm h]
  refine ⟨fun same => same ▸ never cs, fun none => ?_⟩
  induction cs with
  | nil => rfl
  | cons c cs ih =>
    simp only [List.mem_cons, not_or] at none
    rw [withLineFeeds_cons cs (Ne.symm none.1), ih none.2]

theorem length_le_encodeTemplate (cs : List Char) : cs.length ≤ (encodeTemplate cs).length := by
  induction cs using encodeTemplate.induct <;> simp_all [encodeTemplate] <;> omega

end Quoted

namespace Lexer

variable {s : State} {cs rest : List Char}

theorem State.skip_skip (a b : Nat) : (s.skip a).skip b = s.skip (a + b) := by
  simp [skip, Cursor.skip_skip]

theorem State.rest_skip (cs : List Char) (h : s.cursor.rest = cs ++ rest) :
    (s.skip cs.length).cursor.rest = rest := by
  rw [skip, Cursor.rest_skip, h, List.drop_left]

/-! ### Escapes -/

theorem readRadix_hexDigits : ∀ n < 32,
    readRadix 16 ['0', '0', Quoted.hexDigit (n / 16), Quoted.hexDigit (n % 16)] = some n ∧
      isHexDigit (Quoted.hexDigit (n / 16)) = true ∧
      isHexDigit (Quoted.hexDigit (n % 16)) = true := by
  decide

/-- The four digits of a control character. -/
theorem hexDigits_control {n : Nat} (control : n < 32)
    (h : s.cursor.rest = ['0', '0', Quoted.hexDigit (n / 16), Quoted.hexDigit (n % 16)] ++ rest) :
    hexDigits 4 4 s = (some n, s.skip 4) := by
  obtain ⟨value, high, low⟩ := readRadix_hexDigits n control
  have zero : isHexDigit '0' = true := by decide
  have digits : (s.cursor.rest.take 4).takeWhile isHexDigit
      = ['0', '0', Quoted.hexDigit (n / 16), Quoted.hexDigit (n % 16)] := by
    simp [h, List.takeWhile, zero, high, low]
  rw [hexDigits, digits]
  simp [value]

theorem escapedChar_toNat (start : Cursor) (c : Char) :
    escapedChar start (some c.toNat) s = (some c, s) := by
  have valid : Option.filter (fun n => decide n.isValidChar) (some c.toNat) = some c.toNat := by
    rw [Option.filter_some]
    exact if_pos (decide_eq_true c.valid)
  rw [escapedChar, valid]
  simp [Char.ofNat_toNat]

/-- An escape that was written for a character is read as that character. -/
theorem escape_quoted {c : Char} (escaped : Quoted.escape c ≠ [c])
    (h : s.cursor.rest = Quoted.escape c ++ rest) :
    escape s = (some c, s.skip (Quoted.escape c).length) := by
  unfold Quoted.escape at *
  by_cases h₁ : c = '"'
  · subst c; simp [escape, h]
  by_cases h₂ : c = '\\'
  · subst c; simp [escape, h]
  by_cases h₃ : c = '\n'
  · subst c; simp [escape, h]
  by_cases h₄ : c = '\r'
  · subst c; simp [escape, h]
  by_cases h₅ : c = '\t'
  · subst c; simp [escape, h]
  by_cases h₆ : c.toNat < 0x20
  · simp only [h₁, h₂, h₃, h₄, h₅, h₆, if_true, if_false] at h ⊢
    have digits := hexDigits_control h₆ (State.rest_skip ['\\', 'u'] h)
    simp only [List.length_cons, List.length_nil] at digits
    simp [escape, h, digits, escapedChar_toNat, State.skip_skip]
  · simp [h₁, h₂, h₃, h₄, h₅, h₆] at escaped

/-! ### Strings -/

/-- A text between quotes is read back, with what was read before it. -/
theorem quoted_flatMap (start : Cursor) (cs : List Char) {fuel : Nat} (read : List Char)
    (h : s.cursor.rest = cs.flatMap Quoted.escape ++ '"' :: rest) (enough : cs.length < fuel) :
    quoted start '"' fuel read s = (.string (String.ofList (read.reverse ++ cs)),
      s.skip ((cs.flatMap Quoted.escape).length + 1)) := by
  induction cs generalizing s fuel read with
  | nil =>
    obtain ⟨fuel, rfl⟩ : ∃ n, fuel = n + 1 := ⟨fuel - 1, by omega⟩
    simp at h
    simp [quoted, h]
  | cons c cs ih =>
    obtain ⟨fuel, rfl⟩ : ∃ n, fuel = n + 1 := ⟨fuel - 1, by omega⟩
    rw [List.flatMap_cons, List.append_assoc] at h
    have next := ih (c :: read) (State.rest_skip _ h) (by simpa using enough)
    rw [State.skip_skip] at next
    by_cases plain : Quoted.escape c = [c]
    · obtain ⟨noQuote, noSlash, noBreak⟩ := Quoted.of_escape_eq plain
      rw [plain] at h next
      simp only [List.flatMap_cons, plain, quoted, h, List.singleton_append, noQuote, noSlash,
        noBreak, if_false]
      simpa [Nat.add_comm, Nat.add_left_comm] using next
    · obtain ⟨tail, slash⟩ := Quoted.escape_ne plain
      have read := escape_quoted plain h
      rw [slash, List.cons_append] at h
      simp only [List.flatMap_cons, quoted, h, read]
      simpa [Nat.add_assoc] using next

theorem Quoted.length_le (cs : List Char) : cs.length ≤ (cs.flatMap Quoted.escape).length := by
  induction cs with
  | nil => exact Nat.le_refl 0
  | cons c cs ih =>
    have : 1 ≤ (Quoted.escape c).length := by
      by_cases plain : Quoted.escape c = [c]
      · simp [plain]
      · obtain ⟨tail, slash⟩ := Quoted.escape_ne plain
        simp [slash]
    simp only [List.flatMap_cons, List.length_append, List.length_cons]
    omega

/-- A printed string is read as the string that was printed. -/
theorem codeToken?_quote {value : String} (h : s.cursor.rest = (quote value).toList ++ rest) :
    codeToken? '"' s = some (.string value, s.skip (quote value).toList.length) := by
  have spelled : (quote value).toList = ['"'] ++ (value.toList.flatMap Quoted.escape ++ ['"']) := by
    simp [quote, Quoted.encode]
  rw [spelled, List.append_assoc, List.append_assoc] at h
  have enough : value.toList.length < s.cursor.rest.length := by
    have := Quoted.length_le value.toList
    simp only [h, List.length_append, List.length_cons]
    omega
  have read := quoted_flatMap s.cursor value.toList [] (State.rest_skip _ h) enough
  rw [spelled]
  simp only [codeToken?, show isIdentStart '"' = false by decide,
    show isDecimalDigit '"' = false by decide]
  simpa [State.skip_skip, Nat.add_comm, Nat.add_left_comm] using read

/-! ### Templates -/

theorem head?_encodeTemplate (cs : List Char) :
    (Quoted.encodeTemplate cs).head? = some '\x7b' ↔ cs.head? = some '\x7b' := by
  cases cs using Quoted.encodeTemplate.fun_cases <;> simp_all [Quoted.encodeTemplate]

/-- A mark behind a backslash stands for itself. -/
theorem template_mark (start : Cursor) (head : Bool) (fuel : Nat) (read : List Char) {c : Char}
    (h : s.cursor.rest = '\\' :: c :: rest) (mark : c = '\\' ∨ c = '`' ∨ c = '$') :
    template start head (fuel + 1) read s = template start head fuel (c :: read) (s.skip 2) := by
  have escaped : escape s = (some c, s.skip 2) := by
    rcases mark with rfl | rfl | rfl <;> simp [escape, h]
  rw [template.eq_def]
  simp only [h, escaped]

/-- A character that is no mark stands for itself, but a dollar sign may not stand before a brace. -/
theorem template_plain (start : Cursor) (head : Bool) (fuel : Nat) (read : List Char) {c : Char}
    (h : s.cursor.rest = c :: rest) (noSlash : c ≠ '\\') (noTick : c ≠ '`') (noReturn : c ≠ '\r')
    (noBrace : c = '$' → rest.head? ≠ some '\x7b') :
    template start head (fuel + 1) read s = template start head fuel (c :: read) (s.skip 1) := by
  have noBrace (tail : List Char) : c = '$' → rest ≠ '\x7b' :: tail := by
    rintro mark rfl
    exact noBrace mark rfl
  rw [template.eq_def]
  simp only [h]

/-- A carriage return is read as a line feed, or as a part of the one behind it. -/
theorem template_return (start : Cursor) (head : Bool) (fuel : Nat) (read : List Char)
    (h : s.cursor.rest = '\r' :: rest) :
    template start head (fuel + 1) read s
      = template start head fuel ((if rest.head? = some '\n' then [] else ['\n']) ++ read)
          (s.skip 1) := by
  rw [template.eq_def]
  simp only [h]
  split <;> rfl

/-- The text of a template is read back with line feeds, up to what stands behind it. -/
theorem template_encodeTemplate (start : Cursor) (head : Bool) (cs : List Char) (fuel : Nat)
    (read : List Char) (h : s.cursor.rest = Quoted.encodeTemplate cs ++ rest)
    (next : rest.head? ≠ some '\x7b' ∧ rest.head? ≠ some '\n') :
    template start head (fuel + cs.length) read s
      = template start head fuel ((Quoted.withLineFeeds cs).reverse ++ read)
          (s.skip (Quoted.encodeTemplate cs).length) := by
  have plain {c : Char} (cs : List Char) (read : List Char) (other : c ≠ '\r') :
      (Quoted.withLineFeeds (c :: cs)).reverse ++ read
        = (Quoted.withLineFeeds cs).reverse ++ c :: read := by
    simp [Quoted.withLineFeeds_cons cs other]
  induction cs using Quoted.encodeTemplate.induct generalizing s fuel read with
  | case1 => rfl
  | case2 cs ih =>
    have later := ih fuel ('\\' :: read) (State.rest_skip ['\\', '\\'] h)
    rw [List.length_cons, ← Nat.add_assoc, template_mark start head _ read h (.inl rfl),
      plain cs read (by decide)]
    simpa [Quoted.encodeTemplate, State.skip_skip, Nat.add_comm 2] using later
  | case3 cs ih =>
    have later := ih fuel ('`' :: read) (State.rest_skip ['\\', '`'] h)
    rw [List.length_cons, ← Nat.add_assoc, template_mark start head _ read h (.inr (.inl rfl)),
      plain cs read (by decide)]
    simpa [Quoted.encodeTemplate, State.skip_skip, Nat.add_comm 2] using later
  | case4 cs ih =>
    have brace : (s.skip 2).cursor.rest = '\x7b' :: (Quoted.encodeTemplate cs ++ rest) :=
      State.rest_skip ['\\', '$'] h
    have later := ih fuel ('\x7b' :: '$' :: read) (State.rest_skip ['\\', '$', '\x7b'] h)
    rw [List.length_cons, List.length_cons, ← Nat.add_assoc, ← Nat.add_assoc,
      template_mark start head _ read h (.inr (.inr rfl)),
      template_plain start head _ _ brace (by decide) (by decide) (by decide) (by simp),
      plain _ read (by decide), plain cs _ (by decide)]
    simpa [Quoted.encodeTemplate, State.skip_skip, Nat.add_comm 3] using later
  | case5 c cs notSlash notTick notMark ih =>
    have encoded : Quoted.encodeTemplate (c :: cs) = c :: Quoted.encodeTemplate cs :=
      Quoted.encodeTemplate.eq_5 c cs notSlash notTick notMark
    rw [encoded] at h ⊢
    by_cases isReturn : c = '\r'
    · subst isReturn
      have behind : (Quoted.encodeTemplate cs ++ rest).head? = some '\n' ↔ cs.head? = some '\n' := by
        cases cs using Quoted.encodeTemplate.fun_cases <;> simp_all [Quoted.encodeTemplate]
      have later := ih fuel ((if cs.head? = some '\n' then [] else ['\n']) ++ read)
        (State.rest_skip ['\r'] h)
      have here : s.cursor.rest = '\r' :: (Quoted.encodeTemplate cs ++ rest) := h
      rw [List.length_cons, ← Nat.add_assoc, template_return start head _ read here,
        Quoted.withLineFeeds_return]
      by_cases feed : cs.head? = some '\n'
      · rw [if_pos feed] at later ⊢
        rw [if_pos (behind.mpr feed)]
        simpa [State.skip_skip, Nat.add_comm] using later
      · rw [if_neg feed] at later ⊢
        rw [if_neg (mt behind.mp feed)]
        simpa [State.skip_skip, Nat.add_comm] using later
    have later := ih fuel (c :: read) (State.rest_skip [c] h)
    -- a dollar sign is followed by no brace, neither of the text nor of what stands behind it
    have noBrace : c = '$' → (Quoted.encodeTemplate cs ++ rest).head? ≠ some '\x7b' := by
      intro mark brace
      cases cs with
      | nil => exact next.1 brace
      | cons d cs =>
        have head : (Quoted.encodeTemplate (d :: cs)).head? = some '\x7b' := by
          rw [List.head?_append] at brace
          cases found : (Quoted.encodeTemplate (d :: cs)).head? <;> simp_all
        rw [head?_encodeTemplate] at head
        exact notMark cs mark (by simp_all)
    rw [List.length_cons, ← Nat.add_assoc,
      template_plain start head _ read h notSlash notTick isReturn noBrace, plain cs read isReturn]
    simpa [State.skip_skip, Nat.add_comm] using later

/-- The last text of a template, up to its closing backtick. -/
theorem template_last (start : Cursor) (head : Bool) (cs : List Char) {fuel : Nat}
    (h : s.cursor.rest = Quoted.encodeTemplate cs ++ '`' :: rest) (enough : cs.length < fuel) :
    template start head fuel [] s
      = (if head then .templateWhole (String.ofList (Quoted.withLineFeeds cs))
          else .templateTail (String.ofList (Quoted.withLineFeeds cs)),
        s.skip ((Quoted.encodeTemplate cs).length + 1)) := by
  obtain ⟨fuel, rfl⟩ : ∃ n, fuel = n + 1 + cs.length := ⟨fuel - 1 - cs.length, by omega⟩
  rw [template_encodeTemplate start head cs _ _ h (by simp), template]
  simp [State.rest_skip _ h, State.skip_skip, template.last]

/-- A text of a template before a substitution. -/
theorem template_before (start : Cursor) (head : Bool) (cs : List Char) {fuel : Nat}
    (h : s.cursor.rest = Quoted.encodeTemplate cs ++ '$' :: '\x7b' :: rest)
    (enough : cs.length < fuel) :
    template start head fuel [] s
      = (if head then .templateHead (String.ofList (Quoted.withLineFeeds cs))
          else .templateMiddle (String.ofList (Quoted.withLineFeeds cs)),
        (s.skip ((Quoted.encodeTemplate cs).length + 2)).pushMode (.code 0 .template)) := by
  obtain ⟨fuel, rfl⟩ : ∃ n, fuel = n + 1 + cs.length := ⟨fuel - 1 - cs.length, by omega⟩
  rw [template_encodeTemplate start head cs _ _ h (by simp), template]
  simp [State.rest_skip _ h, State.skip_skip]

/-! ### Words -/

/-- A word that ends where it was printed to end is read as a whole. -/
theorem codeToken?_word {c : Char} {name : String} (h : s.cursor.rest = name.toList ++ rest)
    (letter : isIdentStart c = true)
    (continues : ∀ d ∈ name.toList, isIdentContinue d = true)
    (ends : ∀ d ∈ rest.head?, isIdentContinue d = false) :
    codeToken? c s = some (match Keyword.ofText? name with
      | some k => .keyword k
      | none => .identifier name, s.skip name.toList.length) := by
  have taken : s.cursor.rest.takeWhile (fun d => isIdentContinue d || (false && d == '-'))
      = name.toList := by
    rw [h, List.takeWhile_append_of_pos (by simpa using continues)]
    cases rest with
    | nil => simp
    | cons d rest => simp [ends d (by simp)]
  simp only [codeToken?, letter, if_true, word, taken, String.ofList_toList]
  rfl

end Lexer

namespace Parser.Grammar

/-- Only a name, a star or the parameters follow the word `function`. -/
theorem functionExpr_reserved (g : Grammar) {i : Input} {s : State} {m : Nat} {k : Keyword}
    (function : i.kindAt m = .keyword .function) (name : i.kindAt (m + 1) = .keyword k)
    (inside : m + 1 < i.tokens.size) : Fails i s m g.functionExpr := by
  have no (p : Punct) : (i.kindAt (m + 1)).isPunct p = false := by rw [name]; rfl
  have word : Reads i s m (expectKeyword .function) (i.tokenAt m) (m + 1) :=
    .bind .peekKind (.ite_true (by rw [function]; rfl) (.advance inside))
  have noTypes : Reads i s (m + 1) g.typeParametersIfAny () (m + 1) :=
    .bind (.check .less) (.ite_false (by simp [no]) (.pure ()))
  have noParams : Fails i s (m + 1) g.parameters := .first _ (.expect (no .lParen))
  refine .after word (.after (.check .star) ?_)
  rw [no, if_neg Bool.false_ne_true]
  refine .after .peekKind ?_
  rw [name]
  exact .after (.pure none) (.after noTypes (.first _ noParams))

end Parser.Grammar

/-- A method is printed as a function of its name, and the name may be a reserved word. -/
theorem Executable.text_not_read :
    let source := "const store = \x7b delete(id) \x7b return id; \x7d \x7d;\n"
    let printed :=
      "const store = \x7b delete: function delete(id) \x7b\n  return id;\n\x7d \x7d;\n"
    (Executable.ofLoneText "/App.tsx" source).toOption.map Executable.text = some printed ∧
      (Parsed.ofFile ⟨"/App.tsx", printed⟩).module?.isNone := by
  constructor <;> decide +kernel

end TsxPreview
