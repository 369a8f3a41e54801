import TsxPreview.Proofs.Lexer.Reading

/-!
What the readers of words, numbers, quoted texts and templates read. None of them forgets what was
found, and none notes a line break.
-/

namespace TsxPreview

namespace Lexer

/-! ## Words and numbers -/

theorem not_newline_of_mem_takeWhile {p : Char → Bool} (h : p '\n' = false) (cs : List Char) :
    '\n' ∉ cs.takeWhile p := by
  intro mem
  have holds := List.all_eq_true.mp List.all_takeWhile _ mem
  rw [h] at holds
  cases holds

theorem Keyword.text_of_ofText? {text : String} {k : Keyword} (h : Keyword.ofText? text = some k) :
    k.text = text := by
  have := List.find?_some h
  exact eq_of_beq this

theorem readsToken_word {s : State} {c : Char} {rest : List Char} (inTag : Bool)
    (h : s.cursor.rest = c :: rest) (start : isIdentStart c = true) (blank : isBlank c = false) :
    ReadsToken s (word inTag s) := by
  let p : Char → Bool := fun c => isIdentContinue c || (inTag && c == '-')
  have first : p c = true := by simp [p, isIdentContinue, start]
  have cs : s.cursor.rest.takeWhile p = c :: rest.takeWhile p := by
    rw [h, List.takeWhile_cons_of_pos first]
  -- a word ends before the end of its line
  have newline : p '\n' = false := by cases inTag <;> decide
  refine ⟨⟨.refl _, rfl⟩, s.cursor.rest.takeWhile p, s.reads_skipWhile p, ?_⟩
  have solid : EndsSolid (s.cursor.rest.takeWhile p) (word inTag s).2.cursor.rest := by
    rw [cs]
    exact .of_line blank (not_newline_of_mem_takeWhile newline rest)
  have kind : Spells (word inTag s).1 (s.cursor.rest.takeWhile p) ∧
      isMarkupText (word inTag s).1 = false := by
    unfold word
    dsimp only
    split
    · rename_i k found
      split at found
      · cases found
      · refine ⟨?_, rfl⟩
        show _ = k.text.toList
        rw [Keyword.text_of_ofText? found, String.toList_ofList]
    · exact ⟨⟨String.toList_ofList.symm, c, _, cs, start⟩, rfl⟩
  exact ⟨by simp [cs], kind.1, kind.2, solid⟩

/-- A token that stays on one line and starts with more than white space. -/
theorem Lexeme.of_line {kind : TokenKind} {c : Char} {cs rest : List Char}
    (spells : Spells kind (c :: cs)) (notText : isMarkupText kind = false)
    (blank : isBlank c = false) (line : '\n' ∉ cs) : Lexeme kind (c :: cs) rest :=
  ⟨by simp, spells, notText, .of_line blank line⟩

/-- Reading on within a line. -/
structure ReadsLine (s t : State) : Prop where
  keeps : s.Keeps t
  reads : ∃ cs, s.cursor.Reads cs t.cursor ∧ '\n' ∉ cs

theorem ReadsLine.refl (s : State) : ReadsLine s s := ⟨.refl s, [], .refl _, by simp⟩

theorem ReadsLine.trans {s t u : State} (h : ReadsLine s t) (k : ReadsLine t u) :
    ReadsLine s u := by
  obtain ⟨xs, hx, lx⟩ := h.reads
  obtain ⟨ys, hy, ly⟩ := k.reads
  refine ⟨h.keeps.trans k.keeps, xs ++ ys, hx.trans hy, ?_⟩
  simp only [List.mem_append, not_or]
  exact ⟨lx, ly⟩

theorem readsLine_skipWhile {p : Char → Bool} (h : p '\n' = false) (s : State) :
    ReadsLine s (s.skipWhile p) :=
  ⟨⟨.refl _, rfl⟩, _, s.reads_skipWhile p, not_newline_of_mem_takeWhile h _⟩

theorem readsLine_skipExponent (s : State) : ReadsLine s (skipExponent s) := by
  have digits := readsLine_skipWhile (p := isNumberChar) (by decide)
  unfold skipExponent
  split
  · rename_i e rest hr
    split
    · rename_i mark
      dsimp only
      generalize sign : (if rest.head? = some '+' ∨ rest.head? = some '-' then 1 else 0) = n
      split
      · refine ReadsLine.trans ⟨s.keeps_skip _, _, s.reads_skip (1 + n), ?_⟩ (digits _)
        have e_ne : e ≠ '\n' := by rcases mark with rfl | rfl <;> decide
        rw [hr, Nat.add_comm, List.take_succ_cons, List.mem_cons, not_or]
        refine ⟨e_ne.symm, ?_⟩
        split at sign
        · rename_i signed
          subst sign
          cases rest with
          | nil => simp
          | cons d rest =>
            have : d ≠ '\n' := by
              rcases signed with eq | eq <;> cases eq <;> decide
            simpa using this.symm
        · subst sign
          simp
      · exact .refl s
    · exact .refl s
  · exact .refl s

theorem ReadsLine.length_le {s t : State} (h : ReadsLine s t) :
    t.cursor.rest.length ≤ s.cursor.rest.length := by
  obtain ⟨cs, reads, _⟩ := h.reads
  exact reads.length_le

theorem ReadsLine.readsToken {s t : State} {kind : TokenKind} {c : Char} {rest : List Char}
    (h : ReadsLine s t) (hr : s.cursor.rest = c :: rest) (blank : isBlank c = false)
    (spells : (∀ cs, Spells kind cs) ∧ isMarkupText kind = false) (less : t.cursor.rest.length < s.cursor.rest.length) :
    ReadsToken s (kind, t) := by
  obtain ⟨cs, reads, line⟩ := h.reads
  refine ⟨h.keeps, cs, reads, ?_⟩
  cases cs with
  | nil =>
    have := reads.length
    simp only [List.length_nil] at this
    omega
  | cons d cs =>
    have head := reads.rest
    rw [hr, List.cons_append] at head
    obtain ⟨rfl, _⟩ := List.cons.inj head
    exact .of_line (spells.1 _) spells.2 blank fun mem => line (List.mem_cons_of_mem _ mem)

theorem readsLine_radixNumber (start : Cursor) (radix : Nat) {s : State} {a b : Char}
    {rest : List Char} (h : s.cursor.rest = a :: b :: rest) (ha : a ≠ '\n') (hb : b ≠ '\n') :
    ReadsLine s (radixNumber start radix s).2 := by
  let digits := rest.takeWhile isHexChar
  have rest_skip : (s.skip 2).cursor.rest = rest := by
    rw [State.skip, Cursor.rest_skip, h]
    rfl
  have cs : s.cursor.rest.take (2 + digits.length) = a :: b :: digits := by
    rw [h, Nat.add_comm, List.take_succ_cons, List.take_succ_cons,
      ← List.prefix_iff_eq_take.mp (List.takeWhile_prefix isHexChar)]
  have line : '\n' ∉ a :: b :: digits := by
    simp only [List.mem_cons, not_or]
    exact ⟨ha.symm, hb.symm, not_newline_of_mem_takeWhile (by decide) rest⟩
  have cursor : (radixNumber start radix s).2.cursor = (s.skip (2 + digits.length)).cursor := by
    unfold radixNumber
    rw [rest_skip]
    dsimp only
    split <;> rfl
  refine ⟨?_, _, ?_, line⟩
  · unfold radixNumber
    dsimp only
    split
    · exact s.keeps_skip _
    · exact (s.keeps_skip _).trans (State.keeps_reportFrom ..)
  · rw [cursor, ← cs]
    exact s.reads_skip _

/-- The point of a decimal number and the digits behind it. -/
theorem readsLine_fraction (s : State) :
    ReadsLine s (if s.cursor.peek? = some '.' ∧ s.cursor.ahead? 1 ≠ some '.'
      then (s.skip 1).skipWhile isNumberChar else s) := by
  split
  · rename_i point
    refine ReadsLine.trans ⟨s.keeps_skip 1, _, s.reads_skip 1, ?_⟩
      (readsLine_skipWhile (by decide) _)
    cases h : s.cursor.rest with
    | nil => simp
    | cons c rest =>
      have : some c = some '.' := by
        rw [← point.1, Cursor.peek?, h]
        rfl
      cases this
      simp
  · exact .refl s

theorem not_isBlank_of_isDecimalDigit {c : Char} (h : isDecimalDigit c = true) :
    isBlank c = false := by
  simp only [isDecimalDigit, Bool.and_eq_true, decide_eq_true_eq] at h
  have least : 48 ≤ c.toNat := h.1
  have most : c.toNat ≤ 57 := h.2
  simp only [isBlank, Bool.or_eq_false_iff, Bool.and_eq_false_iff, decide_eq_false_iff_not,
    beq_eq_false_iff_ne]
  omega

theorem radixOf?_newline {c : Char} {radix : Nat} (h : radixOf? c = some radix) : c ≠ '\n' := by
  rintro rfl
  cases h

theorem snd_radixNumber_length (start : Cursor) (radix : Nat) {s : State} {a : Char}
    {rest : List Char} (h : s.cursor.rest = a :: rest) :
    (radixNumber start radix s).2.cursor.rest.length < s.cursor.rest.length := by
  have cursor : (radixNumber start radix s).2.cursor =
      (s.skip (2 + ((s.skip 2).cursor.rest.takeWhile isHexChar).length)).cursor := by
    unfold radixNumber
    dsimp only
    split <;> rfl
  rw [cursor, State.skip, Cursor.rest_skip, h, List.length_drop, List.length_cons]
  omega

theorem radixNumber_spells (start : Cursor) (radix : Nat) (s : State) :
    (∀ cs, Spells (radixNumber start radix s).1 cs) ∧
      isMarkupText (radixNumber start radix s).1 = false := by
  unfold radixNumber
  dsimp only
  split <;> exact ⟨fun _ => trivial, rfl⟩

/-- The point of a number that starts with one is read with the fraction. -/
theorem length_fraction {s : State} {rest : List Char} (h : s.cursor.rest = '.' :: rest)
    (digit : (s.cursor.ahead? 1).any isDecimalDigit = true) :
    (if s.cursor.peek? = some '.' ∧ s.cursor.ahead? 1 ≠ some '.'
      then (s.skip 1).skipWhile isNumberChar else s).cursor.rest.length <
        s.cursor.rest.length := by
  have point : s.cursor.peek? = some '.' ∧ s.cursor.ahead? 1 ≠ some '.' := by
    refine ⟨by rw [Cursor.peek?, h]; rfl, fun eq => ?_⟩
    rw [eq] at digit
    exact absurd digit (by decide)
  rw [if_pos point]
  have one := (s.reads_skip 1).length
  have more := ((s.skip 1).reads_skipWhile isNumberChar).length
  rw [h, List.take_succ_cons] at one
  simp only [h, List.length_cons] at one more ⊢
  omega

theorem readsToken_number {s : State} {c : Char} {rest : List Char} (h : s.cursor.rest = c :: rest)
    (start : isDecimalDigit c = true ∨ c = '.' ∧ (s.cursor.ahead? 1).any isDecimalDigit = true) :
    ReadsToken s (number s) := by
  have blank : isBlank c = false := by
    rcases start with digit | ⟨rfl, _⟩
    · exact not_isBlank_of_isDecimalDigit digit
    · decide
  unfold number
  dsimp only
  split
  -- the digits of another radix are announced by a zero and a letter
  · rename_i radix announced
    split at announced
    · rename_i zero
      have c_eq : c = '0' := by
        rw [Cursor.peek?, h] at zero
        exact Option.some.inj zero
      obtain ⟨x, hx, announced⟩ := Option.bind_eq_some_iff.mp announced
      obtain ⟨more, rfl⟩ : ∃ more, rest = x :: more := by
        rw [Cursor.ahead?, h] at hx
        cases rest with
        | nil => cases hx
        | cons y more => exact ⟨more, by cases hx; rfl⟩
      have line := readsLine_radixNumber s.cursor radix h (by rw [c_eq]; decide)
        (radixOf?_newline announced)
      exact line.readsToken h blank (radixNumber_spells s.cursor radix s)
        (snd_radixNumber_length s.cursor radix h)
    · cases announced
  · have whole := readsLine_skipWhile (p := isNumberChar) (by decide) s
    have fraction := readsLine_fraction (s.skipWhile isNumberChar)
    have exponent := readsLine_skipExponent (if (s.skipWhile isNumberChar).cursor.peek? = some '.' ∧
      (s.skipWhile isNumberChar).cursor.ahead? 1 ≠ some '.'
      then ((s.skipWhile isNumberChar).skip 1).skipWhile isNumberChar else s.skipWhile isNumberChar)
    refine ((whole.trans fraction).trans exponent).readsToken h blank ⟨fun _ => trivial, rfl⟩ ?_
    refine Nat.lt_of_le_of_lt exponent.length_le ?_
    rcases start with digit | ⟨rfl, digit⟩
    · have less : (s.skipWhile isNumberChar).cursor.rest.length < s.cursor.rest.length := by
        have := (s.reads_skipWhile isNumberChar).length
        rw [h, List.takeWhile_cons_of_pos (by simp [isNumberChar, digit])] at this
        simp only [h, List.length_cons] at this ⊢
        omega
      exact Nat.lt_of_le_of_lt fraction.length_le less
    · have none : s.skipWhile isNumberChar = s := by
        rw [State.skipWhile, Cursor.skipWhile, h, List.takeWhile_cons_of_neg (by decide)]
        rfl
      rw [none]
      exact length_fraction h digit

/-! ## Escapes, quoted texts and templates -/

/-- Reading on by any characters. -/
structure ReadsOn (s t : State) : Prop where
  keeps : s.Keeps t
  reads : ∃ cs, s.cursor.Reads cs t.cursor

theorem ReadsOn.refl (s : State) : ReadsOn s s := ⟨.refl s, [], .refl _⟩

theorem ReadsOn.skip (s : State) (n : Nat) : ReadsOn s (s.skip n) :=
  ⟨s.keeps_skip n, _, s.reads_skip n⟩

theorem ReadsOn.reportFrom (s : State) (start : Cursor) (code : ErrorCode) (message : String)
    (suggestion : Option String) : ReadsOn s (s.reportFrom start code message suggestion) :=
  ⟨s.keeps_reportFrom start code message suggestion, [], .refl _⟩

theorem ReadsOn.trans {s t u : State} (h : ReadsOn s t) (k : ReadsOn t u) : ReadsOn s u := by
  obtain ⟨xs, hx⟩ := h.reads
  obtain ⟨ys, hy⟩ := k.reads
  exact ⟨h.keeps.trans k.keeps, xs ++ ys, hx.trans hy⟩

theorem ReadsOn.length_le {s t : State} (h : ReadsOn s t) :
    t.cursor.rest.length ≤ s.cursor.rest.length := by
  obtain ⟨cs, reads⟩ := h.reads
  exact reads.length_le

theorem readsOn_escapedChar (start : Cursor) (value : Option Nat) (s : State) :
    ReadsOn s (escapedChar start value s).2 := by
  unfold escapedChar
  split
  · exact .refl s
  · exact .reportFrom ..

theorem readsOn_hexDigits (least most : Nat) (s : State) :
    ReadsOn s (hexDigits least most s).2 := .skip s _

theorem readsOn_codeEscape (start : Cursor) (least most : Nat) (s : State) :
    ReadsOn s (escapedChar start (hexDigits least most s).1 (hexDigits least most s).2).2 :=
  (readsOn_hexDigits least most s).trans (readsOn_escapedChar start _ _)

theorem readsOn_bracedEscape (start : Cursor) (s : State) :
    ReadsOn s (
      let (value, s) := hexDigits 1 6 (s.skip 1)
      if s.cursor.peek? = some '\x7d' then escapedChar start value (s.skip 1)
      else escapedChar start none s).2 := by
  have digits := (ReadsOn.skip s 1).trans (readsOn_hexDigits 1 6 (s.skip 1))
  dsimp only
  split
  · exact (digits.trans (.skip _ 1)).trans (readsOn_escapedChar start _ _)
  · exact digits.trans (readsOn_escapedChar start _ _)

/-- An escape is read from its backslash on. -/
theorem readsOn_escape (s : State) : ReadsOn (s.skip 1) (escape s).2 := by
  have two : ReadsOn (s.skip 1) (s.skip 2) := .skip (s.skip 1) 1
  unfold escape
  dsimp only
  split
  · exact .reportFrom ..
  · split
    case h_8 =>
      split
      · exact two.trans (.skip _ 1)
      · exact two
    case h_10 => exact two.trans (readsOn_codeEscape s.cursor 2 2 _)
    case h_11 =>
      split
      · exact two.trans (readsOn_bracedEscape s.cursor _)
      · exact two.trans (readsOn_codeEscape s.cursor 4 4 _)
    all_goals exact two

/-- The end of a quoted text: its closing quote, or where it breaks off. -/
structure ReadsQuoted (s : State) (r : TokenKind × State) : Prop where
  spells : ∀ cs, Spells r.1 cs
  notText : isMarkupText r.1 = false
  keeps : s.Keeps r.2
  reads : ∃ cs, s.cursor.Reads cs r.2.cursor ∧ EndsSolid cs r.2.cursor.rest

theorem ReadsQuoted.after {s t : State} {r : TokenKind × State} (h : ReadsOn s t)
    (k : ReadsQuoted t r) : ReadsQuoted s r := by
  obtain ⟨xs, hx⟩ := h.reads
  obtain ⟨ys, hy, solid⟩ := k.reads
  exact ⟨k.spells, k.notText, h.keeps.trans k.keeps, xs ++ ys, hx.trans hy, solid.append xs⟩

theorem readsQuoted_quoted (start : Cursor) {quote : Char} (visible : isBlank quote = false)
    (fuel : Nat) (read : List Char) (s : State) (enough : s.cursor.rest.length < fuel) :
    ReadsQuoted s (quoted start quote fuel read s) := by
  induction fuel generalizing read s with
  | zero => omega
  | succ fuel ih =>
    -- each character that is read leaves less than the fuel
    have less {c : Char} {rest : List Char} (h : s.cursor.rest = c :: rest) :
        (s.skip 1).cursor.rest.length < fuel := by
      rw [State.skip, Cursor.rest_skip, h]
      simp only [h, List.length_cons, List.drop_succ_cons, List.drop_zero] at enough ⊢
      omega
    unfold quoted
    split
    · rename_i hr
      exact ⟨fun _ => trivial, rfl, State.keeps_reportFrom .., [], .refl _, Or.inr (Or.inl hr)⟩
    · rename_i c rest hr
      split
      · rename_i newline
        refine ⟨fun _ => trivial, rfl, State.keeps_reportFrom .., [], .refl _, Or.inr (Or.inr ?_)⟩
        show s.cursor.rest.head? = _
        rw [hr, newline]
        rfl
      · split
        · rename_i eq
          refine ⟨fun _ => trivial, rfl, s.keeps_skip 1, [c], ?_, .of_last [] (eq ▸ visible)⟩
          have reads := s.reads_skip 1
          rwa [hr] at reads
        · split
          · have on := (ReadsOn.skip s 1).trans (readsOn_escape s)
            have := (readsOn_escape s).length_le
            split <;> rename_i eq
            all_goals
              rw [eq] at on this
              exact .after on (ih _ _ (Nat.lt_of_le_of_lt this (less hr)))
          · exact .after (.skip s 1) (ih _ _ (less hr))

theorem readsQuoted_template (start : Cursor) (head : Bool) (fuel : Nat) (read : List Char)
    (s : State) (enough : s.cursor.rest.length < fuel) :
    ReadsQuoted s (template start head fuel read s) := by
  have last (read : List Char) : (∀ cs, Spells (template.last head read) cs) ∧
      isMarkupText (template.last head read) = false := by
    unfold template.last
    cases head <;> exact ⟨fun _ => trivial, rfl⟩
  induction fuel generalizing read s with
  | zero => omega
  | succ fuel ih =>
    -- each character that is read leaves less than the fuel
    have less {c : Char} {rest : List Char} (h : s.cursor.rest = c :: rest) :
        (s.skip 1).cursor.rest.length < fuel := by
      rw [State.skip, Cursor.rest_skip, h]
      simp only [h, List.length_cons, List.drop_succ_cons, List.drop_zero] at enough ⊢
      omega
    unfold template
    split
    · rename_i hr
      exact ⟨(last read).1, (last read).2, State.keeps_reportFrom .., [], .refl _,
        Or.inr (Or.inl hr)⟩
    · rename_i rest hr
      refine ⟨(last read).1, (last read).2, s.keeps_skip 1, ['`'], ?_, .of_last [] (by decide)⟩
      have reads := s.reads_skip 1
      rwa [hr] at reads
    · rename_i rest hr
      refine ⟨?_, ?_, ⟨.refl _, rfl⟩, ['$', '\x7b'], ?_, .of_last ['$'] (by decide)⟩
      · cases head <;> exact fun _ => trivial
      · cases head <;> rfl
      · have reads := s.reads_skip 2
        rwa [hr] at reads
    · rename_i rest hr
      have on := (ReadsOn.skip s 1).trans (readsOn_escape s)
      have := (readsOn_escape s).length_le
      split <;> rename_i eq
      all_goals
        rw [eq] at on this
        exact .after on (ih _ _ (Nat.lt_of_le_of_lt this (less hr)))
    · rename_i rest hr
      exact .after (.skip s 1) (ih _ _ (less hr))
    · rename_i c rest _ _ _ _ hr
      exact .after (.skip s 1) (ih _ _ (less hr))

/-- The text of an attribute after its opening quote. -/
theorem readsQuoted_attributeText (start : Cursor) {quote : Char} (visible : isBlank quote = false)
    (s : State) : ReadsQuoted s (attributeText start quote s) := by
  let text := s.cursor.rest.takeWhile (· != quote)
  have on : s.cursor.Reads text (s.skip text.length).cursor := s.reads_skipWhile (· != quote)
  unfold attributeText
  dsimp only
  split
  · rename_i done
    exact ⟨fun _ => trivial, rfl, (s.keeps_skip _).trans (State.keeps_reportFrom ..), text, on,
      Or.inr (Or.inl (List.isEmpty_iff.mp done))⟩
  · rename_i more
    refine ⟨fun _ => trivial, rfl, (s.keeps_skip _).trans (State.keeps_skip _ 1), text ++ [quote],
      on.trans ?_, .of_last _ visible⟩
    have drop : (s.skip text.length).cursor.rest = s.cursor.rest.dropWhile (· != quote) := by
      have eq := on.rest
      rw [← List.takeWhile_append_dropWhile (p := (· != quote)) (l := s.cursor.rest)] at eq
      exact (List.append_cancel_left eq).symm
    have reads := (s.skip text.length).reads_skip 1
    cases h : (s.skip text.length).cursor.rest with
    | nil => exact absurd (by rw [h]; rfl) more
    | cons c rest =>
      have closing : c = quote := by
        have head := List.head?_dropWhile_not (· != quote) s.cursor.rest
        rw [← drop, h] at head
        simpa using head
      rw [h, closing] at reads
      exact reads

/-- A token that opens with `c` and goes on as a quoted text. -/
theorem ReadsQuoted.readsToken {s : State} {r : TokenKind × State} {c : Char} {rest : List Char}
    (h : s.cursor.rest = c :: rest) (k : ReadsQuoted (s.skip 1) r) : ReadsToken s r := by
  obtain ⟨cs, reads, solid⟩ := k.reads
  have one := s.reads_skip 1
  rw [h] at one
  exact ⟨(s.keeps_skip 1).trans k.keeps, [c] ++ cs, one.trans reads, by simp, k.spells _, k.notText,
    solid.append [c]⟩

/-! ## Punctuators -/

theorem spells_punctuator? {cs : List Char} {p : Punct} {n : Nat}
    (h : punctuator? cs = some (p, n)) :
    n = p.text.toList.length ∧ ∃ rest, cs = p.text.toList ++ rest := by
  unfold punctuator? at h
  split at h
  case h_31 =>
    split at h <;> cases h <;> exact ⟨rfl, _, rfl⟩
  all_goals
    cases h <;> exact ⟨rfl, _, rfl⟩

theorem readsToken_punctuator {s : State} {r : TokenKind × State}
    (h : (punctuator? s.cursor.rest).map (fun (p, n) => (TokenKind.punct p, s.skip n)) = some r) :
    ReadsToken s r := by
  obtain ⟨⟨p, n⟩, found, rfl⟩ := Option.map_eq_some_iff.mp h
  obtain ⟨rfl, rest, hr⟩ := spells_punctuator? found
  exact readsToken_punct hr rfl

theorem readsToken_lessThan {s : State} {rest : List Char} (h : s.cursor.rest = '<' :: rest) :
    ReadsToken s (lessThan s) := by
  unfold lessThan
  dsimp only
  split
  · exact readsToken_punct (p := .jsxLt) h rfl
  · split
    · rename_i equals
      obtain ⟨more, rfl⟩ : ∃ more, rest = '=' :: more := by
        rw [Cursor.ahead?, h] at equals
        cases rest with
        | nil => cases equals
        | cons c more => exact ⟨more, by cases equals; rfl⟩
      exact readsToken_punct (p := .lessEq) h rfl
    · exact readsToken_punct (p := .less) h rfl

theorem readsToken_closeBrace {s : State} {rest : List Char} (h : s.cursor.rest = '\x7d' :: rest) :
    ReadsToken s (closeBrace s) := by
  unfold closeBrace
  dsimp only
  split
  · exact readsToken_punct (p := .rBrace) h (by simp; rfl)
  · refine ReadsQuoted.readsToken h ?_
    have same := State.reading_popMode (s.skip 1)
    have quoted := readsQuoted_template s.cursor false _ [] (s.skip 1).popMode (Nat.lt_succ_self _)
    exact ⟨quoted.spells, quoted.notText, (State.keeps_of_reading same).trans quoted.keeps,
      State.cursor_of_reading same ▸ quoted.reads⟩
  · exact readsToken_punct (p := .rBrace) h (by simp; rfl)

end Lexer

end TsxPreview
