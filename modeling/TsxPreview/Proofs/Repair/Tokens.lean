import TsxPreview.Proofs.Lexer.Tiling
import TsxPreview.Proofs.Repair.Weight
import TsxPreview.Repair.Imports
import TsxPreview.Repair.Scan

/-!
Where the tokens of a scan stand in its text: each spells the characters from one offset to another,
and they come in order. What they weigh, the searches that find them, and the words of lists between
braces.
-/

namespace TsxPreview

/-! ## Layout -/

/-- A token spells `lexeme`, which stands between `pre` and `post`. -/
structure Token.Sits (t : Token) (pre lexeme post : List Char) : Prop where
  lo : t.span.lo = byteLength pre
  hi : t.span.hi = byteLength (pre ++ lexeme)
  nonempty : lexeme ≠ []
  lexes : Lexer.isMarkupText t.kind = false → Lexer.Lexeme t.kind lexeme post

/-- Tokens, one after another, in a text. Behind text between tags there are only punctuators. -/
structure Laid (text : List Char) (tokens : List Token) : Prop where
  sits : ∀ t ∈ tokens, ∃ pre lexeme post, text = pre ++ lexeme ++ post ∧ t.Sits pre lexeme post
  ordered : tokens.Pairwise fun a b => a.span.hi ≤ b.span.lo
  marked : ∀ i a b, tokens[i]? = some a → tokens[i + 1]? = some b →
    Lexer.isMarkupText a.kind = true → ∃ p, b.kind = .punct p

/-- A token in front of tokens that are laid out behind it. -/
theorem Laid.cons {text : List Char} {t : Token} {tokens : List Token}
    (sits : ∃ pre lexeme post, text = pre ++ lexeme ++ post ∧ t.Sits pre lexeme post)
    (before : ∀ b ∈ tokens, t.span.hi ≤ b.span.lo)
    (mark : ∀ b, tokens[0]? = some b → Lexer.isMarkupText t.kind = true → ∃ p, b.kind = .punct p)
    (h : Laid text tokens) : Laid text (t :: tokens) := by
  refine ⟨?_, List.pairwise_cons.mpr ⟨before, h.ordered⟩, ?_⟩
  · intro x hx
    rcases List.mem_cons.mp hx with rfl | hx
    · exact sits
    · exact h.sits x hx
  · intro i a b ha hb markup
    cases i with
    | zero =>
      cases ha
      exact mark b hb markup
    | succ i => exact h.marked i a b ha hb markup

namespace Lexer

/-- What comes first when the end of the file is left out comes first. -/
theorem Tiles.head?_filter {found : Diagnostics} {pre : List Char} {c : Cursor}
    {tokens : List Token} (h : Tiles found pre c tokens) {n : Token}
    (head : (tokens.filter fun t => !t.kind.isEof)[0]? = some n) : tokens.head? = some n := by
  cases h with
  | eof skips gap stop kind =>
    rw [List.filter_cons_of_neg (by rw [kind]; decide)] at head
    cases head
  | token skips gap reads lexes span tiles =>
    rw [List.filter_cons_of_pos (by rw [lexes.notEof]; rfl)] at head
    exact head
  | text reads nonempty kind span newline next tiles =>
    rw [List.filter_cons_of_pos (by rw [kind]; rfl)] at head
    exact head

/-- A token that was read at a place, in front of tokens behind where its reading ended. -/
theorem laid_cons {text pre lexeme : List Char} {a b : Cursor} {t : Token} {tokens : List Token}
    (whole : text = pre ++ a.rest) (start : a.offset = byteLength pre) (reads : a.Reads lexeme b)
    (nonempty : lexeme ≠ []) (span : t.span = a.spanTo b)
    (lexes : isMarkupText t.kind = false → Lexeme t.kind lexeme b.rest)
    (mark : ∀ n, tokens[0]? = some n → isMarkupText t.kind = true → ∃ p, n.kind = .punct p)
    (laid : Laid text tokens) (behind : ∀ x ∈ tokens, b.offset ≤ x.span.lo) :
    Laid text (t :: tokens) ∧ ∀ x ∈ t :: tokens, a.offset ≤ x.span.lo := by
  -- the span of the token is the stretch that was read
  have lo : t.span.lo = a.offset := by rw [span]; rfl
  have hi : t.span.hi = b.offset := by rw [span]; rfl
  have stop := reads.offset
  refine ⟨.cons ⟨pre, lexeme, b.rest, ?_, ⟨?_, ?_, nonempty, lexes⟩⟩ ?_ mark laid, ?_⟩
  · rw [whole, reads.rest, List.append_assoc]
  · rw [lo, start]
  · rw [hi, stop, start, byteLength_append]
  · rw [hi]
    exact behind
  · intro x hx
    rcases List.mem_cons.mp hx with rfl | hx
    · exact Nat.le_of_eq lo.symm
    · have := behind x hx
      omega

/-- The tokens of a place lie behind what was read before it. -/
theorem Tiles.laid {found : Diagnostics} {pre : List Char} {c : Cursor} {tokens : List Token}
    (h : Tiles found pre c tokens) {text : List Char} (eq : text = pre ++ c.rest)
    (offset : c.offset = byteLength pre) :
    Laid text (tokens.filter fun t => !t.kind.isEof) ∧
      ∀ t ∈ tokens.filter fun t => !t.kind.isEof, c.offset ≤ t.span.lo := by
  induction h with
  | eof skips gap stop kind =>
    rw [List.filter_cons_of_neg (by rw [kind]; decide)]
    exact ⟨⟨by simp, .nil, by simp⟩, by simp⟩
  | @token pre skipped lexeme c a b t rest skips gap reads lexes span tiles ih =>
    have start : a.offset = byteLength (pre ++ skipped) := by
      rw [skips.offset, offset, byteLength_append]
    have whole : text = pre ++ skipped ++ a.rest := by
      rw [eq, skips.rest, List.append_assoc]
    have stop : b.offset = byteLength (pre ++ skipped ++ lexeme) := by
      rw [reads.offset, start, ← byteLength_append]
    obtain ⟨laid, behind⟩ := ih (by rw [whole, reads.rest, List.append_assoc _ lexeme]) stop
    rw [List.filter_cons_of_pos (by rw [lexes.notEof]; rfl)]
    -- such a token is no text between tags, so anything may follow it
    have mark : isMarkupText t.kind ≠ true := by
      rw [lexes.notText]
      exact Bool.false_ne_true
    obtain ⟨first, after⟩ := laid_cons whole start reads lexes.nonempty span (fun _ => lexes)
      (fun _ _ markup => absurd markup mark) laid behind
    refine ⟨first, fun x hx => Nat.le_trans ?_ (after x hx)⟩
    rw [skips.offset]
    exact Nat.le_add_right _ _
  | @text pre lexeme c b t rest reads nonempty kind span newline next tiles ih =>
    have stop : b.offset = byteLength (pre ++ lexeme) := by
      rw [reads.offset, offset, byteLength_append]
    obtain ⟨laid, behind⟩ := ih (by rw [eq, reads.rest, List.append_assoc]) stop
    rw [List.filter_cons_of_pos (by rw [kind]; rfl)]
    refine laid_cons eq offset reads nonempty span ?_ ?_ laid behind
    · intro code
      rw [kind] at code
      cases code
    · intro n hn _
      rcases next n (tiles.head?_filter hn) with eof | punct
      · have mem := List.mem_of_getElem? hn
        have := (List.mem_filter.mp mem).2
        rw [eof] at this
        cases this
      · exact punct

end Lexer

namespace Scan

variable {text : String} {i j : Nat}

theorem laid (text : String) : Laid text.toList (ofText text).tokens.toList := by
  have tiles := TokenStream.tiles ⟨"<sanitize>", text⟩
  unfold ofText ofTokens
  exact (tiles.laid rfl rfl).1

/-- The tokens of a scan are those of the stream, without the end of the file. -/
theorem exists_code (text : String) :
    ∃ code eof, (TokenStream.ofFile ⟨"<sanitize>", text⟩).tokens = code ++ [eof] ∧ eof.kind = .eof ∧
      (ofText text).tokens = code.toArray := by
  obtain ⟨code, eof, tokens, kind, all⟩ := (TokenStream.tiles ⟨"<sanitize>", text⟩).ends
  refine ⟨code, eof, tokens, kind, ?_⟩
  have kept : code.filter (fun t => !t.kind.isEof) = code :=
    List.filter_eq_self.mpr fun t ht => by rw [all t ht]; rfl
  rw [ofText, tokens, List.filter_append, kept,
    List.filter_cons_of_neg (by simp [kind, TokenKind.isEof])]
  simp [ofTokens]

/-- A token of a scan, by its index. -/
theorem token_of_lt {s : Scan} (h : i < s.size) :
    ∃ t, s.tokens.toList[i]? = some t ∧ s.kind i = t.kind ∧ s.lo i = t.span.lo
      ∧ s.hi i = t.span.hi := by
  have found : s.tokens[i]? = some s.tokens[i] := Array.getElem?_eq_getElem h
  refine ⟨s.tokens[i], by rw [Array.getElem?_toList]; exact found, ?_, ?_, ?_⟩
  · unfold kind
    rw [found]
    rfl
  · unfold lo
    rw [found]
    rfl
  · unfold hi
    rw [found]
    rfl

theorem lt_size_of_kind {s : Scan} (h : s.kind i ≠ .eof) : i < s.size := by
  refine Nat.lt_of_not_le fun le => h ?_
  unfold kind
  rw [Array.getElem?_eq_none le]
  rfl

theorem lt_size_of_isPunct {s : Scan} {p : Punct} (h : s.isPunct i p = true) : i < s.size := by
  refine lt_size_of_kind fun eof => ?_
  rw [isPunct, eof] at h
  cases h

theorem lt_size_of_isKeyword {s : Scan} {k : Keyword} (h : s.isKeyword i k = true) :
    i < s.size := by
  refine lt_size_of_kind fun eof => ?_
  rw [isKeyword, eof] at h
  cases h

theorem lt_size_of_ident? {s : Scan} (h : (s.ident? i).isSome = true) : i < s.size := by
  refine lt_size_of_kind fun eof => ?_
  rw [ident?, eof] at h
  cases h

theorem lt_size_of_string? {s : Scan} (h : (s.string? i).isSome = true) : i < s.size := by
  refine lt_size_of_kind fun eof => ?_
  rw [string?, eof] at h
  cases h

/-- The characters that a token spells, and what stands around them. -/
theorem spelled (h : i < (ofText text).size) :
    ∃ pre lexeme post, text.toList = pre ++ lexeme ++ post
      ∧ (ofText text).lo i = byteLength pre ∧ (ofText text).hi i = byteLength (pre ++ lexeme)
      ∧ lexeme ≠ [] ∧ (Lexer.isMarkupText ((ofText text).kind i) = false →
        Lexer.Lexeme ((ofText text).kind i) lexeme post) := by
  obtain ⟨t, found, kind, lo, hi⟩ := token_of_lt h
  obtain ⟨pre, lexeme, post, eq, sits⟩ := (laid text).sits t (List.mem_of_getElem? found)
  exact ⟨pre, lexeme, post, eq, lo.trans sits.lo, hi.trans sits.hi, sits.nonempty, by
    rw [kind]
    exact sits.lexes⟩

theorem hi_le_lo (lt : i < j) (h : j < (ofText text).size) :
    (ofText text).hi i ≤ (ofText text).lo j := by
  obtain ⟨a, foundA, -, -, hi⟩ := token_of_lt (Nat.lt_trans lt h)
  obtain ⟨b, foundB, -, lo, -⟩ := token_of_lt h
  obtain ⟨hi', eqA⟩ := List.getElem?_eq_some_iff.mp foundA
  obtain ⟨hj', eqB⟩ := List.getElem?_eq_some_iff.mp foundB
  have := List.pairwise_iff_getElem.mp (laid text).ordered i j hi' hj' lt
  rw [eqA, eqB] at this
  rw [hi, lo]
  exact this

theorem lo_le_hi (text : String) (i : Nat) : (ofText text).lo i ≤ (ofText text).hi i := by
  by_cases h : i < (ofText text).size
  · obtain ⟨pre, lexeme, post, -, lo, hi, -, -⟩ := spelled h
    rw [lo, hi, byteLength_append]
    omega
  · have none : (ofText text).tokens[i]? = none := Array.getElem?_eq_none (Nat.le_of_not_lt h)
    rw [lo, none]
    exact Nat.zero_le _

theorem lo_le_lo (le : i ≤ j) (h : j < (ofText text).size) :
    (ofText text).lo i ≤ (ofText text).lo j := by
  rcases Nat.lt_or_eq_of_le le with lt | rfl
  · exact Nat.le_trans (lo_le_hi text i) (hi_le_lo lt h)
  · exact Nat.le_refl _

theorem hi_le_hi (le : i ≤ j) (h : j < (ofText text).size) :
    (ofText text).hi i ≤ (ofText text).hi j := by
  rcases Nat.lt_or_eq_of_le le with lt | rfl
  · exact Nat.le_trans (hi_le_lo lt h) (lo_le_hi text j)
  · exact Nat.le_refl _

theorem lo_lt_hi (h : i < (ofText text).size) : (ofText text).lo i < (ofText text).hi i := by
  obtain ⟨pre, lexeme, post, -, lo, hi, nonempty, -⟩ := spelled h
  have := byteLength_pos nonempty
  rw [lo, hi, byteLength_append]
  omega

/-- No two tokens hold the same byte. -/
theorem eq_of_holds {n : Nat} (first : i < (ofText text).size) (second : j < (ofText text).size)
    (start : (ofText text).lo i ≤ n) (stop : n < (ofText text).hi i)
    (start' : (ofText text).lo j ≤ n) (stop' : n < (ofText text).hi j) : i = j := by
  rcases Nat.lt_trichotomy i j with before | same | behind
  · have := hi_le_lo before second
    omega
  · exact same
  · have := hi_le_lo behind first
    omega

/-- The token before one that is not a punctuator is no text between tags. -/
theorem isMarkupText_pred (h : i + 1 < (ofText text).size)
    (notPunct : ∀ p, (ofText text).kind (i + 1) ≠ .punct p) :
    Lexer.isMarkupText ((ofText text).kind i) = false := by
  obtain ⟨a, foundA, kindA, -, -⟩ := token_of_lt (Nat.lt_of_succ_lt h)
  obtain ⟨b, foundB, kindB, -, -⟩ := token_of_lt h
  cases markup : Lexer.isMarkupText ((ofText text).kind i) with
  | false => rfl
  | true =>
    rw [kindA] at markup
    obtain ⟨p, hp⟩ := (laid text).marked i a b foundA foundB markup
    exact absurd (kindB.trans hp) (notPunct p)

end Scan

/-! ## Weights -/

/-- What comes behind a guard. -/
theorem of_guard_bind {p : Prop} [Decidable p] {β : Type} {f : Unit → Option β} {b : β}
    (h : (guard p >>= f) = some b) : p ∧ f () = some b := by
  by_cases hp : p
  · rw [show (guard p : Option Unit) = some () from if_pos hp] at h
    exact ⟨hp, h⟩
  · rw [show (guard p : Option Unit) = none from if_neg hp] at h
    cases h

namespace Scan

variable {text : String} {i j : Nat}

theorem boundary_lo (text : String) (i : Nat) : Boundary text.toList ((ofText text).lo i) := by
  by_cases h : i < (ofText text).size
  · obtain ⟨pre, lexeme, post, eq, lo, -⟩ := spelled h
    exact ⟨pre, lexeme ++ post, by rw [eq, List.append_assoc], lo.symm⟩
  · have missing : (ofText text).tokens[i]? = none := Array.getElem?_eq_none (Nat.le_of_not_lt h)
    rw [lo, missing]
    exact .zero _

theorem boundary_hi (text : String) (i : Nat) : Boundary text.toList ((ofText text).hi i) := by
  by_cases h : i < (ofText text).size
  · obtain ⟨pre, lexeme, post, eq, -, hi, -⟩ := spelled h
    exact ⟨pre ++ lexeme, post, eq, hi.symm⟩
  · have missing : (ofText text).tokens[i]? = none := Array.getElem?_eq_none (Nat.le_of_not_lt h)
    rw [hi, missing]
    exact .zero _

/-- A token of which it is known what it spells weighs what it spells. -/
theorem weightTo_hi (h : i < (ofText text).size) {cs : List Char}
    (code : Lexer.isMarkupText ((ofText text).kind i) = false)
    (spells : ∀ lexeme, Lexer.Spells ((ofText text).kind i) lexeme → lexeme = cs) :
    weightTo text.toList ((ofText text).lo i) + weight cs
      = weightTo text.toList ((ofText text).hi i) := by
  obtain ⟨pre, lexeme, post, eq, lo, hi, -, lexes⟩ := spelled h
  have same := spells lexeme (lexes code).spells
  subst same
  rw [lo, hi, eq, weightTo_append, List.append_assoc, weightTo_append, weight_append]

theorem weightTo_keyword {k : Keyword} (h : (ofText text).kind i = .keyword k) :
    weightTo text.toList ((ofText text).lo i) + weight k.text.toList
      = weightTo text.toList ((ofText text).hi i) := by
  refine weightTo_hi (lt_size_of_kind (by rw [h]; exact TokenKind.noConfusion)) ?_ ?_
  · rw [h]
    rfl
  · rw [h]
    exact fun _ spells => spells

theorem kind_of_isPunct {s : Scan} {p : Punct} (h : s.isPunct i p = true) :
    s.kind i = .punct p := by
  unfold isPunct TokenKind.isPunct at h
  split at h
  · rename_i q kind
    rw [kind, eq_of_beq h]
  · cases h

theorem kind_of_isKeyword {s : Scan} {k : Keyword} (h : s.isKeyword i k = true) :
    s.kind i = .keyword k := by
  unfold isKeyword TokenKind.isKeyword at h
  split at h
  · rename_i w kind
    rw [kind, eq_of_beq h]
  · cases h

theorem weightTo_punct {p : Punct} (h : (ofText text).isPunct i p = true) :
    weightTo text.toList ((ofText text).lo i) + weight p.text.toList
      = weightTo text.toList ((ofText text).hi i) := by
  refine weightTo_hi (lt_size_of_isPunct h) ?_ ?_
  · rw [kind_of_isPunct h]
    rfl
  · rw [kind_of_isPunct h]
    exact fun _ spells => spells

/-- A word weighs what it reads. -/
theorem weightTo_name {name : String} (h : ((ofText text).kind i).propertyName? = some name) :
    weightTo text.toList ((ofText text).lo i) + weight name.toList
      = weightTo text.toList ((ofText text).hi i) := by
  unfold TokenKind.propertyName? at h
  split at h
  · rename_i found kind
    cases h
    refine weightTo_hi (lt_size_of_kind (by rw [kind]; exact TokenKind.noConfusion)) ?_ ?_
    · rw [kind]
      rfl
    · rw [kind]
      exact fun _ spells => spells.1
  · rename_i k kind
    cases h
    exact weightTo_keyword kind
  · cases h

theorem lt_size_of_propertyName? {s : Scan} {name : String}
    (h : (s.kind i).propertyName? = some name) : i < s.size := by
  refine lt_size_of_kind fun eof => ?_
  rw [eof] at h
  cases h

theorem weight_keyword_pos (k : Keyword) : 0 < weight k.text.toList := by
  cases k <;> decide

/-! ## Searches -/

theorem findIn_spec {first last : Nat} {p : Nat → Bool} (h : findIn first last p = some j) :
    first ≤ j ∧ j ≤ last ∧ p j = true := by
  have mem := List.mem_of_find?_eq_some h
  rw [List.mem_range'_1] at mem
  exact ⟨mem.1, by omega, List.find?_some h⟩

/-- A bracket is closed behind it. -/
theorem matching?_spec {s : Scan} (h : s.matching? i = some j) : i < j ∧ j < s.size := by
  unfold matching? at h
  obtain ⟨closer, -, found⟩ := Option.bind_eq_some_iff.mp h
  obtain ⟨lo, -, p⟩ := findIn_spec found
  rw [Bool.and_eq_true] at p
  exact ⟨lo, lt_size_of_isPunct p.2⟩

end Scan

namespace Repair.Imports

/-! ## Lists of names -/

/-- What holds of all words among some tokens holds of all words in their entries. -/
theorem forall_mem_entries (s : Scan) {p : String → Prop} (indices : List Nat) (words : List String)
    (read : ∀ w ∈ words, p w)
    (more : ∀ i ∈ indices, ∀ w, (s.kind i).propertyName? = some w → p w) :
    ∀ entry ∈ entries s indices words, ∀ w ∈ entry, p w := by
  induction indices generalizing words with
  | nil =>
    intro entry he w hw
    rw [entries, List.mem_singleton] at he
    exact read w (List.mem_reverse.mp (he ▸ hw))
  | cons i rest ih =>
    have later := fun j hj => more j (List.mem_cons_of_mem _ hj)
    unfold entries
    -- a comma ends an entry, a word is added to it, other tokens are passed over
    split
    · intro entry he w hw
      rcases List.mem_cons.mp he with rfl | he
      · exact read w (List.mem_reverse.mp hw)
      · exact ih [] (by simp) later entry he w hw
    · split
      · rename_i word found
        refine ih (word :: words) (fun w hw => ?_) later
        rcases List.mem_cons.mp hw with rfl | hw
        · exact more i List.mem_cons_self w found
        · exact read w hw
      · exact ih words read later

theorem mem_of_pairOf {words : List String} {name given : String}
    (found : pairOf words = some (name, given)) : name ∈ words := by
  unfold pairOf at found
  split at found
  · cases found
  · cases found
  · cases found
    exact List.mem_cons_self
  · cases found
    exact List.mem_cons_self
  · cases found

/-- What holds of all words between two tokens holds of the names listed between them. -/
theorem of_mem_pairs (s : Scan) {p : String → Prop} {first last : Nat} {name given : String}
    (words : ∀ i, first < i → i < last → ∀ w, (s.kind i).propertyName? = some w → p w)
    (h : (name, given) ∈ pairs s first last) : p name := by
  obtain ⟨entry, he, found⟩ := List.mem_filterMap.mp h
  refine forall_mem_entries s _ [] (by simp) (fun i hi => ?_) entry he name (mem_of_pairOf found)
  rw [List.mem_range'_1] at hi
  exact words i (by omega) (by omega)

end Repair.Imports

end TsxPreview
