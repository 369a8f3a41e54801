import TsxPreview.Proofs.Repair.Nesting
import TsxPreview.Repair.Prose

/-!
What cutting an explanation can lose. A word that begins a line is known to stand behind a line
break, so it begins a chunk wherever the scan reads it as that word at the top level, and a tail
with such a chunk is not cut if the word imports, exports or declares. So the lines that are lost
are those that the scan does not see: brackets and quotes of a prose that nothing closes hide what
follows them.
-/

namespace TsxPreview

namespace Lexer

/-- A gap with a line feed in it notes a line break. -/
theorem Gap.breaks_of_mem {errors : List Diagnostic} {pre cs post : List Char} {breaks : Bool}
    (h : Gap errors pre cs post breaks) (mem : '\n' ∈ cs) : breaks = true := by
  induction h with
  | nil => cases mem
  | @blank _ cs _ c breaks _ _ ih =>
    rcases List.mem_cons.mp mem with rfl | mem
    · rfl
    · rw [ih mem, Bool.or_true]
  | @line _ body cs _ breaks line _ _ ih =>
    rcases List.mem_append.mp mem with comment | mem
    · simp [line] at comment
    · exact ih mem
  | @block _ body cs _ breaks _ _ ih =>
    rcases List.mem_append.mp mem with comment | mem
    · have : '\n' ∈ body := by simpa using comment
      rw [List.contains_iff_mem.mpr this, Bool.true_or]
    · rw [ih mem, Bool.or_true]
  | @openBlock _ body _ =>
    exact List.contains_iff_mem.mpr (by simpa using mem)
  | @unexpected _ cs _ c breaks visible _ _ _ ih =>
    rcases List.mem_cons.mp mem with rfl | mem
    · exact absurd (Or.inl rfl) visible
    · exact ih mem

end Lexer

/-- The gap between a token and the next one. -/
theorem TokenStream.Spaced.gap {file : SourceFile} {errors : List Diagnostic} {behind i : Nat}
    {tokens : List Token} {a b : Token} (h : Spaced file errors behind tokens)
    (first : tokens[i]? = some a) (second : tokens[i + 1]? = some b) :
    ∃ pre skipped post, file.text.toList = pre ++ skipped ++ post ∧ byteLength pre = a.span.hi ∧
      byteLength (pre ++ skipped) = b.span.lo ∧
      Lexer.Gap errors pre skipped post b.newlineBefore := by
  induction tokens generalizing behind i with
  | nil => cases first
  | cons t tokens ih =>
    cases i with
    | zero =>
      cases first
      cases tokens with
      | nil => cases second
      | cons n tokens =>
        cases second
        exact h.2.1
    | succ i => exact ih h.2 first second

namespace Scan

variable {text : String} {i j : Nat} {word : Keyword}

/-! ## Line breaks -/

/-- Between two tokens that follow each other is a gap, which the later one notes. -/
theorem exists_gap (h : i + 1 < (ofText text).size) :
    ∃ errors pre skipped post, text.toList = pre ++ skipped ++ post ∧
      byteLength pre = (ofText text).hi i ∧ byteLength (pre ++ skipped) = (ofText text).lo (i + 1) ∧
      Lexer.Gap errors pre skipped post ((ofText text).newlineBefore (i + 1)) := by
  obtain ⟨code, eof, tokens, -, scan⟩ := exists_code text
  have spaced := (TokenStream.tilesText ⟨"<sanitize>", text⟩).spaced
  have size : i + 1 < code.length := by simpa [size, scan] using h
  have first : (code ++ [eof])[i]? = some code[i] := by
    rw [List.getElem?_append_left (by omega), List.getElem?_eq_getElem]
  have second : (code ++ [eof])[i + 1]? = some code[i + 1] := by
    rw [List.getElem?_append_left size, List.getElem?_eq_getElem]
  rw [tokens] at spaced
  obtain ⟨pre, skipped, post, eq, start, stop, gap⟩ := spaced.gap first second
  refine ⟨(TokenStream.ofFile ⟨"<sanitize>", text⟩).diagnostics.errors, pre, skipped, post, eq,
    ?_, ?_, ?_⟩
  · rw [start, hi, scan, List.getElem?_toArray, List.getElem?_eq_getElem (by omega)]
    rfl
  · rw [stop, lo, scan, List.getElem?_toArray, List.getElem?_eq_getElem size]
    rfl
  · rw [newlineBefore, scan, List.getElem?_toArray, List.getElem?_eq_getElem size]
    exact gap

/-- White space behind a line feed, up to a solid character, is not the end of a token. -/
theorem newline_mem_gap {pre lexeme gap more before indent : List Char} {c : Char}
    (solid : Lexer.EndsSolid lexeme (gap ++ c :: more)) (dark : isBlank c = false)
    (eq : pre ++ lexeme ++ gap = before ++ '\n' :: indent)
    (blank : ∀ x ∈ indent, isBlank x = true) : '\n' ∈ gap := by
  have feed : isBlank '\n' = true := by decide
  rcases solid with ⟨front, x, tail, rfl, dark', line⟩ | nil | next
  · refine Decidable.byContradiction fun notMem => ?_
    have whole : pre ++ front ++ x :: (tail ++ gap) = before ++ '\n' :: indent := by
      rw [← eq]
      simp
    rcases List.append_eq_append_iff.mp whole with ⟨e, -, later⟩ | ⟨e, -, earlier⟩
    · -- the line feed would stand behind the last solid character of the token
      have mem : '\n' ∈ x :: (tail ++ gap) := by
        rw [later]
        simp
      rcases List.mem_cons.mp mem with rfl | mem
      · rw [feed] at dark'
        cases dark'
      · exact (List.mem_append.mp mem).elim line notMem
    · have mem : x ∈ '\n' :: indent := by
        rw [earlier]
        simp
      rcases List.mem_cons.mp mem with rfl | mem
      · rw [feed] at dark'
        cases dark'
      · rw [blank x mem] at dark'
        cases dark'
  · simp at nil
  · cases gap with
    | nil =>
      cases next
      rw [feed] at dark
      cases dark
    | cons g gap =>
      cases next
      exact List.mem_cons_self

/-- Of two cuts of one text at one offset, the fronts are the same. -/
theorem eq_of_byteLength {a b c d : List Char} (eq : a ++ b = c ++ d)
    (length : byteLength a = byteLength c) : a = c ∧ b = d := by
  obtain ⟨e, rfl, rfl⟩ := exists_append_of_le eq (Nat.le_of_eq length)
  cases e with
  | nil => exact ⟨(List.append_nil a).symm, rfl⟩
  | cons x e =>
    have := byteLength_pos (List.cons_ne_nil x e)
    rw [byteLength_append] at length
    omega

/-- A reserved word that is the first of its line is known to stand behind a line break. -/
theorem newlineBefore_of_indent (kind : (ofText text).kind (i + 1) = .keyword word)
    {before indent after : List Char} (eq : text.toList = before ++ '\n' :: indent ++ after)
    (place : (ofText text).lo (i + 1) = byteLength (before ++ '\n' :: indent))
    (blank : ∀ x ∈ indent, isBlank x = true) : (ofText text).newlineBefore (i + 1) = true := by
  have size : i + 1 < (ofText text).size :=
    lt_size_of_kind (by rw [kind]; exact TokenKind.noConfusion)
  have code := isMarkupText_pred size (by rw [kind]; exact fun _ => TokenKind.noConfusion)
  obtain ⟨pre, lexeme, skipped, c, more, whole, dark, stop, start, solid⟩ :=
    gap (Nat.lt_succ_self i) size kind
  obtain ⟨errors, pre', skipped', post, whole', stop', start', noted⟩ := exists_gap size
  -- both descriptions are of the same gap
  have front := (eq_of_byteLength (whole.symm.trans eq) (start.symm.trans place)).1
  have all := (eq_of_byteLength (whole'.symm.trans whole) (start'.trans start)).1
  have behind : pre' = pre ++ lexeme := by
    refine (eq_of_byteLength (b := skipped' ++ post) (d := skipped ++ c :: more) ?_
      (stop'.trans stop)).1
    rw [← List.append_assoc, ← whole', whole, List.append_assoc]
  subst behind
  obtain rfl := List.append_cancel_left all
  exact noted.breaks_of_mem (newline_mem_gap (solid code) dark front blank)

/-! ## Chunks that begin with a word -/

theorem map_first_chunksOf (size : Nat) (starts : List Nat) :
    (chunksOf size starts).map Chunk.first = starts := by
  fun_induction chunksOf size starts with
  | case1 => rfl
  | case2 first => rfl
  | case3 first next rest ih => rw [List.map_cons, ih]

theorem exists_chunk {s : Scan} (size : i < s.size) (starts : s.startsChunk i = true) :
    ∃ c ∈ s.chunks, c.first = i := by
  have mem : i ∈ s.chunks.map Chunk.first := by
    rw [chunks, map_first_chunksOf]
    exact List.mem_filter.mpr ⟨List.mem_range.mpr size, starts⟩
  exact List.mem_map.mp mem

/-! ## Hidden words -/

/-- The scan does not see the word `w` at the byte `n` as one that may begin a statement of the top
level. -/
inductive Hidden (s : Scan) (w : Keyword) (n : Nat) : Prop where
  /-- A bracket in front of it is open. -/
  | bracketed {i : Nat} (word : s.kind i = .keyword w) (place : s.lo i = n) (deep : 0 < s.nesting i)
  /-- It is read as something else, such as a name in a tag. -/
  | misread {i : Nat} (size : i < s.size) (place : s.lo i = n) (other : s.kind i ≠ .keyword w)
  /-- It stands in a longer token: a text in quotes, a template or text between tags. -/
  | inside {i : Nat} (size : i < s.size) (behind : s.lo i < n) (inFront : n < s.hi i)
  /-- It stands in no token: in a comment, or where reading was given up. -/
  | skipped (outside : ∀ i < s.size, n < s.lo i ∨ s.hi i ≤ n)

/-- A word is hidden exactly if no token at the top level is read as that word there. -/
theorem hidden_iff {w : Keyword} {n : Nat} : (ofText text).Hidden w n ↔
    ∀ i, (ofText text).kind i = .keyword w → (ofText text).lo i = n →
      0 < (ofText text).nesting i := by
  constructor
  · intro hidden i word place
    have size : i < (ofText text).size :=
      lt_size_of_kind (by rw [word]; exact TokenKind.noConfusion)
    have stop := place ▸ lo_lt_hi size
    have start := Nat.le_of_eq place
    -- a token that holds the byte is this one
    cases hidden with
    | bracketed word' place' deep =>
      have size' := lt_size_of_kind (by rw [word']; exact TokenKind.noConfusion)
      rwa [eq_of_holds size size' start stop (Nat.le_of_eq place') (place' ▸ lo_lt_hi size')]
    | misread size' place' other =>
      rw [← eq_of_holds size size' start stop (Nat.le_of_eq place')
        (place' ▸ lo_lt_hi size')] at other
      exact absurd word other
    | inside size' behind inFront =>
      obtain rfl := eq_of_holds size size' start stop (Nat.le_of_lt behind) inFront
      exact absurd place (Nat.ne_of_lt behind)
    | skipped outside =>
      rcases outside i size with before | after
      · exact absurd place (Nat.ne_of_gt before)
      · exact absurd stop (Nat.not_lt_of_le after)
  · intro deep
    by_cases covered : ∃ i < (ofText text).size, (ofText text).lo i ≤ n ∧ n < (ofText text).hi i
    · obtain ⟨i, size, behind, inFront⟩ := covered
      rcases Nat.lt_or_eq_of_le behind with less | place
      · exact .inside size less inFront
      · by_cases word : (ofText text).kind i = .keyword w
        · exact .bracketed word place (deep i word place)
        · exact .misread size place word
    · refine .skipped fun i size => ?_
      by_cases before : n < (ofText text).lo i
      · exact .inl before
      · exact .inr (Nat.le_of_not_lt fun inFront =>
          covered ⟨i, size, Nat.le_of_not_lt before, inFront⟩)

end Scan

namespace Repair

namespace Prose

/-- The words that import, export or declare. -/
def codeWords : List Keyword := [.import, .export, .const, .let, .var, .function]

/-- A line of `cs` begins, after white space, with the word `w`, which starts at the byte `n`. -/
def Begins (cs : List Char) (w : Keyword) (n : Nat) : Prop :=
  ∃ before indent after, cs = before ++ (indent ++ (w.text.toList ++ after)) ∧
    byteLength (before ++ indent) = n ∧ (∀ c ∈ before.getLast?, c = '\n') ∧
    (∀ c ∈ indent, isBlank c = true) ∧
    ∀ c ∈ after.head?, isBlank c = true ∨ Lexer.isIdentContinue c = false

variable {w : Keyword}

theorem begins_behind_feed {cs : List Char} {n : Nat} (before after : List Char)
    (eq : cs = before ++ '\n' :: (w.text.toList ++ ' ' :: after))
    (length : byteLength before + 1 = n) : Begins cs w n := by
  refine ⟨before ++ ['\n'], [], ' ' :: after, by simp [eq], ?_, ?_, by simp, ?_⟩
  · rw [List.append_nil, byteLength_append]
    exact length
  · simp
  · rintro _ ⟨⟩
    exact .inl (by decide)

theorem beginsStatement_of_mem (mem : w ∈ codeWords) {s : Scan} {i : Nat}
    (kind : s.kind i = .keyword w) : s.beginsStatement i = true := by
  unfold Scan.beginsStatement
  rw [kind]
  dsimp only
  clear kind
  revert w
  decide

theorem isCode_of_mem (mem : w ∈ codeWords) {s : Scan} {c : Chunk}
    (kind : s.kind c.first = .keyword w) : isCode s c = true := by
  unfold isCode Scan.isKeyword
  rw [kind]
  clear kind
  revert w
  decide

/-- Such a word starts with a small letter, as no line of an explanation does. -/
theorem exists_letter (mem : w ∈ codeWords) :
    ∃ c more, w.text.toList = c :: more ∧ isBlank c = false ∧ c ≠ '\n' ∧
      ∀ rest, isProse (c :: rest) = false := by
  simp only [codeWords, List.mem_cons, List.not_mem_nil, or_false] at mem
  rcases mem with rfl | rfl | rfl | rfl | rfl | rfl <;>
    exact ⟨_, _, rfl, by decide, by decide, fun _ => rfl⟩

theorem trimBlankEnd_cons {c : Char} (dark : isBlank c = false) (cs : List Char) :
    ∃ rest, trimBlankEnd (c :: cs) = c :: rest := by
  unfold trimBlankEnd
  rw [List.reverse_cons, List.dropWhile_append]
  split
  · refine ⟨[], ?_⟩
    rw [List.dropWhile_cons_of_neg (by rw [dark]; exact Bool.false_ne_true)]
    rfl
  · exact ⟨_, List.reverse_concat ..⟩

end Prose

/-! ## The cut -/

/-- What is known of a tail that was cut: what stands in front of it, that its first line reads as
prose, and that no chunk from there on begins with a word that imports, exports or declares. -/
structure ProseRemoval.Cuts (text : String) (r : ProseRemoval) (kept : List Char) : Prop where
  result : r.text.toList = kept ++ ['\n']
  whole : text.toList = kept ++ r.prose.toList
  prose : Prose.isProse
    (trimBlankEnd ((trimBlankStart r.prose.toList).takeWhile (· != '\n'))) = true
  chunks : ∀ c ∈ (Scan.ofText text).chunks, Prose.isCode (Scan.ofText text) c = true →
    (Scan.ofText text).lo c.first < byteLength kept + byteLength (r.prose.toList.takeWhile isBlank)

theorem stripProse_cuts {text : String} {r : ProseRemoval} (h : stripProse text = some r) :
    ∃ kept, r.Cuts text kept := by
  obtain ⟨_, -, h⟩ := Option.bind_eq_some_iff.mp h
  obtain ⟨last, -, h⟩ := Option.bind_eq_some_iff.mp h
  obtain ⟨-, h⟩ := of_guard_bind h
  obtain ⟨prose, h⟩ := of_guard_bind h
  obtain ⟨code, h⟩ := of_guard_bind h
  cases h
  obtain ⟨kept, tail, whole, length⟩ := Scan.boundary_hi text last
  rw [← length, whole, dropBytes_byteLength] at prose code
  rw [← length, whole, dropBytes_byteLength, takeBytes_byteLength]
  refine ⟨kept, String.toList_ofList, ?_, ?_, ?_⟩
  · rw [whole, String.toList_ofList]
  · rw [String.toList_ofList]
    exact prose
  · intro c mem isCode
    rw [String.toList_ofList]
    rw [Bool.not_eq_true', List.any_eq_false] at code
    have := code c mem
    rw [isCode, Bool.and_true, decide_eq_true_eq] at this
    exact Nat.lt_of_not_le this

namespace ProseRemoval.Cuts

variable {text : String} {r : ProseRemoval} {kept before indent after : List Char} {w : Keyword}
  {i : Nat}

/-- The first line of the tail does not begin with such a word. -/
theorem ne_nil (h : r.Cuts text kept) (mem : w ∈ Prose.codeWords)
    (eq : r.prose.toList = before ++ (indent ++ (w.text.toList ++ after)))
    (blank : ∀ c ∈ indent, isBlank c = true) : before ≠ [] := by
  rintro rfl
  obtain ⟨c, more, letters, dark, notFeed, notProse⟩ := Prose.exists_letter mem
  have prose := h.prose
  rw [eq, letters, List.nil_append, trimBlankStart, List.dropWhile_append_of_pos blank,
    List.cons_append, List.dropWhile_cons_of_neg (by rw [dark]; exact Bool.false_ne_true),
    List.takeWhile_cons_of_pos (by simpa using notFeed)] at prose
  obtain ⟨rest, line⟩ := Prose.trimBlankEnd_cons dark ((more ++ after).takeWhile (· != '\n'))
  rw [line, notProse] at prose
  cases prose

/-- The white space at the beginning of the tail ends before any such word. -/
theorem byteLength_blank_le (mem : w ∈ Prose.codeWords)
    (eq : r.prose.toList = before ++ (indent ++ (w.text.toList ++ after))) :
    byteLength (r.prose.toList.takeWhile isBlank) ≤ byteLength (before ++ indent) := by
  obtain ⟨c, more, letters, dark, -⟩ := Prose.exists_letter mem
  refine Nat.le_of_not_lt fun less => ?_
  have split : (before ++ indent) ++ (w.text.toList ++ after) =
      r.prose.toList.takeWhile isBlank ++ r.prose.toList.dropWhile isBlank := by
    rw [List.takeWhile_append_dropWhile, eq, List.append_assoc]
  obtain ⟨e, front, behind⟩ := exists_append_of_le split (Nat.le_of_lt less)
  cases e with
  | nil =>
    rw [front, List.append_nil] at less
    exact Nat.lt_irrefl _ less
  | cons x e =>
    rw [letters] at behind
    obtain ⟨rfl, -⟩ := List.cons.inj behind
    have mem : c ∈ r.prose.toList.takeWhile isBlank := by
      rw [front]
      simp
    have blank := List.all_eq_true.mp List.all_takeWhile c mem
    rw [dark] at blank
    cases blank

end ProseRemoval.Cuts

/-- Only hidden code is cut. What is left of a text whose tail is cut is its beginning and a line
feed, and every line of the tail that begins with a word that imports, exports or declares is hidden
from the scan. -/
theorem stripProse_hides {text : String} {r : ProseRemoval} (h : stripProse text = some r) :
    ∃ kept, r.text.toList = kept ++ ['\n'] ∧ text.toList = kept ++ r.prose.toList ∧
      ∀ w ∈ Prose.codeWords, ∀ n, Prose.Begins r.prose.toList w n →
        (Scan.ofText text).Hidden w (byteLength kept + n) := by
  obtain ⟨kept, cuts⟩ := stripProse_cuts h
  refine ⟨kept, cuts.result, cuts.whole, ?_⟩
  rintro w mem n ⟨before, indent, after, eq, rfl, line, blank, -⟩
  refine Scan.hidden_iff.mpr fun i word place => Nat.pos_of_ne_zero fun top => ?_
  -- at the top level the word would begin a chunk
  have starts : (Scan.ofText text).startsChunk i = true := by
    have begins := Prose.beginsStatement_of_mem mem word
    cases i with
    | zero => simp [Scan.startsChunk, top]
    | succ i =>
      obtain ⟨front, last, rfl⟩ := (List.eq_nil_or_concat before).resolve_left
        (cuts.ne_nil mem eq blank)
      obtain rfl : last = '\n' := line last (by simp)
      have whole : text.toList =
          kept ++ front ++ '\n' :: indent ++ (w.text.toList ++ after) := by
        rw [cuts.whole, eq]
        simp
      have newline := Scan.newlineBefore_of_indent word whole
        (by rw [place, ← byteLength_append]; simp) blank
      simp [Scan.startsChunk, top, begins, newline]
  have size : i < (Scan.ofText text).size :=
    Scan.lt_size_of_kind (by rw [word]; exact TokenKind.noConfusion)
  obtain ⟨c, found, rfl⟩ := Scan.exists_chunk size starts
  have inFront := cuts.chunks c found (Prose.isCode_of_mem mem word)
  have := ProseRemoval.Cuts.byteLength_blank_le mem eq
  omega

/-- A backtick that nothing closes hides the import behind it. -/
theorem stripProse_hides_template :
    let text :=
      "export default function App() \x7b\x7d\nIt has a `Card here.\nimport a from \"./a\";\n"
    ∃ r, stripProse text = some r ∧ Prose.Begins r.prose.toList .import 22 ∧
      (Scan.ofText text).Hidden .import (32 + 22) := by
  intro text
  have cut : (stripProse text).map (fun r => (r.text, r.prose)) =
      some ("export default function App() \x7b\x7d\n",
        "\nIt has a `Card here.\nimport a from \"./a\";\n") := by decide +kernel
  obtain ⟨r, strips, parts⟩ := Option.map_eq_some_iff.mp cut
  have begins : Prose.Begins r.prose.toList .import 22 := by
    rw [show r.prose = _ from congrArg Prod.snd parts]
    exact Prose.begins_behind_feed "\nIt has a `Card here.".toList "a from \"./a\";\n".toList
      (by decide +kernel) (by decide +kernel)
  obtain ⟨kept, result, -, hides⟩ := stripProse_hides strips
  have length : byteLength (kept ++ ['\n']) = 32 + byteLength ['\n'] := by
    rw [← result, show r.text = _ from congrArg Prod.fst parts]
    decide +kernel
  have hidden := hides .import (by decide) 22 begins
  rw [Nat.add_right_cancel ((byteLength_append ..).symm.trans length)] at hidden
  exact ⟨r, strips, begins, hidden⟩

/-- A bracket that nothing closes hides the import behind it too, so the import is lost. -/
theorem stripProse_loses_import :
    let text :=
      "export default function App() \x7b\x7d\nIt has a hook (see below.\nimport a from \"./a\";\n"
    let tail := "\nIt has a hook (see below.\nimport a from \"./a\";\n"
    (stripProse text).map ProseRemoval.prose = some tail ∧
      Prose.Begins tail.toList .import 27 := by
  intro text tail
  refine ⟨by decide +kernel, ?_⟩
  exact Prose.begins_behind_feed "\nIt has a hook (see below.".toList "a from \"./a\";\n".toList
    (by decide +kernel) (by decide +kernel)

end Repair

end TsxPreview
