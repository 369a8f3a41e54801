import TsxPreview.Proofs.Repair.Tokens
import TsxPreview.Proofs.Syntax.TypeShapes
import TsxPreview.Syntax.Printer

/-!
The types that the removal of annotations looks for end where the reader of types stops, unless what
follows goes on with the type in a way that the removal does not know.
-/

namespace TsxPreview

namespace Scan

variable {s : Scan} {a b c : Nat}

/-- The search for a closing angle bracket passes over the tokens from `a` up to `b`. -/
def Crosses (s : Scan) (a b : Nat) : Prop :=
  a ≤ b ∧ ∀ fuel depth, 1 ≤ depth →
    s.angleFrom (fuel + (b - a)) a depth = s.angleFrom fuel b depth

theorem Crosses.refl (s : Scan) (a : Nat) : Crosses s a a := ⟨Nat.le_refl a, by simp⟩

theorem Crosses.trans (h : Crosses s a b) (k : Crosses s b c) : Crosses s a c := by
  refine ⟨Nat.le_trans h.1 k.1, fun fuel depth open' => ?_⟩
  have split : fuel + (c - a) = fuel + (c - b) + (b - a) := by have := h.1; have := k.1; omega
  rw [split, h.2 _ depth open', k.2 fuel depth open']

/-- The search goes on past the token whatever the number of open brackets. -/
def passable : TokenKind → Bool
  | .punct p => p != .less && p != .greater && p != .semicolon && p != .lBrace && p != .rBrace
  | _ => true

theorem Crosses.token {k : TokenKind} (here : s.kind a = k) (h : passable k = true) :
    Crosses s a (a + 1) := by
  refine ⟨Nat.le_succ a, fun fuel depth _ => ?_⟩
  rw [Nat.add_sub_cancel_left, angleFrom, here]
  split <;> simp_all [passable]

theorem Crosses.angles (less : (s.kind a).isPunct .less = true) (inside : Crosses s (a + 1) b)
    (greater : (s.kind b).isPunct .greater = true) : Crosses s a (b + 1) := by
  have le := inside.1
  refine ⟨by omega, fun fuel depth open' => ?_⟩
  have split : fuel + (b + 1 - a) = fuel + 1 + (b - (a + 1)) + 1 := by omega
  rw [split, angleFrom, TokenKind.eq_punct less]
  dsimp only
  rw [inside.2 _ _ (by omega), angleFrom, TokenKind.eq_punct greater]
  simp [show ¬ depth = 0 by omega]

theorem Crosses.matchingAngle? (less : (s.kind a).isPunct .less = true)
    (inside : Crosses s (a + 1) b) (greater : (s.kind b).isPunct .greater = true) :
    s.matchingAngle? a = some b := by
  have lt : b < s.size := lt_size_of_isPunct (p := .greater) greater
  have le := inside.1
  have split : s.size - a = s.size - b - 1 + 1 + (b - (a + 1)) + 1 := by omega
  rw [Scan.matchingAngle?, split, angleFrom, TokenKind.eq_punct less]
  dsimp only
  rw [inside.2 _ _ (by omega), angleFrom, TokenKind.eq_punct greater]
  simp

end Scan

namespace TypeShape

variable {s : Scan} {newline : Nat → Bool} {depth first last : Nat}

/-- The first token of a part that the search for a closing angle bracket passes over. -/
def start (part : TypePart) (first : Nat) : Nat := if startsBehind part then first + 1 else first

/-- Angle brackets are balanced in every part of a type. -/
theorem crosses {part : TypePart} (h : TypeShape s.kind newline part depth first last) :
    s.Crosses (start part first) (last + 1) := by
  induction h with
  | @literal _ i lit =>
    exact .token (a := i) rfl
      (by cases here : s.kind i <;> simp_all [TokenKind.isLiteralType, Scan.passable])
  | named word _ _ dots => exact .trans (.token word rfl) dots
  | applied word _ _ less _ greater dots args =>
    exact .trans (.token word rfl) (.trans dots (.angles less args greater))
  | noDots | noArrays | noOthers => exact .refl s _
  | dot dot word _ more =>
    exact .trans (.token (TokenKind.eq_punct dot) rfl) (.trans (.token word rfl) more)
  | array start _ close _ more =>
    exact .trans (.token (TokenKind.eq_punct start) rfl)
      (.trans (.token (TokenKind.eq_punct close) rfl) more)
  | member _ _ head arrays => exact head.trans arrays
  | other join _ _ member more =>
    have joins : s.kind _ = .punct .pipe ∨ s.kind _ = .punct .amp := TokenKind.of_joinsTypes join
    rcases joins with join | join <;> exact .trans (.token join rfl) (member.trans more)
  | type _ _ member others => exact member.trans others
  | argument _ ih => exact ih
  | moreArguments _ comma _ type more =>
    exact type.trans (.trans (.token (TokenKind.eq_punct comma) rfl) more)

end TypeShape

namespace Repair.Annotations

/-- Where the removal of annotations sees a part of a type end. -/
def EndsPart (s : Scan) (part : TypePart) (first last : Nat) : Prop :=
  let next := s.kind (last + 1)
  match part with
  | .head => next.extendsName = false → headEnd? s first = some last
  | .dots => ∀ fuel, last ≤ first + fuel → next.isPunct .dot = false →
      qualified s fuel first = last
  | .arrays => ∀ fuel, last ≤ first + fuel → next.isPunct .lBracket = false →
      arrays s fuel first = last
  | .member => next.extendsMember = false → atomEnd? s first = some last
  | .others => ∀ fuel, last ≤ first + fuel → next.extendsMember = false →
      next.joinsTypes = false → unionEnd? s fuel first = some last
  | .type => next.extendsType = false → typeEnd? s first = some last
  | .arguments => True

end Repair.Annotations

open Repair.Annotations TypeShape

theorem TypeShape.endsPart {s : Scan} {newline : Nat → Bool} {part : TypePart}
    {depth first last : Nat} (h : TypeShape s.kind newline part depth first last) :
    EndsPart s part first last := by
  have closed (n : Nat) (hn : s.kind n ≠ .eof) : n < s.size := Scan.lt_size_of_kind hn
  induction h with
  | literal lit =>
    intro _
    unfold TokenKind.isLiteralType at lit
    unfold headEnd?
    split at lit <;> simp_all
  | named word type shape dots =>
    intro next
    simp only [TokenKind.extendsName, Bool.or_eq_false_iff] at next
    have inside := shape.lt closed fun _ => closed _ (by rw [word]; exact TokenKind.noConfusion)
    simp only [headEnd?, word, type, if_true]
    rw [dots s.size (by omega) next.1.1, Scan.isPunct, next.1.2]
    rfl
  | applied word type shape less argsShape greater dots args =>
    intro next
    have inside := shape.lt closed fun _ => closed _ (by rw [word]; exact TokenKind.noConfusion)
    simp only [headEnd?, word, type, if_true]
    rw [dots s.size (by omega) (by rw [TokenKind.eq_punct less]; rfl), Scan.isPunct, if_pos less]
    exact argsShape.crosses.matchingAngle? less greater
  | noDots =>
    intro fuel _ next
    cases fuel <;> simp [qualified, Scan.isPunct, next]
  | dot dot word shape more =>
    intro fuel enough next
    have := shape.le
    obtain ⟨fuel, rfl⟩ : ∃ n, fuel = n + 1 := ⟨fuel - 1, by omega⟩
    simpa [qualified, Scan.isPunct, dot, Scan.ident?, word] using more fuel (by omega) next
  | noArrays =>
    intro fuel _ next
    cases fuel <;> simp [arrays, Scan.isPunct, next]
  | array start line close shape more =>
    intro fuel enough next
    have := shape.le
    obtain ⟨fuel, rfl⟩ : ∃ n, fuel = n + 1 := ⟨fuel - 1, by omega⟩
    simpa [arrays, Scan.isPunct, start, close] using more fuel (by omega) next
  | member headShape arrayShape head arrays =>
    intro next
    have headNext := arrayShape.extendsName_next next
    have inside := arrayShape.lt closed fun _ => headShape.lt closed (by simp [startsBehind])
    simp only [TokenKind.extendsMember, Bool.or_eq_false_iff] at next
    rw [atomEnd?, head headNext, Option.map_some, arrays s.size (by omega) next.2]
  | noOthers =>
    intro fuel _ next notJoined
    simp only [TokenKind.joinsTypes, Bool.or_eq_false_iff] at notJoined
    cases fuel <;> simp [unionEnd?, Scan.isPunct, notJoined]
  | other join memberShape moreShape member more =>
    intro fuel enough next notJoined
    have := memberShape.le
    have := moreShape.le
    obtain ⟨fuel, rfl⟩ : ∃ n, fuel = n + 1 := ⟨fuel - 1, by omega⟩
    simp only [TokenKind.joinsTypes] at join
    rw [unionEnd?, Scan.isPunct, Scan.isPunct, if_pos join,
      member (moreShape.extendsMember_next next)]
    exact more fuel (by omega) next notJoined
  | type memberShape othersShape member others =>
    intro next
    simp only [TokenKind.extendsType, Bool.or_eq_false_iff] at next
    have inside := othersShape.lt closed fun _ => memberShape.lt closed (by simp [startsBehind])
    rw [typeEnd?, member (othersShape.extendsMember_next next.1.1)]
    exact others s.size (by omega) next.1.1 next.1.2
  | argument | moreArguments => trivial

/-! ### What is removed -/

theorem Scan.kind_of_ident? {s : Scan} {i : Nat} {name : String} (h : s.ident? i = some name) :
    s.kind i = .identifier name := by
  unfold ident? at h
  split at h <;> simp_all

/-- The input holds the tokens of the scan and the end of the file behind them. -/
structure Parser.Input.Extends (i : Parser.Input) (s : Scan) : Prop where
  kindAt : i.kindAt = s.kind
  newlineAt (n : Nat) (h : n < s.size) : i.newlineAt n = s.newlineBefore n
  size : i.tokens.size = s.size + 1

theorem Parser.Input.Extends.closed {i : Parser.Input} {s : Scan} (h : i.Extends s) :
    i.Closed := by
  intro n hn
  rw [h.kindAt] at hn
  have := Scan.lt_size_of_kind hn
  have := h.size
  omega

/-- What the parser is given of a text that is to be repaired. -/
def Parser.Input.ofText (text : String) : Parser.Input :=
  let file : SourceFile := ⟨"<sanitize>", text⟩
  ⟨file, (TokenStream.ofFile file).tokens.toArray⟩

/-- What the parser is given of a text extends what the repairs see of it. -/
theorem Scan.extends_ofText (text : String) :
    (Parser.Input.ofText text).Extends (ofText text) := by
  unfold Parser.Input.ofText
  dsimp only
  obtain ⟨code, eof, tokens, kind, scan⟩ := exists_code text
  refine ⟨?_, fun n h => ?_, ?_⟩
  · funext n
    simp only [Parser.Input.kindAt, Scan.kind, scan, tokens, List.getElem?_toArray]
    rcases Nat.lt_trichotomy n code.length with lt | rfl | gt
    · rw [List.getElem?_append_left lt]
    · simp [kind]
    · rw [List.getElem?_eq_none (by simp; omega), List.getElem?_eq_none (by omega)]
  · rw [size, scan] at h
    simp only [Parser.Input.newlineAt, Scan.newlineBefore, scan, tokens, List.getElem?_toArray]
    rw [List.getElem?_append_left (by simpa using h)]
  · simp [size, scan, tokens]

namespace Repair

namespace Annotations

/-- The reader that passes over what stands at `n`: an annotation or an assertion. -/
def readerAt (s : Scan) (n : Nat) (g : Parser.Grammar) : Parser Unit :=
  if s.isPunct n .colon then g.annotation else g.cast

/-- The edit at `n` takes away the tokens up to `last`, and the readers of the parser pass over the
same tokens. -/
structure Erases (s : Scan) (i : Parser.Input) (n depth last : Nat) (e : Edit) : Prop where
  text : e.text = []
  hi : e.hi = s.hi last
  reads (fuel : Nat) (st : Parser.State) (enough : 3 * depth + 3 ≤ fuel)
    (room : st.depth + depth < Parser.nestingLimit) :
    Parser.Reads i st n (readerAt s n (Parser.grammar fuel)) () (last + 1)

theorem editAt?_erases {s : Scan} {i : Parser.Input} (ext : i.Extends s) {chunks : List Chunk}
    {n depth last : Nat} {e : Edit} (h : editAt? s chunks n = some e)
    (shape : TypeShape s.kind s.newlineBefore .type depth (n + 1) last)
    (next : (s.kind (last + 1)).extendsType = false) : Erases s i n depth last e := by
  have found : typeEnd? s (n + 1) = some last := shape.endsPart next
  have read : TypeShape i.kindAt i.newlineAt .type depth (n + 1) last := by
    rw [ext.kindAt]
    exact shape.congr_newline fun m hm => (ext.newlineAt m (Scan.lt_size_of_kind hm)).symm
  rw [← ext.kindAt] at next
  unfold editAt? at h
  split at h
  · rename_i colon
    obtain ⟨-, h⟩ := of_guard_bind h
    obtain ⟨-, h⟩ := of_guard_bind h
    obtain ⟨_, found', h⟩ := Option.bind_eq_some_iff.mp h
    obtain ⟨_, -, h⟩ := Option.bind_eq_some_iff.mp h
    obtain ⟨-, h⟩ := of_guard_bind h
    cases found.symm.trans found'
    cases h
    refine ⟨rfl, rfl, fun fuel st enough room => ?_⟩
    rw [readerAt, if_pos colon]
    have colon : (i.kindAt n).isPunct .colon = true := by rw [ext.kindAt]; exact colon
    exact Parser.reads_annotation ext.closed colon read next enough room
  · split at h
    · rename_i notColon word
      split at h
      · cases h
      · obtain ⟨-, h⟩ := of_guard_bind h
        obtain ⟨-, h⟩ := of_guard_bind h
        dsimp only at h
        rw [Scan.isKeyword, shape.isKeyword_const rfl, if_neg Bool.false_ne_true, found] at h
        cases h
        refine ⟨rfl, rfl, fun fuel st enough room => ?_⟩
        rw [readerAt, if_neg notColon]
        have as : i.kindAt n = .identifier "as" := by
          rw [ext.kindAt]
          exact Scan.kind_of_ident? (eq_of_beq word)
        exact Parser.reads_cast ext.closed as read next enough room
    · cases h

end Annotations

/-- Whatever is stripped from a text: an annotation or an assertion of a written type, with nothing
behind it that goes on with the type, is stripped up to where the parser stops reading it. -/
theorem stripAnnotations_erases {text stripped : String} {fix : Fix}
    (h : stripAnnotations text = .applied stripped fix) :
    let s := Scan.ofText text
    ∃ edits : List Edit, stripped = String.ofList (Edit.applyAll text.toList edits) ∧
      ∀ e ∈ edits, ∃ n, ∀ depth last,
        TypeShape s.kind s.newlineBefore .type depth (n + 1) last →
        (s.kind (last + 1)).extendsType = false →
        Annotations.Erases s (Parser.Input.ofText text) n depth last e := by
  unfold stripAnnotations at h
  dsimp only at h
  split at h
  · cases h
  · split at h
    · cases h
      refine ⟨_, rfl, fun e he => ?_⟩
      obtain ⟨n, -, found⟩ := List.mem_filterMap.mp he
      exact ⟨n, fun _ _ shape next =>
        Annotations.editAt?_erases (Scan.extends_ofText text) found shape next⟩
    · cases h

/-- What follows may go on with the type in a way that is not looked for. Of `Row["id"]` only the
name is taken away, and what is left of the type becomes a member access. -/
theorem stripAnnotations_not_erasing :
    stripAnnotations "show(id as Row[\"id\"]);"
        = .applied "show(id[\"id\"]);" (.strippedAnnotations 1) ∧
      (Parsed.ofFile ⟨"/App.tsx", "show(id as Row[\"id\"]);"⟩).module?.map Module.print
        = some "show(id);\n" ∧
      (Parsed.ofFile ⟨"/App.tsx", "show(id[\"id\"]);"⟩).module?.map Module.print
        = some "show(id[\"id\"]);\n" := by
  decide +kernel

end Repair

end TsxPreview
