import Mathlib.Data.List.TakeWhile
import TsxPreview.Proofs.Repair.Places
import TsxPreview.Proofs.Splitting
import TsxPreview.View.Selector

/-!
How selectors are read. Every alternative is a tag with marks, or ends in an attribute that is not
closed, or has a character behind a closed one that begins no mark. The last two match nothing and
leave the other alternatives alone, unless that character takes several bytes: then the reading breaks
off inside it.
-/

namespace TsxPreview

/-! ## Cutting at bytes -/

theorem cutAt?_byteLength (a b : List Char) : cutAt? (byteLength a) (a ++ b) = some (a, b) := by
  unfold cutAt?
  rw [takeBytes_byteLength, dropBytes_byteLength]
  exact if_pos rfl

theorem cutAt?_one (c : Char) (rest : List Char) :
    cutAt? 1 (c :: rest) = if c.utf8Size = 1 then some ([c], rest) else none := by
  split
  · rename_i one
    have := cutAt?_byteLength [c] rest
    rwa [byteLength, one] at this
  · rename_i several
    cases cut : cutAt? 1 (c :: rest) with
    | none => rfl
    | some parts =>
      obtain ⟨a, b⟩ := parts
      obtain ⟨whole, bytes⟩ := append_of_cutAt? cut
      cases a with
      | nil => cases bytes
      | cons first more =>
        obtain ⟨rfl, -⟩ := List.cons.inj whole
        have := first.utf8Size_pos
        rw [byteLength] at bytes
        omega

section

variable {p : Char → Bool} {a : List Char}

theorem findByte?_eq_none (plain : ∀ c ∈ a, p c = false) : findByte? p a = none := by
  induction a with
  | nil => rfl
  | cons c a ih =>
    obtain ⟨here, later⟩ := List.forall_mem_cons.mp plain
    rw [findByte?, here, if_neg Bool.false_ne_true, ih later, Option.map_none]

theorem findByte?_append (plain : ∀ c ∈ a, p c = false) {c : Char} (h : p c = true)
    (rest : List Char) : findByte? p (a ++ c :: rest) = some (byteLength a) := by
  induction a with
  | nil => rw [List.nil_append, findByte?, if_pos h, byteLength]
  | cons d a ih =>
    obtain ⟨here, later⟩ := List.forall_mem_cons.mp plain
    rw [List.cons_append, findByte?, here, if_neg Bool.false_ne_true, ih later, Option.map_some,
      byteLength]

end

/-! ## Marks -/

namespace Compound

/-- The marks of a compound: `#id`, `.class` and `[attribute]`. -/
inductive Mark where
  | id (name : List Char)
  | className (name : List Char)
  | test (inner : List Char)

/-- Nothing stands here, or a mark begins. -/
def Stops (rest : List Char) : Prop := ∀ c ∈ rest.head?, startsMark c = true

/-- No character begins a mark. -/
def IsName (name : List Char) : Prop := ∀ c ∈ name, startsMark c = false

namespace Mark

def text : Mark → List Char
  | id name => '#' :: name
  | className name => '.' :: name
  | test inner => '[' :: (inner ++ [']'])

def IsPlain : Mark → Prop
  | id name | className name => IsName name
  | test inner => ']' ∉ inner

def add (c : Compound) : Mark → Compound
  | id name => { c with id := some (String.ofList name) }
  | className name => { c with classes := c.classes ++ [String.ofList name] }
  | test inner => { c with attributes := c.attributes ++ [attributeTest inner] }

theorem stops_text (m : Mark) (rest : List Char) : Stops (m.text ++ rest) := by
  intro c h
  cases m <;> (cases h; rfl)

end Mark

theorem isName_takeWhile (cs : List Char) : IsName (cs.takeWhile (!startsMark ·)) :=
  fun c mem => by simpa using List.mem_takeWhile_imp mem

theorem stops_dropWhile (cs : List Char) : Stops (cs.dropWhile (!startsMark ·)) := fun c head => by
  have := List.head?_dropWhile_not (!startsMark ·) cs
  rw [Option.mem_def.mp head] at this
  simpa using this

variable {c : Compound} {name inner rest : List Char}

theorem cutName?_append (plain : IsName name) (stops : Stops rest) :
    cutName? (name ++ rest) = some (name, rest) := by
  unfold cutName?
  cases rest with
  | nil =>
    rw [List.append_nil, findByte?_eq_none plain, Option.getD_none]
    simpa using cutAt?_byteLength name []
  | cons x rest =>
    rw [findByte?_append plain (stops x rfl), Option.getD_some]
    exact cutAt?_byteLength name (x :: rest)

theorem forall_of_not_mem {x : Char} {cs : List Char} (h : x ∉ cs) : ∀ y ∈ cs, (y == x) = false :=
  fun _ mem => beq_false_of_ne fun eq => h (eq ▸ mem)

theorem readAttribute_append (plain : ']' ∉ inner) (rest : List Char) :
    readAttribute c (inner ++ ']' :: rest) = .on (Mark.add c (.test inner)) rest := by
  have stop : findByte? (· == ']') (inner ++ ']' :: rest) = some (byteLength inner) :=
    findByte?_append (forall_of_not_mem plain) (beq_self_eq_true _) rest
  have behind : cutAt? (byteLength inner + 1) (inner ++ ']' :: rest) =
      some (inner ++ [']'], rest) := by
    have := cutAt?_byteLength (inner ++ [']']) rest
    rwa [byteLength_append, List.append_assoc, List.singleton_append] at this
  unfold readAttribute
  rw [stop]
  dsimp only
  rw [cutAt?_byteLength, behind]
  rfl

theorem readAttribute_of_not_mem (plain : ']' ∉ inner) :
    readAttribute c inner = .ended .refused := by
  unfold readAttribute
  rw [findByte?_eq_none (forall_of_not_mem plain)]

theorem readMark_cons (mark : Char) (rest : List Char) :
    readMark c (mark :: rest) =
      if mark.utf8Size = 1 then
        if mark = '[' then readAttribute c rest
        else if mark = '#' ∨ mark = '.' then readName c mark rest
        else .ended .refused
      else .ended .split := by
  unfold readMark
  dsimp only
  rw [cutAt?_one]
  by_cases one : mark.utf8Size = 1
  · rw [if_pos one, if_pos one]
  · rw [if_neg one, if_neg one]

theorem readMark_bracket (cs : List Char) : readMark c ('[' :: cs) = readAttribute c cs := by
  rw [readMark_cons, if_pos (by decide), if_pos rfl]

theorem readMark_name {mark : Char} (h : mark = '#' ∨ mark = '.') (plain : IsName name)
    (stops : Stops rest) : readMark c (mark :: (name ++ rest)) =
      .on (if mark = '#' then Mark.add c (.id name) else Mark.add c (.className name)) rest := by
  have one : mark.utf8Size = 1 ∧ mark ≠ '[' := by
    rcases h with rfl | rfl <;> decide
  unfold readMark readName
  dsimp only
  rw [cutAt?_one, if_pos one.1]
  dsimp only
  rw [if_neg one.2, if_pos h, cutName?_append plain stops]
  rfl

theorem readMark_text {m : Mark} (plain : m.IsPlain) (stops : Stops rest) :
    readMark c (m.text ++ rest) = .on (m.add c) rest := by
  cases m with
  | id name => exact readMark_name (.inl rfl) plain stops
  | className name => exact readMark_name (.inr rfl) plain stops
  | test inner =>
    show readMark c ('[' :: ((inner ++ [']']) ++ rest)) = _
    rw [List.append_assoc, List.singleton_append, readMark_bracket]
    exact readAttribute_append plain rest

theorem startsMark_iff {x : Char} : startsMark x = true ↔ (x = '#' ∨ x = '.') ∨ x = '[' := by
  unfold startsMark
  simp

/-- What begins no mark ends the reading. -/
theorem readMark_of_not_startsMark {x : Char} (plain : startsMark x = false) (rest : List Char) :
    readMark c (x :: rest) = .ended (if x.utf8Size = 1 then .refused else .split) := by
  have others : ¬((x = '#' ∨ x = '.') ∨ x = '[') := by
    rw [← startsMark_iff, plain]
    exact Bool.false_ne_true
  rw [readMark_cons, if_neg (fun h => others (.inr h)), if_neg (fun h => others (.inl h))]
  split <;> rfl

theorem readMarks_of_on {c d : Compound} {cs : List Char} (h : readMark c cs = .on d rest) :
    readMarks c cs = readMarks d rest := by
  rw [readMarks]
  split
  · rename_i eq
    rw [h] at eq
    cases eq
    rfl
  · rename_i eq
    rw [h] at eq
    cases eq

theorem readMarks_of_ended {r : Reading} {cs : List Char} (h : readMark c cs = .ended r) :
    readMarks c cs = r := by
  rw [readMarks]
  split
  · rename_i eq
    rw [h] at eq
    cases eq
  · rename_i eq
    rw [h] at eq
    cases eq
    rfl

/-! ## Alternatives -/

/-- What an alternative holds behind its tag and its marks. -/
inductive Tail where
  /-- Nothing. -/
  | whole
  /-- An attribute that is not closed. -/
  | unclosed (inner : List Char)
  /-- A closed attribute and a character that begins no mark. -/
  | stray (inner : List Char) (x : Char) (rest : List Char)

namespace Tail

def text : Tail → List Char
  | whole => []
  | unclosed inner => '[' :: inner
  | stray inner x rest => '[' :: (inner ++ ']' :: x :: rest)

def IsPlain : Tail → Prop
  | whole => True
  | unclosed inner => ']' ∉ inner
  | stray inner x _ => ']' ∉ inner ∧ startsMark x = false

/-- What comes of the marks in front. -/
def reading (c : Compound) : Tail → Reading
  | whole => .compound c
  | unclosed _ => .refused
  | stray _ x _ => if x.utf8Size = 1 then .refused else .split

theorem stops_text (t : Tail) : Stops t.text := by
  intro c h
  cases t <;> cases h <;> rfl

theorem readMarks_text {t : Tail} (plain : t.IsPlain) : readMarks c t.text = t.reading c := by
  cases t with
  | whole => exact readMarks_of_ended rfl
  | unclosed inner =>
    refine readMarks_of_ended ?_
    rw [text, readMark_bracket]
    exact readAttribute_of_not_mem plain
  | stray inner x rest =>
    rw [text, readMarks_of_on ((readMark_bracket _).trans (readAttribute_append plain.1 _))]
    exact readMarks_of_ended (readMark_of_not_startsMark plain.2 rest)

end Tail

theorem stops_marks (marks : List Mark) (t : Tail) : Stops (marks.flatMap Mark.text ++ t.text) := by
  cases marks with
  | nil => exact t.stops_text
  | cons m marks =>
    rw [List.flatMap_cons, List.append_assoc]
    exact m.stops_text _

theorem readMarks_append {marks : List Mark} (plain : ∀ m ∈ marks, m.IsPlain) {t : Tail}
    (tail : t.IsPlain) (c : Compound) :
    readMarks c (marks.flatMap Mark.text ++ t.text) = t.reading (marks.foldl Mark.add c) := by
  induction marks generalizing c with
  | nil => exact t.readMarks_text tail
  | cons m marks ih =>
    obtain ⟨here, later⟩ := List.forall_mem_cons.mp plain
    rw [List.flatMap_cons, List.append_assoc, readMarks_of_on (readMark_text here (stops_marks _ t)),
      ih later, List.foldl_cons]

/-- Every text in front of which a mark may begin is made of marks and one tail. -/
theorem exists_marks (cs : List Char) (stops : Stops cs) :
    ∃ (marks : List Mark) (t : Tail), (∀ m ∈ marks, m.IsPlain) ∧ t.IsPlain ∧
      cs = marks.flatMap Mark.text ++ t.text := by
  induction size : cs.length using Nat.strong_induction_on generalizing cs with
  | _ n ih =>
    subst size
    -- one mark and what is found behind it
    have more {m : Mark} (plain : m.IsPlain) {rest : List Char} (eq : cs = m.text ++ rest)
        (stops : Stops rest) : ∃ (marks : List Mark) (t : Tail), (∀ m ∈ marks, m.IsPlain) ∧
          t.IsPlain ∧ cs = marks.flatMap Mark.text ++ t.text := by
      have shorter : rest.length < cs.length := by
        rw [eq, List.length_append]
        cases m <;> simp [Mark.text]
      obtain ⟨marks, t, all, tail, rfl⟩ := ih _ shorter rest stops rfl
      exact ⟨m :: marks, t, List.forall_mem_cons.mpr ⟨plain, all⟩, tail,
        by rw [eq, List.flatMap_cons, List.append_assoc]⟩
    cases cs with
    | nil => exact ⟨[], .whole, nofun, trivial, rfl⟩
    | cons x rest =>
      have named := isName_takeWhile rest
      have behind := stops_dropWhile rest
      have parts : rest.takeWhile (!startsMark ·) ++ rest.dropWhile (!startsMark ·) = rest :=
        List.takeWhile_append_dropWhile
      obtain (rfl | rfl) | rfl := startsMark_iff.mp (stops x rfl)
      · exact more (m := .id _) named (congrArg ('#' :: ·) parts.symm) behind
      · exact more (m := .className _) named (congrArg ('.' :: ·) parts.symm) behind
      · by_cases closed : ']' ∈ rest
        · obtain ⟨inner, after, rfl, plain⟩ := List.eq_append_cons_of_mem closed
          have text : '[' :: (inner ++ ']' :: after) = (Mark.test inner).text ++ after := by
            simp [Mark.text]
          cases after with
          | nil => exact more (m := .test inner) plain text (fun y head => by cases head)
          | cons y after =>
            by_cases mark : startsMark y = true
            · refine more (m := .test inner) plain text fun z head => ?_
              cases head
              exact mark
            · exact ⟨[], .stray inner y after, nofun, ⟨plain, by simpa using mark⟩, rfl⟩
        · exact ⟨[], .unclosed rest, nofun, closed, rfl⟩

/-- An alternative: a tag, marks and a tail. -/
structure Spells (a tag : List Char) (marks : List Mark) (t : Tail) : Prop where
  text : trimBlank a = tag ++ marks.flatMap Mark.text ++ t.text
  tag : IsName tag
  marks : ∀ m ∈ marks, m.IsPlain
  tail : t.IsPlain

theorem exists_spells (a : List Char) : ∃ tag marks t, Spells a tag marks t := by
  obtain ⟨marks, t, plain, tail, text⟩ := exists_marks _ (stops_dropWhile (trimBlank a))
  refine ⟨(trimBlank a).takeWhile (!startsMark ·), marks, t, ?_, isName_takeWhile _, plain, tail⟩
  rw [List.append_assoc, ← text, List.takeWhile_append_dropWhile]

/-- The compound of a tag. -/
def ofTag (tag : List Char) : Compound :=
  { tag := if tag = [] ∨ tag = ['*'] then none else some (String.ofList (tag.map Char.toLower)) }

theorem Spells.read_eq {a tag : List Char} {marks : List Mark} {t : Tail}
    (h : Spells a tag marks t) :
    read a =
      if trimBlank a = [] then .refused else t.reading (marks.foldl Mark.add (ofTag tag)) := by
  have name : cutName? (trimBlank a) = some (tag, marks.flatMap Mark.text ++ t.text) := by
    rw [h.text, List.append_assoc]
    exact cutName?_append h.tag (stops_marks marks t)
  unfold read
  split
  · rename_i empty
    rw [if_pos empty]
  · rename_i some
    rw [if_neg some, name]
    exact readMarks_append h.marks h.tail (ofTag tag)

/-- An attribute of the alternative is not closed. -/
def Unclosed (a : List Char) : Prop := ∃ tag marks inner, Spells a tag marks (.unclosed inner)

/-- Behind a closed attribute of the alternative stands a character that begins no mark. -/
def Strays (a : List Char) (x : Char) : Prop :=
  ∃ tag marks inner rest, Spells a tag marks (.stray inner x rest)

theorem Unclosed.read_eq {a : List Char} (h : Unclosed a) : read a = .refused := by
  obtain ⟨tag, marks, inner, spells⟩ := h
  rw [spells.read_eq]
  split <;> rfl

theorem Strays.read_eq {a : List Char} {x : Char} (h : Strays a x) :
    read a = if x.utf8Size = 1 then .refused else .split := by
  obtain ⟨tag, marks, inner, rest, spells⟩ := h
  rw [spells.read_eq, if_neg (by rw [spells.text]; simp [Tail.text])]
  rfl

/-- The reading of an alternative breaks off only inside a stray character of several bytes. -/
theorem read_eq_split_iff {a : List Char} :
    read a = .split ↔ ∃ x, Strays a x ∧ 1 < x.utf8Size := by
  constructor
  · intro h
    obtain ⟨tag, marks, t, spells⟩ := exists_spells a
    rw [spells.read_eq] at h
    split at h
    · cases h
    · cases t with
      | whole => cases h
      | unclosed inner => cases h
      | stray inner x rest =>
        have several : x.utf8Size ≠ 1 := fun one => by
          rw [Tail.reading, if_pos one] at h
          cases h
        have := x.utf8Size_pos
        exact ⟨x, ⟨tag, marks, inner, rest, spells⟩, by omega⟩
  · rintro ⟨x, strays, several⟩
    rw [strays.read_eq, if_neg (by omega)]

end Compound

/-! ## Selectors -/

theorem Search.split_eq_splitOnP (x : Char) (cs : List Char) :
    Search.split [x] cs = cs.splitOnP (· == x) := by
  unfold Search.split
  induction cs with
  | nil => rfl
  | cons c cs ih =>
    have starts : [x].isPrefixOf (c :: cs) = (c == x) := by
      simp [List.isPrefixOf, Bool.beq_comm]
    rw [Search.splitFrom, starts, List.splitOnP_cons_eq_if_modifyHead]
    split
    · exact congrArg _ ih
    · rw [ih]
      obtain ⟨first, more, eq⟩ :=
        List.exists_cons_of_ne_nil (List.splitOnP_ne_nil (· == x) cs)
      rw [eq]
      rfl

namespace Selector

open Compound

/-- An alternative is the only one of its own text. -/
theorem alternatives_of_mem {text : String} {a : List Char} (h : a ∈ alternatives text) :
    alternatives (String.ofList a) = [a] := by
  unfold alternatives at *
  rw [Search.split_eq_splitOnP] at *
  rw [String.toList_ofList]
  exact List.splitOnP_eq_singleton (Splitting.not_of_mem_splitOnP h)

theorem ofReadings_eq_none_iff {readings : List Reading} :
    ofReadings readings = none ↔ .split ∈ readings := by
  induction readings with
  | nil => simp [ofReadings]
  | cons r readings ih => cases r <;> simp [ofReadings, ih]

/-- Whether one of the readings matches. -/
theorem any_ofReadings {readings : List Reading} {compounds : List Compound}
    (h : ofReadings readings = some compounds) (d : Document) (e : NodeId) :
    compounds.any (·.isMatch d e) = readings.any fun
      | .compound c => c.isMatch d e
      | _ => false := by
  induction readings generalizing compounds with
  | nil =>
    cases h
    rfl
  | cons r readings ih =>
    cases r with
    | compound c =>
      obtain ⟨rest, eq, rfl⟩ := Option.map_eq_some_iff.mp h
      rw [List.any_cons, List.any_cons, ih eq]
    | refused => exact ih h
    | split => cases h

/-- Whether an alternative, as a selector of its own, matches an element. -/
def isMatchAlone (a : List Char) (d : Document) (e : NodeId) : Bool :=
  (ofText? (String.ofList a)).any (·.isMatch d e)

theorem isMatchAlone_eq {text : String} {a : List Char} (h : a ∈ alternatives text) (d : Document)
    (e : NodeId) : isMatchAlone a d e = match read a with
      | .compound c => c.isMatch d e
      | _ => false := by
  unfold isMatchAlone ofText?
  rw [alternatives_of_mem h, List.map_singleton]
  cases read a with
  | compound c => simp [ofReadings, Selector.isMatch]
  | refused => rfl
  | split => rfl

theorem ofText?_eq_none_iff {text : String} :
    ofText? text = none ↔ ∃ a ∈ alternatives text, ∃ x, Strays a x ∧ 1 < x.utf8Size := by
  unfold ofText?
  rw [Option.map_eq_none_iff, ofReadings_eq_none_iff, List.mem_map]
  simp only [read_eq_split_iff]

theorem isMatch_of_ofText? {text : String} {q : Selector} (h : ofText? text = some q)
    (d : Document) (e : NodeId) :
    q.isMatch d e = (alternatives text).any fun a => isMatchAlone a d e := by
  obtain ⟨compounds, readings, rfl⟩ := Option.map_eq_some_iff.mp h
  show compounds.any (·.isMatch d e) = _
  rw [any_ofReadings readings, List.any_map, Bool.eq_iff_iff, List.any_eq_true, List.any_eq_true]
  refine exists_congr fun a => and_congr_right fun mem => ?_
  rw [isMatchAlone_eq mem]
  rfl

theorem isMatchAlone_eq_false {text : String} {a : List Char} (h : a ∈ alternatives text)
    (bad : Unclosed a ∨ ∃ x, Strays a x) (d : Document) (e : NodeId) :
    isMatchAlone a d e = false := by
  rw [isMatchAlone_eq h]
  rcases bad with unclosed | ⟨x, strays⟩
  · rw [unclosed.read_eq]
  · rw [strays.read_eq]
    by_cases one : x.utf8Size = 1
    · rw [if_pos one]
    · rw [if_neg one]

end Selector

/-- A selector is read unless the character behind a closed attribute takes several bytes. What it
selects are the elements that one of its alternatives selects alone, and an alternative with an
attribute that is not closed, or a stray character behind one that is, selects none. -/
theorem Document.selectAll_alternatives (d : Document) (root : NodeId) (text : String) :
    (Selector.ofText? text = none ↔
      ∃ a ∈ Selector.alternatives text, ∃ x, Compound.Strays a x ∧ 1 < x.utf8Size) ∧
    (∀ q, Selector.ofText? text = some q → d.selectAll root q =
      (d.elementsUnder root).filter fun e =>
        (Selector.alternatives text).any fun a => Selector.isMatchAlone a d e) ∧
    ∀ a ∈ Selector.alternatives text, (Compound.Unclosed a ∨ ∃ x, Compound.Strays a x) →
      ∀ e, Selector.isMatchAlone a d e = false := by
  refine ⟨Selector.ofText?_eq_none_iff, fun q read => ?_, fun a mem bad e =>
    Selector.isMatchAlone_eq_false mem bad d e⟩
  unfold selectAll
  refine List.filter_congr fun e _ => ?_
  exact Selector.isMatch_of_ofText? read d e

/-- The first byte of `é` is cut off. -/
theorem Selector.not_read_accent : Selector.ofText? "[a]é" = none := by decide +kernel

end TsxPreview
