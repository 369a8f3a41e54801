import Mathlib.Data.List.Induction
import Mathlib.Data.List.Infix
import Mathlib.Data.Nat.Digits.Defs
import TsxPreview.Text.Markup

/-!
Character references. Decoding is one pass from the left that replaces the references it knows and
copies all else, so that a text without references stays as it is and nothing is decoded twice. A
number may have a plus sign before its digits: without such a reference in it, a text is decoded as
if there were no signs.
-/

namespace TsxPreview

/-! ## Numbers in a radix -/

/-- What digits stand for, zero for anything else. -/
def digitValue (c : Char) : Nat := (digitValue? c).getD 0

/-- The number that a list of digits stands for, its last digit counting least. -/
def numeral (radix : Nat) (digits : List Char) : Nat :=
  Nat.ofDigits radix (digits.reverse.map digitValue)

theorem numeral_concat (radix : Nat) (digits : List Char) (c : Char) :
    numeral radix (digits ++ [c]) = numeral radix digits * radix + digitValue c := by
  simp [numeral, Nat.ofDigits_cons, Nat.add_comm, Nat.mul_comm]

/-- At least one digit, and the number they stand for. -/
structure Spells (isDigit : Char → Bool) (radix : Nat) (digits : List Char) (n : Nat) : Prop where
  notEmpty : digits ≠ []
  digit : ∀ c ∈ digits, isDigit c = true
  value : numeral radix digits = n

theorem any_digitValue?_decimal (c : Char) : (digitValue? c).any (· < 10) = isDecimalDigit c := by
  have code : c.toNat = c.val.toNat := rfl
  rw [Bool.eq_iff_iff]
  simp only [digitValue?, isDecimalDigit, Char.le_def, UInt32.le_iff_toNat_le, Char.reduceVal,
    UInt32.reduceToNat, code]
  split_ifs <;> simp <;> omega

theorem any_digitValue?_hex (c : Char) : (digitValue? c).any (· < 16) = isHexDigit c := by
  have code : c.toNat = c.val.toNat := rfl
  rw [Bool.eq_iff_iff]
  simp only [digitValue?, isHexDigit, isDecimalDigit, Char.le_def, UInt32.le_iff_toNat_le,
    Char.reduceVal, UInt32.reduceToNat, code]
  split_ifs <;> simp <;> omega

/-- Digits are read from the left, each of them after all before it. -/
theorem readRadix_concat (radix : Nat) (digits : List Char) (c : Char) :
    readRadix radix (digits ++ [c])
      = (if digits = [] then some 0 else readRadix radix digits).bind fun n =>
          ((digitValue? c).filter (· < radix)).map (n * radix + ·) := by
  have last (acc : Option Nat) : (do
      let n ← acc
      let d ← digitValue? c
      if d < radix then some (n * radix + d) else none)
      = acc.bind fun n => ((digitValue? c).filter (· < radix)).map (n * radix + ·) := by
    cases acc with
    | none => rfl
    | some n =>
      cases digitValue? c with
      | none => rfl
      | some d => by_cases small : d < radix <;> simp [Option.filter, small]
  unfold readRadix
  simp only [List.foldl_append, List.foldl_cons, List.foldl_nil, last]
  cases digits <;> simp

theorem readRadix_eq_some_iff {radix : Nat} {digits : List Char} {n : Nat} :
    readRadix radix digits = some n ↔
      Spells (fun c => (digitValue? c).any (· < radix)) radix digits n := by
  induction digits using List.reverseRecOn generalizing n with
  | nil => exact iff_of_false nofun fun h => h.notEmpty rfl
  | append_singleton digits c ih =>
    have front (m : Nat) : (if digits = [] then some 0 else readRadix radix digits) = some m ↔
        (∀ d ∈ digits, (digitValue? d).any (· < radix) = true) ∧ numeral radix digits = m := by
      split
      · next none =>
        subst none
        simp [numeral]
      · next some => exact ih.trans ⟨fun h => ⟨h.digit, h.value⟩, fun h => ⟨some, h.1, h.2⟩⟩
    have last (d : Nat) : (digitValue? c).filter (· < radix) = some d ↔
        (digitValue? c).any (· < radix) = true ∧ digitValue c = d := by
      cases found : digitValue? c <;> simp [digitValue, found, Option.filter, and_comm]
    simp only [readRadix_concat, Option.bind_eq_some_iff, Option.map_eq_some_iff, front, last]
    constructor
    · rintro ⟨_, ⟨digit, rfl⟩, _, ⟨final, rfl⟩, rfl⟩
      refine ⟨by simp, fun d mem => ?_, numeral_concat radix digits c⟩
      rcases List.mem_append.1 mem with mem | mem
      · exact digit d mem
      · exact List.mem_singleton.1 mem ▸ final
    · rintro ⟨-, digit, value⟩
      refine ⟨_, ⟨fun d mem => digit d (by simp [mem]), rfl⟩, _, ⟨digit c (by simp), rfl⟩, ?_⟩
      rw [← numeral_concat, value]

theorem readRadix_ten_iff {digits : List Char} {n : Nat} :
    readRadix 10 digits = some n ↔ Spells isDecimalDigit 10 digits n := by
  rw [readRadix_eq_some_iff, funext any_digitValue?_decimal]

theorem readRadix_sixteen_iff {digits : List Char} {n : Nat} :
    readRadix 16 digits = some n ↔ Spells isHexDigit 16 digits n := by
  rw [readRadix_eq_some_iff, funext any_digitValue?_hex]

namespace CharacterReference

/-! ## References -/

/-- What a number may have in front of its digits. -/
def sign (signed : Bool) : List Char := if signed then ['+'] else []

/-- What stands between `&` and `;`, and the character it denotes. The mark of a hexadecimal number
is written in either case. -/
inductive Denotes : (signed : Bool) → List Char → Char → Prop where
  | name {name : String} {c : Char} (known : (name, c) ∈ named) : Denotes false name.toList c
  | decimal {signed : Bool} {digits : List Char} {c : Char}
      (spells : Spells isDecimalDigit 10 digits c.toNat) :
      Denotes signed ('#' :: (sign signed ++ digits)) c
  | hexadecimal {signed : Bool} {mark : Char} {digits : List Char} {c : Char}
      (either : mark = 'x' ∨ mark = 'X') (spells : Spells isHexDigit 16 digits c.toNat) :
      Denotes signed ('#' :: mark :: (sign signed ++ digits)) c

/-- A reference as it is written. Its semicolon comes at most ten bytes after its ampersand. -/
inductive Refers (signed : Bool) : List Char → Char → Prop where
  | mk {body : List Char} {c : Char} (denotes : Denotes signed body c)
      (near : byteLength ('&' :: body) ≤ 10) : Refers signed ('&' :: (body ++ [';'])) c

/-- A reference with or without a sign. -/
def Known (spelling : List Char) (c : Char) : Prop := ∃ signed, Refers signed spelling c

/-- A pass over a text from the left. A reference is replaced by what it refers to, and the pass
goes on behind it; a character at which no reference starts is copied. -/
inductive Replaced (refers : List Char → Char → Prop) : List Char → List Char → Prop where
  | nil : Replaced refers [] []
  | reference {spelling rest out : List Char} {c : Char} (refer : refers spelling c)
      (behind : Replaced refers rest out) : Replaced refers (spelling ++ rest) (c :: out)
  | copy {c : Char} {rest out : List Char}
      (none : ∀ spelling d, refers spelling d → ¬ spelling <+: c :: rest)
      (behind : Replaced refers rest out) : Replaced refers (c :: rest) (c :: out)

theorem scalar?_eq_some_iff {n : Nat} {c : Char} : scalar? n = some c ↔ n = c.toNat := by
  unfold scalar?
  split
  · next valid =>
    rw [Option.some.injEq]
    constructor
    · rintro rfl
      rw [Char.ofNat, dif_pos valid]
      rfl
    · rintro rfl
      exact Char.ofNat_toNat c
  · next invalid =>
    refine iff_of_false nofun ?_
    rintro rfl
    exact invalid c.valid

theorem readCode_eq_some_iff {isDigit : Char → Bool} {radix : Nat} {cs : List Char} {n : Nat}
    (reads : ∀ digits, readRadix radix digits = some n ↔ Spells isDigit radix digits n)
    (noDigit : isDigit '+' = false) :
    readCode radix cs = some n ↔
      ∃ signed digits, cs = sign signed ++ digits ∧ Spells isDigit radix digits n := by
  unfold readCode
  split
  · next digits =>
    rw [reads]
    constructor
    · exact fun spells => ⟨true, digits, rfl, spells⟩
    · rintro ⟨signed, others, same, spells⟩
      cases signed with
      | true => exact (List.cons.inj same).2 ▸ spells
      | false =>
        have first : '+' ∈ others := by
          rw [show others = '+' :: digits from same.symm]
          exact List.mem_cons_self
        exact absurd (spells.digit '+' first) (by simp [noDigit])
  · next unsigned =>
    rw [reads]
    constructor
    · exact fun spells => ⟨false, cs, rfl, spells⟩
    · rintro ⟨signed, digits, rfl, spells⟩
      cases signed with
      | true => exact absurd rfl (unsigned digits)
      | false => exact spells

theorem readScalar_iff {isDigit : Char → Bool} {radix : Nat} {cs : List Char} {c : Char}
    (reads : ∀ digits, readRadix radix digits = some c.toNat ↔ Spells isDigit radix digits c.toNat)
    (noDigit : isDigit '+' = false) :
    (readCode radix cs).bind scalar? = some c ↔
      ∃ signed digits, cs = sign signed ++ digits ∧ Spells isDigit radix digits c.toNat := by
  rw [← readCode_eq_some_iff reads noDigit, Option.bind_eq_some_iff]
  simp [scalar?_eq_some_iff]

theorem eq_plus_or_isDigit {isDigit : Char → Bool} {signed : Bool} {radix n : Nat}
    {digits : List Char} (spells : Spells isDigit radix digits n) :
    ∀ c ∈ sign signed ++ digits, c = '+' ∨ isDigit c = true := by
  intro c mem
  rcases List.mem_append.1 mem with mem | mem
  · cases signed with
    | true => exact .inl (List.mem_singleton.1 mem)
    | false => cases mem
  · exact .inr (spells.digit c mem)

theorem decode?_name : ∀ known ∈ named, decode? known.1.toList = some known.2 := by
  decide +kernel

theorem decode?_decimal {cs : List Char} (unmarked : ∀ mark ∈ cs.head?, mark ≠ 'x' ∧ mark ≠ 'X') :
    decode? ('#' :: cs) = (readCode 10 cs).bind scalar? := by
  unfold decode?
  split <;> simp_all

theorem decode?_eq_some_iff {body : List Char} {c : Char} :
    decode? body = some c ↔ ∃ signed, Denotes signed body c := by
  constructor
  · intro h
    unfold decode? at h
    split at h
    · next digits =>
      obtain ⟨signed, digits, rfl, spells⟩ :=
        (readScalar_iff (fun _ => readRadix_sixteen_iff) (by decide)).1 h
      exact ⟨signed, .hexadecimal (.inl rfl) spells⟩
    · next digits =>
      obtain ⟨signed, digits, rfl, spells⟩ :=
        (readScalar_iff (fun _ => readRadix_sixteen_iff) (by decide)).1 h
      exact ⟨signed, .hexadecimal (.inr rfl) spells⟩
    · next digits _ _ =>
      obtain ⟨signed, digits, rfl, spells⟩ :=
        (readScalar_iff (fun _ => readRadix_ten_iff) (by decide)).1 h
      exact ⟨signed, .decimal spells⟩
    · obtain ⟨before, after, split, -⟩ := List.lookup_eq_some_iff.1 h
      have known : (String.ofList body, c) ∈ named := by simp [split]
      exact ⟨false, by simpa using Denotes.name known⟩
  · rintro ⟨signed, denotes⟩
    cases denotes with
    | name known => exact decode?_name _ known
    | @decimal _ digits _ spells =>
      rw [decode?_decimal, readScalar_iff (fun _ => readRadix_ten_iff) (by decide)]
      · exact ⟨signed, digits, rfl, spells⟩
      · intro mark head
        rcases eq_plus_or_isDigit spells mark (List.mem_of_mem_head? head) with rfl | digit
        · decide
        · constructor <;> rintro rfl <;> exact absurd digit (by decide)
    | @hexadecimal _ mark digits _ either spells =>
      have reads := (readScalar_iff (fun _ => readRadix_sixteen_iff) (by decide)).2
        ⟨signed, digits, rfl, spells⟩
      rcases either with rfl | rfl
      · exact reads
      · exact reads

/-- No character that delimits a reference, and no space. -/
def isInner (c : Char) : Bool := c != '&' && c != ';' && c != ' '

theorem isInner_of_isHexDigit {c : Char} (h : isHexDigit c = true) : isInner c = true := by
  simp only [isInner, Bool.and_eq_true, bne_iff_ne]
  refine ⟨⟨?_, ?_⟩, ?_⟩ <;> rintro rfl <;> exact absurd h (by decide)

theorem Denotes.inner {signed : Bool} {body : List Char} {c : Char} (h : Denotes signed body c) :
    ∀ d ∈ body, isInner d = true := by
  have number {isDigit : Char → Bool} (hex : ∀ d, isDigit d = true → isHexDigit d = true)
      {radix n : Nat} {digits : List Char} (spells : Spells isDigit radix digits n) :
      ∀ d ∈ sign signed ++ digits, isInner d = true := by
    intro d mem
    rcases eq_plus_or_isDigit spells d mem with rfl | digit
    · decide
    · exact isInner_of_isHexDigit (hex d digit)
  cases h with
  | name known =>
    have all : ∀ known ∈ named, known.1.toList.all isInner = true := by decide +kernel
    exact List.all_eq_true.1 (all _ known)
  | decimal spells =>
    have hex : ∀ d, isDecimalDigit d = true → isHexDigit d = true := by
      simp +contextual [isHexDigit]
    exact List.forall_mem_cons.2 ⟨by decide, number hex spells⟩
  | hexadecimal either spells =>
    refine List.forall_mem_cons.2 ⟨by decide, List.forall_mem_cons.2 ⟨?_, number (by simp) spells⟩⟩
    rcases either with rfl | rfl <;> decide

theorem byteLength_ampersand (body : List Char) :
    byteLength ('&' :: body) = byteLength body + 1 := by
  rw [byteLength, Nat.add_comm]
  rfl

/-- What is taken behind an ampersand is a reference, and the text behind it. -/
theorem take?_eq_some_iff {cs rest : List Char} {c : Char} :
    take? cs = some (c, rest) ↔ ∃ spelling, Known spelling c ∧ '&' :: cs = spelling ++ rest := by
  constructor
  · intro h
    unfold take? at h
    dsimp only at h
    split at h
    · next tail dropped =>
      split at h
      · next near =>
        obtain ⟨_, denoted, same⟩ := Option.map_eq_some_iff.1 h
        cases same
        obtain ⟨signed, denotes⟩ := decode?_eq_some_iff.1 denoted
        refine ⟨_, ⟨signed, .mk denotes (byteLength_ampersand _ ▸ near)⟩, ?_⟩
        rw [List.cons_append, List.append_assoc, List.singleton_append, ← dropped,
          List.takeWhile_append_dropWhile]
      · cases h
    · cases h
  · rintro ⟨_, ⟨signed, @⟨body, _, denotes, near⟩⟩, whole⟩
    have split : cs = body ++ ';' :: rest := by simpa using whole
    have inner : ∀ d ∈ body, (d != ';') = true := by
      intro d mem
      rw [bne_iff_ne]
      rintro rfl
      exact absurd (denotes.inner _ mem) (by decide)
    have taken : cs.takeWhile (· != ';') = body := by
      rw [split, List.takeWhile_append_of_pos inner]
      simp
    have dropped : cs.dropWhile (· != ';') = ';' :: rest := by
      rw [split, List.dropWhile_append_of_pos inner]
      simp
    have close : byteLength body + 1 ≤ reach := byteLength_ampersand body ▸ near
    simp only [take?, taken, dropped, if_pos close, decode?_eq_some_iff.2 ⟨signed, denotes⟩,
      Option.map_some]

variable {cs rest out : List Char} {c : Char}

theorem Refers.ampersand {signed : Bool} {spelling : List Char} (h : Refers signed spelling c) :
    ∃ body, spelling = '&' :: body ∧ '&' ∉ body ∧ body ≠ [] := by
  obtain @⟨body, _, denotes, -⟩ := h
  refine ⟨body ++ [';'], rfl, fun mem => ?_, by simp⟩
  rcases List.mem_append.1 mem with mem | mem
  · exact absurd (denotes.inner _ mem) (by decide)
  · exact absurd (List.mem_singleton.1 mem) (by decide)

/-- Two references at one place are the same. -/
theorem Known.unique {one other behind after : List Char} {d : Char} (h : Known one c)
    (h' : Known other d) (same : one ++ behind = other ++ after) : one = other ∧ c = d := by
  obtain ⟨body, rfl, -⟩ := h.choose_spec.ampersand
  have taken : take? (body ++ behind) = some (c, behind) := take?_eq_some_iff.2 ⟨_, h, rfl⟩
  have takenAlso : take? (body ++ behind) = some (d, after) := take?_eq_some_iff.2 ⟨_, h', same⟩
  cases taken.symm.trans takenAlso
  exact ⟨List.append_cancel_right same, rfl⟩

theorem Refers.mem {signed : Bool} {spelling : List Char} (h : Refers signed spelling c) :
    ∀ d ∈ spelling, d = '&' ∨ d = ';' ∨ isInner d = true := by
  obtain @⟨body, _, denotes, -⟩ := h
  have inner := denotes.inner
  simp only [List.mem_cons, List.mem_append]
  grind

/-! ## The pass -/

theorem decodeAll_reference {spelling : List Char} (known : Known spelling c) :
    decodeAll (spelling ++ rest) = c :: decodeAll rest := by
  obtain ⟨body, rfl, -⟩ := known.choose_spec.ampersand
  have taken : take? (body ++ rest) = some (c, rest) := take?_eq_some_iff.2 ⟨_, known, rfl⟩
  rw [List.cons_append, decodeAll, if_pos rfl]
  split
  · next decoded after found =>
    rw [taken] at found
    cases found
    rfl
  · next missing =>
    rw [taken] at missing
    cases missing

theorem decodeAll_copy (none : ∀ spelling d, Known spelling d → ¬ spelling <+: c :: rest) :
    decodeAll (c :: rest) = c :: decodeAll rest := by
  rw [decodeAll]
  split
  · next ampersand =>
    subst ampersand
    split
    · next decoded after found =>
      obtain ⟨spelling, known, whole⟩ := take?_eq_some_iff.1 found
      exact absurd ⟨after, whole.symm⟩ (none spelling decoded known)
    · rfl
  · rfl

theorem replaced_decodeAll (cs : List Char) : Replaced Known cs (decodeAll cs) := by
  fun_induction decodeAll cs with
  | case1 => exact .nil
  | case2 rest c after found ih =>
    obtain ⟨spelling, known, whole⟩ := take?_eq_some_iff.1 found
    rw [whole]
    exact .reference known ih
  | case3 rest missing ih =>
    refine .copy (fun spelling d known ⟨after, whole⟩ => ?_) ih
    rw [take?_eq_some_iff.2 ⟨spelling, known, whole.symm⟩] at missing
    cases missing
  | case4 c rest other ih =>
    refine .copy (fun spelling d ⟨signed, refers⟩ start => other ?_) ih
    obtain ⟨body, rfl, -⟩ := refers.ampersand
    exact (List.cons_prefix_cons.1 start).1.symm

/-- The pass has one outcome, which is what decoding gives. -/
theorem replaced_known_iff : Replaced Known cs out ↔ out = decodeAll cs := by
  constructor
  · intro h
    induction h with
    | nil => simp [decodeAll]
    | reference known _ ih => rw [decodeAll_reference known, ih]
    | copy none _ ih => rw [decodeAll_copy none, ih]
  · rintro rfl
    exact replaced_decodeAll cs

/-- Text without ampersands is copied. -/
theorem decodeAll_append {front : List Char} (plain : '&' ∉ front) :
    decodeAll (front ++ rest) = front ++ decodeAll rest := by
  induction front with
  | nil => rfl
  | cons c front ih =>
    rw [List.mem_cons, not_or] at plain
    rw [List.cons_append, decodeAll, if_neg (Ne.symm plain.1), ih plain.2, List.cons_append]

/-! ## Signs -/

variable {spelling : List Char}

theorem plus_mem_sign {isDigit : Char → Bool} {radix n : Nat} {digits : List Char} (signed : Bool)
    (spells : Spells isDigit radix digits n) (noDigit : isDigit '+' = false) :
    '+' ∈ sign signed ++ digits ↔ signed = true := by
  have absent : '+' ∉ digits := fun mem => absurd (spells.digit '+' mem) (by simp [noDigit])
  cases signed <;> simp [sign, absent]

theorem Refers.plus_mem_iff {signed : Bool} (h : Refers signed spelling c) :
    '+' ∈ spelling ↔ signed = true := by
  obtain @⟨body, _, denotes, -⟩ := h
  have inside : '+' ∈ '&' :: (body ++ [';']) ↔ '+' ∈ body := by simp
  rw [inside]
  cases denotes with
  | name known =>
    have absent : ∀ known ∈ named, '+' ∉ known.1.toList := by decide +kernel
    simpa using absent _ known
  | decimal spells =>
    rw [← plus_mem_sign signed spells (by decide)]
    simp
  | hexadecimal either spells =>
    rw [← plus_mem_sign signed spells (by decide)]
    rcases either with rfl | rfl <;> simp

/-- A reference that starts within a text without ampersands, or behind it, starts behind it. -/
theorem Refers.infix_of_append {signed : Bool} {front : List Char} (h : Refers signed spelling c)
    (plain : '&' ∉ front) (found : spelling <:+: front ++ rest) : spelling <:+: rest := by
  obtain ⟨body, rfl, -⟩ := h.ampersand
  induction front with
  | nil => exact found
  | cons d front ih =>
    rw [List.mem_cons, not_or] at plain
    rcases List.infix_cons_iff.1 found with start | found
    · exact absurd (List.cons_prefix_cons.1 start).1 plain.1
    · exact ih plain.2 found

/-- A pass that knows no signs leaves at least as much text, and just as much only where there are
no signs. -/
theorem length_decodeAll_le (h : Replaced (Refers false) cs out) :
    (decodeAll cs).length ≤ out.length ∧ ((decodeAll cs).length = out.length →
      ∀ spelling c, Refers true spelling c → ¬ spelling <:+: cs) := by
  induction h with
  | nil =>
    refine ⟨by simp [decodeAll], fun _ spelling c refers found => ?_⟩
    obtain ⟨body, rfl, -⟩ := refers.ampersand
    exact absurd (List.infix_nil.1 found) (List.cons_ne_nil _ _)
  | @reference spelling rest out c refers behind ih =>
    obtain ⟨body, rfl, plain, -⟩ := refers.ampersand
    simp only [decodeAll_reference ⟨false, refers⟩, List.length_cons, Nat.add_le_add_iff_right,
      Nat.add_right_cancel_iff]
    refine ⟨ih.1, fun same signed d refersSigned found => ?_⟩
    rcases List.infix_cons_iff.1 found with start | found
    · obtain ⟨after, whole⟩ := start
      obtain ⟨rfl, -⟩ := Known.unique ⟨true, refersSigned⟩ ⟨false, refers⟩ whole
      exact absurd (refers.plus_mem_iff.1 (refersSigned.plus_mem_iff.2 rfl)) (by decide)
    · exact ih.2 same signed d refersSigned (refersSigned.infix_of_append plain found)
  | @copy c rest out none behind ih =>
    by_cases first : ∃ spelling d, Known spelling d ∧ spelling <+: c :: rest
    · obtain ⟨spelling, d, ⟨signed, refers⟩, after, whole⟩ := first
      obtain ⟨body, rfl, plain, some⟩ := refers.ampersand
      have split : rest = body ++ after := (List.cons.inj whole).2.symm
      have more : (decodeAll rest).length = body.length + (decodeAll after).length := by
        rw [split, decodeAll_append plain, List.length_append]
      have := List.length_pos_of_ne_nil some
      rw [← whole, decodeAll_reference ⟨signed, refers⟩]
      simp only [List.length_cons]
      have := ih.1
      exact ⟨by omega, fun same => by omega⟩
    · have nothing : ∀ spelling d, Known spelling d → ¬ spelling <+: c :: rest :=
        fun spelling d known start => first ⟨spelling, d, known, start⟩
      simp only [decodeAll_copy nothing, List.length_cons, Nat.add_le_add_iff_right,
        Nat.add_right_cancel_iff]
      refine ⟨ih.1, fun same spelling d refers found => ?_⟩
      rcases List.infix_cons_iff.1 found with start | found
      · exact nothing spelling d ⟨true, refers⟩ start
      · exact ih.2 same spelling d refers found

/-- Without signs in a text, both passes are the same. -/
theorem replaced_signless_iff (none : ∀ spelling c, Refers true spelling c → ¬ spelling <:+: cs) :
    Replaced (Refers false) cs out ↔ Replaced Known cs out := by
  constructor <;> intro h
  · induction h with
    | nil => exact .nil
    | @reference spelling rest out c refers behind ih =>
      refine .reference ⟨false, refers⟩ (ih fun other d signed found => none other d signed ?_)
      exact found.trans (List.suffix_append spelling rest).isInfix
    | @copy c rest out nothing behind ih =>
      refine .copy ?_ (ih fun other d signed found => none other d signed (List.infix_cons found))
      rintro spelling d ⟨signed, refers⟩ start
      cases signed with
      | true => exact none spelling d refers start.isInfix
      | false => exact nothing spelling d refers start
  · induction h with
    | nil => exact .nil
    | @reference spelling rest out c known behind ih =>
      obtain ⟨signed, refers⟩ := known
      cases signed with
      | true => exact absurd (List.prefix_append spelling rest).isInfix (none spelling c refers)
      | false =>
        refine .reference refers (ih fun other d signed found => none other d signed ?_)
        exact found.trans (List.suffix_append spelling rest).isInfix
    | @copy c rest out nothing behind ih =>
      refine .copy (fun spelling d refers => nothing spelling d ⟨false, refers⟩) ?_
      exact ih fun other d signed found => none other d signed (List.infix_cons found)

end CharacterReference

open CharacterReference

/-- Decoding replaces exactly the references, in one pass from the left. It is the pass that knows
no signs for exactly the texts without a reference to a number with a sign. -/
theorem decodeEntities_replaced (text : String) :
    (∀ out, Replaced Known text.toList out ↔ out = (decodeEntities text).toList) ∧
    ((∀ out, Replaced (Refers false) text.toList out ↔ out = (decodeEntities text).toList) ↔
      ∀ spelling c, Refers true spelling c → ¬ spelling <:+: text.toList) := by
  rw [decodeEntities, String.toList_ofList]
  refine ⟨fun out => replaced_known_iff, fun pass => ?_, fun none out => ?_⟩
  · exact (length_decodeAll_le ((pass _).2 rfl)).2 rfl
  · rw [replaced_signless_iff none, replaced_known_iff]

/-- A plus sign before the digits is read over, though no number is written so in a reference. -/
theorem decodeEntities_plus : decodeEntities "&#+65;" = "A" ∧
    ¬ Replaced (Refers false) "&#+65;".toList (decodeEntities "&#+65;").toList := by
  have digits : Spells isDecimalDigit 10 ['6', '5'] 'A'.toNat :=
    ⟨by simp, List.all_eq_true.1 (by decide), by decide⟩
  have signed : Refers true "&#+65;".toList 'A' := .mk (.decimal digits) (by decide)
  refine ⟨by decide +kernel, fun pass => ?_⟩
  simp only [decodeEntities, String.toList_ofList] at pass
  exact (length_decodeAll_le pass).2 rfl _ _ signed List.infix_rfl

end TsxPreview
