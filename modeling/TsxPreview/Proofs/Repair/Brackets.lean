import TsxPreview.Repair.Scan

/-!
Brackets that nest properly, as a property of the tokens alone: every bracket has a partner of the
same shape, and what stands between the two nests properly itself. Read from the left, such tokens
leave the depth as it was, and each of them stands at that depth or right inside one of the pairs.
-/

namespace TsxPreview

namespace Scan

variable {ks before inner after : List TokenKind} {k : TokenKind} {p : Punct} {d : Nat}

/-! ## Depths -/

/-- The depth that is noted before a token: a closer counts as outside. -/
def level (depth : Nat) (k : TokenKind) : Nat := if isCloser k then depth - 1 else depth

/-- The depth behind tokens. -/
def depthAfter (depth : Nat) (ks : List TokenKind) : Nat :=
  ks.foldl (fun depth k => if isOpener k then level depth k + 1 else level depth k) depth

theorem depthAfter_append (depth : Nat) (before after : List TokenKind) :
    depthAfter depth (before ++ after) = depthAfter (depthAfter depth before) after :=
  List.foldl_append

/-! ## Proper nesting -/

/-- Every bracket has its partner of the same shape, and what stands between two partners is nested
properly too. -/
inductive Balanced : List TokenKind → Prop where
  | nil : Balanced []
  | token {k : TokenKind} {ks : List TokenKind} (noOpener : isOpener k = false)
      (noCloser : isCloser k = false) (rest : Balanced ks) : Balanced (k :: ks)
  | pair {k : TokenKind} {p : Punct} {inner ks : List TokenKind} (closer : closerOf? k = some p)
      (inside : Balanced inner) (rest : Balanced ks) : Balanced (k :: inner ++ .punct p :: ks)

/-- Among these tokens, the bracket at `c` closes the one at `o`. -/
def Closes (ks : List TokenKind) (o c : Nat) : Prop :=
  ∃ before k inner p after, ks = before ++ k :: inner ++ .punct p :: after ∧
    closerOf? k = some p ∧ Balanced inner ∧ before.length = o ∧ o + inner.length + 1 = c

/-- Of the pairs strictly around the token at `i`, the one that `o` opens lies within all others. -/
def Encloses (ks : List TokenKind) (o i : Nat) : Prop :=
  ∃ c, Closes ks o c ∧ o < i ∧ i < c ∧
    ∀ o' c', Closes ks o' c' → o' < i → i < c' → o' ≤ o ∧ c ≤ c'

theorem brackets_of_closerOf? (h : closerOf? k = some p) :
    (isOpener k = true ∧ isCloser k = false) ∧
      isOpener (.punct p) = false ∧ isCloser (.punct p) = true := by
  unfold closerOf? at h
  split at h <;> cases h <;> exact ⟨⟨rfl, rfl⟩, rfl, rfl⟩

theorem closerOf?_eq_none_iff : closerOf? k = none ↔ isOpener k = false := by
  cases k with
  | punct p => cases p <;> decide
  | _ => exact ⟨fun _ => rfl, fun _ => rfl⟩

theorem level_of_isCloser (h : isCloser k = true) (d : Nat) : level d k = d - 1 := if_pos h

theorem level_of_not_isCloser (h : isCloser k = false) (d : Nat) : level d k = d :=
  if_neg (by rw [h]; exact Bool.false_ne_true)

theorem depthAfter_plain (noOpener : isOpener k = false) (noCloser : isCloser k = false) (d : Nat)
    (ks : List TokenKind) : depthAfter d (k :: ks) = depthAfter d ks := by
  simp [depthAfter, level_of_not_isCloser noCloser, noOpener]

theorem depthAfter_opener (closer : closerOf? k = some p) (d : Nat) (ks : List TokenKind) :
    depthAfter d (k :: ks) = depthAfter (d + 1) ks := by
  obtain ⟨⟨opens, notCloses⟩, -⟩ := brackets_of_closerOf? closer
  simp [depthAfter, level_of_not_isCloser notCloses, opens]

theorem depthAfter_closer (closer : closerOf? k = some p) (d : Nat) (ks : List TokenKind) :
    depthAfter (d + 1) (.punct p :: ks) = depthAfter d ks := by
  obtain ⟨-, notOpens, closes⟩ := brackets_of_closerOf? closer
  simp [depthAfter, level_of_isCloser closes, notOpens]

/-- A pair leaves the depth as it was, if what is inside does. -/
theorem depthAfter_pair (closer : closerOf? k = some p) (inside : depthAfter (d + 1) inner = d + 1)
    (ks : List TokenKind) :
    depthAfter d (k :: inner ++ .punct p :: ks) = depthAfter d ks := by
  rw [List.cons_append, depthAfter_opener closer, depthAfter_append, inside,
    depthAfter_closer closer]

theorem Balanced.depthAfter (h : Balanced ks) (d : Nat) : depthAfter d ks = d := by
  induction h generalizing d with
  | nil => rfl
  | token noOpener noCloser _ ih => rw [depthAfter_plain noOpener noCloser, ih]
  | pair closer _ _ ih ih' => rw [depthAfter_pair closer (ih (d + 1)), ih']

/-! ### Places in a pair -/

/-- Where a token stands that is one of a pair, stands inside it or behind it. -/
inductive PairSplit (k c : TokenKind) (inner rest : List TokenKind) :
    List TokenKind → TokenKind → List TokenKind → Prop where
  | opener : PairSplit k c inner rest [] k (inner ++ c :: rest)
  | inside {a b : List TokenKind} {x : TokenKind} (eq : inner = a ++ x :: b) :
      PairSplit k c inner rest (k :: a) x (b ++ c :: rest)
  | closer : PairSplit k c inner rest (k :: inner) c rest
  | behind {a b : List TokenKind} {x : TokenKind} (eq : rest = a ++ x :: b) :
      PairSplit k c inner rest (k :: inner ++ c :: a) x b

theorem pairSplit_of_eq {k c x : TokenKind} {inner rest : List TokenKind}
    (eq : k :: inner ++ c :: rest = before ++ x :: after) :
    PairSplit k c inner rest before x after := by
  cases before with
  | nil =>
    cases eq
    exact .opener
  | cons y before =>
    obtain ⟨rfl, tail⟩ := List.cons.inj eq
    rcases List.append_eq_append_iff.mp tail with ⟨e, rfl, more⟩ | ⟨e, rfl, more⟩
    · cases e with
      | nil =>
        cases more
        rw [List.append_nil]
        exact .closer
      | cons z e =>
        obtain ⟨rfl, rfl⟩ := List.cons.inj more
        exact .behind rfl
    · cases e with
      | nil =>
        cases more
        rw [List.append_nil]
        exact .closer
      | cons z e =>
        obtain ⟨rfl, rfl⟩ := List.cons.inj more
        exact .inside rfl

/-- The token between `before` and `after` stands right inside a pair. -/
inductive RightInside (d : Nat) : List TokenKind → TokenKind → List TokenKind → Prop where
  | intro {pre a b post : List TokenKind} {o k : TokenKind} {p : Punct}
      (closer : closerOf? o = some p) (inside : Balanced (a ++ k :: b))
      (le : d ≤ depthAfter d pre)
      (level : level (depthAfter d (pre ++ o :: a)) k = depthAfter d pre + 1) :
      RightInside d (pre ++ o :: a) k (b ++ .punct p :: post)

/-- That does not depend on what stands around. -/
theorem RightInside.extend {d e : Nat} (h : RightInside e before k after) {front : List TokenKind}
    (depth : depthAfter d front = e) (le : d ≤ e) (back : List TokenKind) :
    RightInside d (front ++ before) k (after ++ back) := by
  subst depth
  cases h with
  | @intro pre a b post o _ p closer inside le' level =>
    rw [← List.append_assoc, List.append_assoc b, List.cons_append]
    refine .intro closer inside ?_ ?_
    · rw [depthAfter_append]
      exact Nat.le_trans le le'
    · rw [List.append_assoc, depthAfter_append, level, depthAfter_append]

/-- What the token between `before` and `after` is: no bracket, or one with a partner. -/
inductive Role : List TokenKind → TokenKind → List TokenKind → Prop where
  | plain {before after : List TokenKind} {k : TokenKind} (noOpener : isOpener k = false)
      (noCloser : isCloser k = false) : Role before k after
  | opener {before inner post : List TokenKind} {k : TokenKind} {p : Punct}
      (closer : closerOf? k = some p) (inside : Balanced inner) :
      Role before k (inner ++ .punct p :: post)
  | closer {pre inner after : List TokenKind} {k : TokenKind} {p : Punct}
      (closer : closerOf? k = some p) (inside : Balanced inner) :
      Role (pre ++ k :: inner) (.punct p) after

theorem Role.extend (h : Role before k after) (front back : List TokenKind) :
    Role (front ++ before) k (after ++ back) := by
  cases h with
  | plain noOpener noCloser => exact .plain noOpener noCloser
  | opener closer inside =>
    rw [List.append_assoc, List.cons_append]
    exact .opener closer inside
  | closer closer inside =>
    rw [← List.append_assoc]
    exact .closer closer inside

namespace Balanced

/-- A token is at the depth of the whole, or right inside a pair. -/
theorem rightInside (h : Balanced ks) (eq : ks = before ++ k :: after) (d : Nat) :
    level (Scan.depthAfter d before) k = d ∨ RightInside d before k after := by
  induction h generalizing before after d with
  | nil => cases before <;> cases eq
  | @token x ks noOpener noCloser _ ih =>
    cases before with
    | nil =>
      obtain ⟨rfl, -⟩ := List.cons.inj eq
      exact .inl (level_of_not_isCloser noCloser d)
    | cons y before =>
      obtain ⟨rfl, tail⟩ := List.cons.inj eq
      have first : Scan.depthAfter d [x] = d := depthAfter_plain noOpener noCloser d []
      rcases ih tail d with same | inside
      · left
        rw [depthAfter_plain noOpener noCloser]
        exact same
      · right
        have := inside.extend first (Nat.le_refl d) []
        rwa [List.append_nil] at this
  | @pair x p inner rest closer inside _ ih ih' =>
    obtain ⟨⟨-, notCloses⟩, -, closes⟩ := brackets_of_closerOf? closer
    have first : Scan.depthAfter d [x] = d + 1 := depthAfter_opener closer d []
    cases pairSplit_of_eq eq with
    | opener => exact .inl (level_of_not_isCloser notCloses d)
    | @inside a b _ split =>
      right
      rcases ih split (d + 1) with same | deeper
      · -- this pair is the innermost one
        refine @RightInside.intro d [] a b rest x _ p closer (split ▸ inside) (Nat.le_refl d) ?_
        rw [List.nil_append, depthAfter_opener closer, same]
        rfl
      · exact deeper.extend first (Nat.le_succ d) _
    | closer =>
      left
      rw [depthAfter_opener closer, inside.depthAfter, level_of_isCloser closes,
        Nat.add_sub_cancel]
    | @behind a b _ split =>
      have pair : Scan.depthAfter d (x :: inner ++ [.punct p]) = d :=
        depthAfter_pair closer (inside.depthAfter (d + 1)) []
      rw [← List.singleton_append (l := a), ← List.append_assoc]
      rcases ih' split d with same | deeper
      · left
        rw [depthAfter_append, pair]
        exact same
      · right
        have := deeper.extend pair (Nat.le_refl d) []
        rwa [List.append_nil] at this

theorem le_level (h : Balanced ks) (eq : ks = before ++ k :: after) (d : Nat) :
    d ≤ level (Scan.depthAfter d before) k := by
  rcases h.rightInside eq d with same | inside
  · exact Nat.le_of_eq same.symm
  · cases inside with
    | intro _ _ le level =>
      rw [level]
      exact Nat.le_succ_of_le le

/-- Every bracket has its partner. -/
theorem role (h : Balanced ks) (eq : ks = before ++ k :: after) : Role before k after := by
  induction h generalizing before after with
  | nil => cases before <;> cases eq
  | @token x ks noOpener noCloser _ ih =>
    cases before with
    | nil =>
      obtain ⟨rfl, -⟩ := List.cons.inj eq
      exact .plain noOpener noCloser
    | cons y before =>
      obtain ⟨rfl, tail⟩ := List.cons.inj eq
      have := (ih tail).extend [x] []
      rwa [List.append_nil] at this
  | @pair x p inner rest closer inside _ ih ih' =>
    cases pairSplit_of_eq eq with
    | opener => exact .opener closer inside
    | inside split => exact (ih split).extend [x] _
    | closer => exact @Role.closer [] _ _ _ _ closer inside
    | @behind a b _ split =>
      have := (ih' split).extend (x :: inner ++ [.punct p]) []
      rwa [List.append_nil, List.append_assoc, List.singleton_append] at this

end Balanced

/-! ## Deciding -/

/-- Goes through tokens with the partners that are missing so far, innermost first. -/
def closesAll : List TokenKind → List Punct → Bool
  | [], missing => missing.isEmpty
  | k :: ks, missing =>
    match closerOf? k with
    | some p => closesAll ks (p :: missing)
    | none =>
      if isCloser k then missing.head?.any (k.isPunct ·) && closesAll ks missing.tail
      else closesAll ks missing

/-- The missing partners come one after another, all else between them is nested properly. -/
inductive Completes : List Punct → List TokenKind → Prop where
  | nil {ks : List TokenKind} (rest : Balanced ks) : Completes [] ks
  | cons {p : Punct} {missing : List Punct} {inner ks : List TokenKind} (inside : Balanced inner)
      (rest : Completes missing ks) : Completes (p :: missing) (inner ++ .punct p :: ks)

theorem Completes.token {missing : List Punct} (noOpener : isOpener k = false)
    (noCloser : isCloser k = false) (h : Completes missing ks) : Completes missing (k :: ks) := by
  cases h with
  | nil rest => exact .nil (.token noOpener noCloser rest)
  | cons inside rest => exact .cons (.token noOpener noCloser inside) rest

theorem Completes.pair {missing : List Punct} (closer : closerOf? k = some p)
    (inside : Balanced inner) (h : Completes missing ks) :
    Completes missing (k :: inner ++ .punct p :: ks) := by
  cases h with
  | nil rest => exact .nil (.pair closer inside rest)
  | @cons q missing inner' ks inside' rest =>
    rw [← List.cons_append, ← List.append_assoc]
    exact .cons (.pair closer inside inside') rest

theorem eq_of_isPunct (h : k.isPunct p = true) : k = .punct p := by
  unfold TokenKind.isPunct at h
  split at h
  · rw [eq_of_beq h]
  · cases h

theorem completes_of_closesAll {missing : List Punct} (h : closesAll ks missing = true) :
    Completes missing ks := by
  induction ks generalizing missing with
  | nil =>
    rw [List.isEmpty_iff.mp h]
    exact .nil .nil
  | cons k ks ih =>
    unfold closesAll at h
    split at h
    · rename_i p closer
      cases ih h with
      | cons inside rest => exact rest.pair closer inside
    · rename_i noOpener
      split at h
      · rw [Bool.and_eq_true] at h
        cases missing with
        | nil => cases h.1
        | cons p missing =>
          rw [eq_of_isPunct h.1]
          exact .cons .nil (ih h.2)
      · rename_i noCloser
        exact (ih h).token (closerOf?_eq_none_iff.mp noOpener) (Bool.eq_false_iff.mpr noCloser)

/-- What is nested properly leaves the missing partners as they are. -/
theorem closesAll_append (h : Balanced ks) (rest : List TokenKind) (missing : List Punct) :
    closesAll (ks ++ rest) missing = closesAll rest missing := by
  induction h generalizing rest missing with
  | nil => rfl
  | @token k ks noOpener noCloser _ ih =>
    rw [List.cons_append, closesAll, closerOf?_eq_none_iff.mpr noOpener, noCloser]
    exact ih rest missing
  | @pair k p inner ks closer _ _ ih ih' =>
    obtain ⟨-, notOpens, closes⟩ := brackets_of_closerOf? closer
    rw [List.append_assoc, List.cons_append, List.cons_append, closesAll, closer]
    dsimp only
    rw [ih, closesAll, closerOf?_eq_none_iff.mpr notOpens]
    dsimp only
    rw [if_pos closes, List.tail_cons, ih']
    simp [TokenKind.isPunct]

theorem balanced_iff : Balanced ks ↔ closesAll ks [] = true := by
  constructor
  · intro h
    have all := closesAll_append h [] []
    rw [List.append_nil] at all
    exact all
  · intro h
    cases completes_of_closesAll h with
    | nil rest => exact rest

instance (ks : List TokenKind) : Decidable (Balanced ks) := decidable_of_iff _ balanced_iff.symm

example : ¬ Balanced [.punct .lParen, .punct .lBracket, .punct .rParen, .punct .rBracket] := by
  decide

end Scan

end TsxPreview
