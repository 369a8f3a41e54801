import TsxPreview.Proofs.Lexer.Reading
import TsxPreview.Repair.Scan

/-!
Places in a text where it can be cut, and the lines around them.
-/

namespace TsxPreview

/-- A byte offset at which a character starts or the text ends. -/
def Boundary (text : List Char) (n : Nat) : Prop :=
  ∃ pre post, text = pre ++ post ∧ byteLength pre = n

theorem takeBytes_append (pre post : List Char) (n : Nat) :
    takeBytes (byteLength pre + n) (pre ++ post) = pre ++ takeBytes n post := by
  induction pre with
  | nil => rw [byteLength, Nat.zero_add, List.nil_append, List.nil_append]
  | cons c rest ih =>
    have size := c.utf8Size_pos
    rw [List.cons_append, takeBytes, if_neg (by rw [byteLength]; omega), List.cons_append, ← ih,
      byteLength]
    congr 2
    omega

theorem dropBytes_append (pre post : List Char) (n : Nat) :
    dropBytes (byteLength pre + n) (pre ++ post) = dropBytes n post := by
  induction pre with
  | nil => rw [byteLength, Nat.zero_add, List.nil_append]
  | cons c rest ih =>
    have size := c.utf8Size_pos
    rw [List.cons_append, dropBytes, if_neg (by rw [byteLength]; omega), ← ih, byteLength]
    congr 1
    omega

theorem takeBytes_zero (cs : List Char) : takeBytes 0 cs = [] := by
  cases cs <;> rfl

theorem dropBytes_zero (cs : List Char) : dropBytes 0 cs = cs := by
  cases cs <;> rfl

theorem takeBytes_byteLength (pre post : List Char) :
    takeBytes (byteLength pre) (pre ++ post) = pre := by
  have := takeBytes_append pre post 0
  rw [takeBytes_zero, List.append_nil] at this
  exact this

theorem dropBytes_byteLength (pre post : List Char) :
    dropBytes (byteLength pre) (pre ++ post) = post := by
  have := dropBytes_append pre post 0
  rw [dropBytes_zero] at this
  exact this

namespace Boundary

variable {text : List Char} {a b : Nat}

theorem zero (text : List Char) : Boundary text 0 := ⟨[], text, rfl, rfl⟩

theorem le (h : Boundary text a) : a ≤ byteLength text := by
  obtain ⟨pre, post, rfl, rfl⟩ := h
  rw [byteLength_append]
  omega

/-- A text up to one boundary and from there up to another. -/
theorem takeBytes_eq (h : Boundary text a) (le : a ≤ b) :
    takeBytes b text = takeBytes a text ++ takeBytes (b - a) (dropBytes a text) := by
  obtain ⟨pre, post, rfl, rfl⟩ := h
  rw [takeBytes_byteLength, dropBytes_byteLength, ← takeBytes_append]
  congr 1
  omega

theorem dropBytes_dropBytes (h : Boundary text a) (le : a ≤ b) :
    dropBytes (b - a) (dropBytes a text) = dropBytes b text := by
  obtain ⟨pre, post, rfl, rfl⟩ := h
  rw [dropBytes_byteLength, ← dropBytes_append pre post (b - byteLength pre)]
  congr 1
  omega

theorem add_byteLength_dropBytes (h : Boundary text a) :
    a + byteLength (dropBytes a text) = byteLength text := by
  obtain ⟨pre, post, rfl, rfl⟩ := h
  rw [dropBytes_byteLength, byteLength_append]

end Boundary

/-- Of two cuts of one text, the earlier one leaves the later one. -/
theorem exists_append_of_le {a b c d : List Char} (eq : a ++ b = c ++ d)
    (le : byteLength a ≤ byteLength c) : ∃ e, c = a ++ e ∧ b = e ++ d := by
  rcases List.append_eq_append_iff.mp eq with ⟨e, rfl, rfl⟩ | ⟨e, rfl, rfl⟩
  · exact ⟨e, rfl, rfl⟩
  · rw [byteLength_append] at le
    cases e with
    | nil => exact ⟨[], by simp, rfl⟩
    | cons ch rest =>
      have := ch.utf8Size_pos
      rw [byteLength] at le
      omega

theorem byteLength_reverse (cs : List Char) : byteLength cs.reverse = byteLength cs := by
  induction cs with
  | nil => rfl
  | cons c rest ih =>
    rw [List.reverse_cons, byteLength_append, ih]
    simp only [byteLength]
    omega

namespace Edit

variable {text : List Char}

/-- An edit of a range of the text. -/
structure Fits (text : List Char) (e : Edit) : Prop where
  lo : Boundary text e.lo
  hi : Boundary text e.hi
  le : e.lo ≤ e.hi

/-! ## Lines -/

/-- What stands on the line of a place, before it. -/
def lineBefore (text : List Char) (lo : Nat) : List Char :=
  (takeBytes lo text).reverse.takeWhile (· != '\n')

/-- What stands on the line of a place, behind it. -/
def lineAfter (text : List Char) (hi : Nat) : List Char :=
  (dropBytes hi text).takeWhile (· != '\n')

def lineStart (text : List Char) (lo : Nat) : Nat := lo - byteLength (lineBefore text lo)

/-- The end of the line of a place, with the line feed if there is one. -/
def lineEnd (text : List Char) (hi : Nat) : Nat :=
  let stop := hi + byteLength (lineAfter text hi)
  if stop < byteLength text then stop + 1 else stop

theorem wholeLines_eq (text : List Char) (lo hi : Nat) :
    wholeLines text lo hi =
      if (lineBefore text lo).all isBlank && (lineAfter text hi).all isBlank then
        (lineStart text lo, lineEnd text hi)
      else (lo, hi) := rfl

/-- A text up to a place is what is before the line, and the line up to the place. -/
theorem append_lineBefore (pre post : List Char) :
    ∃ front, pre = front ++ (lineBefore (pre ++ post) (byteLength pre)).reverse
      ∧ lineStart (pre ++ post) (byteLength pre) = byteLength front := by
  unfold lineStart lineBefore
  rw [takeBytes_byteLength]
  have eq : pre = (pre.reverse.dropWhile (· != '\n')).reverse
      ++ (pre.reverse.takeWhile (· != '\n')).reverse := by
    rw [← List.reverse_append, List.takeWhile_append_dropWhile, List.reverse_reverse]
  have length := congrArg byteLength eq
  rw [byteLength_append, byteLength_reverse (pre.reverse.takeWhile _)] at length
  exact ⟨_, eq, by omega⟩

theorem boundary_lineStart {lo : Nat} (h : Boundary text lo) :
    Boundary text (lineStart text lo) := by
  obtain ⟨pre, post, rfl, rfl⟩ := h
  obtain ⟨front, eq, start⟩ := append_lineBefore pre post
  refine ⟨front, (lineBefore (pre ++ post) (byteLength pre)).reverse ++ post, ?_, start.symm⟩
  rw [← List.append_assoc, ← eq]

/-- A line ends where the text does, or with a line feed. -/
theorem lineAfter_append (pre post : List Char) :
    let line := lineAfter (pre ++ post) (byteLength pre)
    (post = line ∧ lineEnd (pre ++ post) (byteLength pre) = byteLength (pre ++ line)) ∨
      ∃ more, post = line ++ '\n' :: more ∧
        lineEnd (pre ++ post) (byteLength pre) = byteLength (pre ++ line ++ ['\n']) := by
  unfold lineEnd lineAfter
  dsimp only
  rw [dropBytes_byteLength]
  have eq := List.takeWhile_append_dropWhile (p := (· != '\n')) (l := post)
  have total := congrArg byteLength eq
  rw [byteLength_append] at total
  -- the text ends on the line, or a line feed comes behind it
  cases rest : post.dropWhile (· != '\n') with
  | nil =>
    rw [rest, List.append_nil] at eq
    rw [rest, byteLength] at total
    refine Or.inl ⟨eq.symm, ?_⟩
    rw [byteLength_append, byteLength_append, if_neg (by omega)]
  | cons c more =>
    have head := List.head?_dropWhile_not (· != '\n') post
    rw [rest] at head
    have newline : c = '\n' := by simpa using head
    subst newline
    have size : byteLength ('\n' :: more) = 1 + byteLength more := rfl
    rw [rest] at eq total
    refine Or.inr ⟨more, eq.symm, ?_⟩
    rw [byteLength_append, byteLength_append, byteLength_append, if_pos (by omega)]
    rfl

/-- A line feed before a place ends the line before its line. -/
theorem le_lineStart (p q post : List Char) :
    byteLength (p ++ ['\n'])
      ≤ lineStart (p ++ '\n' :: q ++ post) (byteLength (p ++ '\n' :: q)) := by
  have line : byteLength (lineBefore (p ++ '\n' :: q ++ post) (byteLength (p ++ '\n' :: q)))
      ≤ byteLength q := by
    unfold lineBefore
    rw [takeBytes_byteLength, List.reverse_append, List.reverse_cons, List.append_assoc]
    rw [← byteLength_reverse q]
    generalize q.reverse = r
    induction r with
    | nil => exact Nat.le_refl _
    | cons c rest ih =>
      rw [List.cons_append, List.takeWhile_cons]
      split
      · simp only [byteLength]
        omega
      · exact Nat.zero_le _
  have stop : byteLength (p ++ ['\n']) = byteLength p + 1 := byteLength_append p ['\n']
  have size : byteLength (p ++ '\n' :: q) = byteLength p + (1 + byteLength q) :=
    byteLength_append p ('\n' :: q)
  unfold lineStart
  omega

/-- What is before a place with no line feed in between is on its line. -/
theorem mem_lineBefore (p post : List Char) {q : List Char} {c : Char} (h : '\n' ∉ q) (mem : c ∈ q) :
    c ∈ lineBefore (p ++ q ++ post) (byteLength (p ++ q)) := by
  unfold lineBefore
  rw [takeBytes_byteLength, List.reverse_append, List.takeWhile_append_of_pos]
  · exact List.mem_append_left _ (List.mem_reverse.mpr mem)
  · intro d hd
    rw [bne_iff_ne]
    rintro rfl
    exact h (List.mem_reverse.mp hd)

/-- A line ends with the first line feed. -/
theorem lineEnd_le (pre g rest : List Char) :
    lineEnd (pre ++ (g ++ '\n' :: rest)) (byteLength pre) ≤ byteLength (pre ++ g ++ ['\n']) := by
  have line : byteLength (lineAfter (pre ++ (g ++ '\n' :: rest)) (byteLength pre))
      ≤ byteLength g := by
    unfold lineAfter
    rw [dropBytes_byteLength]
    induction g with
    | nil => exact Nat.le_refl _
    | cons c g ih =>
      rw [List.cons_append, List.takeWhile_cons]
      split
      · simp only [byteLength]
        omega
      · exact Nat.zero_le _
  have size : byteLength ['\n'] = 1 := rfl
  unfold lineEnd
  dsimp only
  rw [byteLength_append (pre ++ g), byteLength_append pre g]
  split <;> omega

/-- What is behind a place with no line feed in between is on its line. -/
theorem mem_lineAfter (pre rest : List Char) {g : List Char} {c : Char} (h : '\n' ∉ g) (hc : c ≠ '\n') :
    c ∈ lineAfter (pre ++ (g ++ c :: rest)) (byteLength pre) := by
  unfold lineAfter
  rw [dropBytes_byteLength, List.takeWhile_append_of_pos]
  · rw [List.takeWhile_cons_of_pos (by rw [bne_iff_ne]; exact hc)]
    exact List.mem_append_right _ List.mem_cons_self
  · intro d hd
    rw [bne_iff_ne]
    rintro rfl
    exact h hd

theorem boundary_lineEnd {hi : Nat} (h : Boundary text hi) : Boundary text (lineEnd text hi) := by
  obtain ⟨pre, post, rfl, rfl⟩ := h
  rcases lineAfter_append pre post with ⟨eq, stop⟩ | ⟨more, eq, stop⟩
  · refine ⟨pre ++ lineAfter (pre ++ post) (byteLength pre), [], ?_, stop.symm⟩
    rw [List.append_nil, ← eq]
  · refine ⟨_, more, ?_, stop.symm⟩
    simp only [List.append_assoc, List.singleton_append]
    rw [← eq]

theorem le_lineEnd (text : List Char) (hi : Nat) : hi ≤ lineEnd text hi := by
  unfold lineEnd
  dsimp only
  split <;> omega

/-- Widening to whole lines stops between characters. -/
theorem wholeLines_spec {lo hi : Nat} (hlo : Boundary text lo) (hhi : Boundary text hi) :
    Boundary text (wholeLines text lo hi).1 ∧ Boundary text (wholeLines text lo hi).2
      ∧ (wholeLines text lo hi).1 ≤ lo ∧ hi ≤ (wholeLines text lo hi).2 := by
  rw [wholeLines_eq]
  split
  · exact ⟨boundary_lineStart hlo, boundary_lineEnd hhi, Nat.sub_le _ _, le_lineEnd text hi⟩
  · exact ⟨hlo, hhi, Nat.le_refl _, Nat.le_refl _⟩

theorem removeLines_fits {lo hi : Nat} (hlo : Boundary text lo) (hhi : Boundary text hi)
    (le : lo ≤ hi) : (removeLines text lo hi).Fits text := by
  obtain ⟨fitsLo, fitsHi, leLo, leHi⟩ := wholeLines_spec hlo hhi
  exact ⟨fitsLo, fitsHi, Nat.le_trans leLo (Nat.le_trans le leHi)⟩

end Edit

end TsxPreview
