import TsxPreview.Sorting

/-!
What a sort does in its monad: it asks for comparisons, one after another, and nothing else.
Whatever the answers are, it gives back the items that it was given, unless it gives nothing.
-/

namespace TsxPreview.Sorting

variable {m : Type → Type} [Monad m] {α β γ : Type}

/-- Computations that only ask, with what holds of their results whatever the answers are. That a
computation only asks does not hang on what it starts from. -/
inductive Gives (less : α → α → m Bool) : {β : Type} → m β → (β → Prop) → Prop
  | pure {β : Type} {P : β → Prop} {b : β} (h : P b) : Gives less (pure b) P
  | bind {β γ : Type} {x : m β} {f : β → m γ} {P : β → Prop} {Q : γ → Prop} (hx : Gives less x P)
      (hf : ∀ b, Gives less (f b) fun c => P b → Q c) : Gives less (x >>= f) Q
  | less {P : Bool → Prop} (x y : α) (h : ∀ b, P b) : Gives less (less x y) P

variable {less : α → α → m Bool} {P : β → Prop} {Q : γ → Prop}

theorem Gives.mono {Q : β → Prop} {x : m β} (h : Gives less x P) (imp : ∀ b, P b → Q b) :
    Gives less x Q := by
  induction h with
  | pure h => exact .pure (imp _ h)
  | bind hx _ _ ih => exact .bind hx fun b => ih b fun c h hb => imp c (h hb)
  | less x y h => exact .less x y fun b => imp b (h b)

/-- What comes after a question holds for either answer. -/
theorem Gives.ask {f : Bool → m γ} {x y : α} (hf : ∀ b, Gives less (f b) Q) :
    Gives less (less x y >>= f) Q :=
  .bind (.less (P := fun _ => True) x y fun _ => trivial) fun b => (hf b).mono fun _ h _ => h

/-- The same for computations that may have no result. -/
def Yields (less : α → α → m Bool) (x : OptionT m β) (P : β → Prop) : Prop :=
  Gives less x.run fun o => ∀ b, o = some b → P b

namespace Yields

theorem pure {b : β} (h : P b) : Yields less (Pure.pure b : OptionT m β) P :=
  Gives.pure fun _ eq => Option.some.inj eq ▸ h

theorem bind {x : OptionT m β} {f : β → OptionT m γ} (hx : Yields less x P)
    (hf : ∀ b, Yields less (f b) fun c => P b → Q c) : Yields less (x >>= f) Q := by
  refine Gives.bind hx fun o => ?_
  cases o with
  | none => exact .pure nofun
  | some b => exact Gives.mono (hf b) fun _ h ho c eq => h c eq (ho b rfl)

theorem lift {x : m β} (hx : Gives less x P) : Yields less (OptionT.lift x) P :=
  Gives.bind hx fun _ => .pure fun hb _ eq => Option.some.inj eq ▸ hb

theorem mono {Q : β → Prop} {x : OptionT m β} (h : Yields less x P) (imp : ∀ b, P b → Q b) :
    Yields less x Q :=
  Gives.mono h fun _ ho b eq => imp b (ho b eq)

end Yields

/-! ## Counting -/

/-- Lists are permutations of each other if they have as many items of every kind. -/
theorem perm_of_countP {l₁ l₂ : List α} (h : ∀ p, l₁.countP p = l₂.countP p) : l₁.Perm l₂ := by
  classical
  exact List.perm_iff_count.mpr fun a => h (· == a)

/-! ## Insertion and merging -/

theorem insert_perm (x : α) (sorted : List α) :
    Gives less (insert less x sorted) (·.Perm (x :: sorted)) := by
  induction sorted with
  | nil => exact .pure (.refl _)
  | cons y rest ih =>
    unfold insert
    refine .ask fun before => ?_
    split
    · exact .bind ih fun out => .pure fun perm => (perm.cons y).trans (.swap x y rest)
    · exact .pure (.refl _)

theorem insertAll_perm (items sorted : List α) :
    Gives less (insertAll less items sorted) (·.Perm (items ++ sorted)) := by
  induction items generalizing sorted with
  | nil => exact .pure (.refl _)
  | cons x rest ih =>
    unfold insertAll
    refine .bind (insert_perm x sorted) fun out => (ih out).mono fun all perm' perm => ?_
    exact (perm'.trans (perm.append_left rest)).trans List.perm_middle

theorem mergeFront_perm (left right taken : List α) :
    Gives less (mergeFront less left right taken) (·.Perm (taken ++ left ++ right)) := by
  fun_induction mergeFront less left right taken with
  | case1 right taken =>
    refine .pure (perm_of_countP fun p => ?_)
    simp
  | case2 left taken =>
    refine .pure (perm_of_countP fun p => ?_)
    simp
  | case3 taken x left y right ih ih' =>
    refine .ask fun before => ?_
    split
    · refine ih.mono fun out perm => perm.trans (perm_of_countP fun p => ?_)
      simp [List.countP_cons]
      omega
    · refine ih'.mono fun out perm => perm.trans (perm_of_countP fun p => ?_)
      simp [List.countP_cons]
      omega

theorem mergeBack_perm (left right merged : List α) :
    Gives less (mergeBack less left right merged) (·.Perm (left ++ right ++ merged)) := by
  fun_induction mergeBack less left right merged with
  | case1 right merged =>
    refine .pure (perm_of_countP fun p => ?_)
    simp
  | case2 left merged =>
    refine .pure (perm_of_countP fun p => ?_)
    simp
  | case3 merged x left y right ih ih' =>
    refine .ask fun before => ?_
    split
    · refine ih.mono fun out perm => perm.trans (perm_of_countP fun p => ?_)
      simp [List.countP_cons]
      omega
    · refine ih'.mono fun out perm => perm.trans (perm_of_countP fun p => ?_)
      simp [List.countP_cons]
      omega

theorem merge_perm (left right : List α) :
    Gives less (merge less left right) (·.Perm (left ++ right)) := by
  unfold merge
  split
  · exact mergeFront_perm left right []
  · refine (mergeBack_perm left.reverse right.reverse []).mono fun out perm => perm.trans ?_
    rw [List.append_nil]
    exact (List.reverse_perm left).append (List.reverse_perm right)

/-! ## Merging from both ends -/

/-- What two ends have taken: the front the first items of either list, the back the last ones. -/
structure Ends.Taken (left right : List α) (e : Ends α) : Prop where
  front : ∃ l r, left = l ++ e.left ∧ right = r ++ e.right ∧ e.front.Perm (l ++ r)
  back : ∃ l r, left = e.leftBack.reverse ++ l ∧ right = e.rightBack.reverse ++ r ∧
    e.back.Perm (l ++ r)

/-- If neither end has taken what the other has, what is left in the middle goes before what the
back has taken. -/
theorem take_append_of_overlap {front rest back taken : List α}
    (eq : front ++ rest = back ++ taken) (le : front.length ≤ back.length) :
    rest.take (back.length - front.length) ++ taken = rest := by
  have drop : rest = back.drop front.length ++ taken := by
    rw [← List.drop_append_of_le_length le, ← eq, List.drop_left]
  rw [drop, List.take_left' (List.length_drop ..)]

theorem ofLists_taken (left right : List α) : (Ends.ofLists left right).Taken left right :=
  ⟨⟨[], [], rfl, rfl, .refl _⟩, [], [], by simp [Ends.ofLists], by simp [Ends.ofLists], .refl _⟩

section

variable {left right : List α}

theorem takeFront_taken (e : Ends α) :
    Gives less (e.takeFront less) fun e' => e.Taken left right → e'.Taken left right := by
  unfold Ends.takeFront
  split
  · rename_i x xs y ys hx hy
    refine .ask fun before => ?_
    split
    · refine .pure ?_
      rintro ⟨⟨l, r, eqL, eqR, perm⟩, back⟩
      rw [hy] at eqR
      refine ⟨⟨l, r ++ [y], eqL, by simp [eqR], perm_of_countP fun p => ?_⟩, back⟩
      simp [List.countP_cons, perm.countP_eq]
      omega
    · refine .pure ?_
      rintro ⟨⟨l, r, eqL, eqR, perm⟩, back⟩
      rw [hx] at eqL
      refine ⟨⟨l ++ [x], r, by simp [eqL], eqR, perm_of_countP fun p => ?_⟩, back⟩
      simp [List.countP_cons, perm.countP_eq]
      omega
  · exact .pure id

theorem takeBack_taken (e : Ends α) :
    Gives less (e.takeBack less) fun e' => e.Taken left right → e'.Taken left right := by
  unfold Ends.takeBack
  split
  · rename_i x xs y ys hx hy
    refine .ask fun before => ?_
    split
    · refine .pure ?_
      rintro ⟨front, l, r, eqL, eqR, perm⟩
      rw [hx] at eqL
      refine ⟨front, x :: l, r, by simp [eqL], eqR, perm_of_countP fun p => ?_⟩
      simp [List.countP_cons, perm.countP_eq]
    · refine .pure ?_
      rintro ⟨front, l, r, eqL, eqR, perm⟩
      rw [hy] at eqR
      refine ⟨front, l, y :: r, eqL, by simp [eqR], perm_of_countP fun p => ?_⟩
      simp [List.countP_cons, perm.countP_eq]
      omega
  · exact .pure id

theorem takeBoth_taken (rounds : Nat) (e : Ends α) :
    Gives less (Ends.takeBoth less rounds e) fun e' =>
      e.Taken left right → e'.Taken left right := by
  induction rounds generalizing e with
  | zero => exact .pure id
  | succ rounds ih =>
    exact .bind (takeFront_taken e) fun e₁ => .bind (takeBack_taken e₁) fun e₂ =>
      (ih e₂).mono fun _ rest back front taken => rest (back (front taken))

theorem result?_perm {e : Ends α} (h : e.Taken left right) {out : List α}
    (eq : e.result? left.length right.length = some out) : out.Perm (left ++ right) := by
  obtain ⟨⟨l, r, eqL, eqR, front⟩, l', r', eqL', eqR', back⟩ := h
  unfold Ends.result? at eq
  dsimp only at eq
  split at eq
  · rename_i kept
    cases eq
    have lengthL : left.length = l.length + e.left.length := by rw [eqL, List.length_append]
    have lengthR : right.length = r.length + e.right.length := by rw [eqR, List.length_append]
    have middleL := take_append_of_overlap (eqL.symm.trans eqL')
      (by rw [List.length_reverse]; omega)
    have middleR := take_append_of_overlap (eqR.symm.trans eqR')
      (by rw [List.length_reverse]; omega)
    rw [List.length_reverse, show e.leftBack.length - l.length =
      e.left.length + e.leftBack.length - left.length by omega] at middleL
    rw [List.length_reverse, show e.rightBack.length - r.length =
      e.right.length + e.rightBack.length - right.length by omega] at middleR
    refine perm_of_countP fun p => ?_
    have countL := congrArg (List.countP p) (eqL.trans (congrArg (l ++ ·) middleL.symm))
    have countR := congrArg (List.countP p) (eqR.trans (congrArg (r ++ ·) middleR.symm))
    simp only [List.countP_append, List.countP_reverse, front.countP_eq, back.countP_eq]
      at countL countR ⊢
    omega
  · cases eq

end

theorem mergeEnds_perm (left right : List α) :
    Yields less (mergeEnds less left right) (·.Perm (left ++ right)) :=
  .bind (.lift (takeBoth_taken _ _)) fun _ =>
    Gives.pure fun _ eq taken => result?_perm (taken (ofLists_taken left right)) eq

/-! ## Short lists -/

theorem pair_perm (x y : α) :
    Gives less (pair less x y) fun (p : α × α) => [p.1, p.2].Perm [x, y] := by
  unfold pair
  refine .ask fun before => ?_
  split
  · exact .pure (.swap x y [])
  · exact .pure (.refl _)

theorem sortFour_perm (a b c d : α) :
    Gives less (sortFour less a b c d) (·.Perm [a, b, c, d]) := by
  unfold sortFour
  refine .bind (pair_perm a b) fun ab => .bind (pair_perm c d) fun cd =>
    .ask fun first => .ask fun last => ?_
  cases first <;> cases last <;> dsimp only <;>
    refine .bind (pair_perm _ _) fun xy => .pure fun hxy hcd hab => perm_of_countP fun p => ?_
  all_goals
    have ab := hab.countP_eq p
    have cd := hcd.countP_eq p
    have xy := hxy.countP_eq p
    simp only [List.countP_cons, List.countP_nil] at ab cd xy ⊢
    omega

theorem sortFirst_perm (items : List α) :
    Gives less (sortFirst less items) fun p => (p.1 ++ p.2).Perm items := by
  unfold sortFirst
  split
  · rename_i a b c d rest
    exact .bind (sortFour_perm a b c d) fun out => .pure fun perm =>
      (out.reverse_perm.trans perm).append_right rest
  · exact .pure (.refl _)

theorem sortShort_perm (items : List α) : Yields less (sortShort less items) (·.Perm items) := by
  unfold sortShort
  rw [List.splitAt_eq]
  split
  · exact .pure (.refl _)
  · have first (half : List α) : Gives less
        (if items.length < fourFrom then pure ([], half) else sortFirst less half)
        fun p => (p.1 ++ p.2).Perm half := by
      split
      · exact .pure (.refl _)
      · exact sortFirst_perm half
    refine .bind (.lift (P := fun p => (p.1 ++ p.2).Perm items) ?_) fun halves =>
      (mergeEnds_perm _ _).mono fun out merged perm => merged.trans ?_
    · refine .bind (first _) fun l => .bind (first _) fun r => .bind (insertAll_perm l.2 l.1)
        fun left => .bind (insertAll_perm r.2 r.1) fun right => .pure fun hright hleft hr hl =>
        perm_of_countP fun p => ?_
      have split := congrArg (List.countP p) (List.take_append_drop (items.length / 2) items)
      have l := hl.countP_eq p
      have r := hr.countP_eq p
      have left := hleft.countP_eq p
      have right := hright.countP_eq p
      simp only [List.countP_append] at split l r left right ⊢
      omega
    · exact (halves.1.reverse_perm.append halves.2.reverse_perm).trans perm

/-! ## Runs -/

theorem extent_asks (descending : Bool) (count : Nat) (previous : α) (items : List α) :
    Gives less (extent less descending count previous items) (count ≤ ·) := by
  induction items generalizing count previous with
  | nil => exact .pure (Nat.le_refl _)
  | cons x rest ih =>
    unfold extent
    refine .ask fun before => ?_
    split
    · exact (ih (count + 1) x).mono fun n le => by omega
    · exact .pure (Nat.le_refl _)

/-- A run starts with one of the first items, if there are any. -/
theorem firstRun_pos (items : List α) :
    Gives less (firstRun less items) fun p => 0 < items.length → 0 < p.1 := by
  unfold firstRun
  split
  · rename_i x y rest
    exact .ask fun descending => .bind (extent_asks descending 2 y rest) fun n =>
      .pure fun le _ => Nat.lt_of_lt_of_le Nat.two_pos le
  · exact .pure id

/-- A run that is cut from the front of a list: its items are the first ones, one at least. -/
def Run.CutFrom (items : List α) (run : Run α) : Prop :=
  0 < run.items.length ∧ (run.items ++ items.drop run.items.length).Perm items

theorem cutFrom_of_perm {items : List α} {run : Run α} {count : Nat} (pos : 0 < items.length)
    (positive : 0 < count) (perm : run.items.Perm (items.take count)) : run.CutFrom items := by
  have length := perm.length_eq
  rw [List.length_take] at length
  refine ⟨by omega, ?_⟩
  rw [length]
  rcases Nat.le_total count items.length with le | ge
  · rw [Nat.min_eq_left le]
    exact (perm.append_right _).trans (.of_eq (List.take_append_drop ..))
  · rw [Nat.min_eq_right ge, List.drop_length, List.append_nil]
    exact perm.trans (.of_eq (List.take_of_length_le ge))

theorem foundRun?_cutFrom (least : Nat) (items : List α) :
    Gives less (foundRun? less least items) fun o =>
      0 < items.length → ∀ run, o = some run → run.CutFrom items := by
  unfold foundRun?
  split
  · exact .pure nofun
  · refine .bind (firstRun_pos items) fun found => ?_
    split
    rename_i count descending
    split
    · exact .pure nofun
    · refine .pure fun positive pos run eq => ?_
      cases eq
      refine cutFrom_of_perm pos (positive pos) ?_
      dsimp only
      split
      · exact List.reverse_perm _
      · exact .refl _

/-- What is done with stretches that are not sorted permutes them. -/
def Unsorted.Permutes (less : α → α → m Bool) : Unsorted m α → Prop
  | .atOnce => True
  | .later _ sort => ∀ items, Yields less (sort items) (·.Perm items)

/-- The items of the runs on a stack. -/
def Stack.items (stack : Stack α) : List α := stack.flatMap (·.1.items)

section

variable {unsorted : Unsorted m α}

theorem nextRun_cutFrom (least : Nat) (items : List α) :
    Yields less (nextRun less unsorted least items) fun run =>
      0 < items.length → 0 < least → run.CutFrom items := by
  unfold nextRun
  refine .bind (.lift (foundRun?_cutFrom least items)) fun found => ?_
  cases found with
  | some run => exact .pure fun cut pos _ => cut pos run rfl
  | none =>
    cases unsorted with
    | atOnce =>
      exact .bind (sortShort_perm (items.take shortLength)) fun out =>
        .pure fun perm _ pos _ => cutFrom_of_perm pos (by decide) perm
    | later room sort => exact .pure fun _ pos enough => cutFrom_of_perm pos enough (.refl _)

variable (h : unsorted.Permutes less)

include h

theorem settle_perm (run : Run α) : Yields less (settle unsorted run) (·.Perm run.items) := by
  unfold settle
  split
  · exact h _
  · exact .pure (.refl _)

theorem join_perm (left right : Run α) :
    Yields less (join less unsorted left right) (·.items.Perm (left.items ++ right.items)) := by
  unfold join
  split
  · exact .pure (.refl _)
  · exact .bind (settle_perm h left) fun l => .bind (settle_perm h right) fun r =>
      .bind (.lift (merge_perm l r)) fun out => .pure fun perm hr hl => perm.trans (hl.append hr)

/-- Nothing is lost when runs are joined, and at depth 0 all are. -/
theorem collapse_perm (depth : Nat) (stack : Stack α) (right : Run α) :
    Yields less (collapse less unsorted depth stack right) fun p =>
      (p.1.items ++ p.2.items).Perm (stack.items ++ right.items) ∧ (depth = 0 → p.1 = []) := by
  fun_induction collapse less unsorted depth stack right with
  | case1 left d stack right deep ih =>
    refine .bind (join_perm h left right) fun run => (ih run).mono fun p perm joined =>
      ⟨perm.1.trans (perm_of_countP fun q => ?_), perm.2⟩
    have := joined.countP_eq q
    simp only [Stack.items, List.flatMap_cons, List.countP_append] at this ⊢
    omega
  | case2 left d stack right shallow => exact .pure ⟨.refl _, fun zero => by omega⟩
  | case3 right => exact .pure ⟨.refl _, fun _ => rfl⟩

theorem joinRuns_perm (length : Nat) (stack : Stack α) (last : Run α) (position : Nat)
    (rest : List α) :
    Yields less (joinRuns less unsorted length stack last position rest) fun out =>
      0 < leastRun length → out.Perm (stack.items ++ last.items ++ rest) := by
  fun_induction joinRuns less unsorted length stack last position rest with
  | case1 position stack last =>
    refine .bind (collapse_perm h 0 stack last) fun p =>
      (settle_perm h p.2).mono fun out settled perm _ => ?_
    obtain ⟨perm, gone⟩ := perm
    rw [gone rfl] at perm
    exact settled.trans (perm.trans (.of_eq (List.append_nil _).symm))
  | case2 stack last position x rest ih =>
    refine .bind (nextRun_cutFrom _ (x :: rest)) fun next => .bind (collapse_perm h _ stack last)
      fun p => (ih next p.1 p.2).mono fun out all perm cut least =>
        (all least).trans (perm_of_countP fun q => ?_)
    obtain ⟨holds, cut⟩ := cut (Nat.succ_pos _) least
    have size : max 1 next.items.length = next.items.length := Nat.max_eq_right holds
    rw [size]
    have perm := perm.1.countP_eq q
    have cut := cut.countP_eq q
    simp only [Stack.items, List.flatMap_cons, List.countP_append] at perm cut ⊢
    omega

end

theorem aboutSqrt_pos {n : Nat} (large : 2 ≤ n) : 0 < aboutSqrt n := by
  have shift : 1 ≤ (1 + n.log2) / 2 := by
    have : 1 ≤ n.log2 := (Nat.le_log2 (by omega)).mpr large
    omega
  have : 2 ≤ Nat.pow 2 ((1 + n.log2) / 2) := Nat.pow_le_pow_right (n := 2) (by decide) shift
  exact Nat.div_pos (Nat.le_add_right_of_le this) (by decide)

theorem leastRun_pos {length : Nat} (pos : 0 < length) : 0 < leastRun length := by
  unfold leastRun
  split
  · omega
  · exact aboutSqrt_pos (by omega)

theorem sortRuns_perm {unsorted : Unsorted m α} (h : unsorted.Permutes less) (items : List α) :
    Yields less (sortRuns less unsorted items) fun out => 0 < items.length → out.Perm items := by
  unfold sortRuns
  exact .bind (nextRun_cutFrom _ items) fun first => (joinRuns_perm h _ [] first _ _).mono
    fun out perm cut pos => (perm (leastRun_pos pos)).trans (cut pos (leastRun_pos pos)).2

/-! ## Pivots -/

theorem median_mem (a b c : α × Nat) :
    Gives less (median less a b c) fun p => p = a ∨ p = b ∨ p = c := by
  unfold median
  refine .ask fun x => .ask fun y => ?_
  split
  · refine .ask fun z => .pure ?_
    split <;> simp
  · exact .pure (.inl rfl)

/-- What is chosen is one of the items. -/
theorem aboutMedian_mem (items : List (α × Nat)) :
    Gives less (aboutMedian less items) fun o => ∀ p, o = some p → p ∈ items := by
  fun_induction aboutMedian less items with
  | case1 items few => exact .pure fun p eq => List.mem_of_head? eq
  | case2 items many n lt ih₁ ih₂ ih₃ =>
    refine .bind ih₁ fun a => .bind ih₂ fun b => .bind ih₃ fun c => ?_
    split
    · refine .bind (median_mem _ _ _) fun p => .pure fun is hc hb ha q eq => ?_
      cases eq
      rcases is with rfl | rfl | rfl
      · exact List.mem_of_mem_take (ha _ rfl)
      · exact List.mem_of_mem_drop (List.mem_of_mem_take (hb _ rfl))
      · exact List.mem_of_mem_drop (List.mem_of_mem_take (hc _ rfl))
    · refine .pure fun _ _ _ p eq => ?_
      cases eq

/-- A fold keeps what each of its steps keeps; `I` is about what has been folded and the rest. -/
theorem gives_foldlM {f : γ → β → m γ} {I : γ → List β → Prop}
    (step : ∀ c x rest, Gives less (f c x) fun c' => I c (x :: rest) → I c' rest)
    (list : List β) (init : γ) :
    Gives less (list.foldlM f init) fun c => I init list → I c [] := by
  induction list generalizing init with
  | nil => exact .pure id
  | cons x rest ih =>
    rw [List.foldlM_cons]
    exact .bind (step init x rest) fun c => (ih c).mono fun _ last first start => last (first start)

theorem partition_perm {test : α → m Bool} (asks : ∀ x, Gives less (test x) fun _ => True)
    (items : List α) : Gives less (partition test items) fun p => (p.1 ++ p.2).Perm items := by
  unfold partition
  refine .bind (gives_foldlM (I := fun p rest => (p.1 ++ p.2 ++ rest).Perm items)
    (fun p x rest => ?_) items _) fun p => .pure fun perm => ?_
  · refine .bind (asks x) fun yes => ?_
    split
    · refine .pure fun _ perm => .trans (perm_of_countP fun q => ?_) perm
      simp [List.countP_cons]
      omega
    · refine .pure fun _ perm => .trans (perm_of_countP fun q => ?_) perm
      simp [List.countP_cons]
      omega
  · have perm := perm (.refl _)
    rw [List.append_nil] at perm
    exact (p.1.reverse_perm.append p.2.reverse_perm).trans perm

section

variable (before : List α) (pivot : α) (after : List α)

theorem splitLess_perm : Gives less (splitLess less before pivot after)
    fun p => (p.1 ++ p.2).Perm (before ++ pivot :: after) := by
  have asks (x : α) : Gives less (less x pivot) fun _ => True := .less _ _ fun _ => trivial
  unfold splitLess
  refine .bind (partition_perm asks before) fun b => .bind (partition_perm asks after)
    fun a => .pure fun ha hb => perm_of_countP fun q => ?_
  have hb := hb.countP_eq q
  have ha := ha.countP_eq q
  simp only [List.countP_append, List.countP_cons] at hb ha ⊢
  omega

theorem splitEqual_perm : Gives less (splitEqual less before pivot after)
    fun p => (p.1 ++ p.2).Perm (before ++ pivot :: after) := by
  have asks (x : α) : Gives less (do return !(← less pivot x)) fun _ => True :=
    .ask fun _ => .pure trivial
  unfold splitEqual
  refine .bind (partition_perm asks before) fun b => .bind (partition_perm asks after)
    fun a => .pure fun ha hb => perm_of_countP fun q => ?_
  have hb := hb.countP_eq q
  have ha := ha.countP_eq q
  simp only [List.countP_append, List.countP_cons] at hb ha ⊢
  omega

end

theorem isRepeated_asks (bound : Option α) (pivot : α) :
    Gives less (isRepeated less bound pivot) fun _ => True := by
  unfold isRepeated
  split
  · exact .ask fun _ => .pure trivial
  · exact .pure trivial

/-- All items of two sides. -/
def Sides.items : Sides α → List α
  | .less left _ right => left ++ right
  | .equal same rest => same ++ rest

/-- An item between what stands before and after its place. -/
theorem take_append_drop_of_mem_zipIdx {items : List α} {x : α} {place : Nat}
    (mem : (x, place) ∈ items.zipIdx) :
    items.take place ++ x :: items.drop (place + 1) = items := by
  obtain ⟨lt, rfl⟩ : ∃ lt, items.get ⟨place, lt⟩ = x :=
    List.getElem?_eq_some_iff.mp (List.mem_zipIdx_iff_getElem?.mp mem)
  rw [List.get_eq_getElem, ← List.drop_eq_getElem_cons lt, List.take_append_drop]

theorem sides_perm (bound : Option α) (items : List α) :
    Gives less (sides less bound items) (·.items.Perm items) := by
  unfold sides
  refine .bind (aboutMedian_mem _) fun found => ?_
  cases found with
  | none =>
    refine .pure fun _ => ?_
    rw [Sides.items, List.append_nil]
  | some p =>
    obtain ⟨pivot, place⟩ := p
    have equal : Gives less (splitEqual less _ _ _) _ :=
      splitEqual_perm (items.take place) pivot (items.drop (place + 1))
    have before : Gives less (splitLess less _ _ _) _ :=
      splitLess_perm (items.take place) pivot (items.drop (place + 1))
    refine .mono (P := (·.items.Perm (items.take place ++ pivot :: items.drop (place + 1)))) ?_
      fun s perm mem => perm.trans (.of_eq (take_append_drop_of_mem_zipIdx (mem _ rfl)))
    refine .bind (isRepeated_asks bound pivot) fun isRepeated => ?_
    dsimp only
    split
    · refine .bind (P := (· = ([], []))) (.pure rfl) fun p => ?_
      split
      · exact .bind equal fun p => .pure fun perm _ _ => perm
      · rename_i kept
        exact .pure fun neither => absurd (neither ▸ rfl) kept
    · refine .bind before fun p => ?_
      split
      · exact .bind equal fun p => .pure fun perm _ _ => perm
      · exact .pure fun perm _ => perm

theorem sortAtOnce_perm (items : List α) (pos : 0 < items.length) :
    Yields less (sortRuns less .atOnce items) (·.Perm items) :=
  have atOnce : Unsorted.Permutes less .atOnce := trivial
  (sortRuns_perm atOnce items).mono fun _ perm => perm pos

theorem sortPivots_perm (rounds : Nat) (bound : Option α) (items : List α) :
    Yields less (sortPivots less rounds bound items) (·.Perm items) := by
  induction rounds generalizing bound items with
  | zero =>
    unfold sortPivots
    split
    · exact sortShort_perm items
    · exact sortAtOnce_perm items (by omega)
  | succ rounds ih =>
    unfold sortPivots
    split
    · exact sortShort_perm items
    · refine .bind (.lift (sides_perm bound items)) fun sides => ?_
      cases sides with
      | equal equal rest =>
        exact .bind (ih none rest) fun sorted => .pure fun hs perm =>
          (hs.append_left equal).trans perm
      | less left pivot right =>
        exact .bind (ih (some pivot) right) fun right' => .bind (ih bound left) fun left' =>
          .pure fun hl hr perm => (hl.append hr).trans perm

/-- A sort gives back its items. -/
theorem sort_perm (items : List α) : Yields less (sort less items) (·.Perm items) := by
  unfold sort
  dsimp only
  split
  · refine .bind (.lift (insertAll_perm items [])) fun sorted => .pure fun perm => ?_
    rw [List.append_nil] at perm
    exact sorted.reverse_perm.trans perm
  · rename_i many
    have pos : 0 < items.length := by omega
    split
    · exact sortAtOnce_perm items pos
    · have later : Unsorted.Permutes less (.later (room items.length) fun stretch =>
          sortPivots less (rounds stretch) none stretch) :=
        fun stretch => sortPivots_perm _ _ stretch
      exact (sortRuns_perm later items).mono fun _ perm => perm pos

end TsxPreview.Sorting
