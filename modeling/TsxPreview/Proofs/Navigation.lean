import TsxPreview.Navigation
import TsxPreview.Proofs.Project

/-!
Locations that carry a query or a hash. An absolute target is taken as it is, and a relative one is
entered segment by segment, whatever stands behind the marks. So what a relative target carries is
left alone only if its own segments could be those of a path.
-/

namespace TsxPreview.Navigation

open TsxPreview.Path Splitting

variable {current path suffix s first last : List Char}
  {before more reached list : List (List Char)}

/-! ## Segments -/

/-- Only what could be a segment of a normal path is entered. -/
theorem isPlain_foldl_enter (list : List (List Char)) (h : ∀ t ∈ reached, IsPlain t) :
    ∀ t ∈ list.foldl enter reached, IsPlain t :=
  forall_mem_foldl_enter list h fun _ _ plain => plain

/-! ## Splitting -/

theorem splitBy_isSlash (cs : List Char) : splitBy isSlash cs = cs.splitOn '/' := splitBy_eq _ cs

/-- Where two texts meet, the last part of the first one goes on. -/
theorem splitOn_append (front behind : List Char) :
    ∃ before last first more, front.splitOn '/' = before ++ [last] ∧
      behind.splitOn '/' = first :: more ∧
      (front ++ behind).splitOn '/' = before ++ (last ++ first) :: more := by
  simp only [List.splitOn_eq_splitOnP]
  induction front with
  | nil =>
    obtain ⟨first, more, split⟩ :=
      List.exists_cons_of_ne_nil (List.splitOnP_ne_nil (fun c : Char => c == '/') behind)
    exact ⟨[], [], first, more, by simp, split, by simpa using split⟩
  | cons c front ih =>
    obtain ⟨before, last, first, more, eq, eq', joined⟩ := ih
    by_cases slash : (c == '/') = true
    · refine ⟨[] :: before, last, first, more, ?_, eq', ?_⟩
      · rw [List.splitOnP_cons_eq_if_modifyHead, if_pos slash, eq, List.cons_append]
      · rw [List.cons_append, List.splitOnP_cons_eq_if_modifyHead, if_pos slash, joined,
          List.cons_append]
    · simp only [List.cons_append, List.splitOnP_cons_eq_if_modifyHead, if_neg slash, eq, joined]
      cases before with
      | nil => exact ⟨[], c :: last, first, more, rfl, eq', rfl⟩
      | cons head before => exact ⟨(c :: head) :: before, last, first, more, rfl, eq', rfl⟩

/-- Segments with the first part of what they carry behind the last of them. -/
def carry (reached : List (List Char)) (first : List Char) (more : List (List Char)) :
    List (List Char) :=
  reached.dropLast ++ (reached.getLastD [] ++ first) :: more

theorem carry_concat (reached : List (List Char)) (last first : List Char)
    (more : List (List Char)) :
    carry (reached ++ [last]) first more = reached ++ (last ++ first) :: more := by
  simp [carry]

theorem splitOn_ofSegments (h : ∀ s ∈ list, '/' ∉ s) (some : list ≠ []) :
    (ofSegments list).splitOn '/' = [] :: list := by
  have whole := List.splitOn_intercalate '/' h some
  rw [List.splitOn_eq_splitOnP] at whole ⊢
  rw [ofSegments, List.splitOnP_cons_eq_if_modifyHead, if_pos (by decide), whole]

theorem splitOn_ofSegments_append (h : ∀ s ∈ reached, '/' ∉ s)
    (split : suffix.splitOn '/' = first :: more) :
    (ofSegments reached ++ suffix).splitOn '/' = [] :: carry reached first more := by
  obtain ⟨before, last, first', more', eq, eq', joined⟩ :=
    splitOn_append (ofSegments reached) suffix
  rw [split] at eq'
  cases eq'
  rw [joined]
  rcases List.eq_nil_or_concat reached with rfl | ⟨front, final, rfl⟩
  · have bare : (ofSegments []).splitOn '/' = [[]] ++ [[]] := by decide
    obtain ⟨rfl, eq⟩ := List.append_inj' (bare.symm.trans eq) rfl
    cases eq
    rfl
  · rw [List.concat_eq_append] at h eq ⊢
    rw [splitOn_ofSegments h (by simp), ← List.cons_append] at eq
    obtain ⟨rfl, same⟩ := List.append_inj' eq rfl
    rw [carry_concat, List.cons_append, List.singleton_inj.1 same]

/-- What a path carries is left alone if its segments are those of the path before. -/
theorem ofSegments_eq_append_iff (h : ∀ s ∈ list, '/' ∉ s) (h' : ∀ s ∈ reached, '/' ∉ s)
    (split : suffix.splitOn '/' = first :: more) (some : first ≠ []) :
    ofSegments list = ofSegments reached ++ suffix ↔ list = carry reached first more := by
  have carried := splitOn_ofSegments_append h' split
  constructor
  · intro eq
    rw [← eq] at carried
    by_cases none : list = []
    · have bare : (ofSegments []).splitOn '/' = [[], []] := by decide
      rw [none, bare] at carried
      have mem : reached.getLastD [] ++ first ∈ [[]] := by
        rw [List.tail_eq_of_cons_eq carried, carry]
        simp
      exact absurd (List.append_eq_nil_iff.1 (List.mem_singleton.1 mem)).2 some
    · rw [splitOn_ofSegments h none] at carried
      exact List.tail_eq_of_cons_eq carried
  · intro eq
    have nonempty : list ≠ [] := by simp [eq, carry]
    have whole : ['/'].intercalate ((ofSegments reached ++ suffix).splitOn '/') =
        ofSegments reached ++ suffix := List.intercalate_splitOn '/'
    rw [← whole, carried, ← eq, ← splitOn_ofSegments h nonempty, List.intercalate_splitOn]

/-! ## Locations -/

/-- A path in normal form, from which others are resolved. -/
def IsPathname (path : List Char) : Prop :=
  ∃ list, (∀ s ∈ list, IsPlain s ∧ '/' ∉ s ∧ ∀ c ∈ s, isMark c = false) ∧ path = ofSegments list

theorem segments_ofSegments (h : ∀ s ∈ list, IsPlain s ∧ '/' ∉ s) :
    segments (ofSegments list) = list := by
  rw [segments, splitBy_isSlash]
  cases list with
  | nil => decide
  | cons first more =>
    rw [splitOn_ofSegments (fun s mem => (h s mem).2) (by simp), List.filter_cons_of_neg (by simp),
      List.filter_eq_self]
    intro s mem
    simpa using (h s mem).1.some

/-- A target that is not absolute, and no mark alone, is entered from where one is. -/
theorem resolve_relative {target : List Char} (relative : target.head? ≠ some '/')
    (unmarked : ∀ c ∈ target.head?, isMark c = false) :
    resolve current target =
      ofSegments ((target.splitOn '/').foldl enter (segments current)) := by
  rw [← splitBy_isSlash]
  unfold resolve
  split
  · exact absurd rfl relative
  · exact absurd (unmarked _ rfl) (by decide)
  · exact absurd (unmarked _ rfl) (by decide)
  · rfl

/-- The last segment of a path, empty behind a slash at its end. -/
def lastSegment (path : List Char) : List Char := (path.splitOn '/').getLastD []

/-- A target that leaves alone what it carries: it is absolute, or nothing in what it carries is a
step, and its own last segment is none, unless that is empty and leads to the root. -/
def Carries (current path suffix : List Char) : Prop :=
  path.head? = some '/' ∨
    (∀ s ∈ (suffix.splitOn '/').tail, IsPlain s) ∧
      (IsPlain (lastSegment path) ∨ lastSegment path = [] ∧ resolve current path = ['/'])

theorem isPlain_of_mark {c : Char} (mem : c ∈ s) (mark : isMark c = true) : IsPlain s := by
  refine ⟨?_, ?_, ?_⟩
  all_goals
    rintro rfl
    simp only [List.mem_cons, List.not_mem_nil, or_false, or_self] at mem
  all_goals
    subst mem
    exact absurd mark (by decide)

/-- What is entered on the way is what was carried exactly if nothing on the way is a step. -/
theorem foldl_enter_eq_carry_iff (plain : ∀ s ∈ reached, IsPlain s)
    (goes : IsPlain (last ++ first)) :
    more.foldl enter (enter reached (last ++ first)) = carry (enter reached last) first more ↔
      (∀ s ∈ more, IsPlain s) ∧ (IsPlain last ∨ last = [] ∧ enter reached last = []) := by
  rw [goes.enter]
  constructor
  · intro eq
    have further : ∀ s ∈ more, IsPlain s := by
      have start : ∀ s ∈ reached ++ [last ++ first], IsPlain s := fun s mem =>
        (List.mem_append.1 mem).elim (plain s) fun mem => List.mem_singleton.1 mem ▸ goes
      have all := isPlain_foldl_enter more start
      rw [eq] at all
      exact fun s mem => all s (List.mem_append_right _ (List.mem_cons_of_mem _ mem))
    refine ⟨further, ?_⟩
    rw [foldl_enter_plain further, List.append_assoc, List.singleton_append, carry] at eq
    have length := congrArg List.length eq
    simp only [List.length_append, List.length_dropLast, List.length_cons] at length
    by_cases stays : last = [] ∨ last = ['.']
    · -- nothing was entered, so nothing can stand before what is carried
      have same : enter reached last = reached := by rw [enter, if_pos stays]
      rw [same] at eq length ⊢
      have none : reached = [] := List.eq_nil_of_length_eq_zero (by omega)
      subst none
      have bare : last ++ first = first := (List.cons.inj eq).1
      exact .inr ⟨by simpa using bare, rfl⟩
    · by_cases leaves : last = ['.', '.']
      · have back : enter reached last = reached.dropLast := by
          rw [enter, if_neg stays, if_pos leaves]
        rw [back] at eq length
        rw [List.length_dropLast] at length
        have none : reached = [] := List.eq_nil_of_length_eq_zero (by omega)
        subst none
        have bare : last ++ first = first := (List.cons.inj eq).1
        have longer := congrArg List.length bare
        rw [leaves, List.length_append, List.length_cons] at longer
        omega
      · exact .inl ⟨fun eq => stays (.inl eq), fun eq => stays (.inr eq), leaves⟩
  · rintro ⟨further, goes' | ⟨rfl, root⟩⟩
    · rw [foldl_enter_plain further, goes'.enter, carry_concat]
      simp
    · have none : reached = [] := root
      subst none
      rw [foldl_enter_plain further]
      rfl

/-! ## Resolution -/

theorem head_mem_first {c : Char} (first? : suffix.head? = some c) (notSlash : c ≠ '/')
    (split : suffix.splitOn '/' = first :: more) : c ∈ first := by
  obtain ⟨rest, rfl⟩ := List.head?_eq_some_iff.1 first?
  obtain ⟨word, words, eq⟩ :=
    List.exists_cons_of_ne_nil (List.splitOnP_ne_nil (fun c : Char => c == '/') rest)
  rw [List.splitOn_eq_splitOnP, List.splitOnP_cons_eq_if_modifyHead,
    if_neg (by simpa using notSlash), eq, List.modifyHead_cons] at split
  cases split
  exact List.mem_cons_self

theorem slash_not_mem {cs : List Char} (mem : s ∈ cs.splitOn '/') : '/' ∉ s := by
  rw [List.splitOn_eq_splitOnP] at mem
  intro slash
  simpa using not_of_mem_splitOnP mem '/' slash

theorem ofSegments_eq_root_iff (plain : ∀ s ∈ list, IsPlain s) :
    ofSegments list = ['/'] ↔ list = [] := by
  constructor
  · intro eq
    cases list with
    | nil => rfl
    | cons first more =>
      have bare : List.intercalate ['/'] (first :: more) = [] := List.tail_eq_of_cons_eq eq
      have part := (infix_intercalate ['/'] (List.mem_cons_self (a := first) (l := more)))
      rw [bare] at part
      exact absurd (List.infix_nil.1 part) (plain first List.mem_cons_self).some
  · rintro rfl
    rfl

/-- A relative target leaves what it carries alone exactly if nothing of it is taken for a step. -/
theorem resolve_relative_append_iff (normal : IsPathname current) (some : path ≠ [])
    (relative : path.head? ≠ Option.some '/') (unmarked : ∀ c ∈ path, isMark c = false) {c : Char}
    (first? : suffix.head? = Option.some c) (mark : isMark c = true) :
    resolve current (path ++ suffix) = resolve current path ++ suffix ↔
      (∀ s ∈ (suffix.splitOn '/').tail, IsPlain s) ∧
        (IsPlain (lastSegment path) ∨ lastSegment path = [] ∧ resolve current path = ['/']) := by
  obtain ⟨list, segs, rfl⟩ := normal
  obtain ⟨before, last, first, more, split, split', joined⟩ := splitOn_append path suffix
  have notSlash : c ≠ '/' := by
    rintro rfl
    exact absurd mark (by decide)
  have mem := head_mem_first first? notSlash split'
  have goes : IsPlain (last ++ first) := isPlain_of_mark (List.mem_append_right _ mem) mark
  have start := segments_ofSegments fun s mem => ⟨(segs s mem).1, (segs s mem).2.1⟩
  have head : (path ++ suffix).head? = path.head? := List.head?_append_of_ne_nil path some
  have plainHead : ∀ c ∈ path.head?, isMark c = false := fun c mem =>
    unmarked c (List.mem_of_mem_head? mem)
  -- where one is before the last segment of the target
  generalize reached : before.foldl enter list = there
  have plain : ∀ s ∈ there, IsPlain s :=
    reached ▸ isPlain_foldl_enter before fun s mem => (segs s mem).1
  have whole : resolve (ofSegments list) path = ofSegments (enter there last) := by
    rw [resolve_relative relative plainHead, start, split, List.foldl_append, reached]
    rfl
  have further : resolve (ofSegments list) (path ++ suffix) =
      ofSegments (more.foldl enter (enter there (last ++ first))) := by
    rw [resolve_relative (head ▸ relative) (head ▸ plainHead), start, joined, List.foldl_append,
      reached]
    rfl
  have apart : ∀ s ∈ there, '/' ∉ s :=
    reached ▸ forall_mem_foldl_enter before (fun s mem => (segs s mem).2.1)
      fun s mem _ => slash_not_mem (split ▸ List.mem_append_left _ mem)
  have apart' : ∀ s ∈ enter there last, '/' ∉ s :=
    forall_mem_foldl_enter [last] apart
      fun s mem _ => slash_not_mem (split ▸ List.mem_append_right _ mem)
  have apart'' : ∀ s ∈ more.foldl enter (enter there (last ++ first)), '/' ∉ s :=
    forall_mem_foldl_enter ((last ++ first) :: more) apart
      fun s mem _ => slash_not_mem (joined ▸ List.mem_append_right _ mem)
  have root : ofSegments (enter there last) = ['/'] ↔ enter there last = [] :=
    ofSegments_eq_root_iff (isPlain_foldl_enter [last] plain)
  have final : lastSegment path = last := by simp [lastSegment, split]
  rw [whole, further, final, split', List.tail_cons, root,
    ofSegments_eq_append_iff apart'' apart' split' (List.ne_nil_of_mem mem),
    foldl_enter_eq_carry_iff plain goes]

/-! ## Queries and hashes -/

/-- What stands before the first mark does not count for the query and the hash. -/
theorem searchOf_append (unmarked : ∀ c ∈ path, isMark c = false) :
    searchOf (path ++ suffix) = searchOf suffix := by
  have dropped : (path ++ suffix).dropWhile (fun c => !isMark c) =
      suffix.dropWhile fun c => !isMark c :=
    List.dropWhile_append_of_pos (by simpa using unmarked)
  rw [searchOf, dropped, searchOf]

theorem hashOf_append (unmarked : ∀ c ∈ path, isMark c = false) :
    hashOf (path ++ suffix) = hashOf suffix := by
  have plain : ∀ c ∈ path, (c != '#') = true := by
    intro c mem
    simpa [isMark] using (by simpa [isMark] using unmarked c mem : c ≠ '?' ∧ c ≠ '#').2
  exact List.dropWhile_append_of_pos plain

/-- From a path without marks, a target without marks leads to one. -/
theorem unmarked_resolve (normal : IsPathname current) (unmarked : ∀ c ∈ path, isMark c = false) :
    ∀ c ∈ resolve current path, isMark c = false := by
  by_cases absolute : path.head? = Option.some '/'
  · obtain ⟨rest, rfl⟩ := List.head?_eq_some_iff.1 absolute
    exact unmarked
  obtain ⟨list, segs, rfl⟩ := normal
  rw [resolve_relative absolute fun c mem => unmarked c (List.mem_of_mem_head? mem),
    segments_ofSegments fun s mem => ⟨(segs s mem).1, (segs s mem).2.1⟩]
  have plain : ∀ s ∈ (path.splitOn '/').foldl enter list, ∀ c ∈ s, isMark c = false := by
    refine forall_mem_foldl_enter _ (fun s mem => (segs s mem).2.2) fun s mem _ c mem' => ?_
    have part := infix_intercalate ['/'] mem
    rw [List.intercalate_splitOn] at part
    exact unmarked c (part.subset mem')
  intro c mem
  by_cases slash : c = '/'
  · rw [slash]
    decide
  · have inside := (List.mem_cons.1 mem).resolve_left slash
    obtain ⟨front, behind, eq⟩ := List.append_of_mem inside
    have inner : [c] <:+: ['/'].intercalate ((path.splitOn '/').foldl enter list) :=
      ⟨front, behind, by simpa using eq.symm⟩
    obtain ⟨s, mem, part⟩ :=
      exists_infix_of_intercalate (by simpa using Ne.symm slash) (by simp) inner
    exact plain s mem c (part.subset (List.mem_singleton_self c))

/-- What a target carries behind a mark is left alone exactly if the target is absolute, or nothing
of it is taken for a step. Then the query and the hash are those that it carries. -/
theorem resolve_carries (normal : IsPathname current) (some : path ≠ [])
    (unmarked : ∀ c ∈ path, isMark c = false) (marked : suffix.head?.any isMark = true) :
    (resolve current (path ++ suffix) = resolve current path ++ suffix ↔
      Carries current path suffix) ∧
    (Carries current path suffix →
      searchOf (resolve current (path ++ suffix)) = searchOf suffix ∧
        hashOf (resolve current (path ++ suffix)) = hashOf suffix) := by
  have carried : resolve current (path ++ suffix) = resolve current path ++ suffix ↔
      Carries current path suffix := by
    obtain ⟨c, first?, mark⟩ := (Option.any_eq_true _ _).1 marked
    by_cases absolute : path.head? = Option.some '/'
    · obtain ⟨rest, rfl⟩ := List.head?_eq_some_iff.1 absolute
      exact ⟨fun _ => .inl rfl, fun _ => rfl⟩
    · rw [resolve_relative_append_iff normal some absolute unmarked first? mark, Carries,
        or_iff_right absolute]
  refine ⟨carried, fun carries => ?_⟩
  rw [carried.2 carries]
  have plain := unmarked_resolve normal unmarked
  exact ⟨searchOf_append plain, hashOf_append plain⟩

/-- A step up in the path, and slashes in the query and in the hash. -/
theorem resolve_carries_tab :
    let current := "/users/7".toList
    let path := "../8".toList
    let suffix := "?from=a/b#top/c".toList
    IsPathname current ∧ path ≠ [] ∧ (∀ c ∈ path, isMark c = false) ∧
      suffix.head?.any isMark = true ∧
      resolve current (path ++ suffix) = resolve current path ++ suffix ∧
      hashOf (resolve current (path ++ suffix)) = "#top/c".toList := by
  have plain : IsPlain "users".toList ∧ IsPlain "7".toList := by decide
  have normal : IsPathname "/users/7".toList :=
    ⟨["users".toList, "7".toList], by simpa [isMark] using plain, by decide⟩
  have unmarked : ∀ c ∈ "../8".toList, isMark c = false := by simp [isMark]
  have marked : "?from=a/b#top/c".toList.head?.any isMark = true := by decide
  have carries : Carries "/users/7".toList "../8".toList "?from=a/b#top/c".toList :=
    .inr ⟨by decide, .inl (by decide)⟩
  have resolved := resolve_carries normal (by decide) unmarked marked
  refine ⟨normal, by decide, unmarked, marked, resolved.1.2 carries, ?_⟩
  rw [(resolved.2 carries).2]
  decide

/-- A slash at the end of a query is lost, and so is a step up inside. -/
theorem not_resolve_carries_next :
    IsPathname "/".toList ∧
      resolve "/".toList ("login".toList ++ "?next=/home/".toList) = "/login?next=/home".toList ∧
      resolve "/".toList "login".toList ++ "?next=/home/".toList = "/login?next=/home/".toList :=
  ⟨⟨[], by decide, by decide⟩, by decide, by decide⟩

end TsxPreview.Navigation
