import TsxPreview.Project
import TsxPreview.Proofs.Sorted
import TsxPreview.Proofs.Splitting

/-!
Paths and projects. What a path names is its segments, from the root on; its normal form spells them
out, and nothing else. The entry of a project that can be built is one of its files.
-/

namespace TsxPreview

namespace Path

open Splitting

variable {s path : List Char} {list reached : List (List Char)}

theorem splitBy_eq (p : Char → Bool) (cs : List Char) : splitBy p cs = cs.splitOnP p := by
  induction cs with
  | nil => rfl
  | cons c cs ih =>
    obtain ⟨word, words, split⟩ := List.exists_cons_of_ne_nil (List.splitOnP_ne_nil p cs)
    rw [splitBy, ih, List.splitOnP_cons_eq_if_modifyHead, split, List.modifyHead_cons]

/-! ## Segments -/

/-- A segment that is entered by going one step down. -/
structure IsPlain (s : List Char) : Prop where
  some : s ≠ []
  notHere : s ≠ ['.']
  notUp : s ≠ ['.', '.']

instance : DecidablePred IsPlain := fun s =>
  decidable_of_iff (s ≠ [] ∧ s ≠ ['.'] ∧ s ≠ ['.', '.'])
    ⟨fun h => ⟨h.1, h.2.1, h.2.2⟩, fun h => ⟨h.some, h.notHere, h.notUp⟩⟩

theorem IsPlain.enter (h : IsPlain s) (reached : List (List Char)) :
    enter reached s = reached ++ [s] := by
  rw [Path.enter, if_neg (by simp [h.some, h.notHere]), if_neg h.notUp]

theorem foldl_enter_plain (h : ∀ s ∈ list, IsPlain s) (reached : List (List Char)) :
    list.foldl enter reached = reached ++ list := by
  induction list generalizing reached with
  | nil => simp
  | cons s list ih =>
    obtain ⟨here, later⟩ := List.forall_mem_cons.1 h
    rw [List.foldl_cons, here.enter, ih later, List.append_assoc, List.singleton_append]

/-- What holds of the segments before and of those that are entered holds of all in the end. -/
theorem forall_mem_foldl_enter {P : List Char → Prop} (list : List (List Char))
    (h : ∀ t ∈ reached, P t) (h' : ∀ t ∈ list, IsPlain t → P t) :
    ∀ t ∈ list.foldl enter reached, P t := by
  induction list generalizing reached with
  | nil => exact h
  | cons s list ih =>
    obtain ⟨here, later⟩ := List.forall_mem_cons.1 h'
    refine ih (fun t mem => ?_) later
    unfold enter at mem
    split_ifs at mem with stays leaves
    · exact h t mem
    · exact h t (List.dropLast_subset reached mem)
    · obtain ⟨some, notHere⟩ := not_or.1 stays
      rcases List.mem_append.1 mem with mem | mem
      · exact h t mem
      · rw [List.mem_singleton.1 mem]
        exact here ⟨some, notHere, leaves⟩

/-- What stands between the slashes of a normal path: neither nothing nor a step, and no
separator. -/
structure IsSegment (s : List Char) : Prop where
  some : s ≠ []
  notHere : s ≠ ['.']
  notUp : s ≠ ['.', '.']
  unseparated : ∀ c ∈ s, isSeparator c = false

theorem IsSegment.plain (h : IsSegment s) : IsPlain s := ⟨h.some, h.notHere, h.notUp⟩

theorem isSegment_segments (path : List Char) : ∀ s ∈ segments path, IsSegment s := by
  refine forall_mem_foldl_enter _ (by simp) fun s mem plain => ?_
  rw [splitBy_eq] at mem
  exact ⟨plain.some, plain.notHere, plain.notUp, not_of_mem_splitOnP mem⟩

/-- Segments are found again in what is spelled from them. -/
theorem segments_ofSegments (h : ∀ s ∈ list, IsSegment s) : segments (ofSegments list) = list := by
  rw [segments, splitBy_eq, ofSegments, List.splitOnP_cons_eq_if_modifyHead, if_pos (by decide)]
  cases list with
  | nil => rfl
  | cons first more =>
    rw [splitOnP_intercalate (by decide) (fun s mem => (h s mem).unseparated) (by simp)]
    show List.foldl enter [] (first :: more) = _
    rw [foldl_enter_plain fun s mem => (h s mem).plain, List.nil_append]

/-! ## Normal forms -/

/-- A slash, and segments with one slash between each two. -/
def IsNormal (path : String) : Prop :=
  ∃ list, (∀ s ∈ list, IsSegment s) ∧ path.toList = ofSegments list

theorem isNormal_normalizePath (path : String) : IsNormal (normalizePath path) :=
  ⟨segments path.toList, isSegment_segments _, String.toList_ofList⟩

theorem IsNormal.normalizePath_eq {path : String} (h : IsNormal path) :
    normalizePath path = path := by
  obtain ⟨list, segs, spelled⟩ := h
  rw [normalizePath, spelled, segments_ofSegments segs, ← spelled, String.ofList_toList]

theorem normalizePath_eq_self_iff {path : String} : normalizePath path = path ↔ IsNormal path :=
  ⟨fun h => h ▸ isNormal_normalizePath path, IsNormal.normalizePath_eq⟩

/-- A normal path goes on being normal with something behind it that is too long for a step. -/
theorem isNormal_append {path suffix : String} (h : IsNormal path) (long : 2 < suffix.toList.length)
    (unseparated : ∀ c ∈ suffix.toList, isSeparator c = false) : IsNormal (path ++ suffix) := by
  have segment {s : List Char} (plain : ∀ c ∈ s, isSeparator c = false) :
      IsSegment (s ++ suffix.toList) := by
    have length : 2 < (s ++ suffix.toList).length := by
      rw [List.length_append]
      omega
    refine ⟨fun eq => ?_, fun eq => ?_, fun eq => ?_, fun c mem => ?_⟩
    · exact absurd (eq ▸ length) (by decide)
    · exact absurd (eq ▸ length) (by decide)
    · exact absurd (eq ▸ length) (by decide)
    · rcases List.mem_append.1 mem with mem | mem
      · exact plain c mem
      · exact unseparated c mem
  obtain ⟨list, segs, spelled⟩ := h
  rcases List.eq_nil_or_concat list with rfl | ⟨front, last, rfl⟩
  · refine ⟨[suffix.toList], ?_, ?_⟩
    · simpa using segment (s := []) (by simp)
    · simp [spelled, ofSegments]
  · rw [List.concat_eq_append] at segs spelled
    refine ⟨front ++ [last ++ suffix.toList], fun s mem => ?_, ?_⟩
    · rcases List.mem_append.1 mem with mem | mem
      · exact segs s (List.mem_append_left _ mem)
      · rw [List.mem_singleton.1 mem]
        exact segment (segs last (by simp)).unseparated
    · rw [String.toList_append, spelled, ofSegments, ofSegments, intercalate_concat,
        intercalate_concat]
      simp

/-! ## Joined paths -/

theorem segments_normalizePath (path : String) :
    segments (normalizePath path).toList = segments path.toList := by
  rw [normalizePath, String.toList_ofList, segments_ofSegments (isSegment_segments _)]

/-- What stands behind a slash goes on from the segments before it. -/
theorem segments_append_slash (front behind : List Char) :
    segments (front ++ '/' :: behind) =
      (splitBy isSeparator behind).foldl enter (segments front) := by
  have slash : isSeparator '/' = true := by decide
  simp only [segments, splitBy_eq, List.splitOnP_append_cons front behind slash, List.foldl_append]

/-- Normal forms are reached in one step, and a path may be put into normal form before or after
another is joined to it. -/
theorem normalizePath_composes :
    (∀ path, IsNormal (normalizePath path) ∧
      normalizePath (normalizePath path) = normalizePath path) ∧
    ∀ front behind, normalizePath (normalizePath front ++ "/" ++ behind) =
      normalizePath (front ++ "/" ++ behind) := by
  constructor
  · intro path
    have normal := isNormal_normalizePath path
    exact ⟨normal, normal.normalizePath_eq⟩
  · intro front behind
    have joined (path : String) :
        segments (path ++ "/" ++ behind).toList =
          (splitBy isSeparator behind.toList).foldl enter (segments path.toList) := by
      rw [← segments_append_slash]
      simp
    rw [normalizePath, joined, segments_normalizePath, ← joined, ← normalizePath]

/-- Steps up at the join, backslashes and repeated slashes. -/
example : normalizePath (normalizePath "src\\\\a/./b" ++ "/" ++ "../../c/") = "/src/c" := by
  decide +kernel

end Path

/-! ## Projects -/

namespace Project

/-- A project that the constructors make. -/
inductive Built : Project → Prop where
  | ofFiles {files : List (String × String)} {entry : String} {p : Project}
      (h : ofFiles files entry = .ok p) : Built p
  | single (path text : String) : Built (single path text)
  | set {p : Project} (h : Built p) (path text : String) : Built (p.set path text)
  | withEntry {p q : Project} (h : Built p) {entry : String} (eq : p.withEntry entry = .ok q) :
      Built q

/-- What succeeds has succeeded step by step. -/
theorem exists_of_bind_eq_ok {ε α β : Type} {x : Except ε α} {f : α → Except ε β} {b : β}
    (h : x >>= f = .ok b) : ∃ a, x = .ok a ∧ f a = .ok b := by
  cases x with
  | error e => cases h
  | ok a => exact ⟨a, rfl, h⟩

theorem isSome_lookup_findEntry {files : List (String × String)} {entry path : String}
    (h : findEntry files entry = .ok path) : (files.lookup path).isSome = true := by
  unfold findEntry at h
  dsimp only at h
  split at h
  · rename_i found some
    cases h
    have holds := List.find?_some some
    exact holds
  · cases h

theorem contains_set (p : Project) (path text : String) {other : String}
    (h : p.contains other = true) : (p.set path text).contains other = true := by
  unfold contains get? set at *
  rw [lookup_insertSorted]
  split
  · rfl
  · exact h

theorem Built.contains_entry {p : Project} (h : p.Built) : p.contains p.entry = true := by
  induction h with
  | @ofFiles files entry p h =>
    obtain ⟨all, -, h⟩ := exists_of_bind_eq_ok h
    dsimp only at h
    split at h
    · cases h
    · obtain ⟨path, found, h⟩ := exists_of_bind_eq_ok h
      cases h
      exact isSome_lookup_findEntry found
  | single path text =>
    show (List.lookup (normalizePath path) [(normalizePath path, text)]).isSome = true
    rw [List.lookup_cons_self]
    rfl
  | set h path text ih => exact contains_set _ path text ih
  | @withEntry p q h entry eq ih =>
    obtain ⟨path, found, eq⟩ := exists_of_bind_eq_ok eq
    cases eq
    exact isSome_lookup_findEntry found

end Project

end TsxPreview
