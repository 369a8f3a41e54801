import Mathlib.Order.Bounds.Basic
import TsxPreview.Proofs.Repair.Rearrangement

/-!
Which helpers are moved. The rounds start with all candidates and leave out those that something at
the top level uses; what is left out may use others. They end with the greatest set of candidates of
which nothing outside makes use, whatever the order of the chunks.
-/

namespace TsxPreview

namespace Scan

variable {s : Scan} {i j first last : Nat} {name : String}

theorem mentions_iff : s.mentions name first last = true ↔
    ∃ i, first ≤ i ∧ i ≤ last ∧ s.ident? i = some name := by
  unfold mentions anyIn
  rw [List.any_eq_true]
  simp only [List.mem_range'_1, beq_iff_eq]
  constructor
  · rintro ⟨i, ⟨start, stop⟩, named⟩
    exact ⟨i, start, by omega, named⟩
  · rintro ⟨i, start, stop, named⟩
    have lt : i < s.size := lt_size_of_ident? (by rw [named]; rfl)
    exact ⟨i, ⟨start, by omega⟩, named⟩

theorem ident?_of_isPunct {p : Punct} (h : s.isPunct i p = true) : s.ident? i = none := by
  rw [ident?, kind_of_isPunct h]

theorem ident?_of_matching? (h : s.matching? i = some j) : s.ident? j = none := by
  unfold matching? at h
  obtain ⟨closer, -, found⟩ := Option.bind_eq_some_iff.mp h
  obtain ⟨-, -, closes⟩ := findIn_spec found
  rw [Bool.and_eq_true] at closes
  exact ident?_of_isPunct closes.2

end Scan

namespace Repair

namespace Helpers

variable {s : Scan} {m : MainBody}

/-! ## What keeps a helper -/

/-- With some helpers moved, another one is used at the top level: by a chunk that stays there, or by
the main component outside its body. -/
inductive KeptBy (s : Scan) (m : MainBody) (moved : Set Helper) (h : Helper) : Prop where
  | chunk (c : Chunk) (mem : c ∈ s.chunks) (beside : c ≠ m.chunk) (stays : ∀ g ∈ moved, g.chunk ≠ c)
      (i : Nat) (first : c.first ≤ i) (last : i ≤ c.last) (named : s.ident? i = some h.name)
  | main (i : Nat) (first : m.chunk.first ≤ i) (last : i ≤ m.chunk.last)
      (outside : i ≤ m.openBrace ∨ m.closeBrace ≤ i) (named : s.ident? i = some h.name)

/-- The more helpers are moved, the less keeps one. -/
theorem KeptBy.anti {moved more : Set Helper} (sub : moved ⊆ more) {h : Helper}
    (kept : KeptBy s m more h) : KeptBy s m moved h := by
  cases kept with
  | chunk c mem beside stays i first last named =>
    exact .chunk c mem beside (fun g moved => stays g (sub moved)) i first last named
  | main i first last outside named => exact .main i first last outside named

theorem mem_staying {helpers : List Helper} {c : Chunk} :
    c ∈ staying m s.chunks helpers ↔
      c ∈ s.chunks ∧ c ≠ m.chunk ∧ ∀ g ∈ helpers, g.chunk ≠ c := by
  unfold staying
  simp [List.mem_filter]

theorem usedOutside_iff (main : mainBody? s s.chunks = some m) {helpers : List Helper} {h : Helper} :
    usedOutside s m (staying m s.chunks helpers) h = true ↔ KeptBy s m {g | g ∈ helpers} h := by
  obtain ⟨-, -, body, matched⟩ := mainBody?_spec main
  obtain ⟨within, near, brace⟩ := Scan.functionBody?_spec body
  obtain ⟨behind, -⟩ := Scan.matching?_spec matched
  -- the braces of the body are no names
  have opens := Scan.ident?_of_isPunct brace
  have closes := Scan.ident?_of_matching? matched
  unfold usedOutside
  simp only [Bool.or_eq_true, Bool.and_eq_true, decide_eq_true_eq, List.any_eq_true, mem_staying,
    Scan.mentions_iff]
  constructor
  · rintro ((⟨c, ⟨mem, beside, stays⟩, i, first, last, named⟩ | ⟨i, first, last, named⟩) |
      ⟨-, i, first, last, named⟩)
    · exact .chunk c mem beside stays i first last named
    · have ne : i ≠ m.openBrace := fun eq => by
        rw [eq, opens] at named
        cases named
      exact .main i first (by omega) (.inl last) named
    · exact .main i (by omega) last (.inr (by omega)) named
  · intro kept
    cases kept with
    | chunk c mem beside stays i first last named =>
      exact .inl (.inl ⟨c, ⟨mem, beside, stays⟩, i, first, last, named⟩)
    | main i first last outside named =>
      have ne : i ≠ m.closeBrace := fun eq => by
        rw [eq, closes] at named
        cases named
      rcases outside with before | behind
      · exact .inl (.inr ⟨i, first, before, named⟩)
      · exact .inr ⟨by omega, i, by omega, last, named⟩

/-! ## Admissible sets -/

/-- A set of candidates of which nothing outside it makes use. -/
structure Admissible (s : Scan) (m : MainBody) (moved : Set Helper) : Prop where
  candidates : ∀ h ∈ moved, h ∈ candidates s m s.chunks
  unused : ∀ h ∈ moved, ¬KeptBy s m moved h

/-- A round leaves out nothing of an admissible set. -/
theorem Admissible.subset_round {moved : Set Helper} (admissible : Admissible s m moved)
    (main : mainBody? s s.chunks = some m) {helpers : List Helper}
    (sub : moved ⊆ {h | h ∈ helpers}) : moved ⊆ {h | h ∈ round s m helpers} := by
  intro h mem
  have unused : usedOutside s m (staying m s.chunks helpers) h = false := by
    rw [Bool.eq_false_iff, ne_eq, usedOutside_iff main]
    exact fun kept => admissible.unused h mem (kept.anti sub)
  exact List.mem_filter.mpr ⟨sub mem, by rw [unused]; rfl⟩

namespace Rounds

variable {n : Nat} {helpers out : List Helper}

/-- No round leaves out anything of an admissible set. -/
theorem subset {moved : Set Helper} (rounds : Rounds s m n helpers out)
    (admissible : Admissible s m moved) (main : mainBody? s s.chunks = some m)
    (sub : moved ⊆ {h | h ∈ helpers}) : moved ⊆ {h | h ∈ out} := by
  induction rounds with
  | last => exact sub
  | more _ _ ih => exact ih (admissible.subset_round main sub)

/-- The rounds over all candidates end with the greatest admissible set, in whatever order they go
over the candidates. -/
theorem isGreatest (rounds : Rounds s m n helpers out) (main : mainBody? s s.chunks = some m)
    (all : ∀ h, h ∈ helpers ↔ h ∈ candidates s m s.chunks) :
    IsGreatest {moved | Admissible s m moved} {h | h ∈ out} where
  left := {
    candidates := fun h mem => (all h).mp (rounds.sublist.subset mem)
    unused := fun h mem kept => by
      rw [← usedOutside_iff main, rounds.not_usedOutside h mem] at kept
      exact Bool.false_ne_true kept }
  right _ admissible :=
    rounds.subset admissible main fun h mem => (all h).mpr (admissible.candidates h mem)

end Rounds

/-- In which ways the text can be revised when these helpers are to be moved. The refusal names them
too. -/
inductive Moves (text : String) (m : MainBody) : List Helper → Revision → Prop where
  | nothing : Moves text m [] .unchanged
  | applied {helpers : List Helper} (some : helpers ≠ []) :
      Moves text m helpers (.applied (String.ofList (rearranged text m helpers))
        (.nestedHelpers (helpers.map Helper.name)))
  | refused {helpers : List Helper} (some : helpers ≠ []) (before after : Census) :
      Moves text m helpers (.refused (.helpers before after (helpers.map Helper.name)))

theorem moves_revision (text : String) (m : MainBody) :
    Moves text m (moved text m) (revision text m) := by
  unfold revision
  dsimp only
  split
  · rename_i none
    rw [List.isEmpty_iff.mp none]
    exact .nothing
  · rename_i some
    have some : moved text m ≠ [] := fun none => some (List.isEmpty_iff.mpr none)
    split
    · exact .applied some
    · exact .refused some _ _

end Helpers

/-- For every text with a main component the rounds over the candidates come to an end. They leave
the greatest set of candidates of which nothing at the top level outside the set and the component
makes use, nor the component outside its body. These are moved, in the order of the text. -/
theorem nestHelpers_greatest (text : String) :
    let s := Scan.ofText text
    match Helpers.mainBody? s s.chunks with
    | none => nestHelpers text = .unchanged
    | some m =>
      let candidates := Helpers.candidates s m s.chunks
      ∃ n helpers, n ≤ candidates.length + 1 ∧ Helpers.Rounds s m n candidates helpers ∧
        helpers.Sublist candidates ∧
        IsGreatest {moved | Helpers.Admissible s m moved} {h | h ∈ helpers} ∧
        Helpers.Moves text m helpers (nestHelpers text) := by
  dsimp only
  rw [nestHelpers_eq]
  split
  · rename_i main
    rw [main, Option.elim_none]
  · rename_i m main
    obtain ⟨n, rounds⟩ := Helpers.rounds_moved text m
    rw [main, Option.elim_some]
    exact ⟨n, Helpers.moved text m, rounds.le, rounds, rounds.sublist,
      rounds.isGreatest main fun _ => Iff.rfl, Helpers.moves_revision text m⟩

/-- `row` is used by `list` alone and goes with it. `even` and `odd` use each other, so both stay
for the sake of one. -/
example :
    let lists := "const row = () => 1;\nconst list = () => row();\n"
    let cycle := "const even = () => odd();\nconst odd = () => even();\nconst start = even();\n"
    let main := "export default () => \x7b return list() + row() + even() + odd(); \x7d\n"
    let text := lists ++ cycle ++ main
    let s := Scan.ofText text
    (Helpers.mainBody? s s.chunks).map (fun m => (Helpers.moved text m).map Helpers.Helper.name) =
      some ["row", "list"] := by
  decide +kernel

end Repair

end TsxPreview
