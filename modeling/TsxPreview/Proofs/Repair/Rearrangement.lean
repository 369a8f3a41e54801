import TsxPreview.Proofs.Repair.Nesting
import TsxPreview.Proofs.Repair.Splicing
import TsxPreview.Syntax.Parser
import TsxPreview.Syntax.Printer

/-!
What moving helpers makes of a text. The helpers stand before or behind the main component, and the
ranges that go do not reach across the brace that opens its body. So the new text is the old one
with the helpers cut out and put behind that brace, and only white space is lost. The pass goes by
tokens: neither does it look whether a helper is a whole statement, nor at the names that it uses.
-/

namespace TsxPreview

namespace Scan

variable {text : String} {s : Scan} {c : Chunk} {i j : Nat}

/-- Of two chunks, one comes before the other. -/
theorem chunks_apart {a b : Chunk} (ha : a ∈ s.chunks) (hb : b ∈ s.chunks) (ne : a ≠ b) :
    a.last < b.first ∨ b.last < a.first := by
  have symm : Std.Symm fun a b : Chunk => a ≠ b → a.last < b.first ∨ b.last < a.first :=
    ⟨fun _ _ h ne => (h ne.symm).symm⟩
  have apart : s.chunks.Pairwise fun a b => a ≠ b → a.last < b.first ∨ b.last < a.first :=
    s.chunks_spec.2.imp fun lt _ => Or.inl lt
  exact apart.forall_of_forall (fun _ _ ne => absurd rfl ne) ha hb ne

theorem declaredBody?_spec {level last : Nat} (h : s.declaredBody? level last i = some j) :
    i < j ∧ j ≤ last ∧ s.isPunct j .lBrace = true := by
  obtain ⟨params, hp, h⟩ := Option.bind_eq_some_iff.mp h
  obtain ⟨close, hc, h⟩ := Option.bind_eq_some_iff.mp h
  obtain ⟨after, -, -⟩ := findIn_spec hp
  obtain ⟨behind, -⟩ := matching?_spec hc
  obtain ⟨start, stop, p⟩ := findIn_spec h
  rw [Bool.and_eq_true] at p
  exact ⟨by omega, stop, p.2⟩

/-- The brace that opens the body of a function stands in the chunk, or right behind it. -/
theorem functionBody?_spec (h : s.functionBody? c = some j) :
    c.first ≤ j ∧ j ≤ c.last + 1 ∧ s.isPunct j .lBrace = true := by
  obtain ⟨i, hi, h⟩ := Option.bind_eq_some_iff.mp h
  obtain ⟨start, stop, -⟩ := findIn_spec hi
  split at h
  · obtain ⟨after, before, brace⟩ := declaredBody?_spec h
    exact ⟨by omega, by omega, brace⟩
  · split at h
    · rename_i brace
      cases h
      exact ⟨by omega, by omega, brace⟩
    · cases h

end Scan

namespace Repair

namespace Helpers

/-! ## The main component and the helpers beside it -/

variable {s : Scan} {m : MainBody}

theorem bodyOf?_spec {c : Chunk} (h : bodyOf? s c = some m) :
    m.chunk = c ∧ s.functionBody? c = some m.openBrace ∧
      s.matching? m.openBrace = some m.closeBrace := by
  obtain ⟨start, body, h⟩ := Option.bind_eq_some_iff.mp h
  obtain ⟨close, closes, h⟩ := Option.bind_eq_some_iff.mp h
  cases h
  exact ⟨rfl, body, closes⟩

theorem exists_keyword_of_declares {k : TokenKind} (h : k.isDeclarationKeyword = true) :
    ∃ word, k = .keyword word := by
  unfold TokenKind.isDeclarationKeyword at h
  split at h
  · exact ⟨_, rfl⟩
  · cases h

/-- The main component is a chunk that starts with a keyword and has a body. -/
theorem mainBody?_spec {chunks : List Chunk} (h : mainBody? s chunks = some m) :
    m.chunk ∈ chunks ∧ (∃ word, s.kind m.chunk.first = .keyword word) ∧
      s.functionBody? m.chunk = some m.openBrace ∧
        s.matching? m.openBrace = some m.closeBrace := by
  obtain ⟨c, found, h⟩ := Option.bind_eq_some_iff.mp h
  split at h
  -- the default export is the component
  · rename_i body here
    cases h
    obtain ⟨rfl, body, closes⟩ := bodyOf?_spec here
    have exported : isDefaultExport s m.chunk = true := List.find?_some found
    rw [isDefaultExport, Bool.and_eq_true] at exported
    exact ⟨List.mem_of_find?_eq_some found, ⟨_, Scan.kind_of_isKeyword exported.1⟩, body, closes⟩
  -- it names the component
  · obtain ⟨name, -, h⟩ := Option.bind_eq_some_iff.mp h
    obtain ⟨c', found', h⟩ := Option.bind_eq_some_iff.mp h
    obtain ⟨rfl, body, closes⟩ := bodyOf?_spec h
    have declares := List.find?_some found'
    have declares : declared? s m.chunk = some name := eq_of_beq declares
    unfold declared? at declares
    split at declares
    · rename_i keyword
      exact ⟨List.mem_of_find?_eq_some found', exists_keyword_of_declares keyword, body, closes⟩
    · cases declares

/-- A candidate is another chunk than the main component. Its name is used in the body, and not
declared there. -/
theorem mem_candidates {chunks : List Chunk} {h : Helper} (mem : h ∈ candidates s m chunks) :
    h.chunk ∈ chunks ∧ h.chunk ≠ m.chunk ∧ helperName? s h.chunk = some h.name ∧
      s.mentions h.name (m.openBrace + 1) (m.closeBrace - 1) = true ∧
        declaredInBody s m h.name = false := by
  obtain ⟨c, hc, found⟩ := List.mem_filterMap.mp mem
  obtain ⟨name, named, found⟩ := Option.bind_eq_some_iff.mp found
  obtain ⟨mentioned, found⟩ := of_guard_bind found
  obtain ⟨undeclared, found⟩ := of_guard_bind found
  cases found
  rw [List.mem_filter, bne_iff_ne] at hc
  exact ⟨hc.1, hc.2, named, mentioned, by simpa using undeclared⟩

/-- The helpers that are moved into a component. -/
def moved (text : String) (m : MainBody) : List Helper :=
  let s := Scan.ofText text
  let found := candidates s m s.chunks
  movable s m s.chunks (found.length + 1) found

theorem rounds_moved (text : String) (m : MainBody) :
    let s := Scan.ofText text
    ∃ n, Rounds s m n (candidates s m s.chunks) (moved text m) :=
  rounds_movable (Nat.lt_succ_self _)

theorem moved_sublist (text : String) (m : MainBody) :
    (moved text m).Sublist (candidates (Scan.ofText text) m (Scan.ofText text).chunks) :=
  (rounds_moved text m).elim fun _ rounds => rounds.sublist

/-- Helpers that stand before or behind the main component of a text. -/
structure Beside (text : String) (m : MainBody) (helpers : List Helper) : Prop
    extends InOrder (Scan.ofText text) helpers where
  main : mainBody? (Scan.ofText text) (Scan.ofText text).chunks = some m
  apart : ∀ h ∈ helpers, h.chunk.last < m.chunk.first ∨ m.chunk.last < h.chunk.first

theorem beside_moved {text : String}
    (main : mainBody? (Scan.ofText text) (Scan.ofText text).chunks = some m) :
    Beside text m (moved text m) where
  toInOrder := (candidates_inOrder _ m).sublist (moved_sublist text m)
  main := main
  apart := by
    intro h mem
    obtain ⟨chunk, ne, -⟩ := mem_candidates ((moved_sublist text m).subset mem)
    exact Scan.chunks_apart chunk (mainBody?_spec main).1 ne

/-! ## The rearranged text -/

/-- A helper stands before the main component. -/
def precedes (m : MainBody) (h : Helper) : Bool := h.chunk.last < m.chunk.first

/-- The helpers are cut out of the text. They are put, each behind a line feed, where the brace ends
that opens the body. -/
def rearranged (text : String) (m : MainBody) (helpers : List Helper) : List Char :=
  let brace := (Scan.ofText text).hi m.openBrace
  let front := (helpers.filter (precedes m)).map (removalOf text)
  let back := (helpers.filter fun h => !precedes m h).map (removalOf text)
  Edit.splice text.toList brace 0 front ++ (helpers.flatMap fun h => '\n' :: sourceOf text h)
    ++ Edit.splice text.toList (byteLength text.toList) brace back

/-- The edits that move the helpers, in the order of the text. -/
def editsInOrder (text : String) (m : MainBody) (helpers : List Helper) : List Edit :=
  (helpers.filter (precedes m)).map (removalOf text)
    ++ Edit.insertAt ((Scan.ofText text).hi m.openBrace)
        (helpers.flatMap fun h => '\n' :: sourceOf text h)
      :: (helpers.filter fun h => !precedes m h).map (removalOf text)

theorem editsInOrder_perm (text : String) (m : MainBody) (helpers : List Helper) :
    (editsInOrder text m helpers).Perm (edits text m helpers) := by
  have parts := (List.filter_append_perm (precedes m) helpers).map (removalOf text)
  rw [List.map_append] at parts
  exact List.perm_middle.trans ((parts.cons _).trans (List.perm_append_singleton _ _).symm)

namespace Beside

variable {text : String} {helpers : List Helper} {h : Helper}

theorem behind (b : Beside text m helpers) (mem : h ∈ helpers) (not : precedes m h = false) :
    m.chunk.last < h.chunk.first := by
  refine (b.apart h mem).resolve_left fun lt => ?_
  rw [precedes, decide_eq_false_iff_not] at not
  exact not lt

theorem openBrace (b : Beside text m helpers) :
    m.chunk.first ≤ m.openBrace ∧ m.openBrace ≤ m.chunk.last + 1 ∧
      (Scan.ofText text).isPunct m.openBrace .lBrace = true :=
  Scan.functionBody?_spec (mainBody?_spec b.main).2.2.1

/-- A helper before the component is removed before the brace. -/
theorem removalOf_hi_le (b : Beside text m helpers) (lt : h.chunk.last < m.chunk.first) :
    (removalOf text h).hi ≤ (Scan.ofText text).hi m.openBrace := by
  obtain ⟨word, keyword⟩ := (mainBody?_spec b.main).2.1
  obtain ⟨first, -, brace⟩ := b.openBrace
  have size := Scan.lt_size_of_isPunct brace
  have inside := Nat.lt_of_le_of_lt first size
  have removed := Scan.wholeLines_ordered lt inside keyword
    ((Scan.ofText text).lo h.chunk.first) ((Scan.ofText text).hi m.chunk.first)
  have widened := Edit.wholeLines_spec (Scan.boundary_lo text m.chunk.first)
    (Scan.boundary_hi text m.chunk.first)
  calc (removalOf text h).hi
      ≤ (Edit.wholeLines text.toList ((Scan.ofText text).lo m.chunk.first)
          ((Scan.ofText text).hi m.chunk.first)).1 := removed
    _ ≤ (Scan.ofText text).lo m.chunk.first := widened.2.2.1
    _ ≤ (Scan.ofText text).hi m.chunk.first := Scan.lo_le_hi text m.chunk.first
    _ ≤ (Scan.ofText text).hi m.openBrace := Scan.hi_le_hi first size

/-- A helper behind the component is removed behind the brace. -/
theorem le_removalOf_lo (b : Beside text m helpers) (mem : h ∈ helpers)
    (lt : m.chunk.last < h.chunk.first) :
    (Scan.ofText text).hi m.openBrace ≤ (removalOf text h).lo := by
  obtain ⟨word, keyword⟩ := exists_keyword_of_declares (b.declared h mem)
  obtain ⟨-, last, brace⟩ := b.openBrace
  have inside := Nat.lt_of_le_of_lt (b.inside h mem).1 (b.inside h mem).2
  -- the helper does not start with the brace
  have before : m.openBrace < h.chunk.first := by
    refine Nat.lt_of_le_of_ne (by omega) fun eq => ?_
    rw [Scan.isPunct, eq, keyword] at brace
    cases brace
  have removed := Scan.wholeLines_ordered before inside keyword
    ((Scan.ofText text).lo m.openBrace) ((Scan.ofText text).hi h.chunk.last)
  have widened := Edit.wholeLines_spec (Scan.boundary_lo text m.openBrace)
    (Scan.boundary_hi text m.openBrace)
  exact Nat.le_trans widened.2.2.2 removed

theorem removalOf_lt (b : Beside text m helpers) (mem : h ∈ helpers) :
    (removalOf text h).lo < (removalOf text h).hi := by
  obtain ⟨le, size⟩ := b.inside h mem
  have widened := Edit.wholeLines_spec (Scan.boundary_lo text h.chunk.first)
    (Scan.boundary_hi text h.chunk.last)
  calc (removalOf text h).lo
      ≤ (Scan.ofText text).lo h.chunk.first := widened.2.2.1
    _ < (Scan.ofText text).hi h.chunk.first := Scan.lo_lt_hi (Nat.lt_of_le_of_lt le size)
    _ ≤ (Scan.ofText text).hi h.chunk.last := Scan.hi_le_hi le size
    _ ≤ (removalOf text h).hi := widened.2.2.2

theorem fits (b : Beside text m helpers) (e : Edit) (mem : e ∈ editsInOrder text m helpers) :
    e.Fits text.toList :=
  b.edits_fits m e ((editsInOrder_perm text m helpers).subset mem)

/-- The removals of helpers do not reach into each other. -/
theorem removals_precede (b : Beside text m helpers) {some : List Helper}
    (sub : some.Sublist helpers) : (some.map (removalOf text)).Pairwise Edit.Precedes := by
  rw [List.pairwise_map]
  refine (b.ordered.sublist sub).imp_of_mem fun {x y} hx hy lt => ?_
  have mem := sub.subset hy
  have before := removalOf_ordered lt
    (Nat.lt_of_le_of_lt (b.inside y mem).1 (b.inside y mem).2) (b.declared y mem)
  have first := b.removalOf_lt (sub.subset hx)
  have second := b.removalOf_lt mem
  exact ⟨before, by omega⟩

theorem chain (b : Beside text m helpers) :
    Edit.Chain text.toList 0 (editsInOrder text m helpers) where
  start := .zero _
  fits := b.fits
  behind _ _ := Nat.zero_le _
  order := by
    have front (x : Helper) (hx : x ∈ helpers.filter (precedes m)) :
        x ∈ helpers ∧ x.chunk.last < m.chunk.first := by
      rw [List.mem_filter, precedes, decide_eq_true_eq] at hx
      exact hx
    have back (x : Helper) (hx : x ∈ helpers.filter fun h => !precedes m h) :
        x ∈ helpers ∧ m.chunk.last < x.chunk.first := by
      rw [List.mem_filter, Bool.not_eq_true'] at hx
      exact ⟨hx.1, b.behind hx.1 hx.2⟩
    refine List.pairwise_append.mpr ⟨b.removals_precede List.filter_sublist,
      List.pairwise_cons.mpr ⟨?_, b.removals_precede List.filter_sublist⟩, ?_⟩
    -- the insertion comes before the removals behind the component
    · intro e he
      obtain ⟨x, hx, rfl⟩ := List.mem_map.mp he
      obtain ⟨mem, lt⟩ := back x hx
      have after := b.le_removalOf_lo mem lt
      have some := b.removalOf_lt mem
      exact ⟨after, Nat.lt_of_le_of_lt after some⟩
    · intro e he e' he'
      obtain ⟨x, hx, rfl⟩ := List.mem_map.mp he
      obtain ⟨mem, lt⟩ := front x hx
      have before := b.removalOf_hi_le lt
      have some := b.removalOf_lt mem
      rcases List.mem_cons.mp he' with rfl | he'
      · exact ⟨before, Nat.lt_of_lt_of_le some before⟩
      · obtain ⟨y, hy, rfl⟩ := List.mem_map.mp he'
        obtain ⟨mem', lt'⟩ := back y hy
        have after := b.le_removalOf_lo mem' lt'
        have some' := b.removalOf_lt mem'
        exact ⟨Nat.le_trans before after, by omega⟩

/-- No edit is dropped: the text is rearranged. -/
theorem nested_eq (b : Beside text m helpers) :
    nested text.toList (Scan.ofText text) m helpers = rearranged text m helpers := by
  rw [Helpers.nested_eq, Edit.applyAll_eq_splice (editsInOrder_perm text m helpers) b.chain,
    editsInOrder, Edit.splice_append]
  rfl

/-- Nothing but white space is lost or gained. -/
theorem solids_rearranged (b : Beside text m helpers) :
    (solids (rearranged text m helpers)).Perm (solids text.toList) := by
  rw [← b.nested_eq, Helpers.nested_eq]
  refine Edit.solids_applyAll (editsInOrder_perm text m helpers) b.chain ?_
  rw [text_edits, slice_edits, solids_flatMap_congr fun h mem => ?_]
  have inside := b.inside h mem
  have source : solids ('\n' :: sourceOf text h) = solids (sourceOf text h) := rfl
  rw [source]
  exact (Edit.solids_removeLines (Scan.boundary_lo _ _) (Scan.boundary_hi _ _)
    (lo_le_hi_of_chunk inside)).symm

end Beside

end Helpers

/-- The revision that moves helpers into a component. -/
def Helpers.revision (text : String) (m : MainBody) : Revision :=
  let helpers := moved text m
  if helpers.isEmpty then .unchanged
  else
    let result := String.ofList (rearranged text m helpers)
    let names := helpers.map Helper.name
    let before := Census.ofText text
    let after := Census.ofText result
    if after.total = before.total ∧ after.topLevel + names.length = before.topLevel then
      .applied result (.nestedHelpers names)
    else .refused (.helpers before after names)

theorem nestHelpers_eq (text : String) :
    nestHelpers text =
      (Helpers.mainBody? (Scan.ofText text) (Scan.ofText text).chunks).elim .unchanged
        (Helpers.revision text) := by
  unfold nestHelpers
  dsimp only
  split
  · rename_i main
    rw [main]
    rfl
  · rename_i m main
    rw [main]
    dsimp only [Option.elim, Helpers.revision]
    rw [← (Helpers.beside_moved main).nested_eq]
    rfl

/-- A revision that was made moved some helpers into the main component. -/
theorem nestHelpers_applied {text result : String} {fix : Fix}
    (h : nestHelpers text = .applied result fix) :
    ∃ m, Helpers.Beside text m (Helpers.moved text m) ∧ Helpers.moved text m ≠ [] ∧
      result = String.ofList (Helpers.rearranged text m (Helpers.moved text m)) ∧
        fix = .nestedHelpers ((Helpers.moved text m).map Helpers.Helper.name) := by
  rw [nestHelpers_eq] at h
  cases main : Helpers.mainBody? (Scan.ofText text) (Scan.ofText text).chunks with
  | none =>
    rw [main] at h
    cases h
  | some m =>
    rw [main] at h
    dsimp only [Option.elim, Helpers.revision] at h
    split at h
    · cases h
    · rename_i some
      split at h
      · rw [Revision.applied.injEq] at h
        obtain ⟨rfl, rfl⟩ := h
        exact ⟨m, Helpers.beside_moved main, by simpa using some, rfl, rfl⟩
      · cases h

/-- What is made of a text: some chunks beside the main component are cut out and put, in their
order and as they are, behind the brace that opens its body. All else stays in its order, and what is
not white space is the same in all. -/
theorem nestHelpers_rearranges {text result : String} {fix : Fix}
    (h : nestHelpers text = .applied result fix) :
    ∃ m helpers, Helpers.Beside text m helpers ∧ helpers ≠ [] ∧
      fix = .nestedHelpers (helpers.map Helpers.Helper.name) ∧
      result.toList = Helpers.rearranged text m helpers ∧
      (solids result.toList).Perm (solids text.toList) := by
  obtain ⟨m, beside, some, rfl, rfl⟩ := nestHelpers_applied h
  rw [String.toList_ofList]
  exact ⟨m, _, beside, some, rfl, rfl, beside.solids_rearranged⟩

/-- The chunks are no statements for the parser. A helper that ends with its line runs into what
follows on the line of the brace. -/
theorem nestHelpers_not_read :
    let helper := "const title = () => \"Hi\""
    let text := helper ++ "\nexport default function App() \x7b return title(); \x7d\n"
    let result := "export default function App() \x7b\n" ++ helper ++ " return title(); \x7d\n"
    nestHelpers text = .applied result (.nestedHelpers ["title"]) ∧
      (Parsed.ofFile ⟨"/App.tsx", text⟩).module?.isSome ∧
      (Parsed.ofFile ⟨"/App.tsx", result⟩).module?.isNone := by
  constructor
  · rw [nestHelpers_eq]
    decide +kernel
  · decide +kernel

/-! ## Names -/

namespace Helpers

/-- No chunk that stays and no other part of the main component uses a helper; the body does use it,
and none of its declarations starts with the same name. -/
structure Local (s : Scan) (m : MainBody) (helpers : List Helper) (h : Helper) : Prop where
  named : helperName? s h.chunk = some h.name
  used : s.mentions h.name (m.openBrace + 1) (m.closeBrace - 1) = true
  undeclared : declaredInBody s m h.name = false
  inside : usedOutside s m (staying m s.chunks helpers) h = false

theorem local_moved {text : String} {m : MainBody} {h : Helper} (mem : h ∈ moved text m) :
    Local (Scan.ofText text) m (moved text m) h := by
  obtain ⟨_, rounds⟩ := rounds_moved text m
  obtain ⟨-, -, named, used, undeclared⟩ := mem_candidates (rounds.sublist.subset mem)
  exact ⟨named, used, undeclared, rounds.not_usedOutside h mem⟩

end Helpers

/-- Whatever is moved, what refers to a helper finds it where it is put: only the body and other
helpers that are moved use it, and no declaration of the body starts with its name. -/
theorem nestHelpers_local {text result : String} {fix : Fix}
    (h : nestHelpers text = .applied result fix) :
    ∃ m helpers, Helpers.Beside text m helpers ∧
      fix = .nestedHelpers (helpers.map Helpers.Helper.name) ∧
      ∀ x ∈ helpers, Helpers.Local (Scan.ofText text) m helpers x := by
  obtain ⟨m, beside, -, -, rfl⟩ := nestHelpers_applied h
  exact ⟨m, _, beside, rfl, fun _ mem => Helpers.local_moved mem⟩

/-- Of the names that a helper uses nothing is asked. A name of the top level comes to mean what the
body declares by that name. -/
theorem nestHelpers_captures :
    let outer := "const label = \"outer\";\n"
    let helper := "const caption = () => label;\n"
    let head := "export default function App() \x7b\n"
    let body := "  const label = \"inner\";\n  return caption();\n\x7d\n"
    let text := outer ++ helper ++ head ++ body
    let s := Scan.ofText text
    nestHelpers text = .applied (outer ++ head ++ helper ++ body) (.nestedHelpers ["caption"]) ∧
      (Parsed.ofFile ⟨"/App.tsx", text⟩).module?.map Module.print = some text ∧
      (Parsed.ofFile ⟨"/App.tsx", outer ++ head ++ helper ++ body⟩).module?.map Module.print
        = some (outer ++ head ++ "  " ++ helper ++ body) ∧
      (Helpers.mainBody? s s.chunks).any fun m => (Helpers.moved text m).any fun h =>
        s.mentions "label" h.chunk.first h.chunk.last && Helpers.declaredInBody s m "label" := by
  constructor
  · rw [nestHelpers_eq]
    decide +kernel
  · decide +kernel

end Repair

end TsxPreview
