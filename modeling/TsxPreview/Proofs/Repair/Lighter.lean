import TsxPreview.Proofs.Repair.Tokens
import TsxPreview.Repair.Sanitize

/-!
Repairs that remove: fences, imports, annotations and prose. Whenever one of them does something, the
text it leaves is lighter than the one it found.
-/

namespace TsxPreview

namespace Repair

/-! ## Fences -/

theorem exists_solid_of_isFence {line : List Char} (h : Fences.isFence line = true) :
    ∃ c ∈ line, isBlank c = false := by
  have sub {c : Char} (mem : c ∈ trimBlankStart line) : c ∈ line :=
    (List.dropWhile_sublist isBlank).subset mem
  unfold Fences.isFence at h
  split at h
  · rename_i rest eq
    exact ⟨'`', sub (by rw [eq]; exact List.mem_cons_self), by decide⟩
  · rename_i rest eq
    exact ⟨'~', sub (by rw [eq]; exact List.mem_cons_self), by decide⟩
  · cases h

theorem exists_solid_of_isLanguage {line : List Char} (h : Fences.isLanguage line = true) :
    ∃ c ∈ line, isBlank c = false := by
  cases start : trimBlankStart line with
  | nil =>
    unfold Fences.isLanguage trimBlank at h
    rw [start] at h
    exact absurd h (by decide)
  | cons c rest =>
    have mem : c ∈ line := (List.dropWhile_sublist isBlank).subset
      (show c ∈ trimBlankStart line by rw [start]; exact List.mem_cons_self)
    have head := List.head?_dropWhile_not isBlank line
    rw [show line.dropWhile isBlank = c :: rest from start] at head
    exact ⟨c, mem, by simpa using head⟩

/-- Every line that goes takes weight with it. -/
theorem weight_keep (afterFence seenCode : Bool) (lines : List (List Char)) :
    weight (Fences.keep afterFence seenCode lines).flatten + lines.length
      ≤ weight lines.flatten + (Fences.keep afterFence seenCode lines).length := by
  have heavy {line : List Char} (solid : ∃ c ∈ line, isBlank c = false) : 0 < weight line := by
    obtain ⟨c, mem, h⟩ := solid
    exact weight_pos mem h
  induction lines generalizing afterFence seenCode with
  | nil => exact Nat.le_refl _
  | cons line rest ih =>
    unfold Fences.keep
    -- a fence and the name of a language are more than white space, other lines stay
    split
    · rename_i fence
      have := heavy (exists_solid_of_isFence fence)
      have := ih true seenCode
      rw [List.flatten_cons, weight_append, List.length_cons]
      omega
    · split
      · rename_i language
        rw [Bool.and_eq_true] at language
        have := heavy (exists_solid_of_isLanguage language.1)
        have := ih afterFence seenCode
        rw [List.flatten_cons, weight_append, List.length_cons]
        omega
      · split
        · have := ih afterFence seenCode
          rw [List.flatten_cons, List.flatten_cons, weight_append, weight_append, List.length_cons,
            List.length_cons]
          omega
        · have := ih false true
          rw [List.flatten_cons, List.flatten_cons, weight_append, weight_append, List.length_cons,
            List.length_cons]
          omega

theorem length_keep_le (afterFence seenCode : Bool) (lines : List (List Char)) :
    (Fences.keep afterFence seenCode lines).length ≤ lines.length := by
  induction lines generalizing afterFence seenCode with
  | nil => exact Nat.le_refl _
  | cons line rest ih =>
    have drop := ih true seenCode
    have language := ih afterFence seenCode
    have code := ih false true
    unfold Fences.keep
    repeat' split
    all_goals
      simp only [List.length_cons]
      omega

theorem weight_stripFences {text result : String} (h : stripFences text = some result) :
    weight result.toList < weight text.toList := by
  unfold stripFences at h
  dsimp only at h
  split at h
  · cases h
  · rename_i fewer
    cases h
    have weighs := weight_keep false false (splitInclusive text.toList)
    have length := length_keep_le false false (splitInclusive text.toList)
    rw [flatten_splitInclusive] at weighs
    rw [String.toList_ofList]
    omega

/-! ## Prose -/

theorem weight_stripProse {text : String} {r : ProseRemoval} (h : stripProse text = some r) :
    weight r.text.toList < weight text.toList := by
  obtain ⟨_, -, h⟩ := Option.bind_eq_some_iff.mp h
  obtain ⟨last, -, h⟩ := Option.bind_eq_some_iff.mp h
  obtain ⟨solid, h⟩ := of_guard_bind h
  obtain ⟨-, h⟩ := of_guard_bind h
  obtain ⟨-, h⟩ := of_guard_bind h
  cases h
  generalize (Scan.ofText text).hi last = n at solid ⊢
  rw [Bool.not_eq_true', List.isEmpty_eq_false_iff] at solid
  -- the tail holds more than white space
  have tail : 0 < weight (dropBytes n text.toList) := by
    cases start : trimBlankStart (dropBytes n text.toList) with
    | nil => exact absurd start solid
    | cons c rest =>
      have head := List.head?_dropWhile_not isBlank (dropBytes n text.toList)
      rw [show List.dropWhile isBlank _ = c :: rest from start] at head
      exact weight_pos ((List.dropWhile_sublist isBlank).subset
        (show c ∈ trimBlankStart _ by rw [start]; exact List.mem_cons_self)) (by simpa using head)
  have whole := weightTo_add text.toList n
  unfold weightTo at whole
  rw [String.toList_ofList, weight_append, show weight ['\n'] = 0 from rfl]
  omega

/-! ## Imports -/

namespace Imports

variable {text : String} {x : Context} {c : Chunk} {f : Found}

/-- The context of a text. -/
structure Context.Reads (x : Context) (text : String) : Prop where
  chars : x.text = text.toList
  scan : x.scan = Scan.ofText text

/-- Removing a statement removes its first word. -/
theorem lightens_removal (reads : x.Reads text) {first last : Nat} {k : Keyword}
    (word : x.scan.isKeyword first k = true) (le : first ≤ last) (lt : last < x.scan.size) :
    (x.removal first last).Lightens text.toList := by
  unfold Context.removal
  rw [reads.scan] at word lt ⊢
  rw [reads.chars]
  have lo := Scan.boundary_lo text first
  have hi := Scan.boundary_hi text last
  have order := Scan.hi_le_hi le lt
  have word := Scan.weightTo_keyword (Scan.kind_of_isKeyword word)
  have heavy := Scan.weight_keyword_pos k
  have span := weightTo_mono text.toList order
  obtain ⟨before, after⟩ := Edit.weightTo_removeLines lo hi
  refine ⟨Edit.removeLines_fits lo hi (Nat.le_trans (Scan.lo_le_hi text first) order), ?_⟩
  rw [show (Edit.removeLines text.toList _ _).text = [] from rfl, weight_nil]
  omega

theorem fromClause?_spec {s : Scan} {i j : Nat} (h : fromClause? s i = some j) :
    i < j ∧ j < s.size := by
  unfold fromClause? at h
  split at h
  · rename_i clause
    rw [Bool.and_eq_true] at clause
    cases h
    exact ⟨Nat.lt_succ_self i, Scan.lt_size_of_string? clause.2⟩
  · cases h

theorem statementEnd_spec {s : Scan} {i : Nat} (h : i < s.size) :
    i ≤ statementEnd s i ∧ statementEnd s i < s.size := by
  have closed : i ≤ (s.matching? (i + 2)).getD i ∧ (s.matching? (i + 2)).getD i < s.size := by
    cases found : s.matching? (i + 2) with
    | none => exact ⟨Nat.le_refl _, h⟩
    | some close =>
      obtain ⟨lt, size⟩ := Scan.matching?_spec found
      rw [Option.getD_some]
      exact ⟨by omega, size⟩
  have semicolon {last : Nat} (b : i ≤ last ∧ last < s.size) :
      i ≤ (if s.isPunct (last + 1) .semicolon then last + 1 else last) ∧
        (if s.isPunct (last + 1) .semicolon then last + 1 else last) < s.size := by
    split
    · rename_i more
      exact ⟨by omega, Scan.lt_size_of_isPunct more⟩
    · exact b
  unfold statementEnd
  dsimp only
  exact semicolon (by split <;> first | exact closed | exact ⟨Nat.le_refl _, h⟩)

theorem statement?_spec {s : Scan} {i : Statement} (h : statement? s c = some i) :
    c.first ≤ i.last ∧ i.last < s.size := by
  unfold statement? at h
  dsimp only at h
  split at h
  · cases h
  · split at h
    · rename_i source found
      cases h
      have := statementEnd_spec (Scan.lt_size_of_string? (by rw [found]; rfl))
      dsimp only
      omega
    · simp only [Option.bind_eq_bind, Option.bind_eq_some_iff, Option.some.injEq] at h
      obtain ⟨at', found, source, string, rfl⟩ := h
      have := Scan.findIn_spec found
      have := statementEnd_spec (Scan.lt_size_of_string? (i := at' + 1) (by rw [string]; rfl))
      dsimp only
      omega

/-- All edits found so far remove weight. -/
def Found.Lightens (text : String) (f : Found) : Prop := ∀ e ∈ f.edits, e.Lightens text.toList

theorem Found.Lightens.append {f : Found} (h : f.Lightens text) {e : Edit}
    (he : e.Lightens text.toList) : ∀ e' ∈ f.edits ++ [e], e'.Lightens text.toList := by
  intro e' mem
  rcases List.mem_append.mp mem with mem | mem
  · exact h e' mem
  · rw [List.mem_singleton.mp mem]
    exact he

theorem lightens_importChunk (reads : x.Reads text) (h : f.Lightens text)
    (word : x.scan.isKeyword c.first .import = true) : (x.importChunk c f).Lightens text := by
  unfold Context.importChunk
  split
  · exact h
  · rename_i i found
    obtain ⟨le, lt⟩ := statement?_spec found
    have removed := h.append (lightens_removal reads word le lt)
    dsimp only
    split
    · exact removed
    · split
      · split
        · exact removed
        · exact h
      · split
        · exact removed
        · exact h

theorem lightens_dropReexport (reads : x.Reads text) (h : f.Lightens text) {first last : Nat}
    (word : x.scan.isKeyword first .export = true) (le : first ≤ last)
    (lt : last < x.scan.size) : (x.dropReexport f first last).Lightens text :=
  h.append (lightens_removal reads word le lt)

/-- The braces around a name weigh more than the words that come in their place. -/
theorem lightens_default (reads : x.Reads text) {close last : Nat} {name given : String}
    (word : x.scan.isKeyword c.first .export = true)
    (brace : x.scan.isPunct (c.first + 1) .lBrace = true)
    (names : (name, given) ∈ pairs x.scan (c.first + 1) close) (le : close ≤ last)
    (lt : last < x.scan.size) :
    Edit.Lightens text.toList
      ⟨x.scan.lo c.first, x.scan.hi last, s!"export default {name};".toList⟩ := by
  have first := Scan.kind_of_isKeyword word
  obtain ⟨k, lo, hi, spelled⟩ := of_mem_pairs x.scan
    (p := fun w => ∃ i, c.first + 1 < i ∧ i < close ∧ (x.scan.kind i).propertyName? = some w)
    (fun i lo hi w found => ⟨i, lo, hi, found⟩) names
  rw [reads.scan] at first brace spelled lt ⊢
  have size := Scan.lt_size_of_propertyName? spelled
  have export' := Scan.weightTo_keyword first
  have brace' := Scan.weightTo_punct brace
  have name' := Scan.weightTo_name spelled
  -- the three tokens stand one behind another in the range
  have gap := weightTo_mono text.toList
    (Scan.hi_le_lo (Nat.lt_add_one c.first) (Scan.lt_size_of_isPunct brace))
  have gap' := weightTo_mono text.toList (Scan.hi_le_lo lo size)
  have rest := weightTo_mono text.toList (Scan.hi_le_hi (i := k) (j := last) (by omega) lt)
  refine ⟨⟨Scan.boundary_lo _ _, Scan.boundary_hi _ _, ?_⟩, ?_⟩
  · exact Nat.le_trans (Scan.lo_le_hi text c.first) (Scan.hi_le_hi (by omega) lt)
  · have words : weight s!"export default {name};".toList = 14 + weight name.toList := by
      show weight ("export default " ++ name ++ ";").toList = _
      rw [String.toList_append, String.toList_append, weight_append, weight_append,
        show weight "export default ".toList = 13 by decide, show weight ";".toList = 1 by decide]
      omega
    rw [show weight Keyword.export.text.toList = 6 by decide] at export'
    rw [show weight Punct.lBrace.text.toList = 10 by decide] at brace'
    dsimp only
    omega

theorem lightens_exportList (reads : x.Reads text) (h : f.Lightens text)
    (word : x.scan.isKeyword c.first .export = true)
    (brace : x.scan.isPunct (c.first + 1) .lBrace = true) :
    (x.exportList c f).Lightens text := by
  unfold Context.exportList
  dsimp only
  split
  · exact h
  · rename_i close found
    obtain ⟨lt, size⟩ := Scan.matching?_spec found
    split
    · rename_i source clause
      have := fromClause?_spec clause
      have stop := statementEnd_spec (i := source) this.2
      split
      · exact h
      · exact lightens_dropReexport reads h word (by omega) stop.2
    · have semicolon : close ≤ (if x.scan.isPunct (close + 1) .semicolon then close + 1 else close) ∧
          (if x.scan.isPunct (close + 1) .semicolon then close + 1 else close) < x.scan.size := by
        split
        · rename_i more
          exact ⟨by omega, Scan.lt_size_of_isPunct more⟩
        · exact ⟨Nat.le_refl _, size⟩
      generalize (if x.scan.isPunct (close + 1) .semicolon then close + 1 else close) = last
        at semicolon
      have dropped : (x.dropReexport f c.first last).Lightens text :=
        lightens_dropReexport reads h word (by omega) semicolon.2
      split
      · rename_i name given named
        split
        · exact h.append (lightens_default reads word brace (List.mem_of_find?_eq_some named)
            semicolon.1 semicolon.2)
        · exact dropped
      · exact dropped

theorem lightens_exportAll (reads : x.Reads text) (h : f.Lightens text)
    (word : x.scan.isKeyword c.first .export = true) : (x.exportAll c f).Lightens text := by
  unfold Context.exportAll
  split
  · rename_i i found
    obtain ⟨lo, -, clause⟩ := Scan.findIn_spec found
    obtain ⟨source, eq⟩ := Option.isSome_iff_exists.mp clause
    have lt : i + 1 < x.scan.size := by
      have := fromClause?_spec eq
      omega
    have stop := statementEnd_spec lt
    exact lightens_dropReexport reads h word (by omega) stop.2
  · exact h

theorem lightens_exportTypes (reads : x.Reads text) (h : f.Lightens text)
    (word : x.scan.isKeyword c.first .export = true) : (x.exportTypes c f).Lightens text := by
  unfold Context.exportTypes
  dsimp only
  split
  · exact h
  · rename_i close found
    obtain ⟨lt, size⟩ := Scan.matching?_spec found
    split
    · rename_i source clause
      have := fromClause?_spec clause
      have stop := statementEnd_spec (i := source) this.2
      exact lightens_dropReexport reads h word (by omega) stop.2
    · split
      · rename_i more
        have le : c.first ≤ close + 1 := by omega
        exact lightens_dropReexport reads h word le (Scan.lt_size_of_isPunct more)
      · exact lightens_dropReexport reads h word (by omega) size

theorem lightens_chunk (reads : x.Reads text) (h : f.Lightens text) (c : Chunk) :
    (x.chunk f c).Lightens text := by
  unfold Context.chunk
  dsimp only
  split
  · rename_i word
    exact lightens_importChunk reads h word
  · split
    · rename_i word
      split
      · rename_i brace
        exact lightens_exportList reads h word brace
      · split
        · exact lightens_exportAll reads h word
        · split
          · exact lightens_exportTypes reads h word
          · exact h
    · exact h

end Imports

theorem weight_removeExternalImports {text : String} {aliases : List String} {r : ImportRemoval}
    (h : removeExternalImports text aliases = some r) :
    weight r.text.toList < weight text.toList := by
  unfold removeExternalImports at h
  dsimp only at h
  split at h
  · cases h
  · rename_i edits
    cases h
    have each : ∀ (chunks : List Chunk) (x : Imports.Context) (f : Imports.Found),
        x.Reads text → f.Lightens text → (chunks.foldl x.chunk f).Lightens text := by
      intro chunks x
      induction chunks with
      | nil => exact fun _ _ h => h
      | cons c rest ih => exact fun f reads h => ih _ reads (Imports.lightens_chunk reads h c)
    rw [String.toList_ofList]
    refine Edit.weight_applyAll_lt ?_ (each _ _ _ ⟨rfl, rfl⟩ ?_)
    · simpa using edits
    · intro e he
      cases he

/-! ## Annotations -/

namespace Annotations

variable {s : Scan}

/-- The token where a piece of a type ends stands in the text, at the piece's start or behind it. -/
def EndsAt (s : Scan) (i last : Nat) : Prop := i ≤ last ∧ last < s.size

theorem EndsAt.refl {i : Nat} (h : i < s.size) : EndsAt s i i := ⟨Nat.le_refl i, h⟩

theorem EndsAt.trans {i j k : Nat} (h : EndsAt s i j) (le : j ≤ k) (lt : k < s.size) :
    EndsAt s i k :=
  ⟨Nat.le_trans h.1 le, lt⟩

theorem qualified_endsAt (fuel : Nat) {i : Nat} (h : i < s.size) :
    EndsAt s i (qualified s fuel i) := by
  induction fuel generalizing i with
  | zero => exact .refl h
  | succ fuel ih =>
    unfold qualified
    split
    · rename_i more
      rw [Bool.and_eq_true] at more
      obtain ⟨le, lt⟩ := ih (Scan.lt_size_of_ident? more.2)
      exact ⟨by omega, lt⟩
    · exact .refl h

theorem arrays_endsAt (fuel : Nat) {i : Nat} (h : i < s.size) : EndsAt s i (arrays s fuel i) := by
  induction fuel generalizing i with
  | zero => exact .refl h
  | succ fuel ih =>
    unfold arrays
    split
    · rename_i more
      rw [Bool.and_eq_true] at more
      obtain ⟨le, lt⟩ := ih (Scan.lt_size_of_isPunct more.2)
      exact ⟨by omega, lt⟩
    · exact .refl h

theorem angleFrom_endsAt (fuel : Nat) {i depth last : Nat}
    (h : s.angleFrom fuel i depth = some last) : EndsAt s i last := by
  induction fuel generalizing i depth with
  | zero => cases h
  | succ fuel ih =>
    have next {d : Nat} (h : s.angleFrom fuel (i + 1) d = some last) : EndsAt s i last := by
      obtain ⟨le, lt⟩ := ih h
      exact ⟨by omega, lt⟩
    unfold Scan.angleFrom at h
    split at h
    · exact next h
    · rename_i greater
      split at h
      · cases h
        exact .refl (Scan.lt_size_of_kind (by rw [greater]; exact TokenKind.noConfusion))
      · exact next h
    · cases h
    · cases h
    · cases h
    · exact next h

theorem headEnd?_endsAt {i last : Nat} (h : headEnd? s i = some last) : EndsAt s i last := by
  unfold headEnd? at h
  split at h
  · rename_i name kind
    have lt : i < s.size := Scan.lt_size_of_kind (by rw [kind]; exact TokenKind.noConfusion)
    have path := qualified_endsAt (s := s) s.size lt
    split at h
    · dsimp only at h
      split at h
      · obtain ⟨le, size⟩ := angleFrom_endsAt _ h
        exact path.trans (by omega) size
      · cases h
        exact path
    · cases h
  case h_8 => cases h
  all_goals
    rename_i kind
    cases h
    exact .refl (Scan.lt_size_of_kind (by rw [kind]; exact TokenKind.noConfusion))

theorem atomEnd?_endsAt {i last : Nat} (h : atomEnd? s i = some last) : EndsAt s i last := by
  obtain ⟨head, found, rfl⟩ := Option.map_eq_some_iff.mp h
  have start := headEnd?_endsAt found
  obtain ⟨le, lt⟩ := arrays_endsAt s.size start.2
  exact start.trans le lt

theorem unionEnd?_endsAt (fuel : Nat) {i last : Nat} (lt : i < s.size)
    (h : unionEnd? s fuel i = some last) : EndsAt s i last := by
  induction fuel generalizing i with
  | zero =>
    cases h
    exact .refl lt
  | succ fuel ih =>
    unfold unionEnd? at h
    split at h
    · obtain ⟨member, found, h⟩ := Option.bind_eq_some_iff.mp h
      have atom := atomEnd?_endsAt found
      obtain ⟨le, size⟩ := ih atom.2 h
      have := atom.1
      exact ⟨by omega, size⟩
    · cases h
      exact .refl lt

theorem typeEnd?_endsAt {i last : Nat} (h : typeEnd? s i = some last) : EndsAt s i last := by
  obtain ⟨first, found, h⟩ := Option.bind_eq_some_iff.mp h
  have atom := atomEnd?_endsAt found
  obtain ⟨le, lt⟩ := unionEnd?_endsAt s.size atom.2 h
  exact atom.trans le lt

variable {text : String} {i : Nat} {e : Edit}

/-- Dropping an annotation drops its colon. -/
theorem lightens_annotation? (colon : (Scan.ofText text).isPunct i .colon = true)
    (h : annotation? (Scan.ofText text) i = some e) : e.Lightens text.toList := by
  obtain ⟨-, h⟩ := of_guard_bind h
  obtain ⟨-, h⟩ := of_guard_bind h
  obtain ⟨last, found, h⟩ := Option.bind_eq_some_iff.mp h
  obtain ⟨_, -, h⟩ := Option.bind_eq_some_iff.mp h
  obtain ⟨-, h⟩ := of_guard_bind h
  cases h
  obtain ⟨le, lt⟩ := typeEnd?_endsAt found
  have start : (if (Scan.ofText text).isPunct (i - 1) .question then i - 1 else i) ≤ i := by
    split <;> omega
  generalize (if (Scan.ofText text).isPunct (i - 1) .question then i - 1 else i) = first at start ⊢
  have order := Scan.lo_le_lo start (Scan.lt_size_of_isPunct colon)
  have order' := Scan.hi_le_hi (i := i) (by omega) lt
  have before := weightTo_mono text.toList order
  have after := weightTo_mono text.toList order'
  -- the range holds the colon
  have mark := Scan.weightTo_punct colon
  rw [show weight Punct.colon.text.toList = 1 by decide] at mark
  refine ⟨⟨Scan.boundary_lo _ _, Scan.boundary_hi _ _, ?_⟩, ?_⟩
  · exact Nat.le_trans order (Nat.le_trans (Scan.lo_le_hi text i) order')
  · rw [show (Edit.remove _ _).text = [] from rfl, weight_nil]
    show weightTo _ ((Scan.ofText text).lo first) + 0 < weightTo _ ((Scan.ofText text).hi last)
    omega

/-- Dropping an assertion drops its `as`. -/
theorem lightens_assertion? (word : (Scan.ofText text).ident? i = some "as")
    (h : assertion? (Scan.ofText text) i = some e) : e.Lightens text.toList := by
  have lt : i < (Scan.ofText text).size := Scan.lt_size_of_ident? (by rw [word]; rfl)
  have name : ((Scan.ofText text).kind i).propertyName? = some "as" := by
    unfold Scan.ident? at word
    split at word
    · rename_i kind
      cases word
      rw [kind]
      rfl
    · cases word
  -- the range holds the word
  have mark := Scan.weightTo_name name
  rw [show weight "as".toList = 2 by decide] at mark
  have removed : 1 ≤ i → ∀ last, EndsAt (Scan.ofText text) (i + 1) last →
      (Edit.remove ((Scan.ofText text).hi (i - 1)) ((Scan.ofText text).hi last)).Lightens
        text.toList := by
    intro one last ends
    have order := Scan.hi_le_lo (i := i - 1) (by omega) lt
    have order' := Scan.hi_le_hi (i := i) (Nat.le_of_succ_le ends.1) ends.2
    have before := weightTo_mono text.toList order
    have after := weightTo_mono text.toList order'
    refine ⟨⟨Scan.boundary_hi _ _, Scan.boundary_hi _ _, ?_⟩, ?_⟩
    · exact Nat.le_trans order (Nat.le_trans (Scan.lo_le_hi text i) order')
    · rw [show (Edit.remove _ _).text = [] from rfl, weight_nil]
      show weightTo _ ((Scan.ofText text).hi (i - 1)) + 0
        < weightTo _ ((Scan.ofText text).hi last)
      omega
  obtain ⟨one, h⟩ := of_guard_bind h
  obtain ⟨-, h⟩ := of_guard_bind h
  dsimp only at h
  split at h
  · rename_i const
    cases h
    exact removed one (i + 1) (.refl (Scan.lt_size_of_isKeyword const))
  · obtain ⟨last, found, eq⟩ := Option.bind_eq_some_iff.mp h
    cases eq
    exact removed one last (typeEnd?_endsAt found)

theorem lightens_editAt? {chunks : List Chunk} (h : editAt? (Scan.ofText text) chunks i = some e) :
    e.Lightens text.toList := by
  unfold editAt? at h
  split at h
  · rename_i colon
    exact lightens_annotation? colon h
  · split at h
    · rename_i word
      split at h
      · cases h
      · exact lightens_assertion? (eq_of_beq word) h
    · cases h

end Annotations

theorem weight_stripAnnotations {text result : String} {fix : Fix}
    (h : stripAnnotations text = .applied result fix) :
    weight result.toList < weight text.toList := by
  unfold stripAnnotations at h
  dsimp only at h
  split at h
  · cases h
  · rename_i edits
    split at h
    · cases h
      rw [String.toList_ofList]
      refine Edit.weight_applyAll_lt (by simpa using edits) fun e he => ?_
      obtain ⟨i, -, found⟩ := List.mem_filterMap.mp he
      exact Annotations.lightens_editAt? found
    · cases h

end Repair

end TsxPreview
