import TsxPreview.Proofs.Project
import TsxPreview.Resolution

/-!
What specifiers resolve to. A path that is found is one of a file: that of the specifier, or its
first completion that exists. A file is found under its own path from everywhere.
-/

namespace TsxPreview

open TsxPreview.Path

/-! ## Packages -/

namespace HostPackage

variable {p : HostPackage} {text : String}

/-- Under these names a package can be imported. -/
def Answers (p : HostPackage) (text : String) : Prop :=
  text = p.specifier ∨ p = jsxRuntime ∧ text = "react/jsx-dev-runtime"

theorem find?_specifier (p : HostPackage) :
    all.find? (fun q => q.specifier == p.specifier) = some p := by
  cases p <;> decide

theorem specifier_ne_dev (p : HostPackage) : p.specifier ≠ "react/jsx-dev-runtime" := by
  cases p <;> decide

theorem ofSpecifier?_eq_some_iff : ofSpecifier? text = some p ↔ p.Answers text := by
  unfold ofSpecifier? Answers
  split
  · rename_i dev
    have other : text ≠ p.specifier := by
      rw [beq_iff_eq.1 dev]
      exact (specifier_ne_dev p).symm
    rw [Option.some_inj]
    constructor
    · exact fun same => .inr ⟨same.symm, beq_iff_eq.1 dev⟩
    · rintro (same | ⟨rfl, -⟩)
      · exact absurd same other
      · rfl
  · rename_i plain
    constructor
    · intro found
      have same : (p.specifier == text) = true := by simpa using List.find?_some found
      exact .inl (beq_iff_eq.1 same).symm
    · rintro (rfl | ⟨-, rfl⟩)
      · exact find?_specifier p
      · exact absurd rfl plain

end HostPackage

/-! ## Files -/

theorem SpecifierKind.classify_of_startsWith {path : String} (slash : path.startsWith "/" = true)
    (aliases : List String) : classify path aliases = .absolute := by
  obtain ⟨behind, spelled⟩ := String.startsWith_string_iff.1 slash
  have undotted (text : String) {more : List Char} (dotted : text.toList = '.' :: more) :
      path.startsWith text = false := by
    rw [Bool.eq_false_iff, ne_eq, String.startsWith_string_iff, dotted, ← spelled]
    exact fun h => absurd (List.cons_prefix_cons.1 h).1 (by decide)
  have here : path ≠ "." := by
    rintro rfl
    cases spelled
  have up : path ≠ ".." := by
    rintro rfl
    cases spelled
  simp [classify, undotted "./" rfl, undotted "../" rfl, here, up, slash]

theorem SpecifierKind.classify_of_isNormal {path : String} (normal : IsNormal path)
    (aliases : List String) : classify path aliases = .absolute := by
  obtain ⟨list, -, spelled⟩ := normal
  refine classify_of_startsWith ?_ aliases
  rw [String.startsWith_string_iff, spelled]
  exact ⟨_, rfl⟩

namespace Resolution

variable {aliases : List String} {hasFile : String → Bool} {importer specifier base path : String}

/-- What is found for a path that may be incomplete: the file under just this path, or else the one
under its first completion that is there. -/
inductive Finds (hasFile : String → Bool) (base : String) : String → Prop where
  | exact (there : hasFile base = true) : Finds hasFile base base
  | completed {before after : List String} {suffix : String}
      (order : suffixes = before ++ suffix :: after) (missing : hasFile base = false)
      (earlier : ∀ s ∈ before, hasFile (normalizePath (base ++ s)) = false)
      (there : hasFile (normalizePath (base ++ suffix)) = true) :
      Finds hasFile base (normalizePath (base ++ suffix))

theorem Finds.there (h : Finds hasFile base path) : hasFile path = true := by
  cases h with
  | exact there => exact there
  | completed order missing earlier there => exact there

theorem complete?_eq_some_iff : complete? hasFile base = some path ↔ Finds hasFile base path := by
  rw [complete?, List.find?_cons]
  cases there : hasFile base with
  | true =>
    constructor
    · rintro ⟨⟩
      exact .exact there
    · rintro (_ | ⟨order, missing, earlier, found⟩)
      · rfl
      · exact absurd (there.symm.trans missing) (by decide)
  | false =>
    dsimp only
    rw [List.find?_map, Option.map_eq_some_iff]
    constructor
    · rintro ⟨suffix, found, rfl⟩
      obtain ⟨found, before, after, order, earlier⟩ := List.find?_eq_some_iff_append.1 found
      exact .completed order there (fun s mem => by simpa using earlier s mem) found
    · rintro (found | ⟨order, missing, earlier, found⟩)
      · exact absurd (there.symm.trans found) (by decide)
      · refine ⟨_, List.find?_eq_some_iff_append.2 ⟨found, _, _, order, fun s mem => ?_⟩, rfl⟩
        simpa using earlier s mem

theorem isNormal_of_spelled? (h : spelled? aliases importer specifier = some base) :
    IsNormal base := by
  unfold spelled? at h
  split at h
  · exact Option.some.inj h ▸ isNormal_normalizePath _
  · exact Option.some.inj h ▸ isNormal_normalizePath _
  · obtain ⟨p, -, rfl⟩ := Option.map_eq_some_iff.1 h
    exact isNormal_normalizePath _
  · exact absurd h (Option.some_ne_none _).symm

theorem spelled?_of_isNormal (normal : IsNormal path) (aliases : List String) (importer : String) :
    spelled? aliases importer path = some path := by
  rw [spelled?, SpecifierKind.classify_of_isNormal normal]
  exact congrArg some normal.normalizePath_eq

theorem spelled?_of_bare (bare : SpecifierKind.classify specifier aliases = .bare) :
    spelled? aliases importer specifier = none := by
  rw [spelled?, bare]

end Resolution

variable {aliases : List String} {hasFile : String → Bool} {importer specifier path : String}

open Resolution

theorem resolve_eq_path_iff : resolve aliases hasFile importer specifier = .path path ↔
    ∃ base, spelled? aliases importer specifier = some base ∧ Finds hasFile base path := by
  have found : resolve aliases hasFile importer specifier = .path path ↔
      (spelled? aliases importer specifier).bind (complete? hasFile) = some path := by
    unfold resolve
    dsimp only
    split
    · rename_i file
      rw [file, Resolution.path.injEq, Option.some_inj]
    · rename_i missing
      rw [missing]
      split <;> simp
  rw [found, Option.bind_eq_some_iff]
  simp only [complete?_eq_some_iff]

theorem resolve_of_bare (bare : SpecifierKind.classify specifier aliases = .bare) :
    resolve aliases hasFile importer specifier =
      match HostPackage.ofSpecifier? specifier with
      | some p => .package p
      | none => .unresolved := by
  rw [resolve, spelled?_of_bare bare]
  rfl

theorem resolve_eq_package_iff_of_bare (bare : SpecifierKind.classify specifier aliases = .bare)
    (p : HostPackage) :
    resolve aliases hasFile importer specifier = .package p ↔ p.Answers specifier := by
  rw [resolve_of_bare bare, ← HostPackage.ofSpecifier?_eq_some_iff]
  cases HostPackage.ofSpecifier? specifier <;> simp

theorem resolve_eq_unresolved_iff_of_bare
    (bare : SpecifierKind.classify specifier aliases = .bare) :
    resolve aliases hasFile importer specifier = .unresolved ↔
      ∀ p : HostPackage, ¬p.Answers specifier := by
  simp only [resolve_of_bare bare, ← HostPackage.ofSpecifier?_eq_some_iff]
  cases HostPackage.ofSpecifier? specifier <;> simp

/-- A file is found under its own path, wherever that is written. -/
theorem resolve_of_isNormal (normal : IsNormal path) (there : hasFile path = true)
    (aliases : List String) (importer : String) :
    resolve aliases hasFile importer path = .path path :=
  resolve_eq_path_iff.2 ⟨path, spelled?_of_isNormal normal aliases importer, .exact there⟩

/-- A specifier resolves to the file that it spells, complete or not, and the path of a file to that
file. The name of a package never resolves to a file. -/
theorem resolve_stable (normal : ∀ path, hasFile path = true → IsNormal path) :
    (∀ path, resolve aliases hasFile importer specifier = .path path ↔
      ∃ base, spelled? aliases importer specifier = some base ∧ IsNormal base ∧
        Finds hasFile base path) ∧
    (∀ path, resolve aliases hasFile importer specifier = .path path →
      hasFile path = true ∧ SpecifierKind.classify path aliases = .absolute ∧
        ∀ other, resolve aliases hasFile other path = .path path) ∧
    (SpecifierKind.classify specifier aliases = .bare →
      (∀ path, resolve aliases hasFile importer specifier ≠ .path path) ∧
      (∀ p : HostPackage,
        resolve aliases hasFile importer specifier = .package p ↔ p.Answers specifier) ∧
      (resolve aliases hasFile importer specifier = .unresolved ↔
        ∀ p : HostPackage, ¬p.Answers specifier)) := by
  refine ⟨fun path => ?_, fun path found => ?_, fun bare => ⟨fun path found => ?_, ?_, ?_⟩⟩
  · rw [resolve_eq_path_iff]
    exact exists_congr fun base =>
      ⟨fun h => ⟨h.1, isNormal_of_spelled? h.1, h.2⟩, fun h => ⟨h.1, h.2.2⟩⟩
  · obtain ⟨base, -, finds⟩ := resolve_eq_path_iff.1 found
    have own := normal path finds.there
    exact ⟨finds.there, SpecifierKind.classify_of_isNormal own aliases,
      resolve_of_isNormal own finds.there aliases⟩
  · obtain ⟨base, spelled, -⟩ := resolve_eq_path_iff.1 found
    exact absurd (spelled.symm.trans (spelled?_of_bare bare)) (Option.some_ne_none base)
  · exact resolve_eq_package_iff_of_bare bare
  · exact resolve_eq_unresolved_iff_of_bare bare

/-- A directory with an index, and the development build of the element factory. -/
theorem resolve_stable_index :
    (∀ path, ["/App.tsx", "/card/index.tsx"].contains path = true → IsNormal path) ∧
    resolve defaultAliasPrefixes ["/App.tsx", "/card/index.tsx"].contains "/App.tsx" "./card" =
      .path "/card/index.tsx" ∧
    (∀ other, resolve defaultAliasPrefixes ["/App.tsx", "/card/index.tsx"].contains other
      "/card/index.tsx" = .path "/card/index.tsx") ∧
    resolve defaultAliasPrefixes ["/App.tsx", "/card/index.tsx"].contains "/App.tsx"
      "react/jsx-dev-runtime" = .package .jsxRuntime := by
  have normal (path : String) (mem : ["/App.tsx", "/card/index.tsx"].contains path = true) :
      IsNormal path := by
    have each : ∀ p ∈ ["/App.tsx", "/card/index.tsx"], normalizePath p = p := by decide +kernel
    exact normalizePath_eq_self_iff.1 (each path (List.contains_iff_mem.1 mem))
  have found : resolve defaultAliasPrefixes ["/App.tsx", "/card/index.tsx"].contains "/App.tsx"
      "./card" = .path "/card/index.tsx" := by decide +kernel
  exact ⟨normal, found, ((resolve_stable normal).2.1 _ found).2.2,
    (((resolve_stable normal).2.2 (by decide +kernel)).2.1 _).2 (.inr ⟨rfl, rfl⟩)⟩

/-! ## Entries

The entry of a project may be given without its extension, as the path of an import may. The two are
completed in different order.
-/

/-- A path in normal form, and an extension behind it. -/
theorem Path.IsNormal.append_extension {base extension : String} (normal : IsNormal base)
    (mem : extension ∈ Project.extensions) : IsNormal (base ++ extension) := by
  have each : ∀ e ∈ Project.extensions,
      2 < e.toList.length ∧ e.toList.all (!isSeparator ·) = true := by
    decide
  obtain ⟨long, unseparated⟩ := each extension mem
  exact isNormal_append normal long (by simpa using unseparated)

theorem Project.findEntry_eq_ok_iff {files : List (String × String)} {base entry : String} :
    findEntry files base = .ok entry ↔
      (base :: extensions.map (base ++ ·)).find? (fun path => (files.lookup path).isSome) =
        some entry := by
  unfold findEntry
  dsimp only
  split
  · rename_i found
    rw [found]
    simp
  · rename_i missing
    rw [missing]
    simp

/-- Neither a path nor its first completion is there, and of the two completions that come next in
different order both are. -/
structure Resolution.Ambiguous (hasFile : String → Bool) (base : String) : Prop where
  incomplete : hasFile base = false
  unmarked : hasFile (base ++ ".tsx") = false
  plain : hasFile (base ++ ".ts") = true
  markup : hasFile (base ++ ".jsx") = true

/-- Two neighbours that change places are found as before, unless it comes to both. -/
theorem find?_swap {α : Type} {p : α → Bool} {front behind : List α} {a b : α}
    (h : ¬(front.find? p = none ∧ p a = true ∧ p b = true)) :
    (front ++ b :: a :: behind).find? p = (front ++ a :: b :: behind).find? p := by
  rw [List.find?_append, List.find?_append]
  cases first : front.find? p with
  | some c => rfl
  | none =>
    by_cases here : p a = true
    · have other : p b = false := by simpa using fun there => h ⟨first, here, there⟩
      simp [here, other]
    · simp [List.find?_cons, here]

/-- The completions that come last are those of a directory. -/
theorem Resolution.complete?_of_isNormal (normal : IsNormal base) (hasFile : String → Bool) :
    complete? hasFile base =
      ([base, base ++ ".tsx"] ++ (base ++ ".jsx") :: (base ++ ".ts") :: (base ++ ".js") ::
        (suffixes.drop 4).map fun suffix => normalizePath (base ++ suffix)).find? hasFile := by
  have own {e : String} (mem : e ∈ Project.extensions) :
      normalizePath (base ++ e) = base ++ e := (normal.append_extension mem).normalizePath_eq
  simp [complete?, suffixes, own (e := ".tsx") (by decide), own (e := ".ts") (by decide),
    own (e := ".jsx") (by decide), own (e := ".js") (by decide)]

/-- The absolute specifier of an entry resolves to that entry, unless it is ambiguous: then the
project starts with the plain file, and an import takes the one with markup. -/
theorem resolve_entry {files : List (String × String)} {requested entry : String}
    (found : Project.findEntry files (normalizePath requested) = .ok entry)
    (absolute : specifier.startsWith "/" = true)
    (same : normalizePath specifier = normalizePath requested)
    (aliases : List String) (importer : String) :
    let hasFile := fun path => (files.lookup path).isSome
    let base := normalizePath requested
    (¬Ambiguous hasFile base → resolve aliases hasFile importer specifier = .path entry) ∧
    (Ambiguous hasFile base → entry = base ++ ".ts" ∧
      resolve aliases hasFile importer specifier = .path (base ++ ".jsx")) := by
  intro hasFile base
  have normal : IsNormal base := isNormal_normalizePath requested
  have resolved {path : String} (completed : complete? hasFile base = some path) :
      resolve aliases hasFile importer specifier = .path path := by
    refine resolve_eq_path_iff.2 ⟨base, ?_, complete?_eq_some_iff.1 completed⟩
    rw [spelled?, SpecifierKind.classify_of_startsWith absolute]
    exact congrArg some same
  have listed : ([base, base ++ ".tsx"] ++ (base ++ ".ts") :: (base ++ ".jsx") ::
      [base ++ ".js"]).find? hasFile = some entry := Project.findEntry_eq_ok_iff.1 found
  constructor
  · intro clear
    refine resolved ?_
    rw [complete?_of_isNormal normal, find?_swap]
    · -- the names that an entry may have come first, those of a directory behind them
      have order (behind : List String) : [base, base ++ ".tsx"] ++
          (base ++ ".ts") :: (base ++ ".jsx") :: (base ++ ".js") :: behind =
          ([base, base ++ ".tsx"] ++ (base ++ ".ts") :: (base ++ ".jsx") :: [base ++ ".js"]) ++
            behind := by simp
      rw [order, List.find?_append, listed, Option.some_or]
    · rintro ⟨first, plain, markup⟩
      simp only [List.find?_eq_none, List.forall_mem_cons] at first
      exact clear ⟨by simpa using first.1, by simpa using first.2.1, plain, markup⟩
  · intro both
    constructor
    · have plain := both.plain
      simp [both.incomplete, both.unmarked, both.plain] at listed
      exact listed.symm
    · refine resolved ?_
      rw [complete?_of_isNormal normal]
      simp [both.incomplete, both.unmarked, both.markup]

/-- A file with markup beside a plain one whose extension comes later in both orders. -/
theorem resolve_entry_card :
    let files := [("/card.js", ""), ("/card.jsx", "")]
    Project.findEntry files (normalizePath "card") = .ok "/card.jsx" ∧
      resolve defaultAliasPrefixes (fun path => (files.lookup path).isSome) "/App.tsx" "/./card" =
        .path "/card.jsx" := by
  intro files
  have found : Project.findEntry files (normalizePath "card") = .ok "/card.jsx" := by
    decide +kernel
  have clear : ¬Ambiguous (fun path => (files.lookup path).isSome) (normalizePath "card") :=
    fun both => absurd both.plain (by decide +kernel)
  exact ⟨found, (resolve_entry found (by decide +kernel) (by decide +kernel) _ _).1 clear⟩

/-- With a plain file and one with markup, the project starts with one and imports the other. -/
theorem not_resolve_entry_ambiguous :
    ∃ p, Project.ofFiles [("/App.jsx", ""), ("/App.ts", "")] "/App" = .ok p ∧
      p.entry = "/App.ts" ∧
      resolve defaultAliasPrefixes p.contains p.entry "/App" = .path "/App.jsx" := by
  have built : (Project.ofFiles [("/App.jsx", ""), ("/App.ts", "")] "/App").toOption.any (fun p =>
      p.entry = "/App.ts" ∧
        resolve defaultAliasPrefixes p.contains p.entry "/App" = .path "/App.jsx") = true := by
    decide +kernel
  obtain ⟨p, eq, found⟩ := (Option.any_eq_true _ _).1 built
  cases made : Project.ofFiles [("/App.jsx", ""), ("/App.ts", "")] "/App" with
  | error e =>
    rw [made] at eq
    cases eq
  | ok q =>
    rw [made] at eq
    cases eq
    exact ⟨p, rfl, of_decide_eq_true found⟩

end TsxPreview
