import TsxPreview.Proofs.Compile.Fingerprint
import TsxPreview.Proofs.Lexer.Tiling
import TsxPreview.Proofs.Repair.Tokens
import TsxPreview.Repair.Sanitize
import TsxPreview.Repair.Scan
import TsxPreview.Syntax.Parser

/-!
The bindings that repairs keep aside. No identifier and no reserved word is spelled like a
punctuator, so no name is spelled like the star of a namespace; a default import is recorded as one
however it is written. So each binding says in one way what it takes. A name that is written as a
string is not seen, so what it binds is lost.
-/

namespace TsxPreview

/-- An identifier starts with a letter. -/
theorem Lexer.Tiles.identifier_start {found : Diagnostics} {pre : List Char} {c : Cursor}
    {tokens : List Token} (h : Tiles found pre c tokens) {t : Token} (mem : t ∈ tokens) {name : String} (kind : t.kind = .identifier name) :
    ∃ ch rest, name.toList = ch :: rest ∧ isIdentStart ch = true := by
  induction h with
  | eof skips gap stop last =>
    rw [List.mem_singleton.mp mem, last] at kind
    cases kind
  | token skips gap reads lexes span tiles ih =>
    rcases List.mem_cons.mp mem with rfl | mem
    · have spelled := lexes.spells
      rw [kind] at spelled
      obtain ⟨eq, ch, rest, cons, start⟩ := spelled
      exact ⟨ch, rest, eq ▸ cons, start⟩
    · exact ih mem
  | text reads nonempty text span newline next tiles ih =>
    rcases List.mem_cons.mp mem with rfl | mem
    · rw [text] at kind
      cases kind
    · exact ih mem

namespace Scan

/-- The kind at an index is that of a token of the text. -/
theorem mem_of_kind_ofText {text : String} {i : Nat} {kind : TokenKind}
    (h : (ofText text).kind i = kind) (notEof : kind.isEof = false) :
    ∃ t ∈ (TokenStream.ofFile ⟨"<sanitize>", text⟩).tokens, t.kind = kind := by
  unfold Scan.kind at h
  cases found : (ofText text).tokens[i]? with
  | none =>
    rw [found] at h
    rw [← h] at notEof
    cases notEof
  | some t =>
    rw [found] at h
    have mem := Array.mem_of_getElem? found
    exact ⟨t, (List.mem_filter.mp (List.mem_toArray.mp mem)).1, h⟩

theorem ident?_start {text name : String} {i : Nat} (h : (ofText text).ident? i = some name) :
    ∃ ch rest, name.toList = ch :: rest ∧ Lexer.isIdentStart ch = true := by
  unfold ident? at h
  split at h
  · rename_i found kind
    cases h
    obtain ⟨t, mem, tk⟩ := mem_of_kind_ofText kind rfl
    exact (TokenStream.tiles _).identifier_start mem tk
  · cases h

/-- No name is the star of a namespace. -/
theorem propertyName?_ne_star {text name : String} {i : Nat}
    (h : ((ofText text).kind i).propertyName? = some name) : name ≠ "*" := by
  unfold TokenKind.propertyName? at h
  split at h
  · rename_i found kind
    cases h
    have word : (ofText text).ident? i = some name := by
      unfold ident?
      rw [kind]
    obtain ⟨ch, rest, eq, start⟩ := ident?_start word
    rintro rfl
    cases eq
    exact absurd start (by decide)
  · rename_i k kind
    cases h
    cases k <;> decide
  · cases h

end Scan

/-! ## Kept bindings -/

/-- A binding that repairs keep aside: it is of a package, and says in one way what it takes. -/
structure ExternalBinding.IsKept (aliases : List String) (b : ExternalBinding) : Prop where
  plain : b.imported.IsPlain
  external : (SpecifierKind.classify b.source aliases).isExternal = true

namespace Repair.Imports

variable (text : String)

theorem ne_star_of_mem_pairs {first last : Nat} {name given : String}
    (h : (name, given) ∈ pairs (Scan.ofText text) first last) : name ≠ "*" :=
  of_mem_pairs (Scan.ofText text) (p := fun w => w ≠ "*")
    (fun _ _ _ _ found => Scan.propertyName?_ne_star found) h

theorem of_mem_bindings (source : String) (stop fuel i : Nat) :
    ∀ b ∈ bindings (Scan.ofText text) source stop fuel i,
      b.imported.IsPlain ∧ b.source = source := by
  induction fuel generalizing i with
  | zero => intro b hb; cases hb
  | succ fuel ih =>
    intro b hb
    unfold bindings at hb
    split at hb
    · cases hb
    · split at hb
      · rcases List.mem_cons.mp hb with rfl | hb
        · exact ⟨trivial, rfl⟩
        · exact ih _ b hb
      · rcases List.mem_append.mp hb with hb | hb
        · split at hb
          · obtain ⟨name, -, rfl⟩ := Option.map_eq_some_iff.mp (Option.mem_toList.mp hb)
            exact ⟨trivial, rfl⟩
          · cases hb
        · exact ih _ b hb
      · rcases List.mem_append.mp hb with hb | hb
        · obtain ⟨⟨name, given⟩, mem, rfl⟩ := List.mem_map.mp hb
          dsimp only
          refine ⟨?_, rfl⟩
          split
          · exact trivial
          · rename_i other
            exact ⟨fun eq => other (by rw [eq]; rfl), ne_star_of_mem_pairs text mem⟩
        · exact ih _ b hb
      · exact ih _ b hb

theorem isKept_importChunk {x : Context} (scan : x.scan = Scan.ofText text) (c : Chunk) {f : Found}
    (h : ∀ b ∈ f.bindings, b.IsKept x.aliases) :
    ∀ b ∈ (x.importChunk c f).bindings, b.IsKept x.aliases := by
  have more {extra : List ExternalBinding} (k : ∀ b ∈ extra, b.IsKept x.aliases) :
      ∀ b ∈ f.bindings ++ extra, b.IsKept x.aliases :=
    List.forall_mem_append.mpr ⟨h, k⟩
  unfold Context.importChunk
  split
  · exact h
  · dsimp only
    split
    · exact more (by simp)
    · split
      · split
        · exact more (by simp)
        · exact h
      · split
        · rename_i external
          refine more fun b hb => ?_
          rw [scan] at hb
          obtain ⟨plain, source⟩ := of_mem_bindings text _ _ _ _ b hb
          exact ⟨plain, by rw [source]; exact external⟩
        · exact h

theorem bindings_exportList (x : Context) (c : Chunk) (f : Found) :
    (x.exportList c f).bindings = f.bindings := by
  unfold Context.exportList
  dsimp only
  repeat' split
  all_goals rfl

theorem bindings_exportAll (x : Context) (c : Chunk) (f : Found) :
    (x.exportAll c f).bindings = f.bindings := by
  unfold Context.exportAll
  split <;> rfl

theorem bindings_exportTypes (x : Context) (c : Chunk) (f : Found) :
    (x.exportTypes c f).bindings = f.bindings := by
  unfold Context.exportTypes
  dsimp only
  split <;> rfl

/-- What a chunk adds to the bindings is of a package. -/
theorem isKept_chunk {x : Context} (scan : x.scan = Scan.ofText text) (c : Chunk) {f : Found}
    (h : ∀ b ∈ f.bindings, b.IsKept x.aliases) :
    ∀ b ∈ (x.chunk f c).bindings, b.IsKept x.aliases := by
  unfold Context.chunk
  dsimp only
  split
  · exact isKept_importChunk text scan c h
  · split
    · split
      · rwa [bindings_exportList]
      · split
        · rwa [bindings_exportAll]
        · split
          · rwa [bindings_exportTypes]
          · exact h
    · exact h

theorem isKept_foldl_chunk {x : Context} (scan : x.scan = Scan.ofText text) (chunks : List Chunk)
    {f : Found} (h : ∀ b ∈ f.bindings, b.IsKept x.aliases) :
    ∀ b ∈ (chunks.foldl x.chunk f).bindings, b.IsKept x.aliases := by
  induction chunks generalizing f with
  | nil => exact h
  | cons c rest ih => exact ih (isKept_chunk text scan c h)

end Repair.Imports

theorem Repair.isKept_removeExternalImports {text : String} {aliases : List String}
    {r : ImportRemoval} (h : removeExternalImports text aliases = some r) :
    ∀ b ∈ r.bindings, b.IsKept aliases := by
  unfold removeExternalImports at h
  dsimp only at h
  split at h
  · cases h
  · cases h
    exact Imports.isKept_foldl_chunk (x := ⟨_, _, aliases, _⟩) text rfl _ (by simp)

namespace Sanitized

theorem bindings_revise (f : String → Revision) (s : Sanitized) :
    (s.revise f).bindings = s.bindings := by
  unfold revise
  split <;> rfl

theorem bindings_fences (s : Sanitized) : s.fences.bindings = s.bindings := by
  unfold fences
  split <;> rfl

theorem bindings_prose (s : Sanitized) : s.prose.bindings = s.bindings := by
  unfold prose
  split <;> rfl

/-- A repair that is made only where it is wanted keeps what it keeps. -/
theorem onlyIf_induction {p : Sanitized → Prop} {repair : Sanitized → Sanitized} {s : Sanitized}
    (wanted : Bool) (h : p s) (keeps : p (repair s)) : p (onlyIf wanted repair s) := by
  unfold onlyIf
  split
  · exact keeps
  · exact h

end Sanitized

/-- The bindings of a repaired text are of packages. -/
theorem isKept_sanitize (config : RepairConfig) (aliases : List String) (profile : Profile)
    (text : String) : ∀ b ∈ (sanitize config aliases profile text).bindings,
      b.IsKept aliases := by
  let p : Sanitized → Prop := fun s => ∀ b ∈ s.bindings, b.IsKept aliases
  have keeps {s t : Sanitized} (eq : t.bindings = s.bindings) (h : p s) : p t := by
    intro b hb
    exact h b (eq ▸ hb)
  have imports (s : Sanitized) (h : p s) : p (s.imports aliases) := by
    unfold Sanitized.imports
    split
    · rename_i r found
      exact Repair.isKept_removeExternalImports found
    · exact h
  have start : p (Sanitized.ofText text) := by intro b hb; cases hb
  have fences := Sanitized.onlyIf_induction config.stripFences start
    (keeps (Sanitized.bindings_fences _) start)
  have imported := Sanitized.onlyIf_induction (profile = .entry && config.removeExternalImports)
    fences (imports _ fences)
  have annotated := Sanitized.onlyIf_induction (profile = .entry && config.stripAnnotations)
    imported (keeps (Sanitized.bindings_revise Repair.stripAnnotations _) imported)
  have cut := Sanitized.onlyIf_induction config.stripProse annotated
    (keeps (Sanitized.bindings_prose _) annotated)
  exact Sanitized.onlyIf_induction (profile = .entry && config.nestHelpers) cut
    (keeps (Sanitized.bindings_revise Repair.nestHelpers _) cut)

theorem isPlain_sanitize (config : RepairConfig) (aliases : List String) (profile : Profile)
    (text : String) : ∀ b ∈ (sanitize config aliases profile text).bindings,
      b.imported.IsPlain :=
  fun b hb => (isKept_sanitize config aliases profile text b hb).plain

/-! ## Bindings of declarations -/

/-- The values that an import declaration binds, in the order of its clause. -/
def ImportDecl.bindings (d : ImportDecl) : List ExternalBinding :=
  (d.default.map fun name => ⟨name.name, .default, d.source⟩).toList
    ++ (d.star.map fun name => ⟨name.name, .star, d.source⟩).toList
    ++ d.named.map fun n =>
      ⟨n.name.name, if n.imported == "default" then .default else .named n.imported, d.source⟩

/-- The values that the top-level imports of packages bind in a module. -/
def Module.externalBindings (m : Module) (aliases : List String) : List ExternalBinding :=
  m.body.flatMap fun
    | .import _ d =>
      if !d.typeOnly && (SpecifierKind.classify d.source aliases).isExternal then d.bindings else []
    | _ => []

/-- An import of a string name is removed like any other, but what it binds is not recorded. -/
theorem Repair.removeExternalImports_string_name :
    (Parsed.ofFile ⟨"/App.tsx", "import \x7b \"my-icon\" as Icon \x7d from \"lucide-react\";\n"⟩).module?.map
        (Module.externalBindings · defaultAliasPrefixes)
      = some [⟨"Icon", .named "my-icon", "lucide-react"⟩] ∧
    (removeExternalImports "import \x7b \"my-icon\" as Icon \x7d from \"lucide-react\";\n"
        defaultAliasPrefixes).map (fun r => (r.text, r.bindings, r.imports))
      = some ("", [], 1) := by
  decide +kernel

end TsxPreview
