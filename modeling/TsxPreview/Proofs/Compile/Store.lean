import TsxPreview.Compile.Compiler
import TsxPreview.Proofs.Linking.Parts
import TsxPreview.Proofs.Repair.Bindings
import TsxPreview.Proofs.Sorted

/-!
The store of compiled modules over any number of compilations. Whatever projects were compiled, each
stored module is the linked form of a source text that was read, with the resolver of its time, under
the fingerprint of what it was made from.
-/

namespace TsxPreview

/-- What a module was made from, besides its path and its text. -/
structure Origin where
  profile : Profile
  bindings : List ExternalBinding
  /-- The resolver of its time. -/
  resolution : String → Resolution
  parsed : Module

namespace Origin

/-- What the fingerprint of a module digests. -/
def content (o : Origin) (m : CompiledModule) : List UInt8 :=
  Fingerprint.content m.path o.profile m.source.text o.bindings

/-- The module was made from this. -/
structure Makes (o : Origin) (m : CompiledModule) : Prop where
  source : m.source.name = m.path
  parsed : (Parsed.ofFile m.source).module? = some o.parsed
  executable : m.executable = Executable.ofModule m.path o.resolution o.bindings o.parsed
  fingerprint : m.fingerprint = Fingerprint.of m.path o.profile m.source.text o.bindings
  plain : ∀ b ∈ o.bindings, b.imported.IsPlain

/-- A module whose imports resolve as they did is linked as it would be now. -/
theorem Makes.executable_eq {o : Origin} {m : CompiledModule} (h : o.Makes m)
    {resolution : String → Resolution}
    (valid : ∀ i ∈ m.imports, resolution i.specifier = i.resolution) :
    m.executable = Executable.ofModule m.path resolution o.bindings o.parsed := by
  have imports : m.imports =
      (Executable.ofModule m.path o.resolution o.bindings o.parsed).imports := by
    rw [CompiledModule.imports, h.executable]
  rw [imports] at valid
  rw [h.executable]
  exact Executable.ofModule_eq_of_imports m.path o.bindings o.parsed valid

end Origin

/-- The profile under which a project compiles a file. -/
def Project.profile (p : Project) (path : String) : Profile :=
  if path = p.entry then .entry else .module

namespace Compiler

/-- What the fingerprint of a file digests. -/
def content (c : Compiler) (p : Project) (path text : String) : List UInt8 :=
  let s := sanitize c.repair c.aliases (p.profile path) text
  Fingerprint.content path (p.profile path) s.text s.bindings

/-- What the fingerprints of all files of a project digest. -/
def contents (c : Compiler) (p : Project) : List (List UInt8) :=
  p.files.map fun (path, text) => c.content p path text

/-- Every stored module stands under its fingerprint and was made from a content in `known`. -/
def Sound (known : List UInt8 → Prop) (c : Compiler) : Prop :=
  ∀ e ∈ c.cache.entries, e.1 = e.2.fingerprint ∧ ∃ o : Origin, o.Makes e.2 ∧ known (o.content e.2)

/-- Two compilers with the same settings. -/
structure Alike (c d : Compiler) : Prop where
  repair : d.repair = c.repair
  aliases : d.aliases = c.aliases

theorem Alike.refl (c : Compiler) : Alike c c := ⟨rfl, rfl⟩

theorem Alike.symm {c d : Compiler} (h : Alike c d) : Alike d c :=
  ⟨h.repair.symm, h.aliases.symm⟩

theorem Alike.trans {a b c : Compiler} (h : Alike a b) (k : Alike b c) : Alike a c :=
  ⟨k.repair.trans h.repair, k.aliases.trans h.aliases⟩

theorem Alike.resolution {c d : Compiler} (h : Alike c d) (p : Project) (path : String) :
    d.resolution p path = c.resolution p path := by
  funext specifier
  rw [Compiler.resolution, Compiler.resolution, h.aliases]

theorem Alike.contents {c d : Compiler} (h : Alike c d) (p : Project) :
    d.contents p = c.contents p := by
  unfold Compiler.contents Compiler.content
  rw [h.repair, h.aliases]

theorem Sound.of_empty {known : List UInt8 → Prop} {c : Compiler} (h : c.cache.entries = []) :
    Sound known c := by
  intro e he
  rw [h] at he
  cases he

/-! ## One module -/

/-- A module that stands for a file of a project as it is now. -/
structure Compiles (known : List UInt8 → Prop) (c : Compiler) (p : Project) (path text : String)
    (m : CompiledModule) : Prop where
  origin : ∃ o : Origin, o.Makes m ∧ known (o.content m)
  fingerprint : m.fingerprint = ⟨Sha256.hash (c.content p path text)⟩
  valid : ∀ i ∈ m.imports, c.resolution p path i.specifier = i.resolution

/-- The outcome of compiling a file. -/
inductive Outcome (known : List UInt8 → Prop) (c : Compiler) (p : Project) (path text : String) :
    Except CompileError CompiledModule → Prop where
  | compiled {m : CompiledModule} (h : Compiles known c p path text m) :
      Outcome known c p path text (.ok m)
  | failed {e : TranspileError}
      (h : Executable.ofText path (c.resolution p path)
        (sanitize c.repair c.aliases (p.profile path) text).bindings
        (sanitize c.repair c.aliases (p.profile path) text).text = .error e) :
      Outcome known c p path text (.error ⟨.transpile e.path e.message e.span,
        some ⟨path, (sanitize c.repair c.aliases (p.profile path) text).text⟩⟩)

theorem sound_lookup {known : List UInt8 → Prop} {c : Compiler} (sound : c.Sound known)
    (f : Fingerprint) (valid : CompiledModule → Bool) :
    Sound known { c with cache := (c.cache.lookup f valid).2 } ∧
      ∀ m, (c.cache.lookup f valid).1 = some m → m.fingerprint = f ∧ valid m = true ∧
        ∃ o : Origin, o.Makes m ∧ known (o.content m) := by
  unfold CompileCache.lookup
  split
  · rename_i m found
    refine ⟨sound, fun n hn => ?_⟩
    cases hn
    obtain ⟨there, holds⟩ := Option.filter_eq_some_iff.mp found
    obtain ⟨key, origin⟩ := sound _ (mem_of_lookup there)
    exact ⟨key.symm, holds, origin⟩
  · exact ⟨sound, fun n hn => by cases hn⟩

theorem outcome_compileText {known : List UInt8 → Prop} (c : Compiler) (p : Project)
    (path text : String) (hk : known (c.content p path text)) :
    Outcome known c p path text (c.compileText p path
      (sanitize c.repair c.aliases (p.profile path) text)
      ⟨Sha256.hash (c.content p path text)⟩) := by
  let s := sanitize c.repair c.aliases (p.profile path) text
  unfold compileText
  dsimp only
  split
  · rename_i executable made
    have plain := isPlain_sanitize c.repair c.aliases (p.profile path) text
    unfold Executable.ofText at made
    dsimp only at made
    split at made
    · rename_i parsed read
      cases made
      -- the module comes from what is compiled now
      let o : Origin := ⟨p.profile path, s.bindings, c.resolution p path, parsed⟩
      refine .compiled ⟨⟨o, ⟨rfl, read, rfl, rfl, plain⟩, hk⟩, rfl, fun i hi => ?_⟩
      obtain ⟨specifier, -, rfl⟩ := (Executable.mem_imports_ofModule _ _ _ _ i).mp hi
      rfl
    · cases made
  · rename_i e failed
    exact .failed failed

/-- The compilation of a file, from the store or anew, keeps the store sound. -/
theorem compileModule_spec {known : List UInt8 → Prop} {c : Compiler} (sound : c.Sound known)
    {p : Project} {path text : String} (found : p.get? path = some text)
    (hk : known (c.content p path text)) :
    Alike c (c.compileModule p path (p.profile path)).2 ∧
      (c.compileModule p path (p.profile path)).2.Sound known ∧
      Outcome known c p path text (c.compileModule p path (p.profile path)).1 := by
  let s := sanitize c.repair c.aliases (p.profile path) text
  let f := Fingerprint.of path (p.profile path) s.text s.bindings
  have fresh : Outcome known c p path text (c.compileText p path s f) :=
    outcome_compileText c p path text hk
  obtain ⟨kept, stored⟩ := sound_lookup sound f (c.isValid p path)
  unfold compileModule
  rw [found]
  dsimp only
  split
  -- a hit: the stored module has the fingerprint, and its imports resolve as they did
  · rename_i m hit
    obtain ⟨fingerprint, valid, origin⟩ := stored m hit
    refine ⟨⟨rfl, rfl⟩, kept, .compiled ⟨origin, fingerprint, fun i hi => ?_⟩⟩
    exact eq_of_beq (List.all_eq_true.mp valid i hi)
  -- a miss: what is compiled now replaces what was stored under the path
  · split
    · rename_i m made
      rw [made] at fresh
      obtain ⟨⟨o, makes, ho⟩, fingerprint, valid⟩ : Compiles known c p path text m := by
        cases fresh with
        | compiled h => exact h
      refine ⟨⟨rfl, rfl⟩, fun e he => ?_, fresh⟩
      rcases List.mem_cons.mp he with rfl | he
      · exact ⟨rfl, o, makes, ho⟩
      · exact kept e (List.mem_filter.mp he).1
    · rename_i e made
      rw [made] at fresh
      exact ⟨⟨rfl, rfl⟩, kept, fresh⟩

theorem compileModule_missing (c : Compiler) {p : Project} {path : String}
    (missing : p.get? path = none) (profile : Profile) :
    c.compileModule p path profile = (.error ⟨.moduleNotFound path, none⟩, c) := by
  unfold compileModule
  rw [missing]

/-- A round of the search compiles the first path of the queue. -/
theorem search_step {p : Project} {s : Search} {path : String} {queue : List String}
    (h : s.queue = path :: queue) (rounds : Nat) (c : Compiler) :
    search p (rounds + 1) c s =
      match c.compileModule p path (p.profile path) with
      | (.error e, c) => (.error e, c)
      | (.ok m, c) =>
        match Search.reach { s with queue } path m.source m.imports with
        | .error e => (.error e, c)
        | .ok s => search p rounds c (s.add path m) := by
  rw [search, h]
  rfl

theorem search_empty {p : Project} {s : Search} (h : s.queue = []) (rounds : Nat) (c : Compiler) :
    search p rounds c s = (.ok s, c) := by
  cases rounds with
  | zero => rfl
  | succ rounds => rw [search, h]

/-! ## Searches and histories -/

/-- The contents of the files of a project are among those that are known. -/
def Covers (known : List UInt8 → Prop) (c : Compiler) (p : Project) : Prop :=
  ∀ x ∈ c.contents p, known x

variable {known : List UInt8 → Prop}

theorem Covers.mem {c : Compiler} {p : Project} (h : Covers known c p) {path text : String}
    (found : p.get? path = some text) :
    known (c.content p path text) :=
  h _ (List.mem_map.mpr ⟨(path, text), mem_of_lookup found, rfl⟩)

/-- A module that is missing changes nothing, and one that is there keeps the store sound. -/
theorem compileModule_sound {c : Compiler} {p : Project} (covers : Covers known c p)
    (sound : c.Sound known) (path : String) :
    Alike c (c.compileModule p path (p.profile path)).2 ∧
      (c.compileModule p path (p.profile path)).2.Sound known := by
  cases found : p.get? path with
  | none =>
    rw [compileModule_missing c found]
    exact ⟨.refl c, sound⟩
  | some text =>
    obtain ⟨alike, kept, -⟩ := compileModule_spec sound found (covers.mem found)
    exact ⟨alike, kept⟩

theorem Covers.alike {c d : Compiler} {p : Project} (covers : Covers known c p)
    (alike : Alike c d) : Covers known d p := by
  unfold Covers
  rw [alike.contents]
  exact covers

/-- A search keeps the settings and the store sound. -/
theorem search_sound {p : Project} (rounds : Nat) {c : Compiler} (s : Search)
    (covers : Covers known c p) (sound : c.Sound known) :
    Alike c (search p rounds c s).2 ∧ (search p rounds c s).2.Sound known := by
  induction rounds generalizing c s with
  | zero => exact ⟨.refl c, sound⟩
  | succ rounds ih =>
    cases queue : s.queue with
    | nil =>
      rw [search_empty queue]
      exact ⟨.refl c, sound⟩
    | cons path rest =>
      -- the store that a round leaves is sound whatever becomes of the search
      have one := compileModule_sound covers sound path
      rw [search_step queue]
      generalize c.compileModule p path (p.profile path) = r at one
      obtain ⟨_ | m, d⟩ := r
      · exact one
      · dsimp only
        split
        · exact one
        · obtain ⟨alike, kept⟩ := ih _ (covers.alike one.1) one.2
          exact ⟨one.1.trans alike, kept⟩

/-- What is asked of a compiler: a project, and the packages that it declares. -/
abbrev Call := Project × Option Manifest

/-- A compiler after some calls. -/
def after (c : Compiler) : List Call → Compiler
  | [] => c
  | call :: rest => ((c.compile call.1 call.2).2).after rest

/-- The contents of all files of the projects of some calls. -/
def contentsOf (c : Compiler) (calls : List Call) : List (List UInt8) :=
  calls.flatMap fun call => c.contents call.1

/-- Where a compilation starts. -/
def start (p : Project) (manifest : Option Manifest) : Search :=
  { queue := [p.entry], seen := [p.entry], modules := []
    warnings := (manifest.map Manifest.warnings).getD [] }

/-- What a search found, as the outcome of a compilation. -/
def finish (p : Project) (s : Search) : CompiledProject := ⟨p.entry, s.modules, s.warnings⟩

theorem compile_eq (c : Compiler) (p : Project) (manifest : Option Manifest) :
    c.compile p manifest =
      ((search p p.files.length c (start p manifest)).1.map (finish p),
        (search p p.files.length c (start p manifest)).2) := by
  unfold compile
  dsimp only
  split
  · rename_i s d found
    have run : search p p.files.length c (start p manifest) = (.ok s, d) := found
    rw [run]
    rfl
  · rename_i e d found
    have run : search p p.files.length c (start p manifest) = (.error e, d) := found
    rw [run]
    rfl

theorem compile_eq_ok {c : Compiler} {p : Project} {manifest : Option Manifest}
    {r : CompiledProject} (h : (c.compile p manifest).1 = .ok r) :
    ∃ s, (search p p.files.length c (start p manifest)).1 = .ok s ∧ finish p s = r := by
  rw [compile_eq] at h
  cases found : (search p p.files.length c (start p manifest)).1 with
  | error e =>
    rw [found] at h
    cases h
  | ok s =>
    rw [found] at h
    exact ⟨s, rfl, Except.ok.inj h⟩

theorem compile_eq_error {c : Compiler} {p : Project} {manifest : Option Manifest}
    {e : CompileError} (h : (c.compile p manifest).1 = .error e) :
    (search p p.files.length c (start p manifest)).1 = .error e := by
  rw [compile_eq] at h
  cases found : (search p p.files.length c (start p manifest)).1 with
  | error e' =>
    rw [found] at h
    exact congrArg Except.error (Except.error.inj h)
  | ok s =>
    rw [found] at h
    cases h

/-- Calls keep the settings and the store sound. -/
theorem after_sound (calls : List Call) {c : Compiler}
    (covers : ∀ call ∈ calls, Covers known c call.1) (sound : c.Sound known) :
    Alike c (c.after calls) ∧ (c.after calls).Sound known := by
  induction calls generalizing c with
  | nil => exact ⟨.refl c, sound⟩
  | cons call rest ih =>
    have one := search_sound call.1.files.length (start call.1 call.2)
      (covers call List.mem_cons_self) sound
    have first : (c.compile call.1 call.2).2 =
        (search call.1 call.1.files.length c (start call.1 call.2)).2 := by rw [compile_eq]
    rw [after, first]
    obtain ⟨alike, kept⟩ := ih
      (fun call' h => (covers call' (List.mem_cons_of_mem _ h)).alike one.1) one.2
    exact ⟨one.1.trans alike, kept⟩

end Compiler

end TsxPreview
