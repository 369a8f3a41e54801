import TsxPreview.Proofs.Compile.Search
import TsxPreview.Proofs.Compile.Transparency

/-!
What a compilation reports of the repairs. A module that is taken from the store comes with the
report of the text it was stored for, and texts that differ can be repaired to the same text. So the
reports of a compilation are those of its own texts exactly when everything that it takes from the
store was stored with the same report.
-/

namespace TsxPreview

/-! ## Reports -/

/-- What was repaired in a text, and what was refused. -/
structure RepairReport where
  fixes : List Fix
  warnings : List RepairWarning
  deriving DecidableEq

def Sanitized.report (s : Sanitized) : RepairReport := ⟨s.fixes, s.warnings⟩

def CompiledModule.report (m : CompiledModule) : RepairReport := ⟨m.fixes, m.warnings⟩

/-- The reports of all modules by path, and what is made of them for the project. -/
structure ProjectReport where
  modules : List (String × RepairReport)
  warnings : List CompileWarning
  entryFixes : List Fix
  deriving DecidableEq

def CompiledProject.report (r : CompiledProject) : ProjectReport :=
  ⟨r.modules.map (Prod.map id CompiledModule.report), r.warnings, r.entryFixes⟩

theorem CompiledModule.eq_of_code {m n : CompiledModule} (code : m.code = n.code)
    (fingerprint : m.fingerprint = n.fingerprint) (report : m.report = n.report) : m = n := by
  cases m
  cases n
  simp_all [CompiledModule.code, CompiledModule.report]

namespace CompileCache

/-- Storing a module leaves what is stored under other fingerprints. -/
theorem get?_insert_of_ne (c : CompileCache) {m : CompiledModule} {g : Fingerprint}
    (ne : g ≠ m.fingerprint) : (c.insert m).get? g = c.get? g := by
  have kept := lookup_filter_ne c.entries m.fingerprint g
  rw [if_neg ne] at kept
  unfold insert get?
  simp only [ne_eq, decide_not]
  rw [List.lookup_cons, beq_eq_false_iff_ne.mpr ne]
  exact kept

theorem lookup_fst (c : CompileCache) (f : Fingerprint) (valid : CompiledModule → Bool) :
    (c.lookup f valid).1 = (c.get? f).filter valid := by
  unfold lookup
  split
  · rename_i found
    exact found.symm
  · rename_i found
    exact found.symm

theorem entries_lookup (c : CompileCache) (f : Fingerprint) (valid : CompiledModule → Bool) :
    (c.lookup f valid).2.entries = c.entries := by
  unfold lookup
  split <;> rfl

theorem get?_lookup (c : CompileCache) (f : Fingerprint) (valid : CompiledModule → Bool)
    (g : Fingerprint) : (c.lookup f valid).2.get? g = c.get? g := by
  rw [get?, get?, entries_lookup]

end CompileCache

namespace Compiler

/-! ## One module -/

/-- A file of a project, repaired. -/
def repaired (c : Compiler) (p : Project) (path text : String) : Sanitized :=
  sanitize c.repair c.aliases (p.profile path) text

def fingerprint (c : Compiler) (p : Project) (path text : String) : Fingerprint :=
  ⟨Sha256.hash (c.content p path text)⟩

/-- The module that is taken from the store for a file. -/
def stored? (c : Compiler) (p : Project) (path text : String) : Option CompiledModule :=
  (c.cache.get? (c.fingerprint p path text)).filter (c.isValid p path)

/-- What a file is compiled to when the store has nothing for it. -/
def compileFile (c : Compiler) (p : Project) (path text : String) :
    Except CompileError CompiledModule :=
  c.compileText p path (c.repaired p path text) (c.fingerprint p path text)

/-- What a path of a project gives. -/
def module (c : Compiler) (p : Project) (path : String) : Except CompileError CompiledModule :=
  (c.compileModule p path (p.profile path)).1

variable {c d : Compiler} {p : Project} {path text : String} {m : CompiledModule}

theorem module_eq (found : p.get? path = some text) :
    c.module p path =
      match c.stored? p path text with
      | some m => .ok m
      | none => c.compileFile p path text := by
  have stored : (c.cache.lookup (c.fingerprint p path text) (c.isValid p path)).1 =
      c.stored? p path text := c.cache.lookup_fst _ _
  have run : c.module p path =
      match (c.cache.lookup (c.fingerprint p path text) (c.isValid p path)).1 with
      | some m => .ok m
      | none => c.compileFile p path text := by
    unfold module compileModule
    rw [found]
    dsimp only
    split
    · rename_i hit
      have hit : (c.cache.lookup (c.fingerprint p path text) (c.isValid p path)).1 = _ := hit
      rw [hit]
    · rename_i miss
      have miss : (c.cache.lookup (c.fingerprint p path text) (c.isValid p path)).1 = _ := miss
      rw [miss]
      dsimp only
      split
      · rename_i made
        exact made.symm
      · rename_i made
        exact made.symm
  rw [run, stored]

theorem Alike.fingerprint (h : Alike c d) (p : Project) (path text : String) :
    d.fingerprint p path text = c.fingerprint p path text := by
  unfold Compiler.fingerprint content
  rw [h.repair, h.aliases]

theorem Alike.repaired (h : Alike c d) (p : Project) (path text : String) :
    d.repaired p path text = c.repaired p path text := by
  unfold Compiler.repaired
  rw [h.repair, h.aliases]

theorem Alike.compileFile (h : Alike c d) (p : Project) (path text : String) :
    d.compileFile p path text = c.compileFile p path text := by
  unfold Compiler.compileFile compileText
  rw [h.fingerprint, h.resolution, h.repaired]

/-- A module that is compiled anew is stored under the fingerprint of its file, with the report of
its repair. -/
theorem compileFile_ok (h : c.compileFile p path text = .ok m) :
    m.fingerprint = c.fingerprint p path text ∧ m.report = (c.repaired p path text).report := by
  unfold compileFile compileText at h
  dsimp only at h
  split at h
  · cases h
    exact ⟨rfl, rfl⟩
  · cases h

/-- Only what is stored under the fingerprint of a file decides what the file gives. -/
theorem module_congr (alike : Alike c d)
    (same : ∀ text, p.get? path = some text →
      d.cache.get? (c.fingerprint p path text) = c.cache.get? (c.fingerprint p path text)) :
    d.module p path = c.module p path := by
  cases found : p.get? path with
  | none =>
    unfold module
    rw [compileModule_missing c found, compileModule_missing d found]
  | some text =>
    have valid : d.isValid p path = c.isValid p path := by
      funext m
      rw [isValid, isValid, alike.resolution]
    have stored : d.stored? p path text = c.stored? p path text := by
      rw [stored?, stored?, alike.fingerprint, same text found, valid]
    rw [module_eq found, module_eq found, stored, alike.compileFile]

theorem alike_compileModule (c : Compiler) (p : Project) (path : String) (profile : Profile) :
    Alike c (c.compileModule p path profile).2 := by
  unfold compileModule
  split
  · exact .refl c
  · dsimp only
    split
    · exact ⟨rfl, rfl⟩
    · split <;> exact ⟨rfl, rfl⟩

/-- Compiling a file changes the store under the fingerprint of the file only. -/
theorem get?_compileModule (found : p.get? path = some text) {g : Fingerprint}
    (ne : g ≠ c.fingerprint p path text) :
    (c.compileModule p path (p.profile path)).2.cache.get? g = c.cache.get? g := by
  have looked := c.cache.get?_lookup (c.fingerprint p path text) (c.isValid p path) g
  unfold compileModule
  rw [found]
  dsimp only
  split
  · exact looked
  · split
    · rename_i m made
      have made : c.compileFile p path text = .ok m := made
      rw [← (compileFile_ok made).1] at ne
      exact (CompileCache.get?_insert_of_ne _ ne).trans looked
    · exact looked

/-! ## The search -/

/-- A search that asks for each module what it is, and keeps no store. -/
def searchBy (module : String → Except CompileError CompiledModule) :
    (rounds : Nat) → Search → Except CompileError Search
  | 0, s => .ok s
  | rounds + 1, s =>
    match s.queue with
    | [] => .ok s
    | path :: queue =>
      match module path with
      | .error e => .error e
      | .ok m =>
        match Search.reach { s with queue } path m.source m.imports with
        | .error e => .error e
        | .ok s => searchBy module rounds (s.add path m)

variable {messages : List (List UInt8)}

/-- Without collisions, different paths have different fingerprints. -/
theorem fingerprint_ne (free : Sha256.CollisionFree messages) (covers : Covers (· ∈ messages) c p)
    {other text' : String} (found : p.get? path = some text) (found' : p.get? other = some text')
    (ne : other ≠ path) : c.fingerprint p other text' ≠ c.fingerprint p path text := by
  intro same
  have digest : Sha256.hash (c.content p other text') = Sha256.hash (c.content p path text) :=
    congrArg Fingerprint.bytes same
  have mem := covers.mem found'
  have content := free.injective _ mem _ (covers.mem found) digest
  have short := Nat.lt_of_lt_of_le (free.short _ mem) (by decide : 2 ^ 61 ≤ 2 ^ 64)
  exact ne (Fingerprint.content_inj (isPlain_sanitize c.repair c.aliases (p.profile other) text')
    (isPlain_sanitize c.repair c.aliases (p.profile path) text) content short).1

/-- A search compiles each path once, so what it stores on the way it does not take out again. -/
theorem search_fst (free : Sha256.CollisionFree messages) (rounds : Nat) {c d : Compiler}
    {s : Search} {done : List String} (covers : Covers (· ∈ messages) c p) (alike : Alike c d)
    (same : ∀ path ∉ done, ∀ text, p.get? path = some text →
      d.cache.get? (c.fingerprint p path text) = c.cache.get? (c.fingerprint p path text))
    (split : (done ++ s.queue).Perm s.seen) (nodup : s.seen.Nodup) :
    (search p rounds d s).1 = searchBy (c.module p) rounds s := by
  induction rounds generalizing d s done with
  | zero => rfl
  | succ rounds ih =>
    unfold searchBy
    cases first : s.queue with
    | nil => rw [search_empty first]
    | cons path queue =>
      rw [first] at split
      have fresh : path ∉ done := fun mem =>
        (List.nodup_append.mp (split.nodup_iff.mpr nodup)).2.2 path mem path List.mem_cons_self rfl
      have here : (d.compileModule p path (p.profile path)).1 = c.module p path :=
        module_congr alike (same path fresh)
      rw [search_step first]
      dsimp only
      rw [← here]
      cases found : p.get? path with
      | none => rw [compileModule_missing d found]
      | some text =>
        have alike' := alike_compileModule d p path (p.profile path)
        -- the round stores something under the fingerprint of this path at most
        have same' : ∀ other ∉ done ++ [path], ∀ text', p.get? other = some text' →
            (d.compileModule p path (p.profile path)).2.cache.get? (c.fingerprint p other text') =
              c.cache.get? (c.fingerprint p other text') := by
          intro other unseen text' found'
          rw [List.mem_append, not_or, List.mem_singleton] at unseen
          rw [← same other unseen.1 text' found', ← alike.fingerprint]
          refine get?_compileModule found ?_
          rw [alike.fingerprint, alike.fingerprint]
          exact fingerprint_ne free covers found found' unseen.2
        generalize d.compileModule p path (p.profile path) = r at alike' same'
        obtain ⟨_ | m, d'⟩ := r
        · rfl
        · dsimp only
          cases reach : Search.reach { s with queue } path m.source m.imports with
          | error e => rfl
          | ok t =>
            have reaches := Search.reach_ok (s := { s with queue }) nodup reach
            obtain ⟨new, newQueue, newSeen, -⟩ := reaches.grown
            refine ih (alike.trans alike') same' ?_ reaches.nodup
            show (done ++ [path] ++ t.queue).Perm t.seen
            rw [newQueue, newSeen, List.append_assoc, List.singleton_append, ← List.cons_append,
              ← List.append_assoc]
            exact (split.append_right new).trans (List.perm_append_comm.trans
              ((List.reverse_perm new).symm.append_right _))

variable {f g : String → Except CompileError CompiledModule}

theorem searchBy_step {s : Search} {queue : List String} (first : s.queue = path :: queue)
    (rounds : Nat) :
    searchBy f (rounds + 1) s =
      match f path with
      | .error e => .error e
      | .ok m =>
        match Search.reach { s with queue } path m.source m.imports with
        | .error e => .error e
        | .ok s => searchBy f rounds (s.add path m) := by
  rw [searchBy, first]

/-- A round of a search that ends well. -/
theorem searchBy_step_ok {s t : Search} {queue : List String} (first : s.queue = path :: queue)
    {rounds : Nat} (h : searchBy f (rounds + 1) s = .ok t) :
    ∃ m u, f path = .ok m ∧ Search.reach { s with queue } path m.source m.imports = .ok u ∧
      searchBy f rounds (u.add path m) = .ok t := by
  rw [searchBy_step first] at h
  split at h
  · cases h
  · rename_i m made
    split at h
    · cases h
    · rename_i u reach
      exact ⟨m, u, made, reach, h⟩

theorem modules_reach {s u : Search} {source : SourceFile} {imports : List ResolvedImport}
    (h : s.reach path source imports = .ok u) : u.modules = s.modules := by
  induction imports generalizing s with
  | nil =>
    cases h
    rfl
  | cons i rest ih =>
    unfold Search.reach at h
    split at h
    · cases h
    · exact ih h
    · split at h
      · exact ih h
      · have kept := ih h
        exact kept

theorem mem_keys_insertSorted {name key : String} (m : CompiledModule)
    {modules : List (String × CompiledModule)} (h : key = name ∨ key ∈ modules.map Prod.fst) :
    key ∈ (insertSorted name m modules).map Prod.fst := by
  have found : ∃ n, (insertSorted name m modules).lookup key = some n := by
    rw [lookup_insertSorted]
    split
    · exact ⟨m, rfl⟩
    · rename_i other
      exact lookup_of_mem_keys (h.resolve_left other)
  obtain ⟨n, found⟩ := found
  exact List.mem_map.mpr ⟨_, mem_of_lookup found, rfl⟩

/-- What was compiled stays. -/
theorem keys_searchBy {s t : Search} {rounds : Nat} (h : searchBy f rounds s = .ok t)
    (mem : path ∈ s.modules.map Prod.fst) : path ∈ t.modules.map Prod.fst := by
  induction rounds generalizing s with
  | zero =>
    cases h
    exact mem
  | succ rounds ih =>
    cases first : s.queue with
    | nil =>
      unfold searchBy at h
      rw [first] at h
      cases h
      exact mem
    | cons other queue =>
      obtain ⟨m, u, -, reach, h⟩ := searchBy_step_ok first h
      refine ih h (mem_keys_insertSorted m (Or.inr ?_))
      rw [modules_reach reach]
      exact mem

/-- The modules of a search are what their paths give. -/
theorem mem_searchBy {s t : Search} {rounds : Nat} (h : searchBy f rounds s = .ok t)
    (mem : (path, m) ∈ t.modules) : (path, m) ∈ s.modules ∨ f path = .ok m := by
  induction rounds generalizing s with
  | zero =>
    cases h
    exact Or.inl mem
  | succ rounds ih =>
    cases first : s.queue with
    | nil =>
      unfold searchBy at h
      rw [first] at h
      cases h
      exact Or.inl mem
    | cons other queue =>
      obtain ⟨n, u, made, reach, h⟩ := searchBy_step_ok first h
      rcases ih h with old | found
      · rcases mem_insertSorted old with eq | old
        · cases eq
          exact Or.inr made
        · rw [modules_reach reach] at old
          exact Or.inl old
      · exact Or.inr found

/-- Only what the modules of the outcome are matters to a search that ends well. -/
theorem searchBy_congr {s t : Search} {rounds : Nat} (h : searchBy f rounds s = .ok t)
    (same : ∀ path ∈ t.modules.map Prod.fst, g path = f path) :
    searchBy g rounds s = .ok t := by
  induction rounds generalizing s with
  | zero => exact h
  | succ rounds ih =>
    cases first : s.queue with
    | nil =>
      unfold searchBy at h ⊢
      rw [first] at h ⊢
      exact h
    | cons other queue =>
      obtain ⟨m, u, made, reach, h⟩ := searchBy_step_ok first h
      have last : other ∈ t.modules.map Prod.fst :=
        keys_searchBy h (mem_keys_insertSorted m (Or.inl rfl))
      rw [searchBy_step first, same other last, made]
      dsimp only
      rw [reach]
      exact ih h

/-! ## Whole compilations -/

theorem compile_fst (free : Sha256.CollisionFree messages) (covers : Covers (· ∈ messages) c p)
    (manifest : Option Manifest) :
    (c.compile p manifest).1 =
      (searchBy (c.module p) p.files.length (start p manifest)).map (finish p) := by
  have queued : ([] ++ (start p manifest).queue).Perm (start p manifest).seen := .refl _
  rw [compile_eq]
  dsimp only
  rw [search_fst free p.files.length covers (.refl c) (fun _ _ _ _ => rfl) queued
    (by simp [start])]

theorem compile_eq_ok_iff (free : Sha256.CollisionFree messages)
    (covers : Covers (· ∈ messages) c p) (manifest : Option Manifest) {r : CompiledProject} :
    (c.compile p manifest).1 = .ok r ↔
      ∃ s, searchBy (c.module p) p.files.length (start p manifest) = .ok s ∧ finish p s = r := by
  rw [compile_fst free covers]
  cases searchBy (c.module p) p.files.length (start p manifest) <;> simp [Except.map]

/-- The modules of a compiled project are what their paths give. -/
theorem mem_modules_compile (free : Sha256.CollisionFree messages)
    (covers : Covers (· ∈ messages) c p) {manifest : Option Manifest} {r : CompiledProject}
    (h : (c.compile p manifest).1 = .ok r) (mem : (path, m) ∈ r.modules) :
    c.module p path = .ok m := by
  obtain ⟨s, found, rfl⟩ := (compile_eq_ok_iff free covers manifest).mp h
  rcases mem_searchBy found mem with none | made
  · cases none
  · exact made

theorem module_stored (found : p.get? path = some text) (stored : c.stored? p path text = some m) :
    c.module p path = .ok m := by
  rw [module_eq found, stored]

theorem module_not_stored (found : p.get? path = some text)
    (stored : c.stored? p path text = none) :
    c.module p path = c.compileFile p path text := by
  rw [module_eq found, stored]

theorem stored?_of_empty (empty : c.cache.entries = []) (p : Project) (path text : String) :
    c.stored? p path text = none := by
  unfold stored? CompileCache.get?
  rw [empty]
  rfl

/-- What two compilers have for a file differs in the reports at most. -/
theorem module_code_eq (free : Sha256.CollisionFree messages) (alike : Alike c d)
    (covers : Covers (· ∈ messages) c p) (hc : c.Sound (· ∈ messages)) (hd : d.Sound (· ∈ messages))
    (found : p.get? path = some text) {n : CompiledModule} (hm : c.module p path = .ok m)
    (hn : d.module p path = .ok n) : m.code = n.code ∧ m.fingerprint = n.fingerprint := by
  have first := (compileModule_spec hc found (covers.mem found)).2.2
  have second := (compileModule_spec hd found ((covers.alike alike).mem found)).2.2
  have code := first.code_eq free alike (covers.mem found) second
  rw [show (c.compileModule p path (p.profile path)).1 = .ok m from hm] at first code
  rw [show (d.compileModule p path (p.profile path)).1 = .ok n from hn] at second code
  cases first with
  | compiled one =>
    cases second with
    | compiled two =>
      have same : d.fingerprint p path text = c.fingerprint p path text := alike.fingerprint ..
      exact ⟨Except.ok.inj code, one.fingerprint.trans (two.fingerprint.trans same).symm⟩

/-- Whatever is taken from the store for a module of the project was stored with the report that the
repair of its file has now. -/
def Current (d : Compiler) (p : Project) (r : CompiledProject) : Prop :=
  ∀ path m, (path, m) ∈ r.modules → ∀ text, p.get? path = some text →
    ∀ n, d.stored? p path text = some n → n.report = (d.repaired p path text).report

/-- Without a store, a module has the report of the repair of its file. -/
theorem report_of_empty (empty : c.cache.entries = []) (found : p.get? path = some text)
    (made : c.module p path = .ok m) : m.report = (c.repaired p path text).report := by
  rw [module_not_stored found (stored?_of_empty empty ..)] at made
  exact (compileFile_ok made).2

/-- A compiler whose store is current for what a new one compiles compiles the same. -/
theorem compile_eq_of_current (free : Sha256.CollisionFree messages) (alike : Alike c d)
    (covers : Covers (· ∈ messages) c p) (empty : c.cache.entries = [])
    (hd : d.Sound (· ∈ messages)) {manifest : Option Manifest} {r : CompiledProject}
    (h : (c.compile p manifest).1 = .ok r) (current : d.Current p r) :
    (d.compile p manifest).1 = .ok r := by
  obtain ⟨s, found, rfl⟩ := (compile_eq_ok_iff free covers manifest).mp h
  refine (compile_eq_ok_iff free (covers.alike alike) manifest).mpr
    ⟨s, searchBy_congr found fun path mem => ?_, rfl⟩
  obtain ⟨⟨path, m⟩, there, rfl⟩ := List.mem_map.mp mem
  dsimp only
  have made := mem_modules_compile free covers h there
  cases file : p.get? path with
  | none =>
    unfold module at made
    rw [compileModule_missing c file] at made
    cases made
  | some text =>
    cases stored : d.stored? p path text with
    | none =>
      rw [module_not_stored file stored, alike.compileFile,
        module_not_stored file (stored?_of_empty empty ..)]
    | some n =>
      have taken := module_stored file stored
      obtain ⟨code, fingerprint⟩ :=
        module_code_eq free alike covers (.of_empty empty) hd file made taken
      have report : n.report = m.report := by
        rw [current path m there text file n stored, alike.repaired,
          report_of_empty empty file made]
      rw [taken, made, CompiledModule.eq_of_code code fingerprint report.symm]

/-- A compiler that reports as a new one does has a store that is current. -/
theorem current_of_report_eq (free : Sha256.CollisionFree messages) (alike : Alike c d)
    (covers : Covers (· ∈ messages) c p) (empty : c.cache.entries = []) {manifest : Option Manifest}
    {r r' : CompiledProject} (h : (c.compile p manifest).1 = .ok r)
    (h' : (d.compile p manifest).1 = .ok r') (same : r'.report = r.report) : d.Current p r := by
  intro path m mem text file n stored
  -- the module of that path in the later outcome is the stored one, and reports the same
  have mem' : (path, m.report) ∈ r'.report.modules := by
    rw [same]
    exact List.mem_map.mpr ⟨_, mem, rfl⟩
  obtain ⟨⟨path', n'⟩, there, eq⟩ := List.mem_map.mp mem'
  have samePath : path' = path := congrArg Prod.fst eq
  have sameReport : n'.report = m.report := congrArg Prod.snd eq
  subst samePath
  have taken := mem_modules_compile free (covers.alike alike) h' there
  rw [module_stored file stored] at taken
  cases taken
  rw [sameReport, alike.repaired]
  exact report_of_empty empty file (mem_modules_compile free covers h mem)

/-! ## Where stored reports come from -/

/-- Everything in the store was put there for a file of one of these projects, under the fingerprint
and with the report of that file. -/
def Remembers (known : Project → Prop) (c : Compiler) : Prop :=
  ∀ e ∈ c.cache.entries, ∃ p path text, known p ∧ p.get? path = some text ∧
    e.1 = c.fingerprint p path text ∧ e.2.report = (c.repaired p path text).report

variable {known : Project → Prop}

theorem remembers_of_empty (empty : c.cache.entries = []) : c.Remembers known := by
  intro e he
  rw [empty] at he
  cases he

/-- Compiling a file of a known project puts at most that file into the store. -/
theorem remembers_compileModule (h : c.Remembers known) (k : known p) (path : String) :
    (c.compileModule p path (p.profile path)).2.Remembers known := by
  cases found : p.get? path with
  | none =>
    rw [compileModule_missing c found]
    exact h
  | some text =>
    have looked := c.cache.entries_lookup (c.fingerprint p path text) (c.isValid p path)
    unfold compileModule
    rw [found]
    dsimp only
    split
    · exact fun e he => h e (looked ▸ he)
    · split
      · rename_i m made
        have made : c.compileFile p path text = .ok m := made
        obtain ⟨fingerprint, report⟩ := compileFile_ok made
        intro e he
        rcases List.mem_cons.mp he with rfl | he
        · exact ⟨p, path, text, k, found, fingerprint, report⟩
        · exact h e (looked ▸ (List.mem_filter.mp he).1)
      · exact fun e he => h e (looked ▸ he)

theorem remembers_search (rounds : Nat) {c : Compiler} (s : Search) (h : c.Remembers known)
    (k : known p) : (search p rounds c s).2.Remembers known := by
  induction rounds generalizing c s with
  | zero => exact h
  | succ rounds ih =>
    cases queue : s.queue with
    | nil =>
      rw [search_empty queue]
      exact h
    | cons path rest =>
      have one := remembers_compileModule h k path
      rw [search_step queue]
      generalize c.compileModule p path (p.profile path) = r at one
      obtain ⟨_ | m, d⟩ := r
      · exact one
      · dsimp only
        split
        · exact one
        · exact ih _ one

/-- What is stored after some calls was stored for their files. -/
theorem remembers_after (calls : List Call) {c : Compiler} (h : c.Remembers known)
    (k : ∀ call ∈ calls, known call.1) : (c.after calls).Remembers known := by
  induction calls generalizing c with
  | nil => exact h
  | cons call rest ih =>
    have one := remembers_search call.1.files.length (start call.1 call.2) h
      (k call List.mem_cons_self)
    have first : (c.compile call.1 call.2).2 =
        (search call.1 call.1.files.length c (start call.1 call.2)).2 := by rw [compile_eq]
    rw [after, first]
    exact ih one fun call' mem => k call' (List.mem_cons_of_mem _ mem)

/-- Whenever a file of one of these projects is repaired to the same code as the file of that path
here, it has the same report. -/
def Agrees (c : Compiler) (known : Project → Prop) (p : Project) : Prop :=
  ∀ earlier, known earlier → ∀ path text text', p.get? path = some text →
    earlier.get? path = some text' → earlier.profile path = p.profile path →
      (c.repaired earlier path text').text = (c.repaired p path text).text →
        (c.repaired earlier path text').bindings = (c.repaired p path text).bindings →
          (c.repaired earlier path text').report = (c.repaired p path text).report

theorem Alike.agrees (alike : Alike c d) (h : c.Agrees known p) : d.Agrees known p := by
  intro earlier k path text text' found found' profile same bindings
  simp only [alike.repaired] at same bindings ⊢
  exact h earlier k path text text' found found' profile same bindings

/-- A store that was filled for such projects is current. -/
theorem current_of_agrees (free : Sha256.CollisionFree messages) (h : d.Remembers known)
    (covers : Covers (· ∈ messages) d p) (covered : ∀ p, known p → Covers (· ∈ messages) d p)
    (agrees : d.Agrees known p) (r : CompiledProject) : d.Current p r := by
  intro path m _ text found n stored
  have there := (Option.filter_eq_some_iff.mp stored).1
  obtain ⟨earlier, path', text', k, found', fingerprint, report⟩ := h _ (mem_of_lookup there)
  have digest : Sha256.hash (d.content p path text) = Sha256.hash (d.content earlier path' text') :=
    congrArg Fingerprint.bytes fingerprint
  -- the same fingerprint is of the same content
  have mem := covers.mem found
  have content := free.injective _ mem _ ((covered earlier k).mem found') digest
  have short := Nat.lt_of_lt_of_le (free.short _ mem) (by decide : 2 ^ 61 ≤ 2 ^ 64)
  obtain ⟨rfl, profile, same, bindings⟩ := Fingerprint.content_inj
    (isPlain_sanitize d.repair d.aliases (p.profile path) text)
    (isPlain_sanitize d.repair d.aliases (earlier.profile path') text') content short
  rw [report]
  exact agrees earlier k path text text' found found' profile.symm same.symm bindings.symm

/-- The contents of the files of each of some calls are among those of all of them. -/
theorem covers_contentsOf (c : Compiler) {calls : List Call} {call : Call} (h : call ∈ calls) :
    Covers (· ∈ c.contentsOf calls) c call.1 :=
  fun _ hx => List.mem_flatMap.mpr ⟨call, h, hx⟩

/-- A compiler that has served some calls, seen from a further one. -/
theorem after_spec (c : Compiler) (empty : c.cache.entries = []) (calls : List Call) (call : Call) :
    Alike c (c.after calls) ∧ (c.after calls).Sound (· ∈ c.contentsOf (call :: calls)) ∧
      ∀ k ∈ call :: calls, Covers (· ∈ c.contentsOf (call :: calls)) c k.1 := by
  have covers (k) (hk : k ∈ call :: calls) := covers_contentsOf c hk
  obtain ⟨alike, sound⟩ := after_sound calls (fun k hk => covers k (List.mem_cons_of_mem call hk))
    (.of_empty empty)
  exact ⟨alike, sound, covers⟩

theorem compile_report_of_current (config : Config) (calls : List Call) (call : Call)
    (free : Sha256.CollisionFree ((ofConfig config).contentsOf (call :: calls)))
    (current : ∀ r, ((ofConfig config).compile call.1 call.2).1 = .ok r →
      ((ofConfig config).after calls).Current call.1 r) :
    (((ofConfig config).after calls).compile call.1 call.2).1.map CompiledProject.report =
      ((ofConfig config).compile call.1 call.2).1.map CompiledProject.report := by
  obtain ⟨alike, sound, all⟩ := after_spec (ofConfig config) rfl calls call
  have covers := all call List.mem_cons_self
  have searches := search_code free call.1.files.length (s := start call.1 call.2) alike covers
    (.of_empty rfl) sound rfl
  rcases map_eq_map_cases searches with ⟨e, fresh, later⟩ | ⟨s, t, fresh, later, -⟩
  · rw [compile_eq, compile_eq, fresh, later]
  · have compiled : ((ofConfig config).compile call.1 call.2).1 = .ok (finish call.1 s) := by
      rw [compile_eq, fresh]
      rfl
    rw [compile_eq_of_current free alike covers rfl sound compiled (current _ compiled), compiled]

/-- After calls whose files agree with those of a further one, a compiler reports for this one what a
new compiler reports. -/
theorem compile_report_of_agrees (config : Config) (calls : List Call) (call : Call)
    (free : Sha256.CollisionFree ((ofConfig config).contentsOf (call :: calls)))
    (agrees : (ofConfig config).Agrees (· ∈ calls.map Prod.fst) call.1) :
    (((ofConfig config).after calls).compile call.1 call.2).1.map CompiledProject.report =
      ((ofConfig config).compile call.1 call.2).1.map CompiledProject.report := by
  obtain ⟨alike, -, all⟩ := after_spec (ofConfig config) rfl calls call
  have covers := all call List.mem_cons_self
  have remembers : ((ofConfig config).after calls).Remembers (· ∈ calls.map Prod.fst) :=
    remembers_after calls (remembers_of_empty rfl) fun k hk => List.mem_map.mpr ⟨k, hk, rfl⟩
  refine compile_report_of_current config calls call free fun r _ =>
    current_of_agrees free remembers (covers.alike alike) (fun p hp => ?_) (alike.agrees agrees) r
  obtain ⟨k, hk, rfl⟩ := List.mem_map.mp hp
  exact (all k (List.mem_cons_of_mem call hk)).alike alike

/-- A compiler that has served any calls reports what a new one reports exactly when whatever it
takes from the store was stored with the report that the repair has now. -/
theorem compile_report_after_iff (config : Config) (calls : List Call) (call : Call)
    (free : Sha256.CollisionFree ((ofConfig config).contentsOf (call :: calls))) :
    (((ofConfig config).after calls).compile call.1 call.2).1.map CompiledProject.report =
        ((ofConfig config).compile call.1 call.2).1.map CompiledProject.report ↔
      ∀ r, ((ofConfig config).compile call.1 call.2).1 = .ok r →
        ((ofConfig config).after calls).Current call.1 r := by
  refine ⟨fun same r fresh => ?_, compile_report_of_current config calls call free⟩
  obtain ⟨alike, -, all⟩ := after_spec (ofConfig config) rfl calls call
  have covers := all call List.mem_cons_self
  rw [fresh] at same
  rcases map_eq_map_cases same with ⟨e, -, absurd⟩ | ⟨r', r₀, later, eq, report⟩
  · cases absurd
  · cases eq
    exact current_of_report_eq free alike covers rfl fresh later report

/-- An entry that is given in fences and then without them: what the store has is not current. -/
theorem compile_report_after_iff_unfenced :
    let fenced := Project.single "/App.tsx" "```tsx\nexport default () => null;\n```\n"
    let bare := Project.single "/App.tsx" "export default () => null;\n"
    Sha256.CollisionFree ((ofConfig {}).contentsOf [(bare, none), (fenced, none)]) ∧
      ∃ r, ((ofConfig {}).compile bare none).1 = .ok r ∧
        ¬ ((ofConfig {}).after [(fenced, none)]).Current bare r := by
  intro fenced bare
  have free : Sha256.CollisionFree ((ofConfig {}).contentsOf [(bare, none), (fenced, none)]) :=
    ⟨by decide +kernel, by decide +kernel⟩
  have differ : (((ofConfig {}).after [(fenced, none)]).compile bare none).1.toOption.map
      CompiledProject.report ≠
        ((ofConfig {}).compile bare none).1.toOption.map CompiledProject.report := by
    decide +kernel
  have compiles : ((ofConfig {}).compile bare none).1.toOption.isSome := by decide +kernel
  cases fresh : ((ofConfig {}).compile bare none).1 with
  | error e =>
    rw [fresh] at compiles
    cases compiles
  | ok r =>
    refine ⟨free, r, rfl, fun current => differ ?_⟩
    have all : ∀ r', ((ofConfig {}).compile bare none).1 = .ok r' →
        ((ofConfig {}).after [(fenced, none)]).Current bare r' := by
      intro r' fresh'
      rw [fresh] at fresh'
      cases fresh'
      exact current
    have same := (compile_report_after_iff {} [(fenced, none)] (bare, none) free).mpr all
    rcases map_eq_map_cases same with ⟨e, later, fresh'⟩ | ⟨r', r₀, later, fresh', report⟩
    · rw [later, fresh']
    · rw [later, fresh']
      exact congrArg some report

/-- The fences of the text that was compiled first are reported for the text that never had any. -/
theorem compile_entryFixes_stale :
    let fenced := Project.single "/App.tsx" "```tsx\nexport default () => null;\n```\n"
    let bare := Project.single "/App.tsx" "export default () => null;\n"
    (((ofConfig {}).after [(fenced, none)]).compile bare none).1.toOption.map
        CompiledProject.entryFixes = some [.strippedFences] ∧
      ((ofConfig {}).compile bare none).1.toOption.map CompiledProject.entryFixes = some [] ∧
      (sanitize {} defaultAliasPrefixes .entry "export default () => null;\n").fixes = [] := by
  decide +kernel

end Compiler

end TsxPreview
