import TsxPreview.Proofs.Compile.Store

/-!
The store does not show. A compiler that has compiled anything before gives what a new one gives: a
stored module is taken only for a file that would be compiled to the same code now.
-/

namespace TsxPreview

/-- No two of these messages have one digest, and each is one that the digest is defined for. -/
structure Sha256.CollisionFree (messages : List (List UInt8)) : Prop where
  short : ∀ x ∈ messages, x.length < 2 ^ 61
  injective : ∀ x ∈ messages, ∀ y ∈ messages, hash x = hash y → x = y

/-- What a compiled module is to a run. What was repaired in it is no part of that. -/
structure ModuleCode where
  path : String
  executable : Executable
  source : SourceFile

def CompiledModule.code (m : CompiledModule) : ModuleCode := ⟨m.path, m.executable, m.source⟩

/-- The entry and the code of the modules. -/
structure ProjectCode where
  entry : String
  modules : List (String × ModuleCode)

def CompiledProject.code (r : CompiledProject) : ProjectCode :=
  ⟨r.entry, r.modules.map (Prod.map id CompiledModule.code)⟩

namespace Compiler

/-! ## One module -/

/-- The executable form of a file, without the store. -/
def linked (c : Compiler) (p : Project) (path text : String) : Except TranspileError Executable :=
  let s := sanitize c.repair c.aliases (p.profile path) text
  Executable.ofText path (c.resolution p path) s.bindings s.text

theorem Alike.linked {c d : Compiler} (h : Alike c d) (p : Project) (path text : String) :
    d.linked p path text = c.linked p path text := by
  unfold Compiler.linked
  rw [h.repair, h.aliases, h.resolution]

variable {messages : List (List UInt8)}

/-- Without collisions, a module that stands for a file is the file compiled now. -/
theorem Compiles.linked_eq (free : Sha256.CollisionFree messages) {c : Compiler} {p : Project}
    {path text : String} {m : CompiledModule} (hk : c.content p path text ∈ messages)
    (h : Compiles (· ∈ messages) c p path text m) :
    c.linked p path text = .ok m.executable ∧ m.path = path ∧
      m.source = ⟨path, (sanitize c.repair c.aliases (p.profile path) text).text⟩ := by
  obtain ⟨o, makes, ho⟩ := h.origin
  have digest : Sha256.hash (o.content m) = Sha256.hash (c.content p path text) :=
    congrArg Fingerprint.bytes (makes.fingerprint.symm.trans h.fingerprint)
  -- equal digests are of equal contents, and a content determines what it was made of
  have content := free.injective _ ho _ hk digest
  have short := free.short _ ho
  obtain ⟨hpath, -, htext, hbindings⟩ := Fingerprint.content_inj makes.plain
    (isPlain_sanitize c.repair c.aliases (p.profile path) text) content
    (Nat.lt_of_lt_of_le short (by decide))
  have source : m.source =
      ⟨path, (sanitize c.repair c.aliases (p.profile path) text).text⟩ := by
    rw [← htext, ← makes.source.trans hpath]
  have executable := makes.executable_eq h.valid
  have parsed := makes.parsed
  rw [source] at parsed
  refine ⟨?_, hpath, source⟩
  unfold Compiler.linked Executable.ofText
  dsimp only
  rw [parsed, executable, hpath, hbindings]

/-- Two compilers with the same settings agree on a file, whatever they have stored. -/
theorem Outcome.code_eq (free : Sha256.CollisionFree messages) {c d : Compiler} (alike : Alike c d)
    {p : Project} {path text : String} (hk : c.content p path text ∈ messages)
    {r₁ r₂ : Except CompileError CompiledModule}
    (h₁ : Outcome (· ∈ messages) c p path text r₁) (h₂ : Outcome (· ∈ messages) d p path text r₂) :
    r₁.map CompiledModule.code = r₂.map CompiledModule.code := by
  have hk' : d.content p path text ∈ messages := by
    rw [content, alike.repair, alike.aliases]
    exact hk
  have same := alike.linked p path text
  -- both outcomes are those of the same linked form
  cases h₁ with
  | compiled m₁ =>
    obtain ⟨linked₁, path₁, source₁⟩ := m₁.linked_eq free hk
    cases h₂ with
    | compiled m₂ =>
      obtain ⟨linked₂, path₂, source₂⟩ := m₂.linked_eq free hk'
      rw [same, linked₁, Except.ok.injEq] at linked₂
      rw [alike.repair, alike.aliases] at source₂
      simp only [Except.map, CompiledModule.code, path₁, path₂, source₁, source₂, linked₂]
    | failed e₂ =>
      have : d.linked p path text = .error _ := e₂
      rw [same, linked₁] at this
      cases this
  | failed e₁ =>
    have failed₁ : c.linked p path text = .error _ := e₁
    cases h₂ with
    | compiled m₂ =>
      have linked₂ := (m₂.linked_eq free hk').1
      rw [same, failed₁] at linked₂
      cases linked₂
    | failed e₂ =>
      have failed₂ : d.linked p path text = .error _ := e₂
      rw [same, failed₁, Except.error.injEq] at failed₂
      rw [failed₂, alike.repair, alike.aliases]

/-! ## The search -/

/-- What the search goes by. -/
structure SearchCode where
  queue : List String
  seen : List String
  modules : List (String × ModuleCode)

def Search.code (s : Search) : SearchCode :=
  ⟨s.queue, s.seen, s.modules.map (Prod.map id CompiledModule.code)⟩

theorem Search.reach_code {s t : Search} (h : s.code = t.code) (path : String) (source : SourceFile)
    (imports : List ResolvedImport) :
    (s.reach path source imports).map Search.code = (t.reach path source imports).map Search.code := by
  induction imports generalizing s t with
  | nil => exact congrArg Except.ok h
  | cons i rest ih =>
    obtain ⟨queue, seen, modules⟩ := SearchCode.mk.injEq .. ▸ h
    unfold Search.reach
    cases i.resolution with
    | unresolved => rfl
    | package p => exact ih h
    | path target =>
      dsimp only
      rw [seen]
      split
      · exact ih h
      · refine ih ?_
        simp only [Search.code, queue, modules]

theorem Search.add_code {s t : Search} (h : s.code = t.code) (path : String) {m n : CompiledModule}
    (hm : m.code = n.code) : (s.add path m).code = (t.add path n).code := by
  obtain ⟨queue, seen, modules⟩ := SearchCode.mk.injEq .. ▸ h
  simp only [Search.code, Search.add, map_insertSorted, queue, seen, modules, hm]

/-- Two outcomes that agree under maps are both errors or both not. -/
theorem map_eq_map_cases {ε α β γ : Type} {f : α → γ} {g : β → γ} {x : Except ε α}
    {y : Except ε β} (h : x.map f = y.map g) :
    (∃ e, x = .error e ∧ y = .error e) ∨ ∃ a b, x = .ok a ∧ y = .ok b ∧ f a = g b := by
  cases x <;> cases y <;> simp_all [Except.map]

/-- Two searches with sound stores go the same way. -/
theorem search_code (free : Sha256.CollisionFree messages) {p : Project} (rounds : Nat)
    {c d : Compiler} {s t : Search} (alike : Alike c d) (covers : Covers (· ∈ messages) c p)
    (hc : c.Sound (· ∈ messages)) (hd : d.Sound (· ∈ messages)) (same : s.code = t.code) :
    (search p rounds c s).1.map Search.code = (search p rounds d t).1.map Search.code := by
  induction rounds generalizing c d s t with
  | zero => exact congrArg Except.ok same
  | succ rounds ih =>
    have queues : s.queue = t.queue := congrArg SearchCode.queue same
    cases queue : s.queue with
    | nil =>
      rw [search_empty queue, search_empty (queues ▸ queue)]
      exact congrArg Except.ok same
    | cons path rest =>
      have covers' := covers.alike alike
      have oneC := compileModule_sound covers hc path
      have oneD := compileModule_sound covers' hd path
      -- both searches compile the same path, and to the same code or the same error
      have modules : (c.compileModule p path (p.profile path)).1.map CompiledModule.code =
          (d.compileModule p path (p.profile path)).1.map CompiledModule.code := by
        cases found : p.get? path with
        | none => rw [compileModule_missing c found, compileModule_missing d found]
        | some text =>
          exact (compileModule_spec hc found (covers.mem found)).2.2.code_eq free alike
            (covers.mem found) (compileModule_spec hd found (covers'.mem found)).2.2
      rw [search_step queue, search_step (queues ▸ queue)]
      generalize c.compileModule p path (p.profile path) = r₁ at oneC modules
      generalize d.compileModule p path (p.profile path) = r₂ at oneD modules
      obtain ⟨r₁, c'⟩ := r₁
      obtain ⟨r₂, d'⟩ := r₂
      rcases map_eq_map_cases modules with ⟨e, rfl, rfl⟩ | ⟨m, n, rfl, rfl, code⟩
      · rfl
      · obtain ⟨-, executable, source⟩ := ModuleCode.mk.injEq .. ▸ code
        have imports : m.imports = n.imports := congrArg Executable.imports executable
        -- the code of a module has its imports, so both searches reach the same paths from it
        have started : ({ s with queue := rest } : Search).code =
            ({ t with queue := rest } : Search).code := by
          obtain ⟨-, seen, modules⟩ := SearchCode.mk.injEq .. ▸ same
          simp only [Search.code, seen, modules]
        have reached := Search.reach_code started path m.source m.imports
        dsimp only
        rw [imports, source] at reached ⊢
        rcases map_eq_map_cases reached with ⟨e, h₁, h₂⟩ | ⟨s', t', h₁, h₂, code'⟩
        · rw [h₁, h₂]
        · rw [h₁, h₂]
          have alike' : Alike c' d' :=
            ⟨by rw [oneD.1.repair, alike.repair, oneC.1.repair],
              by rw [oneD.1.aliases, alike.aliases, oneC.1.aliases]⟩
          exact ih alike' (covers.alike oneC.1) oneC.2 oneD.2 (Search.add_code code' path code)

/-- A compiler that has served any calls gives for a further one what a new compiler gives, error or
code: the same modules, each with the same executable form, imports and source. -/
theorem compile_after_code (config : Config) (calls : List Call) (call : Call)
    (free : Sha256.CollisionFree ((ofConfig config).contentsOf (call :: calls))) :
    (((ofConfig config).after calls).compile call.1 call.2).1.map CompiledProject.code =
      ((ofConfig config).compile call.1 call.2).1.map CompiledProject.code := by
  have covers : ∀ k ∈ call :: calls,
      Covers (· ∈ (ofConfig config).contentsOf (call :: calls)) (ofConfig config) k.1 :=
    fun k hk x hx => List.mem_flatMap.mpr ⟨k, hk, hx⟩
  have new : (ofConfig config).Sound
      (· ∈ (ofConfig config).contentsOf (call :: calls)) := .of_empty rfl
  obtain ⟨alike, kept⟩ := after_sound calls
    (fun k hk => covers k (List.mem_cons_of_mem _ hk)) new
  have searches := search_code free call.1.files.length (s := start call.1 call.2) alike
    (covers call List.mem_cons_self) new kept rfl
  rw [compile_eq, compile_eq]
  rcases map_eq_map_cases searches with ⟨e, h₁, h₂⟩ | ⟨s, t, h₁, h₂, code⟩
  · rw [h₁, h₂]
  · rw [h₁, h₂]
    have modules := congrArg SearchCode.modules code
    exact congrArg (fun m => Except.ok (ProjectCode.mk call.1.entry m)) modules.symm

/-- The file that the entry imports is renamed between two calls. -/
theorem compile_after_code_renamed :
    let app := ("/App.tsx", "import a from './a';\nexport default a;")
    let before : Project := ⟨[app, ("/a.ts", "export default 1;")], "/App.tsx"⟩
    let now : Project := ⟨[app, ("/a.js", "export default 1;")], "/App.tsx"⟩
    Sha256.CollisionFree ((ofConfig {}).contentsOf [(now, none), (before, none)]) ∧
      (((ofConfig {}).after [(before, none)]).compile now none).1.map CompiledProject.code =
        ((ofConfig {}).compile now none).1.map CompiledProject.code := by
  intro app before now
  have free : Sha256.CollisionFree ((ofConfig {}).contentsOf [(now, none), (before, none)]) :=
    ⟨by decide +kernel, by decide +kernel⟩
  exact ⟨free, compile_after_code {} [(before, none)] (now, none) free⟩

end Compiler

end TsxPreview
