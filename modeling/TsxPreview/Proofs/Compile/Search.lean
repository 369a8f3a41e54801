import TsxPreview.Proofs.Compile.Store
import TsxPreview.Proofs.Project

/-!
The search for the modules of a project. What was reached and what was compiled stand in a fixed
relation after every round: the compiled modules and the queue together are what was reached, each
path once, and every import of a compiled module leads to a path that was reached.
-/

namespace TsxPreview

/-- The least set that holds the entry and what the modules of its members import. -/
inductive Reached (entry : String) (modules : List (String × CompiledModule)) : String → Prop where
  | entry : Reached entry modules entry
  | import {path target : String} {m : CompiledModule} {i : ResolvedImport}
      (reached : Reached entry modules path) (found : modules.lookup path = some m)
      (mem : i ∈ m.imports) (resolved : i.resolution = .path target) :
      Reached entry modules target

theorem Reached.mono {entry path : String} {old new : List (String × CompiledModule)}
    (keeps : ∀ path m, old.lookup path = some m → new.lookup path = some m)
    (h : Reached entry old path) : Reached entry new path := by
  induction h with
  | entry => exact .entry
  | «import» _ found mem resolved ih => exact .import ih (keeps _ _ found) mem resolved

/-- A specifier is resolved to files that there are. -/
theorem Compiler.contains_of_resolution {c : Compiler} {p : Project} {path specifier target : String}
    (h : c.resolution p path specifier = .path target) : p.contains target = true := by
  unfold Compiler.resolution resolve at h
  dsimp only at h
  split at h
  · rename_i file found
    cases h
    obtain ⟨base, -, complete⟩ := Option.bind_eq_some_iff.mp found
    have exists' := List.find?_some complete
    exact exists'
  · split at h <;> cases h

/-- What names a package is not looked for among the files. -/
theorem Compiler.resolution_of_isExternal {c : Compiler} {specifier : String}
    (external : (SpecifierKind.classify specifier c.aliases).isExternal = true) (p : Project)
    (path : String) : (∃ q, c.resolution p path specifier = .package q) ∨
      c.resolution p path specifier = .unresolved := by
  have bare : SpecifierKind.classify specifier c.aliases = .bare := eq_of_beq external
  have spelled : Resolution.spelled? c.aliases path specifier = none := by
    unfold Resolution.spelled?
    rw [bare]
  unfold Compiler.resolution resolve
  rw [spelled]
  dsimp only [Option.bind_none]
  split
  · exact .inl ⟨_, rfl⟩
  · exact .inr rfl

namespace Compiler

/-! ## Imports of one module -/

/-- What reaching the imports of a module adds to a search. -/
structure Extends (s t : Search) (imports : List ResolvedImport) : Prop where
  grown : ∃ new, t.queue = s.queue ++ new ∧ t.seen = new.reverse ++ s.seen ∧
    ∀ target ∈ new, ∃ i ∈ imports, i.resolution = .path target
  modules : t.modules = s.modules
  nodup : t.seen.Nodup
  resolved : ∀ i ∈ imports, i.resolution ≠ .unresolved
  targets : ∀ i ∈ imports, ∀ target, i.resolution = .path target → target ∈ t.seen

theorem Extends.seen_mono {s t : Search} {imports : List ResolvedImport} (h : Extends s t imports)
    {path : String} (mem : path ∈ s.seen) : path ∈ t.seen := by
  obtain ⟨new, -, seen, -⟩ := h.grown
  rw [seen]
  exact List.mem_append_right _ mem

/-- An import that leads nowhere new. -/
theorem Extends.cons {s t : Search} {i : ResolvedImport} {imports : List ResolvedImport}
    (h : Extends s t imports) (resolved : i.resolution ≠ .unresolved)
    (target : ∀ path, i.resolution = .path path → path ∈ t.seen) : Extends s t (i :: imports) := by
  obtain ⟨new, queue, seen, from'⟩ := h.grown
  refine ⟨⟨new, queue, seen, fun path hp => ?_⟩, h.modules, h.nodup, ?_, ?_⟩
  · obtain ⟨j, hj, res⟩ := from' path hp
    exact ⟨j, List.mem_cons_of_mem _ hj, res⟩
  · rintro j hj
    rcases List.mem_cons.mp hj with rfl | hj
    · exact resolved
    · exact h.resolved j hj
  · rintro j hj path res
    rcases List.mem_cons.mp hj with rfl | hj
    · exact target path res
    · exact h.targets j hj path res

/-- An import that leads to a new path. -/
theorem Extends.grow {s t : Search} {i : ResolvedImport} {imports : List ResolvedImport}
    {target : String} (resolved : i.resolution = .path target)
    (h : Extends { s with queue := s.queue ++ [target], seen := target :: s.seen } t imports) :
    Extends s t (i :: imports) := by
  obtain ⟨new, queue, seen, from'⟩ := h.grown
  refine ⟨⟨target :: new, ?_, ?_, ?_⟩, h.modules, h.nodup, ?_, ?_⟩
  · rw [queue, List.append_assoc]
    rfl
  · rw [seen, List.reverse_cons, List.append_assoc]
    rfl
  · intro other hp
    rcases List.mem_cons.mp hp with rfl | hp
    · exact ⟨i, List.mem_cons_self, resolved⟩
    · obtain ⟨j, hj, eq⟩ := from' other hp
      exact ⟨j, List.mem_cons_of_mem _ hj, eq⟩
  · intro j hj
    rcases List.mem_cons.mp hj with rfl | hj
    · rw [resolved]
      simp
    · exact h.resolved j hj
  · intro j hj other eq
    rcases List.mem_cons.mp hj with rfl | hj
    · rw [resolved] at eq
      cases eq
      exact h.seen_mono List.mem_cons_self
    · exact h.targets j hj other eq

theorem Search.reach_ok {s t : Search} {path : String} {source : SourceFile}
    {imports : List ResolvedImport} (nodup : s.seen.Nodup)
    (h : s.reach path source imports = .ok t) : Extends s t imports := by
  induction imports generalizing s with
  | nil =>
    cases h
    exact ⟨⟨[], by simp, by simp, by simp⟩, rfl, nodup, by simp, by simp⟩
  | cons i rest ih =>
    unfold Search.reach at h
    split at h
    · cases h
    -- a package: nothing is queued
    · rename_i package res
      refine (ih nodup h).cons (by rw [res]; simp) fun target eq => ?_
      rw [res] at eq
      cases eq
    · rename_i target res
      split at h
      -- a path that was reached before
      · rename_i seen
        have old := List.contains_iff_mem.mp seen
        have extends' := ih nodup h
        refine extends'.cons (by rw [res]; simp) fun other eq => ?_
        rw [res] at eq
        cases eq
        exact extends'.seen_mono old
      · rename_i unseen
        have fresh : target ∉ s.seen := fun mem => unseen (List.contains_iff_mem.mpr mem)
        have nodup' : (target :: s.seen).Nodup := List.nodup_cons.mpr ⟨fresh, nodup⟩
        exact (ih nodup' h).grow res

/-- Reaching fails at an import that does not resolve. -/
theorem Search.reach_error {s : Search} {path : String} {source : SourceFile}
    {imports : List ResolvedImport} {e : CompileError}
    (h : s.reach path source imports = .error e) :
    ∃ i ∈ imports, i.resolution = .unresolved ∧ e = ⟨.resolution i.specifier path, some source⟩ := by
  induction imports generalizing s with
  | nil => cases h
  | cons i rest ih =>
    unfold Search.reach at h
    split at h
    · rename_i res
      cases h
      exact ⟨i, List.mem_cons_self, res, rfl⟩
    · obtain ⟨j, hj, found⟩ := ih h
      exact ⟨j, List.mem_cons_of_mem _ hj, found⟩
    · split at h
      · obtain ⟨j, hj, found⟩ := ih h
        exact ⟨j, List.mem_cons_of_mem _ hj, found⟩
      · obtain ⟨j, hj, found⟩ := ih h
        exact ⟨j, List.mem_cons_of_mem _ hj, found⟩

/-! ## The invariant -/

variable {known : List UInt8 → Prop}

theorem Compiles.alike {c d : Compiler} (alike : Alike c d) {p : Project} {path text : String}
    {m : CompiledModule} (h : Compiles known d p path text m) : Compiles known c p path text m := by
  refine ⟨h.origin, ?_, ?_⟩
  · rw [h.fingerprint, content, content, alike.repair, alike.aliases]
  · rw [← alike.resolution]
    exact h.valid

/-- What holds between the rounds of a search under the settings of `c`. -/
structure Invariant (known : List UInt8 → Prop) (c : Compiler) (p : Project) (s : Search) :
    Prop where
  nodup : s.seen.Nodup
  files : ∀ path ∈ s.seen, p.contains path = true
  split : (s.modules.map Prod.fst ++ s.queue).Perm s.seen
  reached : ∀ path ∈ s.seen, Reached p.entry s.modules path
  compiled : ∀ e ∈ s.modules, ∃ text, p.get? e.1 = some text ∧ Compiles known c p e.1 text e.2
  resolved : ∀ e ∈ s.modules, ∀ i ∈ e.2.imports, i.resolution ≠ .unresolved
  targets : ∀ e ∈ s.modules, ∀ i ∈ e.2.imports, ∀ target, i.resolution = .path target →
    target ∈ s.seen
  entry : p.entry ∈ s.seen

theorem Invariant.alike {c d : Compiler} (alike : Alike c d) {p : Project} {s : Search}
    (inv : Invariant known d p s) : Invariant known c p s := by
  refine { inv with compiled := fun e he => ?_ }
  obtain ⟨text, found, made⟩ := inv.compiled e he
  exact ⟨text, found, made.alike alike⟩

theorem Invariant.start {c : Compiler} {p : Project} (h : p.contains p.entry = true)
    (manifest : Option Manifest) : Invariant known c p (Compiler.start p manifest) where
  nodup := by simp [Compiler.start]
  files := by simpa [Compiler.start] using h
  split := .refl _
  reached := by
    intro path hp
    rw [List.mem_singleton.mp hp]
    exact .entry
  compiled := by simp [Compiler.start]
  resolved := by simp [Compiler.start]
  targets := by simp [Compiler.start]
  entry := List.mem_singleton.mpr rfl

/-- The first path of the queue has not been compiled. -/
theorem Invariant.fresh {c : Compiler} {p : Project} {s : Search} (inv : Invariant known c p s)
    {path : String} {queue : List String} (h : s.queue = path :: queue) :
    path ∉ s.modules.map Prod.fst := by
  have nodup := inv.split.nodup_iff.mpr inv.nodup
  rw [h] at nodup
  intro mem
  exact (List.nodup_append.mp nodup).2.2 path mem path List.mem_cons_self rfl

/-- Compiling the first path of the queue moves it to the modules, and what its imports lead to is
queued and reached. -/
theorem Invariant.split_step {c : Compiler} {p : Project} {s t : Search}
    (inv : Invariant known c p s) {path : String} {queue : List String}
    (first : s.queue = path :: queue) {m : CompiledModule}
    (reaches : Extends { s with queue } t m.imports) :
    ((insertSorted path m t.modules).map Prod.fst ++ t.queue).Perm t.seen := by
  obtain ⟨new, newQueue, newSeen, -⟩ := reaches.grown
  rw [newQueue, newSeen, reaches.modules]
  have keys := keys_insertSorted_perm m (inv.fresh first)
  have old : (path :: s.modules.map Prod.fst ++ queue).Perm s.seen := by
    refine List.Perm.trans ?_ inv.split
    rw [first]
    exact List.perm_middle.symm
  refine (keys.append_right _).trans ?_
  rw [← List.append_assoc]
  exact (old.append_right new).trans (List.perm_append_comm.trans
    ((List.reverse_perm new).symm.append_right _))

/-- The modules of before are found under their paths when one is added. -/
theorem Invariant.lookup_step {c : Compiler} {p : Project} {s : Search}
    (inv : Invariant known c p s) {path : String} {queue : List String}
    (first : s.queue = path :: queue) (m : CompiledModule) {other : String} {n : CompiledModule}
    (found : s.modules.lookup other = some n) :
    (insertSorted path m s.modules).lookup other = some n := by
  rw [lookup_insertSorted, if_neg ?_]
  · exact found
  · rintro rfl
    exact inv.fresh first (List.mem_map.mpr ⟨_, mem_of_lookup found, rfl⟩)

/-- A round keeps the invariant. -/
theorem Invariant.step {c : Compiler} {p : Project} {s t : Search} (inv : Invariant known c p s)
    {path text : String} {queue : List String} (first : s.queue = path :: queue)
    (found : p.get? path = some text) {m : CompiledModule} (made : Compiles known c p path text m)
    (reaches : Extends { s with queue } t m.imports) : Invariant known c p (t.add path m) := by
  obtain ⟨new, -, newSeen, from'⟩ := reaches.grown
  have modules : t.modules = s.modules := reaches.modules
  have in_seen : path ∈ s.seen := inv.split.subset (by rw [first]; simp)
  have keeps : ∀ k n, s.modules.lookup k = some n →
      (insertSorted path m t.modules).lookup k = some n := by
    intro k n hk
    rw [modules]
    exact inv.lookup_step first m hk
  -- what was found before is found again, and the new module under its path
  have here : (insertSorted path m t.modules).lookup path = some m := by
    rw [lookup_insertSorted, if_pos rfl]
  have split_entries {e : String × CompiledModule} (he : e ∈ insertSorted path m t.modules) :
      e = (path, m) ∨ e ∈ s.modules := modules ▸ mem_insertSorted he
  exact {
    nodup := reaches.nodup
    files := by
      intro q hq
      have hq : q ∈ new.reverse ++ s.seen := newSeen ▸ hq
      rcases List.mem_append.mp hq with hq | hq
      · obtain ⟨i, hi, res⟩ := from' q (List.mem_reverse.mp hq)
        exact contains_of_resolution ((made.valid i hi).trans res)
      · exact inv.files q hq
    split := inv.split_step first reaches
    reached := by
      intro q hq
      have hq : q ∈ new.reverse ++ s.seen := newSeen ▸ hq
      have before {q : String} (h : q ∈ s.seen) :
          Reached p.entry (insertSorted path m t.modules) q := (inv.reached q h).mono keeps
      rcases List.mem_append.mp hq with hq | hq
      · obtain ⟨i, hi, res⟩ := from' q (List.mem_reverse.mp hq)
        exact .import (before in_seen) here hi res
      · exact before hq
    compiled := by
      intro e he
      rcases split_entries he with rfl | he
      · exact ⟨text, found, made⟩
      · exact inv.compiled e he
    resolved := by
      intro e he
      rcases split_entries he with rfl | he
      · exact reaches.resolved
      · exact inv.resolved e he
    targets := by
      intro e he
      rcases split_entries he with rfl | he
      · exact reaches.targets
      · intro i hi target res
        exact reaches.seen_mono (inv.targets e he i hi target res)
    entry := reaches.seen_mono inv.entry }

/-- No more paths are reached than there are files. -/
theorem Invariant.length_le {c : Compiler} {p : Project} {s : Search} (inv : Invariant known c p s) :
    s.modules.length + s.queue.length ≤ p.files.length := by
  have subset : s.seen ⊆ p.files.map Prod.fst := by
    intro path hp
    obtain ⟨text, found⟩ := Option.isSome_iff_exists.mp (inv.files path hp)
    exact List.mem_map.mpr ⟨(path, text), mem_of_lookup found, rfl⟩
  have bound := inv.nodup.length_le_of_subset subset
  have size := inv.split.length_eq
  rw [List.length_append, List.length_map] at size
  rw [List.length_map] at bound
  omega

theorem Invariant.length_step {c : Compiler} {p : Project} {s : Search}
    (inv : Invariant known c p s) {path : String} {queue : List String}
    (first : s.queue = path :: queue) (m : CompiledModule) :
    (insertSorted path m s.modules).length = s.modules.length + 1 := by
  have keys := (keys_insertSorted_perm m (inv.fresh first)).length_eq
  rw [List.length_map, List.length_cons, List.length_map] at keys
  exact keys

/-- The error with which a search ends. -/
def IsRefusal (e : CompileError) : Prop :=
  e.error.kind = .resolution ∨ e.error.kind = .transpile

/-- A search that has rounds enough ends with an empty queue or refuses the project. -/
theorem search_invariant {p : Project} (rounds : Nat) {c : Compiler} {s : Search}
    (covers : Covers known c p) (sound : c.Sound known) (inv : Invariant known c p s)
    (enough : p.files.length ≤ rounds + s.modules.length) :
    (∀ t, (search p rounds c s).1 = .ok t → Invariant known c p t ∧ t.queue = []) ∧
      ∀ e, (search p rounds c s).1 = .error e → IsRefusal e := by
  induction rounds generalizing c s with
  | zero =>
    -- every file has been compiled, so there is no room for a queue
    have bound := inv.length_le
    have empty : s.queue = [] := List.length_eq_zero_iff.mp (by omega)
    rw [search_empty empty]
    refine ⟨fun t h => ?_, fun e h => by cases h⟩
    cases h
    exact ⟨inv, empty⟩
  | succ rounds ih =>
    cases first : s.queue with
    | nil =>
      rw [search_empty first]
      refine ⟨fun t h => ?_, fun e h => by cases h⟩
      cases h
      exact ⟨inv, first⟩
    | cons path queue =>
      have there := inv.files path (inv.split.subset (by rw [first]; simp))
      obtain ⟨text, found⟩ := Option.isSome_iff_exists.mp there
      obtain ⟨alike, kept, outcome⟩ := compileModule_spec sound found (covers.mem found)
      rw [search_step first]
      -- a round ends in three ways: the module does not transpile, one of its imports does not
      -- resolve, or the search goes on with one module more
      generalize c.compileModule p path (p.profile path) = r at alike kept outcome
      obtain ⟨_ | m, d⟩ := r
      · refine ⟨fun t h => (by cases h), fun e h => ?_⟩
        cases h
        cases outcome with
        | failed => exact Or.inr rfl
      · have made : Compiles known c p path text m := by
          cases outcome with
          | compiled h => exact h
        dsimp only
        split
        · rename_i e reach
          refine ⟨fun t h => (by cases h), fun e' h => ?_⟩
          cases h
          obtain ⟨i, -, -, rfl⟩ := Search.reach_error reach
          exact Or.inl rfl
        · rename_i t reach
          have reaches := Search.reach_ok (s := { s with queue }) inv.nodup reach
          have next := inv.step first found made reaches
          have size : (t.add path m).modules.length = s.modules.length + 1 := by
            show (insertSorted path m t.modules).length = _
            rw [reaches.modules]
            exact inv.length_step first m
          have rest := ih (c := d) (covers.alike alike) kept (next.alike alike.symm)
            (by omega)
          refine ⟨fun u h => ?_, rest.2⟩
          obtain ⟨last, empty⟩ := rest.1 u h
          exact ⟨last.alike alike, empty⟩

/-- The contents of the files of a project are among those of the calls that it is part of. -/
theorem mem_contentsOf (c : Compiler) {calls : List Call} {call : Call} (mem : call ∈ calls)
    {path text : String} (found : call.1.get? path = some text) :
    c.content call.1 path text ∈ c.contentsOf calls :=
  List.mem_flatMap.mpr ⟨call, mem, List.mem_map.mpr ⟨(path, text), mem_of_lookup found, rfl⟩⟩

/-- Every module of a compiled project stands for a file of it, and what the module asks for
resolves, whatever was compiled before. -/
theorem compile_modules {config : Config} {calls : List Call} {call : Call} {r : CompiledProject}
    (compiled : (((ofConfig config).after calls).compile call.1 call.2).1 = .ok r) {path : String}
    {m : CompiledModule} (module : r.module? path = some m) :
    ∃ text, call.1.get? path = some text ∧
      Compiles (· ∈ (ofConfig config).contentsOf (call :: calls)) (ofConfig config) call.1 path
        text m ∧
      ∀ i ∈ m.imports, i.resolution ≠ .unresolved := by
  obtain ⟨p, manifest⟩ := call
  have covers : ∀ k ∈ (p, manifest) :: calls,
      Covers (· ∈ (ofConfig config).contentsOf ((p, manifest) :: calls)) (ofConfig config) k.1 :=
    fun k hk x hx => List.mem_flatMap.mpr ⟨k, hk, hx⟩
  obtain ⟨alike, kept⟩ := after_sound calls
    (fun k hk => covers k (List.mem_cons_of_mem _ hk)) (.of_empty rfl)
  have here := (covers (p, manifest) List.mem_cons_self).alike alike
  obtain ⟨s, found, rfl⟩ := compile_eq_ok compiled
  cases entry : p.get? p.entry with
  | none =>
    -- without its entry, only a project without files is compiled, to no modules
    cases files : p.files.length with
    | zero =>
      rw [files] at found
      cases found
      cases module
    | succ rounds =>
      have queue : (start p manifest).queue = [p.entry] := rfl
      rw [files, search_step queue, compileModule_missing _ entry] at found
      cases found
  | some text =>
    have contains : p.contains p.entry = true := by
      unfold Project.contains
      rw [entry]
      rfl
    obtain ⟨inv, -⟩ := (search_invariant p.files.length here kept
      (Invariant.start contains manifest) (Nat.le_refl _)).1 s found
    have mem := mem_of_lookup module
    obtain ⟨text, got, made⟩ := inv.compiled _ mem
    exact ⟨text, got, made.alike alike, inv.resolved _ mem⟩

end Compiler

end TsxPreview
