import Mathlib.Data.List.Induction
import TsxPreview.Proofs.Preview.Sharing
import TsxPreview.Proofs.Preview.Uses

/-!
Shared previews of one page, one after another. Each mount takes the container over from the one
before and revokes it. However previews are mounted and dropped, the page shows the newest one alone,
or is left as it was made.
-/

namespace TsxPreview

open Document View

/-! ## Uses of shared previews -/

theorem Interaction.refresh_of_clean {m : Machine} (clean : m.realm.hooks.dirty = false)
    (container : NodeId) (root : Value) (d : Document) :
    (refresh container root).outcome ⟨m, d⟩ = (.ok (), ⟨m, d⟩) := by
  unfold refresh
  rw [outcome_bind, outcome_script]
  show (if m.realm.hooks.dirty = true then _ else _ : View Unit).outcome _ = _
  rw [clean]
  rfl

namespace MountedTree

open Page

variable {t : MountedTree} {p : Page} {style : NodeId} {lease : Nat} {around : Option NodeId}
  {g : Growth}

/-- The page after a use of a preview. -/
def pageAfter (t : MountedTree) (p : Page) : Use → Page
  | .dispatch target e => (t.dispatch p target e).2.2
  | .click selector => (t.click p selector).2.2
  | .input selector value => (t.input p selector value).2.2
  | .rerender => (t.rerender p).2.2
  | .runTimers => (t.runTimers p).2.2

/-- Whether a use of a shared preview renders nothing: events are refused, and timers render only if
they made updates. -/
def Rests (t : MountedTree) (p : Page) : Use → Prop
  | .dispatch _ _ | .click _ | .input _ _ => True
  | .rerender => False
  | .runTimers => (Script.runTimers.outcome (t.stage p).machine).2.realm.hooks.dirty = false

/-- A use is work of the preview. -/
theorem exists_perform (t : MountedTree) (p : Page) (u : Use) : ∃ (α : Type) (x : View α),
    t.use p u = (t.perform p x).2.1 ∧ t.pageAfter p u = (t.perform p x).2.2 := by
  cases u <;> exact ⟨_, _, rfl, rfl⟩

/-- A use of a shared preview keeps where it is shown. -/
theorem use_place (shared : t.place = .shared style lease) (p : Page) (u : Use) :
    (t.use p u).place = t.place ∧ (t.use p u).container = t.container ∧
      (t.pageAfter p u).leases = p.leases := by
  obtain ⟨α, x, tree, page⟩ := t.exists_perform p u
  rw [tree, page, perform_tree shared, perform_page shared]
  exact ⟨rfl, rfl, rfl⟩

theorem document_of_rests (shared : t.place = .shared style lease) {u : Use}
    (rests : t.Rests p u) : (t.pageAfter p u).document = p.document := by
  have mode : t.mode = .shared := by
    unfold MountedTree.mode
    rw [shared]
  have refused {α : Type} (x : View α) : Leaves (Interaction.unlessInert t.mode x) := by
    rw [mode]
    exact leaves_throw _
  cases u with
  | dispatch target e => exact perform_leaves shared p (refused _)
  | click selector =>
    exact perform_leaves shared p ((Interaction.leaves_target _ _).bind fun n => refused _)
  | input selector value =>
    exact perform_leaves shared p ((Interaction.leaves_target _ _).bind fun n => refused _)
  | rerender => exact rests.elim
  | runTimers =>
    unfold pageAfter runTimers
    rw [perform_page shared]
    dsimp only
    rw [outcome_bind, outcome_script]
    have same : (t.stage p).document = p.document := by rw [stage_shared shared]
    have clean : (Script.runTimers.outcome (t.stage p).machine).2.realm.hooks.dirty = false := rests
    generalize Script.runTimers.outcome (t.stage p).machine = r at clean
    obtain ⟨_ | fired, m⟩ := r
    · exact same
    · dsimp only
      rw [outcome_bind]
      unfold MountedTree.refresh
      rw [Interaction.refresh_of_clean clean]
      exact same

/-- Whatever is done with a shared preview, what is around the container stays. -/
theorem use_hosts (shared : t.place = .shared style lease) (container : t.container = room)
    (h : p.Hosts around g) (u : Use) :
    (∃ g', (t.pageAfter p u).Hosts around g') ∧
      Agree ((t.pageAfter p u).document.clear room) (p.document.clear room) := by
  have rested (rests : t.Rests p u) : (∃ g', (t.pageAfter p u).Hosts around g') ∧
      Agree ((t.pageAfter p u).document.clear room) (p.document.clear room) := by
    have document := document_of_rests shared rests
    have same : (t.pageAfter p u).container = p.container := by
      obtain ⟨α, x, -, page⟩ := t.exists_perform p u
      rw [page, perform_page shared]
    exact ⟨⟨g, h.congr same document⟩, document ▸ .refl _⟩
  cases u with
  | dispatch | click | input => exact rested trivial
  | rerender =>
    have regrows := Render.regrows_display Evaluator.standard t.root
    have done := perform_regrows shared h regrows
    rw [← container] at done
    rw [← container]
    exact done
  | runTimers =>
    have regrows : Regrows fun c => (do
        let fired ← script Script.runTimers
        Interaction.refresh c t.root
        return fired) :=
      (regrows_script _).bind fun _ => (Interaction.regrows_refresh t.root).bind fun _ =>
        regrows_pure _
    have done := perform_regrows shared h regrows
    rw [← container] at done
    rw [← container]
    exact done

end MountedTree

/-! ## What is done on a page -/

/-- A page with the previews that were mounted on it, oldest first. What failed or was dropped is no
longer there. -/
structure Host where
  page : Page
  trees : List (Option MountedTree)

namespace Host

/-- A project is mounted, or the preview of a number is dropped. -/
inductive Turn where
  | execute (project : CompiledProject) (config : RuntimeConfig) (props : GivenProps)
  | drop (n : Nat)

/-- Between turns previews may be used. -/
inductive Op where
  | turn (x : Turn)
  | use (n : Nat) (u : MountedTree.Use)

section

variable (h : Host)

/-- The preview of a number. -/
def tree? (n : Nat) : Option MountedTree := h.trees[n]?.join

/-- The preview of the newest mount. -/
def newest? : Option MountedTree := h.tree? (h.trees.length - 1)

/-- Mounts a project, whose preview takes the container over. -/
def execute (project : CompiledProject) (config : RuntimeConfig) (props : GivenProps) : Host :=
  let (r, page) := project.mount .shared config props h.page
  { page, trees := h.trees ++ [r.toOption] }

def drop (n : Nat) : Host :=
  match h.tree? n with
  | some t => { page := t.unmount h.page, trees := h.trees.set n none }
  | none => h

def use (n : Nat) (u : MountedTree.Use) : Host :=
  match h.tree? n with
  | some t => { page := t.pageAfter h.page u, trees := h.trees.set n (some (t.use h.page u)) }
  | none => h

def step : Op → Host
  | .turn (.execute project config props) => h.execute project config props
  | .turn (.drop n) => h.drop n
  | .use n u => h.use n u

end

/-- A new page after operations. -/
def after (ops : List Op) : Host := ops.foldl step ⟨Page.new, []⟩

theorem after_nil : after [] = ⟨Page.new, []⟩ := List.foldl_nil

@[simp] theorem after_concat (ops : List Op) (op : Op) :
    after (ops ++ [op]) = (after ops).step op := by
  simp [after]

/-! ### Previews by number -/

variable {h h' : Host} {n k : Nat} {t : MountedTree}

theorem lt_of_tree? (there : h.tree? n = some t) : n < h.trees.length := by
  unfold tree? at there
  by_cases inside : n < h.trees.length
  · exact inside
  · rw [List.getElem?_eq_none (Nat.le_of_not_lt inside)] at there
    cases there

theorem tree?_set (p : Page) (inside : n < h.trees.length) (found : Option MountedTree) :
    (⟨p, h.trees.set n found⟩ : Host).tree? k = if k = n then found else h.tree? k := by
  unfold tree?
  dsimp only
  rw [List.getElem?_set]
  by_cases same : k = n
  · subst same
    simp [inside]
  · rw [if_neg (Ne.symm same), if_neg same]

theorem tree?_append (p : Page) (found : Option MountedTree) :
    (⟨p, h.trees ++ [found]⟩ : Host).tree? k = if k = h.trees.length then found else h.tree? k := by
  unfold tree?
  dsimp only
  by_cases same : k = h.trees.length
  · subst same
    simp
  · rw [if_neg same]
    by_cases old : k < h.trees.length
    · rw [List.getElem?_append_left old]
    · rw [List.getElem?_eq_none (by simp; omega), List.getElem?_eq_none (by omega)]

end Host

/-- The style node of a shared preview. -/
def MountedTree.style? (t : MountedTree) : Option NodeId :=
  match t.place with
  | .isolated _ => none
  | .shared style _ => some style

theorem MountedTree.style?_of_place {t : MountedTree} {style : NodeId} {lease : Nat}
    (place : t.place = .shared style lease) : t.style? = some style := by
  unfold style?
  rw [place]

namespace Host

open Page

variable {h h' : Host} {n k : Nat} {t : MountedTree}

/-- What is true of a page and its previews: each preview has a lease of its own number, and around
the container stands what the newest preview has put there. -/
structure Sound (h : Host) : Prop where
  leases : h.page.leases = h.trees.length
  container : ∀ n t, h.tree? n = some t → t.container = room
  place : ∀ n t, h.tree? n = some t → ∃ style, t.place = .shared style (n + 1)
  hosts : ∃ g, h.page.Hosts (h.newest?.bind MountedTree.style?) g

theorem sound_of_none {p : Page} (leases : p.leases = 0) (free : p.Hosts none []) :
    (⟨p, []⟩ : Host).Sound where
  leases := leases
  container n t there := by cases there
  place n t there := by cases there
  hosts := ⟨[], free⟩

theorem newest?_append (p : Page) (found : Option MountedTree) :
    (⟨p, h.trees ++ [found]⟩ : Host).newest? = found := by
  unfold newest?
  rw [tree?_append, if_pos (by simp)]

/-- The newest preview is of the newest lease. -/
theorem newest?_set (p : Page) (inside : n < h.trees.length) (found : Option MountedTree) :
    (⟨p, h.trees.set n found⟩ : Host).newest? = if n + 1 = h.trees.length then found else h.newest? := by
  unfold newest?
  rw [tree?_set p inside]
  dsimp only
  rw [List.length_set]
  by_cases last : n + 1 = h.trees.length
  · rw [if_pos last, if_pos (by omega)]
  · rw [if_neg last, if_neg (by omega)]

theorem execute_ok {project : CompiledProject} {config : RuntimeConfig} {props : GivenProps}
    {p' : Page} (mounted : project.mount .shared config props h.page = (.ok t, p')) :
    h.execute project config props = ⟨p', h.trees ++ [some t]⟩ := by
  unfold execute
  rw [mounted]
  rfl

theorem execute_error {project : CompiledProject} {config : RuntimeConfig} {props : GivenProps}
    {f : Failure} {p' : Page} (failed : project.mount .shared config props h.page = (.error f, p')) :
    h.execute project config props = ⟨p', h.trees ++ [none]⟩ := by
  unfold execute
  rw [failed]
  rfl

theorem drop_some (there : h.tree? n = some t) :
    h.drop n = ⟨t.unmount h.page, h.trees.set n none⟩ := by
  unfold drop
  rw [there]

theorem drop_none (gone : h.tree? n = none) : h.drop n = h := by
  unfold drop
  rw [gone]

theorem use_some (there : h.tree? n = some t) (u : MountedTree.Use) :
    h.use n u = ⟨t.pageAfter h.page u, h.trees.set n (some (t.use h.page u))⟩ := by
  unfold use
  rw [there]

theorem use_none (gone : h.tree? n = none) (u : MountedTree.Use) : h.use n u = h := by
  unfold use
  rw [gone]

/-- A preview that holds the container is the newest. -/
theorem newest?_of_last (there : h.tree? n = some t) (last : n + 1 = h.trees.length) :
    h.newest? = some t := by
  unfold newest?
  rw [← last]
  exact there

namespace Sound

variable (sound : h.Sound)

include sound

theorem of_set {p : Page} (there : h.tree? n = some t) (leases : p.leases = h.page.leases)
    {found : Option MountedTree}
    (same : ∀ t', found = some t' → t'.place = t.place ∧ t'.container = t.container)
    (hosts : ∃ g, p.Hosts
      ((if n + 1 = h.trees.length then found else h.newest?).bind MountedTree.style?) g) :
    (⟨p, h.trees.set n found⟩ : Host).Sound where
  leases := by
    rw [leases, sound.leases]
    exact List.length_set.symm
  container k t' there' := by
    rw [tree?_set p (lt_of_tree? there)] at there'
    split at there'
    · rw [(same t' there').2]
      exact sound.container n t there
    · exact sound.container k t' there'
  place k t' there' := by
    rw [tree?_set p (lt_of_tree? there)] at there'
    split at there'
    · rename_i eq
      rw [(same t' there').1, eq]
      exact sound.place n t there
    · exact sound.place k t' there'
  hosts := by
    rw [newest?_set p (lt_of_tree? there)]
    exact hosts

theorem of_append {p : Page} (leases : p.leases = h.page.leases + 1) {found : Option MountedTree}
    (own : ∀ t, found = some t →
      t.container = room ∧ ∃ style, t.place = .shared style (h.trees.length + 1))
    (hosts : ∃ g, p.Hosts (found.bind MountedTree.style?) g) :
    (⟨p, h.trees ++ [found]⟩ : Host).Sound where
  leases := by
    rw [leases, sound.leases]
    simp
  container k t there := by
    rw [tree?_append] at there
    split at there
    · exact (own t there).1
    · exact sound.container k t there
  place k t there := by
    rw [tree?_append] at there
    split at there
    · rename_i eq
      rw [eq]
      exact (own t there).2
    · exact sound.place k t there
  hosts := by
    rw [newest?_append]
    exact hosts

/-- What the page is after a preview was dropped. -/
theorem unmount (there : h.tree? n = some t) :
    (t.unmount h.page).leases = h.page.leases ∧
      if n + 1 = h.trees.length then (t.unmount h.page).Hosts none []
      else (t.unmount h.page).document = h.page.document ∧
        (t.unmount h.page).container = h.page.container := by
  obtain ⟨style, place⟩ := sound.place n t there
  obtain ⟨document, leases, container⟩ := MountedTree.unmount_shared place h.page
  refine ⟨leases, ?_⟩
  split
  · rename_i last
    obtain ⟨g, hosts⟩ := sound.hosts
    rw [newest?_of_last there last, Option.bind_some, MountedTree.style?_of_place place] at hosts
    have freed := hosts.reclaim (sound.leases.trans last.symm)
    exact freed.congr (container.trans (hosts.container.trans freed.container.symm)) document
  · rename_i older
    have revoked : h.page.leases ≠ n + 1 := by
      rw [sound.leases]
      exact Ne.symm older
    refine ⟨?_, container⟩
    rw [document]
    unfold Page.reclaim
    rw [if_neg revoked]

theorem execute (project : CompiledProject) (config : RuntimeConfig) (props : GivenProps) :
    (h.execute project config props).Sound := by
  obtain ⟨g, hosts⟩ := sound.hosts
  obtain ⟨g', ready⟩ | failed := project.mount_shared config props h.page
  · obtain ⟨t, p', mounted, readied⟩ := ready h.page _ _ rfl hosts
    rw [execute_ok mounted]
    obtain ⟨style, place, lent⟩ := readied.holds
    rw [sound.leases] at place
    refine sound.of_append readied.leases (fun t' ht => ?_) ⟨g', ?_⟩
    · cases ht
      exact ⟨readied.container, style, place⟩
    · rw [Option.bind_some, MountedTree.style?_of_place place]
      exact lent
  · obtain ⟨f, p', mounted, abandoned⟩ := failed h.page _ _ rfl hosts
    rw [execute_error mounted]
    exact sound.of_append abandoned.leases (fun t' ht => by cases ht) ⟨[], abandoned.hosts⟩

theorem drop (n : Nat) : (h.drop n).Sound := by
  cases there : h.tree? n with
  | none =>
    rw [drop_none there]
    exact sound
  | some t =>
    obtain ⟨leases, left⟩ := sound.unmount there
    rw [drop_some there]
    refine sound.of_set there leases (fun t' ht => by cases ht) ?_
    split at left
    · rename_i last
      rw [if_pos last]
      exact ⟨[], left⟩
    · rename_i older
      obtain ⟨g, hosts⟩ := sound.hosts
      rw [if_neg older]
      exact ⟨g, hosts.congr left.2 left.1⟩

theorem use (n : Nat) (u : MountedTree.Use) : (h.use n u).Sound := by
  cases there : h.tree? n with
  | none =>
    rw [use_none there]
    exact sound
  | some t =>
    obtain ⟨style, place⟩ := sound.place n t there
    obtain ⟨g, hosts⟩ := sound.hosts
    obtain ⟨same, container, leases⟩ := MountedTree.use_place place h.page u
    rw [use_some there]
    refine sound.of_set there leases (fun t' ht => by cases ht; exact ⟨same, container⟩) ?_
    have kept := (MountedTree.use_hosts place (sound.container n t there) hosts u).1
    split
    · rename_i last
      rw [newest?_of_last there last, Option.bind_some, MountedTree.style?_of_place place] at kept
      rw [Option.bind_some, MountedTree.style?_of_place (same.trans place)]
      exact kept
    · exact kept

end Sound

theorem sound_after (ops : List Op) : (after ops).Sound := by
  induction ops using List.reverseRecOn with
  | nil =>
    rw [after_nil]
    exact sound_of_none new_leases Hosts.start
  | append_singleton ops op sound =>
    rw [after_concat]
    match op with
    | .turn (.execute project config props) => exact sound.execute project config props
    | .turn (.drop n) => exact sound.drop n
    | .use n u => exact sound.use n u

/-! ## Revoked previews -/

/-- What a preview that was revoked does to the document: nothing when it is dropped or renders
nothing, and nothing ever but in the container. -/
structure Spares (h : Host) (n : Nat) (t : MountedTree) : Prop where
  dropped : (h.drop n).page.document = h.page.document
  rested : ∀ u, t.Rests h.page u → (h.use n u).page.document = h.page.document
  outside : ∀ u, Agree ((h.use n u).page.document.clear h.page.container)
    (h.page.document.clear h.page.container)

/-- Whatever was done on a page, a preview that a later mount has revoked spares the document. -/
theorem spares_of_revoked (ops : List Op) (n : Nat) (t : MountedTree)
    (there : (after ops).tree? n = some t) (revoked : n + 1 < (after ops).trees.length) :
    (after ops).Spares n t := by
  have sound := sound_after ops
  generalize after ops = h at there revoked sound
  obtain ⟨style, place⟩ := sound.place n t there
  obtain ⟨g, hosts⟩ := sound.hosts
  exact {
    dropped := by
      obtain ⟨-, left⟩ := sound.unmount there
      rw [if_neg (Nat.ne_of_lt revoked)] at left
      rw [drop_some there]
      exact left.1
    rested := fun u rests => by
      rw [use_some there]
      exact MountedTree.document_of_rests place rests
    outside := fun u => by
      rw [use_some there, hosts.container]
      exact (MountedTree.use_hosts place (sound.container n t there) hosts u).2 }

/-- A page on which two projects were mounted. -/
def ofTwo (first second : CompiledProject) : Host :=
  after [.turn (.execute first {} {}), .turn (.execute second {} {})]

/-- A project of one file that shows a paragraph. -/
def paragraph (text : String) : Project :=
  ⟨[("/App.tsx", "export default () => <p>" ++ text ++ "</p>;")], "/App.tsx"⟩

/-- Whether two projects compile, the page shows the second paragraph after both were mounted, and
the first after the first preview was rendered again. -/
def showsTwo (one two : Project) : Bool :=
  match ((Compiler.ofConfig {}).compile one none).1,
      ((Compiler.ofConfig {}).compile two none).1 with
  | .ok first, .ok second =>
    let h := ofTwo first second
    (h.tree? 0).isSome && h.trees.length == 2 && h.page.document.innerHtml room == "<p>second</p>" &&
      (h.use 0 .rerender).page.document.innerHtml room == "<p>first</p>"
  | _, _ => false

theorem exists_of_showsTwo {one two : Project} (shows : showsTwo one two = true) :
    ∃ first second t,
      ((Compiler.ofConfig {}).compile one none).1 = .ok first ∧
      ((Compiler.ofConfig {}).compile two none).1 = .ok second ∧
      (ofTwo first second).tree? 0 = some t ∧ 0 + 1 < (ofTwo first second).trees.length ∧
      (ofTwo first second).page.document.innerHtml room = "<p>second</p>" ∧
      ((ofTwo first second).use 0 .rerender).page.document.innerHtml room = "<p>first</p>" := by
  unfold showsTwo at shows
  split at shows
  · rename_i first second compiled compiled'
    dsimp only at shows
    rw [Bool.and_eq_true, Bool.and_eq_true, Bool.and_eq_true, Option.isSome_iff_exists, beq_iff_eq,
      beq_iff_eq, beq_iff_eq] at shows
    obtain ⟨⟨⟨⟨t, there⟩, length⟩, before⟩, after⟩ := shows
    exact ⟨first, second, t, compiled, compiled', there, by omega, before, after⟩
  · cases shows

theorem showsTwo_eq : showsTwo (paragraph "first") (paragraph "second") = true := by decide +kernel

/-- The first of two previews is revoked, and spares the document. -/
theorem spares_of_revoked_first : ∃ first second t,
    ((Compiler.ofConfig {}).compile (paragraph "first") none).1 = .ok first ∧
      ((Compiler.ofConfig {}).compile (paragraph "second") none).1 = .ok second ∧
      (ofTwo first second).tree? 0 = some t ∧ 0 + 1 < (ofTwo first second).trees.length ∧
      (ofTwo first second).Spares 0 t := by
  obtain ⟨first, second, t, one, two, there, revoked, -, -⟩ := exists_of_showsTwo showsTwo_eq
  exact ⟨first, second, t, one, two, there, revoked,
    spares_of_revoked [.turn (.execute first {} {}), .turn (.execute second {} {})] 0 t there revoked⟩

/-- The first of two previews is revoked, and is shown in place of the second one when it is rendered
again. -/
theorem not_spared_rerendered : ∃ first second t,
    ((Compiler.ofConfig {}).compile (paragraph "first") none).1 = .ok first ∧
      ((Compiler.ofConfig {}).compile (paragraph "second") none).1 = .ok second ∧
      (ofTwo first second).tree? 0 = some t ∧ 0 + 1 < (ofTwo first second).trees.length ∧
      (ofTwo first second).page.document.innerHtml room = "<p>second</p>" ∧
      ((ofTwo first second).use 0 .rerender).page.document.innerHtml room = "<p>first</p>" :=
  exists_of_showsTwo showsTwo_eq

/-! ## What turns leave -/

/-- What is left after turns. If the newest mount gave a preview that was not dropped, the page shows
what this mount shows on a page as it is made. If not, the page is as it was made. -/
inductive LeftBy (turns : List Turn) (h : Host) : Prop where
  | shown (before : List Turn) (project : CompiledProject) (config : RuntimeConfig)
      (props : GivenProps) (later : List Turn) (t : MountedTree)
      (split : turns = before ++ .execute project config props :: later)
      (drops : ∀ x ∈ later, ∃ n, x = .drop n)
      (mounted : (project.mount .shared config props (after (before.map .turn)).page).1 = .ok t)
      (newest : h.newest? = some t)
      (alike : Alike h.page (project.mount .shared config props
        { (after (before.map .turn)).page with document := Page.new.document }).2)
  | restored (gone : h.newest? = none) (asMade : h.page.AsMade)

/-- What stands in the container after turns. -/
inductive HeldBy (turns : List Turn) (h : Host) : Prop where
  | held (before : List Turn) (project : CompiledProject) (config : RuntimeConfig)
      (props : GivenProps) (later : List Turn) (t : MountedTree) (g : Growth)
      (split : turns = before ++ .execute project config props :: later)
      (drops : ∀ x ∈ later, ∃ n, x = .drop n)
      (mounted : (project.mount .shared config props (after (before.map .turn)).page).1 = .ok t)
      (newest : h.newest? = some t)
      (hosts : h.page.Hosts t.style? g)
      (same : ∀ q around g₀,
        CompiledProject.opening config q =
            CompiledProject.opening config (after (before.map .turn)).page →
          q.Hosts around g₀ → ∃ t' q', project.mount .shared config props q = (.ok t', q') ∧
            CompiledProject.Readied g q t' q')
  | free (gone : h.newest? = none) (hosts : h.page.Hosts none [])

theorem HeldBy.of_none {p : Page} (free : p.Hosts none []) : HeldBy [] ⟨p, []⟩ := .free rfl free

theorem HeldBy.execute {turns : List Turn} (sound : (after (turns.map .turn)).Sound)
    (project : CompiledProject) (config : RuntimeConfig) (props : GivenProps) :
    HeldBy (turns ++ [.execute project config props])
      ((after (turns.map .turn)).execute project config props) := by
  obtain ⟨g₀, hosts⟩ := sound.hosts
  obtain ⟨g, ready⟩ | failed := project.mount_shared config props (after (turns.map .turn)).page
  · obtain ⟨t, p', mounted, readied⟩ := ready _ _ _ rfl hosts
    obtain ⟨style, place, lent⟩ := readied.holds
    rw [execute_ok mounted]
    refine .held turns project config props [] t g rfl (fun x hx => by cases hx)
      (by rw [mounted]) (newest?_append _ _) ?_ ready
    rw [MountedTree.style?_of_place place]
    exact lent
  · obtain ⟨f, p', mounted, abandoned⟩ := failed _ _ _ rfl hosts
    rw [execute_error mounted]
    exact .free (newest?_append _ _) abandoned.hosts

/-- What a drop leaves as it is stays held. -/
theorem HeldBy.of_drop {turns : List Turn} {h h' : Host} (held : HeldBy turns h) (n : Nat)
    (newest : h'.newest? = h.newest?) (container : h'.page.container = h.page.container)
    (document : h'.page.document = h.page.document) : HeldBy (turns ++ [.drop n]) h' := by
  cases held with
  | held before project config props later t g split drops mounted shown hosts same =>
    refine .held before project config props (later ++ [.drop n]) t g ?_ (fun x hx => ?_) mounted
      (newest.trans shown) (hosts.congr container document) same
    · rw [split, List.append_assoc, List.cons_append]
    · obtain hx | hx := List.mem_append.1 hx
      · exact drops x hx
      · exact ⟨n, List.mem_singleton.1 hx⟩
  | free gone hosts => exact .free (newest.trans gone) (hosts.congr container document)

theorem HeldBy.drop {turns : List Turn} {h : Host} (held : HeldBy turns h) (sound : h.Sound)
    (n : Nat) : HeldBy (turns ++ [.drop n]) (h.drop n) := by
  cases there : h.tree? n with
  | none =>
    rw [drop_none there]
    exact held.of_drop n rfl rfl rfl
  | some t =>
    obtain ⟨-, left⟩ := sound.unmount there
    have newest := newest?_set (t.unmount h.page) (lt_of_tree? there) none
    rw [drop_some there]
    by_cases last : n + 1 = h.trees.length
    · rw [if_pos last] at left newest
      exact .free newest left
    · rw [if_neg last] at left newest
      exact held.of_drop n newest left.2 left.1

theorem heldBy_after (turns : List Turn) : HeldBy turns (after (turns.map .turn)) := by
  induction turns using List.reverseRecOn with
  | nil =>
    rw [List.map_nil, after_nil]
    exact .of_none Hosts.start
  | append_singleton turns x held =>
    have sound := sound_after (turns.map .turn)
    rw [List.map_append, List.map_singleton, after_concat]
    cases x with
    | execute project config props => exact .execute sound project config props
    | drop n => exact held.drop sound n

/-- However previews are mounted and dropped, mounts that fail included, the page shows the newest
one alone or is left as it was made. -/
theorem leftBy_after (turns : List Turn) : LeftBy turns (after (turns.map .turn)) := by
  cases heldBy_after turns with
  | held before project config props later t g split drops mounted newest hosts same =>
    refine .shown before project config props later t split drops mounted newest ?_
    obtain ⟨style, place⟩ := (sound_after (turns.map .turn)).place _ t newest
    rw [MountedTree.style?_of_place place] at hosts
    obtain ⟨g₀, first⟩ := (sound_after (before.map .turn)).hosts
    generalize (after (before.map .turn)).page = p at same first ⊢
    have made := first.emptied
    generalize Page.new.document = d at made ⊢
    obtain ⟨t', q, mounted', readied⟩ := same { p with document := d } _ _ rfl made
    obtain ⟨style', place', hosts'⟩ := readied.holds
    rw [mounted']
    exact hosts.alike hosts'
  | free gone hosts => exact .restored gone hosts.asMade

end Host

end TsxPreview
