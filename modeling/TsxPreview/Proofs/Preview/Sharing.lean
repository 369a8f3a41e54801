import TsxPreview.Preview.Interaction
import TsxPreview.Proofs.Preview.Lending
import TsxPreview.Proofs.View.Growing

/-!
Shared previews and the page that they are shown on. Whatever is done with a shared preview, the page
around the container stays; what a mount shows depends on the machine only.
-/

namespace TsxPreview

open Document View

namespace Page

variable {p : Page} {g : Growth} {around : Option NodeId}

/-- What stands around the container: nothing, or marks and a style node. -/
def Around : Option NodeId → Document → Prop
  | none, e => Free e
  | some style, e => Lent style e

theorem Around.vacant {e : Document} (h : Around around e) : Vacant room e := by
  cases around with
  | none => exact Free.vacant h
  | some style => exact Lent.vacant h

/-- A page with a growth in its container. -/
structure Hosts (around : Option NodeId) (g : Growth) (p : Page) : Prop where
  container : p.container = room
  grown : ∃ b e, Around around e ∧ Grown room b g e p.document

/-- A page as it was made: an empty container without marks, no style node and no listener. -/
structure AsMade (p : Page) : Prop where
  nodes : ∀ n, p.document.node? n = new.document.node? n
  tree : p.document.tree? body =
    some (.element "body" [] [.element "div" [("id", "canvas-root")] []])
  listeners : p.document.listenerCount body = 0

/-- A page shows what another one shows in its container: the same nodes have grown there, below the
marked container, and behind it stands one style node. -/
structure Alike (p q : Page) : Prop where
  tree : p.document.tree? body = some (.element "body" [] [
    .element "div" marks (q.document.childTrees room),
    .element "style" [(styleAttribute, "")] [.text inertCss]])
  grown : ∃ g style style', p.Hosts (some style) g ∧ q.Hosts (some style') g

namespace Hosts

theorem of_around {around : Option NodeId} (container : p.container = room)
    (h : Around around p.document) : p.Hosts around [] where
  container := container
  grown := by
    obtain ⟨x, hx⟩ := contains_iff.1 h.vacant.there
    exact ⟨_, _, h, .nil (lt_size_of_node? hx)⟩

theorem start : new.Hosts none [] := by
  have free := free_new
  have container := new_container
  generalize new = p at free container ⊢
  exact of_around container free

theorem congr {p' : Page} (h : p.Hosts around g) (container : p'.container = p.container)
    (document : p'.document = p.document) : p'.Hosts around g where
  container := container.trans h.container
  grown := document ▸ h.grown

/-- The same page with the document that it was made with. -/
theorem emptied (h : p.Hosts around g) : Page.Hosts none [] { p with document := new.document } := by
  have grown := start.grown
  generalize new.document = d at grown ⊢
  exact ⟨h.container, grown⟩

theorem index_lt (h : p.Hosts around g) : room.index < p.document.nodes.size := by
  obtain ⟨b, e, -, grown⟩ := h.grown
  rw [grown.size]
  exact Nat.lt_of_lt_of_le grown.low (Nat.le_add_right _ _)

/-- What grows next takes the place of what has grown. -/
theorem regrown {gs : List Growth} {d : Document} (h : p.Hosts around g)
    (regrown : Regrown room gs p.document d) :
    Page.Hosts around (gs.getLastD g) { p with document := d } where
  container := h.container
  grown := by
    obtain ⟨b, e, outside, grown⟩ := h.grown
    obtain ⟨b', grown'⟩ := regrown.grown grown outside.vacant
    exact ⟨b', e, outside, grown'⟩

/-- With the container emptied, nothing has changed. -/
theorem regrown_outside {gs : List Growth} {d : Document} (h : p.Hosts around g)
    (regrown : Regrown room gs p.document d) :
    Agree (d.clear room) (p.document.clear room) := by
  obtain ⟨b, e, outside, grown⟩ := h.grown
  obtain ⟨b', grown'⟩ := regrown.grown grown outside.vacant
  exact (grown'.clear outside.vacant).trans (grown.clear outside.vacant).symm

theorem lend_eq (container : p.container = room) :
    p.lend = (((withStyle (marked (p.document.clear room))).1, p.leases + 1),
      { p with document := (withStyle (marked (p.document.clear room))).2
               leases := p.leases + 1 }) := by
  unfold Page.lend marked
  rw [container]

/-- To lend the container empties and marks it. The style node of an earlier lease is kept. -/
theorem lend (h : p.Hosts around g) : p.lend.2.Hosts (some p.lend.1.1) [] := by
  obtain ⟨b, e, outside, grown⟩ := h.grown
  have cleared : Agree (p.document.clear room) e := grown.clear outside.vacant
  have lent : Lent (withStyle (marked (p.document.clear room))).1
      (withStyle (marked (p.document.clear room))).2 := by
    cases around with
    | none =>
      have free : Free (p.document.clear room) := Lists.congr outside cleared
      exact withStyle_marked free.marked
    | some style =>
      have lent : Lent style (p.document.clear room) := Lent.congr outside cleared
      rw [lent.marked.withStyle]
      exact lent.marked
  rw [lend_eq h.container]
  generalize withStyle _ = styled at lent ⊢
  exact of_around h.container lent

/-- The lease that holds the container gives it back as it was. -/
theorem reclaim {style : NodeId} {lease : Nat} (h : p.Hosts (some style) g)
    (current : p.leases = lease) : (p.reclaim style lease).Hosts none [] := by
  obtain ⟨b, e, outside, grown⟩ := h.grown
  have lent : Lent style (p.document.clear room) :=
    Lent.congr outside (grown.clear outside.vacant)
  unfold Page.reclaim
  rw [if_pos current, h.container]
  exact of_around rfl lent.restored

/-- A page that is lent shows the marked container, with what has grown in it, and the style node. -/
theorem tree?_body {style : NodeId} (h : p.Hosts (some style) g) :
    p.document.tree? body = some (.element "body" [] [
      .element "div" marks (p.document.childTrees room),
      .element "style" [(styleAttribute, "")] [.text inertCss]]) := by
  obtain ⟨b, e, lent, grown⟩ := h.grown
  have lent : Lent style e := lent
  have ordered := grown.ordered lent.vacant.ordered
  obtain ⟨css, inside, atBody, atRoom, atStyle, atCss⟩ := lent.nodes
  obtain ⟨-, other, -⟩ := lent.ne_of_inside inside
  have old {n : NodeId} {x : Node} (there : e.node? n = some x) (other : n ≠ room) :
      p.document.node? n = some x := by
    have low : n.index < b := by
      refine Nat.lt_of_not_le fun past => ?_
      rw [grown.fresh n past] at there
      cases there
    rw [grown.rest n low other, there]
  have atRoom : (p.document.node? room).map Node.kind = some (.element "div" marks []) := by
    rw [grown.given, atRoom]
    rfl
  have container : p.document.tree? room =
      some (.element "div" marks (p.document.childTrees room)) := by
    rw [Document.tree?_eq ordered]
    unfold childTrees Document.children
    generalize p.document.node? room = found at atRoom
    cases found with
    | none => cases atRoom
    | some x =>
      obtain ⟨kind, parent, children⟩ := x
      cases atRoom
      rfl
  have text : p.document.tree? css = some (.text inertCss) := by
    rw [Document.tree?_eq ordered, old atCss other]
    rfl
  have last : p.document.tree? style =
      some (.element "style" [(styleAttribute, "")] [.text inertCss]) := by
    rw [Document.tree?_eq ordered, old atStyle lent.ne_room]
    simp [text]
  rw [Document.tree?_eq ordered, old atBody body_ne_room]
  simp [container, last]

theorem alike {q : Page} {style style' : NodeId} (h : p.Hosts (some style) g)
    (h' : q.Hosts (some style') g) : p.Alike q where
  tree := by
    obtain ⟨b, e, outside, grown⟩ := h.grown
    obtain ⟨b', e', outside', grown'⟩ := h'.grown
    rw [h.tree?_body, grown.childTrees_eq outside.vacant grown' outside'.vacant]
  grown := ⟨g, style, style', h, h'⟩

/-- Where nothing has grown, a free page is as it was made. -/
theorem asMade (h : p.Hosts none []) : p.AsMade := by
  obtain ⟨b, e, outside, grown⟩ := h.grown
  have free : Free p.document := Lists.congr outside grown.agree
  have atBody : p.document.node? body = some { kind := .element "body" [] [], children := [room] } :=
    free body
  have atRoom : p.document.node? room =
      some { kind := .element "div" [("id", "canvas-root")] [], parent := some body } := free room
  have size : 2 ≤ p.document.nodes.size := lt_size_of_node? atRoom
  obtain ⟨depth, size⟩ : ∃ k, p.document.nodes.size = k + 2 := ⟨p.document.nodes.size - 2, by omega⟩
  exact {
    nodes := Lists.agree free free_new
    tree := by
      have container : p.document.tree? room = some (.element "div" [("id", "canvas-root")] []) := by
        rw [Document.tree?_eq free.vacant.ordered, atRoom]
        rfl
      rw [Document.tree?_eq free.vacant.ordered, atBody]
      simp [container]
    listeners := by
      unfold listenerCount subtree
      rw [size]
      simp [descend, contains, Document.children, Document.listeners, atBody, atRoom] }

end Hosts

end Page

/-! ## Work of previews -/

namespace View

variable {α β : Type}

/-- Work that leaves the document as it is. -/
def Leaves (x : View α) : Prop := ∀ s : Stage, (x.outcome s).2.document = s.document

theorem leaves_script (x : Script α) : Leaves (script x) := fun s => by rw [outcome_script]

theorem leaves_pure (a : α) : Leaves (pure a : View α) := fun _ => rfl

theorem leaves_throw (e : ScriptError) : Leaves (throw e : View α) := fun _ => rfl

theorem leaves_onDocument (f : Document → α) : Leaves (onDocument f) := fun _ => rfl

theorem Leaves.bind {x : View α} {f : α → View β} (hx : Leaves x) (hf : ∀ a, Leaves (f a)) :
    Leaves (x >>= f) := by
  intro s
  have first := hx s
  rw [outcome_bind]
  generalize x.outcome s = r at first
  obtain ⟨_ | a, s'⟩ := r
  · exact first
  · exact (hf a s').trans first

end View

namespace Interaction

theorem regrows_refresh (root : Value) : Regrows fun c => refresh c root := by
  refine (regrows_script _).bind fun dirty => ?_
  cases dirty with
  | true => exact Render.regrows_display Evaluator.standard root
  | false => exact regrows_pure ()

theorem leaves_target (container : NodeId) (selector : String) :
    Leaves (target container selector) := by
  unfold target
  split
  · exact leaves_throw _
  · refine (leaves_onDocument _).bind fun found => ?_
    cases found with
    | some n => exact leaves_pure n
    | none => exact leaves_throw _

end Interaction

namespace Mount

/-- The work of a mount that shows a project in a container. -/
def work (project : CompiledProject) (props : GivenProps) (c : NodeId) : View Value := do
  let loader ← script (prepare project)
  start project props c loader

theorem regrows_work (project : CompiledProject) (props : GivenProps) :
    Regrows (work project props) :=
  (regrows_script _).bind fun _ => (regrows_script _).bind fun _ => (regrows_script _).bind fun root =>
    (Render.regrows_display Evaluator.standard root).bind fun _ => regrows_pure root

end Mount

namespace MountedTree

open Page

variable {α : Type} {t : MountedTree} {p : Page} {style : NodeId} {lease : Nat}

/-- What the work of a shared preview makes of the page. -/
theorem perform_page (shared : t.place = .shared style lease) (p : Page) (x : View α) :
    (t.perform p x).2.2 =
      { p with heap := (x.outcome (t.stage p)).2.machine.heap
               loaders := (x.outcome (t.stage p)).2.machine.loaders
               document := (x.outcome (t.stage p)).2.document } := by
  unfold perform commit
  dsimp only
  rw [shared]

theorem perform_tree (shared : t.place = .shared style lease) (p : Page) (x : View α) :
    (t.perform p x).2.1 = { t with realm := (x.outcome (t.stage p)).2.machine.realm } := by
  unfold perform commit
  dsimp only
  rw [shared]

theorem stage_shared (shared : t.place = .shared style lease) (p : Page) :
    t.stage p = ⟨⟨p.heap, t.realm, p.loaders⟩, p.document⟩ := by
  unfold stage document
  rw [shared]

theorem perform_leaves {x : View α} (shared : t.place = .shared style lease) (p : Page)
    (hx : Leaves x) : (t.perform p x).2.2.document = p.document := by
  rw [perform_page shared, hx, stage_shared shared]

/-- What is unmounted runs scripts only, and leaves the document to its lease. -/
theorem unmount_shared (shared : t.place = .shared style lease) (p : Page) :
    (t.unmount p).document = (p.reclaim style lease).document ∧
      (t.unmount p).leases = p.leases ∧ (t.unmount p).container = p.container := by
  have leaves : (t.close p).2.document = p.document := perform_leaves shared p (leaves_script _)
  have place : (t.close p).1.place = .shared style lease := by
    unfold close
    rw [perform_tree shared]
    exact shared
  have leases : (t.close p).2.leases = p.leases := by
    unfold close
    rw [perform_page shared]
  have container : (t.close p).2.container = p.container := by
    unfold close
    rw [perform_page shared]
  unfold unmount
  generalize t.close p = closed at leaves place leases container
  obtain ⟨t', p'⟩ := closed
  dsimp only at leaves place leases container ⊢
  rw [place]
  dsimp only
  unfold Page.reclaim
  rw [leases, container, leaves]
  split
  · exact ⟨rfl, rfl, rfl⟩
  · exact ⟨leaves, leases, container⟩

/-- Work that lets the container grow again leaves what is around it. -/
theorem perform_regrows {x : NodeId → View α} {around : Option NodeId} {g : Growth}
    (shared : t.place = .shared style lease) (h : p.Hosts around g) (hx : Regrows x) :
    (∃ g', (t.perform p (x room)).2.2.Hosts around g') ∧
      Agree ((t.perform p (x room)).2.2.document.clear room) (p.document.clear room) := by
  obtain ⟨r, m, gs, run⟩ := hx (t.stage p).machine
  rw [stage_shared shared] at run
  obtain ⟨d, run, regrown⟩ := run room p.document h.index_lt
  rw [perform_page shared, stage_shared shared, run]
  exact ⟨⟨gs.getLastD g, (h.regrown regrown).congr rfl rfl⟩, h.regrown_outside regrown⟩

end MountedTree

/-! ## Mounts -/

namespace CompiledProject

open Page

variable (project : CompiledProject) (config : RuntimeConfig) (props : GivenProps) {p : Page}
  {around : Option NodeId} {g : Growth}

/-- A preview that was mounted on a page holds the container, in which a growth stands. -/
structure Readied (g : Growth) (p : Page) (t : MountedTree) (p' : Page) : Prop where
  container : t.container = room
  leases : p'.leases = p.leases + 1
  holds : ∃ style, t.place = .shared style (p.leases + 1) ∧ p'.Hosts (some style) g

/-- A mount that failed leaves a free page. -/
structure Abandoned (p p' : Page) : Prop where
  leases : p'.leases = p.leases + 1
  hosts : p'.Hosts none []

/-- What a preview is while it is being mounted. -/
def guest (p : Page) : MountedTree where
  place := .shared p.lend.1.1 (p.leases + 1)
  realm := .ofGlobals p.globals config
  container := room
  root := .undefined
  loader := p.loaders.size

theorem site_shared (container : p.container = room) :
    Mount.site .shared config p = (guest config p, p.lend.2) := by
  unfold Mount.site guest
  rw [Hosts.lend_eq container]
  dsimp only
  rw [container]

/-- The machine that a mount starts with. -/
def opening (p : Page) : Machine := ⟨p.heap, .ofGlobals p.globals config, p.loaders⟩

/-- The work of a mount, begun on the page that has lent its container. -/
theorem perform_guest {α : Type} {x : NodeId → View α} {r : Except ScriptError α} {m : Machine}
    {gs : List Growth} (h : p.Hosts around g)
    (run : ∀ c d, c.index < d.nodes.size → ∃ d',
      (x c).outcome ⟨opening config p, d⟩ = (r, ⟨m, d'⟩) ∧ Regrown c gs d d') :
    ∃ p', (guest config p).perform p.lend.2 (x room) =
        (r, { guest config p with realm := m.realm }, p') ∧
      p'.leases = p.leases + 1 ∧ p'.Hosts (some p.lend.1.1) (gs.getLastD []) := by
  have shared : (guest config p).place = .shared p.lend.1.1 (p.leases + 1) := rfl
  have lent := h.lend
  have leases : p.lend.2.leases = p.leases + 1 := by rw [Hosts.lend_eq h.container]
  have stage : (guest config p).stage p.lend.2 = ⟨opening config p, p.lend.2.document⟩ := by
    rw [MountedTree.stage_shared shared, Hosts.lend_eq h.container]
    rfl
  obtain ⟨d, run, regrown⟩ := run room p.lend.2.document lent.index_lt
  have page := MountedTree.perform_page shared p.lend.2 (x room)
  have tree := MountedTree.perform_tree shared p.lend.2 (x room)
  have first : ((guest config p).perform p.lend.2 (x room)).1 = r := by
    unfold MountedTree.perform
    rw [stage, run]
  rw [stage, run] at page tree
  have hosts := lent.regrown regrown
  generalize p.lend.2 = lender at *
  refine ⟨{ lender with heap := m.heap, loaders := m.loaders, document := d },
    Prod.ext first (Prod.ext tree page), leases, hosts.congr rfl rfl⟩

variable {r : Except ScriptError Value} {m : Machine} {gs : List Growth}

/-- How a mount ends, by its work. -/
theorem mount_of_perform {mode : Mode} {t t₀ : MountedTree} {p₀ p' : Page}
    (site : Mount.site mode config p = (t₀, p₀)) :
    t₀.perform p₀ (Mount.work project props t₀.container) = (r, t, p') →
      project.mount mode config props p = match r with
        | .ok root => (.ok { t with root }, p')
        | .error e =>
          (.error (project.failure (e.renderError p'.heap t.realm.fault)), t.unmount p') := by
  intro done
  unfold Mount.work at done
  unfold mount
  rw [site]
  cases r <;> simp only [done]

theorem readied_of_run {root : Value} (h : p.Hosts around g)
    (run : ∀ c d, c.index < d.nodes.size → ∃ d',
      (Mount.work project props c).outcome ⟨opening config p, d⟩ = (.ok root, ⟨m, d'⟩) ∧
        Regrown c gs d d') :
    ∃ t p', project.mount .shared config props p = (.ok t, p') ∧
      Readied (gs.getLastD []) p t p' := by
  obtain ⟨p', done, leases, hosts⟩ := perform_guest config h run
  exact ⟨_, p', mount_of_perform project config props (site_shared config h.container) done,
    rfl, leases, p.lend.1.1, rfl, hosts⟩

theorem abandoned_of_run {e : ScriptError} (h : p.Hosts around g)
    (run : ∀ c d, c.index < d.nodes.size → ∃ d',
      (Mount.work project props c).outcome ⟨opening config p, d⟩ = (.error e, ⟨m, d'⟩) ∧
        Regrown c gs d d') :
    ∃ f p', project.mount .shared config props p = (.error f, p') ∧ Abandoned p p' := by
  obtain ⟨p', done, leases, hosts⟩ := perform_guest config h run
  have place : { guest config p with realm := m.realm }.place =
      .shared p.lend.1.1 (p.leases + 1) := rfl
  have left := MountedTree.unmount_shared place p'
  have eq := mount_of_perform project config props (site_shared config h.container) done
  dsimp only at eq
  generalize MountedTree.unmount _ p' = p₁ at left eq
  obtain ⟨document, kept, container⟩ := left
  have freed := hosts.reclaim leases
  exact ⟨_, p₁, eq, kept.trans leases,
    freed.congr (container.trans (hosts.container.trans freed.container.symm)) document⟩

/-- Whether a mount ends well, and what grows, does not depend on the document. -/
theorem mount_shared (p : Page) :
    (∃ g, ∀ q around g₀, opening config q = opening config p → q.Hosts around g₀ →
      ∃ t q', project.mount .shared config props q = (.ok t, q') ∧ Readied g q t q') ∨
    (∀ q around g₀, opening config q = opening config p → q.Hosts around g₀ →
      ∃ f q', project.mount .shared config props q = (.error f, q') ∧ Abandoned q q') := by
  obtain ⟨r, m, gs, run⟩ := Mount.regrows_work project props (opening config p)
  cases r with
  | ok root =>
    refine .inl ⟨gs.getLastD [], fun q around g₀ same h => ?_⟩
    rw [← same] at run
    exact readied_of_run project config props h run
  | error e =>
    refine .inr fun q around g₀ same h => ?_
    rw [← same] at run
    exact abandoned_of_run project config props h run

end CompiledProject

end TsxPreview
