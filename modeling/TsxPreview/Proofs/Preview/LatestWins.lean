import TsxPreview.Preview.Session

/-!
The newest request wins. In whatever order a session is asked to take requests, to run tickets, to
become ready or to let go, what it holds was made of one request, which was the newest one when it
was rendered. A session that is not ready holds nothing, and renders what waits when it becomes so.
-/

namespace TsxPreview

/-! ## What is asked of a session -/

inductive SessionOp where
  | request (i : RenderInput)
  | run (t : Ticket)
  | submit (i : RenderInput)
  | provide
  | clear
  /-- Work with the preview that is held. -/
  | alter (f : Outcome → Page → Outcome × Page)

namespace SessionOp

def input? : SessionOp → Option RenderInput
  | request i | submit i => some i
  | _ => none

def isAlter : SessionOp → Bool
  | alter _ => true
  | _ => false

/-- What was requested, oldest first. -/
def inputs (ops : List SessionOp) : List RenderInput := ops.filterMap input?

theorem inputs_concat_none {op : SessionOp} (h : op.input? = none) (ops : List SessionOp) :
    inputs (ops ++ [op]) = inputs ops := by
  simp [inputs, h]

theorem inputs_concat_some {op : SessionOp} {i : RenderInput} (h : op.input? = some i)
    (ops : List SessionOp) : inputs (ops ++ [op]) = inputs ops ++ [i] := by
  simp [inputs, h]

theorem inputs_append (ops later : List SessionOp) :
    inputs (ops ++ later) = inputs ops ++ inputs later :=
  List.filterMap_append

end SessionOp

/-- What comes of an input: its project is compiled and executed, or the compilation refuses it. -/
inductive RenderInput.Produces (i : RenderInput) (c : Compiler) (config : RuntimeConfig)
    (p : Page) : Outcome → Prop where
  | executed {project : CompiledProject} {c' : Compiler}
      (compiled : c.compile i.project i.manifest = (.ok project, c')) :
      i.Produces c config p (.ofMount (project.mount i.mode config i.props p).1)
  | refused {e : CompileError} {c' : Compiler}
      (failed : c.compile i.project i.manifest = (.error e, c')) :
      i.Produces c config p (.failed e.failure)

theorem RenderInput.produces_render (i : RenderInput) (c : Compiler) (config : RuntimeConfig)
    (p : Page) : i.Produces c config p (i.render c config p).1 := by
  unfold render
  generalize compiled : c.compile i.project i.manifest = r
  obtain ⟨_ | _, c'⟩ := r <;> dsimp only
  · exact .refused compiled
  · exact .executed compiled

theorem RenderInput.render_compiler (i : RenderInput) (c : Compiler) (config : RuntimeConfig)
    (p : Page) : (i.render c config p).2.1 = (c.compile i.project i.manifest).2 := by
  unfold render
  generalize c.compile i.project i.manifest = r
  obtain ⟨_ | _, c'⟩ := r <;> rfl

namespace Session

open SessionOp

/-- Work with the outcome that is held, if there is one. -/
def alter (s : Session) (f : Outcome → Page → Outcome × Page) : Session :=
  match s.current with
  | some o => { s with current := some (f o s.page).1, page := (f o s.page).2 }
  | none => s

def step (s : Session) : SessionOp → Session
  | .request i => (s.request i).2
  | .run t => (s.run t).2
  | .submit i => (s.submit i).2
  | .provide => s.provide.2
  | .clear => s.clear
  | .alter f => s.alter f

/-- The session that operations leave. -/
def after (s : Session) (ops : List SessionOp) : Session := ops.foldl step s

@[simp] theorem after_concat (s : Session) (ops : List SessionOp) (op : SessionOp) :
    s.after (ops ++ [op]) = (s.after ops).step op := by
  simp [after]

/-- The session `s` let go of what it held and gave `o` for the input `i`, and `s'` holds that. -/
structure Renders (s : Session) (i : RenderInput) (o : Outcome) (s' : Session) : Prop where
  produced : i.Produces s.compiler s.config.runtime s.dropCurrent.page o
  compiler : s'.compiler = (s.compiler.compile i.project i.manifest).2
  current : s'.current = some o
  rendered : s'.rendered = some s'.generation

/-- The outcome `o` was made at one of the operations, of the request number `g`, which was the
newest one then. It is still as it was made, unless somebody worked with it. -/
inductive Holds (start : Session) (ops : List SessionOp) (g : Nat) (o : Outcome) : Prop where
  | made (before : List SessionOp) (op : SessionOp) (later : List SessionOp) (i : RenderInput)
      (first : Outcome)
      (split : ops = before ++ op :: later)
      (newest : (start.after (before ++ [op])).generation = g)
      (requested : 0 < g ∧ (inputs ops)[g - 1]? = some i)
      (renders : (start.after before).Renders i first (start.after (before ++ [op])))
      (kept : (∀ x ∈ later, x.isAlter = false) → o = first)

/-- What is true of a session after the operations `ops`. -/
structure LatestWins (start : Session) (ops : List SessionOp) (s : Session) : Prop where
  generation : s.generation = (inputs ops).length
  rendered_le : ∀ g, s.rendered = some g → g ≤ s.generation
  superseded : ∀ t : Ticket, t.generation < s.generation → s.run t = (.superseded, s)
  /-- Before it is ready, a session holds nothing and lets its newest ticket wait. -/
  waits : start.isReady = false → .provide ∉ ops →
    s.current = none ∧ s.run ⟨s.generation⟩ = (.queued, s)
  /-- When it becomes ready, it renders the newest request. -/
  provides : start.isReady = false → .provide ∉ ops → ∀ i, (inputs ops).getLast? = some i →
    s.provide.1 = some .rendered ∧ ∃ o, s.Renders i o s.provide.2
  providesNothing : start.isReady = false → .provide ∉ ops → inputs ops = [] →
    s.provide = (none, { s with isReady := true })
  /-- It becomes ready once. -/
  provided : start.isReady = true ∨ .provide ∈ ops → s.provide = (none, s)
  /-- A session that is ready renders the newest request for its ticket. -/
  runs : start.isReady = true ∨ .provide ∈ ops → ∀ i, (inputs ops).getLast? = some i →
    (s.run ⟨s.generation⟩).1 = .rendered ∧ ∃ o, s.Renders i o (s.run ⟨s.generation⟩).2
  held : ∀ o, s.current = some o → ∃ g, s.rendered = some g ∧ start.Holds ops g o

/-! ## Single operations -/

section Steps

variable (s : Session)

/-- To let go changes the page and what is held only. -/
theorem dropCurrent_eq :
    s.dropCurrent = { s with current := none, page := s.dropCurrent.page } := by
  unfold dropCurrent
  split
  · rfl
  · rename_i h
    rw [← h]

/-- The page that a session has after it let go is a matter of what it held, and where. -/
theorem dropCurrent_page_congr {s s' : Session} (hc : s'.current = s.current)
    (hp : s'.page = s.page) : s'.dropCurrent.page = s.dropCurrent.page := by
  unfold dropCurrent
  rw [hc]
  split
  · rw [hp]
  · exact hp

/-- What is rendered does not depend on the requests that are not. -/
theorem Renders.of_differs {s s₁ s' : Session} {i : RenderInput} {o : Outcome}
    (h : s₁.Renders i o s')
    (differs : s₁ = { s with
      generation := s₁.generation, latest := s₁.latest, isReady := s₁.isReady }) :
    s.Renders i o s' := by
  have page : s₁.dropCurrent.page = s.dropCurrent.page :=
    dropCurrent_page_congr (by rw [differs]) (by rw [differs])
  have compiler : s₁.compiler = s.compiler := by rw [differs]
  have config : s₁.config = s.config := by rw [differs]
  have produced := h.produced
  rw [page, compiler, config] at produced
  exact ⟨produced, compiler ▸ h.compiler, h.current, h.rendered⟩

/-- A rendering changes neither the requests nor whether a session is ready. -/
theorem renderLatest_spec {i : RenderInput} (h : s.latest = some i) :
    ∃ o, s.Renders i o s.renderLatest ∧ s.renderLatest.generation = s.generation
      ∧ s.renderLatest.latest = s.latest ∧ s.renderLatest.isReady = s.isReady := by
  have produced :=
    i.produces_render s.compiler s.config.runtime s.dropCurrent.page
  have rendered : s.renderLatest =
      let r := i.render s.compiler s.config.runtime s.dropCurrent.page
      { s with
        compiler := r.2.1
        page := r.2.2
        current := some r.1
        rendered := some s.generation } := by
    unfold renderLatest
    rw [h, s.dropCurrent_eq]
    dsimp only
    rw [h]
  rw [rendered]
  exact ⟨_, ⟨produced, i.render_compiler _ _ _, rfl, rfl⟩, rfl, rfl, rfl⟩

variable {s}

theorem run_latest (ready : s.isReady = true) :
    s.run ⟨s.generation⟩ = (.rendered, s.renderLatest) := by
  simp [run, ready]

theorem run_waiting (waiting : s.isReady = false) : s.run ⟨s.generation⟩ = (.queued, s) := by
  simp [run, waiting]

theorem provide_ready (ready : s.isReady = true) : s.provide = (none, s) := by
  simp [provide, ready]

theorem provide_waiting (waiting : s.isReady = false) :
    s.provide = if s.latest.isSome ∧ s.rendered ≠ some s.generation
      then (some .rendered, { s with isReady := true }.renderLatest)
      else (none, { s with isReady := true }) := by
  simp [provide, waiting]

/-- A ticket runs the newest request, or nothing happens. -/
theorem run_snd_cases (t : Ticket) :
    (s.run t).2 = s ∨ s.isReady = true ∧ (s.run t).2 = s.renderLatest := by
  unfold run
  split
  · exact .inl rfl
  · split
    · exact .inl rfl
    · rename_i hr
      exact .inr ⟨by simpa using hr, rfl⟩

end Steps

/-! ## Histories -/

variable {start : Session} {ops : List SessionOp} {s : Session}

/-- What was made stays made. -/
theorem Holds.later {g : Nat} {o o' : Outcome} (h : start.Holds ops g o) (op : SessionOp)
    (kept : op.isAlter = false → o' = o) : start.Holds (ops ++ [op]) g o' := by
  obtain ⟨before, at_, later, i, first, split, newest, ⟨pos, requested⟩, renders, stays⟩ := h
  refine .made before at_ (later ++ [op]) i first (by simp [split]) newest ⟨pos, ?_⟩ renders ?_
  · rw [inputs_append]
    exact List.getElem?_append_left (List.getElem?_eq_some_iff.1 requested).1 ▸ requested
  · intro none
    have hop : op.isAlter = false := none op (by simp)
    rw [kept hop]
    exact stays fun x hx => none x (by simp [hx])

/-- What operations keep true of a session that started with nothing. -/
structure Tracks (start : Session) (ops : List SessionOp) (s : Session) : Prop where
  generation : s.generation = (inputs ops).length
  latest : s.latest = (inputs ops).getLast?
  isReady : s.isReady = true ↔ start.isReady = true ∨ .provide ∈ ops
  waiting : s.isReady = false → s.current = none ∧ s.rendered = none
  rendered_le : ∀ g, s.rendered = some g → g ≤ s.generation
  held : ∀ o, s.current = some o → ∃ g, s.rendered = some g ∧ start.Holds ops g o

theorem Tracks.isReady_concat (h : Tracks start ops s) {op : SessionOp} (other : op ≠ .provide) :
    s.isReady = true ↔ start.isReady = true ∨ .provide ∈ ops ++ [op] := by
  simp [h.isReady, Ne.symm other]

/-- An operation that neither requests nor renders. -/
theorem Tracks.keep (h : Tracks start ops s) {op : SessionOp} (no : op.input? = none)
    {s' : Session} (generation : s'.generation = s.generation) (latest : s'.latest = s.latest)
    (isReady : s'.isReady = true ↔ start.isReady = true ∨ .provide ∈ ops ++ [op])
    (rendered : ∀ g, s'.rendered = some g → s.rendered = some g)
    (waiting : s'.isReady = false → s'.current = none ∧ s'.rendered = none)
    (held : ∀ o', s'.current = some o' → s'.rendered = s.rendered ∧
      ∃ o, s.current = some o ∧ (op.isAlter = false → o' = o)) :
    Tracks start (ops ++ [op]) s' where
  generation := by rw [generation, h.generation, inputs_concat_none no]
  latest := by rw [latest, h.latest, inputs_concat_none no]
  isReady := isReady
  waiting := waiting
  rendered_le g hg := generation ▸ h.rendered_le g (rendered g hg)
  held o' ho' := by
    obtain ⟨same, o, ho, kept⟩ := held o' ho'
    obtain ⟨g, hg, holds⟩ := h.held o ho
    exact ⟨g, same.trans hg, holds.later op kept⟩

/-- A request alone. -/
theorem Tracks.request (h : Tracks start ops s) {op : SessionOp} {i : RenderInput}
    (hi : op.input? = some i) : Tracks start (ops ++ [op]) (s.request i).2 where
  generation := by
    rw [inputs_concat_some hi, List.length_append]
    exact congrArg (· + 1) h.generation
  latest := by
    rw [inputs_concat_some hi, List.getLast?_concat]
    rfl
  isReady := h.isReady_concat (by rintro rfl; cases hi)
  waiting := h.waiting
  rendered_le g hg := Nat.le_succ_of_le (h.rendered_le g hg)
  held o ho := by
    obtain ⟨g, hg, holds⟩ := h.held o ho
    exact ⟨g, hg, holds.later op fun _ => rfl⟩

/-- An operation that ends with a rendering. Before that it changed the requests at most, or made
the session ready. -/
theorem Tracks.render {op : SessionOp} {s₁ : Session} (h : Tracks start (ops ++ [op]) s₁)
    (ready : s₁.isReady = true)
    (differs : s₁ = { start.after ops with
      generation := s₁.generation, latest := s₁.latest, isReady := s₁.isReady })
    (at_ : start.after (ops ++ [op]) = s₁.renderLatest) :
    Tracks start (ops ++ [op]) s₁.renderLatest := by
  cases latest : s₁.latest with
  | none =>
    have same : s₁.renderLatest = s₁ := by
      unfold Session.renderLatest
      rw [latest]
    rw [same]
    exact h
  | some i =>
    obtain ⟨o, renders, hg, hl, hr⟩ := s₁.renderLatest_spec latest
    have newest : (inputs (ops ++ [op])).getLast? = some i := h.latest.symm.trans latest
    refine ⟨hg.trans h.generation, hl.trans h.latest,
      iff_of_true (hr.trans ready) (h.isReady.1 ready),
      fun hw => ?_, fun g hrendered => ?_, fun o' ho' => ?_⟩
    · rw [hr, ready] at hw
      cases hw
    · rw [renders.rendered] at hrendered
      exact Nat.le_of_eq (Option.some.inj hrendered).symm
    · obtain rfl : o = o' := Option.some.inj (renders.current.symm.trans ho')
      refine ⟨_, renders.rendered,
        .made ops op [] i o rfl (by rw [at_]) ⟨?_, ?_⟩
          (at_ ▸ renders.of_differs differs) fun _ => rfl⟩
      · rw [hg, h.generation]
        exact List.length_pos_of_mem (List.mem_of_getLast? newest)
      · rw [hg, h.generation, ← List.getLast?_eq_getElem?]
        exact newest

/-- An operation that ends with a ticket being run. -/
theorem Tracks.run {op : SessionOp} {s₁ : Session} (h : Tracks start (ops ++ [op]) s₁) (t : Ticket)
    (differs : s₁ = { start.after ops with
      generation := s₁.generation, latest := s₁.latest, isReady := s₁.isReady })
    (at_ : start.after (ops ++ [op]) = (s₁.run t).2) :
    Tracks start (ops ++ [op]) (s₁.run t).2 := by
  obtain same | ⟨ready, same⟩ := s₁.run_snd_cases t
  · rw [same]
    exact h
  · rw [same]
    exact h.render ready differs (at_.trans same)

/-- A session becomes ready, and then renders what waits. -/
theorem Tracks.provide (h : Tracks start ops (start.after ops)) :
    Tracks start (ops ++ [.provide]) (start.after (ops ++ [.provide])) := by
  have at_ := start.after_concat ops .provide
  generalize hs : start.after ops = s at h at_
  have ready : start.isReady = true ∨ .provide ∈ ops ++ [SessionOp.provide] := .inr (by simp)
  rw [at_]
  by_cases before : s.isReady = true
  · rw [show s.step .provide = s from congrArg Prod.snd (provide_ready before)]
    exact h.keep rfl rfl rfl (iff_of_true before ready) (fun _ => id) h.waiting
      fun o ho => ⟨rfl, o, ho, fun _ => rfl⟩
  · have made : Tracks start (ops ++ [.provide]) { s with isReady := true } :=
      h.keep rfl rfl rfl (iff_of_true rfl ready) (fun _ => id) nofun
        fun o ho => ⟨rfl, o, ho, fun _ => rfl⟩
    obtain same | same : s.step .provide = { s with isReady := true } ∨
        s.step .provide = { s with isReady := true }.renderLatest := by
      rw [Bool.not_eq_true] at before
      show s.provide.2 = _ ∨ s.provide.2 = _
      rw [provide_waiting before]
      split
      · exact .inr rfl
      · exact .inl rfl
    · rw [same]
      exact made
    · rw [same]
      exact made.render rfl (by rw [hs]) (at_.trans same)

/-- Whatever is asked of a session, it keeps track of its requests. -/
theorem Tracks.step (h : Tracks start ops (start.after ops)) (op : SessionOp) :
    Tracks start (ops ++ [op]) (start.after (ops ++ [op])) := by
  have at_ := start.after_concat ops op
  cases op with
  | request i =>
    rw [at_]
    exact h.request rfl
  | run t =>
    have kept : Tracks start (ops ++ [.run t]) (start.after ops) :=
      h.keep rfl rfl rfl (h.isReady_concat nofun) (fun _ => id) h.waiting
        fun o ho => ⟨rfl, o, ho, fun _ => rfl⟩
    rw [at_]
    exact kept.run t rfl at_
  | submit i =>
    rw [at_]
    exact Tracks.run (h.request rfl) _ rfl at_
  | provide => exact h.provide
  | clear =>
    rw [at_]
    generalize start.after ops = s at h
    have dropped : s.step .clear =
        { s with current := none, rendered := none, page := s.dropCurrent.page } := by
      show s.clear = _
      unfold Session.clear
      rw [s.dropCurrent_eq]
    rw [dropped]
    exact h.keep rfl rfl rfl (h.isReady_concat nofun) nofun (fun _ => ⟨rfl, rfl⟩) nofun
  | alter f =>
    rw [at_]
    generalize start.after ops = s at h
    show Tracks _ _ (s.alter f)
    unfold Session.alter
    split
    · rename_i o ho
      refine h.keep rfl rfl rfl (h.isReady_concat nofun) (fun _ => id) (fun hw => ?_)
        fun _ _ => ⟨rfl, o, ho, nofun⟩
      rw [(h.waiting hw).1] at ho
      cases ho
    · exact h.keep rfl rfl rfl (h.isReady_concat nofun) (fun _ => id) h.waiting
        fun o ho => ⟨rfl, o, ho, fun _ => rfl⟩

theorem tracks_append (done : List SessionOp) (h : Tracks start done (start.after done))
    (ops : List SessionOp) : Tracks start (done ++ ops) (start.after (done ++ ops)) := by
  induction ops generalizing done with
  | nil => simpa using h
  | cons op ops ih => simpa using ih (done ++ [op]) (h.step op)

/-- The newest request wins: of a session that starts with no request, on any page and ready or not,
after any operations. -/
theorem latestWins (config : Config) (isReady : Bool) (page : Page) (ops : List SessionOp) :
    let start := { Session.new config isReady with page }
    start.LatestWins ops (start.after ops) := by
  intro start
  have fresh : Tracks start [] start :=
    ⟨rfl, rfl, by simp, fun _ => ⟨rfl, rfl⟩, nofun, nofun⟩
  have h : Tracks start ops (start.after ops) := tracks_append [] fresh ops
  generalize start.after ops = s at h ⊢
  have waiting (unready : start.isReady = false) (none : .provide ∉ ops) : s.isReady = false := by
    rw [← Bool.not_eq_true, h.isReady]
    simp [unready, none]
  exact {
    generation := h.generation
    rendered_le := h.rendered_le
    superseded := fun t older => by
      unfold Session.run
      rw [if_pos (Nat.ne_of_lt older)]
    waits := fun unready none =>
      ⟨(h.waiting (waiting unready none)).1, run_waiting (waiting unready none)⟩
    provides := fun unready none i newest => by
      have latest := h.latest.trans newest
      have nothing := (h.waiting (waiting unready none)).2
      obtain ⟨o, renders, -⟩ := { s with isReady := true }.renderLatest_spec latest
      rw [provide_waiting (waiting unready none), if_pos (by simp [latest, nothing])]
      exact ⟨rfl, o, renders.of_differs rfl⟩
    providesNothing := fun unready none nothing => by
      have latest : s.latest = .none := by rw [h.latest, nothing]; rfl
      rw [provide_waiting (waiting unready none), if_neg (by simp [latest])]
    provided := fun ready => provide_ready (h.isReady.2 ready)
    runs := fun ready i newest => by
      obtain ⟨o, renders, -⟩ := s.renderLatest_spec (h.latest.trans newest)
      rw [run_latest (h.isReady.2 ready)]
      exact ⟨rfl, o, renders⟩
    held := h.held }

end Session

end TsxPreview
