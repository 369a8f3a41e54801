import TsxPreview.Proofs.View.Growth
import TsxPreview.Proofs.View.Stages

/-!
Rendering does not look at the document. What it does to the machine, and what grows below the given
node, is the same in all documents.
-/

namespace TsxPreview

namespace View

variable {α β : Type} {g : Growth}

/-- Work after which more has grown below a node: what becomes of the machine and what grows is the
same for every document, every node of it, and every number of identities that were used up. -/
def Grows (g : Growth) (x : NodeId → Nat → View α) : Prop :=
  ∀ m : Machine, ∃ (r : Except ScriptError α) (m' : Machine) (g' : Growth), g.length ≤ g'.length ∧
    ∀ c b e d, Document.Grown c b g e d →
      ∃ d', (x c b).outcome ⟨m, d⟩ = (r, ⟨m', d'⟩) ∧ Document.Grown c b g' e d'

theorem grows_script (x : Script α) : Grows g fun _ _ => script x := by
  intro m
  refine ⟨(x.outcome m).1, (x.outcome m).2, g, Nat.le_refl _, fun c b e d grown => ⟨d, ?_, grown⟩⟩
  rw [outcome_script]

theorem grows_pure (a : α) : Grows g fun _ _ => (pure a : View α) := fun m =>
  ⟨.ok a, m, g, Nat.le_refl _, fun _ _ _ d grown => ⟨d, rfl, grown⟩⟩

theorem grows_throw (e : ScriptError) : Grows g fun _ _ => (throw e : View α) := fun m =>
  ⟨.error e, m, g, Nat.le_refl _, fun _ _ _ d grown => ⟨d, rfl, grown⟩⟩

theorem Grows.bind {x : NodeId → Nat → View α} {f : α → NodeId → Nat → View β} (hx : Grows g x)
    (hf : ∀ a g', g.length ≤ g'.length → Grows g' (f a)) :
    Grows g fun c b => x c b >>= fun a => f a c b := by
  intro m
  obtain ⟨r, m₁, g₁, le, first⟩ := hx m
  cases r with
  | error err =>
    refine ⟨.error err, m₁, g₁, le, fun c b e d grown => ?_⟩
    obtain ⟨d₁, run, grown₁⟩ := first c b e d grown
    refine ⟨d₁, ?_, grown₁⟩
    rw [outcome_bind, run]
  | ok a =>
    obtain ⟨r, m₂, g₂, le', second⟩ := hf a g₁ le m₁
    refine ⟨r, m₂, g₂, Nat.le_trans le le', fun c b e d grown => ?_⟩
    obtain ⟨d₁, run, grown₁⟩ := first c b e d grown
    obtain ⟨d₂, run', grown₂⟩ := second c b e d₁ grown₁
    refine ⟨d₂, ?_, grown₂⟩
    rw [outcome_bind, run]
    exact run'

/-- Work with the node that was made last. -/
theorem grows_place_bind {kind : NodeKind} {p : Option Nat} {f : NodeId → NodeId → Nat → View β}
    (there : g.Has p)
    (hf : Grows (g ++ [(kind, p)]) fun c b => f (c.spot b (some g.length)) c b) :
    Grows g fun c b => place (c.spot b p) kind >>= fun n => f n c b := by
  intro m
  obtain ⟨r, m', g', le, rest⟩ := hf m
  refine ⟨r, m', g', ?_, fun c b e d grown => ?_⟩
  · rw [List.length_append] at le
    omega
  · obtain ⟨d', run, grown'⟩ := rest c b e _ (grown.place there kind)
    refine ⟨d', ?_, grown'⟩
    dsimp only at run ⊢
    rw [NodeId.spot_some, ← grown.size] at run
    rw [outcome_bind]
    exact run

theorem grows_placeText {p : Option Nat} (there : g.Has p) (content : String) :
    Grows g fun c b => placeText (c.spot b p) content :=
  grows_place_bind there (grows_pure ())

theorem grows_change (change : NodeId → Document → Document) (f : NodeKind → NodeKind) (k : Nat)
    (eq : ∀ n d, change n d = d.modifyNode n fun x => { x with kind := f x.kind }) :
    Grows g fun c b => modifyDocument (change (c.spot b (some k))) := fun m =>
  ⟨.ok (), m, g.change k f, Nat.le_of_eq (Growth.length_change g k f).symm, fun c b _ d grown =>
    ⟨_, rfl, (eq (c.spot b (some k)) d).symm ▸ grown.change k f⟩⟩

def mapAttributes (f : List (String × String) → List (String × String)) : NodeKind → NodeKind
  | .element tag attributes listeners => .element tag (f attributes) listeners
  | .text content => .text content

def mapListeners (f : List (String × Value) → List (String × Value)) : NodeKind → NodeKind
  | .element tag attributes listeners => .element tag attributes (f listeners)
  | .text content => .text content

theorem grows_setAttribute (k : Nat) (name value : String) :
    Grows g fun c b => modifyDocument (·.setAttribute (c.spot b (some k)) name value) := by
  refine grows_change (fun n d => d.setAttribute n name value)
    (mapAttributes (insertSorted name value)) k fun n d => ?_
  unfold Document.setAttribute Document.modifyAttributes
  congr 1
  funext x
  obtain ⟨kind, parent, children⟩ := x
  cases kind <;> rfl

theorem grows_setListener (k : Nat) (event : String) (handler : Value) :
    Grows g fun c b => modifyDocument (·.setListener (c.spot b (some k)) event handler) := by
  refine grows_change (fun n d => d.setListener n event handler)
    (mapListeners (insertSorted event handler)) k fun n d => ?_
  unfold Document.setListener
  congr 1
  funext x
  obtain ⟨kind, parent, children⟩ := x
  cases kind <;> rfl

/-- What a last change of the hooks makes of the machine. -/
def lastly (f : HookStore → HookStore) (r : Except ScriptError α) (m : Machine) : Machine :=
  match r with
  | .ok _ => { m with realm.hooks := f m.realm.hooks }
  | .error e => if e.endsRun then m else { m with realm.hooks := f m.realm.hooks }

theorem outcome_finallyHooks (f : HookStore → HookStore) (x : View α) (s : Stage) :
    (finallyHooks f x).outcome s =
      ((x.outcome s).1,
        ⟨lastly f (x.outcome s).1 (x.outcome s).2.machine, (x.outcome s).2.document⟩) := by
  unfold outcome finallyHooks lastly
  cases x s with
  | ok a s' => rfl
  | error e s' =>
    dsimp only
    split <;> rfl

theorem Grows.finallyHooks {f : HookStore → HookStore} {x : NodeId → Nat → View α}
    (hx : Grows g x) : Grows g fun c b => View.finallyHooks f (x c b) := by
  intro m
  obtain ⟨r, m₁, g₁, le, first⟩ := hx m
  refine ⟨r, lastly f r m₁, g₁, le, fun c b e d grown => ?_⟩
  obtain ⟨d₁, run, grown₁⟩ := first c b e d grown
  refine ⟨d₁, ?_, grown₁⟩
  rw [outcome_finallyHooks, run]

end View

/-! ## Rendering -/

namespace Render

open View

variable (ev : Evaluator) {g : Growth} {p : Option Nat}

theorem grows_applyProperty (k : Nat) (tag : String) (props : ObjectRef) (name : String)
    (value : Value) :
    Grows g fun c b => applyProperty ev (c.spot b (some k)) tag props name value := by
  unfold applyProperty
  split
  · exact grows_pure ()
  · exact grows_pure ()
  · exact grows_script _
  · refine (grows_script _).bind fun css g' _ => ?_
    split
    · exact grows_setAttribute k "style" css
    · exact grows_pure ()
  · split
    · split
      · exact grows_setListener k _ value
      · exact grows_pure ()
    · refine (grows_script _).bind fun text g' _ => ?_
      cases text with
      | some text => exact grows_setAttribute k _ text
      | none => exact grows_pure ()

theorem grows_applyProperties (k : Nat) (tag : String) (props : ObjectRef) (inner : Option String)
    (entries : List (String × Value)) :
    Grows g fun c b => applyProperties ev (c.spot b (some k)) tag props inner entries := by
  induction entries generalizing inner g with
  | nil => exact grows_pure inner
  | cons entry rest ih =>
    obtain ⟨name, value⟩ := entry
    unfold applyProperties
    split
    · exact (grows_script _).bind fun text g' _ => ih (some text)
    · exact (grows_applyProperty ev k tag props name value).bind fun _ g' _ => ih inner

variable {ev} in
theorem grows_renderItems {render : NodeId → Nat → Value → String → View Scene}
    (hr : ∀ {g : Growth} item position, g.Has p → Grows g fun c b => render c b item position)
    (there : g.Has p) (position : String) (i : Nat) (items : List Value) :
    Grows g fun c b => renderItems (render c b) position i items := by
  induction items generalizing i g with
  | nil => exact grows_pure []
  | cons item rest ih =>
    exact (hr item _ there).bind fun scene g' le =>
      (ih (there.mono le) (i + 1)).bind fun scenes _ _ => grows_pure (scene :: scenes)

theorem grows_render (levels : Nat) (there : g.Has p) (value : Value) (position : String) :
    Grows g fun c b => render ev levels (c.spot b p) value position := by
  induction levels generalizing g p value position with
  | zero => exact grows_throw _
  | succ levels ih =>
    unfold render
    cases value with
    | undefined | null | bool | closure | native | icons => exact grows_pure _
    | number | string =>
      exact (grows_placeText there _).bind fun _ _ _ => grows_pure _
    | array r =>
      exact (grows_script _).bind fun items g' le =>
        (grows_renderItems (fun item position has => ih has item position) (there.mono le) position 0
          items).bind fun scenes _ _ => grows_pure (Scene.list scenes)
    | object r => exact (grows_script _).bind fun keys _ _ => grows_throw _
    | element id type props key =>
      have children {g : Growth} : Grows g fun _ _ => propertyOf props "children" := grows_script _
      cases type with
      | tag tag =>
        refine grows_place_bind there ?_
        have made : Growth.Has (g ++ [(.element tag [] [], p)]) (some g.length) := by
          show g.length < List.length (g ++ [_])
          rw [List.length_append]
          exact Nat.lt_succ_self _
        refine (grows_script _).bind fun entries g₁ le₁ =>
          (grows_applyProperties ev g.length tag props none entries).bind fun inner g₂ le₂ => ?_
        have made := (made.mono le₁).mono le₂
        cases inner with
        | some text => exact (grows_placeText made text).bind fun _ _ _ => grows_pure _
        | none =>
          exact children.bind fun child g₃ le₃ =>
            (ih (made.mono le₃) child _).bind fun shown _ _ =>
            grows_pure (Scene.element key (.tag tag) shown)
      | fragment =>
        exact children.bind fun child g₁ le₁ =>
          (ih (there.mono le₁) child position).bind fun shown _ _ =>
          grows_pure (Scene.element key .group shown)
      | provider context =>
        refine (grows_script _).bind fun given g₁ le₁ => (grows_script _).bind fun _ g₂ le₂ => ?_
        have there := (there.mono le₁).mono le₂
        exact (Grows.finallyHooks (children.bind fun child g₃ le₃ =>
          ih (there.mono le₃) child position)).bind fun shown _ _ =>
          grows_pure (Scene.element key .group shown)
      | consumer context =>
        exact (grows_script _).bind fun given g₁ le₁ => children.bind fun child g₂ le₂ =>
          (grows_script _).bind fun output g₃ le₃ =>
          (ih (((there.mono le₁).mono le₂).mono le₃) output _).bind fun shown _ _ =>
          grows_pure (Scene.element key .consumer shown)
      | component component =>
        have visited : Grows g fun _ _ => visit ev position component props :=
          (grows_script _).bind fun found _ _ => (grows_script _).bind fun _ _ _ =>
            (Grows.finallyHooks (grows_script _)).bind fun output _ _ =>
            (grows_script _).bind fun left _ _ => grows_pure _
        exact visited.bind fun called g₁ le₁ =>
          (ih (there.mono le₁) called.1 _).bind fun shown _ _ =>
          grows_pure (Scene.element key called.2 shown)

end Render

/-! ## Passes -/

namespace Document

/-- A document after growths below a node that was cleared before each of them. -/
def Regrown (c : NodeId) : List Growth → Document → Document → Prop
  | [], d, d' => d' = d
  | g :: gs, d, d' => ∃ d₁, Grown c d.nodes.size g (d.clear c) d₁ ∧ Regrown c gs d₁ d'

variable {c : NodeId} {gs gs' : List Growth} {d d' d'' e : Document}

theorem Regrown.trans (h : Regrown c gs d d') (h' : Regrown c gs' d' d'') :
    Regrown c (gs ++ gs') d d'' := by
  induction gs generalizing d with
  | nil =>
    have same : d' = d := h
    subst same
    exact h'
  | cons g gs ih =>
    obtain ⟨d₁, grown, rest⟩ := h
    exact ⟨d₁, grown, ih rest⟩

theorem Regrown.size_le (h : Regrown c gs d d') : d.nodes.size ≤ d'.nodes.size := by
  induction gs generalizing d with
  | nil =>
    have same : d' = d := h
    exact Nat.le_of_eq (same ▸ rfl)
  | cons g gs ih =>
    obtain ⟨d₁, grown, rest⟩ := h
    have first := grown.size
    have later := ih rest
    omega

/-- Of all growths the last one stands. -/
theorem Regrown.grown {b : Nat} {g : Growth} (h : Regrown c gs d d') (start : Grown c b g e d)
    (vacant : Vacant c e) : ∃ b', Grown c b' (gs.getLastD g) e d' := by
  induction gs generalizing b g d with
  | nil =>
    have same : d' = d := h
    subst same
    exact ⟨b, start⟩
  | cons g' gs ih =>
    obtain ⟨d₁, grown, rest⟩ := h
    rw [List.getLastD_cons]
    exact ih rest (grown.congr (start.clear vacant))

end Document

namespace View

open Document

variable {α β : Type}

/-- Work that may clear a node and let nodes grow below it, any number of times. What becomes of the
machine, and what grows, is the same for all documents. -/
def Regrows (x : NodeId → View α) : Prop :=
  ∀ m : Machine, ∃ (r : Except ScriptError α) (m' : Machine) (gs : List Growth),
    ∀ (c : NodeId) d, c.index < d.nodes.size →
      ∃ d', (x c).outcome ⟨m, d⟩ = (r, ⟨m', d'⟩) ∧ Regrown c gs d d'

theorem regrows_script (x : Script α) : Regrows fun _ => script x := by
  intro m
  refine ⟨(x.outcome m).1, (x.outcome m).2, [], fun c d _ => ⟨d, ?_, rfl⟩⟩
  rw [outcome_script]

theorem regrows_pure (a : α) : Regrows fun _ => (pure a : View α) := fun m =>
  ⟨.ok a, m, [], fun _ d _ => ⟨d, rfl, rfl⟩⟩

theorem regrows_throw (e : ScriptError) : Regrows fun _ => (throw e : View α) := fun m =>
  ⟨.error e, m, [], fun _ d _ => ⟨d, rfl, rfl⟩⟩

theorem Regrows.bind {x : NodeId → View α} {f : α → NodeId → View β} (hx : Regrows x)
    (hf : ∀ a, Regrows (f a)) : Regrows fun c => x c >>= fun a => f a c := by
  intro m
  obtain ⟨r, m₁, gs, first⟩ := hx m
  cases r with
  | error err =>
    refine ⟨.error err, m₁, gs, fun c d inside => ?_⟩
    obtain ⟨d₁, run, regrown⟩ := first c d inside
    refine ⟨d₁, ?_, regrown⟩
    rw [outcome_bind, run]
  | ok a =>
    obtain ⟨r, m₂, gs', second⟩ := hf a m₁
    refine ⟨r, m₂, gs ++ gs', fun c d inside => ?_⟩
    obtain ⟨d₁, run, regrown⟩ := first c d inside
    obtain ⟨d₂, run', regrown'⟩ := second c d₁ (Nat.lt_of_lt_of_le inside regrown.size_le)
    refine ⟨d₂, ?_, regrown.trans regrown'⟩
    rw [outcome_bind, run]
    exact run'

end View

namespace Render

open View Document

variable (ev : Evaluator) (root : Value)

theorem regrows_pass : Regrows fun c => pass ev c root := by
  have shown : Grows [] fun c _ => (do
      let shown ← render ev Evaluator.levels c root rootPosition
      script (Hook.sweep ev)
      script (Hook.runPending ev)
      return shown) :=
    (grows_render ev _ (p := none) trivial root rootPosition).bind fun shown _ _ =>
      (grows_script _).bind fun _ _ _ => (grows_script _).bind fun _ _ _ => grows_pure shown
  have built : Regrows fun c => (do
      modifyDocument (Document.clear · c)
      let shown ← render ev Evaluator.levels c root rootPosition
      script (Hook.sweep ev)
      script (Hook.runPending ev)
      return shown) := by
    intro m
    obtain ⟨r, m', g, -, grows⟩ := shown m
    refine ⟨r, m', [g], fun c d inside => ?_⟩
    have start : Grown c d.nodes.size [] (d.clear c) (d.clear c) := by
      rw [← size_clear d c]
      exact .nil (by rwa [size_clear])
    obtain ⟨d', run, grown⟩ := grows c d.nodes.size (d.clear c) (d.clear c) start
    exact ⟨d', run, d', grown, rfl⟩
  exact (regrows_script _).bind fun _ => built

theorem regrows_passes (count : Nat) : Regrows fun c => passes ev c root count := by
  induction count with
  | zero => exact regrows_throw _
  | succ count ih =>
    refine (regrows_pass ev root).bind fun _ => (regrows_script _).bind fun dirty => ?_
    cases dirty with
    | true => exact ih
    | false => exact regrows_pure ()

theorem regrows_display : Regrows fun c => display ev c root :=
  (regrows_script _).bind fun _ => regrows_passes ev root maxPasses

end Render

end TsxPreview
