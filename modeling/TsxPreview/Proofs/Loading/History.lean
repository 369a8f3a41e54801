import TsxPreview.Proofs.Sorted
import TsxPreview.Script.Host

/-!
What happened to a loader, and what it remembers of that. A module that is being evaluated may
require others, and they may require it in turn; so what a loader remembers must be right at every
moment at which the code of a module runs, and not only between one request and the next.
-/

namespace TsxPreview

/-- Every module stands under its own path. -/
def CompiledProject.Keyed (r : CompiledProject) : Prop :=
  ∀ path m, r.module? path = some m → m.path = path

/-! ## What happened to a loader -/

namespace LoaderEvent

def isBegan (path : String) : LoaderEvent → Bool
  | began p => p == path
  | _ => false

/-- The module that raised an error. -/
def failure? : LoaderEvent → Option String
  | failed path => some path
  | _ => none

def isFailed (path : String) (e : LoaderEvent) : Bool := e.failure? == some path

end LoaderEvent

namespace Loader

/-- How often the evaluation of a module began. -/
def begun (l : Loader) (path : String) : Nat := l.history.countP (·.isBegan path)

/-- How often a module raised an error. -/
def failures (l : Loader) (path : String) : Nat := l.history.countP (·.isFailed path)

def container? (l : Loader) (specifier : String) : Option Value :=
  PackageTable.container? l.packages specifier

/-- What `require` answers: a package comes first, then the module, of which there is one container;
nothing else is found. -/
inductive Answers (l : Loader) (specifier : String) (all : Bool) :
    Except ScriptError Value → Prop where
  | package {container v : Value} (found : l.container? specifier = some container)
      (whole : all = true → v = container) : Answers l specifier all (.ok v)
  | module {m : CompiledModule} {v : Value} (other : l.container? specifier = none)
      (found : l.project.module? specifier = some m)
      (whole : all = true → ∃ exports, v = .object exports ∧
        l.records.lookup specifier = some exports) : Answers l specifier all (.ok v)
  | missing (other : l.container? specifier = none)
      (none : l.project.module? specifier = none) :
      Answers l specifier all (.error (.moduleNotFound specifier))

/-- The specifier names a module, and that raised an error at some time. -/
structure Fails (l : Loader) (specifier : String) : Prop where
  other : l.container? specifier = none
  found : (l.project.module? specifier).isSome = true
  failed : 0 < l.failures specifier

/-- The specifier names a module, and the run ended while that was evaluated. -/
structure Ends (l : Loader) (specifier : String) (answer : Except ScriptError Value) : Prop where
  other : l.container? specifier = none
  found : (l.project.module? specifier).isSome = true
  ended : ∃ e, answer = .error e ∧ e.endsRun = true

/-- What a loader remembers is what happened to it. -/
structure Sound (l : Loader) : Prop where
  keyed : l.project.Keyed
  modules : ∀ path exports, l.records.lookup path = some exports →
    (l.project.module? path).isSome = true
  counted : ∀ path, l.count path = l.begun path
  /-- A module is evaluated anew only after it raised an error. -/
  balanced : ∀ path, l.begun path = l.failures path + (l.records.lookup path).isSome.toNat
  answered : ∀ specifier all answer, .answered specifier all answer ∈ l.history →
    l.Answers specifier all answer ∨ l.Fails specifier

/-- What becomes of a loader while scripts run. -/
structure Evolves (l l' : Loader) : Prop where
  project : l'.project = l.project
  packages : l'.packages = l.packages
  records : ∀ path exports, l.records.lookup path = some exports →
    l'.records.lookup path = some exports
  history : l.history <:+ l'.history
  sound : l'.Sound

theorem Sound.evolves {l : Loader} (h : l.Sound) : l.Evolves l :=
  ⟨rfl, rfl, fun _ _ => id, List.suffix_refl _, h⟩

theorem Evolves.trans {a b c : Loader} (hab : a.Evolves b) (hbc : b.Evolves c) : a.Evolves c where
  project := hbc.project.trans hab.project
  packages := hbc.packages.trans hab.packages
  records path exports h := hbc.records path exports (hab.records path exports h)
  history := hab.history.trans hbc.history
  sound := hbc.sound

/-! ## Single changes -/

section Changes

variable {l l' : Loader} {specifier path : String} {all : Bool} {answer : Except ScriptError Value}

/-- An answer holds as long as the container that it names is known. -/
theorem Answers.keep (h : l.Answers specifier all answer) (project : l'.project = l.project)
    (packages : l'.packages = l.packages)
    (records : ∀ exports, l.records.lookup specifier = some exports →
      l'.records.lookup specifier = some exports) : l'.Answers specifier all answer := by
  have container : l'.container? specifier = l.container? specifier := by
    unfold container?
    rw [packages]
  cases h with
  | package found whole => exact .package (container.trans found) whole
  | module other found whole =>
    refine .module (container.trans other) (project ▸ found) fun all => ?_
    obtain ⟨exports, rfl, known⟩ := whole all
    exact ⟨exports, rfl, records exports known⟩
  | missing other none => exact .missing (container.trans other) (project ▸ none)

theorem Answers.error {e : ScriptError} (h : l.Answers specifier true (.error e)) :
    l.Answers specifier all (.error e) := by
  cases h with
  | missing other none => exact .missing other none

theorem Answers.chosen {v v' : Value} (h : l.Answers specifier true (.ok v))
    (whole : all = true → v' = v) : l.Answers specifier all (.ok v') := by
  cases h with
  | package found same => exact .package found fun all => (whole all).trans (same rfl)
  | module other found same => exact .module other found fun all => whole all ▸ same rfl

theorem Fails.keep (h : l.Fails specifier) (project : l'.project = l.project)
    (packages : l'.packages = l.packages)
    (failures : l.failures specifier ≤ l'.failures specifier) : l'.Fails specifier where
  other := by
    unfold container?
    rw [packages]
    exact h.other
  found := project ▸ h.found
  failed := Nat.lt_of_lt_of_le h.failed failures

@[simp] theorem begun_note (e : LoaderEvent) :
    (l.note e).begun path = l.begun path + (e.isBegan path).toNat := by
  unfold begun note
  rw [List.countP_cons]
  cases e.isBegan path <;> rfl

@[simp] theorem failures_note (e : LoaderEvent) :
    (l.note e).failures path = l.failures path + (e.isFailed path).toNat := by
  unfold failures note
  rw [List.countP_cons]
  cases e.isFailed path <;> rfl

theorem lookup_begin (exports : ObjectRef) (key : String) :
    (l.begin path exports).records.lookup key =
      if key = path then some exports else l.records.lookup key :=
  lookup_insertSorted path exports l.records key

theorem lookup_forget (key : String) :
    (l.forget path).records.lookup key = if key = path then none else l.records.lookup key :=
  lookup_filter_ne l.records path key

theorem count_begin (exports : ObjectRef) (key : String) :
    (l.begin path exports).count key = l.count key + (path == key).toNat := by
  unfold count
  show ((insertSorted path (l.count path + 1) l.counts).lookup key).getD 0 = _
  rw [lookup_insertSorted]
  by_cases same : key = path
  · subst same
    simp [count]
  · have other : (path == key) = false := by simpa using Ne.symm same
    rw [if_neg same, other]
    rfl

/-- The evaluation of a module begins that is not known yet. -/
theorem Sound.begin (h : l.Sound) (fresh : l.records.lookup path = none)
    (found : (l.project.module? path).isSome = true) (exports : ObjectRef) :
    l.Evolves (l.begin path exports) where
  project := rfl
  packages := rfl
  records key known eq := by
    rw [lookup_begin, if_neg, eq]
    rintro rfl
    rw [fresh] at eq
    cases eq
  history := List.suffix_cons _ _
  sound :=
    { keyed := h.keyed
      modules := fun key known eq => by
        rw [lookup_begin] at eq
        by_cases same : key = path
        · rw [same]
          exact found
        · rw [if_neg same] at eq
          exact h.modules key known eq
      counted := fun key => by
        rw [count_begin, h.counted]
        exact (begun_note (.began path)).symm
      balanced := fun key => by
        have before := h.balanced key
        have failures : (l.begin path exports).failures key = l.failures key :=
          failures_note (.began path)
        have begun : (l.begin path exports).begun key = l.begun key + (path == key).toNat :=
          begun_note (.began path)
        rw [failures, begun, lookup_begin, before]
        by_cases same : key = path
        · subst same
          simp [fresh]
        · have other : (path == key) = false := by simpa using Ne.symm same
          simp [same, other]
      answered := fun specifier all answer mem => by
        obtain eq | mem := List.mem_cons.mp mem
        · cases eq
        refine (h.answered specifier all answer mem).imp (fun answers => ?_) fun fails => ?_
        · refine answers.keep rfl rfl fun known eq => ?_
          rw [lookup_begin, if_neg, eq]
          rintro rfl
          rw [fresh] at eq
          cases eq
        · have same : (l.begin path exports).failures specifier = l.failures specifier :=
            failures_note (.began path)
          exact fails.keep rfl rfl (Nat.le_of_eq same.symm) }

theorem failures_forget (key : String) :
    (l.forget path).failures key = l.failures key + (path == key).toNat :=
  failures_note (.failed path)

/-- Whoever asked for a module that is forgotten sees that it failed. -/
theorem fails_forget (other : l.container? path = none)
    (found : (l.project.module? path).isSome = true) : (l.forget path).Fails path := by
  refine ⟨other, found, ?_⟩
  rw [failures_forget]
  simp

/-- The module that was being evaluated raised an error, and is forgotten. -/
theorem Sound.forget (h : l.Sound) {exports : ObjectRef}
    (known : l.records.lookup path = some exports) (other : l.container? path = none)
    (found : (l.project.module? path).isSome = true) : (l.forget path).Sound := by
  have begun (key : String) : (l.forget path).begun key = l.begun key :=
    begun_note (.failed path)
  refine ⟨h.keyed, fun key known eq => ?_, fun key => (h.counted key).trans (begun key).symm,
    fun key => ?_, ?_⟩
  · rw [lookup_forget] at eq
    split at eq
    · cases eq
    · exact h.modules key known eq
  · rw [begun, failures_forget, lookup_forget, h.balanced key]
    by_cases same : key = path
    · subst same
      simp [known]
    · have other : (path == key) = false := by simpa using Ne.symm same
      simp [same, other]
  · intro specifier all answer mem
    obtain eq | mem := List.mem_cons.mp mem
    · cases eq
    by_cases same : specifier = path
    · subst same
      exact .inr (fails_forget other found)
    · refine (h.answered specifier all answer mem).imp (fun answers => ?_) fun fails => ?_
      · refine answers.keep rfl rfl fun exports eq => ?_
        rw [lookup_forget, if_neg same, eq]
      · refine fails.keep rfl rfl ?_
        rw [failures_forget]
        exact Nat.le_add_right _ _

/-- A module that was not known before is forgotten again. -/
theorem Evolves.forget (h : l.Evolves l') (fresh : l.records.lookup path = none)
    (sound : (l'.forget path).Sound) : l.Evolves (l'.forget path) where
  project := h.project
  packages := h.packages
  records key exports eq := by
    rw [lookup_forget, if_neg, h.records key exports eq]
    rintro rfl
    rw [fresh] at eq
    cases eq
  history := h.history.trans (List.suffix_cons _ _)
  sound := sound

/-- An answer is noted. -/
theorem Sound.note (h : l.Sound) (right : l.Answers specifier all answer ∨ l.Fails specifier) :
    l.Evolves (l.note (.answered specifier all answer)) where
  project := rfl
  packages := rfl
  records _ _ := id
  history := List.suffix_cons _ _
  sound := by
    have failures (key : String) :
        (l.note (.answered specifier all answer)).failures key = l.failures key :=
      failures_note _
    have begun (key : String) :
        (l.note (.answered specifier all answer)).begun key = l.begun key :=
      begun_note _
    have kept {s : String} {b : Bool} {a : Except ScriptError Value}
        (old : l.Answers s b a ∨ l.Fails s) :
        (l.note (.answered specifier all answer)).Answers s b a
          ∨ (l.note (.answered specifier all answer)).Fails s :=
      old.imp (fun h => h.keep rfl rfl fun _ => id)
        fun h => h.keep rfl rfl (Nat.le_of_eq (failures s).symm)
    refine ⟨h.keyed, h.modules, fun key => (h.counted key).trans (begun key).symm,
      fun key => ?_, ?_⟩
    · rw [begun, failures]
      exact h.balanced key
    · intro s b a mem
      obtain eq | mem := List.mem_cons.mp mem
      · cases eq
        exact kept right
      · exact kept (h.answered s b a mem)

end Changes

end Loader

end TsxPreview
