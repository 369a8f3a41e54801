import TsxPreview.Proofs.Hooks.Accounts
import TsxPreview.Proofs.Script.Levels

/-!
Sweeps, effects and the final unmount keep accounts: each cleanup that they take out of a slot they
call, and each cleanup that an effect gives they keep.
-/

namespace TsxPreview

open HookNote

namespace Script

variable {α β : Type} {P P' : HookStore → Prop} {Q : α → HookStore → Prop}

/-- Where `P` holds before, `Q` holds after, as long as the notes are fair. Notes are only added, and
an error is noted. -/
def Reckons (P : HookStore → Prop) (x : Script α) (Q : α → HookStore → Prop) : Prop :=
  ∀ m, Ends x m
    (fun a m' => m.realm.hooks.history <:+ m'.realm.hooks.history ∧
      (P m.realm.hooks → Fair m'.realm.hooks.history → Q a m'.realm.hooks))
    (fun m' => m.realm.hooks.history <:+ m'.realm.hooks.history ∧
      (P m.realm.hooks → ¬ Fair m'.realm.hooks.history))

theorem Reckons.mono {x : Script α} {Q' : α → HookStore → Prop} (h : Reckons P x Q)
    (pre : ∀ s, P' s → P s) (post : ∀ a s, Q a s → Q' a s) : Reckons P' x Q' := fun m =>
  (h m).mono (fun a _ k => ⟨k.1, fun hp fair => post a _ (k.2 (pre _ hp) fair)⟩)
    (fun _ k => ⟨k.1, fun hp => k.2 (pre _ hp)⟩)

theorem Reckons.bind {x : Script α} {f : α → Script β} {S : β → HookStore → Prop}
    (hx : Reckons P x Q) (hf : ∀ a, Reckons (Q a) (f a) S) : Reckons P (x >>= f) S := by
  intro m
  rw [ends_bind]
  refine (hx m).mono ?_ (fun _ k => k)
  rintro a m₁ ⟨grows, first⟩
  refine (hf a m₁).mono ?_ ?_
  · rintro b m₂ ⟨more, second⟩
    exact ⟨grows.trans more, fun hp fair => second (first hp (fair.of_suffix more)) fair⟩
  · rintro m₂ ⟨more, second⟩
    exact ⟨grows.trans more, fun hp fair => second (first hp (fair.of_suffix more)) fair⟩

/-- What is only added to stays. -/
theorem Reckons.frame {x : Script α} {K : HookStore → Prop} (h : Reckons P x Q)
    (stays : ∀ s s', s.history <:+ s'.history → K s → K s') :
    Reckons (fun s => P s ∧ K s) x fun a s => Q a s ∧ K s := fun m =>
  (h m).mono (fun _ _ k => ⟨k.1, fun hp fair => ⟨k.2 hp.1 fair, stays _ _ k.1 hp.2⟩⟩)
    (fun _ k => ⟨k.1, fun hp => k.2 hp.1⟩)

/-- A computation that starts later. -/
theorem Reckons.from {x : Script α} (h : Reckons P' x Q) {m m₁ : Machine}
    (grows : m.realm.hooks.history <:+ m₁.realm.hooks.history)
    (pre : P m.realm.hooks → P' m₁.realm.hooks) :
    Ends x m₁
      (fun a m' => m.realm.hooks.history <:+ m'.realm.hooks.history ∧
        (P m.realm.hooks → Fair m'.realm.hooks.history → Q a m'.realm.hooks))
      (fun m' => m.realm.hooks.history <:+ m'.realm.hooks.history ∧
        (P m.realm.hooks → ¬ Fair m'.realm.hooks.history)) :=
  (h m₁).mono (fun _ _ k => ⟨grows.trans k.1, fun hp => k.2 (pre hp)⟩)
    (fun _ k => ⟨grows.trans k.1, fun hp => k.2 (pre hp)⟩)

theorem Reckons.grows {x : Script α} (h : Reckons P x Q) (m : Machine) :
    m.realm.hooks.history <:+ (x.outcome m).2.realm.hooks.history :=
  within_iff_ends.mpr (fun m => (h m).mono (fun _ _ k => k.1) (fun _ k => k.1)) m

/-- What fails is not fair. -/
theorem Reckons.outcome {x : Script α} {Q : HookStore → Prop} (h : Reckons P x fun _ => Q)
    {m : Machine} (start : P m.realm.hooks)
    (fair : Fair (x.outcome m).2.realm.hooks.history) : Q (x.outcome m).2.realm.hooks := by
  have related : Within (fun m m' => P m.realm.hooks → Fair m'.realm.hooks.history →
      Q m'.realm.hooks) x :=
    within_iff_ends.mpr fun m =>
      (h m).mono (fun _ _ k => k.2) (fun _ k start fair => absurd fair (k.2 start))
  exact related m start fair

theorem reckons_pure {a : α} (h : ∀ s, P s → Q a s) : Reckons P (pure a) Q :=
  fun _ => ⟨List.suffix_rfl, fun hp _ => h _ hp⟩

theorem reckons_modifyHooks {f : HookStore → HookStore} {Q : Unit → HookStore → Prop}
    (grows : ∀ s, s.history <:+ (f s).history) (h : ∀ s, P s → Q () (f s)) :
    Reckons P (modifyHooks f) Q :=
  fun _ => ⟨grows _, fun hp _ => h _ hp⟩

theorem Reckons.attempt {x : Script α} {Q : HookStore → Prop} (h : Reckons P x fun _ => Q) :
    Reckons P (attempt x) fun _ => Q := fun m =>
  ends_attempt ((h m).mono (fun _ _ k => k)
    (fun _ k => ⟨fun _ => ⟨k.1, fun hp fair => absurd fair (k.2 hp)⟩, k⟩))

end Script

namespace HookStore

/-- A condition that scripts keep, as long as the notes are fair. -/
def Lasts (P : HookStore → Prop) : Prop :=
  ∀ s s', P s → s.Reaches s' → SameHooks s'.history → P s'

theorem Lasts.and {P Q : HookStore → Prop} (hp : Lasts P) (hq : Lasts Q) :
    Lasts fun s => P s ∧ Q s :=
  fun s s' h hr same => ⟨hp s s' h.1 hr same, hq s s' h.2 hr same⟩

theorem lasts_accounted (due : List ((String × Nat) × Value)) : Lasts (Accounted · due) :=
  fun _ _ h hr same => (h.reaches hr same).1

theorem lasts_phase (ph : Phase) : Lasts fun s => phase s.history = ph :=
  fun _ _ h hr _ => hr.phase.trans h

end HookStore

namespace Hook

open Script HookStore

variable {ev : Evaluator} {P Q : HookStore → Prop}

/-! ## Effects -/

/-- An effect may run: nothing is owed at its place, and nothing else is about to run. -/
structure Ready (place : String × Nat) (s : HookStore) : Prop where
  accounted : s.Accounted []
  called : s.CalledEffect place
  there : s.EffectAt place
  empty : s.cleanupAt place = none
  next : ∀ other, phase s.history = .rerun other → other = place

theorem lasts_ready (place : String × Nat) : Lasts (Ready place) := by
  intro s s' h hr same
  obtain ⟨accounted, kept⟩ := h.accounted.reaches hr same
  exact {
    accounted
    called := h.called.mono hr.suffix
    there := hr.effectAt same h.called h.there
    empty := by rw [kept, h.empty]
    next := by
      rw [hr.phase]
      exact h.next }

/-- Accounts are kept and no effect is about to run again. -/
def Balanced (s : HookStore) : Prop := s.Accounted [] ∧ HookNote.Settled s.history

/-- The hooks of all queued effects were called. -/
def Queued (pending : List PendingEffect) (s : HookStore) : Prop :=
  ∀ e ∈ pending, s.CalledEffect (e.key, e.slot)

theorem Queued.mono {pending : List PendingEffect} {s s' : HookStore}
    (hs : s.history <:+ s'.history) (h : Queued pending s) : Queued pending s' :=
  fun e he => (h e he).mono hs

section

variable (hev : ev.Within fun m m' => m.realm.hooks.Reaches m'.realm.hooks)

include hev

theorem callAt_reckons (hP : Lasts P) (place : String × Nat) (fn : Value) :
    Reckons P (callAt ev place fn) fun _ => P := by
  intro m
  rw [ends_callAt]
  refine (within_iff_ends.mp (hev.call fn .undefined []) m).mono ?_ ?_
  · exact fun _ m' hr => ⟨hr.suffix, fun hp fair => hP _ _ hp hr fair.sameHooks⟩
  · intro m' hr
    exact ⟨hr.suffix.trans (List.suffix_cons _ _),
      fun _ fair => fair.nothingRaised place List.mem_cons_self⟩

/-- A cleanup is noted and then called. -/
theorem cleanUp_reckons {cause : CleanupCause} {place : String × Nat} {cleanup : Value}
    (hQ : Lasts Q) (noted : ∀ s, P s → Q (s.note (.cleaned place cleanup cause))) :
    Reckons P (cleanUp ev cause place cleanup) fun _ => Q := by
  unfold cleanUp
  refine .bind (reckons_modifyHooks (Q := fun _ => Q) (fun _ => List.suffix_cons _ _) noted)
    fun _ => .bind (callAt_reckons hev hQ place cleanup) fun _ => ?_
  exact reckons_pure fun _ h => h

/-- The cleanup of an effect that is about to run again was taken out of its slot. -/
structure Taken (place : String × Nat) (cleanup : Value) (s : HookStore) : Prop where
  accounted : s.Accounted [(place, cleanup)]
  called : s.CalledEffect place
  there : s.EffectAt place
  empty : s.cleanupAt place = none
  settled : HookNote.Settled s.history

theorem cleanUp_again_reckons (place : String × Nat) (cleanup : Value) :
    Reckons (Taken place cleanup) (cleanUp ev .again place cleanup) fun _ => Ready place := by
  refine cleanUp_reckons hev (lasts_ready place) fun s h => ?_
  have owed : HookNote.owed place s.history = some cleanup :=
    (h.accounted.owes _ _).2 (.inr List.mem_cons_self)
  exact {
    accounted := h.accounted.pay ⟨owed, h.settled⟩
    called := h.called.mono (List.suffix_cons _ _)
    there := h.there
    empty := h.empty
    next := fun other eq => by
      cases eq
      rfl }

theorem runEffect_reckons (place : String × Nat) (callback : Value) :
    Reckons (Ready place) (runEffect ev place callback) fun _ => Balanced := by
  unfold runEffect
  refine .bind (callAt_reckons hev (lasts_ready place) place callback) fun given => ?_
  intro m
  rw [ends_bind, ends_modifyHooks, ends_bind, ends_slotAt]
  have suffix : m.realm.hooks.history <:+
      (m.realm.hooks.note (.ran place given)).history := List.suffix_cons _ _
  have settled : HookNote.Settled (m.realm.hooks.note (.ran place given)).history :=
    fun _ h => by cases h
  split
  · rename_i deps old found
    rw [ends_store]
    refine ⟨suffix, fun ready _ => ⟨?_, settled⟩⟩
    have owed : HookNote.owed place m.realm.hooks.history = none := by
      cases ho : HookNote.owed place m.realm.hooks.history with
      | none => rfl
      | some c =>
        obtain there | due := (ready.accounted.owes place c).1 ho
        · rw [ready.empty] at there
          cases there
        · cases due
    have run := ready.accounted.run given ready.empty ⟨owed, ready.next⟩
    exact run.keep (ready.called.mono suffix) ready.there ready.empty deps
  · rename_i gone
    refine ⟨suffix, fun ready _ => ?_⟩
    obtain ⟨deps, cleanup, found⟩ := ready.there
    exact absurd found (gone deps cleanup)

theorem runEffects_reckons (pending : List PendingEffect) :
    Reckons (fun s => Balanced s ∧ Queued pending s) (runEffects ev pending) fun _ => Balanced := by
  induction pending with
  | nil => exact reckons_pure fun _ h => h.1
  | cons e rest ih =>
    have one : Reckons (fun s => Ready (e.key, e.slot) s ∧ Queued rest s)
        (do runEffect ev (e.key, e.slot) e.callback; runEffects ev rest) fun _ => Balanced :=
      .bind ((runEffect_reckons hev _ _).frame fun _ _ => Queued.mono) fun _ => ih
    have others {s : HookStore} (h : Queued (e :: rest) s) : Queued rest s :=
      fun e he => h e (List.mem_cons_of_mem _ he)
    intro m
    unfold runEffects
    rw [ends_bind, ends_slotAt]
    dsimp only
    split
    · rename_i deps previous found
      rw [ends_bind, ends_store]
      -- the cleanup is out of its slot before it is called
      have there : (m.realm.hooks.slot? (e.key, e.slot).1 (e.key, e.slot).2).isSome := by
        rw [found]
        rfl
      have taken : (m.realm.hooks.store e.key e.slot (.effect deps .undefined)).EffectAt
          (e.key, e.slot) := ⟨deps, .undefined, slot?_store_of_there _ _ there⟩
      have empty : (m.realm.hooks.store e.key e.slot (.effect deps .undefined)).cleanupAt
          (e.key, e.slot) = none := by
        rw [cleanupAt_store_of_there _ there, if_pos rfl]
        rfl
      split
      · rename_i callable
        refine Reckons.from (P := fun s => Balanced s ∧ Queued (e :: rest) s)
          (((cleanUp_again_reckons hev _ _).frame fun _ _ => Queued.mono).bind fun _ => one)
          (by exact List.suffix_rfl) ?_
        rintro ⟨⟨accounted, settled⟩, called⟩
        have due := accounted.take (e.key, e.slot) found
        rw [dueOf, if_pos callable] at due
        exact ⟨⟨due, called e List.mem_cons_self, taken, empty, settled⟩, others called⟩
      · rename_i inert
        refine Reckons.from (P := fun s => Balanced s ∧ Queued (e :: rest) s) one
          (by exact List.suffix_rfl) ?_
        rintro ⟨⟨accounted, settled⟩, called⟩
        have due := accounted.take (e.key, e.slot) found
        rw [dueOf, if_neg inert] at due
        exact ⟨⟨due, called e List.mem_cons_self, taken, empty,
          fun other h => absurd h (settled other)⟩, others called⟩
    · exact Reckons.from (P := fun s => Balanced s ∧ Queued (e :: rest) s) ih List.suffix_rfl
        fun h => ⟨h.1, others h.2⟩

/-- The effects that were queued have hooks that were called. -/
theorem runPending_reckons : Reckons Balanced (runPending ev) fun _ => Balanced := by
  intro m
  unfold runPending
  rw [ends_bind, ends_onRealm]
  dsimp only
  rw [ends_bind, ends_modifyHooks]
  refine (runEffects_reckons hev _).from List.suffix_rfl ?_
  rintro ⟨accounted, settled⟩
  refine ⟨⟨accounted.congr rfl rfl fun _ he => (List.not_mem_nil he).elim, settled⟩, fun e he => ?_⟩
  obtain he | he := List.mem_append.1 he
  · exact accounted.queued e (List.mem_filter.1 he).1
  · exact accounted.queued e (List.mem_filter.1 he).1

/-! ## Instances that leave -/

theorem cleanUpAll_reckons (due : List ((String × Nat) × Value)) (visited : List String) :
    Reckons (fun s => (s.Accounted due ∧ phase s.history = .sweeping visited) ∧
        ∀ d ∈ due, d.1.1 ∉ visited)
      (cleanUpAll ev due) fun _ => Balanced := by
  induction due with
  | nil =>
    refine reckons_pure ?_
    rintro s ⟨⟨accounted, sweeping⟩, -⟩
    refine ⟨accounted, fun other h => ?_⟩
    rw [sweeping] at h
    cases h
  | cons d due ih =>
    obtain ⟨place, cleanup⟩ := d
    have head : Reckons (fun s => (s.Accounted ((place, cleanup) :: due) ∧
          phase s.history = .sweeping visited) ∧ ∀ d ∈ (place, cleanup) :: due, d.1.1 ∉ visited)
        (cleanUp ev .left place cleanup)
        fun _ s => (s.Accounted due ∧ phase s.history = .sweeping visited) ∧
          ∀ d ∈ (place, cleanup) :: due, d.1.1 ∉ visited := by
      refine cleanUp_reckons hev
        (((lasts_accounted due).and (lasts_phase _)).and fun _ _ h _ _ => h) ?_
      rintro s ⟨⟨accounted, sweeping⟩, gone⟩
      have owed : HookNote.owed place s.history = some cleanup :=
        (accounted.owes _ _).2 (.inr List.mem_cons_self)
      exact ⟨⟨accounted.pay ⟨owed, visited, sweeping, gone _ List.mem_cons_self⟩, sweeping⟩, gone⟩
    refine head.bind fun _ => ih.mono ?_ fun _ _ h => h
    exact fun s h => ⟨h.1, fun d hd => h.2 d (List.mem_cons_of_mem _ hd)⟩

theorem sweep_reckons : Reckons Balanced (sweep ev) fun _ => Balanced := by
  intro m
  unfold sweep
  rw [ends_bind, ends_onRealm]
  dsimp only
  rw [ends_bind, ends_modifyHooks]
  refine (cleanUpAll_reckons hev _ m.realm.hooks.visited).from (by exact List.suffix_cons _ _) ?_
  rintro ⟨accounted, settled⟩
  exact ⟨⟨accounted.sweep settled, rfl⟩, fun d hd => ((mem_sweep accounted.names).1 hd).1⟩

/-- Nothing is owed any more. -/
def Paid (s : HookStore) : Prop :=
  s.Accounted [] ∧ HookNote.Settled s.history ∧ ∀ place, HookNote.owed place s.history = none

theorem cleanUpEach_reckons (due : List ((String × Nat) × Value)) :
    Reckons (fun s => (s.Accounted due ∧ phase s.history = .clearing) ∧
        ∀ place, s.cleanupAt place = none)
      (cleanUpEach ev due) fun _ => Paid := by
  induction due with
  | nil =>
    refine reckons_pure ?_
    rintro s ⟨⟨accounted, clearing⟩, empty⟩
    refine ⟨accounted, fun other h => ?_, fun place => ?_⟩
    · rw [clearing] at h
      cases h
    · cases ho : HookNote.owed place s.history with
      | none => rfl
      | some c =>
        obtain there | due := (accounted.owes place c).1 ho
        · rw [empty] at there
          cases there
        · cases due
  | cons d due ih =>
    obtain ⟨place, cleanup⟩ := d
    refine .bind (Reckons.attempt (cleanUp_reckons hev ?_ ?_)) fun _ => ih
    · rintro s s' ⟨⟨accounted, clearing⟩, empty⟩ hr same
      obtain ⟨accounted', kept⟩ := accounted.reaches hr same
      exact ⟨⟨accounted', hr.phase.trans clearing⟩, fun place => by rw [kept, empty]⟩
    · rintro s ⟨⟨accounted, clearing⟩, empty⟩
      have owed : HookNote.owed place s.history = some cleanup :=
        (accounted.owes _ _).2 (.inr List.mem_cons_self)
      exact ⟨⟨accounted.pay ⟨owed, clearing⟩, clearing⟩, empty⟩

/-- After everything is unmounted, nothing is owed. -/
theorem unmount_reckons : Reckons Balanced (unmount ev) fun _ => Paid := by
  intro m
  unfold unmount
  rw [ends_bind, ends_onRealm]
  dsimp only
  rw [ends_bind, ends_modifyHooks, ends_bind]
  refine (cleanUpEach_reckons hev _).from (by exact List.suffix_cons _ _) ?_
  rintro ⟨accounted, settled⟩
  exact ⟨⟨accounted.clear settled, rfl⟩, fun place => cleanupAt_clear _ place⟩

end

end Hook

end TsxPreview
