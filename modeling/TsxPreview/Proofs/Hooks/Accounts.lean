import TsxPreview.Proofs.Hooks.Cleanups

/-!
Cleanups are accounted for: what the notes say is owed is what the slots hold, and what was taken out
of them and is still to be called. Scripts keep accounts, as long as every place is claimed for one
hook.
-/

namespace TsxPreview

open HookNote

/-- The same hook was called at a place each time. -/
def SameHooks (notes : List HookNote) : Prop :=
  ∀ place hook hook', .called place hook ∈ notes → .called place hook' ∈ notes → hook = hook'

/-- No effect and no cleanup raised an error. -/
def NothingRaised (notes : List HookNote) : Prop := ∀ place, .raised place ∉ notes

structure Fair (notes : List HookNote) : Prop where
  sameHooks : SameHooks notes
  nothingRaised : NothingRaised notes

theorem Fair.of_suffix {notes more : List HookNote} (h : Fair more) (hs : notes <:+ more) :
    Fair notes :=
  ⟨fun place hook hook' h₁ h₂ => h.sameHooks place hook hook' (hs.mem h₁) (hs.mem h₂),
    fun place hr => h.nothingRaised place (hs.mem hr)⟩

namespace Hook

variable (hook : Hook) {content : HookSlot}

theorem cleanup?_of_keeps (h : hook.isEffect = false) (hk : hook.keeps content = true) :
    content.cleanup? = none := by
  cases content with
  | effect =>
    revert h hk
    cases hook <;> simp [keeps, isEffect]
  | _ => rfl

theorem effect_of_keeps (h : hook.isEffect = true) (hk : hook.keeps content = true) :
    ∃ deps cleanup, content = .effect deps cleanup := by
  cases content with
  | effect deps cleanup => exact ⟨deps, cleanup, rfl⟩
  | _ =>
    revert h hk
    cases hook <;> simp [keeps, isEffect]

end Hook

namespace HookStore

variable {s s' : HookStore} {place : String × Nat} {c : Value}

/-! ## Accounts -/

/-- A hook of effects was called at a place. -/
def CalledEffect (s : HookStore) (place : String × Nat) : Prop :=
  ∃ hook, .called place hook ∈ s.history ∧ hook.isEffect = true

/-- The slot of a place is one of an effect. -/
def EffectAt (s : HookStore) (place : String × Nat) : Prop :=
  ∃ deps cleanup, s.slot? place.1 place.2 = some (.effect deps cleanup)

/-- The cleanups that are owed are in their slots, or were taken out of them and are due. -/
structure Accounted (s : HookStore) (due : List ((String × Nat) × Value)) : Prop where
  sound : Sound s.history
  names : s.slots.keys.Nodup
  owes : ∀ place c, owed place s.history = some c ↔ s.cleanupAt place = some c ∨ (place, c) ∈ due
  apart : (due.map Prod.fst).Nodup
  taken : ∀ d ∈ due, s.cleanupAt d.1 = none
  effects : ∀ place c, s.cleanupAt place = some c → s.CalledEffect place
  queued : ∀ e ∈ s.pending, s.CalledEffect (e.key, e.slot)

theorem CalledEffect.mono (h : s.CalledEffect place) (hs : s.history <:+ s'.history) :
    s'.CalledEffect place := by
  obtain ⟨hook, called, is⟩ := h
  exact ⟨hook, hs.mem called, is⟩

theorem Change.suffix (h : s.Change s') : s.history <:+ s'.history := by
  obtain same | ⟨place, hook, more⟩ := h.history
  · exact same ▸ List.suffix_rfl
  · exact more ▸ List.suffix_cons _ _

theorem Reaches.suffix (h : s.Reaches s') : s.history <:+ s'.history := by
  obtain ⟨calls, eq, -⟩ := h.history
  exact eq ▸ List.suffix_append _ _

theorem Holds.isEffect_of_called {hook : Hook} (held : s.Holds place hook)
    (same : SameHooks s.history) (called : s.CalledEffect place) : hook.isEffect = true := by
  obtain ⟨hook', called, is⟩ := called
  exact same place _ _ called held.called ▸ is

/-! ### What scripts leave of accounts -/

theorem Change.cleanupAt {due : List ((String × Nat) × Value)} (h : s.Accounted due)
    (hc : s.Change s') (same : SameHooks s'.history) : s'.cleanupAt = s.cleanupAt := by
  cases hc with
  | keep hk => exact cleanupAt_congr hk.slots
  | claim | queue => rfl
  | @put place hook content held kind carried =>
    refine cleanupAt_store ?_
    cases is : hook.isEffect with
    | true => exact carried is
    | false =>
      -- the cleanup of an effect could stand only where a hook of effects was called
      cases there : s.cleanupAt place with
      | none => exact hook.cleanup?_of_keeps is kind
      | some c =>
        rw [held.isEffect_of_called same (h.effects place c there)] at is
        cases is
  | @set key i old new found _ carried =>
    have same : new.cleanup? = s.cleanupAt (key, i) := by
      unfold HookStore.cleanupAt
      rw [found, carried]
      rfl
    exact cleanupAt_store same

theorem Change.effectAt (hc : s.Change s') (same : SameHooks s'.history)
    (called : s.CalledEffect place) (h : s.EffectAt place) : s'.EffectAt place := by
  have there : (s.slot? place.1 place.2).isSome := by
    obtain ⟨deps, cleanup, found⟩ := h
    rw [found]
    rfl
  cases hc with
  | keep hk =>
    unfold EffectAt
    rw [slot?_congr hk.slots]
    exact h
  | claim | queue => exact h
  | @put own hook content held kind _ =>
    by_cases hp : place = own
    · subst hp
      obtain ⟨deps, cleanup, rfl⟩ :=
        hook.effect_of_keeps (held.isEffect_of_called same called) kind
      exact ⟨deps, cleanup, slot?_store_of_there s _ there⟩
    · unfold EffectAt
      rw [slot?_store_of_isSome s content there hp]
      exact h
  | @set key i old new found updated _ =>
    by_cases hp : place = (key, i)
    · subst hp
      obtain ⟨deps, cleanup, found'⟩ := h
      rw [found] at found'
      cases found'
      have written := slot?_store_of_there s new there
      cases updated with
      | same => exact ⟨deps, cleanup, written⟩
      | effect _ _ c => exact ⟨deps, c, written⟩
    · unfold EffectAt
      rw [show (s.update (key, i) new).slot? place.1 place.2 = s.slot? place.1 place.2 from
        slot?_store_of_isSome s new there hp]
      exact h

theorem Change.names (hc : s.Change s') (h : s.slots.keys.Nodup) : s'.slots.keys.Nodup := by
  cases hc with
  | keep hk => exact hk.slots ▸ h
  | claim | queue => exact h
  | put | set => exact Record.nodup_insert h _ _

theorem Change.queued (hc : s.Change s') (h : ∀ e ∈ s.pending, s.CalledEffect (e.key, e.slot)) :
    ∀ e ∈ s'.pending, s'.CalledEffect (e.key, e.slot) := by
  intro e he
  refine CalledEffect.mono (s := s) ?_ hc.suffix
  cases hc with
  | keep hk => exact h e (hk.pending ▸ he)
  | claim | put | set => exact h e he
  | @queue new hook held kind =>
    obtain he | he := List.mem_append.1 he
    · exact h e he
    · obtain rfl := List.mem_singleton.1 he
      exact ⟨hook, held.called, kind⟩

theorem Change.owed (hc : s.Change s') (place : String × Nat) :
    owed place s'.history = owed place s.history := by
  obtain same | ⟨own, hook, more⟩ := hc.history
  · rw [same]
  · rw [more]
    rfl

theorem Change.phase (hc : s.Change s') : phase s'.history = phase s.history := by
  obtain same | ⟨own, hook, more⟩ := hc.history
  · rw [same]
  · rw [more]
    rfl

theorem Change.sound (hc : s.Change s') (h : Sound s.history) : Sound s'.history := by
  obtain same | ⟨own, hook, more⟩ := hc.history
  · exact same ▸ h
  · exact more ▸ ⟨trivial, h⟩

theorem Accounted.change {due : List ((String × Nat) × Value)} (h : s.Accounted due)
    (hc : s.Change s') (same : SameHooks s'.history) : s'.Accounted due := by
  have kept := hc.cleanupAt h same
  exact {
    sound := hc.sound h.sound
    names := hc.names h.names
    owes := fun place c => by rw [hc.owed, kept, h.owes]
    apart := h.apart
    taken := fun d hd => by rw [kept, h.taken d hd]
    effects := fun place c there => (h.effects place c (kept ▸ there)).mono hc.suffix
    queued := hc.queued h.queued }

/-- What scripts do keeps accounts, and cleanups where they are. -/
theorem Accounted.reaches {due : List ((String × Nat) × Value)} (h : s.Accounted due)
    (hr : s.Reaches s') (same : SameHooks s'.history) :
    s'.Accounted due ∧ s'.cleanupAt = s.cleanupAt := by
  induction hr with
  | refl => exact ⟨h, rfl⟩
  | tail _ step ih =>
    have before : SameHooks _ := fun place hook hook' h₁ h₂ =>
      same place hook hook' (step.suffix.mem h₁) (step.suffix.mem h₂)
    obtain ⟨accounted, kept⟩ := ih before
    exact ⟨accounted.change step same, (step.cleanupAt accounted same).trans kept⟩

theorem Reaches.effectAt (hr : s.Reaches s') (same : SameHooks s'.history)
    (called : s.CalledEffect place) (h : s.EffectAt place) : s'.EffectAt place := by
  induction hr with
  | refl => exact h
  | tail first step ih =>
    have before : SameHooks _ := fun place hook hook' h₁ h₂ =>
      same place hook hook' (step.suffix.mem h₁) (step.suffix.mem h₂)
    exact step.effectAt same (called.mono (Reaches.suffix first)) (ih before)

theorem Reaches.phase (hr : s.Reaches s') : phase s'.history = phase s.history := by
  induction hr with
  | refl => rfl
  | tail _ step ih => exact step.phase.trans ih

/-! ### What passes leave of accounts -/

section

variable {due : List ((String × Nat) × Value)}

/-- What is not about slots, and queues nothing. -/
theorem Accounted.congr (h : s.Accounted due) (hs : s'.slots = s.slots)
    (hh : s'.history = s.history) (hp : ∀ e ∈ s'.pending, e ∈ s.pending) : s'.Accounted due := by
  have kept : s'.cleanupAt = s.cleanupAt := cleanupAt_congr hs
  have called {place : String × Nat} (hc : s.CalledEffect place) : s'.CalledEffect place :=
    hc.mono (hh ▸ List.suffix_rfl)
  exact {
    sound := hh ▸ h.sound
    names := hs ▸ h.names
    owes := fun place c => by rw [hh, kept, h.owes]
    apart := h.apart
    taken := fun d hd => by rw [kept, h.taken d hd]
    effects := fun place c there => called (h.effects place c (kept ▸ there))
    queued := fun e he => called (h.queued e (hp e he)) }

/-- The cleanup that a run gave, if it gave one. -/
def dueOf (place : String × Nat) (given : Value) : List ((String × Nat) × Value) :=
  if given.isCallable then [(place, given)] else []

theorem mem_dueOf {other : String × Nat} {given : Value} :
    (other, c) ∈ dueOf place given ↔
      other = place ∧ (if given.isCallable then some given else none) = some c := by
  unfold dueOf
  split
  · rw [List.mem_singleton, Prod.mk.injEq, Option.some.injEq, eq_comm (a := c)]
  · simp

theorem nodup_dueOf (place : String × Nat) (given : Value) :
    ((dueOf place given).map Prod.fst).Nodup := by
  unfold dueOf
  split <;> simp

/-- A cleanup is taken out of the slot of its effect. -/
theorem Accounted.take (h : s.Accounted []) (place : String × Nat)
    {deps : Option (List Value)} {previous : Value}
    (found : s.slot? place.1 place.2 = some (.effect deps previous)) :
    (s.store place.1 place.2 (.effect deps .undefined)).Accounted (dueOf place previous) := by
  have there : (s.slot? place.1 place.2).isSome := by
    rw [found]
    rfl
  have written := cleanupAt_store_of_there (.effect deps .undefined) there
  have before : s.cleanupAt place = if previous.isCallable then some previous else none := by
    unfold HookStore.cleanupAt
    rw [found]
    rfl
  exact {
    sound := h.sound
    names := Record.nodup_insert h.names _ _
    owes := fun other c => by
      rw [show (s.store place.1 place.2 (.effect deps .undefined)).history = s.history from rfl,
        h.owes, written, mem_dueOf]
      by_cases hp : other = place
      · rw [if_pos hp, hp, before]
        simp [HookSlot.cleanup?, Value.isCallable]
      · simp [hp]
    apart := nodup_dueOf place previous
    taken := fun d hd => by
      rw [written, if_pos (mem_dueOf.1 hd).1]
      rfl
    effects := fun other c hc => by
      rw [written] at hc
      split at hc
      · cases hc
      · exact h.effects other c hc
    queued := h.queued }

/-- What a run gave is kept in the slot of its effect. -/
theorem Accounted.keep {given : Value} (h : s.Accounted (dueOf place given))
    (called : s.CalledEffect place) (at_place : s.EffectAt place) (empty : s.cleanupAt place = none)
    (deps : Option (List Value)) :
    (s.store place.1 place.2 (.effect deps given)).Accounted [] := by
  have there : (s.slot? place.1 place.2).isSome := by
    obtain ⟨deps, cleanup, found⟩ := at_place
    rw [found]
    rfl
  have written := cleanupAt_store_of_there (.effect deps given) there
  exact {
    sound := h.sound
    names := Record.nodup_insert h.names _ _
    owes := fun other c => by
      rw [show (s.store place.1 place.2 (.effect deps given)).history = s.history from rfl,
        h.owes, written, mem_dueOf]
      by_cases hp : other = place
      · subst hp
        simp [empty, HookSlot.cleanup?]
      · simp [hp]
    apart := List.nodup_nil
    taken := fun d hd => by cases hd
    effects := fun other c hc => by
      rw [written] at hc
      split at hc
      · rename_i hp
        exact hp ▸ called
      · exact h.effects other c hc
    queued := h.queued }

/-- A cleanup that is due is called. -/
theorem Accounted.pay {cause : CleanupCause} (h : s.Accounted ((place, c) :: due))
    (follows : (HookNote.cleaned place c cause).Follows s.history) :
    (s.note (.cleaned place c cause)).Accounted due := by
  obtain ⟨alone, apart⟩ := List.nodup_cons.1 h.apart
  have suffix : s.history <:+ (s.note (.cleaned place c cause)).history := List.suffix_cons _ _
  exact {
    sound := ⟨follows, h.sound⟩
    names := h.names
    owes := fun other d => by
      show owed other (.cleaned place c cause :: s.history) = some d ↔
        s.cleanupAt other = some d ∨ (other, d) ∈ due
      rw [HookNote.owed]
      split
      · rename_i hp
        subst hp
        rw [h.taken _ List.mem_cons_self]
        constructor
        · intro hd
          cases hd
        · rintro (hd | hd)
          · cases hd
          · exact absurd (List.mem_map_of_mem (f := Prod.fst) hd) alone
      · rename_i hp
        rw [h.owes, List.mem_cons, Prod.mk.injEq]
        simp [Ne.symm hp]
    apart := apart
    taken := fun d hd => h.taken d (List.mem_cons_of_mem _ hd)
    effects := fun other d hd => (h.effects other d hd).mono suffix
    queued := fun e he => (h.queued e he).mono suffix }

/-- What a run gives is due until it is kept. -/
theorem Accounted.run (h : s.Accounted []) (given : Value) (empty : s.cleanupAt place = none)
    (follows : (HookNote.ran place given).Follows s.history) :
    (s.note (.ran place given)).Accounted (dueOf place given) := by
  have suffix : s.history <:+ (s.note (.ran place given)).history := List.suffix_cons _ _
  exact {
    sound := ⟨follows, h.sound⟩
    names := h.names
    owes := fun other d => by
      show owed other (.ran place given :: s.history) = some d ↔
        s.cleanupAt other = some d ∨ (other, d) ∈ dueOf place given
      rw [HookNote.owed, mem_dueOf]
      split
      · rename_i hp
        subst hp
        simp [empty]
      · rename_i hp
        rw [h.owes]
        simp [Ne.symm hp]
    apart := nodup_dueOf place given
    taken := fun d hd => by
      rw [(mem_dueOf.1 hd).1]
      exact empty
    effects := fun other d hd => (h.effects other d hd).mono suffix
    queued := fun e he => (h.queued e he).mono suffix }

/-- The cleanups that a sweep takes out are due. -/
theorem Accounted.sweep (h : s.Accounted []) (settled : HookNote.Settled s.history) :
    s.sweep.2.Accounted s.sweep.1 := by
  have suffix : s.history <:+ s.sweep.2.history := List.suffix_cons _ _
  exact {
    sound := ⟨settled, h.sound⟩
    names := h.names.sublist (List.filter_sublist.map Prod.fst)
    owes := fun place c => by
      show HookNote.owed place s.history = some c ↔ _
      rw [h.owes, mem_sweep h.names, cleanupAt_sweep]
      by_cases hv : place.1 ∈ s.visited <;> simp [hv]
    apart := nodup_sweep h.names
    taken := fun d hd => by rw [cleanupAt_sweep, if_neg ((mem_sweep h.names).1 hd).1]
    effects := fun place c hc => by
      rw [cleanupAt_sweep] at hc
      split at hc
      · exact (h.effects place c hc).mono suffix
      · cases hc
    queued := fun e he => (h.queued e (List.mem_filter.1 he).1).mono suffix }

/-- The cleanups of all instances are due. -/
theorem Accounted.clear (h : s.Accounted []) (settled : HookNote.Settled s.history) :
    s.clear.2.Accounted s.clear.1 where
  sound := ⟨settled, h.sound⟩
  names := List.nodup_nil
  owes place c := by
    show HookNote.owed place s.history = some c ↔ _
    rw [h.owes, mem_clear h.names, cleanupAt_clear]
    simp
  apart := nodup_clear h.names
  taken d _ := cleanupAt_clear s d.1
  effects place c hc := by
    rw [cleanupAt_clear] at hc
    cases hc
  queued e he := by cases he

end

end HookStore

end TsxPreview
