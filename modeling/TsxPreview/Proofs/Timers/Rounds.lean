import TsxPreview.Proofs.Script.Levels

/-!
Rounds of timers. A callback schedules and cancels as any script does, and never has a turn itself.
So each turn of a round finds what was pending when the round began, unless it was cancelled since.
-/

namespace TsxPreview

open Script

/-! ## Scripts -/

/-- What scripts make of hooks and timers. -/
def Machine.Moves (m m' : Machine) : Prop :=
  m.realm.hooks.Reaches m'.realm.hooks ∧ m.realm.timers.Moves m'.realm.timers

theorem Script.steady_moves : Steady Machine.Moves where
  refl _ := ⟨.refl, .refl⟩
  trans first second := ⟨first.1.trans second.1, first.2.trans second.2⟩
  heap _ _ := ⟨.refl, .refl⟩
  realm _ _ hooks timers := ⟨.single hooks, timers⟩
  reaches h := h.1

theorem Evaluator.moves_standard : standard.Within Machine.Moves :=
  within_standard steady_moves fun _ _ => ⟨.refl, .refl⟩

namespace Timers

variable {t t' : Timers} {id i j n fired : Nat} {timer : Timer} {ids front behind : List Nat}
  {events newer older : List TimerEvent} {m m' : Machine}

/-! ## The order of a round -/

/-- One pending timer comes before another: its delay is shorter, or it is older. -/
def Precedes (t : Timers) (i j : Nat) : Prop :=
  ∃ a ∈ t.get? i, ∃ b ∈ t.get? j,
    rank a.delay < rank b.delay ∨ rank a.delay = rank b.delay ∧ i < j

theorem not_precedes_self (t : Timers) (id : Nat) : ¬t.Precedes id id := by
  rintro ⟨a, there, b, there', shorter⟩
  obtain rfl := Option.mem_unique there there'
  omega

theorem before_iff (a b : Nat × Timer) : before a b = true ↔
    rank a.2.delay < rank b.2.delay ∨ rank a.2.delay = rank b.2.delay ∧ a.1 ≤ b.1 := by
  simp [before]

theorem before_trans (a b c : Nat × Timer) (h : before a b = true) (h' : before b c = true) :
    before a c = true := by
  rw [before_iff] at *
  omega

theorem before_total (a b : Nat × Timer) : (before a b || before b a) = true := by
  rw [Bool.or_eq_true, before_iff, before_iff]
  omega

/-- A pending timer is found by its number. -/
theorem Sound.get?_of_mem (h : t.Sound) {entry : Nat × Timer} (mem : entry ∈ t.pending) :
    t.get? entry.1 = some entry.2 := by
  obtain ⟨timer, found⟩ := lookup_of_mem_keys (List.mem_map_of_mem (f := Prod.fst) mem)
  rw [get?, found, List.inj_on_of_nodup_map h.nodup mem (mem_of_lookup found) rfl]

theorem mem_due : id ∈ t.due ↔ ∃ timer, t.get? id = some timer := by
  have mem : id ∈ t.due ↔ id ∈ t.pending.map Prod.fst :=
    ((List.mergeSort_perm t.pending before).map Prod.fst).mem_iff
  rw [mem]
  constructor
  · exact lookup_of_mem_keys
  · exact fun ⟨timer, found⟩ => List.mem_map_of_mem (mem_of_lookup found)

/-- A round takes the pending timers in their order. -/
theorem Sound.pairwise_due (h : t.Sound) : t.due.Pairwise t.Precedes := by
  have perm := List.mergeSort_perm t.pending before
  have sorted := List.pairwise_mergeSort before_trans before_total t.pending
  have apart : (t.pending.mergeSort before).Pairwise fun a b => a.1 ≠ b.1 :=
    List.pairwise_map.1 ((perm.map Prod.fst).nodup_iff.2 h.nodup)
  refine List.pairwise_map.2 ((sorted.and apart).imp_of_mem fun mem mem' ⟨le, ne⟩ => ?_)
  refine ⟨_, h.get?_of_mem (perm.mem_iff.1 mem), _, h.get?_of_mem (perm.mem_iff.1 mem'), ?_⟩
  rw [before_iff] at le
  omega

/-! ## Turns -/

/-- A timer was cancelled while all that had fired was of a kind. -/
def CancelledWhile (P : Nat → Prop) (id : Nat) (events : List TimerEvent) : Prop :=
  ∃ newer older, events = newer ++ .cancelled id :: older ∧ ∀ j ∈ firings older, P j

theorem CancelledWhile.mono {P Q : Nat → Prop} (h : CancelledWhile P id events)
    (imp : ∀ j, P j → Q j) : CancelledWhile Q id events := by
  obtain ⟨newer, older, eq, all⟩ := h
  exact ⟨newer, older, eq, fun j mem => imp j (all j mem)⟩

/-- What turns lead to that come one after the other, from timers on: none fires but in its turn,
and none that is pending is passed over unless it was cancelled before. -/
structure Fires (t : Timers) (ids : List Nat) (events : List TimerEvent) : Prop where
  inTurn : (firings events).reverse.Sublist ids
  all : ∀ front id behind, ids = front ++ id :: behind → (∃ timer, t.get? id = some timer) →
    id ∈ firings events ∨ CancelledWhile (· ∈ front) id events

theorem fires_nil (t : Timers) : t.Fires [] [] :=
  ⟨List.Sublist.refl _, fun front id behind eq => absurd eq (by simp)⟩

/-- A timer that is no longer pending is passed over. -/
theorem Fires.pass (h : t.Fires ids events) (gone : t.get? id = none) :
    t.Fires (id :: ids) events := by
  refine ⟨h.inTurn.cons id, fun front i behind eq pending => ?_⟩
  cases front with
  | nil =>
    cases eq
    obtain ⟨timer, found⟩ := pending
    rw [gone] at found
    cases found
  | cons first front =>
    cases eq
    exact (h.all front i behind rfl pending).imp_right (·.mono fun _ => List.mem_cons_of_mem _)

theorem firings_eq_nil (quiet : ∀ i fires, .reached i fires ∉ events) : firings events = [] :=
  List.eq_nil_iff_forall_not_mem.2 fun i mem => quiet i true (mem_firings.1 mem)

/-- What is no longer pending after a turn of another timer was cancelled meanwhile. -/
theorem Sound.cancelled_of_gone (after : t'.Sound) (before : t.Sound) {during : List TimerEvent}
    (quiet : ∀ i fires, .reached i fires ∉ during) {fires : Bool}
    (history : t'.history = during ++ .reached id fires :: t.history) (other : i ≠ id)
    (pending : ∃ timer, t.get? i = some timer) (gone : ¬∃ timer, t'.get? i = some timer) :
    .cancelled i ∈ during := by
  by_contra kept
  have waits : pendingAfter (.reached id fires :: t.history) i ≠ none := by
    obtain ⟨timer, found⟩ := pending
    rw [pendingAfter, if_neg other, ← before.known, found]
    exact Option.some_ne_none _
  have there := pendingAfter_append_ne_none waits kept (quiet i)
  rw [← history, ← after.known] at there
  exact gone (Option.ne_none_iff_exists'.1 there)

/-- A timer fires, its callback schedules and cancels, and what is left has its turns. -/
theorem Fires.turn (h : t'.Fires ids events) (before : t.Sound) (after : t'.Sound)
    {during : List TimerEvent} (quiet : ∀ i fires, .reached i fires ∉ during)
    (history : t'.history = during ++ .reached id true :: t.history) :
    t.Fires (id :: ids) (events ++ (during ++ [.reached id true])) := by
  have fired : firings (events ++ (during ++ [.reached id true])) = firings events ++ [id] := by
    rw [firings_append, firings_append, firings_eq_nil quiet]
    rfl
  refine ⟨?_, fun front i behind eq pending => ?_⟩
  · rw [fired, List.reverse_append]
    exact h.inTurn.cons_cons id
  rw [fired, List.mem_append, List.mem_singleton]
  cases front with
  | nil =>
    cases eq
    exact .inl (.inr rfl)
  | cons _ front =>
    cases eq
    by_cases same : i = id
    · exact .inl (.inr same)
    by_cases still : ∃ timer, t'.get? i = some timer
    · rcases h.all front i behind rfl still with mem | ⟨newer, older, rfl, only⟩
      · exact .inl (.inl mem)
      · refine .inr ⟨newer, older ++ (during ++ [.reached id true]), by simp, fun j mem => ?_⟩
        rw [firings_append, firings_append, firings_eq_nil quiet, List.mem_append] at mem
        rcases mem with mem | mem
        · exact List.mem_cons_of_mem _ (only j mem)
        · rw [List.mem_singleton.1 mem]
          exact List.mem_cons_self
    · have cancelled := after.cancelled_of_gone before quiet history same pending still
      obtain ⟨newer, older, rfl⟩ := List.append_of_mem cancelled
      refine .inr ⟨events ++ newer, older ++ [.reached id true], by simp, fun j mem => ?_⟩
      have silent : firings older = [] := firings_eq_nil fun i fires mem =>
        quiet i fires (List.mem_append_right _ (List.mem_cons_of_mem _ mem))
      rw [firings_append, silent] at mem
      rw [List.mem_singleton.1 mem]
      exact List.mem_cons_self

/-! ## Rounds -/

/-- All timers that were scheduled can be called. -/
def Callable (events : List TimerEvent) : Prop :=
  ∀ id timer, .scheduled id timer ∈ events → timer.callback.isCallable = true

/-- A machine after the turn of a timer, before its callback runs. -/
def turned (m : Machine) (id : Nat) (timer : Timer) : Machine :=
  { m with realm := { m.realm with timers := m.realm.timers.reach id timer } }

/-- What is left when turns were taken one after the other. -/
structure Turns (m : Machine) (ids : List Nat) (fired : Nat)
    (r : Except ScriptError Nat × Machine) : Prop where
  sound : r.2.realm.timers.Sound
  events : ∃ events, r.2.realm.timers.history = events ++ m.realm.timers.history ∧
    ∀ n, r.1 = .ok n → Callable r.2.realm.timers.history →
      n = fired + (firings events).length ∧ m.realm.timers.Fires ids events

section

variable {r : Except ScriptError Nat × Machine}

theorem Turns.pass (h : Turns m ids fired r) (gone : m.realm.timers.get? id = none) :
    Turns m (id :: ids) fired r := by
  obtain ⟨after, events, history, ended⟩ := h
  refine ⟨after, events, history, fun n ok callable => ?_⟩
  obtain ⟨count, fires⟩ := ended n ok callable
  exact ⟨count, fires.pass gone⟩

variable (sound : m.realm.timers.Sound) (pending : m.realm.timers.get? id = some timer)

include sound pending

/-- A timer that cannot be called is consumed without firing. -/
theorem Turns.skip (h : Turns (turned m id timer) ids fired r)
    (called : timer.callback.isCallable = false) : Turns m (id :: ids) fired r := by
  obtain ⟨after, events, history, -⟩ := h
  have before : (turned m id timer).realm.timers.history =
      .reached id timer.callback.isCallable :: m.realm.timers.history := rfl
  rw [before] at history
  refine ⟨after, events ++ [.reached id timer.callback.isCallable], ?_, fun n _ callable => ?_⟩
  · rw [history, List.append_assoc, List.singleton_append]
  · have mem :=
      List.mem_cons_of_mem (.reached id timer.callback.isCallable) (sound.scheduled pending)
    have scheduled := callable id timer (history ▸ List.mem_append_right events mem)
    rw [called] at scheduled
    cases scheduled

variable (called : timer.callback.isCallable = true)
  (moves : (turned m id timer).realm.timers.Moves m'.realm.timers)

include called moves

/-- What the turn of a timer and its callback add to the history. -/
theorem history_of_called : m'.realm.timers.Sound ∧ ∃ during,
    m'.realm.timers.history = during ++ .reached id true :: m.realm.timers.history ∧
      ∀ i fires, .reached i fires ∉ during := by
  obtain ⟨during, history, quiet⟩ := moves.history
  refine ⟨(sound.reach pending).moves moves, during, ?_, quiet⟩
  rw [history, ← called]
  rfl

theorem Turns.turn (h : Turns m' ids (fired + 1) r) : Turns m (id :: ids) fired r := by
  obtain ⟨between, during, history₁, quiet⟩ := history_of_called sound pending called moves
  obtain ⟨after, events, history, ended⟩ := h
  refine ⟨after, events ++ (during ++ [.reached id true]), ?_, fun n ok callable => ?_⟩
  · rw [history, history₁]
    simp
  · obtain ⟨count, fires⟩ := ended n ok callable
    refine ⟨?_, fires.turn sound between quiet history₁⟩
    have one : firings (during ++ [.reached id true]) = [id] := by
      rw [firings_append, firings_eq_nil quiet]
      rfl
    rw [count, firings_append, one, List.length_append, List.length_singleton]
    omega

/-- An error of a callback ends the round. -/
theorem turns_of_error (e : ScriptError) : Turns m (id :: ids) fired (.error e, m') := by
  obtain ⟨between, during, history, -⟩ := history_of_called sound pending called moves
  exact ⟨between, during ++ [.reached id true], by simp [history], nofun⟩

end

section

variable {ev : Evaluator}

theorem outcome_fire_of_gone (gone : m.realm.timers.get? id = none) (ids : List Nat) (fired : Nat) :
    (fire ev (id :: ids) fired).outcome m = (fire ev ids fired).outcome m := by
  have read : (onRealm Realm.timers).outcome m = (.ok m.realm.timers, m) := rfl
  rw [fire, outcome_bind, read]
  dsimp only
  rw [gone]

/-- The turn of a timer that is pending, and what follows. -/
theorem outcome_fire_of_pending (pending : m.realm.timers.get? id = some timer) (ids : List Nat)
    (fired : Nat) :
    (fire ev (id :: ids) fired).outcome m =
      if timer.callback.isCallable then
        (ev.apply timer.callback timer.args >>= fun _ => fire ev ids (fired + 1)).outcome
          (turned m id timer)
      else (fire ev ids fired).outcome (turned m id timer) := by
  have read : (onRealm Realm.timers).outcome m = (.ok m.realm.timers, m) := rfl
  have turn : (modifyRealm fun r => { r with timers := r.timers.reach id timer }).outcome m =
      (.ok (), turned m id timer) := rfl
  rw [fire, outcome_bind, read]
  dsimp only
  rw [pending]
  dsimp only
  rw [outcome_bind, turn]
  dsimp only
  split <;> rfl

theorem turns_fire (hev : ev.Within Machine.Moves) (sound : m.realm.timers.Sound) (ids : List Nat)
    (fired : Nat) : Turns m ids fired ((fire ev ids fired).outcome m) := by
  induction ids generalizing m fired with
  | nil =>
    refine ⟨sound, [], rfl, fun n ended _ => ?_⟩
    cases ended
    exact ⟨rfl, fires_nil _⟩
  | cons id rest ih =>
    cases pending : m.realm.timers.get? id with
    | none =>
      rw [outcome_fire_of_gone pending]
      exact (ih sound fired).pass pending
    | some timer =>
      have between : (turned m id timer).realm.timers.Sound := sound.reach pending
      rw [outcome_fire_of_pending pending]
      split
      · rename_i called
        have moves := ((Evaluator.made_apply timer.callback timer.args).within steady_moves hev
          (turned m id timer)).2
        rw [outcome_bind]
        generalize (ev.apply timer.callback timer.args).outcome (turned m id timer) = r at moves
        obtain ⟨e | _, m'⟩ := r
        · exact turns_of_error sound pending called moves e
        · exact (ih (between.moves moves) (fired + 1)).turn sound pending called moves
      · rename_i called
        exact (ih between fired).skip sound pending (Bool.not_eq_true _ ▸ called)

end

/-- A round fires what is pending when it begins and is not cancelled before its turn, in order. -/
theorem Sound.round (h : m.realm.timers.Sound) (ran : Script.runTimers.outcome m = (.ok n, m'))
    (callable : Callable m'.realm.timers.history) :
    ∃ events, m'.realm.timers.history = events ++ m.realm.timers.history ∧
      n = (firings events).length ∧
      (firings events).reverse.Pairwise m.realm.timers.Precedes ∧
      (∀ id, id ∈ firings events ↔ (∃ timer, m.realm.timers.get? id = some timer) ∧
        ¬CancelledWhile (m.realm.timers.Precedes · id) id events) := by
  have turns : Turns m m.realm.timers.due 0 (.ok n, m') :=
    ran ▸ turns_fire Evaluator.moves_standard h m.realm.timers.due 0
  obtain ⟨after, events, history, ended⟩ := turns
  obtain ⟨count, fires⟩ := ended n rfl callable
  have order := h.pairwise_due
  refine ⟨events, history, by simpa using count, order.sublist fires.inTurn, fun id => ⟨?_, ?_⟩⟩
  · intro fired
    have pending := mem_due.1 (fires.inTurn.subset (List.mem_reverse.2 fired))
    refine ⟨pending, ?_⟩
    rintro ⟨newer, older, rfl, only⟩
    obtain ⟨timer, found⟩ := pending
    have told := after.told
    rw [history, List.append_assoc, List.cons_append] at told
    rcases List.mem_append.1 (firings_append newer _ ▸ fired) with later | before
    · exact told.not_mem_firings_of_cancelled (List.mem_append_right _ (h.scheduled found)) later
    · exact not_precedes_self _ _ (only id before)
  · rintro ⟨pending, kept⟩
    obtain ⟨front, behind, eq⟩ := List.append_of_mem (mem_due.2 pending)
    refine (fires.all front id behind eq pending).resolve_right fun cancelled => kept ?_
    rw [eq] at order
    exact cancelled.mono fun j mem => (List.pairwise_append.1 order).2.2 j mem id List.mem_cons_self

/-! ## Runs -/

/-- The machines that are reached from one without timers, when timers are scheduled and cancelled,
by scripts or not, and rounds are run. -/
inductive Reached : Machine → Prop
  | start {m : Machine} (fresh : m.realm.timers = {}) : Reached m
  | moves {m m' : Machine} (h : Reached m) (moves : m.realm.timers.Moves m'.realm.timers) :
      Reached m'
  | round {m : Machine} (h : Reached m) : Reached (Script.runTimers.outcome m).2

/-- Whatever scripts do, they schedule and cancel. -/
theorem Reached.script {α : Type} {x : Script α} (h : Reached m)
    (made : Made Evaluator.standard x) : Reached (x.outcome m).2 :=
  .moves h (made.within steady_moves Evaluator.moves_standard m).2

theorem Reached.sound (h : Reached m) : m.realm.timers.Sound := by
  induction h with
  | start fresh =>
    rw [fresh]
    exact sound_empty
  | moves _ moves ih => exact ih.moves moves
  | round _ ih => exact (turns_fire Evaluator.moves_standard ih _ 0).sound

end Timers

end TsxPreview
