import Whutfa.SessionLifecycle

/-! # Waiting for a phone

`Runner` (`aa-handler/src/aasdk_runner.cpp`) around the sessions of `SessionLifecycle`: the
accessories that are there are enumerated, and then one hub after the other waits for a
device; a hub that fails is made again by a timer.  A step is a callback on the io service.
A signal sets `g_shutdown` and stops the io service, so that no callback runs after the one
it interrupts.

What waits is a promise or a timer, and there may be any number of them; the callbacks keep
it at one (`always_waiting`).  Only a hub that is aborted is not made again, and nothing
aborts one before the shutdown.
-/
namespace Whutfa.Runner

open Lifecycle (ErrorCode StartStep ControlInput)

/-- What is pending on the io service, and the members of `Runner`. -/
structure State where
  /-- The promise of the enumerator is open. -/
  enumerating : Bool
  /-- The hubs whose promise is open. -/
  hubs : List Nat
  /-- How many hubs have been made. -/
  made : Nat
  /-- The timers of `scheduleRestart` that are running. -/
  timers : Nat
  /-- `g_shutdown`. -/
  shutdown : Bool
  /-- A hub has failed with `OPERATION_ABORTED`. -/
  aborted : Bool
  sessions : Lifecycle.State

/-- After `Runner::start`. -/
def initial : State :=
  { enumerating := true, hubs := [], made := 0, timers := 0, shutdown := false, aborted := false,
    sessions := Lifecycle.initial }

/-- A callback; `signalled` says that a signal comes before it looks at `g_shutdown`. -/
inductive Action
  /-- The enumeration is over, or has failed. -/
  | enumerated (signalled : Bool)
  | onDevice (hub : Nat) (deviceThrows : Bool) (startThrows : Option StartStep)
      (signalled : Bool)
  | hubError (hub : Nat) (e : ErrorCode) (signalled : Bool)
  | timer (signalled : Bool)
  /-- A control handler is called. -/
  | input (i : Nat) (what : ControlInput)
  | signal

/-- `on_signal`, if the signal comes now. -/
def onSignal (s : State) (signalled : Bool) : State :=
  { s with shutdown := s.shutdown || signalled }

/-- `startHub`: nothing once the shutdown has begun. -/
def startHub (s : State) : State :=
  if s.shutdown then s else { s with hubs := s.hubs ++ [s.made], made := s.made + 1 }

/-- `scheduleRestart`. -/
def scheduleRestart (s : State) : State := { s with timers := s.timers + 1 }

/-- `onDevice`, whose `catch` leaves the sessions as `SessionLifecycle` says. -/
def onDevice (s : State) (deviceThrows : Bool) (startThrows : Option StartStep)
    (signalled : Bool) : State :=
  let sessions := if deviceThrows then s.sessions else Lifecycle.start s.sessions startThrows
  let s := onSignal { s with sessions } signalled
  if s.shutdown then s else startHub s

/-- What a hub's error handler does. -/
def onHubError (s : State) (e : ErrorCode) (signalled : Bool) : State :=
  if e = .operationAborted then { onSignal s signalled with aborted := true }
  else
    let s := onSignal s signalled
    if s.shutdown then s else scheduleRestart s

/-- One callback of the io service. -/
def step (cfg : Lifecycle.HandlerConfig) (s : State) (a : Action) : Option State :=
  -- the io service has been stopped
  if s.shutdown then none
  else match a with
    | .enumerated signalled =>
        if s.enumerating then
          some (startHub (onSignal { s with enumerating := false } signalled))
        else none
    | .onDevice hub deviceThrows startThrows signalled =>
        if hub ∈ s.hubs then
          some (onDevice { s with hubs := s.hubs.erase hub } deviceThrows startThrows signalled)
        else none
    | .hubError hub e signalled =>
        if hub ∈ s.hubs then some (onHubError { s with hubs := s.hubs.erase hub } e signalled)
        else none
    | .timer signalled =>
        if 0 < s.timers then
          let s := onSignal { s with timers := s.timers - 1 } signalled
          some (if s.shutdown then s else startHub s)
        else none
    | .input i what =>
        (Lifecycle.step cfg s.sessions (.input i what)).map fun sessions => { s with sessions }
    | .signal => some (onSignal s true)

/-! ## One thing waits -/

/-- How many callbacks are due that will start a hub, or have one waiting. -/
def waiting (s : State) : Nat := s.enumerating.toNat + s.hubs.length + s.timers

/-- What is waited for, and which hubs the sessions come from. -/
structure Waiting (cfg : Lifecycle.HandlerConfig) (s : State) : Prop where
  /-- No two hubs wait. -/
  waiting_le : waiting s ≤ 1
  /-- Until the shutdown one thing waits, if no hub has been aborted. -/
  waiting_iff : s.shutdown = false → (waiting s = 1 ↔ s.aborted = false)
  sessions : Transition.Reachable (Lifecycle.step cfg) (· = Lifecycle.initial) s.sessions
  /-- Each session has had a hub of its own. -/
  made : s.sessions.made + s.hubs.length ≤ s.made

variable {cfg : Lifecycle.HandlerConfig} {s : State}

theorem waiting_initial : Waiting cfg initial where
  waiting_le := Nat.le_refl 1
  waiting_iff _ := iff_of_true rfl rfl
  sessions := ⟨_, [], rfl, rfl⟩
  made := Nat.le_refl 0

/-- What waited has been called, and nothing waits yet. -/
structure Due (cfg : Lifecycle.HandlerConfig) (s : State) : Prop where
  waiting : waiting s = 0
  aborted : s.aborted = false
  sessions : Transition.Reachable (Lifecycle.step cfg) (· = Lifecycle.initial) s.sessions
  made : s.sessions.made + s.hubs.length ≤ s.made

theorem Due.signal (h : Due cfg s) (signalled : Bool) : Due cfg (onSignal s signalled) :=
  ⟨h.waiting, h.aborted, h.sessions, h.made⟩

/-- The process ends. -/
theorem Due.shutdown (h : Due cfg s) (hshutdown : s.shutdown = true) : Waiting cfg s where
  waiting_le := by
    rw [h.waiting]
    exact Nat.zero_le 1
  waiting_iff hfalse := by
    rw [hshutdown] at hfalse
    cases hfalse
  sessions := h.sessions
  made := h.made

theorem Due.startHub (h : Due cfg s) : Waiting cfg (Runner.startHub s) := by
  unfold Runner.startHub
  split
  · rename_i hshutdown
    exact h.shutdown hshutdown
  · have hmore : (s.hubs ++ [s.made]).length = s.hubs.length + 1 := List.length_append
    have hone : s.enumerating.toNat + (s.hubs ++ [s.made]).length + s.timers = 1 := by
      have hzero := h.waiting
      unfold Runner.waiting at hzero
      omega
    refine ⟨hone.le, fun _ => iff_of_true hone h.aborted, h.sessions, ?_⟩
    show s.sessions.made + (s.hubs ++ [s.made]).length ≤ s.made + 1
    have hmade := h.made
    omega

theorem Due.scheduleRestart (h : Due cfg s) : Waiting cfg (Runner.scheduleRestart s) := by
  have hone : s.enumerating.toNat + s.hubs.length + (s.timers + 1) = 1 := by
    have hzero := h.waiting
    unfold Runner.waiting at hzero
    omega
  exact ⟨hone.le, fun _ => iff_of_true hone h.aborted, h.sessions, h.made⟩

/-- Nothing has been aborted while something waits. -/
theorem Waiting.aborted_eq (h : Waiting cfg s) (hrunning : s.shutdown = false)
    (hpos : 0 < waiting s) : s.aborted = false := by
  have hle := h.waiting_le
  exact (h.waiting_iff hrunning).mp (by omega)

/-- A hub's promise is settled. -/
theorem Waiting.erase (h : Waiting cfg s) (hrunning : s.shutdown = false) {hub : Nat}
    (hhub : hub ∈ s.hubs) :
    Due cfg { s with hubs := s.hubs.erase hub } ∧
      s.sessions.made + (s.hubs.erase hub).length < s.made := by
  have hpos := List.length_pos_of_mem hhub
  have hle := h.waiting_le
  have hmade := h.made
  have hlength := List.length_erase_of_mem hhub
  unfold waiting at hle
  have haborted := h.aborted_eq hrunning (by unfold waiting; omega)
  refine ⟨⟨?_, haborted, h.sessions, ?_⟩, ?_⟩
  · show s.enumerating.toNat + (s.hubs.erase hub).length + s.timers = 0
    omega
  · show s.sessions.made + (s.hubs.erase hub).length ≤ s.made
    omega
  · omega

/-- `onDevice`, once the hub's promise is settled. -/
theorem Due.onDevice (h : Due cfg s) (hroom : s.sessions.made + s.hubs.length < s.made)
    (deviceThrows : Bool) (startThrows : Option StartStep) (signalled : Bool) :
    Waiting cfg (Runner.onDevice s deviceThrows startThrows signalled) := by
  let sessions := if deviceThrows then s.sessions else Lifecycle.start s.sessions startThrows
  have hstep : Lifecycle.step cfg s.sessions (.device deviceThrows startThrows) =
      some sessions := rfl
  have hmade : sessions.made ≤ s.sessions.made + 1 := by
    cases deviceThrows with
    | true => exact Nat.le_succ _
    | false => cases startThrows with
      | none => exact Nat.le_refl _
      | some failing => cases failing <;> exact Nat.le_refl _
  have hdue : Due cfg (onSignal { s with sessions } signalled) :=
    ⟨h.waiting, h.aborted, h.sessions.concat hstep, by
      show sessions.made + s.hubs.length ≤ s.made
      omega⟩
  unfold Runner.onDevice
  show Waiting cfg (if (onSignal { s with sessions } signalled).shutdown then _ else _)
  split
  · rename_i hshutdown
    exact hdue.shutdown hshutdown
  · exact hdue.startHub

theorem Due.onHubError (h : Due cfg s) (e : ErrorCode) (signalled : Bool) :
    Waiting cfg (Runner.onHubError s e signalled) := by
  unfold Runner.onHubError
  split
  · -- nothing is made again
    have hzero : Runner.waiting { onSignal s signalled with aborted := true } = 0 := h.waiting
    refine ⟨by omega, fun _ => ?_, h.sessions, h.made⟩
    rw [hzero]
    exact iff_of_false Nat.zero_ne_one Bool.true_eq_false_eq_False
  · show Waiting cfg (if (onSignal s signalled).shutdown then _ else _)
    split
    · rename_i hshutdown
      exact (h.signal signalled).shutdown hshutdown
    · exact (h.signal signalled).scheduleRestart

/-- A control handler makes no session. -/
theorem made_input {sessions t : Lifecycle.State} {i : Nat} {what : ControlInput}
    (h : Lifecycle.step cfg sessions (.input i what) = some t) : t.made = sessions.made := by
  obtain ⟨handler, -, rfl⟩ := Lifecycle.step_input h
  split
  · unfold Lifecycle.triggerQuit Lifecycle.onQuit
    split
    · rfl
    · split
      · rfl
      · split
        · rfl
        · rfl
  · rfl

/-- **One thing waits after every callback.** -/
theorem waiting_step {t : State} {a : Action} (h : Waiting cfg s)
    (hstep : step cfg s a = some t) : Waiting cfg t := by
  unfold step at hstep
  split at hstep
  · cases hstep
  rename_i hrunning
  have hrunning := Bool.eq_false_iff.mpr hrunning
  cases a with
  | enumerated signalled =>
    obtain ⟨henumerating, ht⟩ := Option.ite_none_right_eq_some.mp hstep
    obtain rfl := Option.some.inj ht
    have hle := h.waiting_le
    unfold waiting at hle
    rw [henumerating] at hle
    have hpos : 0 < waiting s := by
      unfold waiting
      rw [henumerating]
      exact Nat.lt_of_lt_of_le Nat.one_pos (by simp only [Bool.toNat_true]; omega)
    have hdue : Due cfg { s with enumerating := false } := by
      refine ⟨?_, h.aborted_eq hrunning hpos, h.sessions, h.made⟩
      show false.toNat + s.hubs.length + s.timers = 0
      simp only [Bool.toNat_true, Bool.toNat_false] at hle ⊢
      omega
    exact (hdue.signal signalled).startHub
  | onDevice hub deviceThrows startThrows signalled =>
    obtain ⟨hhub, ht⟩ := Option.ite_none_right_eq_some.mp hstep
    obtain rfl := Option.some.inj ht
    obtain ⟨hdue, hroom⟩ := h.erase hrunning hhub
    exact hdue.onDevice hroom deviceThrows startThrows signalled
  | hubError hub e signalled =>
    obtain ⟨hhub, ht⟩ := Option.ite_none_right_eq_some.mp hstep
    obtain rfl := Option.some.inj ht
    exact (h.erase hrunning hhub).1.onHubError e signalled
  | timer signalled =>
    obtain ⟨hpos, ht⟩ := Option.ite_none_right_eq_some.mp hstep
    obtain rfl := Option.some.inj ht
    have hle := h.waiting_le
    unfold waiting at hle
    have hdue : Due cfg { s with timers := s.timers - 1 } := by
      refine ⟨?_, h.aborted_eq hrunning (by unfold waiting; omega), h.sessions, h.made⟩
      show s.enumerating.toNat + s.hubs.length + (s.timers - 1) = 0
      omega
    split
    · rename_i hshutdown
      exact (hdue.signal signalled).shutdown hshutdown
    · exact (hdue.signal signalled).startHub
  | input i what =>
    obtain ⟨sessions, hsessions, rfl⟩ := Option.map_eq_some_iff.mp hstep
    have hmade : sessions.made = s.sessions.made := made_input hsessions
    exact ⟨h.waiting_le, h.waiting_iff, h.sessions.concat hsessions, hmade ▸ h.made⟩
  | signal =>
    obtain rfl := Option.some.inj hstep
    refine ⟨h.waiting_le, fun hfalse => ?_, h.sessions, h.made⟩
    have htrue : (onSignal s true).shutdown = true := Bool.or_true _
    rw [htrue] at hfalse
    cases hfalse

/-- A hub waits, or the callback that is due starts one. -/
def Listens (cfg : Lifecycle.HandlerConfig) (s : State) : Prop :=
  s.hubs ≠ [] ∨ ∃ a t, step cfg s a = some t ∧ t.hubs ≠ []

/-- The enumeration is over, and a hub is started. -/
theorem step_enumerated (hrunning : s.shutdown = false) (henumerating : s.enumerating = true) :
    step cfg s (.enumerated false) =
      some { s with enumerating := false, hubs := s.hubs ++ [s.made], made := s.made + 1 } := by
  simp only [step, startHub, onSignal, hrunning, henumerating, Bool.or_false, if_true,
    Bool.false_eq_true, if_false]

/-- A timer expires, and a hub is started. -/
theorem step_timer (hrunning : s.shutdown = false) (hpos : 0 < s.timers) :
    step cfg s (.timer false) =
      some { s with timers := s.timers - 1, hubs := s.hubs ++ [s.made], made := s.made + 1 } := by
  simp only [step, startHub, onSignal, hrunning, hpos, Bool.or_false, if_true,
    Bool.false_eq_true, if_false]

/-- Where nothing waits, no callback starts a hub. -/
theorem hubs_of_waiting_zero {t : State} {a : Action} (hzero : waiting s = 0)
    (hstep : step cfg s a = some t) : t.hubs = [] := by
  unfold waiting at hzero
  have hnone : s.hubs = [] := List.eq_nil_of_length_eq_zero (by omega)
  unfold step at hstep
  split at hstep
  · cases hstep
  cases a with
  | enumerated signalled =>
    obtain ⟨henumerating, -⟩ := Option.ite_none_right_eq_some.mp hstep
    rw [henumerating, Bool.toNat_true] at hzero
    omega
  | onDevice hub _ _ _ =>
    obtain ⟨hhub, -⟩ := Option.ite_none_right_eq_some.mp hstep
    rw [hnone] at hhub
    cases hhub
  | hubError hub _ _ =>
    obtain ⟨hhub, -⟩ := Option.ite_none_right_eq_some.mp hstep
    rw [hnone] at hhub
    cases hhub
  | timer signalled =>
    obtain ⟨hpos, -⟩ := Option.ite_none_right_eq_some.mp hstep
    omega
  | input i what =>
    obtain ⟨sessions, -, rfl⟩ := Option.map_eq_some_iff.mp hstep
    exact hnone
  | signal =>
    obtain rfl := Option.some.inj hstep
    exact hnone

theorem Waiting.listens_iff (h : Waiting cfg s) (hrunning : s.shutdown = false) :
    Listens cfg s ↔ s.aborted = false := by
  rw [← h.waiting_iff hrunning]
  constructor
  · intro hlistens
    by_contra hne
    have hle := h.waiting_le
    have hzero : waiting s = 0 := by omega
    rcases hlistens with hhubs | ⟨a, t, hstep, hhubs⟩
    · have hpos := List.length_pos_of_ne_nil hhubs
      unfold waiting at hzero
      omega
    · exact hhubs (hubs_of_waiting_zero hzero hstep)
  · intro hone
    by_cases hhubs : s.hubs = []
    · refine Or.inr ?_
      unfold waiting at hone
      rw [hhubs, List.length_nil] at hone
      cases henumerating : s.enumerating with
      | true =>
        refine ⟨_, _, step_enumerated hrunning henumerating, ?_⟩
        exact List.append_ne_nil_of_right_ne_nil _ (List.cons_ne_nil _ _)
      | false =>
        rw [henumerating, Bool.toNat_false] at hone
        refine ⟨_, _, step_timer hrunning (by omega), ?_⟩
        exact List.append_ne_nil_of_right_ne_nil _ (List.cons_ne_nil _ _)
    · exact Or.inl hhubs

/-- **The handler waits for a phone**, in every run and however the devices, the sessions and
the hubs fail: until a signal, no two hubs wait, and exactly if no hub has been aborted one
does, or is started by the callback that is due.  Each session had a hub of its own, and the
sessions are in a state that `SessionLifecycle` reaches. -/
theorem always_waiting (cfg : Lifecycle.HandlerConfig) (actions : List Action) :
    Transition.Throughout (step cfg) (fun s => waiting s ≤ 1 ∧
      (s.shutdown = false → (Listens cfg s ↔ s.aborted = false)) ∧
      s.sessions.made + s.hubs.length ≤ s.made ∧
      Transition.Reachable (Lifecycle.step cfg) (· = Lifecycle.initial) s.sessions)
      initial actions := by
  refine Transition.throughout_of_invariant (I := Waiting cfg) (fun s h => ?_)
    (fun s a t h hstep => waiting_step h hstep) waiting_initial actions
  exact ⟨h.waiting_le, h.listens_iff, h.made, h.sessions⟩

end Whutfa.Runner
