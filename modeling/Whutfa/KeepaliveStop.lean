import Whutfa.Keepalive

/-! # Stopping the keepalive loop

What is left of the loop after a cancellation (`Session::stop`, `ControlHandler::stop`,
`Pinger::cancel` in `aa-handler/src/aa/Session.cpp`), in any interleaving.  `cancel` sets
`cancelled_`, which a wait that ends finds, but `ping` clears it; so a ping that is queued,
or that the handler of a resolved promise is still to ask for, starts the loop again
(`cancel_final_iff`).
-/
namespace Whutfa.Keepalive

open Lifecycle (ErrorCode onPingRejected)

/-- A ping is queued, or a handler that asks for one. -/
def PingPending (s : State) : Prop :=
  .start ∈ s.controlTasks ∨ .resolved ∈ s.controlTasks ∨ ∃ p, .ping p ∈ s.pingerTasks

/-! ## After the cancellation

Without a ping that is still to come, no step arms the timer or sends a request. -/

/-- The loop has stopped for good, after `n` requests. -/
structure Stopped (n : Nat) (s : State) : Prop where
  pending : ¬ PingPending s
  cancelled : s.pinger.cancelled = true
  timer : s.pinger.timer ≠ .waiting
  sent : s.sent = n

theorem settle_cases (s : State) (p : Nat) (o : Outcome) :
    settle s p o = s ∨ settle s p o =
      { s with settled := s.settled ++ [(p, o)], controlTasks := s.controlTasks ++ [o.task] } := by
  unfold settle
  split
  · exact Or.inl rfl
  · exact Or.inr rfl

/-- The queues lose tasks, and get others that ask for no ping. -/
theorem not_pending_of_queues {s t : State} (h : ¬ PingPending s)
    (hcontrol : ∀ task ∈ t.controlTasks, task ∈ s.controlTasks ∨ task ≠ .start ∧ task ≠ .resolved)
    (hpinger : ∀ task ∈ t.pingerTasks, task ∈ s.pingerTasks ∨ ∀ p, task ≠ .ping p) :
    ¬ PingPending t := by
  rintro (hstart | hresolved | ⟨p, hping⟩)
  · exact h (Or.inl ((hcontrol _ hstart).resolve_right fun hne => hne.1 rfl))
  · exact h (Or.inr (Or.inl ((hcontrol _ hresolved).resolve_right fun hne => hne.2 rfl)))
  · exact h (Or.inr (Or.inr ⟨p, (hpinger _ hping).resolve_right fun hne => hne p rfl⟩))

theorem mem_append_controlTask {tasks : List ControlTask} {task added : ControlTask}
    (hadded : added ≠ .start ∧ added ≠ .resolved) (h : task ∈ tasks ++ [added]) :
    task ∈ tasks ∨ task ≠ .start ∧ task ≠ .resolved := by
  rcases List.mem_append.mp h with h | h
  · exact Or.inl h
  · rw [List.mem_singleton.mp h]
    exact Or.inr hadded

theorem mem_append_pingerTask {tasks : List PingerTask} {task added : PingerTask}
    (hadded : added.ping? = none) (h : task ∈ tasks ++ [added]) :
    task ∈ tasks ∨ ∀ p, task ≠ .ping p := by
  rcases List.mem_append.mp h with h | h
  · exact Or.inl h
  · rw [List.mem_singleton.mp h]
    refine Or.inr ?_
    rintro p rfl
    cases hadded

theorem Stopped.control {noCode : ErrorCode} {n : Nat} {s t : State} (h : Stopped n s)
    (hstep : step noCode s .control = some t) : Stopped n t := by
  obtain ⟨task, rest, htasks, rfl⟩ := step_control_iff.mp hstep
  have hsub : ∀ other ∈ rest, other ∈ s.controlTasks := fun other hother =>
    htasks ▸ List.mem_cons_of_mem _ hother
  have hmem : task ∈ s.controlTasks := htasks ▸ List.mem_cons_self
  cases task with
  | start => exact absurd (Or.inl hmem) h.pending
  | resolved => exact absurd (Or.inr (Or.inl hmem)) h.pending
  | rejected code =>
    exact { h with
      pending := not_pending_of_queues h.pending (fun other hother => Or.inl (hsub other hother))
        fun _ => Or.inl }
  | stop =>
    exact { h with
      pending := not_pending_of_queues h.pending (fun other hother => Or.inl (hsub other hother))
        fun _ => mem_append_pingerTask rfl }

theorem Stopped.pinger {noCode : ErrorCode} {n : Nat} {s t : State} (h : Stopped n s)
    (hstep : step noCode s .pinger = some t) : Stopped n t := by
  obtain ⟨task, rest, htasks, rfl⟩ := step_pinger_iff.mp hstep
  have hsub : ∀ other ∈ rest, other ∈ s.pingerTasks := fun other hother =>
    htasks ▸ List.mem_cons_of_mem _ hother
  have hpending : ∀ u : State, u.controlTasks = s.controlTasks → u.pingerTasks = rest →
      ¬ PingPending u := fun u hcontrol hpinger =>
    not_pending_of_queues h.pending (fun _ hother => Or.inl (hcontrol ▸ hother))
      fun other hother => Or.inl (hsub other (hpinger ▸ hother))
  cases task with
  | ping p =>
    exact absurd (Or.inr (Or.inr ⟨p, htasks ▸ List.mem_cons_self⟩)) h.pending
  | pong => exact { h with pending := hpending _ rfl rfl }
  | cancel =>
    have htimer : (if s.pinger.timer = .waiting then Timer.cancelled else s.pinger.timer) =
        s.pinger.timer := if_neg h.timer
    exact {
      pending := hpending _ rfl rfl
      cancelled := rfl
      timer := fun hwaiting => h.timer (htimer.symm.trans hwaiting)
      sent := h.sent }

/-- A wait that ends finds `cancelled_`, and the promise is not resolved. -/
theorem Stopped.onTimerExceeded {n : Nat} {s : State} (h : Stopped n s) (noCode : ErrorCode)
    (aborted : Bool) : Stopped n (onTimerExceeded noCode s aborted) := by
  cases hpromise : s.pinger.promise with
  | none =>
    simp only [Keepalive.onTimerExceeded, hpromise]
    exact h
  | some p =>
    simp only [Keepalive.onTimerExceeded, hpromise, h.cancelled, or_true, if_true]
    rcases settle_cases s p (.rejected .operationAborted) with heq | heq
    · rw [heq]
      exact { h with pending := h.pending }
    · rw [heq]
      exact { h with
        pending := not_pending_of_queues h.pending
          (fun _ => mem_append_controlTask ⟨by decide, by decide⟩) fun _ => Or.inl }

theorem Stopped.expiry {noCode : ErrorCode} {n : Nat} {s t : State} {aborted : Bool}
    (h : Stopped n s) (hstep : step noCode s (.timer aborted) = some t) : Stopped n t := by
  obtain ⟨-, hstep⟩ := Option.ite_none_left_eq_some.mp hstep
  obtain rfl := Option.some.inj hstep
  have hidle : Stopped n { s with pinger := { s.pinger with timer := .idle } } :=
    { h with timer := nofun }
  have hexceeded := hidle.onTimerExceeded noCode aborted
  split
  · exact hexceeded
  · exact { hexceeded with pending := hexceeded.pending }

theorem Stopped.step {noCode : ErrorCode} {n : Nat} {s t : State} {a : Action} (h : Stopped n s)
    (hstep : step noCode s a = some t) : Stopped n t := by
  cases a with
  | control => exact h.control hstep
  | pinger => exact h.pinger hstep
  | timer aborted => exact h.expiry hstep
  | pingResponse =>
    obtain rfl := Option.some.inj hstep
    exact { h with
      pending := not_pending_of_queues h.pending (fun _ => Or.inl)
        fun _ => mem_append_pingerTask rfl }
  | stop =>
    obtain rfl := Option.some.inj hstep
    split
    · exact { h with
        pending := not_pending_of_queues h.pending
          (fun _ => mem_append_controlTask ⟨by decide, by decide⟩) fun _ => mem_append_pingerTask rfl }
    · exact h

/-! ## One ping at a time

A ping has one outcome, and an outcome asks for one ping at most, so there is never more
than one on its way. -/

/-- The pings that are queued, waiting, or about to be asked for. -/
def pingsInFlight (s : State) : Nat :=
  s.controlTasks.count .start + s.controlTasks.count .resolved +
    (s.pingerTasks.filterMap PingerTask.ping?).length + s.pinger.promise.toList.length

theorem count_append_task (tasks : List ControlTask) (o : Outcome) :
    (tasks ++ [o.task]).count .start = tasks.count .start ∧
      (tasks ++ [o.task]).count .resolved ≤ tasks.count .resolved + 1 := by
  rw [List.count_append, List.count_append, List.count_singleton, List.count_singleton]
  cases o with
  | resolved => exact ⟨rfl, Nat.le_refl _⟩
  | rejected code => exact ⟨rfl, Nat.le_succ _⟩

theorem pingsInFlight_exceeded (noCode : ErrorCode) (s : State) (aborted : Bool) :
    pingsInFlight (onTimerExceeded noCode s aborted) ≤ pingsInFlight s := by
  cases hpromise : s.pinger.promise with
  | none =>
    simp only [onTimerExceeded, hpromise]
    exact Nat.le_refl _
  | some p =>
    simp only [onTimerExceeded, hpromise]
    generalize houtcome : (if aborted = true ∨ s.pinger.cancelled = true then
      Outcome.rejected .operationAborted else if s.pinger.pings - s.pinger.pongs > 4 then
      .rejected noCode else .resolved) = o
    rcases settle_cases s p o with heq | heq
    · rw [heq]
      exact Nat.add_le_add_left (Nat.zero_le _) _
    · -- the promise gives way to a handler, which asks for one ping at most
      have hcount := count_append_task s.controlTasks o
      rw [heq]
      simp only [pingsInFlight, hpromise, Option.toList_none, Option.toList_some,
        List.length_nil, List.length_singleton, hcount.1]
      omega

theorem pingsInFlight_settle_rejected (s : State) (p : Nat) (code : ErrorCode) :
    pingsInFlight (settle s p (.rejected code)) = pingsInFlight s := by
  rcases settle_cases s p (.rejected code) with heq | heq
  · rw [heq]
  · rw [heq]
    simp [pingsInFlight, Outcome.task]

/-- A ping that finds a promise held has that one rejected. -/
theorem ping_of_some {s : State} {held : Nat} (h : s.pinger.promise = some held) (p : Nat) :
    ping s p = settle { s with pinger := { s.pinger with cancelled := false } } held
      (.rejected .operationInProgress) := by
  obtain ⟨⟨_, _, _, promise, _⟩⟩ := s
  obtain rfl : promise = some held := h
  rfl

theorem pingsInFlight_ping (s : State) (p : Nat) :
    pingsInFlight (ping s p) ≤ pingsInFlight s + 1 := by
  cases hpromise : s.pinger.promise with
  | none =>
    rw [ping_of_none hpromise]
    simp only [pingsInFlight, hpromise, Option.toList_none, Option.toList_some, List.length_nil,
      List.length_singleton]
    omega
  | some held =>
    rw [ping_of_some hpromise, pingsInFlight_settle_rejected]
    exact Nat.le_succ _

/-- No step makes a second ping. -/
theorem pingsInFlight_step {noCode : ErrorCode} {s t : State} {a : Action}
    (hstep : step noCode s a = some t) : pingsInFlight t ≤ pingsInFlight s := by
  cases a with
  | control =>
    obtain ⟨task, rest, htasks, rfl⟩ := step_control_iff.mp hstep
    cases task <;>
      simp [pingsInFlight, runControl, schedulePing, sendPing, htasks, PingerTask.ping?,
        List.filterMap_append] <;> omega
  | pinger =>
    obtain ⟨task, rest, htasks, rfl⟩ := step_pinger_iff.mp hstep
    cases task with
    | ping p =>
      have htaken : pingsInFlight { s with pingerTasks := rest } + 1 = pingsInFlight s := by
        simp only [pingsInFlight, htasks, List.filterMap_cons, PingerTask.ping?, List.length_cons]
        omega
      exact htaken ▸ pingsInFlight_ping _ p
    | pong => simp [pingsInFlight, runPinger, pong, htasks, List.filterMap_cons, PingerTask.ping?]
    | cancel =>
      simp [pingsInFlight, runPinger, cancel, htasks, List.filterMap_cons, PingerTask.ping?]
  | timer aborted =>
    obtain ⟨-, hstep⟩ := Option.ite_none_left_eq_some.mp hstep
    obtain rfl := Option.some.inj hstep
    have hle := pingsInFlight_exceeded noCode
      { s with pinger := { s.pinger with timer := .idle } } aborted
    split
    · exact hle
    · exact hle
  | pingResponse =>
    obtain rfl := Option.some.inj hstep
    simp [pingsInFlight, PingerTask.ping?]
  | stop =>
    obtain rfl := Option.some.inj hstep
    split
    · simp [pingsInFlight, PingerTask.ping?]
    · exact Nat.le_refl _

theorem pingsInFlight_run {noCode : ErrorCode} {s t : State} {as : List Action}
    (h : pingsInFlight s ≤ 1) (hrun : Transition.run (step noCode) s as = some t) :
    pingsInFlight t ≤ 1 :=
  Transition.run_invariant (I := fun s => pingsInFlight s ≤ 1)
    (fun _ _ _ hs hstep => Nat.le_trans (pingsInFlight_step hstep) hs) h hrun

theorem promise_none_of_ping {s : State} {p : Nat} (h : pingsInFlight s ≤ 1)
    (hmem : .ping p ∈ s.pingerTasks) : s.pinger.promise = none := by
  have hqueued : p ∈ s.pingerTasks.filterMap PingerTask.ping? :=
    List.mem_filterMap.mpr ⟨.ping p, hmem, rfl⟩
  have hpos := List.length_pos_of_mem hqueued
  cases hpromise : s.pinger.promise with
  | none => rfl
  | some held =>
    unfold pingsInFlight at h
    rw [hpromise, Option.toList_some, List.length_singleton] at h
    omega

/-! ## The loop goes on

What is pending comes to its turn, and then the timer is armed or a request sent. -/

theorem sent_le_runControl (s : State) (task : ControlTask) :
    s.sent ≤ (runControl s task).sent := by
  cases task with
  | resolved => exact Nat.le_succ _
  | start | rejected _ | stop => exact Nat.le_refl _

theorem controlTasks_runControl (s : State) (task : ControlTask) :
    (runControl s task).controlTasks = s.controlTasks := by
  cases task <;> rfl

theorem pingerTasks_runPinger (s : State) (task : PingerTask) :
    (runPinger s task).pingerTasks = s.pingerTasks := by
  cases task with
  | ping p =>
    cases hpromise : s.pinger.promise with
    | none => rw [runPinger, ping_of_none hpromise]
    | some held =>
      rw [runPinger, ping_of_some hpromise]
      rcases settle_cases { s with pinger := { s.pinger with cancelled := false } } held
        (.rejected .operationInProgress) with heq | heq
      · rw [heq]
      · rw [heq]
  | pong => rfl
  | cancel => rfl

/-- The control strand comes to each of its tasks. -/
theorem control_comes_to (noCode : ErrorCode) {s : State} {front back : List ControlTask}
    {task : ControlTask} (hs : s.controlTasks = front ++ task :: back) :
    ∃ as u, Transition.run (step noCode) s as = some u ∧ u.controlTasks = task :: back ∧
      s.sent ≤ u.sent := by
  induction front generalizing s with
  | nil => exact ⟨[], s, rfl, hs, Nat.le_refl _⟩
  | cons next front ih =>
    have hstep : step noCode s .control =
        some (runControl { s with controlTasks := front ++ task :: back } next) :=
      step_control_iff.mpr ⟨next, front ++ task :: back, hs, rfl⟩
    obtain ⟨as, u, hrun, htasks, hsent⟩ := ih
      (controlTasks_runControl { s with controlTasks := front ++ task :: back } next)
    exact ⟨.control :: as, u, Transition.run_cons_eq_some.mpr ⟨_, hstep, hrun⟩, htasks,
      Nat.le_trans (sent_le_runControl { s with controlTasks := front ++ task :: back } next) hsent⟩

/-- The pinger's strand comes to each of its tasks. -/
theorem pinger_comes_to (noCode : ErrorCode) {s : State} {front back : List PingerTask}
    {task : PingerTask} (hs : s.pingerTasks = front ++ task :: back) :
    ∃ as u, Transition.run (step noCode) s as = some u ∧ u.pingerTasks = task :: back := by
  induction front generalizing s with
  | nil => exact ⟨[], s, rfl, hs⟩
  | cons next front ih =>
    have hstep : step noCode s .pinger =
        some (runPinger { s with pingerTasks := front ++ task :: back } next) :=
      step_pinger_iff.mpr ⟨next, front ++ task :: back, hs, rfl⟩
    obtain ⟨as, u, hrun, htasks⟩ := ih
      (pingerTasks_runPinger { s with pingerTasks := front ++ task :: back } next)
    exact ⟨.pinger :: as, u, Transition.run_cons_eq_some.mpr ⟨_, hstep, hrun⟩, htasks⟩

/-- A ping that is queued arms the timer. -/
theorem ping_arms (noCode : ErrorCode) {s : State} {p : Nat} (h : pingsInFlight s ≤ 1)
    (hmem : .ping p ∈ s.pingerTasks) :
    ∃ as u, Transition.run (step noCode) s as = some u ∧ u.pinger.timer = .waiting := by
  obtain ⟨front, back, hs⟩ := List.append_of_mem hmem
  obtain ⟨as, u, hrun, htasks⟩ := pinger_comes_to noCode hs
  have hpromise :=
    promise_none_of_ping (pingsInFlight_run h hrun) (htasks ▸ List.mem_cons_self)
  have hstep : step noCode u .pinger = some (ping { u with pingerTasks := back } p) :=
    step_pinger_iff.mpr ⟨.ping p, back, htasks, rfl⟩
  refine ⟨as ++ [.pinger], _, Transition.run_concat hrun hstep, ?_⟩
  rw [ping_of_none (s := { u with pingerTasks := back }) hpromise]

/-- What is pending comes to a timer or a request. -/
theorem pending_goes_on (noCode : ErrorCode) {s : State} (h : pingsInFlight s ≤ 1)
    (hpending : PingPending s) : ∃ as u, Transition.run (step noCode) s as = some u ∧
      (u.pinger.timer = .waiting ∨ s.sent < u.sent) := by
  rcases hpending with hstart | hresolved | ⟨p, hping⟩
  · -- the handler that starts the loop asks for its first ping
    obtain ⟨front, back, hs⟩ := List.append_of_mem hstart
    obtain ⟨as, u, hrun, htasks, -⟩ := control_comes_to noCode hs
    have hstep : step noCode u .control = some (schedulePing { u with controlTasks := back }) :=
      step_control_iff.mpr ⟨.start, back, htasks, rfl⟩
    have hrun' := Transition.run_concat hrun hstep
    obtain ⟨bs, v, hrest, hwaiting⟩ := ping_arms noCode (pingsInFlight_run h hrun')
      (show .ping u.made ∈ u.pingerTasks ++ [.ping u.made] from
        List.mem_append_right _ (List.mem_singleton_self _))
    exact ⟨(as ++ [.control]) ++ bs, v, Transition.run_append_eq_some.mpr ⟨_, hrun', hrest⟩,
      Or.inl hwaiting⟩
  · -- the handler of a resolved promise sends a request
    obtain ⟨front, back, hs⟩ := List.append_of_mem hresolved
    obtain ⟨as, u, hrun, htasks, hsent⟩ := control_comes_to noCode hs
    have hstep : step noCode u .control =
        some (schedulePing (sendPing { u with controlTasks := back })) :=
      step_control_iff.mpr ⟨.resolved, back, htasks, rfl⟩
    refine ⟨as ++ [.control], _, Transition.run_concat hrun hstep, Or.inr ?_⟩
    exact Nat.lt_succ_of_le hsent
  · obtain ⟨as, u, hrun, hwaiting⟩ := ping_arms noCode h hping
    exact ⟨as, u, hrun, Or.inl hwaiting⟩

/-- **When a cancellation is final.**  In any history, after a cancellation that has run no
timer is armed and no request sent exactly if, when it ran, no ping was queued behind it
and no handler that asks for one. -/
theorem cancel_final_iff {noCode : ErrorCode} {s t : State}
    (h : Transition.Reachable (step noCode) (· = initial) s)
    (hcancel : s.pingerTasks.head? = some .cancel) (hstep : step noCode s .pinger = some t) :
    (∀ as u, Transition.run (step noCode) t as = some u →
        u.pinger.timer ≠ .waiting ∧ u.sent = t.sent) ↔ ¬ PingPending s := by
  obtain ⟨task, rest, htasks, hruns⟩ := step_pinger_iff.mp hstep
  obtain rfl : task = .cancel := by
    rw [htasks] at hcancel
    exact Option.some.inj hcancel
  have hcancelled : t = cancel { s with pingerTasks := rest } := hruns
  constructor
  · intro hquiet hpending
    have hinitial : pingsInFlight initial ≤ 1 := Nat.le_refl 1
    obtain ⟨_, as, rfl, hrun⟩ := h
    have hone := pingsInFlight_run hinitial hrun
    -- the cancellation leaves what is queued behind it
    have hstill : PingPending t := by
      rcases hpending with hstart | hresolved | ⟨p, hping⟩
      · exact Or.inl (hcancelled ▸ hstart)
      · exact Or.inr (Or.inl (hcancelled ▸ hresolved))
      · rw [htasks] at hping
        have hbehind := (List.mem_cons.mp hping).resolve_left nofun
        exact Or.inr (Or.inr ⟨p, hcancelled ▸ hbehind⟩)
    obtain ⟨as, u, hrun, hwaiting | hsent⟩ := pending_goes_on noCode
      (Nat.le_trans (pingsInFlight_step hstep) hone) hstill
    · exact (hquiet as u hrun).1 hwaiting
    · exact absurd (hquiet as u hrun).2 (Nat.ne_of_gt hsent)
  · intro hnone as u hrun
    have hstopped : Stopped t.sent t := by
      rw [hcancelled]
      exact {
        pending := not_pending_of_queues hnone (fun _ => Or.inl) fun task htask =>
          Or.inl (htasks ▸ List.mem_cons_of_mem _ htask)
        cancelled := rfl
        timer := by
          show (if s.pinger.timer = .waiting then Timer.cancelled else s.pinger.timer) ≠ .waiting
          by_cases hwaiting : s.pinger.timer = .waiting
          · rw [if_pos hwaiting]
            nofun
          · rwa [if_neg hwaiting]
        sent := rfl }
    have hfinal : Stopped t.sent u :=
      Transition.run_invariant (fun _ _ _ hs hstep => hs.step hstep) hstopped hrun
    exact ⟨hfinal.timer, hfinal.sent⟩

/-- A session that is stopped while the pinger waits. -/
theorem cancel_while_waiting_final :
    ∃ s t, Transition.run (step .other) initial [.control, .pinger, .stop] = some s ∧
      step .other s .pinger = some t ∧
      ∀ as u, Transition.run (step .other) t as = some u →
        u.pinger.timer ≠ .waiting ∧ u.sent = t.sent := by
  obtain ⟨s, t, hrun, hcancel, hstep, hcontrol, hpinger⟩ : ∃ s t,
      Transition.run (step .other) initial [.control, .pinger, .stop] = some s ∧
      s.pingerTasks.head? = some .cancel ∧ step .other s .pinger = some t ∧
      s.controlTasks = [.stop] ∧ s.pingerTasks = [.cancel] := ⟨_, _, rfl, rfl, rfl, rfl, rfl⟩
  refine ⟨s, t, hrun, hstep, (cancel_final_iff ⟨initial, _, rfl, hrun⟩ hcancel hstep).mpr ?_⟩
  rw [PingPending, hcontrol, hpinger]
  simp

/-- The wait ends between the stop and the cancellation: the loop goes on, with both
cancellations behind it. -/
theorem cancel_before_handler_not_final :
    ∃ t u, Transition.run (step .other) initial
        [.control, .pinger, .stop, .timer false, .control, .pinger, .pinger] = some t ∧
      t.active = false ∧ t.pinger.cancelled = true ∧ t.pingerTasks = [] ∧
      Transition.run (step .other) t [.control, .pinger] = some u ∧
      u.pinger.timer = .waiting ∧ u.sent = t.sent + 1 :=
  ⟨_, _, rfl, rfl, rfl, rfl, rfl, rfl, rfl⟩

end Whutfa.Keepalive
