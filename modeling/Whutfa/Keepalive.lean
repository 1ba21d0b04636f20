import Mathlib.Tactic.IntervalCases
import Whutfa.SessionLifecycle

/-! # The keepalive loop

`Pinger`, `ControlHandler::schedulePing` and `ControlHandler::sendPing`
(`aa-handler/src/aa/Session.cpp`).  The pinger and the control handler each own a
strand, a queue of tasks that run one at a time: `ping`, `pong` and `cancel` are
dispatched to the pinger's strand, the handlers of a ping promise to the control
handler's.  A step runs the next task of one strand, lets a timer's wait end, lets a
`PingResponse` arrive, or stops the session.

`pings_` goes up when the wait starts and `PingRequest` is sent when it has ended, so
at an expiry `pings_` counts one request more than has been sent: `pings_ - pongs_ > 4`
says that at least four of the sent requests are unanswered (`expiry_threshold`).

The loop is at one place at a time, its `Phase`: a ping is queued, its wait is running, its
outcome is queued for the control handler, and so on.  The phase says what the two strands
hold, whether the timer runs, and by how much the counters differ from what has been sent
and answered; a step of the control strand goes from a phase to the next
(`ControlMove`), and so does one of the pinger's (`PingerMove`).
-/
namespace Whutfa.Keepalive

open Lifecycle (ErrorCode onPingRejected)

/-- How a ping promise is settled. -/
inductive Outcome
  | resolved
  | rejected (code : ErrorCode)
  deriving DecidableEq

/-- The pinger's timer: no wait, a wait that may end, or one that `timer_.cancel()`
found outstanding. -/
inductive Timer
  | idle
  | waiting
  | cancelled
  deriving DecidableEq

/-- A `Pinger` object.  The counters are 32-bit `int`s; promises are numbered. -/
structure Pinger where
  cancelled : Bool
  pings : Int32
  pongs : Int32
  promise : Option Nat
  timer : Timer
  deriving DecidableEq

/-- What is dispatched to the pinger's strand. -/
inductive PingerTask
  | ping (promise : Nat)
  | pong
  | cancel
  deriving DecidableEq

/-- What is dispatched to the control handler's strand. -/
inductive ControlTask
  /-- The part of `ControlHandler::start` that schedules the first ping. -/
  | start
  | resolved
  | rejected (code : ErrorCode)
  | stop
  deriving DecidableEq

/-- The pinger, the two strands, and what has been sent and received. -/
structure State where
  pinger : Pinger
  /-- How many ping promises have been made. -/
  made : Nat
  pingerTasks : List PingerTask
  controlTasks : List ControlTask
  /-- `Session::active`. -/
  active : Bool
  /-- `triggerQuit` has been called for a rejected ping. -/
  quit : Bool
  /-- The promises that have been settled, and how. -/
  settled : List (Nat × Outcome)
  /-- `PingRequest`s sent, `PingResponse`s that have arrived, and pongs that the pinger
  has processed. -/
  sent : Nat
  responses : Nat
  answered : Nat
  /-- For each expiry of the timer, how many sent requests were unanswered. -/
  expiries : List Nat
  /-- Expiries since the pinger last processed a pong. -/
  expiriesSinceAnswer : Nat
  deriving DecidableEq

/-- `ControlHandler::start` has been dispatched, and nothing else. -/
def initial : State :=
  { pinger := { cancelled := false, pings := 0, pongs := 0, promise := none, timer := .idle }
    made := 0
    pingerTasks := []
    controlTasks := [.start]
    active := true
    quit := false
    settled := []
    sent := 0
    responses := 0
    answered := 0
    expiries := []
    expiriesSinceAnswer := 0 }

/-- Sent requests whose answer the pinger has not processed. -/
def State.unanswered (s : State) : Nat := s.sent - s.answered

/-- The handler that the outcome posts. -/
def Outcome.task : Outcome → ControlTask
  | .resolved => .resolved
  | .rejected code => .rejected code

/-- `promise->resolve()` and `promise->reject(..)`: the first of them posts the handler
to the control strand. -/
def settle (s : State) (promise : Nat) (outcome : Outcome) : State :=
  if promise ∈ s.settled.map Prod.fst then s
  else { s with settled := s.settled ++ [(promise, outcome)]
                controlTasks := s.controlTasks ++ [outcome.task] }

/-- The task that `Pinger::ping` dispatches. -/
def ping (s : State) (promise : Nat) : State :=
  let s := { s with pinger := { s.pinger with cancelled := false } }
  match s.pinger.promise with
  | some held => settle s held (.rejected .operationInProgress)
  | none =>
      { s with pinger := { s.pinger with pings := s.pinger.pings + 1, promise := some promise,
                                         timer := .waiting } }

/-- The task that `Pinger::pong` dispatches. -/
def pong (s : State) : State :=
  { s with pinger := { s.pinger with pongs := s.pinger.pongs + 1 }
           answered := s.answered + 1
           expiriesSinceAnswer := 0 }

/-- The task that `Pinger::cancel` dispatches. -/
def cancel (s : State) : State :=
  { s with pinger := { s.pinger with
      cancelled := true
      timer := if s.pinger.timer = .waiting then .cancelled else s.pinger.timer } }

/-- `onTimerExceeded`: `aborted` is whether the wait ended with `operation_aborted`,
`noCode` the code of a default-constructed `Error`. -/
def onTimerExceeded (noCode : ErrorCode) (s : State) (aborted : Bool) : State :=
  match s.pinger.promise with
  | none => s
  | some promise =>
      let outcome :=
        if aborted ∨ s.pinger.cancelled then Outcome.rejected .operationAborted
        else if s.pinger.pings - s.pinger.pongs > 4 then .rejected noCode
        else .resolved
      let s := settle s promise outcome
      { s with pinger := { s.pinger with promise := none } }

/-- `ControlHandler::schedulePing`: a new promise, and a task for the pinger. -/
def schedulePing (s : State) : State :=
  { s with made := s.made + 1, pingerTasks := s.pingerTasks ++ [.ping s.made] }

/-- `ControlHandler::sendPing`. -/
def sendPing (s : State) : State := { s with sent := s.sent + 1 }

/-- A task of the control handler's strand. -/
def runControl (s : State) : ControlTask → State
  | .start => schedulePing s
  | .resolved => schedulePing (sendPing s)
  | .rejected code => { s with quit := s.quit || (onPingRejected code).quits }
  | .stop => { s with pingerTasks := s.pingerTasks ++ [.cancel] }

/-- A task of the pinger's strand. -/
def runPinger (s : State) : PingerTask → State
  | .ping promise => ping s promise
  | .pong => pong s
  | .cancel => cancel s

/-- What runs, ends or arrives next. -/
inductive Action
  /-- The control strand runs its next task. -/
  | control
  /-- The pinger's strand runs its next task. -/
  | pinger
  /-- The wait ends; with `operation_aborted` only if it has been cancelled. -/
  | timer (aborted : Bool)
  | pingResponse
  /-- `Session::stop`, from `on_quit` or elsewhere. -/
  | stop
  deriving DecidableEq

/-- One step; `none` if there is no such task or wait. -/
def step (noCode : ErrorCode) (s : State) : Action → Option State
  | .control =>
      match s.controlTasks with
      | [] => none
      | task :: rest => some (runControl { s with controlTasks := rest } task)
  | .pinger =>
      match s.pingerTasks with
      | [] => none
      | task :: rest => some (runPinger { s with pingerTasks := rest } task)
  | .timer aborted =>
      if s.pinger.timer = .idle ∨ (aborted ∧ s.pinger.timer ≠ .cancelled) then none
      else
        let t :=
          onTimerExceeded noCode { s with pinger := { s.pinger with timer := .idle } } aborted
        some (if aborted then t
          else { t with expiries := s.expiries ++ [s.unanswered]
                        expiriesSinceAnswer := s.expiriesSinceAnswer + 1 })
  | .pingResponse =>
      some { s with responses := s.responses + 1, pingerTasks := s.pingerTasks ++ [.pong] }
  | .stop =>
      some (if s.active then
        { s with active := false, controlTasks := s.controlTasks ++ [.stop]
                 pingerTasks := s.pingerTasks ++ [.cancel] }
      else s)

/-- The steps without cancellation, save the one that a quit brings with it, in which
a response answers a request that has been sent. -/
def answeringStep (noCode : ErrorCode) (s : State) (a : Action) : Option State :=
  if (a = .pingResponse ∧ s.sent ≤ s.responses) ∨ (a = .stop ∧ ¬ s.quit) then none
  else step noCode s a

/-! ## The strands -/

theorem step_control_iff {noCode : ErrorCode} {s t : State} :
    step noCode s .control = some t ↔ ∃ task rest, s.controlTasks = task :: rest ∧
      t = runControl { s with controlTasks := rest } task := by
  simp only [step]
  cases s.controlTasks with
  | nil => simp
  | cons task rest => simp [eq_comm]

theorem step_pinger_iff {noCode : ErrorCode} {s t : State} :
    step noCode s .pinger = some t ↔ ∃ task rest, s.pingerTasks = task :: rest ∧
      t = runPinger { s with pingerTasks := rest } task := by
  simp only [step]
  cases s.pingerTasks with
  | nil => simp
  | cons task rest => simp [eq_comm]

/-! ## The counters

They are 32-bit `int`s that wrap around; their difference is small. -/

/-- A counter that wraps around goes up with the number it counts. -/
theorem ofNat_add_one (n : Nat) : Int32.ofNat n + 1 = Int32.ofNat (n + 1) :=
  (Int32.ofNat_add n 1).symm

theorem ofNat_succ_sub (n d : Nat) : Int32.ofNat (n + d) - Int32.ofNat n = Int32.ofNat d := by
  rw [Int32.ofNat_add, Int32.add_comm, Int32.add_sub_cancel]

/-- **What the threshold means.**  While the pinger waits, `pings_` is one more than
the requests sent, and never more than five more than `pongs_`, so its comparison
counts the unanswered requests, however far the counters have wrapped around. -/
theorem expiry_threshold {sent answered : Nat} (hle : answered ≤ sent)
    (hbound : sent - answered ≤ 4) :
    Int32.ofNat (sent + 1) - Int32.ofNat answered > 4 ↔ 4 ≤ sent - answered := by
  obtain ⟨d, rfl⟩ := Nat.exists_eq_add_of_le hle
  rw [Nat.add_assoc, ofNat_succ_sub]
  rw [Nat.add_sub_cancel_left] at hbound ⊢
  interval_cases d <;> decide

/-! ## The pongs

Every response is answered, or its pong is queued; what a task does to that. -/

theorem tally_append {s : State} (h : s.answered + s.pingerTasks.count .pong = s.responses)
    {task : PingerTask} (hne : task ≠ .pong) :
    s.answered + (s.pingerTasks ++ [task]).count .pong = s.responses := by
  rw [List.count_append, List.count_singleton, if_neg (by simpa using hne), Nat.add_zero]
  exact h

theorem tally_cons {s : State} (h : s.answered + s.pingerTasks.count .pong = s.responses)
    {task : PingerTask} {rest : List PingerTask} (hs : s.pingerTasks = task :: rest)
    (hne : task ≠ .pong) : s.answered + rest.count .pong = s.responses := by
  rw [← h, hs, List.count_cons_of_ne hne]

theorem tally_pong {s : State} (h : s.answered + s.pingerTasks.count .pong = s.responses)
    {rest : List PingerTask} (hs : s.pingerTasks = .pong :: rest) :
    (s.answered + 1) + rest.count .pong = s.responses := by
  rw [← h, hs, List.count_cons_self]
  omega

theorem tally_respond {s : State} (h : s.answered + s.pingerTasks.count .pong = s.responses) :
    s.answered + (s.pingerTasks ++ [PingerTask.pong]).count .pong = s.responses + 1 := by
  rw [List.count_append, List.count_singleton_self, ← h]
  exact (Nat.add_assoc _ _ _).symm

/-! ## Where the loop is -/

/-- The loop runs from the control handler, which asks for a ping, to the pinger, which
waits, and back with the promise; it is in one of these places at a time. -/
inductive Phase
  | starting
  /-- `ping` is dispatched. -/
  | asked (promise : Nat)
  | waiting (promise : Nat)
  /-- The handler of the resolved promise is posted. -/
  | resolved
  /-- The handler of the rejected promise is posted. -/
  | timedOut
  | ended

namespace Phase

/-- The tasks of the control handler's strand. -/
def control (noCode : ErrorCode) : Phase → List ControlTask
  | starting => [.start]
  | resolved => [.resolved]
  | timedOut => [.rejected noCode]
  | asked _ | waiting _ | ended => []

/-- The pings among the tasks of the pinger's strand. -/
def pings : Phase → List Nat
  | asked promise => [promise]
  | _ => []

/-- `promise_`. -/
def promise : Phase → Option Nat
  | waiting promise => some promise
  | _ => none

/-- The timer. -/
def timer : Phase → Timer
  | waiting _ => .waiting
  | _ => .idle

/-- The promise that has been made and not been settled. -/
def open? : Phase → Option Nat
  | asked promise | waiting promise => some promise
  | _ => none

/-- No promise has been rejected. -/
def Running : Phase → Prop
  | timedOut | ended => False
  | _ => True

/-- What `pings_` is ahead of the requests sent. -/
def lead : Phase → Nat
  | waiting _ | resolved => 1
  | _ => 0

/-- What the expiries since the last answer may be ahead of the unanswered requests:
one, between an expiry and the request it leads to. -/
def credit : Phase → Nat
  | resolved => 1
  | _ => 0

end Phase

/-- The promise of a ping. -/
def PingerTask.ping? : PingerTask → Option Nat
  | ping promise => some promise
  | _ => none

/-- What an expiry that finds `unanswered` requests unanswered does to the promise. -/
def outcomeAt (noCode : ErrorCode) (unanswered : Nat) : Outcome :=
  if 4 ≤ unanswered then .rejected noCode else .resolved

/-- The tasks, the timer and the promise of each phase. -/
structure Places (noCode : ErrorCode) (s : State) (ph : Phase) : Prop where
  control : s.controlTasks.filter (· ≠ .stop) = ph.control noCode
  pings : s.pingerTasks.filterMap PingerTask.ping? = ph.pings
  promise : s.pinger.promise = ph.promise
  timer : s.pinger.timer = ph.timer
  quit : s.quit = true ↔ ph = .ended
  undisturbed : s.quit = false →
    s.pinger.cancelled = false ∧ .cancel ∉ s.pingerTasks ∧ .stop ∉ s.controlTasks
  settled_lt : ∀ o ∈ s.settled, o.1 < s.made
  open_fresh : ∀ p, ph.open? = some p → p < s.made ∧ ∀ o ∈ s.settled, o.1 < p

/-- The counters and the history in each phase. -/
structure Counts (noCode : ErrorCode) (s : State) (ph : Phase) : Prop where
  pongs : s.pinger.pongs = Int32.ofNat s.answered
  tally : s.answered + s.pingerTasks.count .pong = s.responses
  responses_le : s.responses ≤ s.sent
  pings : ph.Running → s.pinger.pings = Int32.ofNat (s.sent + ph.lead)
  unanswered_le : ph.Running → s.unanswered + ph.credit ≤ 4
  since_le : ph.Running → s.expiriesSinceAnswer ≤ s.unanswered + ph.credit
  expiries_lt : ph.Running → ∀ n ∈ s.expiries, n < 4
  expiries_ge : ¬ ph.Running → ∃ n ∈ s.expiries, 4 ≤ n
  outcomes : s.settled.map Prod.snd = s.expiries.map (outcomeAt noCode)

/-- The loop is at one of its phases, and the counters fit it. -/
def Inv (noCode : ErrorCode) (s : State) : Prop :=
  ∃ ph, Places noCode s ph ∧ Counts noCode s ph

theorem inv_initial (noCode : ErrorCode) : Inv noCode initial := by
  refine ⟨.starting, ?_, ?_⟩
  · exact {
      control := rfl
      pings := rfl
      promise := rfl
      timer := rfl
      quit := ⟨nofun, nofun⟩
      undisturbed := fun _ => ⟨rfl, nofun, by decide⟩
      settled_lt := nofun
      open_fresh := nofun }
  · exact {
      pongs := rfl
      tally := rfl
      responses_le := Nat.le_refl 0
      pings := fun _ => rfl
      unanswered_le := fun _ => Nat.zero_le 4
      since_le := fun _ => Nat.zero_le _
      expiries_lt := fun _ => nofun
      expiries_ge := fun h => absurd trivial h
      outcomes := rfl }

/-! ## The control strand -/

/-- A `stop` is posted only once the session has quit. -/
theorem Places.quit_of_stop {noCode : ErrorCode} {s : State} {ph : Phase}
    (h : Places noCode s ph) (hstop : .stop ∈ s.controlTasks) : s.quit = true := by
  by_cases hquit : s.quit = true
  · exact hquit
  · exact absurd hstop (h.undisturbed (Bool.eq_false_of_not_eq_true hquit)).2.2

theorem Places.quit_of_cancel {noCode : ErrorCode} {s : State} {ph : Phase}
    (h : Places noCode s ph) (hcancel : .cancel ∈ s.pingerTasks) : s.quit = true := by
  by_cases hquit : s.quit = true
  · exact hquit
  · exact absurd hcancel (h.undisturbed (Bool.eq_false_of_not_eq_true hquit)).2.1

/-- The next task of the control strand is a `stop`, or the one of the phase. -/
theorem Places.control_cons {noCode : ErrorCode} {s : State} {ph : Phase} {task : ControlTask}
    {rest : List ControlTask} (h : Places noCode s ph) (hs : s.controlTasks = task :: rest) :
    (task = .stop ∧ rest.filter (· ≠ .stop) = ph.control noCode ∧ ph = .ended) ∨
      (ph.control noCode = [task] ∧ rest.filter (· ≠ .stop) = []) := by
  have hcontrol := h.control
  by_cases htask : task = .stop
  · subst htask
    have hended := h.quit.mp (h.quit_of_stop (hs ▸ List.mem_cons_self))
    rw [hs, List.filter_cons_of_neg (by decide)] at hcontrol
    exact Or.inl ⟨rfl, hcontrol, hended⟩
  · rw [hs, List.filter_cons_of_pos (by simpa using htask)] at hcontrol
    cases ph with
    | starting | resolved | timedOut =>
      injection hcontrol with hhead htail
      subst hhead
      exact Or.inr ⟨rfl, htail⟩
    | asked _ | waiting _ | ended => cases hcontrol

/-- `schedulePing`, with or without a `sendPing` before it, leads to a ping that has
been asked for. -/
theorem Places.schedule {noCode : ErrorCode} {s : State} {ph : Phase} {rest : List ControlTask}
    (h : Places noCode s ph) (hpings : ph.pings = []) (hpromise : ph.promise = none)
    (htimer : ph.timer = .idle) (hquit : s.quit = false) (hrest : rest.filter (· ≠ .stop) = [])
    (hsub : ∀ task ∈ rest, task ∈ s.controlTasks) (sent : Nat) :
    Places noCode (schedulePing { s with controlTasks := rest, sent }) (.asked s.made) where
  control := hrest
  pings := by
    show (s.pingerTasks ++ [PingerTask.ping s.made]).filterMap PingerTask.ping? = [s.made]
    rw [List.filterMap_append, h.pings, hpings]
    rfl
  promise := h.promise.trans hpromise
  timer := h.timer.trans htimer
  quit := ⟨fun hq => absurd (hquit.symm.trans hq) nofun, nofun⟩
  undisturbed := fun _ => by
    obtain ⟨hcancelled, hcancel, hstop⟩ := h.undisturbed hquit
    refine ⟨hcancelled, fun hmem => ?_, fun hmem => hstop (hsub _ hmem)⟩
    rcases List.mem_append.mp hmem with hmem | hmem
    · exact hcancel hmem
    · cases List.mem_singleton.mp hmem
  settled_lt := fun o ho => Nat.lt_succ_of_lt (h.settled_lt o ho)
  open_fresh := fun p hp => by
    cases hp
    exact ⟨Nat.lt_succ_self _, h.settled_lt⟩

theorem Counts.start {noCode : ErrorCode} {s : State} {rest : List ControlTask}
    (h : Counts noCode s .starting) :
    Counts noCode (schedulePing { s with controlTasks := rest }) (.asked s.made) :=
  { h with tally := tally_append h.tally nofun }

/-- The request is sent: the answers that are due go up by one, and the expiry that
led to it is counted. -/
theorem Counts.send {noCode : ErrorCode} {s : State} {rest : List ControlTask}
    (h : Counts noCode s .resolved) :
    Counts noCode (schedulePing (sendPing { s with controlTasks := rest })) (.asked s.made) := by
  have hunanswered : (s.sent + 1) - s.answered = s.unanswered + 1 := by
    have := h.tally
    have := h.responses_le
    unfold State.unanswered
    omega
  exact { h with
    tally := tally_append h.tally nofun
    responses_le := Nat.le_succ_of_le h.responses_le
    unanswered_le := fun hrun => by
      show (s.sent + 1) - s.answered ≤ 4
      rw [hunanswered]
      exact h.unanswered_le hrun
    since_le := fun hrun => by
      show s.expiriesSinceAnswer ≤ (s.sent + 1) - s.answered
      rw [hunanswered]
      exact h.since_le hrun }

/-- The rejection of a timed-out ping reaches the control handler, which quits. -/
theorem Places.rejected {noCode : ErrorCode} {s : State} {rest : List ControlTask}
    (h : Places noCode s .timedOut) (hquits : (onPingRejected noCode).quits = true)
    (hrest : rest.filter (· ≠ .stop) = []) :
    Places noCode (runControl { s with controlTasks := rest } (.rejected noCode)) .ended := by
  have hquit : (s.quit || (onPingRejected noCode).quits) = true := by
    rw [hquits, Bool.or_true]
  exact { h with
    control := hrest
    quit := ⟨fun _ => rfl, fun _ => hquit⟩
    undisturbed := fun hq => absurd (hquit.symm.trans hq) nofun
    open_fresh := nofun }

theorem Counts.rejected {noCode : ErrorCode} {s : State} {rest : List ControlTask} {quit : Bool}
    (h : Counts noCode s .timedOut) :
    Counts noCode { s with controlTasks := rest, quit } .ended :=
  { h with pings := nofun, unanswered_le := nofun, since_le := nofun, expiries_lt := nofun }

/-- After the end, tasks that stop and cancel change nothing. -/
theorem Places.stopping {noCode : ErrorCode} {s : State} (h : Places noCode s .ended)
    {control : List ControlTask} (hcontrol : control.filter (· ≠ .stop) = []) (active : Bool) :
    Places noCode { s with active, controlTasks := control
                           pingerTasks := s.pingerTasks ++ [.cancel] } .ended :=
  { h with
    control := hcontrol
    pings := by
      show (s.pingerTasks ++ [PingerTask.cancel]).filterMap PingerTask.ping? = []
      rw [List.filterMap_append, h.pings]
      rfl
    undisturbed := fun hq => absurd ((h.quit.mpr rfl).symm.trans hq) nofun }

theorem Counts.stopping {noCode : ErrorCode} {s : State} {ph : Phase} (h : Counts noCode s ph)
    (control : List ControlTask) (active : Bool) :
    Counts noCode { s with active, controlTasks := control
                           pingerTasks := s.pingerTasks ++ [.cancel] } ph :=
  { h with tally := tally_append h.tally nofun }

/-- What the control strand runs in each phase, and the phase that it leads to. -/
inductive ControlMove (noCode : ErrorCode) (s : State) : State → Phase → Phase → Prop
  | start (rest : List ControlTask) :
      ControlMove noCode s (schedulePing { s with controlTasks := rest }) .starting (.asked s.made)
  | resolved (rest : List ControlTask) :
      ControlMove noCode s (schedulePing (sendPing { s with controlTasks := rest })) .resolved
        (.asked s.made)
  | rejected (rest : List ControlTask) :
      ControlMove noCode s (runControl { s with controlTasks := rest } (.rejected noCode)) .timedOut
        .ended
  | stop (rest : List ControlTask) :
      ControlMove noCode s (runControl { s with controlTasks := rest } .stop) .ended .ended

theorem Places.control_move {noCode : ErrorCode} {s t : State} {ph : Phase}
    (hquits : (onPingRejected noCode).quits = true) (h : Places noCode s ph)
    (hstep : step noCode s .control = some t) :
    ∃ ph', Places noCode t ph' ∧ ControlMove noCode s t ph ph' := by
  obtain ⟨task, rest, htasks, rfl⟩ := step_control_iff.mp hstep
  have hsub : ∀ task ∈ rest, task ∈ s.controlTasks := fun task htask =>
    htasks ▸ List.mem_cons_of_mem _ htask
  have hnot : ph ≠ .ended → s.quit = false := fun hne =>
    Bool.eq_false_of_not_eq_true fun hq => hne (h.quit.mp hq)
  rcases h.control_cons htasks with ⟨rfl, hrest, rfl⟩ | ⟨hcontrol, hrest⟩
  · exact ⟨.ended, h.stopping hrest _, .stop rest⟩
  · cases ph with
    | starting =>
      cases hcontrol
      exact ⟨.asked s.made, h.schedule rfl rfl rfl (hnot nofun) hrest hsub _, .start rest⟩
    | resolved =>
      cases hcontrol
      exact ⟨.asked s.made, h.schedule rfl rfl rfl (hnot nofun) hrest hsub _, .resolved rest⟩
    | timedOut =>
      cases hcontrol
      exact ⟨.ended, h.rejected hquits hrest, .rejected rest⟩
    | asked _ | waiting _ | ended => cases hcontrol

theorem inv_control {noCode : ErrorCode} {s t : State}
    (hquits : (onPingRejected noCode).quits = true) (h : Inv noCode s)
    (hstep : step noCode s .control = some t) : Inv noCode t := by
  obtain ⟨ph, hplaces, hcounts⟩ := h
  obtain ⟨ph', hplaces', hmove⟩ := hplaces.control_move hquits hstep
  refine ⟨ph', hplaces', ?_⟩
  cases hmove with
  | start => exact hcounts.start
  | resolved => exact hcounts.send
  | rejected => exact hcounts.rejected
  | stop => exact hcounts.stopping _ _

/-! ## The pinger's strand -/

theorem Places.pinger_cons {noCode : ErrorCode} {s : State} {ph : Phase} {task : PingerTask}
    {rest : List PingerTask} (h : Places noCode s ph) (hs : s.pingerTasks = task :: rest)
    (htask : task.ping? = none) : rest.filterMap PingerTask.ping? = ph.pings := by
  rw [← h.pings, hs, List.filterMap_cons_none htask]

/-- What a task of the pinger's strand that is no ping leaves as it was. -/
theorem Places.run {noCode : ErrorCode} {s : State} {ph : Phase} {task : PingerTask}
    {rest : List PingerTask} (h : Places noCode s ph) (hs : s.pingerTasks = task :: rest)
    (htask : task.ping? = none) {pinger : Pinger} {answered since : Nat}
    (hpromise : pinger.promise = s.pinger.promise) (htimer : pinger.timer = s.pinger.timer)
    (hcancelled : s.quit = false → pinger.cancelled = s.pinger.cancelled) :
    Places noCode { s with pinger, answered, expiriesSinceAnswer := since
                           pingerTasks := rest } ph :=
  { h with
    pings := h.pinger_cons hs htask
    promise := hpromise.trans h.promise
    timer := htimer.trans h.timer
    undisturbed := fun hq => by
      obtain ⟨hnot, hcancel, hstop⟩ := h.undisturbed hq
      exact ⟨(hcancelled hq).trans hnot,
        fun hmem => hcancel (hs ▸ List.mem_cons_of_mem _ hmem), hstop⟩ }

theorem ping_of_none {s : State} (h : s.pinger.promise = none) (p : Nat) :
    ping s p = { s with pinger := { s.pinger with cancelled := false, timer := .waiting
                                                  pings := s.pinger.pings + 1
                                                  promise := some p } } := by
  simp only [ping, h]

/-- The pinger takes up the ping that was asked for, and waits. -/
theorem Places.ping {noCode : ErrorCode} {s : State} {p : Nat} {rest : List PingerTask}
    (h : Places noCode s (.asked p)) (hs : s.pingerTasks = .ping p :: rest) :
    Places noCode (ping { s with pingerTasks := rest } p) (.waiting p) := by
  have hpings : p :: rest.filterMap PingerTask.ping? = [p] := by
    rw [← List.filterMap_cons_some (f := PingerTask.ping?) (a := .ping p) rfl, ← hs]
    exact h.pings
  rw [ping_of_none (s := { s with pingerTasks := rest }) h.promise]
  exact { h with
    pings := (List.cons.inj hpings).2
    promise := rfl
    timer := rfl
    quit := ⟨fun hq => absurd (h.quit.mp hq) nofun, nofun⟩
    undisturbed := fun hq => by
      obtain ⟨-, hcancel, hstop⟩ := h.undisturbed hq
      exact ⟨rfl, fun hmem => hcancel (hs ▸ List.mem_cons_of_mem _ hmem), hstop⟩ }

theorem Counts.ping {noCode : ErrorCode} {s : State} {p : Nat} {rest : List PingerTask}
    (h : Counts noCode s (.asked p)) (hpromise : s.pinger.promise = none)
    (hs : s.pingerTasks = .ping p :: rest) :
    Counts noCode (ping { s with pingerTasks := rest } p) (.waiting p) := by
  have hpings : s.pinger.pings + 1 = Int32.ofNat (s.sent + 1) := by
    rw [h.pings trivial]
    exact ofNat_add_one s.sent
  rw [ping_of_none (s := { s with pingerTasks := rest }) hpromise]
  exact { h with tally := tally_cons h.tally hs nofun, pings := fun _ => hpings }

/-- A pong that is processed answers a request that was unanswered. -/
theorem Counts.pong {noCode : ErrorCode} {s : State} {ph : Phase} {rest : List PingerTask}
    (h : Counts noCode s ph) (hs : s.pingerTasks = .pong :: rest) :
    Counts noCode (pong { s with pingerTasks := rest }) ph := by
  have hpongs : s.pinger.pongs + 1 = Int32.ofNat (s.answered + 1) := by
    rw [h.pongs]
    exact ofNat_add_one s.answered
  exact { h with
    pongs := hpongs
    tally := tally_pong h.tally hs
    unanswered_le := fun hrun => by
      have hle := h.unanswered_le hrun
      unfold State.unanswered at hle
      show s.sent - (s.answered + 1) + ph.credit ≤ 4
      omega
    since_le := fun _ => Nat.zero_le _ }

/-- What the pinger's strand runs in each phase, and the phase that it leads to. -/
inductive PingerMove (s : State) : State → Phase → Phase → Prop
  | ping (p : Nat) (rest : List PingerTask) (tasks : s.pingerTasks = .ping p :: rest) :
      PingerMove s (ping { s with pingerTasks := rest } p) (.asked p) (.waiting p)
  | pong (ph : Phase) (rest : List PingerTask) (tasks : s.pingerTasks = .pong :: rest) :
      PingerMove s (pong { s with pingerTasks := rest }) ph ph
  | cancel (rest : List PingerTask) (tasks : s.pingerTasks = .cancel :: rest) :
      PingerMove s (cancel { s with pingerTasks := rest }) .ended .ended

theorem Places.pinger_move {noCode : ErrorCode} {s t : State} {ph : Phase}
    (h : Places noCode s ph) (hstep : step noCode s .pinger = some t) :
    ∃ ph', Places noCode t ph' ∧ PingerMove s t ph ph' := by
  obtain ⟨task, rest, htasks, rfl⟩ := step_pinger_iff.mp hstep
  cases task with
  | ping p =>
    have hpings := h.pings
    rw [htasks, List.filterMap_cons_some (f := PingerTask.ping?) (a := .ping p) rfl] at hpings
    cases ph with
    | asked q =>
      obtain rfl : p = q := (List.cons.inj hpings).1
      exact ⟨.waiting p, h.ping htasks, .ping p rest htasks⟩
    | starting | waiting _ | resolved | timedOut | ended => cases hpings
  | pong => exact ⟨ph, h.run htasks rfl rfl rfl fun _ => rfl, .pong ph rest htasks⟩
  | cancel =>
    have hquit := h.quit_of_cancel (htasks ▸ List.mem_cons_self)
    obtain rfl := h.quit.mp hquit
    have htimer : (if s.pinger.timer = .waiting then Timer.cancelled else s.pinger.timer) =
        s.pinger.timer := if_neg (by rw [h.timer]; nofun)
    refine ⟨.ended, ?_, .cancel rest htasks⟩
    exact h.run htasks rfl rfl htimer fun hq => absurd (hquit.symm.trans hq) nofun

theorem inv_pinger {noCode : ErrorCode} {s t : State} (h : Inv noCode s)
    (hstep : step noCode s .pinger = some t) : Inv noCode t := by
  obtain ⟨ph, hplaces, hcounts⟩ := h
  obtain ⟨ph', hplaces', hmove⟩ := hplaces.pinger_move hstep
  refine ⟨ph', hplaces', ?_⟩
  cases hmove with
  | ping p rest htasks => exact hcounts.ping hplaces.promise htasks
  | pong _ rest htasks => exact hcounts.pong htasks
  | cancel rest htasks =>
    exact { hcounts with tally := tally_cons hcounts.tally htasks nofun, pings := nofun }

/-! ## The expiry

Where the comparison is made, and the promise settled. -/

/-- A promise that has not been settled is, and its handler is posted. -/
theorem settle_of_fresh {s : State} {p : Nat} (h : ∀ o ∈ s.settled, o.1 < p) (o : Outcome) :
    settle s p o = { s with settled := s.settled ++ [(p, o)]
                            controlTasks := s.controlTasks ++ [o.task] } := by
  refine if_neg fun hmem => ?_
  obtain ⟨q, hq, hp⟩ := List.mem_map.mp hmem
  exact Nat.lt_irrefl p (hp ▸ h q hq)

theorem onTimerExceeded_of_promise (noCode : ErrorCode) {s : State} {p : Nat}
    (hpromise : s.pinger.promise = some p) (hcancelled : s.pinger.cancelled = false)
    (hfresh : ∀ o ∈ s.settled, o.1 < p) {o : Outcome}
    (ho : (if s.pinger.pings - s.pinger.pongs > 4 then .rejected noCode else .resolved) = o) :
    onTimerExceeded noCode s false =
      { s with settled := s.settled ++ [(p, o)], controlTasks := s.controlTasks ++ [o.task]
               pinger := { s.pinger with promise := none } } := by
  simp only [onTimerExceeded, hpromise]
  rw [settle_of_fresh hfresh, hcancelled, if_neg (by decide), ho]

/-- The phase after an expiry, and the task that it posts. -/
def expired (unanswered : Nat) : Phase := if 4 ≤ unanswered then .timedOut else .resolved

theorem control_expired (noCode : ErrorCode) (n : Nat) :
    (expired n).control noCode = [(outcomeAt noCode n).task] := by
  unfold expired outcomeAt
  split <;> rfl

/-- An expiry of a pinger that waits; `n` is any number that is four or more when the
pinger's comparison holds. -/
theorem expiry_of_waiting {noCode : ErrorCode} {s t : State} {p n : Nat} {aborted : Bool}
    (hplaces : Places noCode s (.waiting p)) (hstep : step noCode s (.timer aborted) = some t)
    (hn : s.pinger.pings - s.pinger.pongs > 4 ↔ 4 ≤ n) :
    t = { s with settled := s.settled ++ [(p, outcomeAt noCode n)]
                 controlTasks := s.controlTasks ++ [(outcomeAt noCode n).task]
                 pinger := { s.pinger with promise := none, timer := .idle }
                 expiries := s.expiries ++ [s.unanswered]
                 expiriesSinceAnswer := s.expiriesSinceAnswer + 1 } := by
  obtain ⟨hguard, ht⟩ := Option.ite_none_left_eq_some.mp hstep
  have htimer : s.pinger.timer = .waiting := hplaces.timer
  have haborted : aborted = false := Bool.eq_false_of_not_eq_true fun h =>
    hguard (Or.inr ⟨h, by rw [htimer]; nofun⟩)
  subst haborted
  have hnotquit : s.quit = false := Bool.eq_false_of_not_eq_true fun h =>
    absurd (hplaces.quit.mp h) nofun
  have hcancelled := (hplaces.undisturbed hnotquit).1
  have hexceeded := onTimerExceeded_of_promise noCode
    (s := { s with pinger := { s.pinger with timer := .idle } }) hplaces.promise hcancelled
    (hplaces.open_fresh p rfl).2 (if_congr hn rfl rfl)
  exact (Option.some.inj ht).symm.trans (congrArg (fun u : State =>
    { u with expiries := s.expiries ++ [s.unanswered]
             expiriesSinceAnswer := s.expiriesSinceAnswer + 1 }) hexceeded)

/-- Where requests are answered at most once, the number of unanswered requests decides. -/
theorem step_timer {noCode : ErrorCode} {s t : State} {p : Nat} {aborted : Bool}
    (hplaces : Places noCode s (.waiting p)) (hcounts : Counts noCode s (.waiting p))
    (hstep : step noCode s (.timer aborted) = some t) :
    t = { s with settled := s.settled ++ [(p, outcomeAt noCode s.unanswered)]
                 controlTasks := s.controlTasks ++ [(outcomeAt noCode s.unanswered).task]
                 pinger := { s.pinger with promise := none, timer := .idle }
                 expiries := s.expiries ++ [s.unanswered]
                 expiriesSinceAnswer := s.expiriesSinceAnswer + 1 } := by
  have hle : s.answered ≤ s.sent := by
    have := hcounts.tally
    have := hcounts.responses_le
    omega
  have hthreshold : s.pinger.pings - s.pinger.pongs > 4 ↔ 4 ≤ s.unanswered := by
    rw [hcounts.pings trivial, hcounts.pongs]
    exact expiry_threshold hle (hcounts.unanswered_le trivial)
  exact expiry_of_waiting hplaces hstep hthreshold

theorem Places.expire {noCode : ErrorCode} {s : State} {p : Nat}
    (h : Places noCode s (.waiting p)) (n : Nat) (expiries : List Nat) (since : Nat) :
    Places noCode { s with settled := s.settled ++ [(p, outcomeAt noCode n)]
                           controlTasks := s.controlTasks ++ [(outcomeAt noCode n).task]
                           pinger := { s.pinger with promise := none, timer := .idle }
                           expiries, expiriesSinceAnswer := since } (expired n) where
  control := by
    show (s.controlTasks ++ [(outcomeAt noCode n).task]).filter (· ≠ .stop) = _
    rw [List.filter_append, h.control, control_expired]
    unfold outcomeAt
    split <;> rfl
  pings := h.pings.trans (by unfold expired; split <;> rfl)
  promise := by unfold expired; split <;> rfl
  timer := by unfold expired; split <;> rfl
  quit := by
    refine ⟨fun hq => absurd (h.quit.mp hq) nofun, fun hended => ?_⟩
    unfold expired at hended
    split at hended <;> cases hended
  undisturbed := fun hq => by
    obtain ⟨hcancelled, hcancel, hstop⟩ := h.undisturbed hq
    refine ⟨hcancelled, hcancel, fun hmem => ?_⟩
    rcases List.mem_append.mp hmem with hmem | hmem
    · exact hstop hmem
    · unfold outcomeAt at hmem
      split at hmem <;> cases List.mem_singleton.mp hmem
  settled_lt := by
    obtain ⟨hp, -⟩ := h.open_fresh p rfl
    intro o ho
    rcases List.mem_append.mp ho with ho | ho
    · exact h.settled_lt o ho
    · rw [List.mem_singleton.mp ho]
      exact hp
  open_fresh := by
    intro q hq
    unfold expired at hq
    split at hq <;> cases hq

theorem Counts.expire {noCode : ErrorCode} {s : State} {p : Nat} (h : Counts noCode s (.waiting p))
    (control : List ControlTask) (pinger : Pinger) (hpings : pinger.pings = s.pinger.pings)
    (hpongs : pinger.pongs = s.pinger.pongs) :
    Counts noCode { s with settled := s.settled ++ [(p, outcomeAt noCode s.unanswered)]
                           controlTasks := control, pinger
                           expiries := s.expiries ++ [s.unanswered]
                           expiriesSinceAnswer := s.expiriesSinceAnswer + 1 }
      (expired s.unanswered) := by
  have houtcomes : (s.settled ++ [(p, outcomeAt noCode s.unanswered)]).map Prod.snd =
      (s.expiries ++ [s.unanswered]).map (outcomeAt noCode) := by
    rw [List.map_append, List.map_append, h.outcomes]
    rfl
  by_cases hn : 4 ≤ s.unanswered
  · have hphase : expired s.unanswered = .timedOut := if_pos hn
    rw [hphase]
    exact { h with
      pongs := hpongs.trans h.pongs
      pings := nofun
      unanswered_le := nofun
      since_le := nofun
      expiries_lt := nofun
      expiries_ge := fun _ =>
        ⟨s.unanswered, List.mem_append_right _ (List.mem_singleton_self _), hn⟩
      outcomes := houtcomes }
  · have hphase : expired s.unanswered = .resolved := if_neg hn
    rw [hphase]
    exact { h with
      pongs := hpongs.trans h.pongs
      pings := fun _ => hpings.trans (h.pings trivial)
      unanswered_le := fun _ => Nat.lt_of_not_le hn
      since_le := fun _ => Nat.succ_le_succ (h.since_le trivial)
      expiries_lt := fun _ n hmem => by
        rcases List.mem_append.mp hmem with hmem | hmem
        · exact h.expiries_lt trivial n hmem
        · rw [List.mem_singleton.mp hmem]
          exact Nat.lt_of_not_le hn
      expiries_ge := fun hnot => absurd trivial hnot
      outcomes := houtcomes }

/-- Only a pinger that waits has a timer that can expire. -/
theorem Places.waiting_of_timer {noCode : ErrorCode} {s t : State} {ph : Phase} {aborted : Bool}
    (h : Places noCode s ph) (hstep : step noCode s (.timer aborted) = some t) :
    ∃ p, ph = .waiting p := by
  obtain ⟨hguard, -⟩ := Option.ite_none_left_eq_some.mp hstep
  have hidle : ph.timer ≠ .idle := fun heq => hguard (Or.inl (h.timer.trans heq))
  cases ph with
  | waiting p => exact ⟨p, rfl⟩
  | starting | asked _ | resolved | timedOut | ended => exact absurd rfl hidle

theorem inv_timer {noCode : ErrorCode} {s t : State} {aborted : Bool} (h : Inv noCode s)
    (hstep : step noCode s (.timer aborted) = some t) : Inv noCode t := by
  obtain ⟨ph, hplaces, hcounts⟩ := h
  obtain ⟨p, rfl⟩ := hplaces.waiting_of_timer hstep
  rw [step_timer hplaces hcounts hstep]
  exact ⟨expired s.unanswered, hplaces.expire s.unanswered _ _, hcounts.expire _ _ rfl rfl⟩

/-! ## Responses and the stop -/

theorem Places.respond {noCode : ErrorCode} {s : State} {ph : Phase} (h : Places noCode s ph)
    (responses : Nat) :
    Places noCode { s with responses, pingerTasks := s.pingerTasks ++ [.pong] } ph :=
  { h with
    pings := by
      show (s.pingerTasks ++ [PingerTask.pong]).filterMap PingerTask.ping? = ph.pings
      rw [List.filterMap_append, h.pings]
      exact List.append_nil _
    undisturbed := fun hq => by
      obtain ⟨hcancelled, hcancel, hstop⟩ := h.undisturbed hq
      refine ⟨hcancelled, fun hmem => ?_, hstop⟩
      rcases List.mem_append.mp hmem with hmem | hmem
      · exact hcancel hmem
      · cases List.mem_singleton.mp hmem }

theorem inv_pingResponse {noCode : ErrorCode} {s t : State} (h : Inv noCode s)
    (hdue : s.responses < s.sent) (hstep : step noCode s .pingResponse = some t) :
    Inv noCode t := by
  obtain ⟨ph, hplaces, hcounts⟩ := h
  obtain rfl := Option.some.inj hstep
  exact ⟨ph, hplaces.respond _,
    { hcounts with tally := tally_respond hcounts.tally, responses_le := hdue }⟩

theorem inv_stop {noCode : ErrorCode} {s t : State} (h : Inv noCode s) (hquit : s.quit = true)
    (hstep : step noCode s .stop = some t) : Inv noCode t := by
  obtain ⟨ph, hplaces, hcounts⟩ := h
  obtain rfl := hplaces.quit.mp hquit
  obtain rfl := Option.some.inj hstep
  split
  · refine ⟨.ended, hplaces.stopping ?_ _, hcounts.stopping _ _⟩
    rw [List.filter_append, hplaces.control]
    rfl
  · exact ⟨.ended, hplaces, hcounts⟩

theorem inv_step {noCode : ErrorCode} (hquits : (onPingRejected noCode).quits = true)
    {s t : State} {a : Action} (h : Inv noCode s)
    (hstep : answeringStep noCode s a = some t) : Inv noCode t := by
  obtain ⟨hguard, hstep⟩ := Option.ite_none_left_eq_some.mp hstep
  cases a with
  | control => exact inv_control hquits h hstep
  | pinger => exact inv_pinger h hstep
  | timer aborted => exact inv_timer h hstep
  | pingResponse =>
    exact inv_pingResponse h (Nat.lt_of_not_le fun hle => hguard (Or.inl ⟨rfl, hle⟩)) hstep
  | stop =>
    refine inv_stop h ?_ hstep
    exact Classical.byContradiction fun hquit => hguard (Or.inr ⟨rfl, hquit⟩)

/-- The session has been told to quit by a timeout, or its ping promise is rejected and
the handler that tells it to is posted. -/
def Dropped (noCode : ErrorCode) (s : State) : Prop :=
  s.quit = true ∨ .rejected noCode ∈ s.controlTasks

theorem Places.dropped_iff {noCode : ErrorCode} {s : State} {ph : Phase}
    (h : Places noCode s ph) : Dropped noCode s ↔ ¬ ph.Running := by
  have hmem : .rejected noCode ∈ s.controlTasks ↔ .rejected noCode ∈ ph.control noCode := by
    rw [← h.control, List.mem_filter]
    exact ⟨fun hm => ⟨hm, rfl⟩, fun hm => hm.1⟩
  unfold Dropped
  rw [h.quit, hmem]
  cases ph <;> simp [Phase.control, Phase.Running]

theorem quits_of_ne {noCode : ErrorCode} (hnotAborted : noCode ≠ .operationAborted)
    (hnotInProgress : noCode ≠ .operationInProgress) : (onPingRejected noCode).quits = true := by
  simp [onPingRejected, hnotAborted, hnotInProgress]

/-- The handler of a rejection that is posted tells the session to quit. -/
theorem quit_of_rejected {noCode : ErrorCode} (hquits : (onPingRejected noCode).quits = true)
    {s t : State} (hhead : s.controlTasks.head? = some (.rejected noCode))
    (hstep : step noCode s .control = some t) : t.quit = true := by
  obtain ⟨task, rest, htasks, rfl⟩ := step_control_iff.mp hstep
  obtain rfl : task = .rejected noCode := by
    rw [htasks] at hhead
    exact Option.some.inj hhead
  show (s.quit || (onPingRejected noCode).quits) = true
  rw [hquits, Bool.or_true]

/-- **The keepalive loop drops exactly the phone that leaves four requests unanswered.**
In every run, with expiries and answers in any order and every request answered at most
once: at an expiry the ping promise is rejected if four or more requests are unanswered
and resolved otherwise; the session is dropped exactly when some expiry has found that
many, its handler tells it to quit when it runs, and an expiry that is the fifth since
the last answer has dropped it. -/
theorem dropped_iff_four_unanswered {noCode : ErrorCode} (hnotAborted : noCode ≠ .operationAborted)
    (hnotInProgress : noCode ≠ .operationInProgress) {s : State}
    (h : Transition.Reachable (answeringStep noCode) (· = initial) s) :
    s.settled.map Prod.snd =
        s.expiries.map (fun n => if 4 ≤ n then .rejected noCode else .resolved) ∧
      (∀ t, step noCode s (.timer false) = some t →
        t.expiries = s.expiries ++ [s.unanswered] ∧
          (Dropped noCode t ↔ 4 ≤ s.unanswered)) ∧
      (Dropped noCode s ↔ ∃ n ∈ s.expiries, 4 ≤ n) ∧
      (∀ t, s.controlTasks.head? = some (.rejected noCode) →
        step noCode s .control = some t → t.quit = true) ∧
      (5 ≤ s.expiriesSinceAnswer → Dropped noCode s) := by
  have hquits := quits_of_ne hnotAborted hnotInProgress
  obtain ⟨ph, hplaces, hcounts⟩ : Inv noCode s :=
    h.invariant_from (inv_initial noCode) fun _ _ _ hs hstep => inv_step hquits hs hstep
  refine ⟨hcounts.outcomes, fun t ht => ?_, ?_, fun t => quit_of_rejected hquits, fun hfive => ?_⟩
  · obtain ⟨p, rfl⟩ := hplaces.waiting_of_timer ht
    rw [step_timer hplaces hcounts ht]
    refine ⟨rfl, (hplaces.expire s.unanswered _ _).dropped_iff.trans ?_⟩
    unfold expired
    split <;> simp_all [Phase.Running]
  · rw [hplaces.dropped_iff]
    refine ⟨hcounts.expiries_ge, fun ⟨n, hn, hfour⟩ hrun => ?_⟩
    exact absurd (hcounts.expiries_lt hrun n hn) (Nat.not_lt.mpr hfour)
  · rw [hplaces.dropped_iff]
    intro hrun
    have hsince := hcounts.since_le hrun
    have hunanswered := hcounts.unanswered_le hrun
    omega

/-- Five times around the loop without an answer. -/
def silence : List Action :=
  [.control, .pinger, .timer false, .control, .pinger, .timer false, .control, .pinger,
   .timer false, .control, .pinger, .timer false, .control, .pinger, .timer false]

/-- A phone that never answers: the first expiry finds no request sent, the fifth finds
four unanswered, and drops it. -/
theorem silent_phone_dropped :
    ∃ s, Transition.run (answeringStep .other) initial silence = some s ∧
      s.expiries = [0, 1, 2, 3, 4] ∧ Dropped .other s := by
  obtain ⟨s, hrun, hexpiries, hfive⟩ :
      ∃ s, Transition.run (answeringStep .other) initial silence = some s ∧
        s.expiries = [0, 1, 2, 3, 4] ∧ 5 ≤ s.expiriesSinceAnswer :=
    ⟨_, rfl, rfl, Nat.le_refl 5⟩
  obtain ⟨-, -, -, -, hdropped⟩ := dropped_iff_four_unanswered (s := s)
    (show ErrorCode.other ≠ .operationAborted from nofun)
    (show ErrorCode.other ≠ .operationInProgress from nofun) ⟨initial, silence, rfl, hrun⟩
  exact ⟨s, hrun, hexpiries, hdropped hfive⟩

end Whutfa.Keepalive
