import Whutfa.Keepalive

/-! # A phone that falls silent

The keepalive loop with responses at any moments, also ones that nobody asked for.  A ping
promise is rejected when `pings_ - pongs_ > 4`; both count since the connection began, so a
response more than the pings there were is credit that a silent phone lives on
(`silent_dropped_iff`).

Behind the first expiry of a silence the pinger has processed every response that came
before it, since a ping is queued behind them; from then on `pings_` goes up with each
expiry and `pongs_` stays.
-/
namespace Whutfa.Keepalive

open Lifecycle (ErrorCode onPingRejected)

/-- The steps without cancellation, save the one that a quit brings with it. -/
def uncancelledStep (noCode : ErrorCode) (s : State) (a : Action) : Option State :=
  if a = .stop ∧ ¬ s.quit then none else step noCode s a

/-! ## What the pinger counts -/

/-- A ping that waits is counted before its expiry. -/
def Phase.armed : Phase → Nat
  | waiting _ => 1
  | _ => 0

/-- The counters in each phase, whatever the phone answers. -/
structure Tally (s : State) (ph : Phase) : Prop where
  pongs : s.pinger.pongs = Int32.ofNat s.answered
  tally : s.answered + s.pingerTasks.count .pong = s.responses
  pings : ph.Running → s.pinger.pings = Int32.ofNat (s.expiries.length + ph.armed)
  expiries_le : ph.Running → s.expiries.length ≤ s.answered + 4

/-- What the pinger's comparison comes to. -/
def Overdue (pings pongs : Nat) : Prop := Int32.ofNat pings - Int32.ofNat pongs > 4

/-- What a step in which nothing arrives does to the phase, the pinger's tasks and the
expiries. -/
inductive Move (s t : State) : Phase → Phase → Prop
  /-- A ping is asked for, behind the tasks that are queued. -/
  | asks (ph : Phase) (p : Nat) (running : ph.Running)
      (tasks : t.pingerTasks = s.pingerTasks ++ [.ping p])
      (expiries : t.expiries = s.expiries) : Move s t ph (.asked p)
  | waits (p : Nat) (tasks : s.pingerTasks = .ping p :: t.pingerTasks)
      (expiries : t.expiries = s.expiries) : Move s t (.asked p) (.waiting p)
  | answers (ph : Phase) (tasks : s.pingerTasks = .pong :: t.pingerTasks)
      (expiries : t.expiries = s.expiries) : Move s t ph ph
  /-- The wait ends: the promise is rejected if the ping is overdue. -/
  | expires (p : Nat) (ph : Phase) (idle : ph.open? = none)
      (tasks : t.pingerTasks = s.pingerTasks)
      (expiries : t.expiries.length = s.expiries.length + 1)
      (outcome : ¬ ph.Running ↔ Overdue (s.expiries.length + 1) s.answered) :
      Move s t (.waiting p) ph
  | ends (ph : Phase) (stopped : ¬ ph.Running) (expiries : t.expiries = s.expiries) :
      Move s t ph .ended

theorem tally_initial : Tally initial .starting where
  pongs := rfl
  tally := rfl
  pings := fun _ => rfl
  expiries_le := fun _ => Nat.zero_le _

theorem Tally.asks {s : State} {ph : Phase} (h : Tally s ph) (hrunning : ph.Running)
    (hidle : ph.armed = 0) (control : List ControlTask) (sent : Nat) :
    Tally (schedulePing { s with controlTasks := control, sent }) (.asked s.made) where
  pongs := h.pongs
  tally := tally_append h.tally nofun
  pings := fun _ => by
    have hpings := h.pings hrunning
    rwa [hidle] at hpings
  expiries_le := fun _ => h.expiries_le hrunning

theorem Tally.ping {s : State} {p : Nat} {rest : List PingerTask} (h : Tally s (.asked p))
    (hpromise : s.pinger.promise = none) (hs : s.pingerTasks = .ping p :: rest) :
    Tally (ping { s with pingerTasks := rest } p) (.waiting p) := by
  rw [ping_of_none (s := { s with pingerTasks := rest }) hpromise]
  exact { h with
    tally := tally_cons h.tally hs nofun
    pings := fun _ => by
      show s.pinger.pings + 1 = Int32.ofNat (s.expiries.length + 1)
      rw [h.pings trivial]
      exact ofNat_add_one s.expiries.length
    expiries_le := fun _ => h.expiries_le trivial }

theorem Tally.pong {s : State} {ph : Phase} {rest : List PingerTask} (h : Tally s ph)
    (hs : s.pingerTasks = .pong :: rest) : Tally (pong { s with pingerTasks := rest }) ph where
  pongs := by
    show s.pinger.pongs + 1 = Int32.ofNat (s.answered + 1)
    rw [h.pongs]
    exact ofNat_add_one s.answered
  tally := tally_pong h.tally hs
  pings := h.pings
  expiries_le := fun hrunning => Nat.le_trans (h.expiries_le hrunning) (by
    show s.answered + 4 ≤ s.answered + 1 + 4
    omega)

/-- The tally does not look at the tasks of the control strand, nor at a cancellation
that is queued. -/
theorem Tally.stopping {s : State} (h : Tally s .ended) (control : List ControlTask)
    (active : Bool) :
    Tally { s with active, controlTasks := control
                   pingerTasks := s.pingerTasks ++ [.cancel] } .ended where
  pongs := h.pongs
  tally := tally_append h.tally nofun
  pings := nofun
  expiries_le := nofun

/-! ## One step -/

/-- What a step leads to. -/
def Leads (noCode : ErrorCode) (s t : State) (ph : Phase) : Prop :=
  ∃ ph', Places noCode t ph' ∧ Tally t ph' ∧ t.responses = s.responses ∧ Move s t ph ph'

theorem control_move {noCode : ErrorCode} {s t : State} {ph : Phase}
    (hquits : (onPingRejected noCode).quits = true) (hplaces : Places noCode s ph)
    (htally : Tally s ph) (hstep : step noCode s .control = some t) : Leads noCode s t ph := by
  obtain ⟨ph', hplaces', hmove⟩ := hplaces.control_move hquits hstep
  cases hmove with
  | start rest =>
    exact ⟨.asked s.made, hplaces', htally.asks trivial rfl rest _, rfl,
      .asks _ s.made trivial rfl rfl⟩
  | resolved rest =>
    exact ⟨.asked s.made, hplaces', htally.asks trivial rfl rest _, rfl,
      .asks _ s.made trivial rfl rfl⟩
  | rejected rest =>
    exact ⟨.ended, hplaces', { htally with pings := nofun, expiries_le := nofun }, rfl,
      .ends _ id rfl⟩
  | stop rest => exact ⟨.ended, hplaces', htally.stopping rest _, rfl, .ends _ id rfl⟩

theorem pinger_move {noCode : ErrorCode} {s t : State} {ph : Phase} (hplaces : Places noCode s ph)
    (htally : Tally s ph) (hstep : step noCode s .pinger = some t) : Leads noCode s t ph := by
  obtain ⟨ph', hplaces', hmove⟩ := hplaces.pinger_move hstep
  cases hmove with
  | ping p rest htasks =>
    have hping := ping_of_none (s := { s with pingerTasks := rest }) hplaces.promise p
    refine ⟨.waiting p, hplaces', htally.ping hplaces.promise htasks, ?_, ?_⟩
    · rw [hping]
    · rw [hping]
      exact .waits p htasks rfl
  | pong _ rest htasks =>
    exact ⟨ph, hplaces', htally.pong htasks, rfl, .answers ph htasks rfl⟩
  | cancel rest htasks =>
    refine ⟨.ended, hplaces', ?_, rfl, .ends _ id rfl⟩
    exact { htally with
      tally := tally_cons htally.tally htasks nofun
      pings := nofun
      expiries_le := nofun }

theorem running_expired (n : Nat) : (expired n).Running ↔ ¬ 4 ≤ n := by
  unfold expired
  by_cases h : 4 ≤ n
  · rw [if_pos h]
    exact iff_of_false id (not_not_intro h)
  · rw [if_neg h]
    exact iff_of_true trivial h

/-- Five expiries ahead of the pongs is overdue, whatever the counters have wrapped to. -/
theorem overdue_five (n : Nat) : Overdue (n + 5) n := by
  unfold Overdue
  rw [ofNat_succ_sub]
  decide

theorem timer_move {noCode : ErrorCode} {s t : State} {ph : Phase} {aborted : Bool}
    (hplaces : Places noCode s ph) (htally : Tally s ph)
    (hstep : step noCode s (.timer aborted) = some t) : Leads noCode s t ph := by
  obtain ⟨p, rfl⟩ := hplaces.waiting_of_timer hstep
  have hdiff : s.pinger.pings - s.pinger.pongs > 4 ↔
      Overdue (s.expiries.length + 1) s.answered := by
    rw [htally.pings trivial, htally.pongs]
    exact Iff.rfl
  obtain ⟨n, hn⟩ : ∃ n, s.pinger.pings - s.pinger.pongs > 4 ↔ 4 ≤ n := by
    by_cases hover : s.pinger.pings - s.pinger.pongs > 4
    · exact ⟨4, iff_of_true hover (Nat.le_refl 4)⟩
    · exact ⟨0, iff_of_false hover (by decide)⟩
  have houtcome : ¬ (expired n).Running ↔ Overdue (s.expiries.length + 1) s.answered := by
    rw [running_expired, not_not, ← hn, hdiff]
  have hlength : (s.expiries ++ [s.unanswered]).length = s.expiries.length + 1 :=
    List.length_append
  have hle := htally.expiries_le trivial
  rw [expiry_of_waiting hplaces hstep hn]
  refine ⟨expired n, hplaces.expire n _ _, ?_, rfl, ?_⟩
  · exact {
      pongs := htally.pongs
      tally := htally.tally
      pings := fun _ => by
        have harmed : (expired n).armed = 0 := by unfold expired; split <;> rfl
        show s.pinger.pings = Int32.ofNat ((s.expiries ++ [s.unanswered]).length + _)
        rw [htally.pings trivial, harmed, hlength]
        rfl
      expiries_le := fun hrunning => by
        show (s.expiries ++ [s.unanswered]).length ≤ s.answered + 4
        rw [hlength]
        -- a ping five ahead of the pongs would have been overdue
        by_contra hgt
        have hfive : s.expiries.length + 1 = s.answered + 5 := by omega
        exact houtcome.mpr (hfive ▸ overdue_five s.answered) hrunning }
  · have hidle : (expired n).open? = none := by unfold expired; split <;> rfl
    exact .expires p _ hidle rfl hlength houtcome

theorem uncancelled_move {noCode : ErrorCode} {s t : State} {ph : Phase} {a : Action}
    (hquits : (onPingRejected noCode).quits = true) (hplaces : Places noCode s ph)
    (htally : Tally s ph) (ha : a ≠ .pingResponse)
    (hstep : uncancelledStep noCode s a = some t) : Leads noCode s t ph := by
  obtain ⟨hguard, hstep⟩ := Option.ite_none_left_eq_some.mp hstep
  cases a with
  | control => exact control_move hquits hplaces htally hstep
  | pinger => exact pinger_move hplaces htally hstep
  | timer aborted => exact timer_move hplaces htally hstep
  | pingResponse => exact absurd rfl ha
  | stop =>
    -- only a session that has quit is stopped
    have hquit : s.quit = true := Classical.byContradiction fun hq => hguard ⟨rfl, hq⟩
    obtain rfl := hplaces.quit.mp hquit
    obtain rfl := Option.some.inj hstep
    by_cases hactive : s.active = true
    · rw [if_pos hactive]
      refine ⟨.ended, hplaces.stopping ?_ _, htally.stopping _ _, rfl, .ends _ id rfl⟩
      rw [List.filter_append, hplaces.control]
      rfl
    · rw [if_neg hactive]
      exact ⟨.ended, hplaces, htally, rfl, .ends _ id rfl⟩

/-- What holds of every uncancelled history. -/
def Tallied (noCode : ErrorCode) (s : State) : Prop := ∃ ph, Places noCode s ph ∧ Tally s ph

theorem tallied_initial (noCode : ErrorCode) : Tallied noCode initial := by
  obtain ⟨ph, hplaces, -⟩ := inv_initial noCode
  have hcontrol := hplaces.control
  cases ph with
  | starting => exact ⟨.starting, hplaces, tally_initial⟩
  | asked _ | waiting _ | resolved | timedOut | ended => cases hcontrol

theorem tallied_step {noCode : ErrorCode} (hquits : (onPingRejected noCode).quits = true)
    {s t : State} {a : Action} (h : Tallied noCode s)
    (hstep : uncancelledStep noCode s a = some t) : Tallied noCode t := by
  obtain ⟨ph, hplaces, htally⟩ := h
  by_cases ha : a = .pingResponse
  · subst ha
    obtain ⟨-, hstep⟩ := Option.ite_none_left_eq_some.mp hstep
    obtain rfl := Option.some.inj hstep
    exact ⟨ph, hplaces.respond _, { htally with tally := tally_respond htally.tally }⟩
  · obtain ⟨ph', hplaces, htally, -, -⟩ := uncancelled_move hquits hplaces htally ha hstep
    exact ⟨ph', hplaces, htally⟩

/-! ## Silence -/

/-- The steps in which no response arrives. -/
def silentStep (noCode : ErrorCode) (s : State) (a : Action) : Option State :=
  if a = .pingResponse then none else uncancelledStep noCode s a

/-- A silence that began after `e` expiries and `r` responses.  A ping that is asked for
after its first expiry is behind all the pongs, so none is left when the ping waits, and
each later expiry counts all `r`. -/
structure Silence (e r : Nat) (s : State) (ph : Phase) : Prop where
  responses : s.responses = r
  expiries_ge : e ≤ s.expiries.length
  asked : e < s.expiries.length → ∀ p, ph = .asked p → ∃ front, s.pingerTasks = front ++ [.ping p]
  waiting : e < s.expiries.length → ∀ p, ph = .waiting p → .pong ∉ s.pingerTasks
  decided : e + 2 ≤ s.expiries.length → (¬ ph.Running ↔ Overdue s.expiries.length r)
  expiries_le : e + 2 ≤ s.expiries.length → s.expiries.length ≤ r + 5

theorem silence_begins (s : State) (ph : Phase) :
    Silence s.expiries.length s.responses s ph where
  responses := rfl
  expiries_ge := Nat.le_refl _
  asked := fun hlt => absurd hlt (Nat.lt_irrefl _)
  waiting := fun hlt => absurd hlt (Nat.lt_irrefl _)
  decided := fun hle => absurd hle (by omega)
  expiries_le := fun hle => absurd hle (by omega)

/-- The only ping is the last task: when its turn comes, nothing is behind it. -/
theorem no_task_behind {tasks rest front : List PingerTask} {p : Nat}
    (hpings : tasks.filterMap PingerTask.ping? = [p]) (hrest : tasks = .ping p :: rest)
    (hfront : tasks = front ++ [.ping p]) : rest = [] := by
  cases front with
  | nil =>
    rw [hrest] at hfront
    exact (List.cons.inj hfront).2
  | cons task front =>
    -- else there would be two pings
    have hbehind : rest = front ++ [.ping p] := (List.cons.inj (hrest.symm.trans hfront)).2
    rw [hrest, hbehind, List.filterMap_cons_some (f := PingerTask.ping?) (a := .ping p) rfl,
      List.filterMap_append] at hpings
    simp [PingerTask.ping?] at hpings

/-- A step without an expiry; what is asked for and what waits is shown apart. -/
theorem Silence.of_expiries_eq {e r : Nat} {s t : State} {ph ph' : Phase} (h : Silence e r s ph)
    (hresponses : t.responses = s.responses) (hexpiries : t.expiries = s.expiries)
    (hrunning : ph'.Running ↔ ph.Running)
    (hasked : e < s.expiries.length → ∀ p, ph' = .asked p →
      ∃ front, t.pingerTasks = front ++ [.ping p])
    (hwaiting : e < s.expiries.length → ∀ p, ph' = .waiting p → .pong ∉ t.pingerTasks) :
    Silence e r t ph' where
  responses := hresponses.trans h.responses
  expiries_ge := hexpiries ▸ h.expiries_ge
  asked := hexpiries ▸ hasked
  waiting := hexpiries ▸ hwaiting
  decided := by
    rw [hexpiries, hrunning]
    exact h.decided
  expiries_le := hexpiries ▸ h.expiries_le

/-- A wait that ends behind the first expiry has every response answered. -/
theorem Silence.expires {e r p : Nat} {s t : State} {ph : Phase}
    (h : Silence e r s (.waiting p)) (htally : Tally s (.waiting p))
    (hresponses : t.responses = s.responses) (hidle : ph.open? = none)
    (hexpiries : t.expiries.length = s.expiries.length + 1)
    (houtcome : ¬ ph.Running ↔ Overdue (s.expiries.length + 1) s.answered) :
    Silence e r t ph := by
  -- no pong is queued behind the first expiry
  have hanswered : e < s.expiries.length → s.answered = r := by
    intro hlt
    have hcount := List.count_eq_zero.mpr (h.waiting hlt p rfl)
    rw [← h.responses, ← htally.tally, hcount, Nat.add_zero]
  exact {
    responses := hresponses.trans h.responses
    expiries_ge := by
      rw [hexpiries]
      exact Nat.le_succ_of_le h.expiries_ge
    asked := fun _ q hq => by
      rw [hq] at hidle
      cases hidle
    waiting := fun _ q hq => by
      rw [hq] at hidle
      cases hidle
    decided := fun hle => by
      rw [hexpiries] at hle ⊢
      rwa [hanswered (by omega)] at houtcome
    expiries_le := fun hle => by
      rw [hexpiries] at hle ⊢
      have hahead := htally.expiries_le trivial
      rw [hanswered (by omega)] at hahead
      omega }

theorem Silence.move {noCode : ErrorCode} {e r : Nat} {s t : State} {ph ph' : Phase}
    (h : Silence e r s ph) (hplaces : Places noCode s ph) (htally : Tally s ph)
    (hresponses : t.responses = s.responses) (hmove : Move s t ph ph') : Silence e r t ph' := by
  cases hmove with
  | asks _ p hrunning htasks hexpiries =>
    refine h.of_expiries_eq hresponses hexpiries (iff_of_true trivial hrunning) ?_ nofun
    intro _ q hq
    obtain rfl := Phase.asked.inj hq
    exact ⟨s.pingerTasks, htasks⟩
  | waits p htasks hexpiries =>
    refine h.of_expiries_eq hresponses hexpiries Iff.rfl nofun ?_
    intro hlt q _
    obtain ⟨front, hfront⟩ := h.asked hlt p rfl
    rw [no_task_behind hplaces.pings htasks hfront]
    exact List.not_mem_nil
  | answers _ htasks hexpiries =>
    refine h.of_expiries_eq hresponses hexpiries Iff.rfl ?_ ?_
    · intro hlt p hp
      obtain ⟨front, hfront⟩ := h.asked hlt p hp
      rw [htasks] at hfront
      cases front with
      | nil => cases hfront
      | cons task front => exact ⟨front, (List.cons.inj hfront).2⟩
    · intro hlt p hp hmem
      have hnone := h.waiting hlt p hp
      rw [htasks] at hnone
      exact hnone List.mem_cons_self
  | expires p _ hidle htasks hexpiries houtcome =>
    exact h.expires htally hresponses hidle hexpiries houtcome
  | ends _ hstopped hexpiries =>
    exact h.of_expiries_eq hresponses hexpiries (iff_of_false id hstopped) nofun nofun

/-- The responses before the silence are more than the pings, by a number that the 32 bits
of the counters do not hide. -/
def Surplus (s : State) : Prop :=
  let n := (s.responses - s.expiries.length) % 2 ^ 32
  0 < n ∧ n < 2 ^ 31 + 6

theorem overdue_iff {e r : Nat} (hle : e ≤ r) :
    Overdue (e + 5) r ↔ ¬ (0 < (r - e) % 2 ^ 32 ∧ (r - e) % 2 ^ 32 < 2 ^ 31 + 6) := by
  obtain ⟨n, rfl⟩ := Nat.exists_eq_add_of_le hle
  have hfour : (4 : Int32).toInt = 4 := rfl
  rw [Overdue, gt_iff_lt, Int32.lt_iff_toInt_lt, hfour, Int32.toInt_sub, Int32.toInt_ofNat',
    Int32.toInt_ofNat', Nat.add_sub_cancel_left]
  simp only [Int.bmod, Int32.size]
  omega

/-- **When a silent phone is dropped.**  After any history without cancellation, and with
any responses in it, five expiries with no response between them reject the ping promise
exactly if the responses before them are no more than the expiries before them; the
session is told to quit when the handler of the rejection runs. -/
theorem silent_dropped_iff {noCode : ErrorCode} (hnotAborted : noCode ≠ .operationAborted)
    (hnotInProgress : noCode ≠ .operationInProgress) {s t : State} {as : List Action}
    (h : Transition.Reachable (uncancelledStep noCode) (· = initial) s)
    (hsilent : Transition.run (silentStep noCode) s as = some t)
    (hfive : t.expiries.length = s.expiries.length + 5) :
    (Dropped noCode t ↔ ¬ Surplus s) ∧
      ∀ u, t.controlTasks.head? = some (.rejected noCode) →
        step noCode t .control = some u → u.quit = true := by
  have hquits := quits_of_ne hnotAborted hnotInProgress
  obtain ⟨ph, hplaces, htally⟩ : Tallied noCode s :=
    h.invariant_from (tallied_initial noCode) fun _ _ _ hs hstep => tallied_step hquits hs hstep
  obtain ⟨ph', hplaces', -, hsilence⟩ : ∃ ph', Places noCode t ph' ∧ Tally t ph' ∧
      Silence s.expiries.length s.responses t ph' := by
    refine Transition.run_invariant (I := fun u => ∃ ph', Places noCode u ph' ∧ Tally u ph' ∧
      Silence s.expiries.length s.responses u ph') ?_
      ⟨ph, hplaces, htally, silence_begins s ph⟩ hsilent
    rintro u a v ⟨ph, hplaces, htally, hsilence⟩ hstep
    obtain ⟨ha, hstep⟩ := Option.ite_none_left_eq_some.mp hstep
    obtain ⟨ph', hplaces', htally', hresponses, hmove⟩ :=
      uncancelled_move hquits hplaces htally ha hstep
    exact ⟨ph', hplaces', htally', hsilence.move hplaces htally hresponses hmove⟩
  refine ⟨?_, fun u => quit_of_rejected hquits⟩
  have hle := hsilence.expiries_le (by omega)
  rw [hplaces'.dropped_iff, hsilence.decided (by omega), hfive]
  exact overdue_iff (by omega)

/-- The request that is sent behind the first interval is answered in the second. -/
def answeredOnce : List Action :=
  [.control, .pinger, .timer false, .control, .pinger, .pingResponse, .pinger]

/-- Five expiries, the first of them that of the second interval. -/
def silenceAfterAnswer : List Action :=
  [.timer false, .control, .pinger, .timer false, .control, .pinger, .timer false, .control,
   .pinger, .timer false, .control, .pinger, .timer false]

/-- A phone that answers once and is silent from then on. -/
theorem silent_after_answer_dropped :
    ∃ s t, Transition.run (uncancelledStep .other) initial answeredOnce = some s ∧
      s.responses = 1 ∧ Transition.run (silentStep .other) s silenceAfterAnswer = some t ∧
      Dropped .other t := by
  obtain ⟨s, t, hhistory, hrun, hresponses, hone, hsix⟩ : ∃ s t,
      Transition.run (uncancelledStep .other) initial answeredOnce = some s ∧
      Transition.run (silentStep .other) s silenceAfterAnswer = some t ∧ s.responses = 1 ∧
      s.expiries.length = 1 ∧ t.expiries.length = 6 := ⟨_, _, rfl, rfl, rfl, rfl, rfl⟩
  have hfive : t.expiries.length = s.expiries.length + 5 := by rw [hone, hsix]
  have hsurplus : ¬ Surplus s := by
    intro h
    rw [Surplus, hresponses, hone] at h
    exact absurd h.1 (by decide)
  obtain ⟨hdropped, -⟩ := silent_dropped_iff (show ErrorCode.other ≠ .operationAborted from nofun)
    (show ErrorCode.other ≠ .operationInProgress from nofun) ⟨initial, _, rfl, hhistory⟩ hrun hfive
  exact ⟨s, t, hhistory, hresponses, hrun, hdropped.mpr hsurplus⟩

/-- One response that nobody asked for, and the phone outlives five silent intervals. -/
theorem unsolicited_outlives_silence :
    ∃ s t, Transition.run (uncancelledStep .other) initial [.pingResponse, .pinger] = some s ∧
      Transition.run (silentStep .other) s silence = some t ∧
      t.expiries.length = s.expiries.length + 5 ∧ ¬ (t.quit = true ∨
        .rejected .other ∈ t.controlTasks) := by
  refine ⟨_, _, rfl, rfl, rfl, ?_⟩
  decide

end Whutfa.Keepalive
