import Mathlib.Tactic.Linarith
import Mathlib.Tactic.Ring
import Whutfa.UnixSocket

/-! # The bridge client's connection

`BridgeClient.start` of `server/src/bridge-client.ts`: the variables of its closures
and the member `socket`, and one step for each callback Node can run.  It does what
`connectUnixSocket` does (`UnixSocket`), in its own way: an `error` event sets no
timer, `close` sets one unless the client has been stopped, and `connect` sets none on
a platform without Unix sockets.

So the client has exactly one attempt under way until it is stopped, a socket that has
not closed or a timer, and the timers' delays grow with the attempts that found no
path (`one_attempt`); and once it has been stopped it makes no connection again and runs
at most one callback more (`stop_is_final`).
-/
namespace Whutfa.BridgeReconnect

open UnixSocket (NetSocket Event)

/-- The variables of the closures in `start`, and what they have started. -/
structure State where
  /-- The member `socket`. -/
  socket : Option Nat
  stopped : Bool
  retry : Rat
  /-- The delays of the pending `setTimeout(connect, …)`. -/
  timers : List Rat
  /-- The sockets created and not yet closed. -/
  sockets : List NetSocket
  created : Nat
  /-- How many calls of `connect` in a row have found no path. -/
  misses : Nat

/-- `this.socket?.destroy()`. -/
def destroySocket (s : State) : State :=
  { s with sockets := s.sockets.map (NetSocket.destroyVia s.socket) }

/-- The function `connect`. -/
def connect (win32 pathExists : Bool) (s : State) : State :=
  if s.stopped || win32 then s
  else if !pathExists then
    { s with
      timers := s.timers ++ [s.retry]
      retry := min (s.retry * (3 / 2)) 5000
      misses := s.misses + 1 }
  else
    { s with
      retry := 500
      socket := some s.created
      sockets := s.sockets ++ [{ id := s.created, destroyed := false, errored := false }]
      created := s.created + 1
      misses := 0 }

/-- The call of `start`: the variables' initial values, and the first `connect()`. -/
def start (win32 pathExists : Bool) : State :=
  connect win32 pathExists
    { socket := none, stopped := false, retry := 500, timers := [], sockets := [], created := 0,
      misses := 0 }

/-- `this.socket.on("error", …)`. -/
def onError (s : State) (id : Nat) : State :=
  destroySocket { s with sockets := s.sockets.map (NetSocket.fail id) }

/-- `this.socket.on("close", …)`. -/
def onClose (reconnect : Bool) (s : State) (id : Nat) : State :=
  { s with
    socket := none
    sockets := s.sockets.filter (·.id ≠ id)
    timers := if reconnect && !s.stopped then s.timers ++ [s.retry] else s.timers }

/-- The function that `start` returns. -/
def stop (s : State) : State := destroySocket { s with stopped := true }

/-- Where `sendTouch` writes to, if anywhere. -/
def writable (s : State) : Option Nat :=
  s.socket.filter fun id => s.sockets.any fun k => k.id = id ∧ k.destroyed = false

/-- One callback; `win32` is the platform, `reconnect` the member of that name. -/
def step (win32 reconnect : Bool) (s : State) : Event → Option State
  | .timer i pathExists =>
      if i < s.timers.length then
        some (connect win32 pathExists { s with timers := s.timers.eraseIdx i })
      else none
  | .connect id => if s.sockets.any (·.id = id) then some s else none
  | .error id =>
      -- a socket emits `error` at most once, and not after `close`
      if s.sockets.any (fun k => k.id = id ∧ !k.errored) then some (onError s id) else none
  | .close id => if s.sockets.any (·.id = id) then some (onClose reconnect s id) else none
  | .stop => some (stop s)

/-! ## Until the client is stopped -/

/-- The delay after `misses` calls in a row that found no path. -/
def delay (misses : Nat) : Rat := min (500 * (3 / 2) ^ misses) 5000

theorem delay_zero : delay 0 = 500 := by
  unfold delay
  norm_num

theorem delay_succ (misses : Nat) : min (delay misses * (3 / 2)) 5000 = delay (misses + 1) := by
  have hpow : (500 : Rat) * (3 / 2) ^ (misses + 1) = 500 * (3 / 2) ^ misses * (3 / 2) := by ring
  unfold delay
  rw [hpow]
  rcases le_total ((500 : Rat) * (3 / 2) ^ misses) 5000 with hle | hge
  · rw [min_eq_left hle]
  · rw [min_eq_right hge, min_eq_right (by linarith), min_eq_right (by linarith)]

theorem delay_bounds (misses : Nat) : 500 ≤ delay misses ∧ delay misses ≤ 5000 := by
  have hone : (1 : Rat) ≤ (3 / 2) ^ misses := one_le_pow₀ (by norm_num)
  unfold delay
  exact ⟨le_min (by linarith) (by norm_num), min_le_right _ _⟩

/-- One attempt is under way: a socket, or a timer. -/
def Trying (s : State) : Prop :=
  (∃ k, s.sockets = [k] ∧ s.socket = some k.id ∧ s.timers = [] ∧ s.misses = 0) ∨
    (s.sockets = [] ∧ s.socket = none ∧ s.timers = [delay (s.misses - 1)])

/-- Nothing is left but one timer, or one socket that is being destroyed. -/
def Ending (s : State) : Prop :=
  s.timers.length + s.sockets.length ≤ 1 ∧
    ∀ k ∈ s.sockets, k.destroyed = true ∧ s.socket = some k.id

/-- What is true whatever callbacks have run. -/
structure Inv (s : State) : Prop where
  retry : s.retry = delay s.misses
  delays : ∀ d ∈ s.timers, 500 ≤ d ∧ d ≤ 5000
  trying : s.stopped = false → Trying s
  ending : s.stopped = true → Ending s

theorem connect_idle (pathExists : Bool) {s : State} (hstopped : s.stopped = true) :
    connect false pathExists s = s := by
  simp [connect, hstopped]

theorem connect_missing {s : State} (hstopped : s.stopped = false) :
    connect false false s =
      { s with
        timers := s.timers ++ [s.retry]
        retry := min (s.retry * (3 / 2)) 5000
        misses := s.misses + 1 } := by
  simp [connect, hstopped]

theorem connect_found {s : State} (hstopped : s.stopped = false) :
    connect false true s =
      { s with
        retry := 500
        socket := some s.created
        sockets := s.sockets ++ [{ id := s.created, destroyed := false, errored := false }]
        created := s.created + 1
        misses := 0 } := by
  simp [connect, hstopped]

/-- `connect` starts one attempt when none is under way. -/
theorem inv_connect (pathExists : Bool) {s : State} (hstopped : s.stopped = false)
    (hretry : s.retry = delay s.misses) (htimers : s.timers = []) (hsockets : s.sockets = [])
    (hsocket : s.socket = none) : Inv (connect false pathExists s) := by
  cases pathExists with
  | false =>
    have htimer : s.timers ++ [s.retry] = [delay s.misses] := by rw [htimers, hretry]; rfl
    rw [connect_missing hstopped]
    refine ⟨?_, fun d hd => ?_, fun _ => Or.inr ⟨hsockets, hsocket, htimer⟩, fun h => ?_⟩
    · show min (s.retry * (3 / 2)) 5000 = delay (s.misses + 1)
      rw [hretry, delay_succ]
    · have hd : d ∈ s.timers ++ [s.retry] := hd
      rw [htimer, List.mem_singleton] at hd
      rw [hd]
      exact delay_bounds s.misses
    · exact absurd (hstopped.symm.trans h) (by decide)
  | true =>
    rw [connect_found hstopped]
    refine ⟨delay_zero.symm, fun d hd => ?_, fun _ => ?_, fun h => ?_⟩
    · have hd : d ∈ s.timers := hd
      rw [htimers] at hd
      cases hd
    · refine Or.inl ⟨{ id := s.created, destroyed := false, errored := false }, ?_, rfl, htimers,
        rfl⟩
      show s.sockets ++ [_] = _
      rw [hsockets]
      rfl
    · exact absurd (hstopped.symm.trans h) (by decide)

/-- The sockets there are change, and none is added or removed. -/
theorem inv_map {s : State} (h : Inv s) {f : NetSocket → NetSocket} (hid : ∀ k, (f k).id = k.id)
    (hdestroyed : ∀ k, k.destroyed = true → (f k).destroyed = true) :
    Inv { s with sockets := s.sockets.map f } := by
  refine ⟨h.retry, h.delays, fun hs => ?_, fun hs => ?_⟩
  · rcases h.trying hs with ⟨k, hsockets, hsocket, htimers, hmisses⟩ | ⟨hnone, hsocket, htimers⟩
    · exact Or.inl ⟨f k, by simp [hsockets], by rw [hid]; exact hsocket, htimers, hmisses⟩
    · exact Or.inr ⟨by simp [hnone], hsocket, htimers⟩
  · obtain ⟨hcount, hall⟩ := h.ending hs
    refine ⟨by simpa using hcount, fun k hk => ?_⟩
    obtain ⟨old, hold, rfl⟩ := List.mem_map.mp hk
    obtain ⟨hold, hsocket⟩ := hall old hold
    exact ⟨hdestroyed old hold, by rw [hid]; exact hsocket⟩

theorem inv_destroySocket {s : State} (h : Inv s) : Inv (destroySocket s) :=
  inv_map h (NetSocket.id_destroyVia s.socket) fun _ hk =>
    NetSocket.destroyed_destroyVia (Or.inl hk)

/-- What is left of the attempts when the client is stopped. -/
theorem inv_stop {s : State} (h : Inv s) : Inv (stop s) := by
  cases hs : s.stopped with
  | true =>
    have hsame : { s with stopped := true } = s := by rw [← hs]
    unfold stop
    rw [hsame]
    exact inv_destroySocket h
  | false =>
    refine ⟨h.retry, h.delays, fun hf => (by cases hf), fun _ => ?_⟩
    rcases h.trying hs with ⟨k, hsockets, hsocket, htimers, -⟩ | ⟨hnone, -, htimers⟩
    · refine ⟨by simp [stop, destroySocket, hsockets, htimers], fun k' hk' => ?_⟩
      obtain ⟨old, hold, rfl⟩ := List.mem_map.mp hk'
      have hone : old ∈ s.sockets := hold
      rw [hsockets, List.mem_singleton] at hone
      rw [hone]
      show (k.destroyVia s.socket).destroyed = true ∧ s.socket = some (k.destroyVia s.socket).id
      rw [NetSocket.id_destroyVia]
      exact ⟨NetSocket.destroyed_destroyVia (Or.inr hsocket), hsocket⟩
    · refine ⟨by simp [stop, destroySocket, hnone, htimers], fun k' hk' => ?_⟩
      obtain ⟨old, hold, -⟩ := List.mem_map.mp hk'
      have hmem : old ∈ s.sockets := hold
      rw [hnone] at hmem
      cases hmem

/-- A socket that is there is the only one. -/
theorem Inv.only {s : State} (h : Inv s) {id : Nat} (hid : s.sockets.any (·.id = id)) :
    s.sockets.filter (·.id ≠ id) = [] ∧ s.sockets.length = 1 ∧ s.timers = [] := by
  obtain ⟨k, hk, hkid⟩ := List.any_eq_true.mp hid
  have hpos := List.length_pos_of_mem hk
  have hone : s.sockets.length = 1 ∧ s.timers = [] := by
    cases hs : s.stopped with
    | true =>
      have hcount := (h.ending hs).1
      exact ⟨by omega, List.length_eq_zero_iff.mp (by omega)⟩
    | false =>
      rcases h.trying hs with ⟨k', hsockets, -, htimers, -⟩ | ⟨hnone, -⟩
      · exact ⟨by rw [hsockets]; rfl, htimers⟩
      · rw [hnone] at hk
        cases hk
  obtain ⟨k', hsockets⟩ := List.length_eq_one_iff.mp hone.1
  refine ⟨?_, hone⟩
  rw [hsockets, List.mem_singleton] at hk
  rw [hsockets, ← hk]
  simpa using hkid

/-- The end of the one socket there is. -/
theorem inv_onClose {s : State} {id : Nat} (h : Inv s) (hid : s.sockets.any (·.id = id)) :
    Inv (onClose true s id) := by
  obtain ⟨hgone, hone, htimers⟩ := h.only hid
  cases hs : s.stopped with
  | true =>
    have hsame : onClose true s id = { s with socket := none, sockets := [], timers := [] } := by
      simp only [onClose, hgone, hs, htimers]
      rfl
    rw [hsame]
    refine ⟨h.retry, fun d hd => (by cases hd), fun hf => ?_, fun _ => ⟨Nat.zero_le _, ?_⟩⟩
    · exact absurd (hs.symm.trans hf) (by decide)
    · intro k hk
      cases hk
  | false =>
    -- an open socket has reset the delay
    have hmisses : s.misses = 0 := by
      rcases h.trying hs with ⟨k, -, -, -, hmisses⟩ | ⟨hnone, -⟩
      · exact hmisses
      · rw [hnone] at hone
        cases hone
    have hsame : onClose true s id =
        { s with socket := none, sockets := [], timers := [delay 0] } := by
      simp only [onClose, hgone, hs, htimers, h.retry, hmisses]
      rfl
    rw [hsame]
    refine ⟨h.retry, fun d hd => ?_, fun _ => Or.inr ⟨rfl, rfl, ?_⟩, fun hf => ?_⟩
    · rw [List.mem_singleton.mp hd]
      exact delay_bounds 0
    · show [delay 0] = [delay (s.misses - 1)]
      rw [hmisses]
    · exact absurd (hs.symm.trans hf) (by decide)

/-- A timer that is there is the only attempt. -/
theorem Inv.only_timer {s : State} (h : Inv s) {i : Nat} (hi : i < s.timers.length) :
    s.timers.eraseIdx i = [] ∧ s.timers.length = 1 ∧ s.sockets = [] := by
  have hone : s.timers.length = 1 ∧ s.sockets = [] := by
    cases hs : s.stopped with
    | true =>
      have hcount := (h.ending hs).1
      exact ⟨by omega, List.length_eq_zero_iff.mp (by omega)⟩
    | false =>
      rcases h.trying hs with ⟨k, -, -, htimers, -⟩ | ⟨hnone, -, htimers⟩
      · rw [htimers] at hi
        cases hi
      · exact ⟨by rw [htimers]; rfl, hnone⟩
  refine ⟨List.length_eq_zero_iff.mp ?_, hone⟩
  rw [List.length_eraseIdx_of_lt hi, hone.1]

theorem inv_timer (pathExists : Bool) {s : State} (h : Inv s) {i : Nat}
    (hi : i < s.timers.length) :
    Inv (connect false pathExists { s with timers := s.timers.eraseIdx i }) := by
  obtain ⟨herase, -, hsockets⟩ := h.only_timer hi
  rcases Bool.eq_false_or_eq_true s.stopped with hs | hs
  · rw [connect_idle pathExists (s := { s with timers := s.timers.eraseIdx i }) hs]
    refine ⟨h.retry, fun d hd => h.delays d (List.mem_of_mem_eraseIdx hd), fun hf => ?_,
      fun _ => ⟨?_, (h.ending hs).2⟩⟩
    · exact absurd (hs.symm.trans hf) (by decide)
    · show (s.timers.eraseIdx i).length + s.sockets.length ≤ 1
      rw [herase, hsockets]
      exact Nat.zero_le _
  · refine inv_connect pathExists hs h.retry herase hsockets ?_
    rcases h.trying hs with ⟨k, hk, -⟩ | ⟨-, hsocket, -⟩
    · rw [hsockets] at hk
      cases hk
    · exact hsocket

theorem inv_step {s t : State} {e : Event} (h : Inv s) (hstep : step false true s e = some t) :
    Inv t := by
  cases e with
  | timer i pathExists =>
    obtain ⟨hi, hstep⟩ := Option.ite_none_right_eq_some.mp hstep
    obtain rfl := Option.some.inj hstep
    exact inv_timer pathExists h hi
  | connect id =>
    obtain ⟨-, hstep⟩ := Option.ite_none_right_eq_some.mp hstep
    obtain rfl := Option.some.inj hstep
    exact h
  | error id =>
    obtain ⟨-, hstep⟩ := Option.ite_none_right_eq_some.mp hstep
    obtain rfl := Option.some.inj hstep
    refine inv_destroySocket (inv_map h (NetSocket.id_fail id) fun k hk => ?_)
    rw [NetSocket.destroyed_fail]
    exact hk
  | close id =>
    obtain ⟨hid, hstep⟩ := Option.ite_none_right_eq_some.mp hstep
    obtain rfl := Option.some.inj hstep
    exact inv_onClose h hid
  | stop =>
    obtain rfl := Option.some.inj hstep
    exact inv_stop h

/-- The states some order of timers and socket events leads to. -/
def Reachable (pathExists : Bool) : State → Prop :=
  Transition.Reachable (step false true) (· = start false pathExists)

theorem Reachable.inv {pathExists : Bool} {s : State} (h : Reachable pathExists s) : Inv s :=
  h.invariant_from (inv_connect pathExists rfl delay_zero.symm rfl rfl rfl)
    fun _ _ _ => inv_step

/-- **One attempt, always.**  Where there are Unix sockets, in every state that any
order of timers, socket events and `stop` leads to, the path existing or not whenever
it is tested: until the client is stopped there is either one socket, the one `socket`
refers to, and no timer, or one timer and no socket; the timer's delay grows by half
with each call in a row that found no path, from 500 ms up to 5000; and after `stop` there
is at most one of the two, and a socket that is left has been destroyed. -/
theorem one_attempt {pathExists : Bool} {s : State} (h : Reachable pathExists s) :
    (s.stopped = false → Trying s) ∧ (s.stopped = true → Ending s) ∧
      ∀ d ∈ s.timers, 500 ≤ d ∧ d ≤ 5000 :=
  ⟨h.inv.trying, h.inv.ending, h.inv.delays⟩

/-- A path that is missing twice, a connection that fails, and the next one. -/
theorem one_attempt_after_error : ∃ s, s.stopped = false ∧ s.created = 2 ∧ Trying s := by
  have hrun : ∃ s, Transition.run (step false true) (start false false)
      [.timer 0 false, .timer 0 true, .error 0, .close 0, .timer 0 true] = some s ∧
        s.stopped = false ∧ s.created = 2 := ⟨_, rfl, rfl, rfl⟩
  obtain ⟨s, hrun, hs, hcreated⟩ := hrun
  exact ⟨s, hs, hcreated, (one_attempt ⟨_, _, rfl, hrun⟩).1 hs⟩

/-! ## After the client has been stopped -/

/-- The callbacks that end an attempt. -/
def ends : Event → Bool
  | .timer _ _ => true
  | .close _ => true
  | _ => false

/-- A callback of a stopped client ends an attempt and starts none. -/
theorem step_stopped {s t : State} {e : Event} (h : Inv s) (hs : s.stopped = true)
    (hstep : step false true s e = some t) :
    t.stopped = true ∧ t.created = s.created ∧
      t.timers.length + t.sockets.length + (if ends e then 1 else 0) =
        s.timers.length + s.sockets.length := by
  cases e with
  | timer i pathExists =>
    obtain ⟨hi, hstep⟩ := Option.ite_none_right_eq_some.mp hstep
    obtain rfl := Option.some.inj hstep
    rw [connect_idle pathExists (s := { s with timers := s.timers.eraseIdx i }) hs]
    refine ⟨hs, rfl, ?_⟩
    show (s.timers.eraseIdx i).length + s.sockets.length + 1 = _
    rw [List.length_eraseIdx_of_lt hi]
    omega
  | connect id =>
    obtain ⟨-, hstep⟩ := Option.ite_none_right_eq_some.mp hstep
    obtain rfl := Option.some.inj hstep
    exact ⟨hs, rfl, rfl⟩
  | error id =>
    obtain ⟨-, hstep⟩ := Option.ite_none_right_eq_some.mp hstep
    obtain rfl := Option.some.inj hstep
    exact ⟨hs, rfl, by simp [onError, destroySocket, ends]⟩
  | close id =>
    obtain ⟨hid, hstep⟩ := Option.ite_none_right_eq_some.mp hstep
    obtain rfl := Option.some.inj hstep
    obtain ⟨hgone, hone, htimers⟩ := h.only hid
    refine ⟨hs, rfl, ?_⟩
    simp only [onClose, hgone, hs, htimers, hone]
    rfl
  | stop =>
    obtain rfl := Option.some.inj hstep
    exact ⟨rfl, rfl, by simp [stop, destroySocket, ends]⟩

theorem run_stopped {s u : State} {events : List Event} (h : Inv s) (hs : s.stopped = true)
    (hrun : Transition.run (step false true) s events = some u) :
    Inv u ∧ u.stopped = true ∧ u.created = s.created ∧
      u.timers.length + u.sockets.length + events.countP ends =
        s.timers.length + s.sockets.length := by
  induction events generalizing s with
  | nil =>
    obtain rfl := Option.some.inj hrun
    exact ⟨h, hs, rfl, rfl⟩
  | cons e events ih =>
    obtain ⟨t, hstep, hrest⟩ := Transition.run_cons_eq_some.mp hrun
    obtain ⟨ht, hcreated, hsum⟩ := step_stopped h hs hstep
    obtain ⟨hinv, hu, hcreated', hsum'⟩ := ih (inv_step h hstep) ht hrest
    refine ⟨hinv, hu, hcreated'.trans hcreated, ?_⟩
    rw [List.countP_cons]
    omega

/-- **`stop` is final.**  From any state of a stopped client, along every further run: no
socket is created any more, nothing is written, and at most one timer or `close` is still
to come. -/
theorem stop_is_final {pathExists : Bool} {s u : State} (h : Reachable pathExists s)
    (hs : s.stopped = true) {events : List Event}
    (hrun : Transition.run (step false true) s events = some u) :
    u.created = s.created ∧ writable u = none ∧
      events.countP ends + (u.timers.length + u.sockets.length) ≤ 1 := by
  obtain ⟨hinv, hu, hcreated, hsum⟩ := run_stopped h.inv hs hrun
  have hend := (h.inv.ending hs).1
  refine ⟨hcreated, Option.filter_eq_none_iff.mpr fun id _ hany => ?_, by omega⟩
  obtain ⟨k, hk, hp⟩ := List.any_eq_true.mp hany
  have hlive := (of_decide_eq_true hp).2
  rw [((hinv.ending hu).2 k hk).1] at hlive
  cases hlive

/-- A client stopped while it is connected: the socket's `close` is the last of it. -/
theorem stop_is_final_connected : ∃ u : State, u.created = 1 ∧ writable u = none ∧
    [Event.close 0].countP ends + (u.timers.length + u.sockets.length) ≤ 1 := by
  have hrun : ∃ s, Transition.run (step false true) (start false true) [.connect 0, .stop] =
      some s ∧ s.stopped = true ∧ s.created = 1 ∧
        ∃ u, Transition.run (step false true) s [.close 0] = some u :=
    ⟨_, rfl, rfl, rfl, _, rfl⟩
  obtain ⟨s, hrun, hs, hcreated, u, hclose⟩ := hrun
  have hfinal := stop_is_final ⟨_, _, rfl, hrun⟩ hs hclose
  exact ⟨u, hfinal.1.trans hcreated, hfinal.2⟩

end Whutfa.BridgeReconnect
