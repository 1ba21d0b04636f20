import Mathlib.Algebra.Order.Ring.Unbundled.Rat
import Whutfa.Transition

/-! # Connecting and reconnecting

The connection side of `connectUnixSocket` (`server/src/unix-socket.ts`): the
variables its closures share, and one step for each callback Node can run.  Timers
fire in any order, the path may exist or not whenever it is tested, and a socket
emits `connect`, `error` and `close` at any moment until it has closed.  The
`data` handler shares no variable with the rest; it is modelled with the sockets'
users, in `MediaSockets`.

The handler's end of the socket serves one client and evicts the last one for
each new one, so a second live attempt makes the connections evict each other.
`Single` says there is none: at most one connect timer or socket exists, and a
socket that exists is the one the variable `socket` refers to.  An `error` event
schedules a reconnect, and so does the `close` event that Node emits after it; so
`Single` holds throughout a run exactly when no socket of the run emits `error`
(`single_iff_no_error`).
-/
namespace Whutfa.UnixSocket

/-- A `net.Socket` that has been created and has not emitted `close`. -/
structure NetSocket where
  id : Nat
  /-- `destroy()` has been called on it. -/
  destroyed : Bool
  /-- It has emitted `error`. -/
  errored : Bool
  deriving DecidableEq

namespace NetSocket

/-- `socket?.destroy()`, when the variable refers to this socket. -/
def destroyVia (socket : Option Nat) (k : NetSocket) : NetSocket :=
  if socket = some k.id then { k with destroyed := true } else k

/-- The socket `id` emits `error`. -/
def fail (id : Nat) (k : NetSocket) : NetSocket :=
  if k.id = id then { k with errored := true } else k

@[simp] theorem id_destroyVia (socket : Option Nat) (k : NetSocket) :
    (k.destroyVia socket).id = k.id := by
  unfold destroyVia
  split <;> rfl

@[simp] theorem id_fail (id : Nat) (k : NetSocket) : (k.fail id).id = k.id := by
  unfold fail
  split <;> rfl

@[simp] theorem destroyed_fail (id : Nat) (k : NetSocket) :
    (k.fail id).destroyed = k.destroyed := by
  unfold fail
  split <;> rfl

theorem destroyed_destroyVia {socket : Option Nat} {k : NetSocket}
    (h : k.destroyed = true ∨ socket = some k.id) : (k.destroyVia socket).destroyed = true := by
  unfold destroyVia
  split
  · rfl
  · rename_i hsocket
    exact h.resolve_right hsocket

end NetSocket

/-- The variables of one call of `connectUnixSocket`, and what it has started. -/
structure State where
  /-- The variable `socket`. -/
  socket : Option Nat
  stopped : Bool
  retryMs : Rat
  /-- The delays of the pending `setTimeout(connect, …)`. -/
  timers : List Rat
  /-- The sockets created and not yet closed. -/
  sockets : List NetSocket
  /-- How many sockets have been created: the identity of the next one. -/
  created : Nat

/-- What Node can run next. -/
inductive Event
  /-- The `i`-th pending timer fires; `pathExists` is what `fs.existsSync` returns. -/
  | timer (i : Nat) (pathExists : Bool)
  | connect (id : Nat)
  | error (id : Nat)
  | close (id : Nat)
  /-- The caller calls the returned function. -/
  | stop

/-- Any event but a socket's `error`. -/
def Event.NoError : Event → Prop
  | .error _ => False
  | _ => True

/-- `socket?.destroy()`. -/
def destroySocket (s : State) : State :=
  { s with sockets := s.sockets.map (NetSocket.destroyVia s.socket) }

/-- `setTimeout(connect, delay)`. -/
def setTimer (s : State) (delay : Rat) : State := { s with timers := s.timers ++ [delay] }

/-- The function `connect`. -/
def connect (win32 pathExists : Bool) (s : State) : State :=
  if s.stopped then s
  else if win32 then setTimer s 2000
  else if !pathExists then
    { setTimer s s.retryMs with retryMs := min (s.retryMs * (3 / 2)) 5000 }
  else
    { s with
      retryMs := 500
      socket := some s.created
      sockets := s.sockets ++ [{ id := s.created, destroyed := false, errored := false }]
      created := s.created + 1 }

/-- The call itself: the variables' initial values, and the first `connect()`. -/
def start (win32 pathExists : Bool) : State :=
  connect win32 pathExists
    { socket := none, stopped := false, retryMs := 500, timers := [], sockets := [], created := 0 }

/-- `socket.on("error", …)`. -/
def onError (s : State) (id : Nat) : State :=
  let s := destroySocket { s with sockets := s.sockets.map (NetSocket.fail id) }
  setTimer { s with socket := none } s.retryMs

/-- `socket.on("close", …)`. -/
def onClose (s : State) (id : Nat) : State :=
  setTimer { s with socket := none, sockets := s.sockets.filter (·.id ≠ id) } s.retryMs

/-- One callback of Node. -/
def step (win32 : Bool) (s : State) : Event → Option State
  | .timer i pathExists =>
      if i < s.timers.length then
        some (connect win32 pathExists { s with timers := s.timers.eraseIdx i })
      else none
  | .connect id =>
      if s.sockets.any (·.id = id) then some { s with retryMs := 500 } else none
  | .error id =>
      -- a socket emits `error` at most once, and not after `close`
      if s.sockets.any (fun k => k.id = id ∧ !k.errored) then some (onError s id) else none
  | .close id => if s.sockets.any (·.id = id) then some (onClose s id) else none
  | .stop => some (destroySocket { s with stopped := true })

/-- At most one attempt is under way, and `socket` refers to the socket there is. -/
def Single (s : State) : Prop :=
  s.timers.length + s.sockets.length ≤ 1 ∧ ∀ k ∈ s.sockets, s.socket = some k.id

/-! ## What each callback does to the attempts -/

theorem single_of_none {s : State} (ht : s.timers.length ≤ 1) (hs : s.sockets = []) :
    Single s := by
  refine ⟨by rw [hs]; simpa using ht, fun k hk => ?_⟩
  rw [hs] at hk
  cases hk

/-- `connect` starts one attempt when none is under way. -/
theorem single_connect (win32 pathExists : Bool) {s : State} (ht : s.timers = [])
    (hs : s.sockets = []) : Single (connect win32 pathExists s) := by
  unfold connect
  split_ifs
  · exact single_of_none (by simp [ht]) hs
  · exact single_of_none (by simp [setTimer, ht]) hs
  · exact single_of_none (by simp [setTimer, ht]) hs
  · refine ⟨by simp [ht, hs], fun k hk => ?_⟩
    simp only [hs, List.nil_append, List.mem_singleton] at hk
    rw [hk]

theorem single_start (win32 pathExists : Bool) : Single (start win32 pathExists) :=
  single_connect win32 pathExists rfl rfl

theorem single_destroySocket {s : State} (h : Single s) : Single (destroySocket s) := by
  refine ⟨by simpa [destroySocket] using h.1, fun k hk => ?_⟩
  obtain ⟨k', hk', rfl⟩ := List.mem_map.mp hk
  rw [NetSocket.id_destroyVia]
  exact h.2 k' hk'

/-- A socket that closes leaves one timer and nothing else. -/
theorem single_onClose {s : State} {id : Nat} (h : Single s)
    (hid : s.sockets.any (·.id = id)) : Single (onClose s id) := by
  obtain ⟨k, hk, hkid⟩ := List.any_eq_true.mp hid
  have hlen : 0 < s.sockets.length := List.length_pos_of_mem hk
  have hone : s.sockets = [k] := by
    have hle : s.sockets.length = 1 := by have := h.1; omega
    obtain ⟨k', hk'⟩ := List.length_eq_one_iff.mp hle
    rw [hk', List.mem_singleton] at hk
    rw [hk', hk]
  refine single_of_none ?_ ?_
  · have := h.1
    simp only [onClose, setTimer, List.length_append, List.length_singleton]
    omega
  · simp only [decide_eq_true_eq] at hkid
    simp [onClose, setTimer, hone, hkid]

/-- **Only `error` starts a second attempt.** -/
theorem single_step (win32 : Bool) {s t : State} {e : Event} (h : Single s)
    (he : e.NoError) (hstep : step win32 s e = some t) : Single t := by
  cases e with
  | timer i pathExists =>
    obtain ⟨hi, hstep⟩ := Option.ite_none_right_eq_some.mp hstep
    obtain rfl := Option.some.inj hstep
    have hlen := h.1
    -- the fired timer was the only attempt
    apply single_connect win32 pathExists
    · exact List.length_eq_zero_iff.mp (by simp only [List.length_eraseIdx_of_lt hi]; omega)
    · exact List.length_eq_zero_iff.mp (by show s.sockets.length = 0; omega)
  | connect id =>
    obtain ⟨-, hstep⟩ := Option.ite_none_right_eq_some.mp hstep
    obtain rfl := Option.some.inj hstep
    exact h
  | error id => exact he.elim
  | close id =>
    obtain ⟨hid, hstep⟩ := Option.ite_none_right_eq_some.mp hstep
    obtain rfl := Option.some.inj hstep
    exact single_onClose h hid
  | stop =>
    obtain rfl := Option.some.inj hstep
    exact single_destroySocket h

/-- After `error` a reconnect is pending although the socket has not closed. -/
theorem not_single_error (win32 : Bool) {s t : State} {e : Event} (he : ¬ e.NoError)
    (hstep : step win32 s e = some t) : ¬ Single t := by
  intro h
  cases e with
  | error id =>
    obtain ⟨hid, hstep⟩ := Option.ite_none_right_eq_some.mp hstep
    obtain ⟨k, hk, -⟩ := List.any_eq_true.mp hid
    have hlen : 0 < s.sockets.length := List.length_pos_of_mem hk
    obtain rfl := Option.some.inj hstep
    have hle := h.1
    simp only [onError, setTimer, destroySocket, List.length_append, List.length_map,
      List.length_singleton] at hle
    omega
  | _ => exact he trivial

/-- **When there is a single attempt.**  On every platform, whatever the path does
and in whatever order timers and events come, at most one connect timer or socket
exists throughout the run and `socket` refers to the socket there is, if and only
if no step of the run is an `error` event. -/
theorem single_iff_no_error (win32 pathExists : Bool) (events : List Event) :
    Transition.Throughout (step win32) Single (start win32 pathExists) events ↔
      Transition.Meets (step win32) (fun _ e => e.NoError) (start win32 pathExists) events :=
  Transition.throughout_iff_meets (fun _ h => h) (fun _ _ _ h he => single_step win32 h he)
    (fun _ _ _ _ he => not_single_error win32 he) (single_start win32 pathExists)

/-- One failed connection: its `error` and `close` events each schedule a
reconnect, both succeed, and two sockets are open, one of them out of the reach
of the returned function. -/
theorem two_sockets_after_error :
    ∃ s, Transition.run (step false) (start false true)
        [.error 0, .close 0, .timer 0 true, .timer 0 true] = some s ∧
      s.timers = [] ∧ s.sockets.map (·.id) = [1, 2] ∧ s.socket = some 2 ∧ ¬ Single s :=
  ⟨_, rfl, rfl, rfl, rfl, fun h => absurd h.1 (by decide)⟩

end Whutfa.UnixSocket
