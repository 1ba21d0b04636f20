import Mathlib.Algebra.BigOperators.Group.List.Basic
import Mathlib.Algebra.Order.BigOperators.Group.List
import Mathlib.Data.List.Nodup
import Mathlib.Tactic.MkIffOfInductiveProp
import Mathlib.Tactic.Ring
import Whutfa.UnixSocket

/-! # Connections that evict each other

`connectUnixSocket` (`server/src/unix-socket.ts`) against the end that it connects to, a
socket of the handler (`accept_loop` and `send_loop`, `aa-handler/src/ipc_bridge.cpp`).
`UnixSocket` shows that an `error` event leaves two attempts where there was one.  Here they
are counted, and what they do to each other is followed.

The handler serves one connection, the last that it has installed, and closes the one before;
its client sees the close, and connects again.  With a second attempt the two processes
therefore never come to rest: there is one attempt more for each `error`, none is ever given
up, and however the steps are scheduled, with nothing else going wrong, each connection is
replaced after a bounded number of them (`evicted`).

Where the path exists and nobody listens, as with a socket file that an earlier handler has
left, the attempts multiply: in each round of timers by half at least, and by two at most
(`refused_rounds`).

The only errors are those of refused connections: `main` writes nothing to the sockets, and
what the handler sends has been read when it closes one.  `main` never calls the function
that `connectUnixSocket` returns, and does not run it on Windows.
-/
namespace Whutfa.UnixSocket

/-! ## Counting the attempts

A timer will become a socket, and a socket may become a connection.  `onError` and `onClose`
touch the socket of one number, and a sum over the sockets changes by what that one
contributes. -/

/-- What will, or may, become a connection. -/
def State.attempts (s : State) : Nat := s.timers.length + s.sockets.length

/-- Sockets have their own numbers. -/
@[mk_iff] structure Ids (s : State) : Prop where
  nodup : (s.sockets.map NetSocket.id).Nodup
  created : ∀ k ∈ s.sockets, k.id < s.created

/-- What the socket of a number contributes to a sum. -/
theorem sum_filter_ne {sockets : List NetSocket} (hnodup : (sockets.map NetSocket.id).Nodup)
    {k : NetSocket} (hk : k ∈ sockets) (f : NetSocket → Nat) :
    ((sockets.filter (·.id ≠ k.id)).map f).sum + f k = (sockets.map f).sum := by
  induction sockets with
  | nil => cases hk
  | cons j sockets ih =>
    obtain ⟨hj, hrest⟩ := List.nodup_cons.mp hnodup
    rcases List.mem_cons.mp hk with rfl | hk
    · have hall : sockets.filter (·.id ≠ k.id) = sockets := by
        refine List.filter_eq_self.mpr fun i hi => decide_eq_true fun heq => hj ?_
        rw [← heq]
        exact List.mem_map_of_mem hi
      rw [List.filter_cons_of_neg (by simp), hall, List.map_cons, List.sum_cons, Nat.add_comm]
    · have hne : j.id ≠ k.id := by
        intro heq
        rw [heq] at hj
        exact hj (List.mem_map_of_mem hk)
      rw [List.filter_cons_of_pos (by simpa using hne), List.map_cons, List.map_cons,
        List.sum_cons, List.sum_cons, Nat.add_assoc, ih hrest hk]

theorem length_filter_ne {sockets : List NetSocket} (hnodup : (sockets.map NetSocket.id).Nodup)
    {k : NetSocket} (hk : k ∈ sockets) :
    (sockets.filter (·.id ≠ k.id)).length + 1 = sockets.length := by
  have hsum := sum_filter_ne hnodup hk fun _ => 1
  simpa using hsum

theorem map_id_onError (s : State) (id : Nat) :
    (onError s id).sockets.map NetSocket.id = s.sockets.map NetSocket.id := by
  show List.map _ (List.map _ (List.map _ s.sockets)) = _
  rw [List.map_map, List.map_map]
  refine List.map_congr_left fun k _ => ?_
  simp only [Function.comp_apply, NetSocket.id_destroyVia, NetSocket.id_fail]

theorem Ids.onError {s : State} (h : Ids s) (id : Nat) : Ids (onError s id) := by
  have hmap := map_id_onError s id
  refine ⟨hmap ▸ h.nodup, fun k hk => ?_⟩
  have hmem := List.mem_map_of_mem (f := NetSocket.id) hk
  rw [hmap] at hmem
  obtain ⟨j, hj, hid⟩ := List.mem_map.mp hmem
  rw [← hid]
  exact h.created j hj

theorem Ids.onClose {s : State} (h : Ids s) (id : Nat) : Ids (onClose s id) :=
  ⟨h.nodup.sublist (List.filter_sublist.map _), fun k hk => h.created k (List.mem_filter.mp hk).1⟩

theorem attempts_onError (s : State) (id : Nat) : (onError s id).attempts = s.attempts + 1 := by
  simp only [State.attempts, UnixSocket.onError, setTimer, destroySocket, List.length_append,
    List.length_map, List.length_singleton]
  omega

theorem attempts_onClose {s : State} (h : Ids s) {k : NetSocket} (hk : k ∈ s.sockets) :
    (onClose s k.id).attempts = s.attempts := by
  have hlength := length_filter_ne h.nodup hk
  simp only [State.attempts, UnixSocket.onClose, setTimer, List.length_append,
    List.length_singleton]
  omega

/-! ## The socket and its client

The client's sockets and the handler's end of them are put together by number: the backlog,
the connection in the hands of `accept_loop`, and the one that is served. -/

/-- The variables of one call of `connectUnixSocket`, and the handler's end of the socket. -/
structure World where
  client : State
  /-- The connections that `accept` has not returned. -/
  backlog : List Nat
  /-- The connection that the accept thread holds and has not installed. -/
  accepting : Option Nat
  clientFd : Option Nat
  /-- The connections the handler has closed. -/
  closed : List Nat
  /-- The sockets that nobody listened to. -/
  refused : List Nat

namespace World

/-- `main` calls `connectUnixSocket`. -/
def initial (pathExists refused : Bool) : World :=
  { client := start false pathExists
    backlog := if pathExists && !refused then [0] else []
    accepting := none
    clientFd := none
    closed := []
    refused := if pathExists && refused then [0] else [] }

/-- The socket has been, or is being, closed from one of its ends. -/
def Closing (w : World) (k : NetSocket) : Prop :=
  k.destroyed = true ∨ k.id ∈ w.closed ∨ k.id ∈ w.refused ∧ k.errored = true

instance (w : World) (k : NetSocket) : Decidable (w.Closing k) :=
  inferInstanceAs (Decidable (_ ∨ _ ∨ _ ∧ _))

/-- What the page's server, the kernel or the handler does next. -/
inductive Action
  /-- A timer fires.  If there is a path, a listener takes the connection or refuses it. -/
  | timer (i : Nat) (pathExists refused : Bool)
  | connect (id : Nat)
  | error (id : Nat)
  | close (id : Nat)
  /-- `accept` returns. -/
  | accept
  /-- The critical section of `accept_loop`. -/
  | install
  /-- The critical section of `send_loop` after a failed write. -/
  | dropClient

/-- One step of the client and the handler's loops together. -/
def step (w : World) : Action → Option World
  | .timer i pathExists refused =>
      (UnixSocket.step false w.client (.timer i pathExists)).map fun client =>
        { w with
          client
          backlog := if pathExists && !refused then w.backlog ++ [w.client.created] else w.backlog
          refused := if pathExists && refused then w.client.created :: w.refused else w.refused }
  | .connect id =>
      if id ∈ w.refused then none
      else (UnixSocket.step false w.client (.connect id)).map fun client => { w with client }
  | .error id =>
      if id ∈ w.refused then
        (UnixSocket.step false w.client (.error id)).map fun client => { w with client }
      else none
  | .close id =>
      if ∃ k ∈ w.client.sockets, k.id = id ∧ w.Closing k then
        (UnixSocket.step false w.client (.close id)).map fun client => { w with client }
      else none
  | .accept =>
      match w.accepting, w.backlog with
      | none, c :: backlog => some { w with accepting := some c, backlog }
      | _, _ => none
  | .install =>
      match w.accepting with
      | some c =>
          some { w with
            accepting := none
            clientFd := some c
            closed := w.clientFd.toList ++ w.closed }
      | none => none
  | .dropClient =>
      match w.clientFd with
      | some c => some { w with clientFd := none, closed := c :: w.closed }
      | none => none

/-- The steps that are `error` events. -/
def Action.isError : Action → Bool
  | .error _ => true
  | _ => false

/-- The connections the handler has not closed, in order. -/
def queue (w : World) : List Nat := w.clientFd.toList ++ (w.accepting.toList ++ w.backlog)

/-- What has become of a connection. -/
def Handled (w : World) (id : Nat) : Prop := id ∈ w.refused ∨ id ∈ w.queue ∨ id ∈ w.closed

/-- After this many errors. -/
structure Inv (errors : Nat) (w : World) : Prop where
  ids : Ids w.client
  stopped : w.client.stopped = false
  attempts : w.client.attempts = 1 + errors
  placed : ∀ k ∈ w.client.sockets, w.Handled k.id
  fresh : ∀ id, w.Handled id → id < w.client.created
  once : w.queue.Nodup

theorem inv_initial (pathExists refused : Bool) : Inv 0 (initial pathExists refused) := by
  cases pathExists <;> cases refused <;> constructor <;>
    simp [initial, start, UnixSocket.connect, setTimer, Handled, queue, State.attempts, ids_iff]

/-! ### What the steps keep

Every `error` leaves one attempt more, and no other step changes their number.  Each socket
of the client is one that was refused, one that the handler still has, or one that it has
closed. -/

section

variable {w v : World} {errors : Nat}

/-- The handler takes a connection on, or closes one. -/
theorem Inv.of_queue (h : Inv errors w) (hclient : v.client = w.client)
    (hqueue : v.queue.Sublist w.queue) (hhandled : ∀ id, v.Handled id ↔ w.Handled id) :
    Inv errors v where
  ids := hclient ▸ h.ids
  stopped := hclient ▸ h.stopped
  attempts := hclient ▸ h.attempts
  placed := fun k hk => (hhandled _).mpr (h.placed k (hclient ▸ hk))
  fresh := fun id hid => hclient ▸ h.fresh id ((hhandled id).mp hid)
  once := h.once.sublist hqueue

/-- A timer fires and the path does not exist. -/
theorem Inv.retry (h : Inv errors w) {i : Nat} (hi : i < w.client.timers.length) :
    Inv errors { w with
      client := UnixSocket.connect false false
        { w.client with timers := w.client.timers.eraseIdx i } } := by
  have hattempts := h.attempts
  have hlength := List.length_eraseIdx_of_lt hi
  have hconnect : UnixSocket.connect false false
      { w.client with timers := w.client.timers.eraseIdx i } =
        { w.client with
          timers := w.client.timers.eraseIdx i ++ [w.client.retryMs]
          retryMs := min (w.client.retryMs * (3 / 2)) 5000 } := by
    simp [UnixSocket.connect, setTimer, h.stopped]
  rw [hconnect]
  refine ⟨⟨h.ids.nodup, h.ids.created⟩, h.stopped, ?_, h.placed, h.fresh, h.once⟩
  simp only [State.attempts, List.length_append, List.length_singleton] at hattempts ⊢
  omega

/-- A timer fires, and a socket is created. -/
theorem connect_true {s : State} (hs : s.stopped = false) (i : Nat) :
    UnixSocket.connect false true { s with timers := s.timers.eraseIdx i } =
      { s with
        timers := s.timers.eraseIdx i
        retryMs := 500
        socket := some s.created
        sockets := s.sockets ++ [{ id := s.created, destroyed := false, errored := false }]
        created := s.created + 1 } := by
  simp [UnixSocket.connect, hs]

theorem Inv.create (h : Inv errors w) {i : Nat} (hi : i < w.client.timers.length)
    {backlog refused : List Nat}
    (hplace : backlog = w.backlog ++ [w.client.created] ∧ refused = w.refused ∨
      backlog = w.backlog ∧ refused = w.client.created :: w.refused) :
    Inv errors { w with
      client := UnixSocket.connect false true
        { w.client with timers := w.client.timers.eraseIdx i }
      backlog
      refused } := by
  have hattempts := h.attempts
  have hlength := List.length_eraseIdx_of_lt hi
  have hnew : w.client.created ∉ w.queue := fun hmem =>
    absurd (h.fresh _ (Or.inr (Or.inl hmem))) (Nat.lt_irrefl _)
  have hhandled : ∀ id, ({ w with backlog, refused } : World).Handled id ↔
      w.Handled id ∨ id = w.client.created := by
    intro id
    rcases hplace with ⟨rfl, rfl⟩ | ⟨rfl, rfl⟩
    · simp only [Handled, queue, List.mem_append, List.mem_singleton]
      tauto
    · simp only [Handled, queue, List.mem_cons]
      tauto
  rw [connect_true h.stopped]
  refine ⟨?_, h.stopped, ?_, ?_, ?_, ?_⟩
  · refine ⟨?_, fun k hk => ?_⟩
    · rw [List.map_append, List.map_singleton]
      rw [← List.concat_eq_append]
      refine List.Nodup.concat (fun hid => ?_) h.ids.nodup
      obtain ⟨k, hk, hid⟩ := List.mem_map.mp hid
      exact absurd hid (h.ids.created k hk).ne
    · rcases List.mem_append.mp hk with hold | hnew
      · exact Nat.lt_succ_of_lt (h.ids.created k hold)
      · rw [List.mem_singleton.mp hnew]
        exact Nat.lt_succ_self _
  · simp only [State.attempts, List.length_append, List.length_singleton] at hattempts ⊢
    omega
  · intro k hk
    refine (hhandled k.id).mpr ?_
    rcases List.mem_append.mp hk with hold | hnew
    · exact Or.inl (h.placed k hold)
    · exact Or.inr (by rw [List.mem_singleton.mp hnew])
  · intro id hid
    rcases (hhandled id).mp hid with hold | rfl
    · exact Nat.lt_succ_of_lt (h.fresh id hold)
    · exact Nat.lt_succ_self _
  · rcases hplace with ⟨rfl, rfl⟩ | ⟨rfl, rfl⟩
    · show (w.clientFd.toList ++ (w.accepting.toList ++ (w.backlog ++ [w.client.created]))).Nodup
      rw [← List.append_assoc, ← List.append_assoc, List.append_assoc w.clientFd.toList,
        ← List.concat_eq_append]
      exact List.Nodup.concat hnew h.once
    · exact h.once

theorem Inv.error (h : Inv errors w) (id : Nat) :
    Inv (errors + 1) { w with client := onError w.client id } := by
  refine ⟨h.ids.onError id, h.stopped, ?_, fun k hk => ?_, h.fresh, h.once⟩
  · show (onError w.client id).attempts = _
    rw [attempts_onError, h.attempts]
    omega
  · have hmem := List.mem_map_of_mem (f := NetSocket.id) hk
    rw [map_id_onError] at hmem
    obtain ⟨j, hj, hid⟩ := List.mem_map.mp hmem
    show w.Handled k.id
    rw [← hid]
    exact h.placed j hj

theorem Inv.close (h : Inv errors w) {k : NetSocket} (hk : k ∈ w.client.sockets) :
    Inv errors { w with client := onClose w.client k.id } := by
  refine ⟨h.ids.onClose k.id, h.stopped, ?_, fun j hj => ?_, h.fresh, h.once⟩
  · show (onClose w.client k.id).attempts = _
    rw [attempts_onClose h.ids hk, h.attempts]
  · exact h.placed j (List.mem_filter.mp hj).1

theorem inv_step {a : Action} (h : Inv errors w) (hstep : step w a = some v) :
    Inv (errors + if a.isError then 1 else 0) v := by
  cases a with
  | timer i pathExists refused =>
    obtain ⟨client, hclient, rfl⟩ := Option.map_eq_some_iff.mp hstep
    obtain ⟨hi, hclient⟩ := Option.ite_none_right_eq_some.mp hclient
    obtain rfl := Option.some.inj hclient
    cases pathExists with
    | false => exact h.retry hi
    | true =>
      cases refused with
      | false => exact h.create hi (Or.inl ⟨rfl, rfl⟩)
      | true => exact h.create hi (Or.inr ⟨rfl, rfl⟩)
  | connect id =>
    obtain ⟨-, hstep⟩ := Option.ite_none_left_eq_some.mp hstep
    obtain ⟨client, hclient, rfl⟩ := Option.map_eq_some_iff.mp hstep
    obtain ⟨-, hclient⟩ := Option.ite_none_right_eq_some.mp hclient
    obtain rfl := Option.some.inj hclient
    exact ⟨⟨h.ids.nodup, h.ids.created⟩, h.stopped, h.attempts, h.placed, h.fresh, h.once⟩
  | error id =>
    obtain ⟨-, hstep⟩ := Option.ite_none_right_eq_some.mp hstep
    obtain ⟨client, hclient, rfl⟩ := Option.map_eq_some_iff.mp hstep
    obtain ⟨-, hclient⟩ := Option.ite_none_right_eq_some.mp hclient
    obtain rfl := Option.some.inj hclient
    exact h.error id
  | close id =>
    obtain ⟨⟨k, hk, rfl, -⟩, hstep⟩ := Option.ite_none_right_eq_some.mp hstep
    obtain ⟨client, hclient, rfl⟩ := Option.map_eq_some_iff.mp hstep
    obtain ⟨-, hclient⟩ := Option.ite_none_right_eq_some.mp hclient
    obtain rfl := Option.some.inj hclient
    exact h.close hk
  | accept =>
    simp only [step] at hstep
    split at hstep
    · rename_i c backlog haccepting hbacklog
      obtain rfl := Option.some.inj hstep
      have hqueue : ({ w with accepting := some c, backlog } : World).queue = w.queue := by
        simp [queue, haccepting, hbacklog]
      refine h.of_queue rfl (hqueue ▸ List.Sublist.refl _) fun id => ?_
      rw [Handled, hqueue]
      rfl
    · cases hstep
  | install =>
    simp only [step] at hstep
    split at hstep
    · rename_i c haccepting
      obtain rfl := Option.some.inj hstep
      refine h.of_queue rfl ?_ fun id => ?_
      · simp [queue, haccepting]
      · simp only [Handled, queue, haccepting, List.mem_append, Option.mem_toList,
          Option.toList_some, Option.toList_none, List.mem_singleton, List.not_mem_nil]
        tauto
    · cases hstep
  | dropClient =>
    simp only [step] at hstep
    split at hstep
    · rename_i c hclient
      obtain rfl := Option.some.inj hstep
      refine h.of_queue rfl ?_ fun id => ?_
      · simp [queue, hclient]
      · simp only [Handled, queue, hclient, List.mem_append, List.mem_cons, Option.toList_some,
          Option.toList_none, List.not_mem_nil]
        tauto
    · cases hstep

/-- What holds after a run. -/
theorem inv_run {actions : List Action} (h : Inv errors w)
    (hrun : Transition.run step w actions = some v) :
    Inv (errors + actions.countP Action.isError) v := by
  induction actions generalizing w errors with
  | nil =>
    obtain rfl := Option.some.inj hrun
    exact h
  | cons a actions ih =>
    obtain ⟨u, hstep, hrest⟩ := Transition.run_cons_eq_some.mp hrun
    have hlater := ih (inv_step h hstep) hrest
    rw [List.countP_cons, Nat.add_comm (actions.countP _), ← Nat.add_assoc]
    exact hlater

end

/-! ### What is left to do

`work` bounds the steps that are due while the same connection is served.  Each of them makes
it smaller, and there is always one as long as there are two attempts: before `work` is used
up, the handler has installed another connection. -/

/-- The path exists, its listener takes every connection, and writes do not fail. -/
def Action.isCalm : Action → Bool
  | .timer _ pathExists refused => pathExists && !refused
  | .dropClient => false
  | _ => true

/-- Of these, all but `connect` lead to something. -/
def Action.isDue : Action → Bool
  | .connect _ => false
  | a => a.isCalm

/-- What the failing or the closing of a socket leaves to do, with one step for itself. -/
def weight (w : World) (k : NetSocket) : Nat :=
  if k.id ∈ w.refused ∧ k.errored = false then 12 else if w.Closing k then 4 else 0

/-- Steps that are still due, at most, as long as the same connection is served. -/
def work (w : World) : Nat :=
  (w.client.sockets.map w.weight).sum + 3 * w.client.timers.length + 2 * w.backlog.length +
    w.accepting.toList.length

section

variable {w v : World} {errors : Nat}

theorem weight_le (w : World) (k : NetSocket) : w.weight k ≤ 12 := by
  unfold weight
  split_ifs <;> decide

theorem weight_of_closing {k : NetSocket} (h : w.Closing k) : 4 ≤ w.weight k := by
  unfold weight
  split_ifs <;> decide

theorem work_le (h : Inv errors w) : work w ≤ 12 * (1 + errors) + 2 * w.backlog.length + 1 := by
  have hsum : (w.client.sockets.map w.weight).sum ≤ 12 * w.client.sockets.length := by
    induction w.client.sockets with
    | nil => exact Nat.zero_le _
    | cons k sockets ih =>
      have hk := weight_le w k
      rw [List.map_cons, List.sum_cons, List.length_cons]
      omega
  have haccepting : w.accepting.toList.length ≤ 1 := by
    cases w.accepting <;> simp
  have hattempts := h.attempts
  simp only [State.attempts] at hattempts
  unfold work
  omega

/-- With two attempts there is always something to do. -/
theorem exists_due (h : Inv errors w) (herrors : 0 < errors) :
    ∃ a : Action, a.isDue = true ∧ (step w a).isSome = true := by
  by_cases htimers : w.client.timers = []
  · cases haccepting : w.accepting with
    | some c => exact ⟨.install, rfl, by simp [step, haccepting]⟩
    | none =>
      cases hbacklog : w.backlog with
      | cons c backlog => exact ⟨.accept, rfl, by simp [step, haccepting, hbacklog]⟩
      | nil =>
        by_contra hnothing
        -- the sockets are all connections that the handler serves, but it serves one
        have hserved : ∀ k ∈ w.client.sockets, k.id ∈ w.clientFd.toList := by
          intro k hk
          have hopen : ¬ w.Closing k := by
            intro hclosing
            have hmem : ∃ j ∈ w.client.sockets, j.id = k.id ∧ w.Closing j := ⟨k, hk, rfl, hclosing⟩
            have hany : (w.client.sockets.any fun j => decide (j.id = k.id)) = true :=
              List.any_eq_true.mpr ⟨k, hk, decide_eq_true rfl⟩
            refine hnothing ⟨.close k.id, rfl, ?_⟩
            rw [step, if_pos hmem, UnixSocket.step, if_pos hany]
            rfl
          have hlistener : k.id ∉ w.refused := by
            intro hrefused
            have herrored : k.errored = false := by
              by_contra hne
              exact hopen (Or.inr (Or.inr ⟨hrefused, by simpa using hne⟩))
            have hany : (w.client.sockets.any fun j => decide (j.id = k.id ∧ (!j.errored) = true)) =
                true := List.any_eq_true.mpr ⟨k, hk, by simp [herrored]⟩
            refine hnothing ⟨.error k.id, rfl, ?_⟩
            rw [step, if_pos hrefused, UnixSocket.step, if_pos hany]
            rfl
          rcases h.placed k hk with hrefused | hqueue | hclosed
          · exact absurd hrefused hlistener
          · simpa [queue, haccepting, hbacklog] using hqueue
          · exact absurd (Or.inr (Or.inl hclosed)) hopen
        have hsubset : w.client.sockets.map NetSocket.id ⊆ w.clientFd.toList := by
          intro id hid
          obtain ⟨k, hk, rfl⟩ := List.mem_map.mp hid
          exact hserved k hk
        have hone := (List.subperm_of_subset h.ids.nodup hsubset).length_le
        have hclient : w.clientFd.toList.length ≤ 1 := by
          cases w.clientFd <;> simp
        have hattempts := h.attempts
        simp only [State.attempts, htimers, List.length_nil, List.length_map] at hattempts hone
        omega
  · have hi : 0 < w.client.timers.length := List.length_pos_iff.mpr htimers
    exact ⟨.timer 0 true false, rfl, by simp [step, UnixSocket.step, hi]⟩

/-- A new socket is neither refused nor closed. -/
theorem work_create (h : Inv errors w) {i : Nat} (hi : i < w.client.timers.length) :
    work { w with
      client := UnixSocket.connect false true
        { w.client with timers := w.client.timers.eraseIdx i }
      backlog := w.backlog ++ [w.client.created] } + 1 ≤ work w := by
  have hlength := List.length_eraseIdx_of_lt hi
  have hfresh : ∀ id, w.Handled id → id ≠ w.client.created := fun id hid => (h.fresh id hid).ne
  have hnew : w.weight { id := w.client.created, destroyed := false, errored := false } = 0 := by
    have hrefused : w.client.created ∉ w.refused := fun hmem => hfresh _ (Or.inl hmem) rfl
    have hclosed : w.client.created ∉ w.closed := fun hmem => hfresh _ (Or.inr (Or.inr hmem)) rfl
    simp [weight, Closing, hrefused, hclosed]
  rw [connect_true h.stopped]
  show ((w.client.sockets ++ [_]).map w.weight).sum + 3 * (w.client.timers.eraseIdx i).length +
    2 * (w.backlog ++ [w.client.created]).length + w.accepting.toList.length + 1 ≤ work w
  rw [List.map_append, List.sum_append, List.map_singleton, hnew, List.length_append,
    List.length_singleton, work]
  simp only [List.sum_cons, List.sum_nil]
  omega

theorem work_close (h : Inv errors w) {k : NetSocket} (hk : k ∈ w.client.sockets)
    (hclosing : w.Closing k) : work { w with client := onClose w.client k.id } + 1 ≤ work w := by
  have hsum := sum_filter_ne h.ids.nodup hk w.weight
  have hweight := weight_of_closing hclosing
  show ((w.client.sockets.filter (·.id ≠ k.id)).map w.weight).sum +
    3 * (w.client.timers ++ [w.client.retryMs]).length + 2 * w.backlog.length +
      w.accepting.toList.length + 1 ≤ work w
  rw [List.length_append, List.length_singleton, work]
  omega

/-- A socket as `onError` leaves it. -/
def afterError (s : State) (id : Nat) (k : NetSocket) : NetSocket :=
  (k.fail id).destroyVia s.socket

theorem afterError_eq (s : State) (id : Nat) (k : NetSocket) : afterError s id k =
    if s.socket = some k.id then { k.fail id with destroyed := true } else k.fail id := by
  simp only [afterError, NetSocket.destroyVia, NetSocket.id_fail]

theorem sockets_onError (s : State) (id : Nat) :
    (onError s id).sockets = s.sockets.map (afterError s id) := by
  show List.map _ (List.map _ s.sockets) = _
  rw [List.map_map]
  rfl

theorem weight_afterError {k : NetSocket} {id : Nat} (hid : id ∈ w.refused)
    (hk : k.id = id → k.errored = false) :
    w.weight (afterError w.client id k) + (if k.id = id then 8 else 0) ≤
      w.weight k + if w.client.socket = some k.id then 4 else 0 := by
  by_cases heq : k.id = id
  · have herrored := hk heq
    subst heq
    by_cases hsocket : w.client.socket = some k.id
    · simp [afterError_eq, NetSocket.fail, weight, Closing, hid, herrored, hsocket]
    · simp [afterError_eq, NetSocket.fail, weight, Closing, hid, herrored, hsocket]
  · by_cases hsocket : w.client.socket = some k.id
    · simp only [afterError_eq, NetSocket.fail, heq, hsocket, weight, Closing, if_false, if_true]
      split_ifs <;> simp_all
    · simp [afterError_eq, NetSocket.fail, heq, hsocket]

theorem sum_afterError {sockets : List NetSocket} {id : Nat} (hid : id ∈ w.refused)
    (hsockets : ∀ k ∈ sockets, k.id = id → k.errored = false) :
    ((sockets.map (afterError w.client id)).map w.weight).sum + 8 * sockets.countP (·.id = id) ≤
      (sockets.map w.weight).sum + 4 * sockets.countP fun k => w.client.socket = some k.id := by
  induction sockets with
  | nil => exact Nat.le_refl _
  | cons k sockets ih =>
    have hfirst := weight_afterError hid (hsockets k (List.mem_cons_self ..))
    have hrest := ih fun j hj => hsockets j (List.mem_cons_of_mem k hj)
    simp only [List.map_cons, List.sum_cons, List.countP_cons, decide_eq_true_eq] at hfirst hrest ⊢
    split_ifs at hfirst ⊢ <;> omega

/-- No two sockets have the number. -/
theorem countP_id_le (hids : Ids w.client) (id : Option Nat) :
    (w.client.sockets.countP fun k => id = some k.id) ≤ 1 := by
  let same := w.client.sockets.filter fun k => id = some k.id
  have hnodup : (same.map NetSocket.id).Nodup :=
    hids.nodup.sublist (List.filter_sublist.map NetSocket.id)
  have hsubset : same.map NetSocket.id ⊆ id.toList := by
    intro i hi
    obtain ⟨k, hk, rfl⟩ := List.mem_map.mp hi
    rw [Option.mem_toList]
    exact of_decide_eq_true (List.mem_filter.mp hk).2
  have hone := (List.subperm_of_subset hnodup hsubset).length_le
  have hid : id.toList.length ≤ 1 := by
    cases id <;> simp
  rw [List.length_map] at hone
  rw [List.countP_eq_length_filter]
  exact hone.trans hid

theorem work_error (h : Inv errors w) {k : NetSocket} (hk : k ∈ w.client.sockets)
    (hrefused : k.id ∈ w.refused) (herrored : k.errored = false) :
    work { w with client := onError w.client k.id } + 1 ≤ work w := by
  have hsockets : ∀ j ∈ w.client.sockets, j.id = k.id → j.errored = false := by
    intro j hj heq
    rw [List.inj_on_of_nodup_map h.ids.nodup hj hk heq]
    exact herrored
  have hsum := sum_afterError hrefused hsockets
  have hself : 0 < w.client.sockets.countP (·.id = k.id) :=
    List.countP_pos_iff.mpr ⟨k, hk, decide_eq_true rfl⟩
  have hdestroyed := countP_id_le h.ids w.client.socket
  have htimers : (onError w.client k.id).timers.length = w.client.timers.length + 1 :=
    List.length_append
  show ((onError w.client k.id).sockets.map w.weight).sum +
    3 * (onError w.client k.id).timers.length + 2 * w.backlog.length +
      w.accepting.toList.length + 1 ≤ work w
  rw [sockets_onError, htimers, work]
  omega

/-- What is due gets done as long as the same connection is served. -/
theorem work_step {a : Action} {c : Nat} (h : Inv errors w) (hcalm : a.isCalm = true)
    (hbefore : w.clientFd = some c) (hafter : v.clientFd = some c) (hstep : step w a = some v) :
    work v + (if a.isDue then 1 else 0) ≤ work w := by
  cases a with
  | timer i pathExists refused =>
    obtain ⟨rfl, rfl⟩ : pathExists = true ∧ refused = false := by
      simpa [Action.isCalm] using hcalm
    obtain ⟨client, hclient, rfl⟩ := Option.map_eq_some_iff.mp hstep
    obtain ⟨hi, hclient⟩ := Option.ite_none_right_eq_some.mp hclient
    obtain rfl := Option.some.inj hclient
    exact work_create h hi
  | connect id =>
    obtain ⟨-, hstep⟩ := Option.ite_none_left_eq_some.mp hstep
    obtain ⟨client, hclient, rfl⟩ := Option.map_eq_some_iff.mp hstep
    obtain ⟨-, hclient⟩ := Option.ite_none_right_eq_some.mp hclient
    obtain rfl := Option.some.inj hclient
    exact Nat.le_refl (work w)
  | error id =>
    obtain ⟨hid, hstep⟩ := Option.ite_none_right_eq_some.mp hstep
    obtain ⟨client, hclient, rfl⟩ := Option.map_eq_some_iff.mp hstep
    obtain ⟨hany, hclient⟩ := Option.ite_none_right_eq_some.mp hclient
    obtain rfl := Option.some.inj hclient
    obtain ⟨k, hk, hcond⟩ := List.any_eq_true.mp hany
    obtain ⟨rfl, herrored⟩ := of_decide_eq_true hcond
    exact work_error h hk hid (by simpa using herrored)
  | close id =>
    obtain ⟨⟨k, hk, rfl, hclosing⟩, hstep⟩ := Option.ite_none_right_eq_some.mp hstep
    obtain ⟨client, hclient, rfl⟩ := Option.map_eq_some_iff.mp hstep
    obtain ⟨-, hclient⟩ := Option.ite_none_right_eq_some.mp hclient
    obtain rfl := Option.some.inj hclient
    exact work_close h hk hclosing
  | accept =>
    simp only [step] at hstep
    split at hstep
    · rename_i d backlog haccepting hbacklog
      obtain rfl := Option.some.inj hstep
      show (w.client.sockets.map w.weight).sum + 3 * w.client.timers.length + 2 * backlog.length +
        (some d).toList.length + 1 ≤ work w
      rw [work, haccepting, hbacklog, List.length_cons, Option.toList_some, Option.toList_none,
        List.length_singleton, List.length_nil]
      omega
    · cases hstep
  | install =>
    -- the connection installed would be the one that is served
    simp only [step] at hstep
    split at hstep
    · rename_i d haccepting
      obtain rfl := Option.some.inj hstep
      have honce := h.once
      rw [queue, hbefore, haccepting, Option.some.inj hafter] at honce
      simp at honce
    · cases hstep
  | dropClient => cases hcalm

theorem due_le_work {actions : List Action} {c : Nat} (h : Inv errors w)
    (hcalm : ∀ a ∈ actions, a.isCalm = true)
    (hserved : Transition.Throughout step (fun w => w.clientFd = some c) w actions)
    (hrun : Transition.run step w actions = some v) :
    actions.countP Action.isDue + work v ≤ work w := by
  induction actions generalizing w errors with
  | nil =>
    obtain rfl := Option.some.inj hrun
    simp
  | cons a actions ih =>
    obtain ⟨u, hstep, hrest⟩ := Transition.run_cons_eq_some.mp hrun
    have hlater := hserved.2 u hstep
    have hafter : u.clientFd = some c :=
      Transition.throughout_head (P := fun t : World => t.clientFd = some c) hlater
    have hfirst := work_step h (hcalm a (List.mem_cons_self ..)) hserved.1 hafter hstep
    have hmore := ih (inv_step h hstep) (fun b hb => hcalm b (List.mem_cons_of_mem a hb)) hlater
      hrest
    rw [List.countP_cons]
    omega

end

/-- **After an error no connection lasts.**  In every run there is one attempt more than there
have been errors.  If there has been one, something is due, a timer, a socket's event or a
step of the accept thread; and as long as the path exists, every connection is taken and no
write fails, only a bounded number of such steps can be taken before the connection that the
handler serves is another. -/
theorem evicted {pathExists refused : Bool} {actions : List Action} {w : World}
    (hrun : Transition.run step (initial pathExists refused) actions = some w) :
    w.client.attempts = 1 + actions.countP Action.isError ∧
      (0 < actions.countP Action.isError →
        ∃ a : Action, a.isDue = true ∧ (step w a).isSome = true) ∧
      ∀ c later v, (∀ a ∈ later, a.isCalm = true) →
        Transition.Throughout step (fun w => w.clientFd = some c) w later →
        Transition.run step w later = some v →
        later.countP Action.isDue ≤
          12 * (1 + actions.countP Action.isError) + 2 * w.backlog.length + 1 := by
  have hinv := inv_run (inv_initial pathExists refused) hrun
  rw [Nat.zero_add] at hinv
  refine ⟨hinv.attempts, exists_due hinv, fun c later v hcalm hserved hlater => ?_⟩
  have hdone := due_le_work hinv hcalm hserved hlater
  have hbound := work_le hinv
  omega

/-- The first connection is refused.  The two that follow take each other's place: the handler
serves the first, then the second; the first is closed, and comes back. -/
theorem evicted_twice : ∃ w v,
    Transition.run step (initial true true) [.error 0, .close 0, .timer 0 true false,
      .timer 0 true false, .accept, .install] = some w ∧ w.clientFd = some 1 ∧
    w.client.attempts = 2 ∧
    [Action.accept].countP Action.isDue ≤ 12 * 2 + 2 * w.backlog.length + 1 ∧
    Transition.run step w [.accept, .install, .close 1, .timer 0 true false, .accept, .install] =
      some v ∧ v.clientFd = some 3 ∧ v.closed = [2, 1] := by
  obtain ⟨w, hw, hclient, v, hv, hlast, hclosed, u, hu, hserved⟩ : ∃ w,
      Transition.run step (initial true true) [.error 0, .close 0, .timer 0 true false,
        .timer 0 true false, .accept, .install] = some w ∧ w.clientFd = some 1 ∧ ∃ v,
      Transition.run step w [.accept, .install, .close 1, .timer 0 true false, .accept, .install] =
        some v ∧ v.clientFd = some 3 ∧ v.closed = [2, 1] ∧ ∃ u,
      step w .accept = some u ∧ u.clientFd = some 1 :=
    ⟨_, rfl, rfl, _, rfl, rfl, rfl, _, rfl, rfl⟩
  obtain ⟨hattempts, -, hbound⟩ := evicted hw
  refine ⟨w, v, hw, hclient, hattempts, ?_, hv, hlast, hclosed⟩
  refine hbound 1 [.accept] u (by decide) ⟨hclient, fun t ht => ?_⟩ ?_
  · rw [hu] at ht
    obtain rfl := Option.some.inj ht
    exact hserved
  · exact Transition.run_cons_eq_some.mpr ⟨u, hu, rfl⟩

/-! ## Nobody listens

In a round every pending timer makes a socket, and every socket closes.  An `error` fails one
of them and destroys at most one more, the one that the shared variable refers to.  So at
least half of the sockets have an `error` of their own, which leaves an attempt more. -/

/-- The path exists, and every connection is refused. -/
def Action.isRefusal : Action → Bool
  | .timer _ pathExists refused => pathExists && refused
  | .error _ => true
  | .close _ => true
  | _ => false

/-- The steps that are callbacks of timers. -/
def Action.isTimer : Action → Bool
  | .timer .. => true
  | _ => false

/-- Neither failed nor destroyed. -/
def isIntact (k : NetSocket) : Bool := !k.errored && !k.destroyed

/-- How many sockets are intact. -/
def intact (w : World) : Nat := w.client.sockets.countP isIntact

/-- The sockets that have not failed. -/
def unfailed (w : World) : Nat := w.client.sockets.countP fun k => !k.errored

/-- As many timers fire as are pending, all connections are refused, and all sockets close. -/
structure Round (w v : World) (actions : List Action) : Prop where
  run : Transition.run step w actions = some v
  refused : ∀ a ∈ actions, a.isRefusal = true
  fired : actions.countP Action.isTimer = w.client.timers.length
  closed : v.client.sockets = []

section

variable {w v : World} {errors : Nat}

/-- An `error` fails one socket, and destroys one at most. -/
theorem isIntact_afterError (s : State) (id : Nat) (k : NetSocket) :
    (if isIntact k then 1 else 0) ≤ (if isIntact (afterError s id k) then 1 else 0) +
      (if some id = some k.id then 1 else 0) + if s.socket = some k.id then 1 else 0 := by
  by_cases hid : some id = some k.id
  · rw [if_pos hid]
    split <;> omega
  · by_cases hsocket : s.socket = some k.id
    · rw [if_pos hsocket]
      split <;> omega
    · have hsame : afterError s id k = k := by
        have hne : k.id ≠ id := fun heq => hid (congrArg some heq.symm)
        simp only [afterError_eq, NetSocket.fail, if_neg hne, if_neg hsocket]
      rw [hsame]
      omega

theorem countP_afterError (s : State) (id : Nat) (sockets : List NetSocket) :
    sockets.countP isIntact ≤ (sockets.map (afterError s id)).countP isIntact +
      (sockets.countP fun k => some id = some k.id) +
        sockets.countP fun k => s.socket = some k.id := by
  induction sockets with
  | nil => exact Nat.le_refl _
  | cons k sockets ih =>
    have hfirst := isIntact_afterError s id k
    simp only [List.map_cons, List.countP_cons, decide_eq_true_eq]
    omega

theorem intact_error (h : Inv errors w) (id : Nat) :
    w.intact ≤ ({ w with client := onError w.client id } : World).intact + 2 := by
  have hid := countP_id_le h.ids (some id)
  have hsocket := countP_id_le h.ids w.client.socket
  have hall := countP_afterError w.client id w.client.sockets
  simp only [intact, sockets_onError]
  omega

theorem errored_afterError (s : State) (id : Nat) (k : NetSocket) :
    (!(afterError s id k).errored) = (!k.errored && decide (k.id ≠ id)) := by
  simp only [afterError_eq, NetSocket.fail]
  by_cases hid : k.id = id
  · simp only [hid]
    split_ifs <;> simp
  · simp only [if_neg hid]
    split_ifs <;> simp [hid]

/-- A socket fails once. -/
theorem unfailed_error {k : NetSocket} (hk : k ∈ w.client.sockets) (herrored : k.errored = false) :
    ({ w with client := onError w.client k.id } : World).unfailed + 1 ≤ w.unfailed := by
  have hsplit := List.countP_eq_countP_filter_add w.client.sockets (fun j => !j.errored)
    (fun j => decide (j.id ≠ k.id))
  have hself : 0 < (w.client.sockets.filter fun j => !decide (j.id ≠ k.id)).countP
      fun j => !j.errored :=
    List.countP_pos_iff.mpr ⟨k, List.mem_filter.mpr ⟨hk, by simp⟩, by simp [herrored]⟩
  have hothers : ({ w with client := onError w.client k.id } : World).unfailed =
      (w.client.sockets.filter fun j => decide (j.id ≠ k.id)).countP fun j => !j.errored := by
    rw [unfailed, sockets_onError, List.countP_map, List.countP_filter]
    exact congrArg (List.countP · _) (funext fun j => errored_afterError w.client k.id j)
  rw [hothers, unfailed, hsplit]
  omega

/-- A socket that closes was not intact. -/
theorem intact_close {id : Nat} (hbroken : ∀ k ∈ w.client.sockets, k.id = id → isIntact k = false) :
    ({ w with client := onClose w.client id } : World).intact = w.intact := by
  show (w.client.sockets.filter (·.id ≠ id)).countP isIntact = _
  rw [List.countP_filter]
  refine List.countP_congr fun k hk => ?_
  rw [Bool.and_eq_true, and_iff_left_iff_imp]
  intro hintact
  refine decide_eq_true fun heq => ?_
  rw [hbroken k hk heq] at hintact
  cases hintact

theorem unfailed_close (id : Nat) :
    ({ w with client := onClose w.client id } : World).unfailed ≤ w.unfailed :=
  List.filter_sublist.countP_le

/-- After steps in which this many timers have fired and this many sockets have failed. -/
structure Counted (w v : World) (fired failed : Nat) : Prop where
  intact : fired + w.intact ≤ 2 * failed + v.intact
  unfailed : failed + v.unfailed ≤ fired + w.unfailed
  notClosed : ∀ k ∈ v.client.sockets, k.id ∉ v.closed

theorem counted_step {a : Action} (h : Inv errors w) (ha : a.isRefusal = true)
    (hclosed : ∀ k ∈ w.client.sockets, k.id ∉ w.closed) (hstep : step w a = some v) :
    Counted w v (if a.isTimer then 1 else 0) (if a.isError then 1 else 0) := by
  cases a with
  | timer i pathExists refused =>
    obtain ⟨rfl, rfl⟩ : pathExists = true ∧ refused = true := by
      simpa [Action.isRefusal] using ha
    obtain ⟨client, hclient, rfl⟩ := Option.map_eq_some_iff.mp hstep
    obtain ⟨hi, hclient⟩ := Option.ite_none_right_eq_some.mp hclient
    obtain rfl := Option.some.inj hclient
    rw [connect_true h.stopped]
    have hnew : w.client.created ∉ w.closed := fun hmem =>
      absurd (h.fresh _ (Or.inr (Or.inr hmem))) (Nat.lt_irrefl _)
    refine ⟨?_, ?_, fun k hk => ?_⟩
    · simp [intact, isIntact, Action.isTimer, Action.isError, Nat.add_comm]
    · simp [unfailed, Action.isTimer, Action.isError, Nat.add_comm]
    · rcases List.mem_append.mp hk with hold | hk
      · exact hclosed k hold
      · rw [List.mem_singleton.mp hk]
        exact hnew
  | error id =>
    obtain ⟨hid, hstep⟩ := Option.ite_none_right_eq_some.mp hstep
    obtain ⟨client, hclient, rfl⟩ := Option.map_eq_some_iff.mp hstep
    obtain ⟨hany, hclient⟩ := Option.ite_none_right_eq_some.mp hclient
    obtain rfl := Option.some.inj hclient
    obtain ⟨k, hk, hcond⟩ := List.any_eq_true.mp hany
    obtain ⟨rfl, herrored⟩ := of_decide_eq_true hcond
    have hintact := intact_error h k.id
    have hunfailed := unfailed_error hk (by simpa using herrored)
    refine ⟨?_, ?_, fun j hj => ?_⟩
    · simp only [Action.isTimer, Action.isError, Bool.false_eq_true, if_false, if_true]
      omega
    · simp only [Action.isTimer, Action.isError, Bool.false_eq_true, if_false, if_true]
      omega
    · have hmem := List.mem_map_of_mem (f := NetSocket.id) hj
      rw [map_id_onError] at hmem
      obtain ⟨i, hi, hsame⟩ := List.mem_map.mp hmem
      rw [← hsame]
      exact hclosed i hi
  | close id =>
    obtain ⟨⟨k, hk, rfl, hclosing⟩, hstep⟩ := Option.ite_none_right_eq_some.mp hstep
    obtain ⟨client, hclient, rfl⟩ := Option.map_eq_some_iff.mp hstep
    obtain ⟨-, hclient⟩ := Option.ite_none_right_eq_some.mp hclient
    obtain rfl := Option.some.inj hclient
    have hbroken : ∀ j ∈ w.client.sockets, j.id = k.id → isIntact j = false := by
      intro j hj heq
      rw [List.inj_on_of_nodup_map h.ids.nodup hj hk heq]
      rcases hclosing with hdestroyed | hclosed' | ⟨-, herrored⟩
      · rw [isIntact, hdestroyed, Bool.not_true, Bool.and_false]
      · exact absurd hclosed' (hclosed k hk)
      · rw [isIntact, herrored, Bool.not_true, Bool.false_and]
    have hintact := intact_close hbroken
    have hunfailed := unfailed_close (w := w) k.id
    refine ⟨?_, ?_, fun j hj => hclosed j (List.mem_filter.mp hj).1⟩
    · simp only [Action.isTimer, Action.isError, Bool.false_eq_true, if_false]
      omega
    · simp only [Action.isTimer, Action.isError, Bool.false_eq_true, if_false]
      omega
  | connect | accept | install | dropClient => cases ha

theorem counted_run {actions : List Action} (h : Inv errors w)
    (hrefused : ∀ a ∈ actions, a.isRefusal = true)
    (hclosed : ∀ k ∈ w.client.sockets, k.id ∉ w.closed)
    (hrun : Transition.run step w actions = some v) :
    Counted w v (actions.countP Action.isTimer) (actions.countP Action.isError) := by
  induction actions generalizing w errors with
  | nil =>
    obtain rfl := Option.some.inj hrun
    exact ⟨by simp, by simp, hclosed⟩
  | cons a actions ih =>
    obtain ⟨u, hstep, hrest⟩ := Transition.run_cons_eq_some.mp hrun
    have hfirst := counted_step h (hrefused a (List.mem_cons_self ..)) hclosed hstep
    have hlater := ih (inv_step h hstep) (fun b hb => hrefused b (List.mem_cons_of_mem a hb))
      hfirst.notClosed hrest
    have hintact := hfirst.intact
    have hunfailed := hfirst.unfailed
    have hintact' := hlater.intact
    have hunfailed' := hlater.unfailed
    refine ⟨?_, ?_, hlater.notClosed⟩
    · rw [List.countP_cons, List.countP_cons]
      omega
    · rw [List.countP_cons, List.countP_cons]
      omega

/-- In a round the timers grow by half at least, and no more than double. -/
theorem Round.grow {actions : List Action} (h : Inv errors w) (hsockets : w.client.sockets = [])
    (hround : Round w v actions) :
    3 * w.client.timers.length ≤ 2 * v.client.timers.length ∧
      v.client.timers.length ≤ 2 * w.client.timers.length := by
  have hcounted := counted_run h hround.refused (by simp [hsockets]) hround.run
  have hattempts := h.attempts
  have hattempts' := (inv_run h hround.run).attempts
  have hintact := hcounted.intact
  have hunfailed := hcounted.unfailed
  simp only [intact, hsockets, hround.closed, hround.fired, List.countP_nil] at hintact
  simp only [unfailed, hsockets, hround.closed, hround.fired, List.countP_nil] at hunfailed
  simp only [State.attempts, hsockets, hround.closed, List.length_nil] at hattempts hattempts'
  omega

end

/-- `n` rounds, one after the other. -/
inductive Rounds (w : World) : Nat → World → Prop
  | zero : Rounds w 0 w
  | succ {n : Nat} {u v : World} {actions : List Action} (h : Rounds w n u)
      (round : Round u v actions) : Rounds w (n + 1) v

theorem Rounds.inv {w v : World} {errors n : Nat} (h : Inv errors w)
    (hsockets : w.client.sockets = []) (hrounds : Rounds w n v) :
    v.client.sockets = [] ∧ ∃ errors', Inv errors' v := by
  induction hrounds with
  | zero => exact ⟨hsockets, errors, h⟩
  | succ _ hround ih =>
    obtain ⟨-, errors', hinv⟩ := ih
    exact ⟨hround.closed, _, inv_run hinv hround.run⟩

/-- **As long as nobody listens the attempts multiply.**  Take any state that is reached with
no socket left, and `n` rounds in each of which as many timers fire as are pending, every
connection is refused and the sockets close, their events in any order.  The timers are then
more by a factor between `1.5 ^ n` and `2 ^ n`. -/
theorem refused_rounds {pathExists refused : Bool} {actions : List Action} {w v : World}
    (hrun : Transition.run step (initial pathExists refused) actions = some w)
    (hsockets : w.client.sockets = []) {n : Nat} (hrounds : Rounds w n v) :
    3 ^ n * w.client.timers.length ≤ 2 ^ n * v.client.timers.length ∧
      v.client.timers.length ≤ 2 ^ n * w.client.timers.length := by
  have hinv := inv_run (inv_initial pathExists refused) hrun
  induction hrounds with
  | zero => simp
  | succ hrounds hround ih =>
    rename_i n u v' as
    obtain ⟨hnone, errors, hinv'⟩ := hrounds.inv hinv hsockets
    obtain ⟨hhalf, hdouble⟩ := hround.grow hinv' hnone
    constructor
    · calc 3 ^ (n + 1) * w.client.timers.length
          = 3 * (3 ^ n * w.client.timers.length) := by ring
        _ ≤ 3 * (2 ^ n * u.client.timers.length) := Nat.mul_le_mul_left 3 ih.1
        _ = 2 ^ n * (3 * u.client.timers.length) := by ring
        _ ≤ 2 ^ n * (2 * v'.client.timers.length) := Nat.mul_le_mul_left _ hhalf
        _ = 2 ^ (n + 1) * v'.client.timers.length := by ring
    · calc v'.client.timers.length
          ≤ 2 * u.client.timers.length := hdouble
        _ ≤ 2 * (2 ^ n * w.client.timers.length) := Nat.mul_le_mul_left 2 ih.2
        _ = 2 ^ (n + 1) * w.client.timers.length := by ring

/-- Two connections are refused at once: the first one's `error` destroys the second, which
closes without one. -/
theorem refused_rounds_three : ∃ w v : World,
    w.client.timers.length = 2 ∧ v.client.timers.length = 3 ∧
    3 ^ 1 * w.client.timers.length ≤ 2 ^ 1 * v.client.timers.length := by
  obtain ⟨w, hw, hsockets, htimers, v, hv, hclosed, hthree⟩ : ∃ w,
      Transition.run step (initial true true) [.error 0, .close 0] = some w ∧
      w.client.sockets = [] ∧ w.client.timers.length = 2 ∧ ∃ v,
      Transition.run step w [.timer 0 true true, .timer 0 true true, .error 1, .close 1, .close 2] =
        some v ∧ v.client.sockets = [] ∧ v.client.timers.length = 3 :=
    ⟨_, rfl, rfl, rfl, _, rfl, rfl, rfl⟩
  have hround : Round w v
      [.timer 0 true true, .timer 0 true true, .error 1, .close 1, .close 2] :=
    ⟨hv, by decide, by rw [htimers]; rfl, hclosed⟩
  exact ⟨w, v, htimers, hthree, (refused_rounds hw hsockets (.succ .zero hround)).1⟩

end World

end Whutfa.UnixSocket
