import Whutfa.CondVar
import Whutfa.IpcSocket

/-! # Waits and wake-ups in the handler

The condition variables of `IpcBridge` (`aa-handler/src/ipc_bridge.cpp`), one for each
socket, with the mutex sections of `enqueue`, `accept_loop`, `send_loop`,
`bridge_read_loop` and `stop` as steps.  `cv.wait(lock, pred)` tests `pred` under the
mutex and blocks if it is false; a thread that is woken takes the mutex and tests again.
`running_` is read and written without the mutex.

On the bridge socket the reader waits too, for a client only, and `enqueue` notifies one
thread.  That it never picks the reader and leaves the send thread behind is because the
reader does not wait while there is a client (`Inv`); the install of a client and `stop`
notify all.
-/
namespace Whutfa.WakeUps

open CondVar (Waiters NoneStranded)

/-- The two threads that may wait on a socket's condition variable. -/
inductive Waiter
  | sender
  | reader
  deriving DecidableEq

/-- Where a send thread is. -/
inductive Sender
  /-- At the test of `running_`. -/
  | top
  /-- At the mutex or in the wait. -/
  | waiting
  /-- In `write_all`. -/
  | writing (fd : Nat)
  /-- `write_all` has returned false. -/
  | failed (fd : Nat)
  | exited
  deriving DecidableEq

/-- Where an accept thread is. -/
inductive Acceptor
  | top
  /-- In `accept`. -/
  | accepting
  /-- `accept` has returned a client. -/
  | holding (client : Nat)
  | exited
  deriving DecidableEq

/-- Where `bridge_read_loop` is. -/
inductive Reader
  | top
  | waiting
  | reading (fd : Nat)
  | exited
  deriving DecidableEq

/-- One socket, and its threads. -/
structure SocketState where
  clientFd : Option Nat
  txQueue : List (List UInt8)
  /-- The threads that are blocked on `cv` and have no wake-up pending. -/
  waiters : Waiters Waiter
  sender : Sender
  acceptor : Acceptor
  /-- `stop` has run its critical section. -/
  shutDown : Bool

/-- Where the call of `stop` is. -/
inductive Stopping
  | notCalled
  /-- Before the critical section of the socket. -/
  | closing (x : SocketName)
  /-- At the joins of the socket's threads. -/
  | joining (x : SocketName)
  | joiningReader
  | returned
  deriving DecidableEq

/-- The members of `IpcBridge` that the waits test, and where its threads are. -/
structure State where
  running : Bool
  sockets : SocketName → SocketState
  reader : Reader
  stopping : Stopping

/-- After `start`. -/
def initial : State :=
  { running := true
    sockets := fun _ =>
      { clientFd := none, txQueue := [], waiters := fun _ => false, sender := .top
        acceptor := .top, shutDown := false }
    reader := .top
    stopping := .notCalled }

/-- The condition of the wait, apart from `!running_`. -/
def Wants (k : SocketState) : Waiter → Prop
  | .sender => k.clientFd ≠ none ∧ k.txQueue ≠ []
  | .reader => k.clientFd ≠ none

instance (k : SocketState) (t : Waiter) : Decidable (Wants k t) := by
  cases t <;> unfold Wants <;> infer_instance

/-- The next socket that `stop` shuts down. -/
def nextSocket : SocketName → Stopping
  | .bridge => .closing .video
  | .video => .closing .audioMedia
  | .audioMedia => .closing .audioSpeech
  | .audioSpeech => .joiningReader

/-- A critical section, a test, or a call that returns. -/
inductive Action
  /-- The send thread tests `running_`. -/
  | senderTop (x : SocketName)
  /-- The critical section of `send_loop`, or the test of its wait. -/
  | senderTest (x : SocketName)
  | written (x : SocketName) (ok : Bool)
  /-- The critical section after a failure. -/
  | dropClient (x : SocketName)
  | acceptorTop (x : SocketName)
  /-- `accept` returns a client, or fails. -/
  | accept (x : SocketName) (client : Option Nat)
  /-- The critical section of `accept_loop`. -/
  | install (x : SocketName)
  /-- `enqueue`, and the thread that `notify_one` picks. -/
  | enqueue (x : SocketName) (packet : List UInt8) (woken : Option Waiter)
  | readerTop
  /-- The critical section of `bridge_read_loop`, or the test of its wait. -/
  | readerTest
  /-- `read` has ended the inner loop, or `running_` has. -/
  | readEnd
  /-- A blocked thread wakes up without being notified. -/
  | spurious (x : SocketName) (t : Waiter)
  /-- `stop` sets `running_`. -/
  | stop
  /-- The critical section of `stop` for its next socket. -/
  | shutDown
  /-- The joins after it. -/
  | join

/-- One socket changes. -/
def State.update (s : State) (x : SocketName) (k : SocketState) : State :=
  { s with sockets := Function.update s.sockets x k }

/-- What the send thread does when its wait is over. -/
def take (k : SocketState) : SocketState :=
  match k.txQueue with
  | [] => { k with sender := .top }
  | _ :: queue =>
      match k.clientFd with
      | none => { k with txQueue := queue, sender := .top }
      | some fd => { k with txQueue := queue, sender := .writing fd }

/-- `notify_one` picks a thread that waits, if there is one. -/
def notifyOne (w : Waiters Waiter) : Option Waiter → Option (Waiters Waiter)
  | some t => if w t then some (CondVar.wake w t) else none
  | none => if w .sender = false ∧ w .reader = false then some w else none

/-- One step of one thread. -/
def step (s : State) : Action → Option State
  | .senderTop x =>
      let k := s.sockets x
      if k.sender = .top then
        some (s.update x { k with sender := if s.running then .waiting else .exited })
      else none
  | .senderTest x =>
      let k := s.sockets x
      if k.sender = .waiting ∧ k.waiters .sender = false then
        some (s.update x (
          if ¬ s.running then { k with sender := .exited }
          else if Wants k .sender then take k
          else { k with waiters := CondVar.block k.waiters .sender }))
      else none
  | .written x ok =>
      let k := s.sockets x
      match k.sender with
      | .writing fd => some (s.update x { k with sender := if ok then .top else .failed fd })
      | _ => none
  | .dropClient x =>
      let k := s.sockets x
      match k.sender with
      | .failed fd =>
          some (s.update x { k with
            sender := .top, clientFd := if k.clientFd = some fd then none else k.clientFd })
      | _ => none
  | .acceptorTop x =>
      let k := s.sockets x
      if k.acceptor = .top then
        some (s.update x { k with acceptor := if s.running then .accepting else .exited })
      else none
  | .accept x client =>
      let k := s.sockets x
      if k.acceptor = .accepting then
        some (s.update x { k with acceptor :=
          match client with
          | some fd => .holding fd
          | none => if s.running then .top else .exited })
      else none
  | .install x =>
      let k := s.sockets x
      match k.acceptor with
      | .holding client =>
          some (s.update x { k with
            acceptor := .top, clientFd := some client, waiters := CondVar.notifyAll k.waiters })
      | _ => none
  | .enqueue x packet woken =>
      let k := s.sockets x
      match k.clientFd with
      | none => some s
      | some _ =>
          (notifyOne k.waiters woken).map fun waiters => s.update x { k with
            txQueue := (IpcSocket.makeRoom x.maxQueue k.txQueue).2 ++ [packet], waiters }
  | .readerTop =>
      if s.reader = .top then
        some { s with reader := if s.running then .waiting else .exited }
      else none
  | .readerTest =>
      let k := s.sockets .bridge
      if s.reader = .waiting ∧ k.waiters .reader = false then
        some (
          if ¬ s.running then { s with reader := .exited }
          else match k.clientFd with
            | some fd => { s with reader := .reading fd }
            | none =>
                s.update .bridge { k with waiters := CondVar.block k.waiters .reader })
      else none
  | .readEnd =>
      match s.reader with
      | .reading _ => some { s with reader := .top }
      | _ => none
  | .spurious x t =>
      let k := s.sockets x
      if k.waiters t then some (s.update x { k with waiters := CondVar.wake k.waiters t })
      else none
  | .stop =>
      some (if s.running then { s with running := false, stopping := .closing .bridge } else s)
  | .shutDown =>
      match s.stopping with
      | .closing x =>
          let k := s.sockets x
          some { s.update x { k with
            clientFd := none, waiters := CondVar.notifyAll k.waiters, shutDown := true } with
              stopping := .joining x }
      | _ => none
  | .join =>
      match s.stopping with
      | .joining x =>
          if (s.sockets x).acceptor = .exited ∧ (s.sockets x).sender = .exited then
            some { s with stopping := nextSocket x }
          else none
      | .joiningReader =>
          if s.reader = .exited then some { s with stopping := .returned } else none
      | _ => none

/-! ## Nobody is left waiting

The invariant is one of each socket: who waits, waits for something that is not there.  A
section that can make a condition true notifies, one thread or all, and the lemmas of
`SocketInv` say why that is enough.  The steps are then taken one by one. -/

/-- No thread of the socket waits while its condition holds, and none waits once `stop`
has shut the socket down. -/
structure SocketInv (running : Bool) (k : SocketState) : Prop where
  stranded : NoneStranded (Wants k) k.waiters
  shut : k.shutDown = true → running = false ∧ ∀ t, k.waiters t = false

/-- No thread sleeps through a change of what it waits for. -/
structure Inv (s : State) : Prop where
  sockets : ∀ x, SocketInv s.running (s.sockets x)
  stopping : s.stopping ≠ .notCalled → s.running = false

theorem inv_initial : Inv initial where
  sockets := fun _ =>
    { stranded := CondVar.noneStranded_of_none fun _ => rfl
      shut := nofun }
  stopping := fun h => absurd rfl h

theorem Inv.update {s : State} (h : Inv s) {x : SocketName} {k : SocketState}
    (hk : SocketInv s.running k) : Inv (s.update x k) where
  sockets := by
    intro y
    show SocketInv s.running (Function.update s.sockets x k y)
    by_cases hy : y = x
    · subst hy
      rw [Function.update_self]
      exact hk
    · rw [Function.update_of_ne hy]
      exact h.sockets y
  stopping := h.stopping

namespace SocketInv
variable {running : Bool} {k k' : SocketState}

/-- A section that does not notify, and makes no waiting thread's condition true. -/
theorem quiet (h : SocketInv running k) (hwaiters : k'.waiters = k.waiters)
    (hshut : k'.shutDown = k.shutDown) (hmono : ∀ t, k.waiters t = true → Wants k' t → Wants k t) :
    SocketInv running k' where
  stranded := by
    rw [hwaiters]
    exact h.stranded.mono hmono
  shut := by
    rw [hwaiters, hshut]
    exact h.shut

/-- A section that notifies all. -/
theorem notifyAll (hwaiters : k'.waiters = CondVar.notifyAll k.waiters)
    (hshut : k'.shutDown = true → running = false) : SocketInv running k' where
  stranded := by
    rw [hwaiters]
    exact CondVar.noneStranded_notifyAll _ _
  shut := fun hk => ⟨hshut hk, fun t => by rw [hwaiters]; rfl⟩

/-- A thread whose condition does not hold blocks, while `running_` is set. -/
theorem block (h : SocketInv true k) {t : Waiter} (ht : ¬ Wants k t) :
    SocketInv true { k with waiters := CondVar.block k.waiters t } where
  stranded := h.stranded.block ht
  shut := fun hk => absurd (h.shut hk).1 nofun

theorem wake (h : SocketInv running k) (t : Waiter) :
    SocketInv running { k with waiters := CondVar.wake k.waiters t } where
  stranded := h.stranded.wake t
  shut := fun hk => ⟨(h.shut hk).1, fun u =>
    Bool.eq_false_of_not_eq_true fun hu =>
      absurd (((h.shut hk).2 u).symm.trans (CondVar.of_wake hu).1) nofun⟩

end SocketInv

theorem notifyOne_spec {w w' : Waiters Waiter} {woken : Option Waiter}
    (h : notifyOne w woken = some w') : CondVar.NotifyOne w w' := by
  cases woken with
  | some t =>
    obtain ⟨ht, h⟩ := Option.ite_none_right_eq_some.mp h
    exact Or.inl ⟨t, ht, (Option.some.inj h).symm⟩
  | none =>
    obtain ⟨⟨hsender, hreader⟩, h⟩ := Option.ite_none_right_eq_some.mp h
    refine Or.inr ⟨fun t => ?_, (Option.some.inj h).symm⟩
    cases t with
    | sender => exact hsender
    | reader => exact hreader

/-- **Why `notify_one` is enough.**  `enqueue` notifies only when there is a client; the
reader does not wait then, so the send thread is the one it wakes. -/
theorem SocketInv.enqueue {running : Bool} {k : SocketState} (h : SocketInv running k) {fd : Nat}
    (hclient : k.clientFd = some fd) {waiters : Waiters Waiter} {woken : Option Waiter}
    (hnotify : notifyOne k.waiters woken = some waiters) (txQueue : List (List UInt8)) :
    SocketInv running { k with txQueue, waiters } := by
  have hone := notifyOne_spec hnotify
  have hreader : ∀ u, k.waiters u = true → u = .sender := by
    intro u hu
    cases u with
    | sender => rfl
    | reader =>
      refine absurd ?_ (h.stranded .reader hu)
      show k.clientFd ≠ none
      rw [hclient]
      nofun
  constructor
  · refine CondVar.noneStranded_notifyOne hone fun t ht _ u hu => ?_
    rw [hreader t ht, hreader u hu]
  · exact fun hk => ⟨(h.shut hk).1, fun t => Bool.eq_false_of_not_eq_true fun ht =>
      absurd (((h.shut hk).2 t).symm.trans (hone.subset ht)) nofun⟩

/-- A client that is gone makes no condition true. -/
theorem SocketInv.dropClient {running : Bool} {k : SocketState} (h : SocketInv running k)
    (fd : Nat) : SocketInv running { k with
      sender := .top, clientFd := if k.clientFd = some fd then none else k.clientFd } := by
  have hclient : (if k.clientFd = some fd then none else k.clientFd) ≠ none →
      k.clientFd ≠ none := by
    split
    · exact fun hne => absurd rfl hne
    · exact id
  refine h.quiet rfl rfl fun u _ hwants => ?_
  cases u with
  | sender => exact ⟨hclient hwants.1, hwants.2⟩
  | reader => exact hclient hwants

/-- The client stays where it is when a packet is taken. -/
theorem take_eq (k : SocketState) : ∃ txQueue sender, take k = { k with txQueue, sender } := by
  unfold take
  split
  · exact ⟨_, _, rfl⟩
  · split <;> exact ⟨_, _, rfl⟩

theorem inv_senderTest {s t : State} {x : SocketName} (h : Inv s)
    (hstep : step s (.senderTest x) = some t) : Inv t := by
  obtain ⟨⟨-, hawake⟩, ht⟩ := Option.ite_none_right_eq_some.mp hstep
  obtain rfl := Option.some.inj ht
  apply h.update
  split
  · exact (h.sockets x).quiet rfl rfl fun _ _ => id
  · rename_i hrunning
    have hrun : s.running = true := by simpa using hrunning
    split
    · -- the packet is taken; of the waiting threads only the reader could be there
      obtain ⟨txQueue, sender, htake⟩ := take_eq (s.sockets x)
      rw [htake]
      refine (h.sockets x).quiet rfl rfl fun u hu hwants => ?_
      cases u with
      | sender => exact absurd (hawake.symm.trans hu) nofun
      | reader => exact hwants
    · rename_i hnot
      have hx := h.sockets x
      rw [hrun] at hx ⊢
      exact hx.block hnot

theorem inv_readerTest {s t : State} (h : Inv s) (hstep : step s .readerTest = some t) :
    Inv t := by
  obtain ⟨-, ht⟩ := Option.ite_none_right_eq_some.mp hstep
  obtain rfl := Option.some.inj ht
  split
  · exact ⟨h.sockets, h.stopping⟩
  · rename_i hrunning
    have hrun : s.running = true := by simpa using hrunning
    split
    · exact ⟨h.sockets, h.stopping⟩
    · rename_i hclient
      apply h.update
      have hx := h.sockets .bridge
      rw [hrun] at hx ⊢
      exact hx.block fun hwants => hwants hclient

theorem inv_shutDown {s t : State} (h : Inv s) (hstep : step s .shutDown = some t) : Inv t := by
  simp only [step] at hstep
  split at hstep
  · rename_i x hstopping
    have hrunning : s.running = false := h.stopping (by rw [hstopping]; nofun)
    obtain rfl := Option.some.inj hstep
    have hx : SocketInv s.running { s.sockets x with
        clientFd := none, waiters := CondVar.notifyAll (s.sockets x).waiters
        shutDown := true } :=
      SocketInv.notifyAll (k := s.sockets x) rfl fun _ => hrunning
    exact ⟨(h.update hx).sockets, fun _ => hrunning⟩
  · cases hstep

/-- A join changes only where `stop` is. -/
theorem join_eq {s t : State} (hstep : step s .join = some t) :
    s.stopping ≠ .notCalled ∧ ∃ stopping, t = { s with stopping } := by
  simp only [step] at hstep
  split at hstep
  · rename_i x hstopping
    obtain ⟨-, ht⟩ := Option.ite_none_right_eq_some.mp hstep
    exact ⟨by rw [hstopping]; nofun, nextSocket x, (Option.some.inj ht).symm⟩
  · rename_i hstopping
    obtain ⟨-, ht⟩ := Option.ite_none_right_eq_some.mp hstep
    exact ⟨by rw [hstopping]; nofun, .returned, (Option.some.inj ht).symm⟩
  · cases hstep

/-- Nothing sets `running_` again. -/
theorem running_step {s t : State} {a : Action} (h : s.running = false)
    (hstep : step s a = some t) : t.running = false := by
  cases a with
  | senderTop | senderTest | acceptorTop | accept | readerTop | spurious =>
    obtain ⟨-, hstep⟩ := Option.ite_none_right_eq_some.mp hstep
    obtain rfl := Option.some.inj hstep
    exact h
  | readerTest =>
    obtain ⟨-, hstep⟩ := Option.ite_none_right_eq_some.mp hstep
    rw [if_pos (by rw [h]; decide)] at hstep
    obtain rfl := Option.some.inj hstep
    exact h
  | written | dropClient | install | readEnd | shutDown =>
    simp only [step] at hstep
    split at hstep
    · obtain rfl := Option.some.inj hstep
      exact h
    · cases hstep
  | enqueue x packet woken =>
    simp only [step] at hstep
    split at hstep
    · exact Option.some.inj hstep ▸ h
    · obtain ⟨waiters, -, rfl⟩ := Option.map_eq_some_iff.mp hstep
      exact h
  | stop =>
    obtain rfl := Option.some.inj hstep
    split
    · rfl
    · exact h
  | join =>
    obtain ⟨-, stopping, rfl⟩ := join_eq hstep
    exact h

/-- `running_` only goes down, and a socket that is shut down stays so. -/
theorem Inv.stop {s : State} (h : Inv s) :
    Inv { s with running := false, stopping := .closing .bridge } where
  sockets := fun x =>
    { stranded := (h.sockets x).stranded
      shut := fun hk => ⟨rfl, ((h.sockets x).shut hk).2⟩ }
  stopping := fun _ => rfl

theorem inv_step {s t : State} {a : Action} (h : Inv s) (hstep : step s a = some t) : Inv t := by
  cases a with
  | senderTop x =>
    obtain ⟨-, ht⟩ := Option.ite_none_right_eq_some.mp hstep
    obtain rfl := Option.some.inj ht
    exact h.update ((h.sockets x).quiet rfl rfl fun _ _ => id)
  | senderTest x => exact inv_senderTest h hstep
  | written x ok =>
    simp only [step] at hstep
    split at hstep
    · obtain rfl := Option.some.inj hstep
      exact h.update ((h.sockets x).quiet rfl rfl fun _ _ => id)
    · cases hstep
  | dropClient x =>
    simp only [step] at hstep
    split at hstep
    · rename_i fd _
      obtain rfl := Option.some.inj hstep
      exact h.update ((h.sockets x).dropClient fd)
    · cases hstep
  | acceptorTop x =>
    obtain ⟨-, ht⟩ := Option.ite_none_right_eq_some.mp hstep
    obtain rfl := Option.some.inj ht
    exact h.update ((h.sockets x).quiet rfl rfl fun _ _ => id)
  | accept x client =>
    obtain ⟨-, ht⟩ := Option.ite_none_right_eq_some.mp hstep
    obtain rfl := Option.some.inj ht
    exact h.update ((h.sockets x).quiet rfl rfl fun _ _ => id)
  | install x =>
    simp only [step] at hstep
    split at hstep
    · obtain rfl := Option.some.inj hstep
      have hshut := (h.sockets x).shut
      exact h.update (SocketInv.notifyAll (k := s.sockets x) rfl fun hk => (hshut hk).1)
    · cases hstep
  | enqueue x packet woken =>
    simp only [step] at hstep
    split at hstep
    · exact Option.some.inj hstep ▸ h
    · rename_i fd hclient
      obtain ⟨waiters, hnotify, rfl⟩ := Option.map_eq_some_iff.mp hstep
      exact h.update ((h.sockets x).enqueue hclient hnotify _)
  | readerTop =>
    obtain ⟨-, ht⟩ := Option.ite_none_right_eq_some.mp hstep
    obtain rfl := Option.some.inj ht
    exact ⟨h.sockets, h.stopping⟩
  | readerTest => exact inv_readerTest h hstep
  | readEnd =>
    simp only [step] at hstep
    split at hstep
    · obtain rfl := Option.some.inj hstep
      exact ⟨h.sockets, h.stopping⟩
    · cases hstep
  | spurious x u =>
    obtain ⟨-, ht⟩ := Option.ite_none_right_eq_some.mp hstep
    obtain rfl := Option.some.inj ht
    exact h.update ((h.sockets x).wake u)
  | stop =>
    obtain rfl := Option.some.inj hstep
    split
    · exact h.stop
    · exact h
  | shutDown => exact inv_shutDown h hstep
  | join =>
    obtain ⟨hstopping, stopping, rfl⟩ := join_eq hstep
    exact ⟨h.sockets, fun _ => h.stopping hstopping⟩

/-- **No wake-up is lost.**  In every state of every interleaving: while `running_` is set,
a send thread with a client and a packet is not left waiting, nor is the reader with a
bridge client; and once `stop` has run its critical section for a socket no thread is
left waiting on it. -/
theorem none_left_waiting {s : State} (h : Transition.Reachable step (· = initial) s) :
    (s.running = true → ∀ x, (s.sockets x).clientFd ≠ none → (s.sockets x).txQueue ≠ [] →
      (s.sockets x).waiters .sender = false) ∧
    (s.running = true → (s.sockets .bridge).clientFd ≠ none →
      (s.sockets .bridge).waiters .reader = false) ∧
    ∀ x, (s.sockets x).shutDown = true → ∀ t, (s.sockets x).waiters t = false := by
  have hinv : Inv s := h.invariant_from inv_initial fun _ _ _ hs hstep => inv_step hs hstep
  refine ⟨fun _ x hclient hqueue => ?_, fun _ hclient => ?_, fun x hx => ?_⟩
  · exact Bool.eq_false_of_not_eq_true fun hwaits =>
      (hinv.sockets x).stranded .sender hwaits ⟨hclient, hqueue⟩
  · exact Bool.eq_false_of_not_eq_true fun hwaits =>
      (hinv.sockets .bridge).stranded .reader hwaits hclient
  · exact ((hinv.sockets x).shut hx).2

/-- Both threads of the bridge wait, a client comes, the reader reads, the send thread
waits again, and `enqueue` wakes it. -/
theorem sender_woken_by_enqueue :
    ∃ s, Transition.run step initial
        [.senderTop .bridge, .senderTest .bridge, .readerTop, .readerTest,
         .acceptorTop .bridge, .accept .bridge (some 4), .install .bridge, .readerTest,
         .senderTest .bridge, .enqueue .bridge [10] (some .sender)] = some s ∧
      (s.sockets .bridge).txQueue = [[10]] ∧ (s.sockets .bridge).waiters .sender = false := by
  obtain ⟨s, hrun, hrunning, hclient, hqueue⟩ :
      ∃ s, Transition.run step initial
          [.senderTop .bridge, .senderTest .bridge, .readerTop, .readerTest,
           .acceptorTop .bridge, .accept .bridge (some 4), .install .bridge, .readerTest,
           .senderTest .bridge, .enqueue .bridge [10] (some .sender)] = some s ∧
        s.running = true ∧ (s.sockets .bridge).clientFd = some 4 ∧
        (s.sockets .bridge).txQueue = [[10]] :=
    ⟨_, rfl, rfl, rfl, rfl⟩
  obtain ⟨hsend, -, -⟩ := none_left_waiting ⟨initial, _, rfl, hrun⟩
  refine ⟨s, hrun, hqueue, hsend hrunning .bridge ?_ ?_⟩
  · rw [hclient]
    nofun
  · rw [hqueue]
    nofun

end Whutfa.WakeUps
