import Whutfa.Transition
import Whutfa.WakeUps

/-! # The reads of the bridge connections

`bridge_read_loop` (`aa-handler/src/ipc_bridge.cpp`) among the other threads of
`IpcBridge`: the steps of `WakeUps`, with the inner loop's test of `running_`, each call
of `read` and what it returns as steps of their own.  A `read` is on the connection that
the descriptor names when it is called; `accept` gives out numbers that are free, and so a
number may name one connection after another.

A `read` that ends the inner loop closes nothing: the wait that follows looks at
`client_fd`, which only the send thread (after a failed write), the accept thread and
`stop` reset.  With nothing to send, a client that has gone is found again, and read again
(`no_read_after_end`).

Under the condition of that theorem the invariant is that whatever the reader reads, and
whatever the next wait can find, has not ended (`Inv`): the client that it has taken, until
`read` says so, and then, `replaced` being set, the one that the accept thread has put in
its place.  For the other direction it is enough that the client stays the one that was
taken as long as nobody replaces it (`Kept`).
-/
namespace Whutfa.BridgeReads

/-- The threads, and the connections behind the descriptors. -/
structure State where
  ipc : WakeUps.State
  /-- How many connections `accept` has returned; they are numbered from 1. -/
  accepted : Nat
  /-- The connection that `accept` has last returned as a descriptor. -/
  connection : Nat → Nat
  /-- The `read` that has been called and has not returned, with the connection it was called
  on, if the descriptor named one. -/
  inRead : Option (Option Nat)
  /-- The connections on which a `read` has returned the end of the stream, or an error
  other than `EINTR`. -/
  ended : List Nat
  /-- Since the reader has last taken a client, the accept thread has installed another one,
  or the send thread (or `stop`) has dropped it. -/
  replaced : Bool

/-- Nobody has connected yet. -/
def initial : State :=
  { ipc := WakeUps.initial
    accepted := 0
    connection := fun _ => 0
    inRead := none
    ended := []
    replaced := true }

/-- The steps of `WakeUps`, with the inner loop of `bridge_read_loop` taken apart. -/
inductive Action
  /-- A step of `WakeUps`, other than the end of the inner loop. -/
  | ipc (a : WakeUps.Action)
  /-- The inner loop tests `running_`, and calls `read` if it is set. -/
  | loopTest
  /-- `read` returns bytes, or fails with `EINTR`. -/
  | readMore
  /-- `read` returns the end of the stream, or fails. -/
  | readEnd

/-- The descriptor is open: it is some socket's client, or one that `accept` has just
returned. -/
def isOpen (s : WakeUps.State) (fd : Nat) : Bool :=
  [SocketName.bridge, .video, .audioMedia, .audioSpeech].any fun x =>
    (s.sockets x).clientFd = some fd ∨ (s.sockets x).acceptor = .holding fd

/-- The connection that a descriptor names. -/
def named (s : State) (fd : Nat) : Option Nat :=
  if isOpen s.ipc fd then some (s.connection fd) else none

/-- `accept` returns a number that is free; the end of the inner loop is not a step of its
own. -/
def admits (s : State) : WakeUps.Action → Bool
  | .accept _ (some fd) => !isOpen s.ipc fd
  | .readEnd => false
  | _ => true

/-- `accept` gives a new connection a descriptor. -/
def accept (s : State) : WakeUps.Action → State
  | .accept _ (some fd) =>
      { s with accepted := s.accepted + 1
               connection := Function.update s.connection fd (s.accepted + 1) }
  | _ => s

/-- What a step that leads to `t` makes of `replaced`. -/
def replacedAfter (s : State) (t : WakeUps.State) : WakeUps.Action → Bool
  | .install .bridge => true
  | .readerTest =>
      match t.reader with
      | .reading _ => false
      | _ => s.replaced
  | _ => s.replaced || (t.sockets .bridge).clientFd.isNone

/-- One step, if the kernel and the reader's place admit it. -/
def step (s : State) : Action → Option State
  | .ipc a =>
      if admits s a then
        (WakeUps.step s.ipc a).map fun t =>
          { accept s a with ipc := t, replaced := replacedAfter s t a }
      else none
  | .loopTest =>
      match s.ipc.reader with
      | .reading fd =>
          if s.inRead ≠ none then none
          else if s.ipc.running then some { s with inRead := some (named s fd) }
          else (WakeUps.step s.ipc .readEnd).map fun t => { s with ipc := t }
      | _ => none
  | .readMore => if s.inRead = none then none else some { s with inRead := none }
  | .readEnd =>
      match s.inRead with
      | some conn =>
          (WakeUps.step s.ipc .readEnd).map fun t =>
            { s with ipc := t, inRead := none, ended := s.ended ++ conn.toList }
      | none => none

/-- The connection that is being read has not ended. -/
def FreshRead (s : State) : Prop := ∀ conn, s.inRead = some (some conn) → conn ∉ s.ended

/-- When the reader's wait is over with a client there, the accept thread has installed
another one since the reader last took one, or the send thread has dropped that one; and
the bridge's accept thread is given no number that the reader is still reading. -/
def Replaced (s : State) : Action → Prop
  | .ipc .readerTest => s.ipc.running = true → (s.ipc.sockets .bridge).clientFd ≠ none →
      s.replaced = true
  | .ipc (.accept .bridge (some fd)) => s.ipc.reader ≠ .reading fd
  | _ => True

/-! ## What the other threads do to the reader

The steps of `WakeUps`, as far as they concern the reader and the clients. -/

/-- Only the reader's own steps move it. -/
theorem reader_of_step {s t : WakeUps.State} {a : WakeUps.Action}
    (hstep : WakeUps.step s a = some t) (htop : a ≠ .readerTop) (htest : a ≠ .readerTest)
    (hend : a ≠ .readEnd) : t.reader = s.reader := by
  cases a with
  | readerTop => exact absurd rfl htop
  | readerTest => exact absurd rfl htest
  | readEnd => exact absurd rfl hend
  | senderTop x | senderTest x | acceptorTop x | accept x client | spurious x u =>
    obtain ⟨-, h⟩ := Option.ite_none_right_eq_some.mp hstep
    obtain rfl := Option.some.inj h
    rfl
  | written x ok | dropClient x | install x | shutDown =>
    simp only [WakeUps.step] at hstep
    split at hstep
    · obtain rfl := Option.some.inj hstep
      rfl
    · cases hstep
  | enqueue x packet woken =>
    simp only [WakeUps.step] at hstep
    split at hstep
    · exact Option.some.inj hstep ▸ rfl
    · obtain ⟨_, -, rfl⟩ := Option.map_eq_some_iff.mp hstep
      rfl
  | stop =>
    obtain rfl := Option.some.inj hstep
    split <;> rfl
  | join =>
    obtain ⟨-, _, rfl⟩ := WakeUps.join_eq hstep
    rfl

/-- Outside the inner loop only the wait leads into it. -/
theorem reading_of_step {s t : WakeUps.State} {a : WakeUps.Action} {fd : Nat}
    (hstep : WakeUps.step s a = some t) (htest : a ≠ .readerTest) (hend : a ≠ .readEnd)
    (ht : t.reader = .reading fd) : s.reader = .reading fd := by
  by_cases htop : a = .readerTop
  · subst htop
    obtain ⟨-, h⟩ := Option.ite_none_right_eq_some.mp hstep
    obtain rfl := Option.some.inj h
    revert ht
    cases s.running <;> nofun
  · rw [← reader_of_step hstep htop htest hend]
    exact ht

/-- Only the end of the inner loop leads out of it. -/
theorem still_reading_of_step {s t : WakeUps.State} {a : WakeUps.Action} {fd : Nat}
    (hstep : WakeUps.step s a = some t) (hend : a ≠ .readEnd)
    (hs : s.reader = .reading fd) : t.reader = .reading fd := by
  by_cases htop : a = .readerTop
  · subst htop
    obtain ⟨hreader, -⟩ := Option.ite_none_right_eq_some.mp hstep
    exact absurd (hreader.symm.trans hs) nofun
  by_cases htest : a = .readerTest
  · subst htest
    obtain ⟨⟨hreader, -⟩, -⟩ := Option.ite_none_right_eq_some.mp hstep
    exact absurd (hreader.symm.trans hs) nofun
  rw [reader_of_step hstep htop htest hend]
  exact hs

/-- The reader takes the client that the wait has found. -/
theorem reading_of_readerTest {s t : WakeUps.State} {fd : Nat}
    (hstep : WakeUps.step s .readerTest = some t) (ht : t.reader = .reading fd) :
    s.running = true ∧ (s.sockets .bridge).clientFd = some fd := by
  obtain ⟨⟨hwaiting, -⟩, h⟩ := Option.ite_none_right_eq_some.mp hstep
  obtain rfl := Option.some.inj h
  split at ht
  · cases ht
  · rename_i hrunning
    refine ⟨by simpa using hrunning, ?_⟩
    split at ht
    · rename_i client hclient
      rw [hclient, WakeUps.Reader.reading.inj ht]
    · -- the reader blocks, it is still in the wait
      cases hwaiting.symm.trans ht

/-- The wait is over while `running_` is set and there is a client. -/
theorem readerTest_of_client {s t : WakeUps.State} {fd : Nat}
    (hrunning : s.running = true) (hclient : (s.sockets .bridge).clientFd = some fd)
    (hstep : WakeUps.step s .readerTest = some t) : t = { s with reader := .reading fd } := by
  obtain ⟨-, h⟩ := Option.ite_none_right_eq_some.mp hstep
  simpa [hrunning, hclient] using h.symm

/-- Where the clients after a step come from: those before it, the accept thread's hands, and
`accept`. -/
structure Traces (s t : WakeUps.State) (a : WakeUps.Action) : Prop where
  client : ∀ x fd, (t.sockets x).clientFd = some fd →
    a ≠ .install x ∧ (s.sockets x).clientFd = some fd ∨
      a = .install x ∧ (s.sockets x).acceptor = .holding fd
  held : ∀ x fd, (t.sockets x).acceptor = .holding fd →
    a ≠ .install x ∧ (s.sockets x).acceptor = .holding fd ∨ a = .accept x (some fd)

/-- The install of a client. -/
def isInstall : WakeUps.Action → Bool
  | .install _ => true
  | _ => false

theorem ne_install {a : WakeUps.Action} (h : isInstall a = false) (x : SocketName) :
    a ≠ .install x := by
  rintro rfl
  cases h

theorem traces_same {s t : WakeUps.State} {a : WakeUps.Action} (h : t.sockets = s.sockets)
    (ha : isInstall a = false) : Traces s t a where
  client := fun x _ ht => Or.inl ⟨ne_install ha x, h ▸ ht⟩
  held := fun x _ ht => Or.inl ⟨ne_install ha x, h ▸ ht⟩

theorem traces_update {s : WakeUps.State} {a : WakeUps.Action} {x : SocketName}
    {k : WakeUps.SocketState} (ha : ∀ y, y ≠ x → a ≠ .install y)
    (hclient : ∀ fd, k.clientFd = some fd → a ≠ .install x ∧ (s.sockets x).clientFd = some fd ∨
      a = .install x ∧ (s.sockets x).acceptor = .holding fd)
    (hheld : ∀ fd, k.acceptor = .holding fd →
      a ≠ .install x ∧ (s.sockets x).acceptor = .holding fd ∨ a = .accept x (some fd)) :
    Traces s (s.update x k) a := by
  have hself : (s.update x k).sockets x = k := Function.update_self ..
  have hother : ∀ y, y ≠ x → (s.update x k).sockets y = s.sockets y := fun y hy =>
    Function.update_of_ne hy ..
  constructor
  · intro y fd ht
    by_cases hy : y = x
    · subst hy
      exact hclient fd (hself ▸ ht)
    · exact Or.inl ⟨ha y hy, hother y hy ▸ ht⟩
  · intro y fd ht
    by_cases hy : y = x
    · subst hy
      exact hheld fd (hself ▸ ht)
    · exact Or.inl ⟨ha y hy, hother y hy ▸ ht⟩

/-- Nothing is installed, and the accept thread gets nothing new. -/
theorem traces_away {s : WakeUps.State} {a : WakeUps.Action} {x : SocketName}
    {k : WakeUps.SocketState} (ha : isInstall a = false)
    (hclient : ∀ fd, k.clientFd = some fd → (s.sockets x).clientFd = some fd)
    (hheld : ∀ fd, k.acceptor = .holding fd → (s.sockets x).acceptor = .holding fd) :
    Traces s (s.update x k) a :=
  traces_update (fun y _ => ne_install ha y) (fun fd h => Or.inl ⟨ne_install ha x, hclient fd h⟩)
    fun fd h => Or.inl ⟨ne_install ha x, hheld fd h⟩

/-- A socket's threads go on, and its client and its accept thread stay. -/
theorem traces_threads {s : WakeUps.State} {a : WakeUps.Action} {x : SocketName}
    {k : WakeUps.SocketState} (ha : isInstall a = false)
    (hclient : k.clientFd = (s.sockets x).clientFd)
    (hacceptor : k.acceptor = (s.sockets x).acceptor) : Traces s (s.update x k) a :=
  traces_away ha (fun _ h => hclient ▸ h) fun _ h => hacceptor ▸ h

theorem traces_senderTest {s t : WakeUps.State} {x : SocketName}
    (hstep : WakeUps.step s (.senderTest x) = some t) : Traces s t (.senderTest x) := by
  obtain ⟨-, h⟩ := Option.ite_none_right_eq_some.mp hstep
  obtain rfl := Option.some.inj h
  obtain ⟨txQueue, sender, htake⟩ := WakeUps.take_eq (s.sockets x)
  refine traces_threads rfl ?_ ?_
  · rw [htake]
    split_ifs <;> rfl
  · rw [htake]
    split_ifs <;> rfl

theorem traces_written {s t : WakeUps.State} {x : SocketName} {ok : Bool}
    (hstep : WakeUps.step s (.written x ok) = some t) : Traces s t (.written x ok) := by
  simp only [WakeUps.step] at hstep
  split at hstep
  · obtain rfl := Option.some.inj hstep
    exact traces_threads rfl rfl rfl
  · cases hstep

/-- The send thread drops a client, or finds another in its place. -/
theorem traces_dropClient {s t : WakeUps.State} {x : SocketName}
    (hstep : WakeUps.step s (.dropClient x) = some t) : Traces s t (.dropClient x) := by
  simp only [WakeUps.step] at hstep
  split at hstep
  · obtain rfl := Option.some.inj hstep
    exact traces_away rfl (fun fd h => (Option.ite_none_left_eq_some.mp h).2) fun fd h => h
  · cases hstep

theorem traces_acceptorTop {s t : WakeUps.State} {x : SocketName}
    (hstep : WakeUps.step s (.acceptorTop x) = some t) : Traces s t (.acceptorTop x) := by
  obtain ⟨-, h⟩ := Option.ite_none_right_eq_some.mp hstep
  obtain rfl := Option.some.inj h
  refine traces_away rfl (fun fd h => h) fun fd h => ?_
  cases hrunning : s.running <;> simp [hrunning] at h

/-- A client comes into the accept thread's hands. -/
theorem traces_accept {s t : WakeUps.State} {x : SocketName} {client : Option Nat}
    (hstep : WakeUps.step s (.accept x client) = some t) : Traces s t (.accept x client) := by
  obtain ⟨-, h⟩ := Option.ite_none_right_eq_some.mp hstep
  obtain rfl := Option.some.inj h
  refine traces_update (fun y _ => ne_install rfl y) (fun fd h => Or.inl ⟨ne_install rfl x, h⟩)
    fun fd h => ?_
  cases client with
  | some fd' =>
    obtain rfl := WakeUps.Acceptor.holding.inj h
    exact Or.inr rfl
  | none => cases hrunning : s.running <;> simp [hrunning] at h

/-- And out of them it becomes the socket's. -/
theorem traces_install {s t : WakeUps.State} {x : SocketName}
    (hstep : WakeUps.step s (.install x) = some t) : Traces s t (.install x) := by
  simp only [WakeUps.step] at hstep
  split at hstep
  · rename_i client hholding
    obtain rfl := Option.some.inj hstep
    refine traces_update (fun y hy heq => hy (WakeUps.Action.install.inj heq).symm)
      (fun fd h => ?_) fun fd h => by cases h
    obtain rfl := Option.some.inj h
    exact Or.inr ⟨rfl, hholding⟩
  · cases hstep

theorem traces_enqueue {s t : WakeUps.State} {x : SocketName} {packet : List UInt8}
    {woken : Option WakeUps.Waiter} (hstep : WakeUps.step s (.enqueue x packet woken) = some t) :
    Traces s t (.enqueue x packet woken) := by
  simp only [WakeUps.step] at hstep
  split at hstep
  · exact Option.some.inj hstep ▸ traces_same rfl rfl
  · obtain ⟨_, -, rfl⟩ := Option.map_eq_some_iff.mp hstep
    exact traces_threads rfl rfl rfl

theorem traces_readerTest {s t : WakeUps.State} (hstep : WakeUps.step s .readerTest = some t) :
    Traces s t .readerTest := by
  obtain ⟨-, h⟩ := Option.ite_none_right_eq_some.mp hstep
  obtain rfl := Option.some.inj h
  split
  · exact traces_same rfl rfl
  · split
    · exact traces_same rfl rfl
    · exact traces_threads rfl rfl rfl

theorem traces_readEnd {s t : WakeUps.State} (hstep : WakeUps.step s .readEnd = some t) :
    Traces s t .readEnd := by
  simp only [WakeUps.step] at hstep
  split at hstep
  · obtain rfl := Option.some.inj hstep
    exact traces_same rfl rfl
  · cases hstep

theorem traces_shutDown {s t : WakeUps.State} (hstep : WakeUps.step s .shutDown = some t) :
    Traces s t .shutDown := by
  simp only [WakeUps.step] at hstep
  split at hstep
  · rename_i x _
    obtain rfl := Option.some.inj hstep
    obtain ⟨hclient, hheld⟩ : Traces s (s.update x { s.sockets x with
        clientFd := none, waiters := CondVar.notifyAll (s.sockets x).waiters
        shutDown := true }) .shutDown :=
      traces_away rfl (fun _ h => by cases h) fun _ h => h
    exact ⟨hclient, hheld⟩
  · cases hstep

/-- Clients come from nowhere else, whatever the threads do. -/
theorem traces_of_step {s t : WakeUps.State} {a : WakeUps.Action}
    (hstep : WakeUps.step s a = some t) : Traces s t a := by
  cases a with
  | senderTop x | spurious x u =>
    obtain ⟨-, h⟩ := Option.ite_none_right_eq_some.mp hstep
    obtain rfl := Option.some.inj h
    exact traces_threads rfl rfl rfl
  | senderTest x => exact traces_senderTest hstep
  | written x ok => exact traces_written hstep
  | dropClient x => exact traces_dropClient hstep
  | acceptorTop x => exact traces_acceptorTop hstep
  | accept x client => exact traces_accept hstep
  | install x => exact traces_install hstep
  | enqueue x packet woken => exact traces_enqueue hstep
  | readerTop =>
    obtain ⟨-, h⟩ := Option.ite_none_right_eq_some.mp hstep
    obtain rfl := Option.some.inj h
    exact traces_same rfl rfl
  | readerTest => exact traces_readerTest hstep
  | readEnd => exact traces_readEnd hstep
  | stop =>
    obtain rfl := Option.some.inj hstep
    split <;> exact traces_same rfl rfl
  | shutDown => exact traces_shutDown hstep
  | join =>
    obtain ⟨-, _, rfl⟩ := WakeUps.join_eq hstep
    exact traces_same rfl rfl

theorem isOpen_iff {s : WakeUps.State} {fd : Nat} :
    isOpen s fd = true ↔
      ∃ x, (s.sockets x).clientFd = some fd ∨ (s.sockets x).acceptor = .holding fd := by
  simp only [isOpen, List.any_eq_true, decide_eq_true_eq]
  refine ⟨fun ⟨x, _, h⟩ => ⟨x, h⟩, fun ⟨x, h⟩ => ⟨x, ?_, h⟩⟩
  cases x <;> simp

/-- A descriptor that a step opens is one that `accept` returns. -/
theorem Traces.isOpen {s t : WakeUps.State} {a : WakeUps.Action} (h : Traces s t a) {fd : Nat}
    (ht : isOpen t fd = true) :
    BridgeReads.isOpen s fd = true ∨ ∃ x, a = .accept x (some fd) := by
  obtain ⟨x, hclient | hheld⟩ := isOpen_iff.mp ht
  · rcases h.client x fd hclient with ⟨-, hold⟩ | ⟨-, hheld⟩
    · exact Or.inl (isOpen_iff.mpr ⟨x, Or.inl hold⟩)
    · exact Or.inl (isOpen_iff.mpr ⟨x, Or.inr hheld⟩)
  · rcases h.held x fd hheld with ⟨-, hold⟩ | haccept
    · exact Or.inl (isOpen_iff.mpr ⟨x, Or.inr hold⟩)
    · exact Or.inr ⟨x, haccept⟩

/-! ## The connections

A number that is in use names one connection, and no two numbers in use name the same. -/

theorem step_ipc {s t : State} {a : WakeUps.Action} (h : step s (.ipc a) = some t) :
    admits s a = true ∧ ∃ u, WakeUps.step s.ipc a = some u ∧
      t = { accept s a with ipc := u, replaced := replacedAfter s u a } := by
  obtain ⟨hadmits, h⟩ := Option.ite_none_right_eq_some.mp h
  obtain ⟨u, hu, rfl⟩ := Option.map_eq_some_iff.mp h
  exact ⟨hadmits, u, hu, rfl⟩

theorem ne_readEnd_of_admits {s : State} {a : WakeUps.Action} (h : admits s a = true) :
    a ≠ .readEnd := by
  rintro rfl
  cases h

/-- A step gives out no connection, or the next one, under a number that is free. -/
theorem accept_cases {s : State} {a : WakeUps.Action} (hadmits : admits s a = true) :
    (accept s a = s ∧ ∀ x fd, a ≠ .accept x (some fd)) ∨
    ∃ x fd, a = .accept x (some fd) ∧ isOpen s.ipc fd = false ∧
      accept s a = { s with accepted := s.accepted + 1
                            connection := Function.update s.connection fd (s.accepted + 1) } := by
  unfold accept
  split
  · rename_i x fd
    exact Or.inr ⟨x, fd, rfl, by simpa [admits] using hadmits, rfl⟩
  · rename_i hnot
    exact Or.inl ⟨rfl, hnot⟩

/-- Numbers and connections. -/
structure Numbered (s : State) : Prop where
  accepted : ∀ fd, s.connection fd ≤ s.accepted
  opened : ∀ fd, isOpen s.ipc fd = true → 0 < s.connection fd
  apart : ∀ fd fd', s.connection fd = s.connection fd' → 0 < s.connection fd → fd = fd'
  ended : ∀ c ∈ s.ended, c ≤ s.accepted

theorem numbered_initial : Numbered initial where
  accepted := fun _ => Nat.le_refl 0
  opened := fun fd h => by
    obtain ⟨x, hclient | hheld⟩ := isOpen_iff.mp h
    · cases hclient
    · cases hheld
  apart := fun _ _ _ h => absurd h (Nat.lt_irrefl 0)
  ended := fun _ h => by cases h

theorem Numbered.ipc {s t : State} {a : WakeUps.Action} (h : Numbered s)
    (hstep : step s (.ipc a) = some t) : Numbered t := by
  obtain ⟨hadmits, u, hu, rfl⟩ := step_ipc hstep
  have htraces := traces_of_step hu
  rcases accept_cases hadmits with ⟨heq, hnot⟩ | ⟨x, fd, rfl, hfree, heq⟩
  · rw [heq]
    refine ⟨h.accepted, fun fd hopen => ?_, h.apart, h.ended⟩
    rcases htraces.isOpen hopen with hold | ⟨x, haccept⟩
    · exact h.opened fd hold
    · exact absurd haccept (hnot x fd)
  · rw [heq]
    have hnew : ∀ other, other ≠ fd →
        Function.update s.connection fd (s.accepted + 1) other = s.connection other :=
      fun other hother => Function.update_of_ne hother ..
    have hself : Function.update s.connection fd (s.accepted + 1) fd = s.accepted + 1 :=
      Function.update_self ..
    constructor
    · intro other
      show Function.update s.connection fd (s.accepted + 1) other ≤ s.accepted + 1
      by_cases hother : other = fd
      · rw [hother, hself]
      · rw [hnew other hother]
        exact Nat.le_succ_of_le (h.accepted other)
    · intro other hopen
      show 0 < Function.update s.connection fd (s.accepted + 1) other
      by_cases hother : other = fd
      · rw [hother, hself]
        exact Nat.succ_pos _
      · rw [hnew other hother]
        rcases htraces.isOpen hopen with hold | ⟨y, haccept⟩
        · exact h.opened other hold
        · exact absurd (Option.some.inj (WakeUps.Action.accept.inj haccept).2).symm hother
    · intro one other
      show Function.update s.connection fd (s.accepted + 1) one =
        Function.update s.connection fd (s.accepted + 1) other →
          0 < Function.update s.connection fd (s.accepted + 1) one → one = other
      have hle := h.accepted
      by_cases hone : one = fd
      · by_cases hother : other = fd
        · exact fun _ _ => hone.trans hother.symm
        · rw [hone, hself, hnew other hother]
          intro hsame
          have := hle other
          omega
      · by_cases hother : other = fd
        · rw [hother, hself, hnew one hone]
          intro hsame
          have := hle one
          omega
        · rw [hnew one hone, hnew other hother]
          exact h.apart one other
    · exact fun c hc => Nat.le_succ_of_le (h.ended c hc)

theorem Numbered.inRead {s : State} (h : Numbered s) (inRead : Option (Option Nat)) :
    Numbered { s with inRead } :=
  ⟨h.accepted, h.opened, h.apart, h.ended⟩

/-- What the reader reads, and the clients that it is to find, have not ended; and the
reader's number is none of theirs, once the client that it took has been replaced. -/
structure Inv (s : State) : Prop where
  numbered : Numbered s
  reading : ∀ fd, s.ipc.reader = .reading fd → s.connection fd ∉ s.ended
  client : s.replaced = true → ∀ fd, (s.ipc.sockets .bridge).clientFd = some fd →
    s.connection fd ∉ s.ended ∧ s.ipc.reader ≠ .reading fd
  held : ∀ fd, (s.ipc.sockets .bridge).acceptor = .holding fd →
    s.connection fd ∉ s.ended ∧ s.ipc.reader ≠ .reading fd ∧
      (s.ipc.sockets .bridge).clientFd ≠ some fd
  inRead : ∀ conn, s.inRead = some (some conn) → conn ≤ s.accepted ∧ conn ∉ s.ended ∧
    ∃ fd, s.ipc.reader = .reading fd ∧ ∀ other, s.connection other = conn → other = fd

theorem inv_initial : Inv initial where
  numbered := numbered_initial
  reading := nofun
  client := fun _ => nofun
  held := nofun
  inRead := nofun

/-- Without an install, a client that counts as the replacement of an earlier one did so
before, and it is not the one that the reader's wait has just found. -/
theorem replaced_before {s : State} {u : WakeUps.State} {a : WakeUps.Action} {fd : Nat}
    (hinstall : a ≠ .install .bridge) (hclient : (u.sockets .bridge).clientFd = some fd)
    (hafter : replacedAfter s u a = true) :
    s.replaced = true ∧ (a = .readerTest → u.reader ≠ .reading fd) := by
  unfold replacedAfter at hafter
  split at hafter
  · exact absurd rfl hinstall
  · split at hafter
    · cases hafter
    · rename_i hnone
      exact ⟨hafter, fun _ => hnone fd⟩
  · rename_i htest
    rw [hclient] at hafter
    exact ⟨(Bool.or_eq_true_iff.mp hafter).resolve_right (fun h => by cases h),
      fun heq => absurd heq htest⟩

/-- A step of the threads that gives out no connection. -/
theorem Inv.ipc_same {s : State} {u : WakeUps.State} {a : WakeUps.Action} (h : Inv s)
    (hreplaced : Replaced s (.ipc a)) (hend : a ≠ .readEnd) (hu : WakeUps.step s.ipc a = some u)
    (hnumbered : Numbered { s with ipc := u, replaced := replacedAfter s u a })
    (hnot : ∀ x fd, a ≠ .accept x (some fd)) :
    Inv { s with ipc := u, replaced := replacedAfter s u a } := by
  have htraces := traces_of_step hu
  -- the reader is in the inner loop as before, or takes the client that its wait has found
  have htaken : ∀ fd, u.reader = .reading fd → s.ipc.reader = .reading fd ∨
      a = .readerTest ∧ s.ipc.running = true ∧ (s.ipc.sockets .bridge).clientFd = some fd := by
    intro fd hreading
    by_cases htest : a = .readerTest
    · subst htest
      exact Or.inr ⟨rfl, reading_of_readerTest hu hreading⟩
    · exact Or.inl (reading_of_step hu htest hend hreading)
  constructor
  case numbered => exact hnumbered
  case reading =>
    intro fd hreading
    rcases htaken fd hreading with hold | ⟨rfl, hrunning, hclient⟩
    · exact h.reading fd hold
    · exact (h.client (hreplaced hrunning (by rw [hclient]; nofun)) fd hclient).1
  case client =>
    intro hafter fd hclient
    rcases htraces.client .bridge fd hclient with ⟨hinstall, hold⟩ | ⟨rfl, hheld⟩
    · obtain ⟨hbefore, hfound⟩ := replaced_before hinstall hclient hafter
      obtain ⟨hfresh, hreader⟩ := h.client hbefore fd hold
      refine ⟨hfresh, fun hreading => ?_⟩
      rcases htaken fd hreading with hstill | ⟨htest, -, -⟩
      · exact hreader hstill
      · exact hfound htest hreading
    · obtain ⟨hfresh, hreader, -⟩ := h.held fd hheld
      exact ⟨hfresh, fun hreading => hreader (reading_of_step hu nofun nofun hreading)⟩
  case held =>
    intro fd hheld
    rcases htraces.held .bridge fd hheld with ⟨hinstall, hold⟩ | haccept
    · obtain ⟨hfresh, hreader, hclient⟩ := h.held fd hold
      refine ⟨hfresh, fun hreading => ?_, fun hnow => ?_⟩
      · rcases htaken fd hreading with hreading | ⟨-, -, hfound⟩
        · exact hreader hreading
        · exact hclient hfound
      · rcases htraces.client .bridge fd hnow with ⟨-, hbefore⟩ | ⟨hbad, -⟩
        · exact hclient hbefore
        · exact hinstall hbad
    · exact absurd haccept (hnot .bridge fd)
  case inRead =>
    intro conn hconn
    obtain ⟨hle, hfresh, fd, hreading, hnames⟩ := h.inRead conn hconn
    exact ⟨hle, hfresh, fd, still_reading_of_step hu hend hreading, hnames⟩

/-- `accept` returns a connection. -/
theorem Inv.ipc_accept {s : State} {u : WakeUps.State} {x : SocketName} {fd₀ : Nat} (h : Inv s)
    (hreplaced : Replaced s (.ipc (.accept x (some fd₀)))) (hfree : isOpen s.ipc fd₀ = false)
    (hu : WakeUps.step s.ipc (.accept x (some fd₀)) = some u)
    (hnumbered : Numbered { s with
      ipc := u, accepted := s.accepted + 1
      connection := Function.update s.connection fd₀ (s.accepted + 1)
      replaced := replacedAfter s u (.accept x (some fd₀)) }) :
    Inv { s with
      ipc := u, accepted := s.accepted + 1
      connection := Function.update s.connection fd₀ (s.accepted + 1)
      replaced := replacedAfter s u (.accept x (some fd₀)) } := by
  have htraces := traces_of_step hu
  have hreader : u.reader = s.ipc.reader := reader_of_step hu nofun nofun nofun
  have hself : Function.update s.connection fd₀ (s.accepted + 1) fd₀ = s.accepted + 1 :=
    Function.update_self ..
  have hkept : ∀ fd, fd ≠ fd₀ → Function.update s.connection fd₀ (s.accepted + 1) fd =
      s.connection fd := fun fd hne => Function.update_of_ne hne ..
  have hopened : ∀ fd, isOpen s.ipc fd = true → fd ≠ fd₀ := by
    rintro fd hopen rfl
    cases hopen.symm.trans hfree
  have hnew : s.accepted + 1 ∉ s.ended := fun hmem =>
    Nat.not_succ_le_self _ (h.numbered.ended _ hmem)
  constructor
  case numbered => exact hnumbered
  case reading =>
    intro fd hreading
    show Function.update s.connection fd₀ (s.accepted + 1) fd ∉ s.ended
    by_cases hfd : fd = fd₀
    · rw [hfd, hself]
      exact hnew
    · rw [hkept fd hfd]
      exact h.reading fd (hreader ▸ hreading)
  case client =>
    intro hafter fd hclient
    rcases htraces.client .bridge fd hclient with ⟨-, hold⟩ | ⟨hbad, -⟩
    · have hsame : replacedAfter s u (.accept x (some fd₀)) = true := hafter
      obtain ⟨hbefore, -⟩ := replaced_before (ne_install rfl .bridge) hclient hsame
      obtain ⟨hfresh, hother⟩ := h.client hbefore fd hold
      rw [← hkept fd (hopened fd (isOpen_iff.mpr ⟨.bridge, Or.inl hold⟩))] at hfresh
      exact ⟨hfresh, fun hreading => hother (hreader ▸ hreading)⟩
    · cases hbad
  case held =>
    intro fd hheld
    rcases htraces.held .bridge fd hheld with ⟨-, hold⟩ | haccept
    · obtain ⟨hfresh, hother, hclient⟩ := h.held fd hold
      rw [← hkept fd (hopened fd (isOpen_iff.mpr ⟨.bridge, Or.inr hold⟩))] at hfresh
      refine ⟨hfresh, fun hreading => hother (hreader ▸ hreading), fun hnow => ?_⟩
      rcases htraces.client .bridge fd hnow with ⟨-, hbefore⟩ | ⟨hbad, -⟩
      · exact hclient hbefore
      · cases hbad
    · -- the new connection itself
      obtain ⟨rfl, heq⟩ := WakeUps.Action.accept.inj haccept
      obtain rfl := Option.some.inj heq
      refine ⟨fun hmem => hnew (hself ▸ hmem), fun hreading => hreplaced (hreader ▸ hreading),
        fun hnow => ?_⟩
      rcases htraces.client .bridge fd₀ hnow with ⟨-, hbefore⟩ | ⟨hbad, -⟩
      · exact hopened fd₀ (isOpen_iff.mpr ⟨.bridge, Or.inl hbefore⟩) rfl
      · cases hbad
  case inRead =>
    intro conn hconn
    obtain ⟨hle, hfresh, fd, hreading, hnames⟩ := h.inRead conn hconn
    refine ⟨Nat.le_succ_of_le hle, hfresh, fd, hreader ▸ hreading, fun other hother => ?_⟩
    by_cases hfd : other = fd₀
    · have hnext : Function.update s.connection fd₀ (s.accepted + 1) other = conn := hother
      rw [hfd, hself] at hnext
      omega
    · exact hnames other ((hkept other hfd).symm.trans hother)

theorem Inv.ipc {s t : State} {a : WakeUps.Action} (h : Inv s) (hreplaced : Replaced s (.ipc a))
    (hstep : step s (.ipc a) = some t) : Inv t := by
  have hnumbered := h.numbered.ipc hstep
  obtain ⟨hadmits, u, hu, rfl⟩ := step_ipc hstep
  rcases accept_cases hadmits with ⟨heq, hnot⟩ | ⟨x, fd, rfl, hfree, heq⟩
  · rw [heq] at hnumbered ⊢
    exact h.ipc_same hreplaced (ne_readEnd_of_admits hadmits) hu hnumbered hnot
  · rw [heq] at hnumbered ⊢
    exact h.ipc_accept hreplaced hfree hu hnumbered

/-- What `read` is called on. -/
theorem named_cases {s : State} (h : Numbered s) {fd conn : Nat} (hnamed : named s fd = some conn) :
    s.connection fd = conn ∧ 0 < conn := by
  obtain ⟨hopen, hconn⟩ := Option.ite_none_right_eq_some.mp hnamed
  obtain rfl := Option.some.inj hconn
  exact ⟨rfl, h.opened fd hopen⟩

/-- The reader's own steps leave the sockets as they are. -/
theorem readEnd_eq {s t : WakeUps.State} (hstep : WakeUps.step s .readEnd = some t) :
    (∃ fd, s.reader = .reading fd) ∧ t = { s with reader := .top } := by
  simp only [WakeUps.step] at hstep
  split at hstep
  · rename_i fd hreading
    exact ⟨⟨fd, hreading⟩, (Option.some.inj hstep).symm⟩
  · cases hstep

/-- The inner loop is over. -/
theorem Inv.top {s : State} (h : Inv s) :
    Inv { s with ipc := { s.ipc with reader := .top }, inRead := none } where
  numbered := ⟨h.numbered.accepted, h.numbered.opened, h.numbered.apart, h.numbered.ended⟩
  reading := nofun
  client := fun hreplaced fd hclient => ⟨(h.client hreplaced fd hclient).1, nofun⟩
  held := fun fd hheld => ⟨(h.held fd hheld).1, nofun, (h.held fd hheld).2.2⟩
  inRead := nofun

/-- A connection ends whose number is no client's. -/
theorem Inv.end {s : State} (h : Inv s) {conn : Nat} (hconn : s.inRead = some (some conn)) :
    Inv { s with
      ipc := { s.ipc with reader := .top }, inRead := none, ended := s.ended ++ [conn] } := by
  obtain ⟨hle, -, fd, hreading, hnames⟩ := h.inRead conn hconn
  have hother : ∀ other, s.connection other ∉ s.ended → s.ipc.reader ≠ .reading other →
      s.connection other ∉ s.ended ++ [conn] := by
    intro other hfresh hnot hmem
    rcases List.mem_append.mp hmem with hmem | hmem
    · exact hfresh hmem
    · exact hnot (hnames other (List.mem_singleton.mp hmem) ▸ hreading)
  constructor
  case numbered =>
    refine ⟨h.numbered.accepted, h.numbered.opened, h.numbered.apart, fun c hc => ?_⟩
    rcases List.mem_append.mp hc with hc | hc
    · exact h.numbered.ended c hc
    · exact List.mem_singleton.mp hc ▸ hle
  case reading => nofun
  case client =>
    intro hreplaced other hclient
    obtain ⟨hfresh, hnot⟩ := h.client hreplaced other hclient
    exact ⟨hother other hfresh hnot, nofun⟩
  case held =>
    intro other hheld
    obtain ⟨hfresh, hnot, hclient⟩ := h.held other hheld
    exact ⟨hother other hfresh hnot, nofun, hclient⟩
  case inRead => nofun

theorem Inv.step {s t : State} {a : Action} (h : Inv s) (hreplaced : Replaced s a)
    (hstep : step s a = some t) : Inv t := by
  cases a with
  | ipc a => exact h.ipc hreplaced hstep
  | loopTest =>
    simp only [BridgeReads.step] at hstep
    split at hstep
    · rename_i fd hreading
      obtain ⟨hinRead, hstep⟩ := Option.ite_none_left_eq_some.mp hstep
      split at hstep
      · obtain rfl := Option.some.inj hstep
        refine { h with numbered := h.numbered.inRead _, inRead := fun conn hconn => ?_ }
        obtain ⟨rfl, hpos⟩ := named_cases h.numbered (Option.some.inj hconn)
        exact ⟨h.numbered.accepted fd, h.reading fd hreading, fd, hreading, fun other hother =>
          h.numbered.apart other fd hother (hother.symm ▸ hpos)⟩
      · obtain ⟨u, hu, rfl⟩ := Option.map_eq_some_iff.mp hstep
        obtain ⟨-, rfl⟩ := readEnd_eq hu
        have hnone : s.inRead = none := Classical.not_not.mp hinRead
        rw [hnone]
        exact h.top
    · cases hstep
  | readMore =>
    obtain ⟨-, ht⟩ := Option.ite_none_left_eq_some.mp hstep
    obtain rfl := Option.some.inj ht
    exact { h with numbered := h.numbered.inRead _, inRead := nofun }
  | readEnd =>
    simp only [BridgeReads.step] at hstep
    split at hstep
    · rename_i conn hinRead
      obtain ⟨u, hu, rfl⟩ := Option.map_eq_some_iff.mp hstep
      obtain ⟨-, rfl⟩ := readEnd_eq hu
      cases conn with
      | none =>
        -- `read` has failed on a number that is free
        rw [Option.toList_none, List.append_nil]
        exact h.top
      | some conn => exact h.end hinRead
    · cases hstep

/-! ## Reads after the end

The other direction needs less: a client that nobody replaces is still the socket's when the
next wait looks for one.  From the two the equivalence is put together. -/

/-- The client that the reader has taken is still the socket's: it is being read, or has
ended. -/
structure Kept (s : State) : Prop where
  inLoop : s.inRead ≠ none → ∃ fd, s.ipc.reader = .reading fd
  taken : s.replaced = false → s.ipc.running = true →
    ∃ fd, (s.ipc.sockets .bridge).clientFd = some fd ∧ (s.connection fd ∈ s.ended ∨
      s.ipc.reader = .reading fd ∧ ∀ conn, s.inRead = some conn → conn = some (s.connection fd))

theorem kept_initial : Kept initial where
  inLoop := fun h => absurd rfl h
  taken := nofun

/-- The connection of a number that is in use stays. -/
theorem connection_accept {s : State} {a : WakeUps.Action} (hadmits : admits s a = true) {fd : Nat}
    (hopen : isOpen s.ipc fd = true) : (accept s a).connection fd = s.connection fd := by
  rcases accept_cases hadmits with ⟨heq, -⟩ | ⟨x, fd', -, hfree, heq⟩
  · rw [heq]
  · rw [heq]
    refine Function.update_of_ne ?_ ..
    rintro rfl
    cases hopen.symm.trans hfree

@[simp] theorem accept_inRead (s : State) (a : WakeUps.Action) :
    (accept s a).inRead = s.inRead := by
  unfold accept
  split <;> rfl

@[simp] theorem accept_ended (s : State) (a : WakeUps.Action) :
    (accept s a).ended = s.ended := by
  unfold accept
  split <;> rfl

theorem replacedAfter_reading {s : State} {u : WakeUps.State} {fd : Nat}
    (h : u.reader = .reading fd) : replacedAfter s u .readerTest = false := by
  show (match u.reader with
    | .reading _ => false
    | _ => s.replaced) = false
  rw [h]

theorem replacedAfter_blocked {s : State} {u : WakeUps.State}
    (h : ∀ fd, u.reader ≠ .reading fd) : replacedAfter s u .readerTest = s.replaced := by
  show (match u.reader with
    | .reading _ => false
    | _ => s.replaced) = s.replaced
  split
  · rename_i fd hreading
    exact absurd hreading (h fd)
  · rfl

/-- A step that replaces nobody, and is not the reader's taking of a client. -/
theorem replacedAfter_eq_false {s : State} {u : WakeUps.State} {a : WakeUps.Action}
    (h : replacedAfter s u a = false) (htest : a ≠ .readerTest) :
    a ≠ .install .bridge ∧ s.replaced = false ∧ (u.sockets .bridge).clientFd ≠ none := by
  unfold replacedAfter at h
  split at h
  · cases h
  · exact absurd rfl htest
  · rename_i hinstall _
    obtain ⟨hsame, hsome⟩ := Bool.or_eq_false_iff.mp h
    refine ⟨fun heq => hinstall heq, hsame, fun hnone => ?_⟩
    rw [hnone] at hsome
    cases hsome

theorem Kept.ipc {s t : State} {a : WakeUps.Action} (h : Kept s)
    (hstep : step s (.ipc a) = some t) : Kept t := by
  obtain ⟨hadmits, u, hu, rfl⟩ := step_ipc hstep
  have hend := ne_readEnd_of_admits hadmits
  constructor
  · intro hinRead
    obtain ⟨fd, hreading⟩ := h.inLoop ((accept_inRead s a) ▸ hinRead)
    exact ⟨fd, still_reading_of_step hu hend hreading⟩
  · intro hafter hrunning
    have hbefore : s.ipc.running = true := Bool.eq_true_of_not_eq_false fun hfalse =>
      absurd (hrunning.symm.trans (WakeUps.running_step hfalse hu)) nofun
    by_cases htest : a = .readerTest
    · subst htest
      obtain ⟨⟨hwaiting, -⟩, -⟩ := Option.ite_none_right_eq_some.mp hu
      have hnone : s.inRead = none := Classical.byContradiction fun hsome => by
        obtain ⟨fd, hreading⟩ := h.inLoop hsome
        cases hwaiting.symm.trans hreading
      -- there is a client, so that the reader takes it
      have hclient : ∃ fd, (s.ipc.sockets .bridge).clientFd = some fd := by
        by_cases htaken : ∃ fd, u.reader = .reading fd
        · obtain ⟨fd, hreading⟩ := htaken
          exact ⟨fd, (reading_of_readerTest hu hreading).2⟩
        · have hsame := replacedAfter_blocked (s := s) fun fd heq => htaken ⟨fd, heq⟩
          obtain ⟨fd, hclient, -⟩ := h.taken (hsame.symm.trans hafter) hbefore
          exact ⟨fd, hclient⟩
      obtain ⟨fd, hclient⟩ := hclient
      obtain rfl := readerTest_of_client hbefore hclient hu
      refine ⟨fd, hclient, Or.inr ⟨rfl, fun conn hconn => ?_⟩⟩
      cases hnone.symm.trans hconn
    · obtain ⟨hinstall, hreplaced, hsome⟩ := replacedAfter_eq_false hafter htest
      obtain ⟨fd, hclient, hcases⟩ := h.taken hreplaced hbefore
      have hopen : isOpen s.ipc fd = true := isOpen_iff.mpr ⟨.bridge, Or.inl hclient⟩
      have hclient' : (u.sockets .bridge).clientFd = some fd := by
        obtain ⟨fd', hfd'⟩ := Option.ne_none_iff_exists'.mp hsome
        rcases (traces_of_step hu).client .bridge fd' hfd' with ⟨-, hold⟩ | ⟨hbad, -⟩
        · rw [hfd', ← hold, hclient]
        · exact absurd hbad hinstall
      refine ⟨fd, hclient', ?_⟩
      show (accept s a).connection fd ∈ (accept s a).ended ∨ u.reader = .reading fd ∧
        ∀ conn, (accept s a).inRead = some conn → conn = some ((accept s a).connection fd)
      rw [connection_accept hadmits hopen, accept_ended, accept_inRead]
      exact hcases.imp_right fun hreading =>
        ⟨still_reading_of_step hu hend hreading.1, hreading.2⟩

theorem Kept.step {s t : State} {a : Action} (h : Kept s) (hstep : step s a = some t) :
    Kept t := by
  cases a with
  | ipc a => exact h.ipc hstep
  | loopTest =>
    simp only [BridgeReads.step] at hstep
    split at hstep
    · rename_i fd hreading
      obtain ⟨hinRead, hstep⟩ := Option.ite_none_left_eq_some.mp hstep
      split at hstep
      · obtain rfl := Option.some.inj hstep
        refine ⟨fun _ => ⟨fd, hreading⟩, fun hreplaced hrunning => ?_⟩
        obtain ⟨fd', hclient, hcases⟩ := h.taken hreplaced hrunning
        refine ⟨fd', hclient, hcases.imp_right fun ⟨hreading', _⟩ => ⟨hreading', ?_⟩⟩
        rintro _ hconn
        obtain rfl := WakeUps.Reader.reading.inj (hreading.symm.trans hreading')
        rw [← Option.some.inj hconn]
        exact if_pos (isOpen_iff.mpr ⟨.bridge, Or.inl hclient⟩)
      · rename_i hstopped
        obtain ⟨u, hu, rfl⟩ := Option.map_eq_some_iff.mp hstep
        obtain ⟨-, rfl⟩ := readEnd_eq hu
        exact ⟨fun hread => absurd hread hinRead, fun _ hrunning => absurd hrunning hstopped⟩
    · cases hstep
  | readMore =>
    obtain ⟨-, ht⟩ := Option.ite_none_left_eq_some.mp hstep
    obtain rfl := Option.some.inj ht
    refine ⟨fun hread => absurd rfl hread, fun hreplaced hrunning => ?_⟩
    obtain ⟨fd, hclient, hcases⟩ := h.taken hreplaced hrunning
    exact ⟨fd, hclient, hcases.imp_right fun hreading => ⟨hreading.1, nofun⟩⟩
  | readEnd =>
    simp only [BridgeReads.step] at hstep
    split at hstep
    · rename_i conn hinRead
      obtain ⟨u, hu, rfl⟩ := Option.map_eq_some_iff.mp hstep
      obtain ⟨-, rfl⟩ := readEnd_eq hu
      refine ⟨fun hread => absurd rfl hread, fun hreplaced hrunning => ?_⟩
      obtain ⟨fd, hclient, hmem | ⟨-, hconn⟩⟩ := h.taken hreplaced hrunning
      · exact ⟨fd, hclient, Or.inl (List.mem_append_left _ hmem)⟩
      · refine ⟨fd, hclient, Or.inl (List.mem_append_right _ ?_)⟩
        rw [hconn conn hinRead]
        exact List.mem_singleton_self _
    · cases hstep

theorem step_loopTest {s : State} {fd : Nat} (hreading : s.ipc.reader = .reading fd)
    (hinRead : s.inRead = none) (hrunning : s.ipc.running = true) :
    step s .loopTest = some { s with inRead := some (named s fd) } := by
  simp [step, hreading, hinRead, hrunning]

/-- **A connection that has ended is read again exactly when the wait finds it unreplaced.**
In every run in which, between one end of the reader's wait and the next, the accept thread
installs another client or the send thread drops the one that the reader has taken (and no
number is given to a bridge client while the reader still reads it), no `read` is called on a
connection that has ended.  And wherever a run has come to a wait that finds the client
neither replaced nor dropped, the next thing the reader does, unless `running_` is cleared,
is to read a connection that has ended. -/
theorem no_read_after_end (as : List Action) :
    (Transition.Meets step Replaced initial as → Transition.Throughout step FreshRead initial as) ∧
    ∀ s t, Transition.run step initial as = some s → ¬ Replaced s (.ipc .readerTest) →
      step s (.ipc .readerTest) = some t → ∃ u, step t .loopTest = some u ∧ ¬ FreshRead u := by
  constructor
  · exact Transition.throughout_of_meets (fun _ h conn hconn => (h.inRead conn hconn).2.1)
      (fun _ _ _ h hreplaced hstep => h.step hreplaced hstep) inv_initial
  · intro s t hrun hfound hstep
    have hkept : Kept s :=
      Transition.run_invariant (fun _ _ _ h hstep => h.step hstep) kept_initial hrun
    have hunreplaced : s.ipc.running = true ∧ s.replaced = false := by
      refine Classical.byContradiction fun hnot => hfound fun hrunning _ => ?_
      exact Bool.eq_true_of_not_eq_false fun hfalse => hnot ⟨hrunning, hfalse⟩
    obtain ⟨hrunning, hreplaced⟩ := hunreplaced
    obtain ⟨fd, hclient, hcases⟩ := hkept.taken hreplaced hrunning
    obtain ⟨-, v, hv, rfl⟩ := step_ipc hstep
    obtain ⟨⟨hwaiting, -⟩, -⟩ := Option.ite_none_right_eq_some.mp hv
    have hended : s.connection fd ∈ s.ended := hcases.resolve_right fun hreading =>
      absurd (hwaiting.symm.trans hreading.1) nofun
    have hnone : s.inRead = none := Classical.byContradiction fun hsome => by
      obtain ⟨fd', hreading⟩ := hkept.inLoop hsome
      cases hwaiting.symm.trans hreading
    obtain rfl := readerTest_of_client hrunning hclient hv
    have hread :
        named { s with ipc := { s.ipc with reader := .reading fd }, replaced := false } fd =
          some (s.connection fd) := if_pos (isOpen_iff.mpr ⟨.bridge, Or.inl hclient⟩)
    refine ⟨{ s with ipc := { s.ipc with reader := .reading fd }
                     inRead := some (some (s.connection fd)), replaced := false }, ?_, ?_⟩
    · rw [replacedAfter_reading rfl, ← hread]
      exact step_loopTest rfl hnone hrunning
    · exact fun hfresh => hfresh _ rfl hended

/-- A client that connects and leaves while nothing is sent. -/
def clientLeaves : List Action :=
  [.ipc (.acceptorTop .bridge), .ipc (.accept .bridge (some 7)), .ipc (.install .bridge),
   .ipc .readerTop, .ipc .readerTest, .loopTest, .readEnd]

/-- The reader's next time around the loop finds it, and reads the end of the stream
again. -/
theorem ended_client_read_again :
    ∃ s, Transition.run step initial
        (clientLeaves ++ [.ipc .readerTop, .ipc .readerTest, .loopTest]) = some s ∧
      s.inRead = some (some 1) ∧ s.ended = [1] ∧
      ¬ Transition.Throughout step FreshRead initial
        (clientLeaves ++ [.ipc .readerTop, .ipc .readerTest, .loopTest]) := by
  obtain ⟨s, hrun, hinRead, hended⟩ :
      ∃ s, Transition.run step initial
          (clientLeaves ++ [.ipc .readerTop, .ipc .readerTest, .loopTest]) = some s ∧
        s.inRead = some (some 1) ∧ s.ended = [1] :=
    ⟨_, rfl, rfl, rfl⟩
  refine ⟨s, hrun, hinRead, hended, fun h => h.last hrun 1 hinRead ?_⟩
  rw [hended]
  exact List.mem_singleton_self 1

end Whutfa.BridgeReads
