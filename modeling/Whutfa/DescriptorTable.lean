import Mathlib.Logic.Function.Basic
import Whutfa.FdTable
import Whutfa.IpcSocket

/-! # Four sockets and one descriptor table

The accept threads and send threads of the four sockets, and the thread of
`bridge_read_loop` (`aa-handler/src/ipc_bridge.cpp`), over the process's descriptor
table.  `IpcSocket` follows one socket with connections for descriptors; here a
descriptor is a number, and the kernel gives out the lowest one that is free.  A
step is a critical section, or one `accept`, `read`, `write` or `close` call; the
two critical sections that close a descriptor are therefore two steps each, with
the mutex held between them.  A `write` or `read` that is interrupted changes
nothing and is left out.

`send_loop` and `bridge_read_loop` copy the descriptor under the mutex and use it
without.  When the accept thread has closed it in the meantime, the number may
have been given to another connection, of any socket: bytes then go to it or come
from it, or the failure branch, which compares numbers, closes it.  The condition
that excludes this is on the `accept` calls (`NotInUse`); under it the descriptors
are respected throughout every run (`respected_of_notInUse`).
-/
namespace Whutfa.Descriptors

/-- An accepted connection: the socket it was accepted on, and its number among all. -/
structure Conn where
  socket : SocketName
  id : Nat
  deriving DecidableEq

/-- A descriptor, with the connection it was given out for. -/
structure Client where
  fd : Nat
  conn : Conn
  deriving DecidableEq

/-- Where an accept thread is. -/
inductive Acceptor
  | idle
  /-- `accept` has returned. -/
  | returned (client : Client)
  /-- In the critical section, with the last client closed. -/
  | replacing (client : Client)
  deriving DecidableEq

/-- Where a send thread is. -/
inductive Sender
  | waiting
  /-- In `write_all`, with `written` bytes of the packet written. -/
  | writing (client : Client) (packet : List UInt8) (written : Nat)
  /-- `write` has failed; `conn` is the connection that the call reached, if any. -/
  | failed (fd : Nat) (conn : Option Conn)
  /-- In the critical section after that, with `client_fd` closed. -/
  | closing
  deriving DecidableEq

/-- The members of one `Socket`, and where its threads are. -/
structure SocketState where
  clientFd : Option Client
  txQueue : List (List UInt8)
  acceptor : Acceptor
  sender : Sender

/-- The mutex is free: no thread is in the middle of a critical section. -/
def SocketState.unlocked (k : SocketState) : Bool :=
  match k.acceptor, k.sender with
  | .replacing _, _ => false
  | _, .closing => false
  | _, _ => true

/-- The whole process, and what its calls have reached. -/
structure State where
  table : FdTable Conn
  sockets : SocketName → SocketState
  /-- The descriptor that `bridge_read_loop` reads. -/
  reader : Option Nat
  /-- How many connections have been accepted. -/
  accepted : Nat
  /-- For each `write` that took bytes: the connection that was current when the
  packet was popped, and the connection that got them. -/
  writes : List (Conn × Conn)
  /-- The connections that bytes were read from. -/
  reads : List Conn
  /-- For each close in the failure branch: the connection whose write failed, and
  the connection that was closed. -/
  closes : List (Option Conn × Option Conn)

/-- A process that has accepted nobody. -/
def initial : State :=
  { table := []
    sockets := fun _ => { clientFd := none, txQueue := [], acceptor := .idle, sender := .waiting }
    reader := none
    accepted := 0
    writes := []
    reads := []
    closes := [] }

/-- What a thread does next. -/
inductive Action
  /-- `accept` returns a new connection. -/
  | accept (x : SocketName)
  /-- The critical section of `accept_loop`, up to the close of the last client. -/
  | replace (x : SocketName)
  /-- The rest of it. -/
  | install (x : SocketName)
  /-- The critical section of `enqueue`. -/
  | enqueue (x : SocketName) (packet : List UInt8)
  /-- The critical section of `send_loop`. -/
  | pop (x : SocketName)
  /-- `write` takes `n` bytes. -/
  | write (x : SocketName) (n : Nat)
  | writeFail (x : SocketName)
  /-- `write_all` returns true. -/
  | done (x : SocketName)
  /-- The critical section after a failure, up to the close. -/
  | dropClient (x : SocketName)
  /-- The rest of it. -/
  | dropped (x : SocketName)
  /-- The critical section of `bridge_read_loop`. -/
  | copyFd
  /-- `read` returns bytes. -/
  | read
  /-- `read` fails or returns nothing. -/
  | readEnd

/-- One socket changes. -/
def State.update (s : State) (x : SocketName) (k : SocketState) : State :=
  { s with sockets := Function.update s.sockets x k }

/-- `enqueue`. -/
def enqueue (x : SocketName) (k : SocketState) (packet : List UInt8) : SocketState :=
  match k.clientFd with
  | none => k
  | some _ => { k with txQueue := (IpcSocket.makeRoom x.maxQueue k.txQueue).2 ++ [packet] }

/-- One step; `none` if the thread is not there or the kernel cannot do it. -/
def step (s : State) : Action → Option State
  | .accept x =>
      match (s.sockets x).acceptor with
      | .idle =>
          let conn : Conn := { socket := x, id := s.accepted }
          let client : Client := { fd := s.table.lowestFree, conn }
          some { s.update x { s.sockets x with acceptor := .returned client } with
            table := s.table.openFile conn
            accepted := s.accepted + 1 }
      | _ => none
  | .replace x =>
      let k := s.sockets x
      match k.acceptor with
      | .returned client =>
          if k.unlocked then
            match k.clientFd with
            | none => some (s.update x { k with acceptor := .idle, clientFd := some client })
            | some old =>
                some { s.update x { k with acceptor := .replacing client } with
                  table := s.table.closeFile old.fd }
          else none
      | _ => none
  | .install x =>
      let k := s.sockets x
      match k.acceptor with
      | .replacing client => some (s.update x { k with acceptor := .idle, clientFd := some client })
      | _ => none
  | .enqueue x packet =>
      if (s.sockets x).unlocked then some (s.update x (enqueue x (s.sockets x) packet)) else none
  | .pop x =>
      let k := s.sockets x
      match k.sender, k.clientFd, k.txQueue with
      | .waiting, some client, packet :: queue =>
          if k.unlocked then
            some (s.update x { k with txQueue := queue, sender := .writing client packet 0 })
          else none
      | _, _, _ => none
  | .write x n =>
      let k := s.sockets x
      match k.sender with
      | .writing client packet written =>
          match s.table.lookup client.fd with
          | some conn =>
              if 0 < n ∧ written + n ≤ packet.length then
                some { s.update x { k with sender := .writing client packet (written + n) } with
                  writes := s.writes ++ [(client.conn, conn)] }
              else none
          | none => none
      | _ => none
  | .writeFail x =>
      let k := s.sockets x
      match k.sender with
      | .writing client packet written =>
          if written < packet.length then
            some (s.update x
              { k with sender := .failed client.fd (s.table.lookup client.fd) })
          else none
      | _ => none
  | .done x =>
      let k := s.sockets x
      match k.sender with
      | .writing _ packet written =>
          if written = packet.length then some (s.update x { k with sender := .waiting }) else none
      | _ => none
  | .dropClient x =>
      let k := s.sockets x
      match k.sender with
      | .failed fd conn =>
          if k.unlocked then
            match k.clientFd with
            | none => some (s.update x { k with sender := .waiting })
            | some client =>
                if client.fd = fd then
                  some { s.update x { k with sender := .closing } with
                    table := s.table.closeFile fd
                    closes := s.closes ++ [(conn, s.table.lookup fd)] }
                else some (s.update x { k with sender := .waiting })
          else none
      | _ => none
  | .dropped x =>
      let k := s.sockets x
      match k.sender with
      | .closing => some (s.update x { k with sender := .waiting, clientFd := none })
      | _ => none
  | .copyFd =>
      let k := s.sockets .bridge
      match s.reader, k.clientFd with
      | none, some client => if k.unlocked then some { s with reader := some client.fd } else none
      | _, _ => none
  | .read =>
      match s.reader with
      | some fd => (s.table.lookup fd).map fun conn => { s with reads := s.reads ++ [conn] }
      | none => none
  | .readEnd => s.reader.map fun _ => { s with reader := none }

/-- What the code means by its descriptors: a packet's bytes go to the connection
that was current when it was popped, the reader reads bridge connections, and the
failure branch closes the connection that failed. -/
def Respected (s : State) : Prop :=
  (∀ w ∈ s.writes, w.2 = w.1) ∧ (∀ c ∈ s.reads, c.socket = .bridge) ∧
    ∀ c ∈ s.closes, c.2 = c.1

/-- The condition on an `accept` call for socket `x`: the number it will return is
not one that a send thread still has bytes to write to, nor one on which the send
thread of `x` has failed, nor, unless `x` is the bridge, the one the reader reads. -/
def NotInUse (s : State) : Action → Prop
  | .accept x =>
      (∀ y client packet written, (s.sockets y).sender = .writing client packet written →
        written < packet.length → client.fd ≠ s.table.lowestFree) ∧
      (∀ conn, (s.sockets x).sender ≠ .failed s.table.lowestFree conn) ∧
      (x ≠ .bridge → s.reader ≠ some s.table.lowestFree)
  | _ => True

/-! ## What a step can do

One lemma for each action: where the thread was, what the kernel admitted, and the state it
leads to.  The proofs below split on the action once and use nothing else of `step`. -/

section

variable {s t : State} {x : SocketName}

theorem step_accept (h : step s (.accept x) = some t) :
    (s.sockets x).acceptor = .idle ∧
      t = { s.update x { s.sockets x with
              acceptor := .returned
                { fd := s.table.lowestFree, conn := { socket := x, id := s.accepted } } } with
            table := s.table.openFile { socket := x, id := s.accepted }
            accepted := s.accepted + 1 } := by
  simp only [step] at h
  split at h
  · rename_i hidle
    exact ⟨hidle, (Option.some.inj h).symm⟩
  · cases h

theorem step_replace (h : step s (.replace x) = some t) :
    ∃ client, (s.sockets x).acceptor = .returned client ∧ (s.sockets x).unlocked ∧
      (((s.sockets x).clientFd = none ∧
          t = s.update x { s.sockets x with acceptor := .idle, clientFd := some client }) ∨
        ∃ old, (s.sockets x).clientFd = some old ∧
          t = { s.update x { s.sockets x with acceptor := .replacing client } with
                table := s.table.closeFile old.fd }) := by
  simp only [step] at h
  split at h
  · rename_i client hacceptor
    obtain ⟨hu, h⟩ := Option.ite_none_right_eq_some.mp h
    refine ⟨client, hacceptor, hu, ?_⟩
    split at h
    · rename_i hnone
      exact Or.inl ⟨hnone, (Option.some.inj h).symm⟩
    · rename_i old hold
      exact Or.inr ⟨old, hold, (Option.some.inj h).symm⟩
  · cases h

theorem step_install (h : step s (.install x) = some t) :
    ∃ client, (s.sockets x).acceptor = .replacing client ∧
      t = s.update x { s.sockets x with acceptor := .idle, clientFd := some client } := by
  simp only [step] at h
  split at h
  · rename_i client hacceptor
    exact ⟨client, hacceptor, (Option.some.inj h).symm⟩
  · cases h

theorem step_enqueue {packet : List UInt8} (h : step s (.enqueue x packet) = some t) :
    t = s.update x (enqueue x (s.sockets x) packet) := by
  obtain ⟨-, h⟩ := Option.ite_none_right_eq_some.mp h
  exact (Option.some.inj h).symm

theorem step_pop (h : step s (.pop x) = some t) :
    ∃ client packet queue, (s.sockets x).sender = .waiting ∧
      (s.sockets x).clientFd = some client ∧ (s.sockets x).txQueue = packet :: queue ∧
      (s.sockets x).unlocked ∧
      t = s.update x { s.sockets x with
            txQueue := queue, sender := .writing client packet 0 } := by
  simp only [step] at h
  split at h
  · rename_i client packet queue hsender hclient hqueue
    obtain ⟨hu, h⟩ := Option.ite_none_right_eq_some.mp h
    exact ⟨client, packet, queue, hsender, hclient, hqueue, hu, (Option.some.inj h).symm⟩
  · cases h

theorem step_write {n : Nat} (h : step s (.write x n) = some t) :
    ∃ client packet written conn, (s.sockets x).sender = .writing client packet written ∧
      s.table.lookup client.fd = some conn ∧ 0 < n ∧ written + n ≤ packet.length ∧
      t = { s.update x { s.sockets x with sender := .writing client packet (written + n) } with
            writes := s.writes ++ [(client.conn, conn)] } := by
  simp only [step] at h
  split at h
  · rename_i client packet written hsender
    split at h
    · rename_i conn hlookup
      obtain ⟨hn, h⟩ := Option.ite_none_right_eq_some.mp h
      exact ⟨client, packet, written, conn, hsender, hlookup, hn.1, hn.2,
        (Option.some.inj h).symm⟩
    · cases h
  · cases h

theorem step_writeFail (h : step s (.writeFail x) = some t) :
    ∃ client packet written, (s.sockets x).sender = .writing client packet written ∧
      written < packet.length ∧
      t = s.update x { s.sockets x with
            sender := .failed client.fd (s.table.lookup client.fd) } := by
  simp only [step] at h
  split at h
  · rename_i client packet written hsender
    obtain ⟨hw, h⟩ := Option.ite_none_right_eq_some.mp h
    exact ⟨client, packet, written, hsender, hw, (Option.some.inj h).symm⟩
  · cases h

theorem step_done (h : step s (.done x) = some t) :
    ∃ client packet written, (s.sockets x).sender = .writing client packet written ∧
      written = packet.length ∧ t = s.update x { s.sockets x with sender := .waiting } := by
  simp only [step] at h
  split at h
  · rename_i client packet written hsender
    obtain ⟨hw, h⟩ := Option.ite_none_right_eq_some.mp h
    exact ⟨client, packet, written, hsender, hw, (Option.some.inj h).symm⟩
  · cases h

/-- The failure branch closes the client if the number is still the failed one. -/
theorem step_dropClient (h : step s (.dropClient x) = some t) :
    ∃ fd conn, (s.sockets x).sender = .failed fd conn ∧ (s.sockets x).unlocked ∧
      (t = s.update x { s.sockets x with sender := .waiting } ∨
        ∃ client, (s.sockets x).clientFd = some client ∧ client.fd = fd ∧
          t = { s.update x { s.sockets x with sender := .closing } with
                table := s.table.closeFile fd
                closes := s.closes ++ [(conn, s.table.lookup fd)] }) := by
  simp only [step] at h
  split at h
  · rename_i fd conn hsender
    obtain ⟨hu, h⟩ := Option.ite_none_right_eq_some.mp h
    refine ⟨fd, conn, hsender, hu, ?_⟩
    split at h
    · exact Or.inl (Option.some.inj h).symm
    · rename_i client hclient
      by_cases hfd : client.fd = fd
      · rw [if_pos hfd] at h
        exact Or.inr ⟨client, hclient, hfd, (Option.some.inj h).symm⟩
      · rw [if_neg hfd] at h
        exact Or.inl (Option.some.inj h).symm
  · cases h

theorem step_dropped (h : step s (.dropped x) = some t) :
    t = s.update x { s.sockets x with sender := .waiting, clientFd := none } := by
  simp only [step] at h
  split at h
  · exact (Option.some.inj h).symm
  · cases h

theorem step_copyFd (h : step s .copyFd = some t) :
    ∃ client, (s.sockets .bridge).clientFd = some client ∧ (s.sockets .bridge).unlocked ∧
      t = { s with reader := some client.fd } := by
  simp only [step] at h
  split at h
  · rename_i client hreader hclient
    obtain ⟨hu, h⟩ := Option.ite_none_right_eq_some.mp h
    exact ⟨client, hclient, hu, (Option.some.inj h).symm⟩
  · cases h

theorem step_read (h : step s .read = some t) :
    ∃ fd conn, s.reader = some fd ∧ s.table.lookup fd = some conn ∧
      t = { s with reads := s.reads ++ [conn] } := by
  simp only [step] at h
  split at h
  · rename_i fd hfd
    obtain ⟨conn, hconn, rfl⟩ := Option.map_eq_some_iff.mp h
    exact ⟨fd, conn, hfd, hconn, rfl⟩
  · cases h

theorem step_readEnd (h : step s .readEnd = some t) : t = { s with reader := none } := by
  obtain ⟨fd, -, rfl⟩ := Option.map_eq_some_iff.mp h
  rfl

end

/-! ## One socket and the table

The invariant of one socket is stated with the whole table, since it is another socket's
`accept` that can give a number away.  Each lemma is about one critical section or one call;
those of another socket come first, as the frame. -/

/-- What holds of socket `x` and the table between steps: a number that a thread is
about to use names what the thread takes it for, or nothing. -/
structure SocketInv (table : FdTable Conn) (x : SocketName) (k : SocketState) : Prop where
  writing : ∀ client packet written, k.sender = .writing client packet written →
    written < packet.length → ∀ c, table.lookup client.fd = some c → c = client.conn
  failed : ∀ fd conn, k.sender = .failed fd conn → ∀ c, table.lookup fd = some c →
    c.socket = x → conn = some c
  client : ∀ client, k.clientFd = some client → k.unlocked →
    table.lookup client.fd = some client.conn ∧ client.conn.socket = x
  acceptor : ∀ client, k.acceptor = .returned client ∨ k.acceptor = .replacing client →
    table.lookup client.fd = some client.conn ∧ client.conn.socket = x
  apart : ∀ client old, k.acceptor = .returned client → k.clientFd = some old → k.unlocked →
    client.fd ≠ old.fd
  exclusive : ∀ client, k.acceptor = .replacing client → k.sender ≠ .closing

theorem unlocked_iff {k : SocketState} :
    k.unlocked ↔ (∀ client, k.acceptor ≠ .replacing client) ∧ k.sender ≠ .closing := by
  unfold SocketState.unlocked
  cases k.acceptor <;> cases k.sender <;> simp

namespace SocketInv
variable {table : FdTable Conn} {x : SocketName} {k : SocketState}

/-- Another socket's connection is closed. -/
theorem close_other (h : SocketInv table x k) {n : Nat} {c : Conn} (hn : table.lookup n = some c)
    (hc : c.socket ≠ x) : SocketInv (table.closeFile n) x k := by
  have hkeep : ∀ client : Client, table.lookup client.fd = some client.conn →
      client.conn.socket = x → (table.closeFile n).lookup client.fd = some client.conn := by
    intro client hlookup hsocket
    have hne : client.fd ≠ n := by
      rintro rfl
      rw [hlookup] at hn
      exact hc (Option.some.inj hn ▸ hsocket)
    rw [FdTable.lookup_closeFile_ne table hne]
    exact hlookup
  constructor
  case writing =>
    exact fun client packet written hs hw c' hc' =>
      h.writing client packet written hs hw c' (FdTable.lookup_of_closeFile hc')
  case failed =>
    exact fun fd conn hs c' hc' => h.failed fd conn hs c' (FdTable.lookup_of_closeFile hc')
  case client =>
    intro client hs hu
    obtain ⟨hlookup, hsocket⟩ := h.client client hs hu
    exact ⟨hkeep client hlookup hsocket, hsocket⟩
  case acceptor =>
    intro client hs
    obtain ⟨hlookup, hsocket⟩ := h.acceptor client hs
    exact ⟨hkeep client hlookup hsocket, hsocket⟩
  case apart => exact h.apart
  case exclusive => exact h.exclusive

/-- Another socket accepts a connection, at a number no `write` is left to. -/
theorem accept_other (h : SocketInv table x k) {conn : Conn} (hconn : conn.socket ≠ x)
    (hfree : ∀ client packet written, k.sender = .writing client packet written →
      written < packet.length → client.fd ≠ table.lowestFree) :
    SocketInv (table.openFile conn) x k := by
  have hkeep : ∀ client : Client, table.lookup client.fd = some client.conn →
      (table.openFile conn).lookup client.fd = some client.conn := by
    intro client hlookup
    have hne : client.fd ≠ table.lowestFree := by
      intro heq
      rw [heq, table.lookup_lowestFree] at hlookup
      cases hlookup
    rw [table.lookup_openFile_ne conn hne]
    exact hlookup
  constructor
  case writing =>
    intro client packet written hs hw c hc
    rw [table.lookup_openFile_ne conn (hfree client packet written hs hw)] at hc
    exact h.writing client packet written hs hw c hc
  case failed =>
    intro fd conn' hs c hc hsocket
    by_cases hfd : fd = table.lowestFree
    · rw [hfd, table.lookup_openFile_self] at hc
      exact absurd (Option.some.inj hc ▸ hsocket) hconn
    · rw [table.lookup_openFile_ne conn hfd] at hc
      exact h.failed fd conn' hs c hc hsocket
  case client =>
    intro client hs hu
    obtain ⟨hlookup, hsocket⟩ := h.client client hs hu
    exact ⟨hkeep client hlookup, hsocket⟩
  case acceptor =>
    intro client hs
    obtain ⟨hlookup, hsocket⟩ := h.acceptor client hs
    exact ⟨hkeep client hlookup, hsocket⟩
  case apart => exact h.apart
  case exclusive => exact h.exclusive

/-- The socket itself accepts a connection. -/
theorem accept (h : SocketInv table x k) (hidle : k.acceptor = .idle) {conn : Conn}
    (hconn : conn.socket = x)
    (hfree : ∀ client packet written, k.sender = .writing client packet written →
      written < packet.length → client.fd ≠ table.lowestFree)
    (hfailed : ∀ conn, k.sender ≠ .failed table.lowestFree conn) :
    SocketInv (table.openFile conn) x
      { k with acceptor := .returned { fd := table.lowestFree, conn } } := by
  have hu : SocketState.unlocked { k with
      acceptor := .returned { fd := table.lowestFree, conn } } → k.unlocked := by
    rw [unlocked_iff, unlocked_iff]
    refine fun hu => ⟨fun client => ?_, hu.2⟩
    rw [hidle]
    intro heq
    cases heq
  have hold : ∀ client, k.clientFd = some client → k.unlocked →
      client.fd ≠ table.lowestFree := by
    intro client hs hu heq
    have hlookup := (h.client client hs hu).1
    rw [heq, table.lookup_lowestFree] at hlookup
    cases hlookup
  constructor
  case writing =>
    intro client packet written hs hw c hc
    rw [table.lookup_openFile_ne conn (hfree client packet written hs hw)] at hc
    exact h.writing client packet written hs hw c hc
  case failed =>
    intro fd conn' hs c hc hsocket
    have hne : fd ≠ table.lowestFree := by
      rintro rfl
      exact hfailed conn' hs
    rw [table.lookup_openFile_ne conn hne] at hc
    exact h.failed fd conn' hs c hc hsocket
  case client =>
    intro client hs hunlocked
    rw [table.lookup_openFile_ne conn (hold client hs (hu hunlocked))]
    exact h.client client hs (hu hunlocked)
  case acceptor =>
    intro client hs
    have hclient : client = { fd := table.lowestFree, conn } := by
      rcases hs with hs | hs
      · exact (Acceptor.returned.inj hs).symm
      · cases hs
    rw [hclient]
    exact ⟨table.lookup_openFile_self conn, hconn⟩
  case apart =>
    intro client old hs hclient hunlocked
    rw [← Acceptor.returned.inj hs]
    exact (hold old hclient (hu hunlocked)).symm
  case exclusive =>
    intro client hs
    cases hs

/-- The new client is installed. -/
theorem install {client : Client} (h : SocketInv table x k)
    (hacceptor : k.acceptor = .returned client ∨ k.acceptor = .replacing client) :
    SocketInv table x { k with acceptor := .idle, clientFd := some client } := by
  constructor
  case writing => exact h.writing
  case failed => exact h.failed
  case client =>
    intro client' hs _
    rw [← Option.some.inj hs]
    exact h.acceptor client hacceptor
  case acceptor =>
    intro client' hs
    rcases hs with hs | hs <;> cases hs
  case apart =>
    intro client' old hs
    cases hs
  case exclusive =>
    intro client' hs
    cases hs

/-- The last client is closed to make place for the new one. -/
theorem replace {client old : Client} (h : SocketInv table x k)
    (hacceptor : k.acceptor = .returned client) (hold : k.clientFd = some old)
    (hu : k.unlocked) :
    SocketInv (table.closeFile old.fd) x { k with acceptor := .replacing client } := by
  constructor
  case writing =>
    exact fun client packet written hs hw c hc =>
      h.writing client packet written hs hw c (FdTable.lookup_of_closeFile hc)
  case failed => exact fun fd conn hs c hc => h.failed fd conn hs c (FdTable.lookup_of_closeFile hc)
  case client =>
    intro client' hs hunlocked
    rw [unlocked_iff] at hunlocked
    exact absurd rfl (hunlocked.1 client)
  case acceptor =>
    intro client' hs
    have hclient : client' = client := by
      rcases hs with hs | hs
      · cases hs
      · exact (Acceptor.replacing.inj hs).symm
    subst hclient
    rw [FdTable.lookup_closeFile_ne table (h.apart client' old hacceptor hold hu)]
    exact h.acceptor client' (Or.inl hacceptor)
  case apart =>
    intro client' old' hs
    cases hs
  case exclusive =>
    intro client' hs
    exact (unlocked_iff.mp hu).2

/-- The send thread moves on, to a state that is not the middle of a critical
section, and takes no number for anything new. -/
theorem sender {sender' : Sender} (h : SocketInv table x k) (hk : k.sender ≠ .closing)
    (hwriting : ∀ client packet written, sender' = .writing client packet written →
      written < packet.length → ∀ c, table.lookup client.fd = some c → c = client.conn)
    (hfailed : ∀ fd conn, sender' = .failed fd conn → ∀ c, table.lookup fd = some c →
      c.socket = x → conn = some c) (hne : sender' ≠ .closing) :
    SocketInv table x { k with sender := sender' } := by
  have hu : SocketState.unlocked { k with sender := sender' } → k.unlocked := by
    rw [unlocked_iff, unlocked_iff]
    exact fun hu => ⟨hu.1, hk⟩
  constructor
  case writing => exact hwriting
  case failed => exact hfailed
  case client => exact fun client hs hunlocked => h.client client hs (hu hunlocked)
  case acceptor => exact h.acceptor
  case apart => exact fun client old hs hold hunlocked => h.apart client old hs hold (hu hunlocked)
  case exclusive => exact fun client hs => hne

/-- The send thread returns to the condition variable. -/
theorem waiting (h : SocketInv table x k) (hk : k.sender ≠ .closing) :
    SocketInv table x { k with sender := .waiting } := by
  refine h.sender hk ?_ ?_ ?_
  · intro client packet written heq
    cases heq
  · intro fd conn heq
    cases heq
  · intro heq
    cases heq

/-- The queue changes. -/
theorem queue (h : SocketInv table x k) (txQueue : List (List UInt8)) :
    SocketInv table x { k with txQueue } :=
  ⟨h.writing, h.failed, h.client, h.acceptor, h.apart, h.exclusive⟩

/-- The send thread is in `write_all`, with a number that names what it means if there
is anything left to write. -/
theorem writing_on (h : SocketInv table x k) (hk : k.sender ≠ .closing) {client : Client}
    {packet : List UInt8} {written : Nat}
    (hmeant : written < packet.length → ∀ c, table.lookup client.fd = some c →
      c = client.conn) :
    SocketInv table x { k with sender := .writing client packet written } := by
  apply h.sender hk
  · intro client' packet' written' heq
    obtain ⟨rfl, rfl, rfl⟩ := Sender.writing.inj heq
    exact hmeant
  · intro fd conn heq
    cases heq
  · intro heq
    cases heq

/-- The send thread has failed on the connection that the number names. -/
theorem failed_on (h : SocketInv table x k) (hk : k.sender ≠ .closing) (fd : Nat) :
    SocketInv table x { k with sender := .failed fd (table.lookup fd) } := by
  apply h.sender hk
  · intro client packet written heq
    cases heq
  · intro fd' conn heq c hc _
    obtain ⟨rfl, rfl⟩ := Sender.failed.inj heq
    exact hc
  · intro heq
    cases heq

/-- The send thread takes a packet for the current client. -/
theorem pop {client : Client} (h : SocketInv table x k) (hu : k.unlocked)
    (hclient : k.clientFd = some client) (packet : List UInt8) :
    SocketInv table x { k with sender := .writing client packet 0 } := by
  apply h.writing_on (unlocked_iff.mp hu).2
  intro _ c hc
  rw [(h.client client hclient hu).1] at hc
  exact (Option.some.inj hc).symm

/-- The failure branch closes the client. -/
theorem dropClient {client : Client} (h : SocketInv table x k) (hu : k.unlocked)
    (hclient : k.clientFd = some client) :
    SocketInv (table.closeFile client.fd) x { k with sender := .closing } := by
  constructor
  case writing =>
    intro client' packet written hs
    cases hs
  case failed =>
    intro fd conn hs
    cases hs
  case client =>
    intro client' hs hunlocked
    exact absurd rfl (unlocked_iff.mp hunlocked).2
  case acceptor =>
    intro client' hs
    have hreturned : k.acceptor = .returned client' := by
      rcases hs with hs | hs
      · exact hs
      · exact absurd hs ((unlocked_iff.mp hu).1 client')
    rw [FdTable.lookup_closeFile_ne table (h.apart client' client hreturned hclient hu)]
    exact h.acceptor client' hs
  case apart =>
    intro client' old hs hold hunlocked
    exact absurd rfl (unlocked_iff.mp hunlocked).2
  case exclusive =>
    intro client' hs
    exact absurd hs ((unlocked_iff.mp hu).1 client')

theorem dropped (h : SocketInv table x k) :
    SocketInv table x { k with sender := .waiting, clientFd := none } := by
  constructor
  case writing =>
    intro client packet written hs
    cases hs
  case failed =>
    intro fd conn hs
    cases hs
  case client =>
    intro client hs
    cases hs
  case acceptor => exact h.acceptor
  case apart =>
    intro client old hs hold
    cases hold
  case exclusive =>
    intro client hs heq
    cases heq

end SocketInv

/-! ## Every run

The joint invariant asks for the invariant of all four sockets and of the reader.  A step
changes one socket, and of the table at most one number, so that the lemmas above cover the
socket that moves and the frame lemmas the three that do not. -/

/-- The joint invariant. -/
structure Inv (s : State) : Prop where
  sockets : ∀ x, SocketInv s.table x (s.sockets x)
  reader : ∀ fd, s.reader = some fd → ∀ c, s.table.lookup fd = some c → c.socket = .bridge
  respected : Respected s

theorem inv_initial : Inv initial where
  sockets x := by
    constructor
    case writing =>
      intro client packet written hs
      cases hs
    case failed =>
      intro fd conn hs
      cases hs
    case client =>
      intro client hs
      cases hs
    case acceptor =>
      intro client hs
      rcases hs with hs | hs <;> cases hs
    case apart =>
      intro client old hs
      cases hs
    case exclusive =>
      intro client hs
      cases hs
  reader fd hs := by cases hs
  respected := by
    refine ⟨?_, ?_, ?_⟩ <;> intro _ h <;> cases h

/-- One socket and perhaps the table change. -/
theorem sockets_update {s : State} {table : FdTable Conn} {x : SocketName} {k : SocketState}
    (hx : SocketInv table x k) (hother : ∀ y, y ≠ x → SocketInv table y (s.sockets y)) :
    ∀ y, SocketInv table y ((s.update x k).sockets y) := by
  intro y
  show SocketInv table y (Function.update s.sockets x k y)
  by_cases hy : y = x
  · subst hy
    rw [Function.update_self]
    exact hx
  · rw [Function.update_of_ne hy]
    exact hother y hy

/-- Only one socket changes. -/
theorem Inv.update {s : State} (h : Inv s) {x : SocketName} {k : SocketState}
    (hx : SocketInv s.table x k) : Inv (s.update x k) where
  sockets := sockets_update hx fun y _ => h.sockets y
  reader := h.reader
  respected := h.respected

theorem inv_accept {s t : State} {x : SocketName} (h : Inv s) (hfree : NotInUse s (.accept x))
    (hstep : step s (.accept x) = some t) : Inv t := by
  obtain ⟨hwriting, hfailed, hreader⟩ := hfree
  obtain ⟨hidle, rfl⟩ := step_accept hstep
  refine ⟨?_, ?_, h.respected⟩
  · apply sockets_update ((h.sockets x).accept hidle rfl (hwriting x) hfailed)
    intro y hy
    exact (h.sockets y).accept_other (Ne.symm hy) (hwriting y)
  · intro fd hfd c hc
    by_cases heq : fd = s.table.lowestFree
    · -- the reader's number is given out again, but to a bridge connection
      subst heq
      have hx : x = .bridge := Classical.byContradiction fun hne => hreader hne hfd
      rw [s.table.lookup_openFile_self] at hc
      rw [← Option.some.inj hc]
      exact hx
    · rw [s.table.lookup_openFile_ne _ heq] at hc
      exact h.reader fd hfd c hc

/-- The close of a socket's client, in either critical section. -/
theorem Inv.close {s : State} (h : Inv s) {x : SocketName} {client : Client} {k : SocketState}
    (hclient : s.table.lookup client.fd = some client.conn ∧ client.conn.socket = x)
    (hx : SocketInv (s.table.closeFile client.fd) x k) :
    (∀ y, SocketInv (s.table.closeFile client.fd) y ((s.update x k).sockets y)) ∧
      ∀ fd, s.reader = some fd → ∀ c, (s.table.closeFile client.fd).lookup fd = some c →
        c.socket = .bridge := by
  constructor
  · refine sockets_update hx fun y hy => (h.sockets y).close_other hclient.1 ?_
    rw [hclient.2]
    exact Ne.symm hy
  · exact fun fd hfd c hc => h.reader fd hfd c (FdTable.lookup_of_closeFile hc)

theorem inv_replace {s t : State} {x : SocketName} (h : Inv s)
    (hstep : step s (.replace x) = some t) : Inv t := by
  obtain ⟨client, hacceptor, hu, hcases⟩ := step_replace hstep
  rcases hcases with ⟨-, rfl⟩ | ⟨old, hold, rfl⟩
  · exact h.update ((h.sockets x).install (Or.inl hacceptor))
  · obtain ⟨hsockets, hreader⟩ := h.close ((h.sockets x).client old hold hu)
      ((h.sockets x).replace hacceptor hold hu)
    exact ⟨hsockets, hreader, h.respected⟩

theorem inv_write {s t : State} {x : SocketName} {n : Nat} (h : Inv s)
    (hstep : step s (.write x n) = some t) : Inv t := by
  obtain ⟨client, packet, written, conn, hsender, hlookup, hpos, hn, rfl⟩ := step_write hstep
  have hmeant : conn = client.conn :=
    (h.sockets x).writing client packet written hsender (by omega) conn hlookup
  have hx : SocketInv s.table x
      { s.sockets x with sender := .writing client packet (written + n) } := by
    apply (h.sockets x).writing_on
    · rw [hsender]
      exact nofun
    · intro _ c hc
      rw [hlookup] at hc
      rw [← Option.some.inj hc]
      exact hmeant
  refine ⟨sockets_update hx fun y _ => h.sockets y, h.reader, ?_, h.respected.2⟩
  intro w hw
  rcases List.mem_append.mp hw with hold | hnew
  · exact h.respected.1 w hold
  · rw [List.mem_singleton.mp hnew]
    exact hmeant

theorem inv_dropClient {s t : State} {x : SocketName} (h : Inv s)
    (hstep : step s (.dropClient x) = some t) : Inv t := by
  obtain ⟨fd, conn, hsender, hu, hcases⟩ := step_dropClient hstep
  rcases hcases with rfl | ⟨client, hclient, rfl, rfl⟩
  · apply h.update
    apply (h.sockets x).waiting
    rw [hsender]
    exact nofun
  · have hlookup := (h.sockets x).client client hclient hu
    obtain ⟨hsockets, hreader⟩ := h.close hlookup ((h.sockets x).dropClient hu hclient)
    refine ⟨hsockets, hreader, h.respected.1, h.respected.2.1, ?_⟩
    intro c hc
    rcases List.mem_append.mp hc with hold | hnew
    · exact h.respected.2.2 c hold
    · -- the number still names the connection whose write failed
      rw [List.mem_singleton.mp hnew, hlookup.1]
      exact ((h.sockets x).failed _ _ hsender _ hlookup.1 hlookup.2).symm

/-- **Every step whose `accept` returns a number that is not in use keeps the joint
invariant.** -/
theorem inv_step {s t : State} {a : Action} (h : Inv s) (hfree : NotInUse s a)
    (hstep : step s a = some t) : Inv t := by
  cases a with
  | accept x => exact inv_accept h hfree hstep
  | replace x => exact inv_replace h hstep
  | install x =>
    obtain ⟨client, hacceptor, rfl⟩ := step_install hstep
    exact h.update ((h.sockets x).install (Or.inr hacceptor))
  | enqueue x packet =>
    rw [step_enqueue hstep]
    apply h.update
    unfold enqueue
    split
    · exact h.sockets x
    · exact (h.sockets x).queue _
  | pop x =>
    obtain ⟨client, packet, queue, -, hclient, -, hu, rfl⟩ := step_pop hstep
    exact h.update (((h.sockets x).pop hu hclient packet).queue queue)
  | write x n => exact inv_write h hstep
  | writeFail x =>
    obtain ⟨client, packet, written, hsender, -, rfl⟩ := step_writeFail hstep
    apply h.update
    apply (h.sockets x).failed_on
    rw [hsender]
    exact nofun
  | done x =>
    obtain ⟨client, packet, written, hsender, -, rfl⟩ := step_done hstep
    apply h.update
    apply (h.sockets x).waiting
    rw [hsender]
    exact nofun
  | dropClient x => exact inv_dropClient h hstep
  | dropped x =>
    rw [step_dropped hstep]
    exact h.update (h.sockets x).dropped
  | copyFd =>
    obtain ⟨client, hclient, hu, rfl⟩ := step_copyFd hstep
    refine ⟨h.sockets, ?_, h.respected⟩
    intro fd hfd c hc
    obtain ⟨hlookup, hsocket⟩ := (h.sockets .bridge).client client hclient hu
    rw [← Option.some.inj hfd, hlookup] at hc
    rw [← Option.some.inj hc]
    exact hsocket
  | read =>
    obtain ⟨fd, conn, hfd, hconn, rfl⟩ := step_read hstep
    refine ⟨h.sockets, h.reader, h.respected.1, ?_, h.respected.2.2⟩
    intro c hc
    rcases List.mem_append.mp hc with hold | hnew
    · exact h.respected.2.1 c hold
    · rw [List.mem_singleton.mp hnew]
      exact h.reader fd hfd conn hconn
  | readEnd =>
    rw [step_readEnd hstep]
    exact ⟨h.sockets, nofun, h.respected⟩

/-- **When descriptors are respected.**  In every run, of any interleaving of the
threads of the four sockets, whose `accept` calls never return a number in use, each
packet's bytes go only to the connection that was current on its own socket when it
was popped, the reader reads only bridge connections, and the failure branch closes
only the connection whose write failed. -/
theorem respected_of_notInUse (actions : List Action)
    (hfree : Transition.Meets step NotInUse initial actions) :
    Transition.Throughout step Respected initial actions :=
  Transition.throughout_of_meets (fun _ h => h.respected) (fun _ _ _ h hg => inv_step h hg)
    inv_initial hfree

/-- While the send threads and the reader wait, nobody uses a number. -/
theorem notInUse_of_waiting {s : State} (hsenders : ∀ y, (s.sockets y).sender = .waiting)
    (hreader : s.reader = none) (x : SocketName) : NotInUse s (.accept x) := by
  refine ⟨fun y client packet written hs => ?_, fun conn hs => ?_, fun _ hs => ?_⟩
  · cases (hsenders y).symm.trans hs
  · cases (hsenders x).symm.trans hs
  · cases hreader.symm.trans hs

/-- A video client is served and then replaced, and its number is given to an audio client. -/
def servedClients : List Action :=
  [.accept .video, .replace .video, .enqueue .video [1, 2], .pop .video, .write .video 2,
    .done .video, .accept .video, .replace .video, .install .video, .accept .audioMedia,
    .replace .audioMedia, .enqueue .audioMedia [3], .pop .audioMedia, .write .audioMedia 1]

theorem respected_servedClients :
    (∃ s, Transition.run step initial servedClients = some s ∧
      (s.sockets .audioMedia).clientFd =
        some { fd := 0, conn := { socket := .audioMedia, id := 2 } } ∧
      s.writes = [({ socket := .video, id := 0 }, { socket := .video, id := 0 }),
        ({ socket := .audioMedia, id := 2 }, { socket := .audioMedia, id := 2 })]) ∧
      Transition.Throughout step Respected initial servedClients := by
  refine ⟨⟨_, rfl, rfl, rfl⟩, respected_of_notInUse servedClients ?_⟩
  -- at each of the three `accept` calls all threads wait
  refine Transition.meets_cons rfl (notInUse_of_waiting (fun _ => rfl) rfl .video) ?_
  refine Transition.meets_cons rfl trivial <| Transition.meets_cons rfl trivial <|
    Transition.meets_cons rfl trivial <| Transition.meets_cons rfl trivial <|
    Transition.meets_cons rfl trivial ?_
  refine Transition.meets_cons rfl (notInUse_of_waiting (fun y => by cases y <;> rfl) rfl .video) ?_
  refine Transition.meets_cons rfl trivial <| Transition.meets_cons rfl trivial ?_
  refine Transition.meets_cons rfl
    (notInUse_of_waiting (fun y => by cases y <;> rfl) rfl .audioMedia) ?_
  exact Transition.meets_cons rfl trivial <| Transition.meets_cons rfl trivial <|
    Transition.meets_cons rfl trivial <| Transition.meets_cons rfl trivial trivial

/-- A video client is replaced while a packet is being sent to it, and an audio
client connects before the next `write`. -/
def reusedNumber : List Action :=
  [.accept .video, .replace .video, .enqueue .video [1, 2], .pop .video, .write .video 1,
    .accept .video, .replace .video, .accept .audioMedia, .write .video 1]

/-- The rest of the video packet goes to the audio client. -/
theorem video_bytes_to_audio_client :
    ∃ s, Transition.run step initial reusedNumber = some s ∧
      s.writes = [({ socket := .video, id := 0 }, { socket := .video, id := 0 }),
        ({ socket := .video, id := 0 }, { socket := .audioMedia, id := 2 })] ∧
      ¬ Respected s := by
  refine ⟨_, rfl, rfl, fun h => ?_⟩
  have hlast := h.1 ({ socket := .video, id := 0 }, { socket := .audioMedia, id := 2 }) (by decide)
  cases hlast

end Whutfa.Descriptors
