import Whutfa.DescriptorTable

/-! # Clients that go away

The process around the four sockets, when clients close their ends, up to the call of
`stop`.  A `write` on a stream socket whose peer has closed, or that has been shut down,
raises `SIGPIPE`, and fails only if the process lives on: the default action of the signal
ends it.  `main.cpp` and `run_aasdk_handler` set the disposition of `SIGINT` and `SIGTERM`,
and nothing suppresses `SIGPIPE` for the call.

A connection ends in two ways: its client closes it, or the handler itself shuts it down,
which `accept_loop` does with the last client and `send_loop` with one whose `write` has
failed, each under the mutex and before it closes the descriptor.  A `write` is called
without the mutex; it is a call and a return here, and it concerns the connection that the
number names when it is called.

So the branch of `send_loop` that drops a client after a failed `write` is not
reached for a client that has closed: the process stays alive throughout a run exactly
if no `write` meets a connection that has ended (`alive_iff_writesToOpen`).  Whatever does
follow a close stays with its own socket (`aftermath_contained`).
-/
namespace Whutfa.PeerClose

open Descriptors (Conn Client SocketState Sender SocketInv)

/-- The signals that matter here. -/
inductive Signal
  | int
  | term
  | pipe
  deriving DecidableEq

/-- The signals that the program installs a handler for. -/
def installed : List Signal := [.int, .term]

/-- The threads that close a client. -/
inductive Closer
  | acceptor
  | sender
  deriving DecidableEq

/-- The process, what has become of its connections, and the calls that are under way. -/
structure Process where
  ipc : Descriptors.State
  /-- The connections whose client has closed its end. -/
  closed : List Conn
  /-- The connections that the handler has shut down. -/
  shutDown : List Conn
  /-- The thread that has shut down a socket's client and has yet to close it, with the
  mutex held. -/
  closing : SocketName → Option Closer
  /-- A socket's `write` that has been called and has not returned, with the connection it
  was called on, if the number named one. -/
  inWrite : SocketName → Option (Option Conn)
  alive : Bool

/-- A process that has accepted nobody. -/
def initial : Process :=
  { ipc := Descriptors.initial
    closed := []
    shutDown := []
    closing := fun _ => none
    inWrite := fun _ => none
    alive := true }

/-- What a thread or a client does next. -/
inductive Action
  /-- A step of one of the threads: of a `write`, its return; of a critical section that
  closes a client, the part from the `close` on. -/
  | ipc (a : Descriptors.Action)
  /-- The `shutdown` in the critical section of `accept_loop`, or in the one of `send_loop`
  after a failure. -/
  | shutDown (x : SocketName) (thread : Closer)
  /-- The send thread calls `write`. -/
  | callWrite (x : SocketName)
  | peerCloses (conn : Conn)

/-- The client that a thread is about to close: the last one, or the one that has failed. -/
def victim (k : SocketState) : Closer → Option Client
  | .acceptor =>
      match k.acceptor with
      | .returned _ => k.clientFd
      | _ => none
  | .sender =>
      match k.sender with
      | .failed fd _ => k.clientFd.filter fun client => client.fd = fd
      | _ => none

/-- Whether the mutex lets a step of a thread through: a client that is to be closed has been
shut down before, by the same thread, and nobody else gets in between. -/
def admits (p : Process) : Descriptors.Action → Bool
  | .replace x =>
      p.closing x = (victim (p.ipc.sockets x) .acceptor).map fun _ => Closer.acceptor
  | .dropClient x => p.closing x = (victim (p.ipc.sockets x) .sender).map fun _ => Closer.sender
  | .enqueue x _ | .pop x => p.closing x = none
  | .copyFd => p.closing .bridge = none
  | _ => true

/-- Who is between a `shutdown` and the `close`, after a step. -/
def closingAfter (p : Process) : Descriptors.Action → SocketName → Option Closer
  | .replace x | .dropClient x => Function.update p.closing x none
  | _ => p.closing

/-- The `write` in progress was called on a connection that has ended. -/
def metEnd (p : Process) (x : SocketName) : Bool :=
  (p.inWrite x).join.any fun conn => conn ∈ p.closed ∨ conn ∈ p.shutDown

/-- The `write` in progress was called on a connection that is open at both ends. -/
def metOpen (p : Process) (x : SocketName) : Bool :=
  (p.inWrite x).join.any fun conn => conn ∉ p.closed ∧ conn ∉ p.shutDown

/-- A step of a thread.  A `write` to a connection that has ended fails: with `EPIPE` if
`SIGPIPE` is handled. -/
def threadStep (handled : List Signal) (p : Process) (a : Descriptors.Action) : Option Process :=
  match a with
  | .write x _ =>
      if metOpen p x then
        (Descriptors.step p.ipc a).map fun ipc =>
          { p with ipc, inWrite := Function.update p.inWrite x none }
      else none
  | .writeFail x =>
      if p.inWrite x = none then none
      else if metEnd p x ∧ .pipe ∉ handled then some { p with alive := false }
      else
        (Descriptors.step p.ipc a).map fun ipc =>
          { p with ipc, inWrite := Function.update p.inWrite x none }
  | _ =>
      if admits p a then
        (Descriptors.step p.ipc a).map fun ipc => { p with ipc, closing := closingAfter p a }
      else none

/-- `shutdown`, under the mutex. -/
def shutDownClient (p : Process) (x : SocketName) (thread : Closer) : Option Process :=
  match victim (p.ipc.sockets x) thread with
  | some client =>
      if (p.ipc.sockets x).unlocked ∧ p.closing x = none then
        some { p with
          closing := Function.update p.closing x (some thread)
          shutDown := (p.ipc.table.lookup client.fd).toList ++ p.shutDown }
      else none
  | none => none

/-- `write` is called while there is something left to write. -/
def callWrite (p : Process) (x : SocketName) : Option Process :=
  match (p.ipc.sockets x).sender with
  | .writing client packet written =>
      if written < packet.length ∧ p.inWrite x = none then
        some { p with
          inWrite := Function.update p.inWrite x (some (p.ipc.table.lookup client.fd)) }
      else none
  | _ => none

/-- One step; a process that a signal has ended takes none. -/
def step (handled : List Signal) (p : Process) (a : Action) : Option Process :=
  if p.alive then
    match a with
    | .ipc b => threadStep handled p b
    | .shutDown x thread => shutDownClient p x thread
    | .callWrite x => callWrite p x
    | .peerCloses conn =>
        if conn.id < p.ipc.accepted ∧ conn ∉ p.closed then
          some { p with closed := conn :: p.closed }
        else none
  else none

/-- The step is no `write` to a connection that its client has closed or that the handler has
shut down. -/
def WritesToOpen (p : Process) : Action → Prop
  | .ipc (.writeFail x) => metEnd p x = false
  | _ => True

/-! ## The signal -/

/-- What a step of a thread does: it is the end of the process, or a step of
`Descriptors`. -/
theorem threadStep_cases {handled : List Signal} {p q : Process} {a : Descriptors.Action}
    (h : threadStep handled p a = some q) :
    (∃ x, a = .writeFail x ∧ metEnd p x = true ∧ .pipe ∉ handled ∧ q = { p with alive := false }) ∨
    (Descriptors.step p.ipc a = some q.ipc ∧ q.alive = p.alive ∧
      ∀ x, a = .writeFail x → metEnd p x = true → .pipe ∈ handled) := by
  unfold threadStep at h
  split at h
  · obtain ⟨-, h⟩ := Option.ite_none_right_eq_some.mp h
    obtain ⟨ipc, hipc, rfl⟩ := Option.map_eq_some_iff.mp h
    exact Or.inr ⟨hipc, rfl, fun _ heq => by cases heq⟩
  · rename_i x
    obtain ⟨-, h⟩ := Option.ite_none_left_eq_some.mp h
    by_cases hpipe : metEnd p x = true ∧ .pipe ∉ handled
    · rw [if_pos hpipe] at h
      exact Or.inl ⟨x, rfl, hpipe.1, hpipe.2, (Option.some.inj h).symm⟩
    · rw [if_neg hpipe] at h
      obtain ⟨ipc, hipc, rfl⟩ := Option.map_eq_some_iff.mp h
      refine Or.inr ⟨hipc, rfl, fun y hy hended => ?_⟩
      cases hy
      exact Classical.byContradiction fun hnot => hpipe ⟨hended, hnot⟩
  · rename_i hfail
    obtain ⟨-, h⟩ := Option.ite_none_right_eq_some.mp h
    obtain ⟨ipc, hipc, rfl⟩ := Option.map_eq_some_iff.mp h
    exact Or.inr ⟨hipc, rfl, fun x hx => absurd hx (hfail x)⟩

/-- What a step of the process is: a call or a close that leaves the threads as they are,
the end of the process, or a step of a thread. -/
theorem step_cases {handled : List Signal} {p q : Process} {a : Action}
    (h : step handled p a = some q) :
    ((∀ b, a ≠ .ipc b) ∧ q.ipc = p.ipc ∧ q.alive = p.alive) ∨
    (∃ x, a = .ipc (.writeFail x) ∧ metEnd p x = true ∧ .pipe ∉ handled ∧
      q = { p with alive := false }) ∨
    (∃ b, a = .ipc b ∧ Descriptors.step p.ipc b = some q.ipc ∧ q.alive = p.alive ∧
      ∀ x, b = .writeFail x → metEnd p x = true → .pipe ∈ handled) := by
  obtain ⟨-, h⟩ := Option.ite_none_right_eq_some.mp h
  cases a with
  | ipc b =>
    rcases threadStep_cases h with ⟨x, rfl, hended, hpipe, rfl⟩ | ⟨hstep, halive, hpipe⟩
    · exact Or.inr (Or.inl ⟨x, rfl, hended, hpipe, rfl⟩)
    · exact Or.inr (Or.inr ⟨b, rfl, hstep, halive, hpipe⟩)
  | shutDown x thread =>
    simp only [shutDownClient] at h
    split at h
    · obtain ⟨-, h⟩ := Option.ite_none_right_eq_some.mp h
      obtain rfl := Option.some.inj h
      exact Or.inl ⟨fun _ heq => (by cases heq), rfl, rfl⟩
    · cases h
  | callWrite x =>
    simp only [callWrite] at h
    split at h
    · obtain ⟨-, h⟩ := Option.ite_none_right_eq_some.mp h
      obtain rfl := Option.some.inj h
      exact Or.inl ⟨fun _ heq => (by cases heq), rfl, rfl⟩
    · cases h
  | peerCloses conn =>
    obtain ⟨-, h⟩ := Option.ite_none_right_eq_some.mp h
    obtain rfl := Option.some.inj h
    exact Or.inl ⟨fun _ heq => (by cases heq), rfl, rfl⟩

/-- A process that handles `SIGPIPE` outlives every client. -/
theorem alive_of_handled {handled : List Signal} (hpipe : .pipe ∈ handled)
    (actions : List Action) :
    Transition.Throughout (step handled) (fun p => p.alive = true) initial actions := by
  refine Transition.throughout_of_invariant (I := fun p : Process => p.alive = true) (fun _ h => h)
    (fun p a q halive hstep => ?_) rfl actions
  rcases step_cases hstep with ⟨-, -, hsame⟩ | ⟨x, -, -, hnot, -⟩ | ⟨b, -, -, hsame, -⟩
  · exact hsame.trans halive
  · exact absurd hpipe hnot
  · exact hsame.trans halive

theorem alive_step {p q : Process} {a : Action} (halive : p.alive = true)
    (hopen : WritesToOpen p a) (hstep : step installed p a = some q) : q.alive = true := by
  rcases step_cases hstep with ⟨-, -, hsame⟩ | ⟨x, rfl, hended, -, -⟩ | ⟨b, -, -, hsame, -⟩
  · exact hsame.trans halive
  · exact absurd (hended.symm.trans hopen) nofun
  · exact hsame.trans halive

/-- A `write` to a connection that has ended ends the process. -/
theorem not_alive_step {p q : Process} {a : Action} (hopen : ¬ WritesToOpen p a)
    (hstep : step installed p a = some q) : ¬ q.alive = true := by
  have hfails : ∃ x, a = .ipc (.writeFail x) ∧ metEnd p x = true := by
    unfold WritesToOpen at hopen
    split at hopen
    · rename_i x
      exact ⟨x, rfl, Bool.eq_true_of_not_eq_false hopen⟩
    · exact absurd trivial hopen
  obtain ⟨x, rfl, hended⟩ := hfails
  rcases step_cases hstep with ⟨hother, -, -⟩ | ⟨y, -, -, -, rfl⟩ | ⟨b, heq, -, -, hpipe⟩
  · exact absurd rfl (hother _)
  · exact nofun
  · cases heq
    exact absurd (hpipe x rfl hended) (by decide)

/-! ## What follows a close -/

/-- A socket without what its send thread is writing. -/
def calm (k : SocketState) : SocketState :=
  { k with sender := if k.sender = .closing then .closing else .waiting }

/-- Each socket's client and the connection it has just accepted are its own and open,
outside the critical sections that close them. -/
def Owned (s : Descriptors.State) : Prop := ∀ x, SocketInv s.table x (calm (s.sockets x))

theorem unlocked_calm (k : SocketState) : (calm k).unlocked ↔ k.unlocked := by
  rw [Descriptors.unlocked_iff, Descriptors.unlocked_iff]
  refine and_congr Iff.rfl (not_congr ?_)
  unfold calm
  by_cases h : k.sender = .closing
  · simp [h]
  · simp [h]

theorem sender_calm (k : SocketState) :
    (calm k).sender = .closing ∨ (calm k).sender = .waiting := by
  unfold calm
  by_cases h : k.sender = .closing
  · exact Or.inl (if_pos h)
  · exact Or.inr (if_neg h)

/-- What a send thread is writing, or has failed on, does not matter. -/
theorem socketInv_sender {table : FdTable Conn} {x : SocketName} {k : SocketState}
    {sender : Sender} (h : SocketInv table x (calm k)) (hk : k.sender ≠ .closing)
    (hsender : sender ≠ .closing) : SocketInv table x (calm { k with sender }) := by
  have hcalm : calm { k with sender } = calm k := by
    unfold calm
    rw [if_neg hk, if_neg hsender]
  rw [hcalm]
  exact h

theorem owned_initial : Owned Descriptors.initial := fun x =>
  Descriptors.inv_initial.sockets x

/-- One socket and perhaps the table change. -/
theorem owned_update {s : Descriptors.State} {table : FdTable Conn} {x : SocketName}
    {k : SocketState} (hx : SocketInv table x (calm k))
    (hother : ∀ y, y ≠ x → SocketInv table y (calm (s.sockets y))) :
    ∀ y, SocketInv table y (calm ((s.update x k).sockets y)) := by
  intro y
  show SocketInv table y (calm (Function.update s.sockets x k y))
  by_cases hy : y = x
  · subst hy
    rw [Function.update_self]
    exact hx
  · rw [Function.update_of_ne hy]
    exact hother y hy

/-- A socket's client is closed: the other sockets' clients stay open. -/
theorem Owned.close_others {s : Descriptors.State} (h : Owned s) {x : SocketName}
    {client : Client} (hclient : (s.sockets x).clientFd = some client)
    (hu : (s.sockets x).unlocked) :
    ∀ y, y ≠ x → SocketInv (s.table.closeFile client.fd) y (calm (s.sockets y)) := by
  obtain ⟨hlookup, hsocket⟩ := (h x).client client hclient ((unlocked_calm _).mpr hu)
  intro y hy
  refine (h y).close_other hlookup ?_
  rw [hsocket]
  exact Ne.symm hy

theorem Owned.accept {s : Descriptors.State} (h : Owned s) {x : SocketName}
    (hidle : (s.sockets x).acceptor = .idle) :
    let conn : Conn := { socket := x, id := s.accepted }
    ∀ y, SocketInv (s.table.openFile conn) y (calm ((s.update x { s.sockets x with
      acceptor := .returned { fd := s.table.lowestFree, conn } }).sockets y)) := by
  have hquiet : ∀ y client packet written,
      (calm (s.sockets y)).sender ≠ .writing client packet written := by
    intro y client packet written heq
    rcases sender_calm (s.sockets y) with hc | hc <;> cases heq.symm.trans hc
  have hnofail : ∀ conn, (calm (s.sockets x)).sender ≠ .failed s.table.lowestFree conn := by
    intro conn heq
    rcases sender_calm (s.sockets x) with hc | hc <;> cases heq.symm.trans hc
  refine owned_update ((h x).accept hidle rfl ?_ hnofail) fun y hy => ?_
  · exact fun client packet written heq => absurd heq (hquiet x client packet written)
  · exact (h y).accept_other (Ne.symm hy)
      fun client packet written heq => absurd heq (hquiet y client packet written)

/-- Whatever numbers the kernel gives out, each socket's client stays its own. -/
theorem owned_step {s t : Descriptors.State} {a : Descriptors.Action} (h : Owned s)
    (hstep : Descriptors.step s a = some t) : Owned t := by
  have hsame : ∀ {x : SocketName} {k : SocketState}, SocketInv s.table x (calm k) →
      Owned (s.update x k) := fun hx => owned_update hx fun y _ => h y
  cases a with
  | accept x =>
    obtain ⟨hidle, rfl⟩ := Descriptors.step_accept hstep
    exact h.accept hidle
  | replace x =>
    obtain ⟨client, hacceptor, hu, hcases⟩ := Descriptors.step_replace hstep
    rcases hcases with ⟨-, rfl⟩ | ⟨old, hold, rfl⟩
    · exact hsame ((h x).install (Or.inl hacceptor))
    · exact owned_update ((h x).replace hacceptor hold ((unlocked_calm _).mpr hu))
        (h.close_others hold hu)
  | install x =>
    obtain ⟨client, hacceptor, rfl⟩ := Descriptors.step_install hstep
    exact hsame ((h x).install (Or.inr hacceptor))
  | enqueue x packet =>
    rw [Descriptors.step_enqueue hstep]
    apply hsame
    unfold Descriptors.enqueue
    split
    · exact h x
    · exact (h x).queue _
  | pop x =>
    obtain ⟨client, packet, queue, hsender, -, -, -, rfl⟩ := Descriptors.step_pop hstep
    refine hsame (socketInv_sender (k := { s.sockets x with txQueue := queue }) ?_ ?_ ?_)
    · exact (h x).queue queue
    · exact fun heq => nomatch hsender.symm.trans heq
    · exact nofun
  | write x n =>
    obtain ⟨client, packet, written, conn, hsender, -, -, -, rfl⟩ := Descriptors.step_write hstep
    refine owned_update (socketInv_sender (h x) ?_ ?_) fun y _ => h y
    · exact fun heq => nomatch hsender.symm.trans heq
    · exact nofun
  | writeFail x =>
    obtain ⟨client, packet, written, hsender, -, rfl⟩ := Descriptors.step_writeFail hstep
    refine hsame (socketInv_sender (h x) ?_ ?_)
    · exact fun heq => nomatch hsender.symm.trans heq
    · exact nofun
  | done x =>
    obtain ⟨client, packet, written, hsender, -, rfl⟩ := Descriptors.step_done hstep
    refine hsame (socketInv_sender (h x) ?_ ?_)
    · exact fun heq => nomatch hsender.symm.trans heq
    · exact nofun
  | dropClient x =>
    obtain ⟨fd, conn, hsender, hu, hcases⟩ := Descriptors.step_dropClient hstep
    rcases hcases with rfl | ⟨client, hclient, rfl, rfl⟩
    · refine hsame (socketInv_sender (h x) ?_ ?_)
      · exact fun heq => nomatch hsender.symm.trans heq
      · exact nofun
    · exact owned_update ((h x).dropClient ((unlocked_calm _).mpr hu) hclient)
        (h.close_others hclient hu)
  | dropped x =>
    rw [Descriptors.step_dropped hstep]
    exact hsame (h x).dropped
  | copyFd =>
    obtain ⟨client, -, -, rfl⟩ := Descriptors.step_copyFd hstep
    exact h
  | read =>
    obtain ⟨fd, conn, -, -, rfl⟩ := Descriptors.step_read hstep
    exact h
  | readEnd =>
    rw [Descriptors.step_readEnd hstep]
    exact h

theorem owned_process {handled : List Signal} {p q : Process} {a : Action} (h : Owned p.ipc)
    (hstep : step handled p a = some q) : Owned q.ipc := by
  rcases step_cases hstep with ⟨-, hsame, -⟩ | ⟨x, -, -, -, rfl⟩ | ⟨b, -, hipc, -, -⟩
  · exact hsame ▸ h
  · exact h
  · exact owned_step h hipc

/-- The steps in which a client's close shows: the close itself, the send thread's
failing `write`, the three that drop the client, and the end of the reader's stream. -/
def Aftermath (x : SocketName) : Action → Prop
  | .peerCloses conn => conn.socket = x
  | .callWrite y | .shutDown y .sender => y = x
  | .ipc (.writeFail y) | .ipc (.dropClient y) | .ipc (.dropped y) => y = x
  | .ipc .readEnd => x = .bridge
  | _ => False

/-- Nothing changes but one socket's send thread and client; what is open for the
other sockets' clients stays open. -/
def Contained (x : SocketName) (s t : Descriptors.State) : Prop :=
  (∀ y, y ≠ x → t.sockets y = s.sockets y ∧
    ∀ client, (s.sockets y).clientFd = some client → (s.sockets y).unlocked →
      t.table.lookup client.fd = s.table.lookup client.fd) ∧
  (t.sockets x).txQueue = (s.sockets x).txQueue ∧
  ((t.sockets x).clientFd = (s.sockets x).clientFd ∨ (t.sockets x).clientFd = none)

/-- One socket changes, in its send thread or by losing its client. -/
theorem contained_update {s : Descriptors.State} {x : SocketName} {k : SocketState}
    (hqueue : k.txQueue = (s.sockets x).txQueue)
    (hclient : k.clientFd = (s.sockets x).clientFd ∨ k.clientFd = none) :
    Contained x s (s.update x k) := by
  have hself : (s.update x k).sockets x = k := Function.update_self ..
  refine ⟨fun y hy => ⟨Function.update_of_ne hy _ _, fun _ _ _ => rfl⟩, ?_, ?_⟩
  · rw [hself]
    exact hqueue
  · rw [hself]
    exact hclient

/-- **What follows a client's close stays with its socket.** -/
theorem aftermath_contained {handled : List Signal} {p q : Process} {a : Action} {x : SocketName}
    (h : Owned p.ipc) (ha : Aftermath x a) (hstep : step handled p a = some q) :
    Contained x p.ipc q.ipc := by
  have hnothing : Contained x p.ipc p.ipc :=
    ⟨fun y _ => ⟨rfl, fun _ _ _ => rfl⟩, rfl, Or.inl rfl⟩
  rcases step_cases hstep with ⟨-, hsame, -⟩ | ⟨y, -, -, -, rfl⟩ | ⟨b, rfl, hipc, -, -⟩
  · rw [hsame]
    exact hnothing
  · exact hnothing
  · generalize q.ipc = ipc at hipc ⊢
    cases b with
    | writeFail y =>
      obtain rfl : y = x := ha
      obtain ⟨client, packet, written, -, -, rfl⟩ := Descriptors.step_writeFail hipc
      exact contained_update rfl (Or.inl rfl)
    | dropClient y =>
      obtain rfl : y = x := ha
      obtain ⟨fd, conn, -, hu, hcases⟩ := Descriptors.step_dropClient hipc
      rcases hcases with rfl | ⟨client, hclient, rfl, rfl⟩
      · exact contained_update rfl (Or.inl rfl)
      · obtain ⟨hothers, hqueue, hfd⟩ := contained_update (s := p.ipc) (x := y)
          (k := { p.ipc.sockets y with sender := .closing }) rfl (Or.inl rfl)
        refine ⟨fun z hz => ⟨(hothers z hz).1, fun other hother hunlocked => ?_⟩, hqueue, hfd⟩
        -- the closed connection is of this socket, the other's is of another
        obtain ⟨hlookup, hsocket⟩ :=
          (h y).client client hclient ((unlocked_calm _).mpr hu)
        obtain ⟨hlookup', hsocket'⟩ :=
          (h z).client other hother ((unlocked_calm _).mpr hunlocked)
        refine FdTable.lookup_closeFile_ne _ fun heq => hz ?_
        rw [heq, hlookup] at hlookup'
        rw [← hsocket, ← hsocket', Option.some.inj hlookup']
    | dropped y =>
      obtain rfl : y = x := ha
      rw [Descriptors.step_dropped hipc]
      exact contained_update rfl (Or.inr rfl)
    | readEnd =>
      rw [Descriptors.step_readEnd hipc]
      exact hnothing
    | accept | replace | install | enqueue | pop | write | done | copyFd | read =>
      exact ha.elim

/-- **When the handler outlives its clients.**  In every run up to `stop`, with clients that
connect and close at any moment: the process is alive in every state if and only if no step
of the run is a `write` to a connection that its client has closed or that the handler has
shut down; in every state that is reached what follows a close changes nothing of the other
sockets; and with `SIGPIPE` handled, however else, the process would live on in every run. -/
theorem alive_iff_writesToOpen (actions : List Action) :
    (Transition.Throughout (step installed) (fun p => p.alive = true) initial actions ↔
      Transition.Meets (step installed) WritesToOpen initial actions) ∧
    (∀ p, Transition.run (step installed) initial actions = some p →
      ∀ x a q, Aftermath x a → step installed p a = some q → Contained x p.ipc q.ipc) ∧
    ∀ handled, .pipe ∈ handled →
      Transition.Throughout (step handled) (fun p => p.alive = true) initial actions := by
  refine ⟨?_, fun p hrun x a q ha hstep => ?_, fun handled hpipe => ?_⟩
  · exact Transition.throughout_iff_meets (fun _ h => h)
      (fun _ _ _ h hopen => alive_step h hopen) (fun _ _ _ _ => not_alive_step) rfl
  · exact aftermath_contained (Transition.run_invariant (I := fun p => Owned p.ipc)
      (fun _ _ _ h => owned_process h) owned_initial hrun) ha hstep
  · exact alive_of_handled hpipe actions

/-- The server closes the video socket in the middle of a packet: the next `write` is the
handler's last step. -/
theorem killed_by_closed_client :
    ∃ p, Transition.run (step installed) initial
        [.ipc (.accept .video), .ipc (.replace .video), .ipc (.enqueue .video [1, 2]),
         .ipc (.pop .video), .callWrite .video, .ipc (.write .video 1),
         .peerCloses { socket := .video, id := 0 }, .callWrite .video,
         .ipc (.writeFail .video)] = some p ∧
      p.alive = false :=
  ⟨_, rfl, rfl⟩

/-- It is the last step too when no client has closed its end, but a second one replaces the
first in the middle of a packet. -/
example : ((Transition.run (step installed) initial
    [.ipc (.accept .video), .ipc (.replace .video), .ipc (.enqueue .video [1, 2]),
     .ipc (.pop .video), .ipc (.accept .video), .shutDown .video .acceptor, .callWrite .video,
     .ipc (.writeFail .video)]).map Process.alive) = some false := by
  rfl

end Whutfa.PeerClose
