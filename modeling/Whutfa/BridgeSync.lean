import Mathlib.Data.List.Nodup
import Whutfa.BridgeClient
import Whutfa.IpcSocket

/-! # What the server knows of the handler

The bridge socket and the server's `BridgeClient` as one step relation: calls of
`emit_control`, the steps of the handler's threads, and the client's `connect`,
`data` and `close` events, in any order.  A call of `emit_control` is numbered, so
that two equal events are two emissions.  Connections are numbered as in `IpcSocket`: a
descriptor stands for its connection, and that its number may be used again is left to
`DescriptorTable`.

`enqueue` drops a packet silently while `client_fd` is unset, which it may still be when
the client has connected; the queue drops its oldest packet when it is full, and nothing
is sent again after a reconnect; so the server's status follows the events that were not
lost, and not all that were emitted (`status_misses_earlier_event`).  With `Lost` for the
three ways an event is lost by this design, the server agrees with the last events that
were not, whenever nothing is on its way (`synced_of_quiet`).  The theorem is about runs in
which `close` finds no unfinished line: one that is left in `lineBuf` would become part of
the next connection's first line.
-/
namespace Whutfa.BridgeSync

open JsString IpcSocket

/-- A call of `emit_control`. -/
structure Emission where
  number : Nat
  event : ControlEvent
  deriving DecidableEq

/-- The packet that `emit_control` makes, without the line feed. -/
def body (e : Emission) : List UInt8 := e.event.line.map byte

/-- The packet that `emit_control` hands to `enqueue`. -/
def emitControl (e : Emission) : List UInt8 := body e ++ [0x0A]

/-- The two processes. -/
structure State where
  socket : IpcSocket.State Emission UInt8
  client : BridgeClient
  /-- The connection that the client's `socket` refers to. -/
  conn : Option Nat
  /-- How many bytes of each connection the client has been given. -/
  read : Nat → Nat

/-- Both processes before anything is emitted or connected. -/
def initial : State :=
  { socket := IpcSocket.initial, client := BridgeClient.initial, conn := none, read := fun _ => 0 }

/-- What either process, or the socket between them, does next. -/
inductive Action
  /-- `emit_control`. -/
  | emit (e : ControlEvent)
  /-- A step of the handler's threads. -/
  | handler (a : IpcSocket.Action Emission)
  /-- The client connects. -/
  | connect
  /-- A `data` event with the next `n` bytes. -/
  | data (n : Nat)
  /-- The client's socket closes. -/
  | close

/-- The decoded text of ASCII bytes. -/
def decode (chunk : List UInt8) : JsString := chunk.map fun b => UInt16.ofNat b.toNat

/-- A step of the socket. -/
def socketStep (s : IpcSocket.State Emission UInt8) (a : IpcSocket.Action Emission) :
    Option (IpcSocket.State Emission UInt8) :=
  IpcSocket.step emitControl (SocketName.maxQueue .bridge) s a

section

variable (numberText : Decimal → JsString) (textNumber : JsString → Option ℚ)

/-- One step of the two processes. -/
def step (s : State) : Action → Option State
  | .emit e =>
      (socketStep s.socket (.enqueue { number := s.socket.enqueued.length, event := e })).map
        fun socket => { s with socket }
  | .handler a =>
      match a with
      | .connect => none
      | .enqueue _ => none
      | a => (socketStep s.socket a).map fun socket => { s with socket }
  | .connect =>
      if s.conn = none then
        (socketStep s.socket .connect).map fun socket =>
          { s with socket, conn := some s.socket.connected }
      else none
  | .data n =>
      match s.conn with
      | none => none
      | some c =>
          if s.read c + n ≤ (s.socket.stream c).length then
            some { s with
              client := s.client.onData numberText textNumber
                (decode (((s.socket.stream c).drop (s.read c)).take n))
              read := Function.update s.read c (s.read c + n) }
          else none
  | .close => if s.conn = none then none else some { s with conn := none }

end

/-- The client is connected, the queue is empty, and no bytes are on their way to it:
it has been given all that was written, and no packet for it is half written. -/
def Quiet (s : State) : Prop :=
  ∃ c, s.conn = some c ∧ s.socket.txQueue = [] ∧ s.read c = (s.socket.stream c).length ∧
    ∀ packet written, s.socket.sender = .writing c packet written →
      written = (emitControl packet).length

/-- The emissions sent on a connection, in order. -/
def sentOn (popped : List (Popped Emission)) (c : Nat) : List (Popped Emission) :=
  popped.filter (·.conn = c)

/-- The emissions sent on a connection whose lines have arrived: as many as line
feeds have been read. -/
def arrived (s : State) (c : Nat) : List (Popped Emission) :=
  (sentOn s.socket.popped c).take (((s.socket.stream c).take (s.read c)).count 0x0A)

/-- One side has given the connection up, or is about to. -/
def Ended (s : State) (c : Nat) : Prop :=
  s.conn ≠ some c ∨ s.socket.clientFd ≠ some c ∨ s.socket.sender = .failed c

/-- An emission that never reaches the server: `client_fd` was unset when it was enqueued,
it was dropped from a full queue, or its connection ended before its line arrived. -/
def Lost (s : State) (e : Emission) : Prop :=
  e ∉ s.socket.accepted ∨
    (e ∉ s.socket.popped.map (·.packet) ∧ e ∉ s.socket.txQueue) ∨
    ∃ x ∈ s.socket.popped, x.packet = e ∧ Ended s x.conn ∧ x ∉ arrived s x.conn

/-- The server agrees with the emissions that were not lost: with the last session
event among them, and with the last `video_config`. -/
def Synced (s : State) : Prop :=
  ∃ kept : List Emission, kept.Sublist s.socket.enqueued ∧
    (∀ e ∈ s.socket.enqueued, e ∈ kept ↔ ¬ Lost s e) ∧
    (s.client.status.sessionActive = true ↔
      lastSession (kept.map (·.event)) = some .active) ∧
    s.client.videoConfig =
      match lastVideoConfig (kept.map (·.event)) with
      | none => defaultVideoConfig
      | some (width, height, fps) => defaultVideoConfig.after (.videoConfig width height fps)

/-- The condition on the run: a `close` finds no unfinished line. -/
def ClosesBetweenLines (s : State) : Action → Prop
  | .close => s.client.lineBuf = []
  | _ => True

/-! ## Bytes and lines

The handler writes ASCII, so that decoding the bytes of a line gives its units, and the only
line feed of a packet is its last byte. -/

theorem lf_not_mem_body (e : Emission) : 0x0A ∉ body e := lf_not_mem_bytes e.event.isPlain_line

theorem decode_byte {c : UInt16} (h : isPlain c) : UInt16.ofNat (byte c).toNat = c := by
  simp only [isPlain, Bool.and_eq_true] at h
  have hlt := toNat_lt_of_ascii h.1
  have hbyte : (byte c).toNat = c.toNat := by
    simp only [byte, UInt8.toNat_ofNat']
    omega
  rw [hbyte, UInt16.ofNat_toNat]

/-- A line is decoded to its text. -/
theorem decode_body (e : Emission) : decode (body e) = e.event.line := by
  unfold decode body
  rw [List.map_map]
  have hall : ∀ c ∈ e.event.line, (fun b : UInt8 => UInt16.ofNat b.toNat) (byte c) = c :=
    fun c hc => decode_byte (e.event.isPlain_line c hc)
  exact (List.map_congr_left hall).trans (List.map_id _)

theorem decode_flatMap (es : List Emission) :
    decode (es.flatMap emitControl) =
      (es.map (·.event)).flatMap fun e => e.line ++ [unit '\n'] := by
  induction es with
  | nil => rfl
  | cons e es ih =>
    rw [List.flatMap_cons, List.map_cons, List.flatMap_cons, ← ih]
    unfold decode
    rw [List.map_append]
    congr 1
    unfold emitControl
    rw [List.map_append]
    exact congrArg (· ++ [unit '\n']) (decode_body e)

theorem lf_not_mem_decode {part : List UInt8} (h : 0x0A ∉ part) : unit '\n' ∉ decode part := by
  intro hmem
  obtain ⟨b, hb, heq⟩ := List.mem_map.mp hmem
  have hlt := b.toNat_lt
  have hval := congrArg UInt16.toNat heq
  rw [UInt16.toNat_ofNat'] at hval
  have h10 : (unit '\n').toNat = 10 := rfl
  have hb10 : b = 0x0A := by
    apply UInt8.toNat_inj.mp
    show b.toNat = 10
    omega
  exact h (hb10 ▸ hb)

/-! ## What the client has been given

Whatever part of a connection's stream has been read, the lines in it are counted by their line
feeds, and what is behind the last one is the beginning of the next line. -/

theorem packetsFor_flatMap (popped : List (Popped Emission)) (c : Nat) :
    (packetsFor popped c).flatMap emitControl =
      (sentOn popped c).flatMap fun x => body x.packet ++ [0x0A] := by
  unfold packetsFor sentOn
  rw [List.flatMap_map]
  rfl

/-- Whatever part of a connection's stream has been read is the lines of the
emissions that arrived, and the beginning of one more. -/
theorem read_eq_lines {s : State} {c : Nat}
    (hframed : Framed emitControl (packetsFor s.socket.popped c) (s.socket.stream c)) :
    ∃ part, 0x0A ∉ part ∧ (s.socket.stream c).take (s.read c) =
      ((arrived s c).flatMap fun x => emitControl x.packet) ++ part := by
  have hpre := (List.take_prefix (s.read c) _).trans hframed.isPrefix
  rw [packetsFor_flatMap] at hpre
  exact Lines.prefix_lines (fun x : Popped Emission => lf_not_mem_body x.packet) hpre

/-- No more lines are read than emissions were sent. -/
theorem count_le_sentOn {s : State} {c : Nat} {n : Nat}
    (hframed : Framed emitControl (packetsFor s.socket.popped c) (s.socket.stream c)) :
    ((s.socket.stream c).take n).count 0x0A ≤ (sentOn s.socket.popped c).length := by
  have hpre := (List.take_prefix n _).trans hframed.isPrefix
  rw [packetsFor_flatMap] at hpre
  rw [← Lines.count_lines (fun x : Popped Emission => lf_not_mem_body x.packet)]
  exact hpre.sublist.count_le _

/-- What arrived is not changed by what is sent and written later. -/
theorem arrived_congr {s t : State} {c : Nat}
    (hframed : Framed emitControl (packetsFor s.socket.popped c) (s.socket.stream c))
    (hread : t.read c = s.read c) (hle : s.read c ≤ (s.socket.stream c).length)
    (hstream : s.socket.stream c <+: t.socket.stream c)
    (hpopped : s.socket.popped <+: t.socket.popped) :
    arrived t c = arrived s c ∧
      (t.socket.stream c).take (t.read c) = (s.socket.stream c).take (s.read c) := by
  obtain ⟨more, hmore⟩ := hstream
  obtain ⟨new, hnew⟩ := hpopped
  have htake : (t.socket.stream c).take (t.read c) = (s.socket.stream c).take (s.read c) := by
    rw [hread, ← hmore, List.take_append_of_le_length hle]
  refine ⟨?_, htake⟩
  unfold arrived
  have hsent : sentOn (s.socket.popped ++ new) c = sentOn s.socket.popped c ++ sentOn new c :=
    List.filter_append ..
  rw [htake, ← hnew, hsent, List.take_append_of_le_length (count_le_sentOn hframed)]

/-- The joint invariant.  `received` is what the client has applied: the emissions
whose lines have arrived, in the order they were popped. -/
structure Inv (s : State) : Prop where
  socket : IpcSocket.Inv emitControl (SocketName.maxQueue .bridge) s.socket
  returned_le : s.socket.returned ≤ s.socket.connected
  numbers : s.socket.enqueued.map (·.number) = List.range s.socket.enqueued.length
  conn : ∀ c, s.conn = some c → c + 1 = s.socket.connected
  read_le : ∀ c, s.read c ≤ (s.socket.stream c).length
  unread : ∀ c, s.socket.connected ≤ c → s.read c = 0
  buffer : ∀ c, s.conn = some c → ∃ part, 0x0A ∉ part ∧ s.client.lineBuf = decode part ∧
    (s.socket.stream c).take (s.read c) =
      ((arrived s c).flatMap fun x => emitControl x.packet) ++ part
  closed : s.conn = none → s.client.lineBuf = []
  received : ∃ received : List (Popped Emission), received.Sublist s.socket.popped ∧
    (∀ x ∈ s.socket.popped, x ∈ received ↔ x ∈ arrived s x.conn) ∧
    { s.client with lineBuf := [] } =
      (received.map (·.packet.event)).foldl BridgeClient.after BridgeClient.initial

theorem inv_initial : Inv initial where
  socket := IpcSocket.inv_initial _ _
  returned_le := Nat.le_refl 0
  numbers := rfl
  conn c h := by cases h
  read_le c := Nat.le_refl 0
  unread c _ := rfl
  buffer c h := by cases h
  closed _ := rfl
  received := ⟨[], List.Sublist.refl _, fun x hx => (by cases hx), rfl⟩

theorem Inv.framed {s : State} (h : Inv s) (c : Nat) :
    Framed emitControl (packetsFor s.socket.popped c) (s.socket.stream c) :=
  h.socket.2.framed c

/-- Two entries of `popped` with one place are the same. -/
theorem Inv.popped_nodup {s : State} (h : Inv s) : s.socket.popped.Nodup :=
  h.socket.1.order.imp fun hlt heq => by
    rw [heq] at hlt
    exact Nat.lt_irrefl _ hlt

/-- The socket takes a step that the client does not see. -/
theorem Inv.socket_step {s : State} (h : Inv s) {socket : IpcSocket.State Emission UInt8}
    (hinv : IpcSocket.Inv emitControl (SocketName.maxQueue .bridge) socket)
    (hreturned : socket.returned ≤ socket.connected)
    (hnumbers : socket.enqueued.map (·.number) = List.range socket.enqueued.length)
    (hconnected : socket.connected = s.socket.connected)
    (hstream : ∀ c, s.socket.stream c <+: socket.stream c)
    (hpopped : s.socket.popped <+: socket.popped) : Inv { s with socket } := by
  have harrived : ∀ c, arrived { s with socket } c = arrived s c ∧
      (socket.stream c).take (s.read c) = (s.socket.stream c).take (s.read c) := fun c =>
    arrived_congr (h.framed c) rfl (h.read_le c) (hstream c) hpopped
  constructor
  case socket => exact hinv
  case returned_le => exact hreturned
  case numbers => exact hnumbers
  case conn =>
    intro c hc
    rw [hconnected]
    exact h.conn c hc
  case read_le => exact fun c => (h.read_le c).trans (hstream c).length_le
  case unread =>
    intro c hc
    rw [hconnected] at hc
    exact h.unread c hc
  case buffer =>
    intro c hc
    obtain ⟨part, hpart, hbuf, htake⟩ := h.buffer c hc
    refine ⟨part, hpart, hbuf, ?_⟩
    rw [(harrived c).1, (harrived c).2]
    exact htake
  case closed => exact h.closed
  case received =>
    obtain ⟨received, hsub, hmem, hfold⟩ := h.received
    refine ⟨received, hsub.trans hpopped.sublist, fun x hx => ?_, hfold⟩
    rw [(harrived x.conn).1]
    constructor
    · exact fun hr => (hmem x (hsub.subset hr)).mp hr
    · intro ha
      have hold : x ∈ s.socket.popped := List.mem_of_mem_filter (List.mem_of_mem_take ha)
      exact (hmem x hold).mpr ha

/-! ## A chunk arrives

The chunk may end anywhere in a line.  It completes some lines and leaves a part of one more in
`lineBuf`, and the events of the completed lines are applied one after the other. -/

/-- What is popped in the order of the connections ends with the last connection's
share. -/
theorem eq_filter_append {popped : List (Popped Emission)} {c : Nat}
    (horder : popped.Pairwise fun a b => a.conn ≤ b.conn) (hc : ∀ x ∈ popped, x.conn ≤ c) :
    popped = popped.filter (·.conn < c) ++ sentOn popped c := by
  unfold sentOn
  induction popped with
  | nil => rfl
  | cons x popped ih =>
    obtain ⟨hx, hrest⟩ := List.pairwise_cons.mp horder
    have hxc := hc x (List.mem_cons_self ..)
    have hall := ih hrest fun y hy => hc y (List.mem_cons_of_mem x hy)
    by_cases hlt : x.conn < c
    · have hne : x.conn ≠ c := by omega
      rw [List.filter_cons_of_pos (by simpa using hlt),
        List.filter_cons_of_neg (by simpa using hne), List.cons_append, ← hall]
    · -- the rest is the last connection's too
      have heq : ∀ y ∈ x :: popped, y.conn = c := by
        intro y hy
        have hyc := hc y hy
        rcases List.mem_cons.mp hy with rfl | hy
        · omega
        · have := hx y hy
          omega
      rw [List.filter_eq_nil_iff.mpr (fun y hy => by simp [heq y hy]),
        List.filter_eq_self.mpr (fun y hy => by simp [heq y hy]), List.nil_append]

theorem mem_sentOn {popped : List (Popped Emission)} {c : Nat} {x : Popped Emission} :
    x ∈ sentOn popped c ↔ x ∈ popped ∧ x.conn = c := by
  unfold sentOn
  rw [List.mem_filter, decide_eq_true_eq]

/-- What the client has applied, followed by what arrives next on its connection, is
still in the order in which it was popped. -/
theorem received_append_sublist {popped received done new rest : List (Popped Emission)} {c : Nat}
    (hnodup : popped.Nodup) (horder : popped.Pairwise fun a b => a.conn ≤ b.conn)
    (hc : ∀ x ∈ popped, x.conn ≤ c) (hsent : sentOn popped c = done ++ (new ++ rest))
    (hsub : received.Sublist popped) (hdone : ∀ x ∈ received, x.conn = c → x ∈ done) :
    (received ++ new).Sublist popped := by
  have hsplit := eq_filter_append horder hc
  rw [hsent, ← List.append_assoc] at hsplit
  rw [hsplit] at hsub
  obtain ⟨front, back, rfl, hfront, hback⟩ := List.sublist_append_iff.mp hsub
  have hnil : back = [] := by
    rw [List.eq_nil_iff_forall_not_mem]
    intro x hx
    have hmem : x ∈ sentOn popped c := by
      rw [hsent]
      exact List.mem_append_right _ (hback.subset hx)
    have hold := hdone x (List.mem_append_right _ hx) (mem_sentOn.mp hmem).2
    have hdisjoint : (done ++ (new ++ rest)).Nodup := by
      rw [← hsent]
      exact hnodup.filter _
    exact (List.nodup_append.mp hdisjoint).2.2 x hold x (hback.subset hx) rfl
  rw [hnil, List.append_nil, hsplit]
  exact hfront.append (List.sublist_append_left new rest)

/-- Reading `n` bytes more: the lines they complete, and what is left over. -/
theorem read_more {s t : State} {c n : Nat} {part : List UInt8}
    (hframed : Framed emitControl (packetsFor s.socket.popped c) (s.socket.stream c))
    (hsocket : t.socket = s.socket) (hread : t.read c = s.read c + n)
    (htake : (s.socket.stream c).take (s.read c) =
      ((arrived s c).flatMap fun x => emitControl x.packet) ++ part) :
    ∃ new rest part', sentOn s.socket.popped c = arrived s c ++ (new ++ rest) ∧
      arrived t c = arrived s c ++ new ∧ 0x0A ∉ part' ∧
      (t.socket.stream c).take (t.read c) =
        ((arrived t c).flatMap fun x => emitControl x.packet) ++ part' ∧
      part ++ ((s.socket.stream c).drop (s.read c)).take n =
        (new.flatMap fun x => emitControl x.packet) ++ part' := by
  have hframed' : Framed emitControl (packetsFor t.socket.popped c) (t.socket.stream c) := by
    rw [hsocket]
    exact hframed
  obtain ⟨part', hpart', htake'⟩ := read_eq_lines hframed'
  have hmore : (t.socket.stream c).take (t.read c) =
      (s.socket.stream c).take (s.read c) ++ ((s.socket.stream c).drop (s.read c)).take n := by
    rw [hsocket, hread, List.take_add]
  -- at least as many lines as before
  obtain ⟨more, hcount⟩ : ∃ more, ((t.socket.stream c).take (t.read c)).count 0x0A =
      ((s.socket.stream c).take (s.read c)).count 0x0A + more := by
    rw [hmore, List.count_append]
    exact ⟨_, rfl⟩
  let old := ((s.socket.stream c).take (s.read c)).count 0x0A
  have harrived : arrived t c =
      arrived s c ++ ((sentOn s.socket.popped c).drop old).take more := by
    unfold arrived
    rw [hcount, hsocket, List.take_add]
  refine ⟨((sentOn s.socket.popped c).drop old).take more,
    ((sentOn s.socket.popped c).drop old).drop more, part', ?_, harrived, hpart', htake', ?_⟩
  · rw [List.take_append_drop]
    exact (List.take_append_drop old _).symm
  · rw [hmore, htake, harrived, List.flatMap_append, List.append_assoc, List.append_assoc] at htake'
    exact List.append_cancel_left htake'

section

variable (numberText : Decimal → JsString) (textNumber : JsString → Option ℚ)

/-- A chunk that completes the lines of some emissions applies their events. -/
theorem onData_emissions {client : BridgeClient} {chunk part part' : List UInt8}
    {new : List (Popped Emission)} (hbuf : client.lineBuf = decode part)
    (hlines : part ++ chunk = (new.flatMap fun x => emitControl x.packet) ++ part')
    (hpart' : 0x0A ∉ part') :
    client.onData numberText textNumber (decode chunk) =
      { (new.map (·.packet.event)).foldl BridgeClient.after client with
        lineBuf := decode part' } := by
  have hevents := decode_flatMap (new.map (·.packet))
  rw [List.flatMap_map, List.map_map] at hevents
  apply BridgeClient.onData_lines
  · rw [hbuf]
    unfold decode
    rw [← List.map_append, hlines, List.map_append]
    exact congrArg (· ++ _) hevents
  · exact lf_not_mem_decode hpart'

/-- What the client has applied, with what arrives next on its connection. -/
theorem Inv.received_append {s : State} (h : Inv s) {c : Nat} (hconn : s.conn = some c)
    {new rest : List (Popped Emission)}
    (hsent : sentOn s.socket.popped c = arrived s c ++ (new ++ rest)) :
    ∃ received : List (Popped Emission), received.Sublist s.socket.popped ∧
      (∀ x ∈ s.socket.popped, x ∈ received ↔
        x ∈ arrived s x.conn ∨ (x.conn = c ∧ x ∈ new)) ∧
      { (new.map (·.packet.event)).foldl BridgeClient.after s.client with lineBuf := [] } =
        (received.map (·.packet.event)).foldl BridgeClient.after BridgeClient.initial := by
  obtain ⟨received, hsub, hmem, hfold⟩ := h.received
  -- what was popped before was popped for this connection or an earlier one
  have hle : ∀ x ∈ s.socket.popped, x.conn ≤ c := by
    intro x hx
    have hlt := (h.socket.2.known x hx).1
    have hreturned := h.returned_le
    have hlast := h.conn c hconn
    omega
  refine ⟨received ++ new, ?_, fun x hx => ?_, ?_⟩
  · apply received_append_sublist h.popped_nodup h.socket.2.conns hle hsent hsub
    intro x hx hxc
    have hold := (hmem x (hsub.subset hx)).mp hx
    rw [hxc] at hold
    exact hold
  · rw [List.mem_append, hmem x hx]
    constructor
    · rintro (hold | hnew)
      · exact Or.inl hold
      · have hsentx : x ∈ sentOn s.socket.popped c := by
          rw [hsent]
          exact List.mem_append_right _ (List.mem_append_left _ hnew)
        exact Or.inr ⟨(mem_sentOn.mp hsentx).2, hnew⟩
    · rintro (hold | ⟨-, hnew⟩)
      · exact Or.inl hold
      · exact Or.inr hnew
  · rw [List.map_append, List.foldl_append, ← hfold, BridgeClient.foldl_after,
      BridgeClient.foldl_after]

/-- A `data` event. -/
theorem Inv.data {s : State} (h : Inv s) {c n : Nat} (hconn : s.conn = some c)
    (hn : s.read c + n ≤ (s.socket.stream c).length) :
    Inv { s with
      client := s.client.onData numberText textNumber
        (decode (((s.socket.stream c).drop (s.read c)).take n))
      read := Function.update s.read c (s.read c + n) } := by
  obtain ⟨part, hpart, hbuf, htake⟩ := h.buffer c hconn
  generalize ht : ({ s with
    client := s.client.onData numberText textNumber
      (decode (((s.socket.stream c).drop (s.read c)).take n))
    read := Function.update s.read c (s.read c + n) } : State) = t
  have hsocket : t.socket = s.socket := by rw [← ht]
  have hsame : t.conn = s.conn := by rw [← ht]
  have hread : t.read c = s.read c + n := by
    rw [← ht]
    exact Function.update_self ..
  have hother : ∀ d, d ≠ c → t.read d = s.read d := by
    intro d hd
    rw [← ht]
    exact Function.update_of_ne hd ..
  obtain ⟨new, rest, part', hsent, harrived, hpart', htake', hlines⟩ :=
    read_more (h.framed c) hsocket hread htake
  have harrived_other : ∀ d, d ≠ c → arrived t d = arrived s d := by
    intro d hd
    unfold arrived
    rw [hsocket, hother d hd]
  have hclient : t.client = { (new.map (·.packet.event)).foldl BridgeClient.after s.client with
      lineBuf := decode part' } := by
    rw [← ht]
    exact onData_emissions numberText textNumber hbuf hlines hpart'
  obtain ⟨received, hsub, hmem, hfold⟩ := h.received_append hconn hsent
  constructor
  case socket =>
    rw [hsocket]
    exact h.socket
  case returned_le =>
    rw [hsocket]
    exact h.returned_le
  case numbers =>
    rw [hsocket]
    exact h.numbers
  case conn =>
    intro d hd
    rw [hsame] at hd
    rw [hsocket]
    exact h.conn d hd
  case read_le =>
    intro d
    rw [hsocket]
    by_cases hd : d = c
    · rw [hd, hread]
      exact hn
    · rw [hother d hd]
      exact h.read_le d
  case unread =>
    intro d hd
    rw [hsocket] at hd
    have hlast := h.conn c hconn
    rw [hother d (by omega)]
    exact h.unread d hd
  case buffer =>
    intro d hd
    rw [hsame, hconn] at hd
    obtain rfl := Option.some.inj hd
    exact ⟨part', hpart', by rw [hclient], htake'⟩
  case closed =>
    intro hnone
    rw [hsame, hconn] at hnone
    cases hnone
  case received =>
    rw [hsocket]
    refine ⟨received, hsub, fun x hx => ?_, by rw [hclient]; exact hfold⟩
    rw [hmem x hx]
    by_cases hxc : x.conn = c
    · rw [hxc, harrived, List.mem_append]
      exact or_congr_right (and_iff_right rfl)
    · rw [harrived_other _ hxc]
      exact or_iff_left fun hnew => hxc hnew.1

/-- A call of `emit_control`. -/
theorem Inv.emit {s t : State} {e : ControlEvent} (h : Inv s)
    (hstep : step numberText textNumber s (.emit e) = some t) : Inv t := by
  simp only [step] at hstep
  obtain ⟨socket, hsocket, rfl⟩ := Option.map_eq_some_iff.mp hstep
  have hinv := inv_step (SocketName.maxQueue_pos .bridge) h.socket hsocket
  obtain rfl := Option.some.inj hsocket
  obtain ⟨henqueued, hconnected, hreturned, hstream, hpopped⟩ :=
    enqueue_keeps (SocketName.maxQueue .bridge) s.socket ⟨s.socket.enqueued.length, e⟩
  refine h.socket_step hinv ?_ ?_ hconnected ?_ ?_
  · rw [hreturned, hconnected]
    exact h.returned_le
  · rw [henqueued, List.map_append, h.numbers, List.length_append, List.length_singleton,
      List.range_succ]
    rfl
  · intro c
    exact hstream ▸ List.prefix_refl _
  · exact hpopped ▸ List.prefix_refl _

/-- A step of the handler's threads. -/
theorem Inv.handler {s t : State} {a : IpcSocket.Action Emission} (h : Inv s)
    (hstep : step numberText textNumber s (.handler a) = some t) : Inv t := by
  have hadds : ∀ socket, socketStep s.socket a = some socket → a ≠ .connect →
      (∀ packet, a ≠ .enqueue packet) → Inv { s with socket } := by
    intro socket hsocket hconnect henqueue
    obtain ⟨henqueued, hconnected, hreturned, hstream, hpopped⟩ :=
      step_adds hconnect henqueue hsocket
    refine h.socket_step (inv_step (SocketName.maxQueue_pos .bridge) h.socket hsocket)
      (hreturned h.returned_le) ?_ hconnected hstream hpopped
    rw [henqueued]
    exact h.numbers
  simp only [step] at hstep
  split at hstep
  · cases hstep
  · cases hstep
  · rename_i hconnect henqueue
    obtain ⟨socket, hsocket, rfl⟩ := Option.map_eq_some_iff.mp hstep
    exact hadds socket hsocket hconnect henqueue

/-- The client connects, to a connection on which nothing has been sent. -/
theorem Inv.connect {s t : State} (h : Inv s)
    (hstep : step numberText textNumber s .connect = some t) : Inv t := by
  obtain ⟨hnone, hstep⟩ := Option.ite_none_right_eq_some.mp hstep
  obtain ⟨socket, hsocket, rfl⟩ := Option.map_eq_some_iff.mp hstep
  have hinv := inv_step (SocketName.maxQueue_pos .bridge) h.socket hsocket
  obtain rfl := Option.some.inj hsocket
  constructor
  case socket => exact hinv
  case returned_le => exact Nat.le_succ_of_le h.returned_le
  case numbers => exact h.numbers
  case conn =>
    intro c hc
    rw [← Option.some.inj hc]
  case read_le => exact h.read_le
  case unread =>
    intro c hc
    exact h.unread c (Nat.le_of_succ_le hc)
  case buffer =>
    intro c hc
    obtain rfl := Option.some.inj hc
    refine ⟨[], List.not_mem_nil, h.closed hnone, ?_⟩
    show (s.socket.stream _).take (s.read _) = (List.flatMap _ (List.take
      (((s.socket.stream _).take (s.read _)).count 0x0A) _)) ++ []
    rw [h.unread _ (Nat.le_refl _)]
    rfl
  case closed =>
    intro hc
    cases hc
  case received => exact h.received

/-- **Every step keeps the joint invariant**, unless it closes in the middle of a
line. -/
theorem Inv.step {s t : State} {a : Action} (h : Inv s) (hclose : ClosesBetweenLines s a)
    (hstep : step numberText textNumber s a = some t) : Inv t := by
  cases a with
  | emit e => exact h.emit numberText textNumber hstep
  | handler a => exact h.handler numberText textNumber hstep
  | connect => exact h.connect numberText textNumber hstep
  | data n =>
    simp only [BridgeSync.step] at hstep
    split at hstep
    · cases hstep
    · rename_i c hconn
      obtain ⟨hn, hstep⟩ := Option.ite_none_right_eq_some.mp hstep
      obtain rfl := Option.some.inj hstep
      exact h.data numberText textNumber hconn hn
  | close =>
    simp only [BridgeSync.step] at hstep
    split at hstep
    · cases hstep
    · obtain rfl := Option.some.inj hstep
      refine ⟨h.socket, h.returned_le, h.numbers, ?_, h.read_le, h.unread, ?_, fun _ => hclose,
        h.received⟩
      · intro c hc
        cases hc
      · intro c hc
        cases hc

end

/-! ## When nothing is on its way

In a quiet state everything that was popped for the client's connection has arrived.  What has
not arrived has then been lost in one of the three ways, and no other. -/

theorem Inv.enqueued_nodup {s : State} (h : Inv s) : s.socket.enqueued.Nodup := by
  apply List.Nodup.of_map (·.number)
  rw [h.numbers]
  exact List.nodup_range

/-- An emission is popped once at most. -/
theorem Inv.popped_inj {s : State} (h : Inv s) {x y : Popped Emission} (hx : x ∈ s.socket.popped)
    (hy : y ∈ s.socket.popped) (heq : x.packet = y.packet) : x = y :=
  List.inj_on_of_nodup_map (h.enqueued_nodup.sublist h.socket.sound.in_order) hx hy heq

/-- On a connection that neither side has given up, everything that was popped for
it has arrived. -/
theorem Inv.arrived_all {s : State} (h : Inv s) (hquiet : Quiet s) {c : Nat}
    (hended : ¬ Ended s c) : arrived s c = sentOn s.socket.popped c := by
  obtain ⟨d, hconn, -, hread, hwritten⟩ := hquiet
  unfold Ended at hended
  push Not at hended
  obtain ⟨hcurrent, hclient, hfailed⟩ := hended
  obtain rfl : d = c := Option.some.inj (hconn.symm.trans hcurrent)
  have hwhole : s.socket.stream d = (packetsFor s.socket.popped d).flatMap emitControl := by
    by_cases hidle : ∀ packet written, s.socket.sender ≠ .writing d packet written
    · -- the send thread is not at work on it, so its last packet is not cut short
      rcases h.socket.2.other d hidle with hwhole | ⟨-, hcut⟩
      · exact hwhole
      · exact absurd (hcut hclient) hfailed
    · push Not at hidle
      obtain ⟨packet, written, hsender⟩ := hidle
      obtain ⟨-, whole, hpackets, hstream⟩ := h.socket.2.current d packet written hsender
      rw [hstream, hwritten packet written hsender, List.take_length, hpackets,
        List.flatMap_append, List.flatMap_singleton]
  unfold arrived
  rw [hread, List.take_length, hwhole, packetsFor_flatMap,
    Lines.count_lines fun x : Popped Emission => lf_not_mem_body x.packet, List.take_length]

/-- What has arrived was not lost. -/
theorem Inv.not_lost {s : State} (h : Inv s) {x : Popped Emission} (hx : x ∈ s.socket.popped)
    (harrived : x ∈ arrived s x.conn) : ¬ Lost s x.packet := by
  have hpopped : x.packet ∈ s.socket.popped.map (·.packet) := List.mem_map_of_mem hx
  rintro (hrefused | ⟨hdropped, -⟩ | ⟨y, hy, heq, -, hmissed⟩)
  · have haccepted := (h.socket.1.popped_sublist.trans (List.take_sublist _ _)).subset hpopped
    exact hrefused haccepted
  · exact hdropped hpopped
  · obtain rfl := h.popped_inj hy hx heq
    exact hmissed harrived

/-- In a quiet state what was not lost was popped, and has arrived. -/
theorem Inv.arrived_of_not_lost {s : State} (h : Inv s) (hquiet : Quiet s) {e : Emission}
    (hlost : ¬ Lost s e) : ∃ x ∈ s.socket.popped, x.packet = e ∧ x ∈ arrived s x.conn := by
  unfold Lost at hlost
  push Not at hlost
  obtain ⟨-, hdropped, hcut⟩ := hlost
  have hpopped : e ∈ s.socket.popped.map (·.packet) := by
    by_contra hnot
    obtain ⟨c, -, hempty, -⟩ := hquiet
    have hqueue := hdropped hnot
    rw [hempty] at hqueue
    cases hqueue
  obtain ⟨x, hx, rfl⟩ := List.mem_map.mp hpopped
  refine ⟨x, hx, rfl, ?_⟩
  by_cases hended : Ended s x.conn
  · exact hcut x hx rfl hended
  · rw [h.arrived_all hquiet hended]
    exact mem_sentOn.mpr ⟨hx, rfl⟩

/-- **The invariant gives agreement** in a quiet state. -/
theorem Inv.synced {s : State} (h : Inv s) (hquiet : Quiet s) : Synced s := by
  obtain ⟨received, hsub, hmem, hfold⟩ := h.received
  have hevents : (received.map (·.packet)).map (·.event) = received.map (·.packet.event) :=
    List.map_map
  rw [BridgeClient.foldl_after] at hfold
  refine ⟨received.map (·.packet), (hsub.map _).trans h.socket.sound.in_order, fun e _ => ?_,
    ?_, ?_⟩
  · constructor
    · intro hreceived
      obtain ⟨x, hx, rfl⟩ := List.mem_map.mp hreceived
      have hpopped := hsub.subset hx
      exact h.not_lost hpopped ((hmem x hpopped).mp hx)
    · intro hlost
      obtain ⟨x, hx, rfl, harrived⟩ := h.arrived_of_not_lost hquiet hlost
      exact List.mem_map_of_mem ((hmem x hx).mpr harrived)
  · rw [hevents, ← (tracks_statusAfter _).active_iff]
    have hstatus := congrArg BridgeClient.status hfold
    exact Bool.eq_iff_iff.mp (congrArg HandlerStatus.sessionActive hstatus)
  · rw [hevents]
    have hconfig := congrArg BridgeClient.videoConfig hfold
    exact hconfig.trans (BridgeClient.foldl_videoConfig _ _)

section

variable (numberText : Decimal → JsString) (textNumber : JsString → Option ℚ)

/-- **The server agrees with the handler when nothing is on its way**, up to the
emissions that were lost, in every interleaving that closes between lines. -/
theorem synced_of_quiet (actions : List Action)
    (hclose : Transition.Meets (step numberText textNumber) ClosesBetweenLines initial actions) :
    Transition.Throughout (step numberText textNumber) (fun s => Quiet s → Synced s) initial
      actions :=
  Transition.throughout_of_meets (fun _ h => h.synced)
    (fun _ _ _ h hG hstep => h.step numberText textNumber hG hstep) inv_initial hclose

end

/-- One event, which the client reads in two chunks. -/
def oneEvent : List Action :=
  [.connect, .handler .accept, .handler .install, .emit (.session .active), .handler .pop,
    .handler (.write 37), .handler .done, .data 20, .data 17]

theorem synced_oneEvent :
    (∃ s, Transition.run (step Decimal.print fun _ => none) initial oneEvent = some s ∧ Quiet s ∧
      s.client.status.sessionActive = true) ∧
    Transition.Throughout (step Decimal.print fun _ => none) (fun s => Quiet s → Synced s) initial
      oneEvent := by
  constructor
  · refine ⟨_, rfl, ⟨0, rfl, rfl, by decide +kernel, ?_⟩, by decide +kernel⟩
    intro packet written h
    cases h
  · apply synced_of_quiet
    simp only [oneEvent, Transition.Meets, ClosesBetweenLines, true_and, implies_true]

/-- An event that is emitted before the client connects, and so before it is installed. -/
def earlierEvent : List Action :=
  [.emit (.session .active), .connect, .handler .accept, .handler .install]

/-- **An event without a subscriber is not made up for**: the last session event is
`active`, nothing is on its way, and the server does not know. -/
theorem status_misses_earlier_event :
    ∃ s, Transition.run (step Decimal.print fun _ => none) initial earlierEvent = some s ∧
      Quiet s ∧ s.client.status.sessionActive = false ∧
      lastSession (s.socket.enqueued.map (·.event)) = some .active := by
  refine ⟨_, rfl, ⟨0, rfl, rfl, rfl, ?_⟩, rfl, rfl⟩
  intro packet written h
  cases h

end Whutfa.BridgeSync
