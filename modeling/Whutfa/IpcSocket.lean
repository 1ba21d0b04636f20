import Whutfa.IpcPackets
import Whutfa.Transition

/-! # One socket of the handler

`IpcBridge::enqueue`, `accept_loop`, `send_loop` and `write_all`
(`aa-handler/src/ipc_bridge.cpp`) as one step relation for one socket.  A step is a
critical section, an `accept` call or one `write` call; a `write` may take any part
of what is left, be interrupted, or fail, so that every interleaving of the
producers, the accept thread and the send thread is a list of actions.

Connections are numbered in the order in which peers connect, which is the order
in which `accept` returns them: a descriptor stands for its connection here, and
what happens when its number is used again is the subject of `DescriptorTable`.

The joint invariant is `Inv`.  It says that each connection's stream is whole
packets with at most the beginning of one more, that packets leave the queue in
order and once each, and that none is unaccounted for
(`ipc_socket_reachable`).
-/
namespace Whutfa

/-- The bound that the callers of `enqueue` pass for the socket. -/
def SocketName.maxQueue : SocketName → Nat
  | .bridge => 256
  | .video => 5
  | .audioMedia => 32
  | .audioSpeech => 32

theorem SocketName.maxQueue_pos (name : SocketName) : 0 < name.maxQueue := by
  cases name <;> decide

namespace IpcSocket
variable {P β : Type*}

/-- Where the send thread is. -/
inductive Sender (P : Type*)
  /-- At the condition variable. -/
  | waiting
  /-- In `write_all`, with `written` bytes of the packet written to `fd`. -/
  | writing (fd : Nat) (packet : P) (written : Nat)
  /-- `write_all` has failed on `fd`. -/
  | failed (fd : Nat)

/-- A packet taken off the queue: its place among the accepted packets, and the
connection that was current. -/
structure Popped (P : Type*) where
  index : Nat
  packet : P
  conn : Nat

/-- The members of `Socket`, the threads' own variables, and the history. -/
structure State (P β : Type*) where
  clientFd : Option Nat
  txQueue : List P
  sender : Sender P
  /-- The connection that the accept thread holds and has not installed. -/
  accepting : Option Nat
  /-- How many peers have connected. -/
  connected : Nat
  /-- How many connections `accept` has returned. -/
  returned : Nat
  /-- The connections the handler has closed. -/
  closed : List Nat
  /-- What has been written on each connection. -/
  stream : Nat → List β
  /-- What this socket has added to the counter of dropped packets. -/
  dropped : Nat
  /-- The packets `enqueue` was called with. -/
  enqueued : List P
  /-- The packets `enqueue` put on the queue. -/
  accepted : List P
  popped : List (Popped P)

/-- A socket that nobody has connected to. -/
def initial : State P β :=
  { clientFd := none, txQueue := [], sender := .waiting, accepting := none, connected := 0,
    returned := 0, closed := [], stream := fun _ => [], dropped := 0, enqueued := [],
    accepted := [], popped := [] }

/-- What a peer or one of the threads does next. -/
inductive Action (P : Type*)
  /-- A peer connects. -/
  | connect
  /-- `accept` returns. -/
  | accept
  /-- The critical section of `accept_loop`. -/
  | install
  /-- The critical section of `enqueue`. -/
  | enqueue (packet : P)
  /-- The critical section of `send_loop`. -/
  | pop
  /-- `write` takes `n` bytes. -/
  | write (n : Nat)
  /-- `write` fails with `EINTR`. -/
  | interrupted
  /-- `write` fails otherwise. -/
  | writeFail
  /-- `write_all` returns true. -/
  | done
  /-- The critical section after a failure. -/
  | dropClient

/-- The loop of `enqueue`: how many packets it pops, and the queue it leaves. -/
def makeRoom (maxQueue : Nat) : List P → Nat × List P
  | [] => (0, [])
  | p :: queue =>
      if maxQueue ≤ (p :: queue).length then
        ((makeRoom maxQueue queue).1 + 1, (makeRoom maxQueue queue).2)
      else (0, p :: queue)

/-- The critical section of `enqueue`: without a client the packet is gone. -/
def enqueue (maxQueue : Nat) (s : State P β) (packet : P) : State P β :=
  let s := { s with enqueued := s.enqueued ++ [packet] }
  match s.clientFd with
  | none => s
  | some _ =>
      let (pops, queue) := makeRoom maxQueue s.txQueue
      { s with
        txQueue := queue ++ [packet]
        dropped := s.dropped + pops
        accepted := s.accepted ++ [packet] }

/-- The critical section of `accept_loop`, for the connection `client`. -/
def install (s : State P β) (client : Nat) : State P β :=
  { s with
    accepting := none
    clientFd := some client
    closed := s.clientFd.toList ++ s.closed }

/-- The critical section of `send_loop`, when it does not wait. -/
def pop (s : State P β) (fd : Nat) (packet : P) (queue : List P) : State P β :=
  { s with
    txQueue := queue
    sender := .writing fd packet 0
    popped := s.popped ++ [{ index := s.accepted.length - s.txQueue.length, packet, conn := fd }] }

/-- The critical section after a failure on `fd`. -/
def dropClient (s : State P β) (fd : Nat) : State P β :=
  if s.clientFd = some fd then
    { s with sender := .waiting, clientFd := none, closed := fd :: s.closed }
  else { s with sender := .waiting }

/-- One step; `bytes` is what a packet consists of. -/
def step (bytes : P → List β) (maxQueue : Nat) (s : State P β) : Action P → Option (State P β)
  | .connect => some { s with connected := s.connected + 1 }
  | .accept =>
      if s.accepting = none ∧ s.returned < s.connected then
        some { s with accepting := some s.returned, returned := s.returned + 1 }
      else none
  | .install => s.accepting.map (install s)
  | .enqueue packet => some (enqueue maxQueue s packet)
  | .pop =>
      match s.sender, s.clientFd, s.txQueue with
      | .waiting, some fd, packet :: queue => some (pop s fd packet queue)
      | _, _, _ => none
  | .write n =>
      match s.sender with
      | .writing fd packet written =>
          if 0 < n ∧ written + n ≤ (bytes packet).length ∧ fd ∉ s.closed then
            some { s with
              sender := .writing fd packet (written + n)
              stream := Function.update s.stream fd
                (s.stream fd ++ ((bytes packet).drop written).take n) }
          else none
      | _ => none
  | .interrupted =>
      match s.sender with
      | .writing _ packet written => if written < (bytes packet).length then some s else none
      | _ => none
  | .writeFail =>
      match s.sender with
      | .writing fd packet written =>
          if written < (bytes packet).length then some { s with sender := .failed fd } else none
      | _ => none
  | .done =>
      match s.sender with
      | .writing _ packet written =>
          if written = (bytes packet).length then some { s with sender := .waiting } else none
      | _ => none
  | .dropClient =>
      match s.sender with
      | .failed fd => some (dropClient s fd)
      | _ => none

/-! ## What a step can do

One lemma for each action, with the guard it passed.  Two more are frames: `enqueue` touches
the queue and its history only, and the threads only add to what was popped and written. -/

theorem step_accept {bytes : P → List β} {maxQueue : Nat} {s t : State P β}
    (h : step bytes maxQueue s .accept = some t) :
    s.accepting = none ∧ s.returned < s.connected ∧
      t = { s with accepting := some s.returned, returned := s.returned + 1 } := by
  obtain ⟨hc, h⟩ := Option.ite_none_right_eq_some.mp h
  exact ⟨hc.1, hc.2, (Option.some.inj h).symm⟩

theorem step_install {bytes : P → List β} {maxQueue : Nat} {s t : State P β}
    (h : step bytes maxQueue s .install = some t) :
    ∃ client, s.accepting = some client ∧ t = install s client := by
  obtain ⟨client, hclient, ht⟩ := Option.map_eq_some_iff.mp h
  exact ⟨client, hclient, ht.symm⟩

theorem step_pop {bytes : P → List β} {maxQueue : Nat} {s t : State P β}
    (h : step bytes maxQueue s .pop = some t) :
    ∃ fd packet queue, s.sender = .waiting ∧ s.clientFd = some fd ∧
      s.txQueue = packet :: queue ∧ t = pop s fd packet queue := by
  simp only [step] at h
  split at h
  · rename_i fd packet queue hsender hclient hqueue
    exact ⟨fd, packet, queue, hsender, hclient, hqueue, (Option.some.inj h).symm⟩
  · cases h

theorem step_write {bytes : P → List β} {maxQueue n : Nat} {s t : State P β}
    (h : step bytes maxQueue s (.write n) = some t) :
    ∃ fd packet written, s.sender = .writing fd packet written ∧ 0 < n ∧
      written + n ≤ (bytes packet).length ∧ fd ∉ s.closed ∧
      t = { s with
        sender := .writing fd packet (written + n)
        stream := Function.update s.stream fd
          (s.stream fd ++ ((bytes packet).drop written).take n) } := by
  simp only [step] at h
  split at h
  · rename_i fd packet written hsender
    obtain ⟨hn, h⟩ := Option.ite_none_right_eq_some.mp h
    exact ⟨fd, packet, written, hsender, hn.1, hn.2.1, hn.2.2, (Option.some.inj h).symm⟩
  · cases h

theorem step_interrupted {bytes : P → List β} {maxQueue : Nat} {s t : State P β}
    (h : step bytes maxQueue s .interrupted = some t) : t = s := by
  simp only [step] at h
  split at h
  · obtain ⟨-, h⟩ := Option.ite_none_right_eq_some.mp h
    exact (Option.some.inj h).symm
  · cases h

theorem step_writeFail {bytes : P → List β} {maxQueue : Nat} {s t : State P β}
    (h : step bytes maxQueue s .writeFail = some t) :
    ∃ fd packet written, s.sender = .writing fd packet written ∧
      written < (bytes packet).length ∧ t = { s with sender := .failed fd } := by
  simp only [step] at h
  split at h
  · rename_i fd packet written hsender
    obtain ⟨hw, h⟩ := Option.ite_none_right_eq_some.mp h
    exact ⟨fd, packet, written, hsender, hw, (Option.some.inj h).symm⟩
  · cases h

theorem step_done {bytes : P → List β} {maxQueue : Nat} {s t : State P β}
    (h : step bytes maxQueue s .done = some t) :
    ∃ fd packet written, s.sender = .writing fd packet written ∧
      written = (bytes packet).length ∧ t = { s with sender := .waiting } := by
  simp only [step] at h
  split at h
  · rename_i fd packet written hsender
    obtain ⟨hw, h⟩ := Option.ite_none_right_eq_some.mp h
    exact ⟨fd, packet, written, hsender, hw, (Option.some.inj h).symm⟩
  · cases h

theorem step_dropClient {bytes : P → List β} {maxQueue : Nat} {s t : State P β}
    (h : step bytes maxQueue s .dropClient = some t) :
    ∃ fd, s.sender = .failed fd ∧ t = dropClient s fd := by
  simp only [step] at h
  split at h
  · rename_i fd hsender
    exact ⟨fd, hsender, (Option.some.inj h).symm⟩
  · cases h

/-- `enqueue` touches nothing but the queue and its history. -/
theorem enqueue_keeps (maxQueue : Nat) (s : State P β) (packet : P) :
    (enqueue maxQueue s packet).enqueued = s.enqueued ++ [packet] ∧
      (enqueue maxQueue s packet).connected = s.connected ∧
      (enqueue maxQueue s packet).returned = s.returned ∧
      (enqueue maxQueue s packet).stream = s.stream ∧
      (enqueue maxQueue s packet).popped = s.popped := by
  unfold enqueue
  cases s.clientFd with
  | none => exact ⟨rfl, rfl, rfl, rfl, rfl⟩
  | some fd => exact ⟨rfl, rfl, rfl, rfl, rfl⟩

/-- A step of the threads only adds to what was popped and written, and to the
connections that `accept` returned. -/
theorem step_adds {bytes : P → List β} {maxQueue : Nat} {s t : State P β} {a : Action P}
    (hconnect : a ≠ .connect) (henqueue : ∀ packet, a ≠ .enqueue packet)
    (h : step bytes maxQueue s a = some t) :
    t.enqueued = s.enqueued ∧ t.connected = s.connected ∧
      (s.returned ≤ s.connected → t.returned ≤ t.connected) ∧
      (∀ c, s.stream c <+: t.stream c) ∧ s.popped <+: t.popped := by
  have hsame : ∀ c, s.stream c <+: s.stream c := fun c => List.prefix_refl _
  cases a with
  | connect => exact absurd rfl hconnect
  | accept =>
    obtain ⟨-, hlt, rfl⟩ := step_accept h
    exact ⟨rfl, rfl, fun _ => hlt, hsame, List.prefix_refl _⟩
  | install =>
    obtain ⟨client, -, rfl⟩ := step_install h
    exact ⟨rfl, rfl, id, hsame, List.prefix_refl _⟩
  | enqueue packet => exact absurd rfl (henqueue packet)
  | pop =>
    obtain ⟨fd, packet, queue, -, -, -, rfl⟩ := step_pop h
    exact ⟨rfl, rfl, id, hsame, List.prefix_append _ _⟩
  | write n =>
    obtain ⟨fd, packet, written, -, -, -, -, rfl⟩ := step_write h
    refine ⟨rfl, rfl, id, fun c => ?_, List.prefix_refl _⟩
    by_cases hc : c = fd
    · subst hc
      simp only [Function.update_self]
      exact List.prefix_append _ _
    · simp only [Function.update_of_ne hc]
      exact List.prefix_refl _
  | interrupted =>
    rw [step_interrupted h]
    exact ⟨rfl, rfl, id, hsame, List.prefix_refl _⟩
  | writeFail =>
    obtain ⟨fd, packet, written, -, -, rfl⟩ := step_writeFail h
    exact ⟨rfl, rfl, id, hsame, List.prefix_refl _⟩
  | done =>
    obtain ⟨fd, packet, written, -, -, rfl⟩ := step_done h
    exact ⟨rfl, rfl, id, hsame, List.prefix_refl _⟩
  | dropClient =>
    obtain ⟨fd, -, rfl⟩ := step_dropClient h
    unfold dropClient
    split
    · exact ⟨rfl, rfl, id, hsame, List.prefix_refl _⟩
    · exact ⟨rfl, rfl, id, hsame, List.prefix_refl _⟩

/-! ## The queue

The ledger is kept by places: each packet that is popped is known by its place among all that
were accepted, and the queue is the end of these.  What is dropped leaves at the front, so that
the places of what is popped only grow. -/

/-- The loop pops just as many packets as it must, from the front. -/
theorem makeRoom_eq {maxQueue : Nat} (hmax : 0 < maxQueue) (queue : List P) :
    makeRoom maxQueue queue =
      (queue.length + 1 - maxQueue, queue.drop (queue.length + 1 - maxQueue)) := by
  induction queue with
  | nil =>
    have hzero : ([] : List P).length + 1 - maxQueue = 0 := by
      rw [List.length_nil]
      omega
    rw [hzero]
    rfl
  | cons p queue ih =>
    rw [makeRoom]
    by_cases hfull : maxQueue ≤ (p :: queue).length
    · have hsucc : (p :: queue).length + 1 - maxQueue = (queue.length + 1 - maxQueue) + 1 := by
        rw [List.length_cons] at hfull ⊢
        omega
      rw [if_pos hfull, ih, hsucc, List.drop_succ_cons]
    · have hzero : (p :: queue).length + 1 - maxQueue = 0 := by omega
      rw [if_neg hfull, hzero, List.drop_zero]

/-- The ledger of one socket: the queue is the end of what was accepted, within its
bound; what left it was popped, in order and once each, or dropped. -/
structure Accounts (maxQueue : Nat) (txQueue accepted enqueued : List P) (dropped : Nat)
    (popped : List (Popped P)) : Prop where
  suffix : txQueue <:+ accepted
  bound : txQueue.length ≤ maxQueue
  count : popped.length + dropped + txQueue.length = accepted.length
  accepted_sublist : accepted.Sublist enqueued
  order : popped.Pairwise fun a b => a.index < b.index
  place : ∀ x ∈ popped, x.index < accepted.length - txQueue.length ∧
    accepted[x.index]? = some x.packet
  popped_sublist : (popped.map (·.packet)).Sublist
    (accepted.take (accepted.length - txQueue.length))

namespace Accounts
variable {maxQueue dropped : Nat} {txQueue accepted enqueued : List P} {popped : List (Popped P)}

theorem initial (maxQueue : Nat) : Accounts maxQueue ([] : List P) [] [] 0 [] where
  suffix := List.suffix_refl _
  bound := Nat.zero_le _
  count := rfl
  accepted_sublist := List.Sublist.refl _
  order := List.Pairwise.nil
  place x hx := by cases hx
  popped_sublist := List.Sublist.refl _

/-- A call of `enqueue` without a client. -/
theorem refuse (h : Accounts maxQueue txQueue accepted enqueued dropped popped) (packet : P) :
    Accounts maxQueue txQueue accepted (enqueued ++ [packet]) dropped popped :=
  { h with accepted_sublist := h.accepted_sublist.trans (List.sublist_append_left _ _) }

/-- A call of `enqueue` with a client. -/
theorem accept (h : Accounts maxQueue txQueue accepted enqueued dropped popped)
    (hmax : 0 < maxQueue) (packet : P) :
    Accounts maxQueue ((makeRoom maxQueue txQueue).2 ++ [packet]) (accepted ++ [packet])
      (enqueued ++ [packet]) (dropped + (makeRoom maxQueue txQueue).1) popped := by
  have hlen := h.suffix.length_le
  have hbound := h.bound
  have hcount := h.count
  rw [makeRoom_eq hmax]
  -- the place of the queue's front only moves up
  have hfront : accepted.length - txQueue.length ≤ (accepted ++ [packet]).length -
      (txQueue.drop (txQueue.length + 1 - maxQueue) ++ [packet]).length := by
    simp only [List.length_append, List.length_drop, List.length_singleton]
    omega
  constructor
  case suffix =>
    have hleft := List.drop_suffix (txQueue.length + 1 - maxQueue) txQueue
    obtain ⟨gone, hgone⟩ := hleft.trans h.suffix
    exact ⟨gone, by rw [← List.append_assoc, hgone]⟩
  case bound =>
    simp only [List.length_append, List.length_drop, List.length_singleton]
    omega
  case count =>
    simp only [List.length_append, List.length_drop, List.length_singleton]
    omega
  case accepted_sublist => exact h.accepted_sublist.append_right _
  case order => exact h.order
  case place =>
    intro x hx
    obtain ⟨hlt, hget⟩ := h.place x hx
    refine ⟨Nat.lt_of_lt_of_le hlt hfront, ?_⟩
    rw [List.getElem?_append_left (by omega)]
    exact hget
  case popped_sublist =>
    refine h.popped_sublist.trans ?_
    have hsame : accepted.take (accepted.length - txQueue.length) =
        (accepted ++ [packet]).take (accepted.length - txQueue.length) := by
      rw [List.take_append_of_le_length (by omega)]
    rw [hsame]
    exact List.take_sublist_take_left hfront

/-- The critical section of `send_loop`. -/
theorem pop {packet : P} {queue : List P}
    (h : Accounts maxQueue (packet :: queue) accepted enqueued dropped popped) (conn : Nat) :
    Accounts maxQueue queue accepted enqueued dropped
      (popped ++ [{ index := accepted.length - (packet :: queue).length, packet, conn }]) := by
  have hlen := h.suffix.length_le
  have hbound := h.bound
  have hcount := h.count
  rw [List.length_cons] at hlen hbound hcount
  -- the front of the queue, and the place after it
  have hget : accepted[accepted.length - (packet :: queue).length]? = some packet := by
    obtain ⟨gone, rfl⟩ := h.suffix
    simp
  have hnext : accepted.length - queue.length =
      accepted.length - (packet :: queue).length + 1 := by
    rw [List.length_cons]
    omega
  constructor
  case suffix => exact (List.suffix_cons packet queue).trans h.suffix
  case bound => omega
  case count =>
    rw [List.length_append, List.length_singleton]
    omega
  case accepted_sublist => exact h.accepted_sublist
  case order =>
    refine List.pairwise_append.mpr ⟨h.order, List.pairwise_singleton _ _, ?_⟩
    intro x hx y hy
    rw [List.mem_singleton.mp hy]
    exact (h.place x hx).1
  case place =>
    intro x hx
    rcases List.mem_append.mp hx with hold | hnew
    · obtain ⟨hlt, hx⟩ := h.place x hold
      exact ⟨by omega, hx⟩
    · rw [List.mem_singleton.mp hnew]
      exact ⟨by rw [hnext]; exact Nat.lt_succ_self _, hget⟩
  case popped_sublist =>
    rw [hnext, List.take_add_one, hget, List.map_append]
    exact h.popped_sublist.append (List.Sublist.refl _)

end Accounts

/-! ## The connections

What has been written to a connection is compared with the packets that were popped for it.
Only the send thread writes, and it writes one packet at a time, so that the last packet of a
connection alone can be cut short; after a failure nothing more is popped for it. -/

/-- The packets taken off the queue for a connection. -/
def packetsFor (popped : List (Popped P)) (c : Nat) : List P :=
  (popped.filter (·.conn = c)).map (·.packet)

theorem packetsFor_snoc_self (popped : List (Popped P)) (x : Popped P) :
    packetsFor (popped ++ [x]) x.conn = packetsFor popped x.conn ++ [x.packet] := by
  simp [packetsFor]

theorem packetsFor_snoc_ne (popped : List (Popped P)) {x : Popped P} {c : Nat} (h : x.conn ≠ c) :
    packetsFor (popped ++ [x]) c = packetsFor popped c := by
  simp [packetsFor, h]

theorem exists_of_packetsFor {popped : List (Popped P)} {c : Nat} {whole : List P} {last : P}
    (h : packetsFor popped c = whole ++ [last]) : ∃ x ∈ popped, x.conn = c := by
  have hmem : last ∈ packetsFor popped c := by
    rw [h]
    exact List.mem_append_right _ (List.mem_singleton_self last)
  obtain ⟨x, hx, -⟩ := List.mem_map.mp hmem
  rw [List.mem_filter, decide_eq_true_eq] at hx
  exact ⟨x, hx.1, hx.2⟩

/-- The last packet of a stream is cut short. -/
def CutShort (bytes : P → List β) (packets : List P) (stream : List β) : Prop :=
  ∃ whole last part, packets = whole ++ [last] ∧ stream = whole.flatMap bytes ++ part ∧
    part <+: bytes last ∧ part ≠ bytes last

/-- A stream of whole packets, the last of which may be cut short. -/
def Framed (bytes : P → List β) (packets : List P) (stream : List β) : Prop :=
  stream = packets.flatMap bytes ∨ CutShort bytes packets stream

theorem Framed.isPrefix {bytes : P → List β} {packets : List P} {stream : List β}
    (h : Framed bytes packets stream) : stream <+: packets.flatMap bytes := by
  rcases h with rfl | ⟨whole, last, part, rfl, rfl, hpart, -⟩
  · exact List.prefix_refl _
  · rw [List.flatMap_append, List.flatMap_singleton]
    exact (List.prefix_append_right_inj _).mpr hpart

/-- What the threads do to the connections.  A connection whose last packet is cut
short is being written to, or has failed, or is current no more. -/
structure Streams (bytes : P → List β) (clientFd accepting : Option Nat) (returned : Nat)
    (sender : Sender P) (stream : Nat → List β) (popped : List (Popped P)) : Prop where
  client : ∀ c, clientFd = some c → c < returned ∧ ∀ d, accepting = some d → c < d
  holds : ∀ c, accepting = some c → c < returned
  known : ∀ x ∈ popped, x.conn < returned ∧ (∀ d, accepting = some d → x.conn < d) ∧
    ∀ c, clientFd = some c → x.conn ≤ c
  conns : popped.Pairwise fun a b => a.conn ≤ b.conn
  current : ∀ fd packet written, sender = .writing fd packet written →
    written ≤ (bytes packet).length ∧ ∃ whole, packetsFor popped fd = whole ++ [packet] ∧
      stream fd = whole.flatMap bytes ++ (bytes packet).take written
  other : ∀ c, (∀ packet written, sender ≠ .writing c packet written) →
    stream c = (packetsFor popped c).flatMap bytes ∨
      (CutShort bytes (packetsFor popped c) (stream c) ∧ (clientFd = some c → sender = .failed c))

namespace Streams
variable {bytes : P → List β} {clientFd accepting : Option Nat} {returned : Nat}
variable {sender : Sender P} {stream : Nat → List β} {popped : List (Popped P)}

theorem initial (bytes : P → List β) :
    Streams bytes none none 0 .waiting (fun _ => []) [] where
  client c h := by cases h
  holds c h := by cases h
  known x h := by cases h
  conns := List.Pairwise.nil
  current fd packet written h := by cases h
  other c _ := Or.inl rfl

theorem accept (h : Streams bytes clientFd none returned sender stream popped) :
    Streams bytes clientFd (some returned) (returned + 1) sender stream popped where
  client c hc := by
    have hlt := (h.client c hc).1
    refine ⟨by omega, fun d hd => ?_⟩
    rw [← Option.some.inj hd]
    exact hlt
  holds c hc := by
    have := Option.some.inj hc
    omega
  known x hx := by
    obtain ⟨hlt, -, hle⟩ := h.known x hx
    refine ⟨by omega, fun d hd => ?_, hle⟩
    rw [← Option.some.inj hd]
    exact hlt
  conns := h.conns
  current := h.current
  other := h.other

/-- The new client is a connection that nothing has been popped for. -/
theorem install {c : Nat} (h : Streams bytes clientFd (some c) returned sender stream popped) :
    Streams bytes (some c) none returned sender stream popped where
  client d hd := by
    obtain rfl := Option.some.inj hd
    exact ⟨h.holds _ rfl, fun d hd => by cases hd⟩
  holds d hd := by cases hd
  known x hx := by
    obtain ⟨hlt, hheld, -⟩ := h.known x hx
    refine ⟨hlt, fun d hd => (by cases hd), fun d hd => ?_⟩
    rw [← Option.some.inj hd]
    exact Nat.le_of_lt (hheld c rfl)
  conns := h.conns
  current := h.current
  other d hd := by
    rcases h.other d hd with hwhole | ⟨hcut, -⟩
    · exact Or.inl hwhole
    · refine Or.inr ⟨hcut, fun heq => ?_⟩
      obtain ⟨whole, last, part, hpackets, -⟩ := hcut
      obtain ⟨x, hx, hconn⟩ := exists_of_packetsFor hpackets
      have hlt := (h.known x hx).2.1 c rfl
      have hd := Option.some.inj heq
      omega

theorem pop {fd : Nat} (h : Streams bytes (some fd) accepting returned .waiting stream popped)
    (index : Nat) (packet : P) :
    Streams bytes (some fd) accepting returned (.writing fd packet 0) stream
      (popped ++ [{ index, packet, conn := fd }]) where
  client := h.client
  holds := h.holds
  known x hx := by
    rcases List.mem_append.mp hx with hold | hnew
    · exact h.known x hold
    · rw [List.mem_singleton.mp hnew]
      obtain ⟨hlt, hheld⟩ := h.client fd rfl
      exact ⟨hlt, hheld, fun c hc => Nat.le_of_eq (Option.some.inj hc)⟩
  conns := by
    refine List.pairwise_append.mpr ⟨h.conns, List.pairwise_singleton _ _, ?_⟩
    intro x hx y hy
    rw [List.mem_singleton.mp hy]
    exact (h.known x hx).2.2 fd rfl
  current fd' packet' written heq := by
    obtain ⟨rfl, rfl, rfl⟩ := Sender.writing.inj heq
    -- the send thread was waiting, so the stream was whole
    have hwhole : stream fd = (packetsFor popped fd).flatMap bytes := by
      rcases h.other fd (fun _ _ hw => by cases hw) with hwhole | ⟨-, hfailed⟩
      · exact hwhole
      · cases hfailed rfl
    refine ⟨Nat.zero_le _, packetsFor popped fd, ?_, ?_⟩
    · exact packetsFor_snoc_self popped { index, packet, conn := fd }
    · rw [hwhole, List.take_zero, List.append_nil]
  other c hc := by
    have hne : fd ≠ c := by
      rintro rfl
      exact hc packet 0 rfl
    rw [packetsFor_snoc_ne popped hne]
    rcases h.other c (fun _ _ hw => by cases hw) with hwhole | ⟨hcut, -⟩
    · exact Or.inl hwhole
    · exact Or.inr ⟨hcut, fun heq => absurd (Option.some.inj heq) hne⟩

/-- While the send thread writes to `fd`, no other connection both is current and has
its last packet cut short. -/
theorem elsewhere {fd c written : Nat} {packet : P} (hne : c ≠ fd)
    (h : Streams bytes clientFd accepting returned (.writing fd packet written) stream popped) :
    stream c = (packetsFor popped c).flatMap bytes ∨
      (CutShort bytes (packetsFor popped c) (stream c) ∧ clientFd ≠ some c) := by
  have hnot : ∀ packet' written',
      Sender.writing fd packet written ≠ .writing c packet' written' := by
    intro packet' written' heq
    exact hne (Sender.writing.inj heq).1.symm
  rcases h.other c hnot with hwhole | ⟨hcut, hfailed⟩
  · exact Or.inl hwhole
  · refine Or.inr ⟨hcut, fun hclient => ?_⟩
    cases hfailed hclient

theorem write {fd written n : Nat} {packet : P}
    (h : Streams bytes clientFd accepting returned (.writing fd packet written) stream popped)
    (hn : written + n ≤ (bytes packet).length) :
    Streams bytes clientFd accepting returned (.writing fd packet (written + n))
      (Function.update stream fd (stream fd ++ ((bytes packet).drop written).take n)) popped where
  client := h.client
  holds := h.holds
  known := h.known
  conns := h.conns
  current fd' packet' written' heq := by
    obtain ⟨rfl, rfl, rfl⟩ := Sender.writing.inj heq
    obtain ⟨-, whole, hpackets, hstream⟩ := h.current fd packet written rfl
    refine ⟨hn, whole, hpackets, ?_⟩
    rw [Function.update_self, hstream, List.append_assoc, ← List.take_add]
  other c hc := by
    have hne : c ≠ fd := by
      rintro rfl
      exact hc packet (written + n) rfl
    rw [Function.update_of_ne hne]
    rcases h.elsewhere hne with hwhole | ⟨hcut, hclient⟩
    · exact Or.inl hwhole
    · exact Or.inr ⟨hcut, fun heq => absurd heq hclient⟩

theorem writeFail {fd written : Nat} {packet : P}
    (h : Streams bytes clientFd accepting returned (.writing fd packet written) stream popped)
    (hw : written < (bytes packet).length) :
    Streams bytes clientFd accepting returned (.failed fd) stream popped where
  client := h.client
  holds := h.holds
  known := h.known
  conns := h.conns
  current fd' packet' written' heq := by cases heq
  other c _ := by
    by_cases hc : c = fd
    · subst hc
      obtain ⟨-, whole, hpackets, hstream⟩ := h.current c packet written rfl
      refine Or.inr ⟨⟨whole, packet, _, hpackets, hstream, List.take_prefix _ _, ?_⟩, fun _ => rfl⟩
      intro heq
      have hlen := congrArg List.length heq
      rw [List.length_take] at hlen
      omega
    · rcases h.elsewhere hc with hwhole | ⟨hcut, hclient⟩
      · exact Or.inl hwhole
      · exact Or.inr ⟨hcut, fun heq => absurd heq hclient⟩

theorem done {fd : Nat} {packet : P}
    (h : Streams bytes clientFd accepting returned (.writing fd packet (bytes packet).length)
      stream popped) :
    Streams bytes clientFd accepting returned .waiting stream popped where
  client := h.client
  holds := h.holds
  known := h.known
  conns := h.conns
  current fd' packet' written' heq := by cases heq
  other c _ := by
    by_cases hc : c = fd
    · subst hc
      obtain ⟨-, whole, hpackets, hstream⟩ := h.current c packet _ rfl
      left
      rw [hpackets, hstream, List.take_length, List.flatMap_append, List.flatMap_singleton]
    · rcases h.elsewhere hc with hwhole | ⟨hcut, hclient⟩
      · exact Or.inl hwhole
      · exact Or.inr ⟨hcut, fun heq => absurd heq hclient⟩

/-- After a failure on `fd`, whatever is current then is not `fd`. -/
theorem dropClient {fd : Nat} {clientFd' : Option Nat}
    (h : Streams bytes clientFd accepting returned (.failed fd) stream popped)
    (hsub : ∀ c, clientFd' = some c → clientFd = some c ∧ c ≠ fd) :
    Streams bytes clientFd' accepting returned .waiting stream popped where
  client c hc := h.client c (hsub c hc).1
  holds := h.holds
  known x hx := by
    obtain ⟨hlt, hheld, hle⟩ := h.known x hx
    exact ⟨hlt, hheld, fun c hc => hle c (hsub c hc).1⟩
  conns := h.conns
  current fd' packet' written' heq := by cases heq
  other c _ := by
    rcases h.other c (fun _ _ heq => by cases heq) with hwhole | ⟨hcut, hfailed⟩
    · exact Or.inl hwhole
    · refine Or.inr ⟨hcut, fun heq => ?_⟩
      obtain ⟨hclient, hne⟩ := hsub c heq
      exact absurd (Sender.failed.inj (hfailed hclient)).symm hne

/-- Every stream is framed. -/
theorem framed (h : Streams bytes clientFd accepting returned sender stream popped) (c : Nat) :
    Framed bytes (packetsFor popped c) (stream c) := by
  by_cases hc : ∀ packet written, sender ≠ .writing c packet written
  · rcases h.other c hc with hwhole | ⟨hcut, -⟩
    · exact Or.inl hwhole
    · exact Or.inr hcut
  · push Not at hc
    obtain ⟨packet, written, hsender⟩ := hc
    obtain ⟨hle, whole, hpackets, hstream⟩ := h.current c packet written hsender
    by_cases hfull : (bytes packet).take written = bytes packet
    · left
      rw [hpackets, hstream, hfull, List.flatMap_append, List.flatMap_singleton]
    · exact Or.inr ⟨whole, packet, _, hpackets, hstream, List.take_prefix _ _, hfull⟩

end Streams

/-! ## Every run

The two parts of the invariant meet in the record of what was popped.  `Sound` is what they
say together of one state. -/

/-- The joint invariant. -/
def Inv (bytes : P → List β) (maxQueue : Nat) (s : State P β) : Prop :=
  Accounts maxQueue s.txQueue s.accepted s.enqueued s.dropped s.popped ∧
    Streams bytes s.clientFd s.accepting s.returned s.sender s.stream s.popped

theorem inv_initial (bytes : P → List β) (maxQueue : Nat) : Inv bytes maxQueue initial :=
  ⟨Accounts.initial maxQueue, Streams.initial bytes⟩

theorem inv_enqueue {bytes : P → List β} {maxQueue : Nat} (hmax : 0 < maxQueue) {s : State P β}
    (h : Inv bytes maxQueue s) (packet : P) : Inv bytes maxQueue (enqueue maxQueue s packet) := by
  obtain ⟨haccounts, hstreams⟩ := h
  unfold enqueue
  cases hclient : s.clientFd with
  | none =>
    rw [hclient] at hstreams
    exact ⟨haccounts.refuse packet, hstreams⟩
  | some fd =>
    rw [hclient] at hstreams
    exact ⟨haccounts.accept hmax packet, hstreams⟩

/-- **Every step keeps the joint invariant.** -/
theorem inv_step {bytes : P → List β} {maxQueue : Nat} (hmax : 0 < maxQueue) {s t : State P β}
    {a : Action P} (h : Inv bytes maxQueue s) (hstep : step bytes maxQueue s a = some t) :
    Inv bytes maxQueue t := by
  obtain ⟨haccounts, hstreams⟩ := h
  cases a with
  | connect =>
    obtain rfl := Option.some.inj hstep
    exact ⟨haccounts, hstreams⟩
  | accept =>
    obtain ⟨hnone, -, rfl⟩ := step_accept hstep
    rw [hnone] at hstreams
    exact ⟨haccounts, hstreams.accept⟩
  | install =>
    obtain ⟨client, hclient, rfl⟩ := step_install hstep
    rw [hclient] at hstreams
    exact ⟨haccounts, hstreams.install⟩
  | enqueue packet =>
    obtain rfl := Option.some.inj hstep
    exact inv_enqueue hmax ⟨haccounts, hstreams⟩ packet
  | pop =>
    obtain ⟨fd, packet, queue, hsender, hclient, hqueue, rfl⟩ := step_pop hstep
    rw [hsender, hclient] at hstreams
    rw [hqueue] at haccounts
    unfold pop
    rw [hqueue]
    exact ⟨haccounts.pop fd, hclient.symm ▸ hstreams.pop _ packet⟩
  | write n =>
    obtain ⟨fd, packet, written, hsender, -, hn, -, rfl⟩ := step_write hstep
    rw [hsender] at hstreams
    exact ⟨haccounts, hstreams.write hn⟩
  | interrupted =>
    rw [step_interrupted hstep]
    exact ⟨haccounts, hstreams⟩
  | writeFail =>
    obtain ⟨fd, packet, written, hsender, hw, rfl⟩ := step_writeFail hstep
    rw [hsender] at hstreams
    exact ⟨haccounts, hstreams.writeFail hw⟩
  | done =>
    obtain ⟨fd, packet, written, hsender, rfl, rfl⟩ := step_done hstep
    rw [hsender] at hstreams
    exact ⟨haccounts, hstreams.done⟩
  | dropClient =>
    obtain ⟨fd, hsender, rfl⟩ := step_dropClient hstep
    rw [hsender] at hstreams
    unfold dropClient
    split
    · exact ⟨haccounts, hstreams.dropClient fun c hc => by cases hc⟩
    · rename_i hne
      refine ⟨haccounts, hstreams.dropClient fun c hc => ⟨hc, ?_⟩⟩
      rintro rfl
      exact hne hc

/-- The states that some interleaving reaches. -/
def Reachable (bytes : P → List β) (name : SocketName) : State P β → Prop :=
  Transition.Reachable (step bytes name.maxQueue) (· = initial)

theorem Reachable.inv {bytes : P → List β} {name : SocketName} {s : State P β}
    (h : Reachable bytes name s) : Inv bytes name.maxQueue s :=
  Transition.Reachable.invariant (fun _ hs => hs ▸ inv_initial bytes _)
    (fun _ _ _ hs => inv_step (SocketName.maxQueue_pos name) hs) h

/-- What holds of one socket in every reachable state.  Each connection has received
whole packets and at most a proper beginning of one more, namely the packets popped
while it was current; the packets popped are a subsequence of those `enqueue` was
called with, each accepted packet popped at most once and so for one connection;
the queue is the end of what was accepted, within its bound; and every accepted
packet was popped, counted as dropped, or is queued. -/
structure Sound (bytes : P → List β) (maxQueue : Nat) (s : State P β) : Prop where
  framed : ∀ c, Framed bytes (packetsFor s.popped c) (s.stream c)
  in_order : (s.popped.map (·.packet)).Sublist s.enqueued
  once : s.popped.Pairwise (fun a b => a.index < b.index) ∧
    ∀ x ∈ s.popped, s.accepted[x.index]? = some x.packet
  suffix : s.txQueue <:+ s.accepted
  bound : s.txQueue.length ≤ maxQueue
  accounted : s.accepted.length = s.popped.length + s.dropped + s.txQueue.length

theorem Inv.sound {bytes : P → List β} {maxQueue : Nat} {s : State P β}
    (h : Inv bytes maxQueue s) : Sound bytes maxQueue s where
  framed := h.2.framed
  in_order := (h.1.popped_sublist.trans (List.take_sublist _ _)).trans h.1.accepted_sublist
  once := ⟨h.1.order, fun x hx => (h.1.place x hx).2⟩
  suffix := h.1.suffix
  bound := h.1.bound
  accounted := h.1.count.symm

/-- **Framing, order, bound and accounting of one socket**, in every state that any
interleaving of its threads reaches. -/
theorem ipc_socket_reachable {bytes : P → List β} {name : SocketName} {s : State P β}
    (h : Reachable bytes name s) : Sound bytes name.maxQueue s :=
  h.inv.sound

/-- A run that replaces the client in the middle of a packet. -/
def replacedMidPacket : List (Action (List UInt8)) :=
  [.connect, .accept, .install, .enqueue [1, 2], .enqueue [3], .pop, .write 1, .connect, .accept,
    .install, .writeFail, .dropClient, .pop, .write 1, .done]

/-- In that run the first client has the beginning of a packet, the second a whole
one. -/
theorem ipc_socket_replaced :
    ∃ s, Transition.run (step id (SocketName.maxQueue .bridge)) initial replacedMidPacket = some s ∧
      s.stream 0 = [1] ∧ s.stream 1 = [3] ∧ Sound id (SocketName.maxQueue .bridge) s :=
  ⟨_, rfl, rfl, rfl, ipc_socket_reachable ⟨initial, replacedMidPacket, rfl, rfl⟩⟩

end IpcSocket
end Whutfa
