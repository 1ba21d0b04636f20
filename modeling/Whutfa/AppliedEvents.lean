import Whutfa.BridgeConnections
import Whutfa.BridgeSync

/-! # What the server has applied

The bridge in every interleaving, closes in the middle of a line included
(`BridgeClient.start` of `server/src/bridge-client.ts`, the bridge socket of
`aa-handler/src/ipc_bridge.cpp`).  `lineBuf` is not cleared when a connection closes, so
the next connection's first line is read behind the beginning of another one; the two
together are no JSON text, and both events are lost.  Every other line is read as its own
event.

So what the server shows is what some of the emissions make of it, in the order in which
they were made and each at most once, and of the lines that arrive it misses the first one
of a connection at most (`applied_in_order`).  Connections are told apart as in
`BridgeSync`, by themselves and not by the numbers of their descriptors.
-/
namespace Whutfa

open JsString

/-- What a closed connection may leave in `lineBuf`: nothing, or the beginning of an object. -/
def Unfinished (front : JsString) : Prop :=
  unit '\n' ∉ front ∧ (front = [] ∨ front.head? = some (unit '\x7b'))

theorem unfinished_nil : Unfinished [] := ⟨List.not_mem_nil, Or.inl rfl⟩

theorem Unfinished.append {front t : JsString} (hfront : Unfinished front) (ht : Unfinished t) :
    Unfinished (front ++ t) := by
  refine ⟨fun hmem => (List.mem_append.mp hmem).elim hfront.1 ht.1, ?_⟩
  rcases hfront.2 with rfl | hopen
  · exact ht.2
  · refine Or.inr ?_
    rw [List.head?_append, hopen, Option.some_or]

namespace ControlEvent

theorem opens_line (e : ControlEvent) : Json.Opens e.line (e.line.drop 2) where
  eq := by
    cases e with
    | session state => exact (BridgeClient.opens_session state).eq
    | videoConfig width height fps => rfl
  interrupts := by
    cases e with
    | session state => exact (BridgeClient.opens_session state).interrupts
    | videoConfig width height fps =>
      exact ⟨unit 'e', (ControlEvent.videoConfig width height fps).line.drop 3, rfl, by decide⟩

/-- Behind the beginning of an object no event is a JSON text. -/
theorem parse_behind {front : JsString} (hfront : front.head? = some (unit '\x7b'))
    (e : ControlEvent) : Json.parse (trim (front ++ e.line)) = none := by
  have htrim : trim (front ++ e.line) = front ++ e.line := by
    refine trim_eq_self (fun c hc => ?_) fun c hc => ?_
    · rw [List.head?_append, hfront, Option.some_or] at hc
      rw [← Option.some.inj hc]
      decide
    · rw [List.getLast?_append_of_ne_nil _ e.line_ne_nil, e.getLast_line] at hc
      rw [← Option.some.inj hc]
      decide
  rw [htrim]
  cases hparse : Json.parse (front ++ e.line) with
  | none => rfl
  | some msg =>
    have hblank := e.opens_line.blank_of_parse e.parse_line hparse (unit '\x7b')
      (List.mem_of_mem_head? hfront)
    exact absurd hblank (by decide)

end ControlEvent

namespace BridgeClient

/-- The events that are applied behind a front: it spoils the first. -/
def applied {α : Type*} (front : JsString) (events : List α) : List α :=
  if front.isEmpty then events else events.tail

theorem applied_sublist {α : Type*} (front : JsString) (events : List α) :
    (applied front events).Sublist events := by
  unfold applied
  split
  · exact List.Sublist.refl events
  · exact List.tail_sublist events

theorem map_applied {α β : Type*} (f : α → β) (front : JsString) (events : List α) :
    (applied front events).map f = applied front (events.map f) := by
  unfold applied
  split
  · rfl
  · exact List.map_tail

/-- What is missed of the events behind a front is the first. -/
theorem mem_applied {α : Type*} (front : JsString) {events : List α} {e : α} (he : e ∈ events) :
    e ∈ applied front events ∨ (front ≠ [] ∧ events.head? = some e) := by
  unfold applied
  cases front with
  | nil => exact Or.inl he
  | cons c front =>
    cases events with
    | nil => cases he
    | cons first later =>
      rcases List.mem_cons.mp he with rfl | hlater
      · exact Or.inr ⟨List.cons_ne_nil _ _, rfl⟩
      · exact Or.inl hlater

section

variable (numberText : Decimal → JsString) (textNumber : JsString → Option ℚ)

/-- An event behind the beginning of an object changes nothing. -/
theorem onLine_behind (c : BridgeClient) {front : JsString}
    (hfront : front.head? = some (unit '\x7b')) (e : ControlEvent) :
    onLine numberText textNumber c (front ++ e.line) = c := by
  unfold onLine
  simp only [e.parse_behind hfront, ite_self]

theorem foldl_onLine_joined (c : BridgeClient) {front : JsString} (hfront : Unfinished front)
    (events : List ControlEvent) :
    (Lines.joined front (events.map ControlEvent.line)).foldl (onLine numberText textNumber) c =
      (applied front events).foldl after c := by
  cases events with
  | nil =>
    unfold applied
    split
    · rfl
    · rfl
  | cons e events =>
    rcases hfront.2 with rfl | hopen
    · exact foldl_onLine numberText textNumber c (e :: events)
    · have hne : front.isEmpty = false := by
        cases front with
        | nil => cases hopen
        | cons c front => rfl
      rw [List.map_cons, Lines.joined, List.foldl_cons,
        onLine_behind numberText textNumber c hopen, foldl_onLine, applied, hne]
      rfl

/-- **A chunk of the handler's lines behind a front.** -/
theorem onData_behind {c : BridgeClient} {chunk part front : JsString}
    {events : List ControlEvent} (hfront : Unfinished front)
    (hchunk : c.lineBuf ++ chunk =
      front ++ ((events.flatMap fun e => e.line ++ [unit '\n']) ++ part))
    (hpart : unit '\n' ∉ part) :
    onData numberText textNumber c chunk =
      { (applied front events).foldl after c with
        lineBuf := (if events.isEmpty then front else []) ++ part } := by
  have hlines : ∀ line ∈ Lines.joined front (events.map ControlEvent.line), unit '\n' ∉ line := by
    have hplain : ∀ e : ControlEvent, unit '\n' ∉ e.line := fun e hmem =>
      absurd (e.isPlain_line _ hmem) (by decide)
    cases events with
    | nil => exact List.forall_mem_nil _
    | cons e events =>
      refine List.forall_mem_cons.mpr ⟨fun hmem => ?_, fun line hline => ?_⟩
      · exact (List.mem_append.mp hmem).elim hfront.1 (hplain e)
      · obtain ⟨e', -, rfl⟩ := List.mem_map.mp hline
        exact hplain e'
  have hleft : unit '\n' ∉ (if events.isEmpty then front else []) ++ part := by
    intro hmem
    rcases List.mem_append.mp hmem with hmem | hmem
    · split at hmem
      · exact hfront.1 hmem
      · cases hmem
    · exact hpart hmem
  have htext : c.lineBuf ++ chunk =
      (Lines.joined front (events.map ControlEvent.line)).flatMap (· ++ [unit '\n']) ++
        ((if events.isEmpty then front else []) ++ part) := by
    rw [hchunk]
    cases events with
    | nil => rfl
    | cons e events => simp [Lines.joined, List.flatMap_map]
  have hdrains : (lineDeframer (unit '\n')).Drains (c.lineBuf ++ chunk)
      ((Lines.joined front (events.map ControlEvent.line)).map id)
      ((if events.isEmpty then front else []) ++ part) := by
    rw [htext]
    apply Deframer.Drains.encoded
    · intro line hline rest
      rw [List.append_assoc, List.singleton_append]
      exact Lines.next_line (hlines line hline) rest
    · exact Lines.next_more hleft
  have hpush : (lineDeframer (unit '\n')).push c.lineBuf chunk =
      (Lines.joined front (events.map ControlEvent.line),
        (if events.isEmpty then front else []) ++ part) := by
    rw [List.map_id] at hdrains
    exact hdrains.drain_eq
  unfold onData
  rw [hpush]
  simp only [foldl_onLine_joined numberText textNumber c hfront]

end

end BridgeClient

namespace BridgeSync

open IpcSocket

/-! ## In every interleaving

Beside the client runs a clean one, which begins each connection with an empty buffer: of it
the invariant of `BridgeSync` holds in every run.  The client has missed at most the first line
of each connection that the clean one has read. -/

/-- The client has applied these emissions and nothing else. -/
structure Applies (s : State) (applied : List (Popped Emission)) : Prop where
  inOrder : applied.Sublist s.socket.popped
  arrived : ∀ x ∈ applied, x ∈ arrived s x.conn
  /-- Of the lines of a connection that arrive, the first one may be missed. -/
  missed : ∀ x ∈ s.socket.popped, x ∈ BridgeSync.arrived s x.conn →
    x ∈ applied ∨ (BridgeSync.arrived s x.conn).head? = some x
  client : { s.client with lineBuf := [] } =
    (applied.map (·.packet.event)).foldl BridgeClient.after BridgeClient.initial

/-- `clean` is the client that `s` would have if each connection had begun with an empty
buffer. -/
structure Follows (s : State) (clean : BridgeClient) : Prop where
  inv : Inv { s with client := clean }
  front : ∃ front, Unfinished front ∧ s.client.lineBuf = front ++ clean.lineBuf ∧
    (front ≠ [] → ∀ c, s.conn = some c → arrived s c = [])
  applied : ∃ applied, Applies s applied

theorem follows_initial : Follows initial BridgeClient.initial where
  inv := inv_initial
  front := ⟨[], unfinished_nil, rfl, fun h => absurd rfl h⟩
  applied := ⟨[], List.Sublist.refl _, List.forall_mem_nil _, fun x hx => (by cases hx), rfl⟩

theorem mem_popped_of_arrived {s : State} {x : Popped Emission} {c : Nat}
    (h : x ∈ arrived s c) : x ∈ s.socket.popped :=
  List.mem_of_mem_filter (List.mem_of_mem_take h)

/-- A step of the socket that the client does not see. -/
theorem Applies.socket_step {s : State} {applied : List (Popped Emission)} (h : Applies s applied)
    {socket : IpcSocket.State Emission UInt8}
    (harrived : ∀ c, BridgeSync.arrived { s with socket } c = BridgeSync.arrived s c)
    (hpopped : s.socket.popped <+: socket.popped) : Applies { s with socket } applied where
  inOrder := h.inOrder.trans hpopped.sublist
  arrived x hx := by
    rw [harrived]
    exact h.arrived x hx
  missed x _ hx := by
    rw [harrived] at hx ⊢
    exact h.missed x (mem_popped_of_arrived hx) hx
  client := h.client

theorem Follows.socket_step {s : State} {clean : BridgeClient} (h : Follows s clean)
    {socket : IpcSocket.State Emission UInt8} (hinv : Inv { s with socket, client := clean })
    (hstream : ∀ c, s.socket.stream c <+: socket.stream c)
    (hpopped : s.socket.popped <+: socket.popped) : Follows { s with socket } clean := by
  have harrived : ∀ c, arrived { s with socket } c = arrived s c := fun c =>
    (arrived_congr (s := s) (t := { s with socket }) (h.inv.framed c) rfl (h.inv.read_le c)
      (hstream c) hpopped).1
  obtain ⟨front, hfront, hbuf, hfirst⟩ := h.front
  obtain ⟨applied, happlied⟩ := h.applied
  refine ⟨hinv, ⟨front, hfront, hbuf, fun hne c hc => ?_⟩, applied,
    happlied.socket_step harrived hpopped⟩
  rw [harrived]
  exact hfirst hne c hc

/-- No step of the socket takes back what was popped or written. -/
theorem socketStep_grows {s t : IpcSocket.State Emission UInt8} {a : IpcSocket.Action Emission}
    (h : socketStep s a = some t) :
    (∀ c, s.stream c <+: t.stream c) ∧ s.popped <+: t.popped := by
  by_cases hconnect : a = .connect
  · subst hconnect
    obtain rfl := Option.some.inj h
    exact ⟨fun c => List.prefix_refl _, List.prefix_refl _⟩
  · by_cases henqueue : ∃ packet, a = .enqueue packet
    · obtain ⟨packet, rfl⟩ := henqueue
      obtain rfl := Option.some.inj h
      obtain ⟨-, -, -, hstream, hpopped⟩ :=
        enqueue_keeps (SocketName.maxQueue .bridge) s packet
      exact ⟨fun c => hstream ▸ List.prefix_refl _, hpopped ▸ List.prefix_refl _⟩
    · obtain ⟨-, -, -, hstream, hpopped⟩ :=
        step_adds hconnect (fun packet heq => henqueue ⟨packet, heq⟩) h
      exact ⟨hstream, hpopped⟩

/-- A line that has not ended is the beginning of an object. -/
theorem unfinished_part {s : State} {c : Nat} {part : List UInt8}
    (hframed : Framed emitControl (packetsFor s.socket.popped c) (s.socket.stream c))
    (hpart : 0x0A ∉ part) (htake : (s.socket.stream c).take (s.read c) =
      ((arrived s c).flatMap fun x => emitControl x.packet) ++ part) :
    Unfinished (decode part) := by
  have hpre := (List.take_prefix (s.read c) _).trans hframed.isPrefix
  have hsplit : sentOn s.socket.popped c = arrived s c ++
      (sentOn s.socket.popped c).drop (((s.socket.stream c).take (s.read c)).count 0x0A) :=
    (List.take_append_drop _ _).symm
  rw [htake, packetsFor_flatMap, hsplit, List.flatMap_append] at hpre
  have hnext := (List.prefix_append_right_inj _).mp hpre
  refine ⟨lf_not_mem_decode hpart, ?_⟩
  cases part with
  | nil => exact Or.inl rfl
  | cons b part =>
    refine Or.inr ?_
    generalize (sentOn s.socket.popped c).drop _ = rest at hnext
    cases rest with
    | nil => cases List.prefix_nil.mp hnext
    | cons x rest =>
      have hhead : (body x.packet ++ [0x0A]).head? = some 0x7B := by
        rw [List.head?_append, body, List.head?_map, x.packet.event.head_line]
        rfl
      obtain ⟨more, hmore⟩ := hnext
      have hb := congrArg List.head? hmore
      rw [List.flatMap_cons, List.head?_append, List.head?_append, hhead] at hb
      obtain rfl : b = 0x7B := Option.some.inj hb
      rfl

/-- The lines that a chunk completes. -/
theorem Applies.data {s t : State} {applied new rest : List (Popped Emission)} {c : Nat}
    {front : JsString} (h : Applies s applied) (hnodup : s.socket.popped.Nodup)
    (horder : s.socket.popped.Pairwise fun a b => a.conn ≤ b.conn)
    (hsocket : t.socket = s.socket) (hconn : ∀ x ∈ s.socket.popped, x.conn ≤ c)
    (hsent : sentOn s.socket.popped c = BridgeSync.arrived s c ++ (new ++ rest))
    (harrived : BridgeSync.arrived t c = BridgeSync.arrived s c ++ new)
    (hother : ∀ d, d ≠ c → BridgeSync.arrived t d = BridgeSync.arrived s d)
    (hfirst : front ≠ [] → BridgeSync.arrived s c = [])
    (hclient : { t.client with lineBuf := [] } =
      { ((BridgeClient.applied front new).map (·.packet.event)).foldl BridgeClient.after
        s.client with lineBuf := [] }) :
    Applies t (applied ++ BridgeClient.applied front new) := by
  have hnew : ∀ x ∈ new, x.conn = c := by
    intro x hx
    have hmem : x ∈ sentOn s.socket.popped c := by
      rw [hsent]
      exact List.mem_append_right _ (List.mem_append_left _ hx)
    exact (mem_sentOn.mp hmem).2
  constructor
  case inOrder =>
    rw [hsocket]
    have hsub := received_append_sublist hnodup horder hconn hsent h.inOrder
      fun x hx hxc => hxc ▸ h.arrived x hx
    exact ((BridgeClient.applied_sublist front new).append_left applied).trans hsub
  case arrived =>
    intro x hx
    rcases List.mem_append.mp hx with hold | hx
    · by_cases hxc : x.conn = c
      · rw [hxc, harrived]
        exact List.mem_append_left _ (hxc ▸ h.arrived x hold)
      · rw [hother _ hxc]
        exact h.arrived x hold
    · have hx := (BridgeClient.applied_sublist front new).subset hx
      rw [hnew x hx, harrived]
      exact List.mem_append_right _ hx
  case missed =>
    intro x hx harr
    rw [hsocket] at hx
    by_cases hxc : x.conn = c
    · rw [hxc, harrived] at harr ⊢
      rcases List.mem_append.mp harr with hold | hmem
      · rcases h.missed x hx (hxc.symm ▸ hold) with happ | hhead
        · exact Or.inl (List.mem_append_left _ happ)
        · rw [hxc] at hhead
          exact Or.inr (by rw [List.head?_append, hhead, Option.some_or])
      · rcases BridgeClient.mem_applied front hmem with happ | ⟨hne, hhead⟩
        · exact Or.inl (List.mem_append_right _ happ)
        · exact Or.inr (by rw [hfirst hne, List.nil_append, hhead])
    · rw [hother _ hxc] at harr ⊢
      exact (h.missed x hx harr).imp_left (List.mem_append_left _)
  case client =>
    rw [hclient, List.map_append, List.foldl_append, ← h.client, BridgeClient.foldl_after,
      BridgeClient.foldl_after]

section

variable (numberText : Decimal → JsString) (textNumber : JsString → Option ℚ)

/-- A chunk that completes the lines of some emissions, behind a front. -/
theorem onData_emissions_behind {client : BridgeClient} {chunk part part' : List UInt8}
    {front : JsString} {new : List (Popped Emission)} (hfront : Unfinished front)
    (hbuf : client.lineBuf = front ++ decode part)
    (hlines : part ++ chunk = (new.flatMap fun x => emitControl x.packet) ++ part')
    (hpart' : 0x0A ∉ part') :
    client.onData numberText textNumber (decode chunk) =
      { ((BridgeClient.applied front new).map (·.packet.event)).foldl BridgeClient.after client with
        lineBuf := (if new.isEmpty then front else []) ++ decode part' } := by
  have hevents := decode_flatMap (new.map (·.packet))
  rw [List.flatMap_map, List.map_map] at hevents
  have hempty : new.isEmpty = (new.map (·.packet.event)).isEmpty := by
    cases new <;> rfl
  rw [BridgeClient.map_applied, hempty]
  apply BridgeClient.onData_behind numberText textNumber hfront
  · rw [hbuf, List.append_assoc]
    congr 1
    unfold decode
    rw [← List.map_append, hlines, List.map_append]
    exact congrArg (· ++ _) hevents
  · exact lf_not_mem_decode hpart'

theorem Follows.buffer {s : State} {clean : BridgeClient} (h : Follows s clean) {c : Nat}
    (hconn : s.conn = some c) : ∃ part, 0x0A ∉ part ∧ clean.lineBuf = decode part ∧
      (s.socket.stream c).take (s.read c) =
        ((arrived s c).flatMap fun x => emitControl x.packet) ++ part := h.inv.buffer c hconn

/-- A `data` event. -/
theorem Follows.data {s : State} {clean : BridgeClient} (h : Follows s clean) {c n : Nat}
    (hconn : s.conn = some c) (hn : s.read c + n ≤ (s.socket.stream c).length) :
    Follows { s with
        client := s.client.onData numberText textNumber
          (decode (((s.socket.stream c).drop (s.read c)).take n))
        read := Function.update s.read c (s.read c + n) }
      (clean.onData numberText textNumber
        (decode (((s.socket.stream c).drop (s.read c)).take n))) := by
  have hinv := h.inv.data numberText textNumber (c := c) (n := n) hconn hn
  obtain ⟨part, -, hbuf, htake⟩ := h.buffer hconn
  obtain ⟨front, hfront, hreal, hfirst⟩ := h.front
  obtain ⟨applied, happlied⟩ := h.applied
  generalize ht : ({ s with
    client := s.client.onData numberText textNumber
      (decode (((s.socket.stream c).drop (s.read c)).take n))
    read := Function.update s.read c (s.read c + n) } : State) = t
  have hsocket : t.socket = s.socket := by rw [← ht]
  have hsame : t.conn = some c := by rw [← ht]; exact hconn
  have hread : t.read c = s.read c + n := by
    rw [← ht]
    exact Function.update_self ..
  have hother : ∀ d, d ≠ c → arrived t d = arrived s d := by
    intro d hd
    unfold arrived
    rw [hsocket, ← ht]
    simp only [Function.update_of_ne hd]
  obtain ⟨new, rest, part', hsent, harrived, hpart', -, hlines⟩ :=
    read_more (s := s) (h.inv.framed c) hsocket hread htake
  have hclean := onData_emissions numberText textNumber hbuf hlines hpart'
  have hclient : t.client = _ :=
    (congrArg State.client ht).symm.trans
      (onData_emissions_behind numberText textNumber hfront (hbuf ▸ hreal) hlines hpart')
  refine ⟨by rw [← ht]; exact hinv, ⟨if new.isEmpty then front else [], ?_, ?_, ?_⟩,
    applied ++ BridgeClient.applied front new, ?_⟩
  · split
    · exact hfront
    · exact unfinished_nil
  · rw [hclient, hclean]
  · intro hne d hd
    obtain rfl : c = d := Option.some.inj (hsame.symm.trans hd)
    cases new with
    | nil => rw [harrived, List.append_nil, hfirst hne c hconn]
    | cons x new => exact absurd rfl hne
  · refine happlied.data h.inv.popped_nodup h.inv.socket.2.conns hsocket ?_ hsent harrived hother
      (fun hne => hfirst hne c hconn) (by rw [hclient])
    intro x hx
    have hlt := (h.inv.socket.2.known x hx).1
    have hreturned := h.inv.returned_le
    have hlast : c + 1 = s.socket.connected := h.inv.conn c hconn
    show x.conn ≤ c
    have hconnected : x.conn < s.socket.connected := lt_of_lt_of_le hlt hreturned
    omega

/-- The client closes its connection; what the clean one had of a line is gone. -/
theorem Follows.close {s : State} {clean : BridgeClient} (h : Follows s clean) {c : Nat}
    (hconn : s.conn = some c) :
    Follows { s with conn := none } { clean with lineBuf := [] } := by
  obtain ⟨part, hpart, hbuf, htake⟩ := h.buffer hconn
  obtain ⟨front, hfront, hreal, -⟩ := h.front
  obtain ⟨applied, happlied⟩ := h.applied
  have hunfinished := unfinished_part (s := s) (h.inv.framed c) hpart htake
  constructor
  case inv =>
    refine ⟨h.inv.socket, h.inv.returned_le, h.inv.numbers, ?_, h.inv.read_le, h.inv.unread, ?_,
      fun _ => rfl, h.inv.received⟩
    · intro d hd
      cases hd
    · intro d hd
      cases hd
  case front =>
    refine ⟨s.client.lineBuf, ?_, (List.append_nil _).symm, fun _ d hd => by cases hd⟩
    rw [hreal]
    exact hfront.append (hbuf ▸ hunfinished)
  case applied =>
    exact ⟨applied, happlied.inOrder, happlied.arrived, happlied.missed, happlied.client⟩

/-- **Every step is followed.** -/
theorem Follows.step {s t : State} {clean : BridgeClient} {a : Action} (h : Follows s clean)
    (hstep : step numberText textNumber s a = some t) : ∃ clean', Follows t clean' := by
  cases a with
  | emit e =>
    simp only [BridgeSync.step] at hstep
    obtain ⟨socket, hsocket, rfl⟩ := Option.map_eq_some_iff.mp hstep
    obtain ⟨hstream, hpopped⟩ := socketStep_grows hsocket
    have hclean : BridgeSync.step numberText textNumber { s with client := clean } (.emit e) =
        some { s with socket, client := clean } := by
      simp only [BridgeSync.step]
      exact Option.map_eq_some_iff.mpr ⟨socket, hsocket, rfl⟩
    exact ⟨clean, h.socket_step (h.inv.emit numberText textNumber hclean) hstream hpopped⟩
  | handler a =>
    simp only [BridgeSync.step] at hstep
    split at hstep
    · cases hstep
    · cases hstep
    · obtain ⟨socket, hsocket, rfl⟩ := Option.map_eq_some_iff.mp hstep
      obtain ⟨hstream, hpopped⟩ := socketStep_grows hsocket
      have hclean : BridgeSync.step numberText textNumber { s with client := clean } (.handler a) =
          some { s with socket, client := clean } := by
        simp only [BridgeSync.step]
        exact Option.map_eq_some_iff.mpr ⟨socket, hsocket, rfl⟩
      exact ⟨clean, h.socket_step (h.inv.handler numberText textNumber hclean) hstream hpopped⟩
  | connect =>
    simp only [BridgeSync.step] at hstep
    obtain ⟨hnone, hstep⟩ := Option.ite_none_right_eq_some.mp hstep
    obtain ⟨socket, hsocket, rfl⟩ := Option.map_eq_some_iff.mp hstep
    have hclean : BridgeSync.step numberText textNumber { s with client := clean } .connect =
        some { s with socket, client := clean, conn := some s.socket.connected } := by
      simp only [BridgeSync.step]
      exact Option.ite_none_right_eq_some.mpr
        ⟨hnone, Option.map_eq_some_iff.mpr ⟨socket, hsocket, rfl⟩⟩
    have hinv := h.inv.connect numberText textNumber hclean
    obtain rfl := Option.some.inj hsocket
    obtain ⟨front, hfront, hbuf, -⟩ := h.front
    obtain ⟨applied, happlied⟩ := h.applied
    refine ⟨clean, hinv, ⟨front, hfront, hbuf, fun _ c hc => ?_⟩, applied, happlied.inOrder,
      happlied.arrived, happlied.missed, happlied.client⟩
    obtain rfl := Option.some.inj hc
    show List.take (((s.socket.stream _).take (s.read _)).count 0x0A) _ = []
    have hunread : s.read s.socket.connected = 0 := h.inv.unread _ (Nat.le_refl _)
    rw [hunread]
    rfl
  | data n =>
    simp only [BridgeSync.step] at hstep
    split at hstep
    · cases hstep
    · rename_i c hconn
      obtain ⟨hn, hstep⟩ := Option.ite_none_right_eq_some.mp hstep
      obtain rfl := Option.some.inj hstep
      exact ⟨_, h.data numberText textNumber hconn hn⟩
  | close =>
    simp only [BridgeSync.step] at hstep
    split at hstep
    · cases hstep
    · rename_i hconn
      obtain ⟨c, hc⟩ := Option.ne_none_iff_exists'.mp hconn
      obtain rfl := Option.some.inj hstep
      exact ⟨_, h.close hc⟩

theorem exists_follows {actions : List Action} {s : State}
    (hrun : Transition.run (step numberText textNumber) initial actions = some s) :
    ∃ clean, Follows s clean := by
  refine Transition.run_invariant (I := fun s => ∃ clean, Follows s clean) ?_
    ⟨_, follows_initial⟩ hrun
  rintro s a t ⟨clean, h⟩ hstep
  exact h.step numberText textNumber hstep

/-- **The server applies emissions in the order in which they were made**, each at most
once, in every interleaving: whatever is dropped, cut short or closed in the middle of a
line, the status and the size of the video are what a subsequence of the emissions makes of
them, and the lines that arrive are all applied but the first one of a connection. -/
theorem applied_in_order (actions : List Action) :
    Transition.Throughout (step numberText textNumber)
      (fun s => ∃ applied, Applies s applied ∧
        (applied.map (·.packet)).Sublist s.socket.enqueued) initial actions := by
  refine Transition.throughout_of_invariant (I := fun s => ∃ clean, Follows s clean) ?_ ?_
    ⟨_, follows_initial⟩ actions
  · rintro s ⟨clean, h⟩
    obtain ⟨applied, happlied⟩ := h.applied
    exact ⟨applied, happlied, (happlied.inOrder.map _).trans h.inv.socket.sound.in_order⟩
  · rintro s a t ⟨clean, h⟩ hstep
    exact h.step numberText textNumber hstep

end

end BridgeSync

end Whutfa
