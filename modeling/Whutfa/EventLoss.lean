import Whutfa.AppliedEvents

/-! # What the bridge loses

The bridge from `emit_control` to the server's status as a channel of events.  In
`AppliedEvents` no interleaving does more to the events than to lose some of them; here
there is one for every choice of those that are lost.  So the bridge is exactly a channel
that may lose any event, and keeps the order of the others (`outcome_iff`): nothing can be
said of the server's status that is not true of every part of what was emitted.  What is
lost is not made up for: once nothing is on its way, the status stays as it is until
something is emitted (`Settled.run`).  Connections are told apart as in `BridgeSync`.
-/
namespace Whutfa.BridgeSync

open JsString IpcSocket

/-- The client is connected and has read all, the handler has nothing to send, and this is
the last connection that was made. -/
structure Listening (s : State) (c : Nat) : Prop where
  conn : s.conn = some c
  installed : s.socket.clientFd = some c
  waiting : s.socket.sender = .waiting
  queue : s.socket.txQueue = []
  accepting : s.socket.accepting = none
  connected : s.socket.connected = c + 1
  returned : s.socket.returned = c + 1
  closed : ∀ d ∈ s.socket.closed, d < c
  read : s.read c = (s.socket.stream c).length
  fresh : ∀ d, c < d → s.socket.stream d = [] ∧ s.read d = 0
  buffer : s.client.lineBuf = []

/-- The socket when one more event has been emitted and written on `c`. -/
def written (s : State) (c : Nat) (e : ControlEvent) : IpcSocket.State Emission UInt8 :=
  let emission : Emission := { number := s.socket.enqueued.length, event := e }
  { s.socket with
    txQueue := []
    sender := .waiting
    stream := Function.update s.socket.stream c (s.socket.stream c ++ emitControl emission)
    enqueued := s.socket.enqueued ++ [emission]
    accepted := s.socket.accepted ++ [emission]
    popped := s.socket.popped ++
      [{ index := (s.socket.accepted ++ [emission]).length - 1, packet := emission, conn := c }] }

section

variable (numberText : Decimal → JsString) (textNumber : JsString → Option ℚ)

/-- The client connects before anything is emitted. -/
theorem exists_listening : ∃ actions s,
    Transition.run (step numberText textNumber) initial actions = some s ∧ Listening s 0 ∧
      s.client = BridgeClient.initial ∧ s.socket.enqueued = [] := by
  refine ⟨[.connect, .handler .accept, .handler .install], _, rfl, ?_, rfl, rfl⟩
  exact ⟨rfl, rfl, rfl, rfl, rfl, rfl, rfl, List.forall_mem_nil _, rfl, fun _ _ => ⟨rfl, rfl⟩, rfl⟩

/-- An event goes through the queue and is written at once. -/
theorem Listening.write {s : State} {c : Nat} (h : Listening s c) (e : ControlEvent) :
    ∃ actions, Transition.run (step numberText textNumber) s actions =
      some { s with socket := written s c e } := by
  let emission : Emission := { number := s.socket.enqueued.length, event := e }
  have hpos : 0 < (emitControl emission).length := by simp [emitControl]
  have hopen : c ∉ s.socket.closed := fun hc => Nat.lt_irrefl c (h.closed c hc)
  refine ⟨[.emit e, .handler .pop, .handler (.write (emitControl emission).length),
    .handler .done], ?_⟩
  simp [Transition.run, step, socketStep, IpcSocket.step, enqueue, makeRoom, pop, written,
    emission, hpos, hopen, h.installed, h.waiting, h.queue]

/-- **An event arrives**: it is read in one chunk. -/
theorem Listening.deliver {s : State} {c : Nat} (h : Listening s c) (e : ControlEvent) :
    ∃ actions t, Transition.run (step numberText textNumber) s actions = some t ∧
      Listening t c ∧ t.client = s.client.after e ∧
      t.socket.enqueued.map (·.event) = s.socket.enqueued.map (·.event) ++ [e] := by
  let emission : Emission := { number := s.socket.enqueued.length, event := e }
  obtain ⟨actions, hwrite⟩ := h.write numberText textNumber e
  have hstream : (written s c e).stream c = s.socket.stream c ++ emitControl emission :=
    Function.update_self ..
  have hclient : s.client.onData numberText textNumber (decode (emitControl emission)) =
      s.client.after e := by
    have hdecode : decode (emitControl emission) = e.line ++ [unit '\n'] := by
      simpa using decode_flatMap [emission]
    have hchunk : s.client.lineBuf ++ (e.line ++ [unit '\n']) =
        ([e].flatMap fun e => e.line ++ [unit '\n']) ++ [] := by simp [h.buffer]
    rw [hdecode, BridgeClient.onData_lines numberText textNumber hchunk List.not_mem_nil,
      ← h.buffer]
    rfl
  have hdata : step numberText textNumber { s with socket := written s c e }
      (.data (emitControl emission).length) = some { s with
        socket := written s c e
        client := s.client.after e
        read := Function.update s.read c (s.read c + (emitControl emission).length) } := by
    simp only [step, h.conn, hstream, List.length_append, h.read, Nat.le_refl, if_true]
    rw [List.drop_left, List.take_length, hclient]
  refine ⟨_, _, Transition.run_concat hwrite hdata, ?_, rfl, List.map_append ..⟩
  refine ⟨h.conn, h.installed, rfl, rfl, h.accepting, h.connected, h.returned, h.closed, ?_,
    fun d hd => ?_, h.buffer⟩
  · show Function.update s.read c _ c = ((written s c e).stream c).length
    rw [Function.update_self, hstream, List.length_append, h.read]
  · have hne : d ≠ c := Nat.ne_of_gt hd
    obtain ⟨hnone, hzero⟩ := h.fresh d hd
    exact ⟨(Function.update_of_ne hne ..).trans hnone, (Function.update_of_ne hne ..).trans hzero⟩

/-- **An event is lost**: it has been written when the client closes and connects again. -/
theorem Listening.lose {s : State} {c : Nat} (h : Listening s c) (e : ControlEvent) :
    ∃ actions t, Transition.run (step numberText textNumber) s actions = some t ∧
      Listening t (c + 1) ∧ t.client = s.client ∧
      t.socket.enqueued.map (·.event) = s.socket.enqueued.map (·.event) ++ [e] := by
  obtain ⟨actions, hwrite⟩ := h.write numberText textNumber e
  have hreconnect : Transition.run (step numberText textNumber) { s with socket := written s c e }
      [.close, .connect, .handler .accept, .handler .install] = some { s with
        socket := { written s c e with
          accepting := none
          connected := c + 2
          returned := c + 2
          clientFd := some (c + 1)
          closed := c :: s.socket.closed }
        conn := some (c + 1) } := by
    simp [Transition.run, step, socketStep, IpcSocket.step, install, written, h.conn, h.accepting,
      h.connected, h.returned, h.installed]
  refine ⟨_, _, Transition.run_append_eq_some.mpr ⟨_, hwrite, hreconnect⟩, ?_, rfl,
    List.map_append ..⟩
  refine ⟨rfl, rfl, rfl, rfl, rfl, rfl, rfl, ?_, ?_, fun d hd => ?_, h.buffer⟩
  · intro d hd
    rcases List.mem_cons.mp hd with rfl | hd
    · exact Nat.lt_succ_self d
    · exact Nat.lt_succ_of_lt (h.closed d hd)
  · obtain ⟨hnone, hzero⟩ := h.fresh (c + 1) (Nat.lt_succ_self c)
    have hstream : (written s c e).stream (c + 1) = s.socket.stream (c + 1) :=
      Function.update_of_ne (Nat.succ_ne_self c) ..
    show s.read (c + 1) = ((written s c e).stream (c + 1)).length
    rw [hstream, hnone, hzero]
    rfl
  · obtain ⟨hnone, hzero⟩ := h.fresh d (Nat.lt_of_succ_lt hd)
    exact ⟨(Function.update_of_ne (Nat.ne_of_gt (Nat.lt_of_succ_lt hd)) ..).trans hnone, hzero⟩

/-- Any part of some events can arrive. -/
theorem Listening.keep {s : State} {c : Nat} (h : Listening s c) {kept events : List ControlEvent}
    (hkept : kept.Sublist events) :
    ∃ actions t d, Transition.run (step numberText textNumber) s actions = some t ∧
      Listening t d ∧ t.client = kept.foldl BridgeClient.after s.client ∧
      t.socket.enqueued.map (·.event) = s.socket.enqueued.map (·.event) ++ events := by
  induction hkept generalizing s c with
  | slnil => exact ⟨[], s, c, rfl, h, rfl, (List.append_nil _).symm⟩
  | cons e _ ih =>
    obtain ⟨first, t, hfirst, hlistening, hclient, hemitted⟩ := h.lose numberText textNumber e
    obtain ⟨later, u, d, hlater, hlistening', hclient', hemitted'⟩ := ih hlistening
    refine ⟨first ++ later, u, d, Transition.run_append_eq_some.mpr ⟨t, hfirst, hlater⟩,
      hlistening', ?_, ?_⟩
    · rw [hclient', hclient]
    · rw [hemitted', hemitted, List.append_assoc, List.singleton_append]
  | cons_cons e _ ih =>
    obtain ⟨first, t, hfirst, hlistening, hclient, hemitted⟩ := h.deliver numberText textNumber e
    obtain ⟨later, u, d, hlater, hlistening', hclient', hemitted'⟩ := ih hlistening
    refine ⟨first ++ later, u, d, Transition.run_append_eq_some.mpr ⟨t, hfirst, hlater⟩,
      hlistening', ?_, ?_⟩
    · rw [hclient', hclient, List.foldl_cons]
    · rw [hemitted', hemitted, List.append_assoc, List.singleton_append]

/-! ## When nothing is on its way -/

/-- The send thread waits and has nothing to send, and the client has read all that there is
on its connection, as on those that it has not made yet. -/
structure Settled (s : State) : Prop where
  waiting : s.socket.sender = .waiting
  queue : s.socket.txQueue = []
  read : ∀ c, s.conn = some c ∨ s.socket.connected ≤ c → s.read c = (s.socket.stream c).length
  buffer : s.client.lineBuf = []

theorem Listening.settled {s : State} {c : Nat} (h : Listening s c) : Settled s where
  waiting := h.waiting
  queue := h.queue
  read d hd := by
    rcases hd with hconn | hnew
    · obtain rfl := Option.some.inj (h.conn.symm.trans hconn)
      exact h.read
    · rw [h.connected] at hnew
      obtain ⟨hnone, hzero⟩ := h.fresh d hnew
      rw [hnone, hzero]
      rfl
  buffer := h.buffer

/-- No text completes no line. -/
theorem onData_nil {c : BridgeClient} (h : c.lineBuf = []) :
    c.onData numberText textNumber [] = c := by
  have hnothing : c.lineBuf ++ [] =
      (([] : List ControlEvent).flatMap fun e => e.line ++ [unit '\n']) ++ [] := by
    rw [h]
    rfl
  rw [BridgeClient.onData_lines numberText textNumber hnothing List.not_mem_nil, ← h]
  rfl

/-- Without an emission nothing more is written or read, whoever connects. -/
theorem Settled.step {s t : State} (h : Settled s) {a : Action} (ha : ∀ e, a ≠ .emit e)
    (hstep : BridgeSync.step numberText textNumber s a = some t) :
    Settled t ∧ t.client = s.client := by
  cases a with
  | emit e => exact absurd rfl (ha e)
  | handler a =>
    cases a with
    | connect | enqueue => cases hstep
    | accept =>
      obtain ⟨socket, hsocket, rfl⟩ := Option.map_eq_some_iff.mp hstep
      obtain ⟨-, -, rfl⟩ := step_accept hsocket
      exact ⟨⟨h.waiting, h.queue, h.read, h.buffer⟩, rfl⟩
    | install =>
      obtain ⟨socket, hsocket, rfl⟩ := Option.map_eq_some_iff.mp hstep
      obtain ⟨client, -, rfl⟩ := step_install hsocket
      exact ⟨⟨h.waiting, h.queue, h.read, h.buffer⟩, rfl⟩
    | pop | write | interrupted | writeFail | done | dropClient =>
      simp [BridgeSync.step, socketStep, IpcSocket.step, h.waiting, h.queue] at hstep
  | connect =>
    obtain ⟨hconn, hmap⟩ := Option.ite_none_right_eq_some.mp hstep
    obtain ⟨socket, hsocket, rfl⟩ := Option.map_eq_some_iff.mp hmap
    obtain rfl := Option.some.inj hsocket
    refine ⟨⟨h.waiting, h.queue, fun d hd => h.read d (Or.inr ?_), h.buffer⟩, rfl⟩
    rcases hd with heq | hnew
    · exact (Option.some.inj heq).le
    · exact Nat.le_of_succ_le hnew
  | data n =>
    simp only [BridgeSync.step] at hstep
    split at hstep
    · cases hstep
    · rename_i c hconn
      have hread := h.read c (Or.inl hconn)
      obtain ⟨hle, ht⟩ := Option.ite_none_right_eq_some.mp hstep
      obtain rfl : n = 0 := by omega
      obtain rfl := Option.some.inj ht
      have hchunk : s.client.onData numberText textNumber
          (decode (((s.socket.stream c).drop (s.read c)).take 0)) = s.client :=
        onData_nil numberText textNumber h.buffer
      refine ⟨⟨h.waiting, h.queue, fun d hd => ?_,
        (congrArg BridgeClient.lineBuf hchunk).trans h.buffer⟩, hchunk⟩
      show Function.update s.read c (s.read c) d = _
      rw [Function.update_eq_self]
      exact h.read d hd
  | close =>
    obtain ⟨-, ht⟩ := Option.ite_none_left_eq_some.mp hstep
    obtain rfl := Option.some.inj ht
    refine ⟨⟨h.waiting, h.queue, fun d hd => h.read d (hd.imp_left fun heq => ?_), h.buffer⟩, rfl⟩
    cases heq

/-- The client stays as it is until something is emitted. -/
theorem Settled.run {s t : State} (h : Settled s) {more : List Action}
    (hmore : ∀ e, Action.emit e ∉ more)
    (hrun : Transition.run (BridgeSync.step numberText textNumber) s more = some t) :
    t.client = s.client := by
  induction more generalizing s with
  | nil =>
    obtain rfl := Option.some.inj hrun
    rfl
  | cons a more ih =>
    obtain ⟨u, hstep, hrest⟩ := Transition.run_cons_eq_some.mp hrun
    obtain ⟨hu, hclient⟩ := h.step numberText textNumber
      (fun e heq => hmore e (heq ▸ List.mem_cons_self)) hstep
    rw [ih hu (fun e hmem => hmore e (List.mem_cons_of_mem a hmem)) hrest, hclient]

/-! ## The bridge as a channel -/

/-- A status and a size that the server can have when these events have been emitted. -/
def Outcome (events : List ControlEvent) (status : HandlerStatus) (videoConfig : VideoConfig) :
    Prop :=
  ∃ actions s, Transition.run (step numberText textNumber) initial actions = some s ∧
    s.socket.enqueued.map (·.event) = events ∧ s.client.status = status ∧
    s.client.videoConfig = videoConfig

/-- One that is settled, and stays in every continuation in which nothing is emitted. -/
def FinalOutcome (events : List ControlEvent) (status : HandlerStatus)
    (videoConfig : VideoConfig) : Prop :=
  ∃ actions s, Transition.run (step numberText textNumber) initial actions = some s ∧
    s.socket.enqueued.map (·.event) = events ∧ Settled s ∧
    ∀ more t, (∀ e, Action.emit e ∉ more) →
      Transition.run (step numberText textNumber) s more = some t →
        t.client.status = status ∧ t.client.videoConfig = videoConfig

theorem FinalOutcome.outcome {events : List ControlEvent} {status : HandlerStatus}
    {videoConfig : VideoConfig} (h : FinalOutcome numberText textNumber events status videoConfig) :
    Outcome numberText textNumber events status videoConfig := by
  obtain ⟨actions, s, hrun, hemitted, -, hstays⟩ := h
  obtain ⟨hstatus, hvideoConfig⟩ := hstays [] s (fun _ => List.not_mem_nil) rfl
  exact ⟨actions, s, hrun, hemitted, hstatus, hvideoConfig⟩

/-- The server applies a part of the events. -/
theorem Outcome.exists_kept {events : List ControlEvent} {status : HandlerStatus}
    {videoConfig : VideoConfig} (h : Outcome numberText textNumber events status videoConfig) :
    ∃ kept : List ControlEvent, kept.Sublist events ∧
      status = kept.foldl HandlerStatus.after defaultStatus ∧
      videoConfig = kept.foldl VideoConfig.after defaultVideoConfig := by
  obtain ⟨actions, s, hrun, rfl, rfl, rfl⟩ := h
  obtain ⟨clean, hfollows⟩ := exists_follows numberText textNumber hrun
  obtain ⟨applied, happlied⟩ := hfollows.applied
  have hclient := happlied.client
  rw [BridgeClient.foldl_after] at hclient
  have hstatus := congrArg BridgeClient.status hclient
  have hvideoConfig := congrArg BridgeClient.videoConfig hclient
  refine ⟨applied.map fun x : Popped Emission => x.packet.event, ?_, hstatus, hvideoConfig⟩
  have hsub := (happlied.inOrder.map (·.packet)).trans hfollows.inv.socket.sound.in_order
  have hevents := hsub.map Emission.event
  rwa [List.map_map] at hevents

/-- And it can be any part, for good. -/
theorem finalOutcome_of_kept {kept events : List ControlEvent} (h : kept.Sublist events) :
    FinalOutcome numberText textNumber events (kept.foldl HandlerStatus.after defaultStatus)
      (kept.foldl VideoConfig.after defaultVideoConfig) := by
  obtain ⟨first, s, hfirst, hlistening, hclient, hnone⟩ := exists_listening numberText textNumber
  obtain ⟨later, t, c, hlater, hlistening', hclient', hemitted⟩ :=
    hlistening.keep numberText textNumber h
  rw [hclient, BridgeClient.foldl_after] at hclient'
  refine ⟨first ++ later, t, Transition.run_append_eq_some.mpr ⟨s, hfirst, hlater⟩, ?_,
    hlistening'.settled, fun more u hmore hrun => ?_⟩
  · rw [hemitted, hnone]
    rfl
  · have hsame := (hlistening'.settled.run numberText textNumber hmore hrun).trans hclient'
    exact ⟨congrArg BridgeClient.status hsame, congrArg BridgeClient.videoConfig hsame⟩

theorem outcome_of_kept {kept events : List ControlEvent} (h : kept.Sublist events) :
    Outcome numberText textNumber events (kept.foldl HandlerStatus.after defaultStatus)
      (kept.foldl VideoConfig.after defaultVideoConfig) :=
  (finalOutcome_of_kept numberText textNumber h).outcome

/-- **The bridge is a channel that loses any events it will, and does nothing else.**  A
status and a video size are those of the server in some interleaving in which these events
were emitted if and only if some part of the events, in order, makes them of the
defaults. -/
theorem outcome_iff (events : List ControlEvent) (status : HandlerStatus)
    (videoConfig : VideoConfig) :
    Outcome numberText textNumber events status videoConfig ↔
      ∃ kept : List ControlEvent, kept.Sublist events ∧
        status = kept.foldl HandlerStatus.after defaultStatus ∧
        videoConfig = kept.foldl VideoConfig.after defaultVideoConfig := by
  refine ⟨Outcome.exists_kept numberText textNumber, ?_⟩
  rintro ⟨kept, hkept, rfl, rfl⟩
  exact outcome_of_kept numberText textNumber hkept

end

end Whutfa.BridgeSync
