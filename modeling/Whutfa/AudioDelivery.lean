import Whutfa.AnnouncedFormats
import Whutfa.VideoDelivery

/-! # The way of the sound

The stages between the phone and a page for the two kinds of audio, put together: the
sessions' sinks (`SessionChannels`), a socket of the handler for each kind (`IpcSocket`),
the server's handlers of what arrives there (`MediaSockets`) and the one slot for a page
that both broadcast to (`WebSockets`).  A handler of the server keeps nothing from one chunk
to the next and takes a chunk for a packet.  So a packet gets through only at the front of
a chunk, and what comes out of a chunk that begins inside a packet is not the phone's; that
none does is assumed here of all but the end of a connection.

What holds then from end to end is that PCM reaches a page whole, once, in the format of its
kind and, within its kind, in the order in which the phone sent it (`audio_to_page`).  A
descriptor stands for its connection, as in `IpcSocket`, and the PCM of a packet is shorter
than its field can say (`AudioPacket.fits`).
-/
namespace Whutfa

/-! ## Packets at the front of a chunk -/

namespace AudioPacket

theorem frame_injective : Function.Injective frame := by
  rintro ⟨type, rate, channels, bits, timestamp, pcm, _⟩
    ⟨type', rate', channels', bits', timestamp', pcm', _⟩ h
  obtain ⟨htype, hrate, hchannels, hbits, htimestamp, rfl⟩ := AudioFrame.mk.inj h
  obtain rfl := UInt8.toNat_inj.mp htype
  obtain rfl := UInt32.toNat_inj.mp hrate
  obtain rfl := UInt8.toNat_inj.mp hchannels
  obtain rfl := UInt16.toNat_inj.mp hbits
  obtain rfl := UInt64.toNat_inj.mp htimestamp
  rfl

/-- The bytes say where a packet ends. -/
theorem append_inj {p q : AudioPacket} {l m : List UInt8} (h : p.bytes ++ l = q.bytes ++ m) :
    p = q ∧ l = m := by
  have hparse := p.parse_bytes l
  rw [h, q.parse_bytes m] at hparse
  obtain rfl := frame_injective (Option.some.inj (Except.ok.inj hparse))
  exact ⟨rfl, List.append_cancel_left h⟩

/-- Packets that a stream of packets begins with are its first. -/
theorem exists_more {packets whole : List AudioPacket} {l : List UInt8}
    (h : whole.flatMap bytes ++ l <+: packets.flatMap bytes) :
    ∃ more, packets = whole ++ more ∧ l <+: more.flatMap bytes := by
  induction whole generalizing packets with
  | nil => exact ⟨packets, rfl, h⟩
  | cons q whole ih =>
    obtain ⟨unread, happend⟩ := h
    cases packets with
    | nil =>
      have hlength := congrArg List.length happend
      simp only [List.flatMap_cons, List.flatMap_nil, List.length_append, length_bytes,
        List.length_nil] at hlength
      omega
    | cons p packets =>
      rw [List.flatMap_cons, List.flatMap_cons, List.append_assoc, List.append_assoc] at happend
      obtain ⟨rfl, hrest⟩ := append_inj happend
      obtain ⟨more, rfl, hl⟩ := ih ⟨unread, by rw [List.append_assoc, hrest]⟩
      exact ⟨more, rfl, hl⟩

end AudioPacket

/-- A frame is parsed the same, whatever follows. -/
theorem parseAudioPacket_append {buf : List UInt8} {frame : AudioFrame}
    (h : parseAudioPacket buf = .ok (some frame)) (rest : List UInt8) :
    parseAudioPacket (buf ++ rest) = .ok (some frame) := by
  obtain ⟨hlen, rfl⟩ := parseAudioPacket_some h
  have hfield : ∀ offset width, offset + width ≤ 20 →
      ((buf ++ rest).drop offset).take width = (buf.drop offset).take width := by
    intro offset width hle
    rw [List.drop_append_of_le_length (by omega), List.take_append_of_le_length]
    rw [List.length_drop]
    omega
  have hpcm : subarray (buf ++ rest) 20 (20 + BigEndian.decode ((buf.drop 16).take 4)) =
      subarray buf 20 (20 + BigEndian.decode ((buf.drop 16).take 4)) := by
    rw [subarray, List.take_append_of_le_length hlen, subarray]
  have hframe : audioFrameAt (buf ++ rest) = audioFrameAt buf := by
    have htype := hfield 0 1 (by omega)
    rw [List.drop_zero, List.drop_zero] at htype
    rw [audioFrameAt, hfield 16 4 (by omega), hpcm, htype, hfield 1 4 (by omega),
      hfield 5 1 (by omega), hfield 6 2 (by omega), hfield 8 8 (by omega), audioFrameAt]
  rw [parseAudioPacket_of_ge (by rw [List.length_append]; omega), hfield 16 4 (by omega), hframe,
    if_neg (by rw [List.length_append]; omega)]

/-- Of the beginning of a packet nothing is parsed. -/
theorem parseAudioPacket_of_cut {p : AudioPacket} {chunk : List UInt8}
    (hcut : chunk <+: p.bytes) (hshort : chunk.length < p.bytes.length) (frame : AudioFrame) :
    parseAudioPacket chunk ≠ .ok (some frame) := by
  intro h
  obtain ⟨rest, happend⟩ := hcut
  have hwhole := parseAudioPacket_append h rest
  have hparse := p.parse_bytes []
  rw [List.append_nil, ← happend, hwhole] at hparse
  obtain rfl := Option.some.inj (Except.ok.inj hparse)
  have hle := length_of_parseAudioPacket h
  rw [p.length_bytes] at hshort
  exact absurd hle (Nat.not_le.mpr hshort)

/-! ## What the server broadcasts -/

/-- The message `main` broadcasts for a packet of the handler's type. -/
def AudioPacket.message (p : AudioPacket) : List UInt8 := p.frame.bytes

/-- Nothing is left in the `buffer` of a handler that has not thrown. -/
def SocketData.Idle (s : SocketData AudioState) : Prop := s.crashed = false → s.buffer = []

section

variable {stream : AudioStream}

/-- Nothing but the first packet is made of a chunk that begins with packets. -/
theorem receive_prefix {packets : List AudioPacket}
    (htype : ∀ p ∈ packets, p.type.toNat = stream.type) {chunk : List UInt8}
    (hread : chunk <+: packets.flatMap AudioPacket.bytes) {s : SocketData AudioState}
    (hs : s.crashed = false) (hb : s.buffer = []) :
    ∃ taken : List AudioPacket, taken.Sublist packets ∧
      (s.receive (onAudioData stream) chunk).app.messages =
        s.app.messages ++ taken.map AudioPacket.message ∧
      (s.receive (onAudioData stream) chunk).Idle := by
  have hnothing : (∀ frame, parseAudioPacket chunk ≠ .ok (some frame)) →
      (s.receive (onAudioData stream) chunk).app.messages = s.app.messages ∧
        (s.receive (onAudioData stream) chunk).Idle := by
    intro hnone
    cases h : parseAudioPacket chunk with
    | error e =>
      have hdata : onAudioData stream s.app chunk = .error e := by rw [onAudioData, h]; rfl
      rw [SocketData.receive_error hs hb hdata]
      exact ⟨rfl, fun hcrashed => absurd hcrashed Bool.noConfusion⟩
    | ok parsed =>
      cases parsed with
      | none =>
        have hdata : onAudioData stream s.app chunk = .ok s.app := by rw [onAudioData, h]; rfl
        rw [SocketData.receive_ok hs hb hdata]
        exact ⟨rfl, fun _ => rfl⟩
      | some frame => exact absurd h (hnone frame)
  cases packets with
  | nil =>
    obtain rfl := List.prefix_nil.mp hread
    have hempty : parseAudioPacket [] = .ok none := rfl
    obtain ⟨hmessages, hidle⟩ := hnothing fun frame h => by
      rw [hempty] at h
      cases h
    exact ⟨[], List.nil_sublist _, by rw [hmessages, List.map_nil, List.append_nil], hidle⟩
  | cons p packets =>
    rcases Nat.lt_or_ge chunk.length p.bytes.length with hshort | hlong
    · have hcut : chunk <+: p.bytes :=
        List.prefix_of_prefix_length_le hread (List.prefix_append _ _) hshort.le
      obtain ⟨hmessages, hidle⟩ := hnothing (parseAudioPacket_of_cut hcut hshort)
      exact ⟨[], List.nil_sublist _, by rw [hmessages, List.map_nil, List.append_nil], hidle⟩
    · obtain ⟨rest, rfl⟩ : p.bytes <+: chunk :=
        List.prefix_of_prefix_length_le (List.prefix_append _ _) hread hlong
      rw [SocketData.receive_ok hs hb
        (onAudioData_bytes (htype p (List.mem_cons_self ..)) s.app rest)]
      exact ⟨[p], List.singleton_sublist.mpr (List.mem_cons_self ..), rfl, fun _ => rfl⟩

/-- What is broadcast of a connection. -/
theorem connection_prefix {chunks : List (List UInt8)} {packets : List AudioPacket}
    (htype : ∀ p ∈ packets, p.type.toNat = stream.type)
    (hread : chunks.flatten <+: packets.flatMap AudioPacket.bytes)
    (haligned : ∀ chunk ∈ chunks.dropLast, ∃ whole : List AudioPacket,
      chunk = whole.flatMap AudioPacket.bytes)
    {s : SocketData AudioState} (hidle : s.Idle) :
    ∃ taken : List AudioPacket, taken.Sublist packets ∧
      (s.connection (onAudioData stream) chunks).app.messages =
        s.app.messages ++ taken.map AudioPacket.message ∧
      (s.connection (onAudioData stream) chunks).Idle := by
  induction chunks generalizing s packets with
  | nil => exact ⟨[], List.nil_sublist _, (List.append_nil _).symm, hidle⟩
  | cons chunk chunks ih =>
    cases hs : s.crashed with
    | true =>
      rw [SocketData.connection_of_crashed hs]
      exact ⟨[], List.nil_sublist _, (List.append_nil _).symm, hidle⟩
    | false =>
      rw [List.flatten_cons] at hread
      rw [SocketData.connection, List.foldl_cons]
      cases chunks with
      | nil =>
        rw [List.flatten_nil, List.append_nil] at hread
        exact receive_prefix htype hread hs (hidle hs)
      | cons next chunks =>
        obtain ⟨whole, rfl⟩ := haligned chunk (List.mem_cons_self ..)
        obtain ⟨more, rfl, hmore⟩ := AudioPacket.exists_more hread
        obtain ⟨taken, hsub, hmessages, hidle'⟩ := receive_prefix
          (fun p hp => htype p (List.mem_append_left more hp)) (List.prefix_refl _) hs (hidle hs)
        obtain ⟨taken', hsub', hmessages', hlast⟩ := ih
          (fun p hp => htype p (List.mem_append_right whole hp)) hmore
          (fun c hc => haligned c (List.mem_cons_of_mem _ hc)) hidle'
        refine ⟨taken ++ taken', hsub.append hsub', ?_, hlast⟩
        refine hmessages'.trans ?_
        rw [hmessages, List.append_assoc, ← List.map_append]

end

/-- The server's handler of a socket after the connections of `history`. -/
def audioAfter (stream : AudioStream) (history : List (List (List UInt8))) :
    SocketData AudioState :=
  history.foldl (SocketData.connection (onAudioData stream)) freshAudio

/-- A state of the handler's socket for one kind of audio, and what the server has read of
it: connections in order, each as far as it may be and in chunks that all but the last
consist of packets. -/
structure AudioPath (stream : AudioStream) where
  socket : IpcSocket.State AudioPacket UInt8
  history : List (Nat × List (List UInt8))
  reachable : IpcSocket.Reachable AudioPacket.bytes stream.socket socket
  read : ∀ x ∈ history, x.2.flatten <+: socket.stream x.1
  order : history.Pairwise fun x y => x.1 < y.1
  aligned : ∀ x ∈ history, ∀ chunk ∈ x.2.dropLast, ∃ whole : List AudioPacket,
    chunk = whole.flatMap AudioPacket.bytes

namespace AudioPath

variable {stream : AudioStream}

/-- What the server has broadcast. -/
def messages (path : AudioPath stream) : List (List UInt8) :=
  (audioAfter stream (path.history.map Prod.snd)).app.messages

/-- The connections one after the other. -/
theorem messages_of_history (popped : List (IpcSocket.Popped AudioPacket))
    (htype : ∀ x ∈ popped, x.packet.type.toNat = stream.type)
    {history : List (Nat × List (List UInt8))}
    (hread : ∀ x ∈ history,
      x.2.flatten <+: (IpcSocket.packetsFor popped x.1).flatMap AudioPacket.bytes)
    (haligned : ∀ x ∈ history, ∀ chunk ∈ x.2.dropLast, ∃ whole : List AudioPacket,
      chunk = whole.flatMap AudioPacket.bytes)
    {s : SocketData AudioState} (hidle : s.Idle) :
    ∃ packets : List AudioPacket,
      packets.Sublist (history.flatMap fun x => IpcSocket.packetsFor popped x.1) ∧
        ((history.map Prod.snd).foldl (SocketData.connection (onAudioData stream)) s).app.messages =
          s.app.messages ++ packets.map AudioPacket.message := by
  induction history generalizing s with
  | nil => exact ⟨[], List.nil_sublist _, (List.append_nil _).symm⟩
  | cons x history ih =>
    have hpackets : ∀ p ∈ IpcSocket.packetsFor popped x.1, p.type.toNat = stream.type := by
      intro p hp
      obtain ⟨entry, hentry, rfl⟩ := List.mem_map.mp hp
      exact htype entry (List.mem_filter.mp hentry).1
    obtain ⟨taken, hsub, hmessages, hidle'⟩ := connection_prefix hpackets
      (hread x (List.mem_cons_self ..)) (haligned x (List.mem_cons_self ..)) hidle
    obtain ⟨packets, hsub', hmessages'⟩ := ih (fun y hy => hread y (List.mem_cons_of_mem x hy))
      (fun y hy => haligned y (List.mem_cons_of_mem x hy)) hidle'
    refine ⟨taken ++ packets, ?_, ?_⟩
    · rw [List.flatMap_cons]
      exact hsub.append hsub'
    · rw [List.map_cons, List.foldl_cons, hmessages', hmessages, List.append_assoc,
        ← List.map_append]

/-- What the server broadcasts is a part, in order, of what the handler queued. -/
theorem messages_sublist (path : AudioPath stream)
    (htype : ∀ p ∈ path.socket.enqueued, p.type.toNat = stream.type) :
    path.messages.Sublist (path.socket.enqueued.map AudioPacket.message) := by
  have hsound := path.reachable.inv.sound
  have hpackets : ∀ x ∈ path.socket.popped, x.packet.type.toNat = stream.type := fun x hx =>
    htype _ (hsound.in_order.subset (List.mem_map_of_mem hx))
  obtain ⟨packets, hsub, hmessages⟩ := messages_of_history path.socket.popped hpackets
    (fun x hx => (path.read x hx).trans (hsound.framed x.1).isPrefix) path.aligned
    (s := freshAudio) fun _ => rfl
  have hkeys : (path.history.map Prod.fst).Pairwise (· < ·) := List.pairwise_map.mpr path.order
  have hpopped := (flatMap_filter_sublist path.reachable.inv.2.conns hkeys).map
    IpcSocket.Popped.packet
  rw [List.map_flatMap, List.flatMap_map] at hpopped
  rw [messages, audioAfter, hmessages]
  exact ((hsub.trans hpopped).trans hsound.in_order).map AudioPacket.message

end AudioPath

/-! ## From the phone to the pages -/

namespace Handlers

/-- The channel of a kind of audio. -/
def audioChannel : AudioStream → Channel
  | .media => .mediaAudio
  | .speech => .systemAudio

/-- The PCM of one kind that a session has been sent, with its timestamps. -/
def State.pcm (stream : AudioStream) (s : State) : List (UInt64 × List UInt8) :=
  s.delivered.filterMap fun m => if m.channel = audioChannel stream then m.pcm? else none

/-- A call of `queue_audio` that is for this socket. -/
def Effect.isAudioFor (stream : AudioStream) : Effect → Bool
  | queueAudio type .. => IpcBridge.audioTarget type = stream.socket
  | _ => false

/-- The calls of `queue_audio` for a socket that a session has made. -/
def State.audioCalls (stream : AudioStream) (s : State) : List Effect :=
  (s.log.map Prod.snd).filter (Effect.isAudioFor stream)

/-- The call for PCM. -/
def audioCall (cfg : HandlerConfig) : AudioStream → UInt64 × List UInt8 → Effect
  | .media, (timestamp, pcm) => .queueAudio 1 cfg.mediaSampleRate 2 16 timestamp pcm
  | .speech, (timestamp, pcm) => .queueAudio 2 cfg.speechSampleRate 1 16 timestamp pcm

theorem queueCall_pcm (cfg : HandlerConfig) (stream : AudioStream) (m : Message) :
    (m.queueCall cfg).bind (fun call => Option.guard (Effect.isAudioFor stream) call.2) =
      (if m.channel = audioChannel stream then m.pcm? else none).map (audioCall cfg stream) := by
  cases m with
  | mediaAudio m => cases stream <;> cases m <;> rfl
  | systemAudio m => cases stream <;> cases m <;> rfl
  | video m => cases stream <;> cases m <;> rfl
  | control | input | sensor => cases stream <;> rfl

/-- A session queues the PCM it has been sent. -/
theorem audioCalls_eq (cfg : HandlerConfig) (stream : AudioStream) {s : State}
    (h : Transition.Reachable (step cfg) (· = initial) s) :
    s.audioCalls stream = (s.pcm stream).map (audioCall cfg stream) := by
  have hforwarded : Forwarded cfg s :=
    h.invariant_from ⟨rfl, rfl⟩ fun _ _ _ hs hstep => forwarded_step hs hstep
  have hcalls : s.audioCalls stream =
      (queueCalls s.log).filterMap fun call => Option.guard (Effect.isAudioFor stream) call.2 := by
    rw [queueCalls, List.filterMap_filter, State.audioCalls, ← List.filterMap_eq_filter,
      List.filterMap_map]
    refine List.filterMap_congr fun entry _ => ?_
    cases hentry : entry.2 <;> simp [Effect.isQueue, hentry, Option.guard, Effect.isAudioFor]
  rw [hcalls, hforwarded.queued, List.filterMap_filterMap, State.pcm, List.map_filterMap]
  exact List.filterMap_congr fun m _ => queueCall_pcm cfg stream m

end Handlers

open Handlers (audioCall)

/-- The call that a packet is made for. -/
def AudioPacket.call (p : AudioPacket) : Handlers.Effect :=
  .queueAudio p.type p.sampleRate p.channels p.bits p.timestampUs p.pcm

/-- What a page reads of the packet of a call. -/
def heard : Handlers.Effect → Option AudioMessage
  | .queueAudio _ sampleRate channels _ timestamp pcm =>
      some { sampleRate := sampleRate.toNat, channels := channels.toNat
             ts := timestamp.toNat, pcm }
  | _ => none

/-- What a page reads of PCM of a kind. -/
def pageAudio (cfg : Handlers.HandlerConfig) : AudioStream → UInt64 × List UInt8 → AudioMessage
  | .media, (timestamp, pcm) =>
      { sampleRate := cfg.mediaSampleRate.toNat, channels := 2, ts := timestamp.toNat, pcm }
  | .speech, (timestamp, pcm) =>
      { sampleRate := cfg.speechSampleRate.toNat, channels := 1, ts := timestamp.toNat, pcm }

theorem heard_audioCall (cfg : Handlers.HandlerConfig) (stream : AudioStream)
    (frame : UInt64 × List UInt8) :
    heard (audioCall cfg stream frame) = some (pageAudio cfg stream frame) := by
  cases stream <;> rfl

theorem type_of_call {cfg : Handlers.HandlerConfig} {stream : AudioStream}
    {frame : UInt64 × List UInt8} {p : AudioPacket} (h : p.call = audioCall cfg stream frame) :
    p.type.toNat = stream.type := by
  cases stream with
  | media =>
    obtain ⟨htype, -⟩ := Handlers.Effect.queueAudio.inj h
    rw [htype]
    rfl
  | speech =>
    obtain ⟨htype, -⟩ := Handlers.Effect.queueAudio.inj h
    rw [htype]
    rfl

/-- **From end to end, for sound.**  Sessions, one after the other, each at any point of its
run, have made the calls of `queue_audio` of the handler's two audio sockets; of each socket
the server has read some connections, and its two handlers have broadcast in any order.  All
that the pages have been sent is PCM of the two kinds; and of each kind it is, as the pages
read it, a part of the PCM that the phones sent, each piece at most once and in order, in the
format of its kind. -/
theorem audio_to_page (cfg : Handlers.HandlerConfig) {sessions : List Handlers.State}
    (hsessions : ∀ session ∈ sessions,
      Transition.Reachable (Handlers.step cfg) (· = Handlers.initial) session)
    (paths : ∀ stream, AudioPath stream)
    (hqueued : ∀ stream, (paths stream).socket.enqueued.map AudioPacket.call =
      sessions.flatMap (Handlers.State.audioCalls stream))
    {w : WebSockets.State (List UInt8)}
    (hw : Transition.Reachable (WebSockets.step WebSockets.audioRetries)
      (· = WebSockets.initial) w)
    {events : List (AudioStream × List UInt8)} (hbroadcasts : w.broadcasts = events.map Prod.snd)
    (hevents : ∀ stream, (events.filter fun e => e.1 = stream).map Prod.snd =
      (paths stream).messages) :
    ∃ sent : List (AudioStream × List UInt8), sent.map Prod.snd = WebSockets.delivered w ∧
      ∀ stream, ((sent.filter fun e => e.1 = stream).map fun e => readAudioMessage e.2).Sublist
        ((sessions.flatMap (Handlers.State.pcm stream)).map fun frame =>
          .ok (pageAudio cfg stream frame)) := by
  have hcalls : ∀ stream, (paths stream).socket.enqueued.map AudioPacket.call =
      (sessions.flatMap (Handlers.State.pcm stream)).map (audioCall cfg stream) := by
    intro stream
    rw [hqueued, List.map_flatMap]
    exact List.flatMap_congr fun session hmem =>
      Handlers.audioCalls_eq cfg stream (hsessions session hmem)
  have htype : ∀ stream, ∀ p ∈ (paths stream).socket.enqueued, p.type.toNat = stream.type := by
    intro stream p hp
    have hcall := List.mem_map_of_mem (f := AudioPacket.call) hp
    rw [hcalls] at hcall
    obtain ⟨frame, -, hframe⟩ := List.mem_map.mp hcall
    exact type_of_call hframe.symm
  -- what the pages read of all that was queued
  have hheard : ∀ stream, ((paths stream).socket.enqueued.map AudioPacket.message).map
        readAudioMessage =
      (sessions.flatMap (Handlers.State.pcm stream)).map fun frame =>
        .ok (pageAudio cfg stream frame) := by
    intro stream
    have hframes := congrArg (List.filterMap heard) (hcalls stream)
    have hpackets : ((paths stream).socket.enqueued.map AudioPacket.call).filterMap
        heard = (paths stream).socket.enqueued.map fun p => p.frame.message := by
      rw [List.filterMap_map]
      exact List.filterMap_eq_map_iff_forall_eq_some.mpr fun p _ => rfl
    have hpcm : ((sessions.flatMap (Handlers.State.pcm stream)).map
        (audioCall cfg stream)).filterMap heard =
          (sessions.flatMap (Handlers.State.pcm stream)).map (pageAudio cfg stream) := by
      rw [List.filterMap_map]
      exact List.filterMap_eq_map_iff_forall_eq_some.mpr fun frame _ =>
        heard_audioCall cfg stream frame
    rw [hpackets, hpcm] at hframes
    have hread : ∀ p : AudioPacket, readAudioMessage p.message = .ok p.frame.message :=
      fun p => readAudioMessage_bytes p.fits_frame
    have hok := congrArg (List.map (Except.ok : _ → Except RangeError AudioMessage)) hframes
    rw [List.map_map, List.map_map] at hok
    rw [List.map_map]
    exact (List.map_congr_left fun p _ => hread p).trans hok
  have hdelivered := WebSockets.delivered_sublist (WebSockets.oneViewer_reachable hw)
  rw [hbroadcasts] at hdelivered
  obtain ⟨sent, hsent, hsame⟩ := List.sublist_map_iff.mp hdelivered
  refine ⟨sent, hsame.symm, fun stream => ?_⟩
  have hpart := (hsent.filter fun e => e.1 = stream).map Prod.snd
  rw [hevents] at hpart
  have hread := (hpart.trans ((paths stream).messages_sublist (htype stream))).map readAudioMessage
  rw [hheard, List.map_map] at hread
  exact hread

/-- The server has read the first connection, all of it in one chunk. -/
def AudioPath.ofChunk {stream : AudioStream} (socket : IpcSocket.State AudioPacket UInt8)
    (reachable : IpcSocket.Reachable AudioPacket.bytes stream.socket socket) :
    AudioPath stream where
  socket
  history := [(0, [socket.stream 0])]
  reachable
  read := by simp
  order := List.pairwise_singleton _ _
  aligned := by simp

theorem AudioPath.messages_ofChunk {stream : AudioStream}
    {socket : IpcSocket.State AudioPacket UInt8}
    (reachable : IpcSocket.Reachable AudioPacket.bytes stream.socket socket) :
    (AudioPath.ofChunk socket reachable).messages =
      (freshAudio.receive (onAudioData stream) (socket.stream 0)).app.messages :=
  rfl

/-- Two pieces of music and one of speech. -/
def threePieces : List Handlers.Action :=
  [.start .control, .start .mediaAudio, .start .systemAudio,
    .deliver (.mediaAudio (.mediaIndication [1, 2])),
    .deliver (.systemAudio (.mediaIndication [3, 4])),
    .deliver (.mediaAudio (.mediaIndication [5, 6]))]

/-- A packet of `queue_audio` on the media channel. -/
def music (pcm : List UInt8) (fits : pcm.length < 2 ^ 32) : AudioPacket :=
  { type := 1, sampleRate := 48000, channels := 2, bits := 16, timestampUs := 0, pcm, fits }

/-- A packet of `queue_audio` on the system channel. -/
def speech (pcm : List UInt8) (fits : pcm.length < 2 ^ 32) : AudioPacket :=
  { type := 2, sampleRate := 16000, channels := 1, bits := 16, timestampUs := 0, pcm, fits }

/-- The server has read both pieces of music in one chunk, and the second is lost. -/
theorem audio_to_page_coalesced :
    ∃ w : WebSockets.State (List UInt8), (WebSockets.delivered w).map readAudioMessage =
        [.ok { sampleRate := 16000, channels := 1, ts := 0, pcm := [3, 4] },
          .ok { sampleRate := 48000, channels := 2, ts := 0, pcm := [1, 2] }] ∧
      ∃ sent : List (AudioStream × List UInt8), sent.map Prod.snd = WebSockets.delivered w ∧
        ((sent.filter fun e => e.1 = .media).map fun e => readAudioMessage e.2).Sublist
          [.ok { sampleRate := 48000, channels := 2, ts := 0, pcm := [1, 2] },
            .ok { sampleRate := 48000, channels := 2, ts := 0, pcm := [5, 6] }] := by
  let first := music [1, 2] (by decide)
  let second := music [5, 6] (by decide)
  let words := speech [3, 4] (by decide)
  let mediaActions : List (IpcSocket.Action AudioPacket) :=
    [.connect, .accept, .install, .enqueue first, .pop, .write 22, .done, .enqueue second, .pop,
      .write 22, .done]
  let speechActions : List (IpcSocket.Action AudioPacket) :=
    [.connect, .accept, .install, .enqueue words, .pop, .write 22, .done]
  obtain ⟨s, hrun, henqueued, hstream⟩ : ∃ s, Transition.run (IpcSocket.step AudioPacket.bytes
        (SocketName.maxQueue .audioMedia)) IpcSocket.initial mediaActions = some s ∧
      s.enqueued = [first, second] ∧ s.stream 0 = first.bytes ++ second.bytes :=
    ⟨_, rfl, rfl, by decide⟩
  obtain ⟨t, hrun', henqueued', hstream'⟩ : ∃ t, Transition.run (IpcSocket.step AudioPacket.bytes
        (SocketName.maxQueue .audioSpeech)) IpcSocket.initial speechActions = some t ∧
      t.enqueued = [words] ∧ t.stream 0 = words.bytes :=
    ⟨_, rfl, rfl, by decide⟩
  obtain ⟨session, hsession, hcalls, hpcm⟩ : ∃ session,
      Transition.run (Handlers.step Handlers.defaultConfig) Handlers.initial threePieces =
        some session ∧
      (∀ stream, session.audioCalls stream =
        if stream = .media then [first.call, second.call] else [words.call]) ∧
      session.pcm .media = [(0, [1, 2]), (0, [5, 6])] := by
    refine ⟨_, rfl, fun stream => ?_, rfl⟩
    cases stream <;> rfl
  let media : AudioPath .media := .ofChunk s ⟨IpcSocket.initial, mediaActions, rfl, hrun⟩
  let spoken : AudioPath .speech := .ofChunk t ⟨IpcSocket.initial, speechActions, rfl, hrun'⟩
  have hmedia : media.messages = [first.message] := by
    refine (AudioPath.messages_ofChunk _).trans ?_
    rw [hstream]
    decide
  have hspoken : spoken.messages = [words.message] := by
    refine (AudioPath.messages_ofChunk _).trans ?_
    rw [hstream']
    decide
  let paths : ∀ stream, AudioPath stream := fun stream =>
    AudioStream.rec (motive := AudioPath) media spoken stream
  have hsessions : ∀ other ∈ [session],
      Transition.Reachable (Handlers.step Handlers.defaultConfig) (· = Handlers.initial) other := by
    intro other hother
    rw [List.mem_singleton.mp hother]
    exact ⟨Handlers.initial, threePieces, rfl, hsession⟩
  have hqueued : ∀ stream, (paths stream).socket.enqueued.map AudioPacket.call =
      [session].flatMap (Handlers.State.audioCalls stream) := by
    intro stream
    rw [List.flatMap_singleton, hcalls]
    cases stream with
    | media => exact congrArg (List.map AudioPacket.call) henqueued
    | speech => exact congrArg (List.map AudioPacket.call) henqueued'
  have hevents : ∀ stream, ([(AudioStream.speech, words.message), (.media, first.message)].filter
      fun e => e.1 = stream).map Prod.snd = (paths stream).messages := by
    intro stream
    cases stream with
    | media => exact hmedia.symm
    | speech => exact hspoken.symm
  obtain ⟨sent, hsent, hparts⟩ := audio_to_page Handlers.defaultConfig hsessions paths hqueued
    ⟨WebSockets.initial, [.openTab, .upgrade 0, .broadcast words.message,
      .broadcast first.message], rfl, rfl⟩ rfl hevents
  have hpart := hparts .media
  rw [List.flatMap_singleton, hpcm] at hpart
  exact ⟨_, by decide, sent, hsent, hpart⟩

end Whutfa
