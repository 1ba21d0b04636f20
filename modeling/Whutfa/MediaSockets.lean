import Whutfa.StreamBuffer

/-! # The server's media sockets

The data path of `connectUnixSocket` (`server/src/unix-socket.ts`) and the two
handlers `main` (`server/src/index.ts`) gives it: one feeds the video socket's
chunks to a `LengthPrefixedReader`, the other parses each chunk of an audio
socket as one packet.

`connectUnixSocket` appends a chunk to `buffer`, calls the handler with the whole
of it, and empties `buffer`: nothing is ever kept for the next chunk.  For video
the reader behind the handler keeps what is incomplete; but it is created once,
before the first connection, and keeps it across connections too, so a later
connection is read correctly exactly when the earlier ones left nothing behind
(`reconnect_frames_iff`).  For audio there is no reader, so the packets come
through exactly when every chunk happens to be one packet
(`audio_frames_iff_chunk_per_packet`).
-/
namespace Whutfa

/-! ## The data handler of `connectUnixSocket` -/

/-- The variables the data handler works on: its `buffer`, the state of the
caller's `onData`, and whether an exception has left the handler.  Nothing
catches it, so it ends the process. -/
structure SocketData (σ : Type*) where
  buffer : List UInt8
  app : σ
  crashed : Bool

namespace SocketData
variable {σ : Type*}

/-- `socket.on("data", …)`, for one chunk. -/
def receive (onData : σ → List UInt8 → Except RangeError σ) (s : SocketData σ)
    (chunk : List UInt8) : SocketData σ :=
  if s.crashed then s
  else
    let buffer := s.buffer ++ chunk
    match onData s.app buffer with
    | .ok app => { buffer := [], app, crashed := false }
    | .error _ => { s with buffer, crashed := true }

/-- The chunks of one connection.  A new connection starts from the variables as
the last one left them. -/
def connection (onData : σ → List UInt8 → Except RangeError σ) (s : SocketData σ)
    (chunks : List (List UInt8)) : SocketData σ :=
  chunks.foldl (receive onData) s

/-- With `buffer` empty, the handler is called with the chunk alone. -/
theorem receive_ok {onData : σ → List UInt8 → Except RangeError σ} {s : SocketData σ}
    {chunk : List UInt8} {app : σ} (hs : s.crashed = false) (hb : s.buffer = [])
    (h : onData s.app chunk = .ok app) :
    s.receive onData chunk = { buffer := [], app, crashed := false } := by
  simp only [receive, hs, hb, Bool.false_eq_true, if_false, List.nil_append, h]

theorem receive_error {onData : σ → List UInt8 → Except RangeError σ} {s : SocketData σ}
    {chunk : List UInt8} {e : RangeError} (hs : s.crashed = false) (hb : s.buffer = [])
    (h : onData s.app chunk = .error e) :
    s.receive onData chunk = { buffer := chunk, app := s.app, crashed := true } := by
  simp only [receive, hs, hb, Bool.false_eq_true, if_false, List.nil_append, h]

/-- After an exception nothing is received any more. -/
theorem connection_of_crashed {onData : σ → List UInt8 → Except RangeError σ}
    {s : SocketData σ} (hs : s.crashed = true) (chunks : List (List UInt8)) :
    s.connection onData chunks = s := by
  induction chunks with
  | nil => rfl
  | cons chunk chunks ih =>
    have hone : s.receive onData chunk = s := if_pos hs
    rw [connection, List.foldl_cons, hone]
    exact ih

end SocketData

/-! ## The video socket -/

/-- `reader` is the buffer of `videoReader`; `frames` are the payloads it has
handed to its callback and `messages` what the callback has broadcast. -/
structure VideoState where
  reader : List UInt8
  frames : List (List UInt8)
  messages : List (List UInt8)

/-- The callback of `videoReader.push`. -/
def onVideoFrame (payload : List UInt8) : Except RangeError (Option (List UInt8)) :=
  (parseVideoPayload payload).map fun frame => frame.map packVideoForWs

/-- The `onData` of the video socket. -/
def onVideoData (s : VideoState) (buf : List UInt8) : Except RangeError VideoState := do
  let pushed := lengthPrefixedReader.push s.reader buf
  let messages ← pushed.1.mapM onVideoFrame
  .ok { reader := pushed.2, frames := s.frames ++ pushed.1
        messages := s.messages ++ messages.reduceOption }

/-- `main`'s video socket before its first connection. -/
def freshVideo : SocketData VideoState :=
  { buffer := [], app := { reader := [], frames := [], messages := [] }, crashed := false }

/-- The video socket after the connections of `history`, each a list of chunks. -/
def videoAfter (history : List (List (List UInt8))) : SocketData VideoState :=
  history.foldl (SocketData.connection onVideoData) freshVideo

/-- The frames delivered while the chunks of one more connection are received. -/
def framesDuring (s : SocketData VideoState) (chunks : List (List UInt8)) :
    List (List UInt8) :=
  (s.connection onVideoData chunks).app.frames.drop s.app.frames.length

theorem onVideoFrame_isOk (payloads : List (List UInt8)) :
    ∃ messages, payloads.mapM onVideoFrame = .ok messages := by
  induction payloads with
  | nil => exact ⟨[], rfl⟩
  | cons payload payloads ih =>
    obtain ⟨frame, hframe⟩ := parseVideoPayload_isOk payload
    obtain ⟨messages, hmessages⟩ := ih
    refine ⟨frame.map packVideoForWs :: messages, ?_⟩
    rw [List.mapM_cons, hmessages, onVideoFrame, hframe]
    rfl

/-- The video handler never throws, so one chunk is one `push`. -/
theorem receive_video {s : SocketData VideoState} (hs : s.crashed = false)
    (hb : s.buffer = []) (chunk : List UInt8) :
    ∃ messages, s.receive onVideoData chunk =
      { buffer := []
        app := { reader := (lengthPrefixedReader.push s.app.reader chunk).2
                 frames := s.app.frames ++ (lengthPrefixedReader.push s.app.reader chunk).1
                 messages }
        crashed := false } := by
  obtain ⟨messages, hmessages⟩ :=
    onVideoFrame_isOk (lengthPrefixedReader.push s.app.reader chunk).1
  refine ⟨s.app.messages ++ messages.reduceOption, SocketData.receive_ok hs hb ?_⟩
  rw [onVideoData]
  simp only [hmessages]
  rfl

/-- A connection of the video socket feeds its chunks to the one reader. -/
theorem connection_video {s : SocketData VideoState} (hs : s.crashed = false)
    (hb : s.buffer = []) (chunks : List (List UInt8)) :
    (s.connection onVideoData chunks).crashed = false ∧
      (s.connection onVideoData chunks).buffer = [] ∧
      (s.connection onVideoData chunks).app.reader =
        (lengthPrefixedReader.feed s.app.reader chunks).2 ∧
      (s.connection onVideoData chunks).app.frames =
        s.app.frames ++ (lengthPrefixedReader.feed s.app.reader chunks).1 := by
  induction chunks generalizing s with
  | nil => exact ⟨hs, hb, rfl, (List.append_nil _).symm⟩
  | cons chunk chunks ih =>
    obtain ⟨messages, hone⟩ := receive_video hs hb chunk
    have hrest := @ih (s.receive onVideoData chunk) (by rw [hone]) (by rw [hone])
    rw [hone] at hrest
    obtain ⟨hcrashed, hbuffer, hreader, hframes⟩ := hrest
    rw [SocketData.connection, List.foldl_cons, hone]
    exact ⟨hcrashed, hbuffer, hreader, hframes.trans (List.append_assoc _ _ _)⟩

theorem framesDuring_eq {s : SocketData VideoState} (hs : s.crashed = false)
    (hb : s.buffer = []) (chunks : List (List UInt8)) :
    framesDuring s chunks = (lengthPrefixedReader.feed s.app.reader chunks).1 := by
  obtain ⟨-, -, -, hframes⟩ := connection_video hs hb chunks
  rw [framesDuring, hframes, List.drop_left' rfl]

/-- Between connections the handler is alive, `buffer` is empty, and the reader
holds no complete frame. -/
theorem videoAfter_idle (history : List (List (List UInt8))) :
    (videoAfter history).crashed = false ∧ (videoAfter history).buffer = [] ∧
      lengthPrefixedReader.next (videoAfter history).app.reader = .more := by
  induction history using List.reverseRecOn with
  | nil => exact ⟨rfl, rfl, rfl⟩
  | append_singleton history chunks ih =>
    obtain ⟨hs, hb, hidle⟩ := ih
    have hafter : videoAfter (history ++ [chunks]) =
        (videoAfter history).connection onVideoData chunks := by
      rw [videoAfter, List.foldl_append]
      rfl
    obtain ⟨hcrashed, hbuffer, hreader, -⟩ := connection_video hs hb chunks
    rw [hafter]
    exact ⟨hcrashed, hbuffer, hreader ▸ Deframer.feed_idle lengthPrefixedReader_nil hidle chunks⟩

/-! ### What a leftover byte does -/

/-- A packet of eight payload bytes, all zero but possibly the first. -/
def probe (first : UInt8) : VideoPacket :=
  { timestampUs := UInt64.ofNat (first.toNat * 2 ^ 56), data := [], fits := by decide }

/-- If the reader delivers the probe's payload first although `r` is in its
buffer, then the length field it read was 8. -/
theorem length_field_of_probe {r rest : List UInt8} {first : UInt8}
    (h : lengthPrefixedReader.next (r ++ (probe first).bytes) =
      .frame (probe first).payload rest) :
    BigEndian.decode ((r ++ (probe first).bytes).take 4) = 8 ∧
      ((r ++ (probe first).bytes).drop 4).take 8 = (probe first).payload := by
  obtain ⟨len, hb, hlen, -, hf, -⟩ := LengthPrefixedReader.next_frame h
  have hsize : len = 8 := by
    have hdata : (probe first).data.length = 0 := rfl
    have := congrArg List.length hf
    rw [VideoPacket.length_payload, List.length_take, List.length_drop] at this
    omega
  subst hsize
  exact ⟨hlen, hf.symm⟩

/-- A length field that ends in a zero byte is not 8. -/
theorem decode_zero_ne_eight (bs : List UInt8) : BigEndian.decode (bs ++ [0]) ≠ 8 := by
  have hzero : (0 : UInt8).toNat = 0 := rfl
  rw [BigEndian.decode_concat, hzero]
  omega

/-- **No residue is harmless.**  Whatever nonempty residue a reader holds, some
packet sent after it is not delivered as it would be without the residue: a
residue of one to three bytes shifts a zero into the length field's last byte, a
longer one brings its own first payload byte. -/
theorem residue_changes_probe {r : List UInt8} (hr : r ≠ []) :
    ∃ first, (lengthPrefixedReader.push r (probe first).bytes).1 ≠ [(probe first).payload] := by
  have hfirst : ∀ first, (lengthPrefixedReader.push r (probe first).bytes).1 =
      [(probe first).payload] → ∃ rest, lengthPrefixedReader.next (r ++ (probe first).bytes) =
        .frame (probe first).payload rest := by
    intro first h
    cases hn : lengthPrefixedReader.next (r ++ (probe first).bytes) with
    | more => rw [Deframer.push, Deframer.drain_more hn] at h; cases h
    | reject => rw [Deframer.push, Deframer.drain_reject hn] at h; cases h
    | frame f rest =>
      rw [Deframer.push, Deframer.drain_frame hn] at h
      exact ⟨rest, by rw [(List.cons.inj h).1]⟩
  have hfield : ∀ first, (lengthPrefixedReader.push r (probe first).bytes).1 =
      [(probe first).payload] →
        BigEndian.decode ((r ++ (probe first).bytes).take 4) = 8 ∧
          ((r ++ (probe first).bytes).drop 4).take 8 = (probe first).payload := by
    intro first h
    obtain ⟨rest, hrest⟩ := hfirst first h
    exact length_field_of_probe hrest
  rcases r with _ | ⟨a, _ | ⟨b, _ | ⟨c, _ | ⟨d, _ | ⟨e, r⟩⟩⟩⟩⟩
  · exact absurd rfl hr
  · exact ⟨0, fun h => decode_zero_ne_eight [a, 0, 0] (hfield 0 h).1⟩
  · exact ⟨0, fun h => decode_zero_ne_eight [a, b, 0] (hfield 0 h).1⟩
  · exact ⟨0, fun h => decode_zero_ne_eight [a, b, c] (hfield 0 h).1⟩
  · refine ⟨1, fun h => ?_⟩
    have hhead : some (0 : UInt8) = some 1 := congrArg List.head? (hfield 1 h).2
    exact absurd hhead (by decide)
  · by_cases he : e = 0
    · refine ⟨1, fun h => ?_⟩
      have hhead : some e = some 1 := congrArg List.head? (hfield 1 h).2
      exact absurd (he ▸ hhead) (by decide)
    · refine ⟨0, fun h => ?_⟩
      have hhead : some e = some 0 := congrArg List.head? (hfield 0 h).2
      exact he (Option.some.inj hhead)

/-- A stream of one packet, received whole by a fresh reader. -/
theorem feed_single (p : VideoPacket) :
    (lengthPrefixedReader.feed [] [p.bytes]).1 = [p.payload] := by
  have hdrains : lengthPrefixedReader.Drains ([] ++ [p.bytes].flatten) [p.payload] [] := by
    simpa using lengthPrefixedReader_drains [p]
  rw [hdrains.feed lengthPrefixedReader_nil]

/-- **When a reconnect is invisible.**  After the connections of `history`, the
frames delivered for every further stream of packets, cut anywhere, are those a
fresh reader would deliver, if and only if the earlier connections left the
reader's buffer empty. -/
theorem reconnect_frames_iff (history : List (List (List UInt8))) :
    (∀ (packets : List VideoPacket) (chunks : List (List UInt8)),
      chunks.flatten = packets.flatMap VideoPacket.bytes →
        framesDuring (videoAfter history) chunks =
          (lengthPrefixedReader.feed [] chunks).1) ↔
      (videoAfter history).app.reader = [] := by
  obtain ⟨hs, hb, -⟩ := videoAfter_idle history
  constructor
  · intro h
    refine Classical.byContradiction fun hr => ?_
    obtain ⟨first, hne⟩ := residue_changes_probe hr
    have hsame := h [probe first] [(probe first).bytes] (by simp)
    rw [framesDuring_eq hs hb, feed_single] at hsame
    simp only [Deframer.feed, List.append_nil] at hsame
    exact hne hsame
  · intro hr packets chunks _
    rw [framesDuring_eq hs hb, hr]

/-- One earlier connection that ended inside a length field: the packet sent
after it is lost, and an empty frame is delivered in its place. -/
theorem reconnect_after_partial_prefix :
    [0, 0, 0] <+: (probe 0).bytes ∧
      framesDuring (videoAfter [[[0, 0, 0]]]) [(probe 0).bytes] = [[]] ∧
      (lengthPrefixedReader.feed [] [(probe 0).bytes]).1 = [[0, 0, 0, 0, 0, 0, 0, 0]] := by
  decide

/-! ## The audio sockets -/

/-- The two audio sockets, as `audioPaths` lists them. -/
inductive AudioStream
  | media
  | speech
  deriving DecidableEq, Repr

namespace AudioStream

/-- The type `main` assigns to the frames of the socket. -/
def type : AudioStream → Nat
  | media => 1
  | speech => 2

/-- The handler's end of the socket. -/
def socket : AudioStream → SocketName
  | media => .audioMedia
  | speech => .audioSpeech

/-- The handler puts a packet on the socket that is assigned its type. -/
theorem audioTarget_type (stream : AudioStream) :
    IpcBridge.audioTarget (UInt8.ofNat stream.type) = stream.socket := by
  cases stream <;> rfl

end AudioStream

/-- `frames` are the frames an audio handler has forwarded, `messages` what it has
broadcast for them. -/
structure AudioState where
  frames : List AudioFrame
  messages : List (List UInt8)

/-- The `onData` of an audio socket. -/
def onAudioData (stream : AudioStream) (s : AudioState) (buf : List UInt8) :
    Except RangeError AudioState := do
  let some frame ← parseAudioPacket buf | .ok s
  let frame := { frame with type := stream.type }
  let message ← packAudioForWs frame
  .ok { frames := s.frames ++ [frame], messages := s.messages ++ [message] }

/-- An audio socket of `main` before its first connection. -/
def freshAudio : SocketData AudioState :=
  { buffer := [], app := { frames := [], messages := [] }, crashed := false }

/-- The frames the audio handler forwards for the chunks of a connection. -/
def audioFrames (stream : AudioStream) (chunks : List (List UInt8)) : List AudioFrame :=
  (freshAudio.connection (onAudioData stream) chunks).app.frames

/-- The frames forwarded for a list of chunks, chunk by chunk: each chunk is
parsed as if it were a packet, and an exception ends the handler. -/
def parsedChunks (stream : AudioStream) : List (List UInt8) → List AudioFrame
  | [] => []
  | chunk :: chunks =>
      match parseAudioPacket chunk with
      | .error _ => []
      | .ok none => parsedChunks stream chunks
      | .ok (some frame) => { frame with type := stream.type } :: parsedChunks stream chunks

theorem onAudioData_some {stream : AudioStream} {s : AudioState} {buf : List UInt8}
    {frame : AudioFrame} (h : parseAudioPacket buf = .ok (some frame)) :
    ∃ messages, onAudioData stream s buf = .ok
      { frames := s.frames ++ [{ frame with type := stream.type }], messages } := by
  have htype : stream.type < 256 := by cases stream <;> decide
  simp [onAudioData, h, packAudioForWs_of_parsed h htype, bind, Except.bind]

/-- The handler forwards the parsed chunks. -/
theorem connection_audio (stream : AudioStream) (chunks : List (List UInt8))
    {s : SocketData AudioState} (hs : s.crashed = false) (hb : s.buffer = []) :
    (s.connection (onAudioData stream) chunks).app.frames =
      s.app.frames ++ parsedChunks stream chunks := by
  induction chunks generalizing s with
  | nil => exact (List.append_nil _).symm
  | cons chunk chunks ih =>
    rw [SocketData.connection, List.foldl_cons, parsedChunks]
    cases h : parseAudioPacket chunk with
    | error e =>
      have hdata : onAudioData stream s.app chunk = .error e := by rw [onAudioData, h]; rfl
      have hdone : chunks.foldl (SocketData.receive (onAudioData stream))
          { buffer := chunk, app := s.app, crashed := true } =
          { buffer := chunk, app := s.app, crashed := true } :=
        SocketData.connection_of_crashed rfl chunks
      rw [SocketData.receive_error hs hb hdata, hdone, List.append_nil]
    | ok parsed =>
      cases parsed with
      | none =>
        have hdata : onAudioData stream s.app chunk = .ok s.app := by rw [onAudioData, h]; rfl
        rw [SocketData.receive_ok hs hb hdata]
        exact ih rfl rfl
      | some frame =>
        obtain ⟨messages, hdata⟩ := onAudioData_some h
        rw [SocketData.receive_ok hs hb hdata]
        exact (ih rfl rfl).trans (List.append_assoc _ _ _)

theorem audioFrames_eq (stream : AudioStream) (chunks : List (List UInt8)) :
    audioFrames stream chunks = parsedChunks stream chunks :=
  (connection_audio stream chunks rfl rfl).trans (List.nil_append _)

/-- Every forwarded frame carries the type of its socket. -/
theorem type_of_mem_parsedChunks {stream : AudioStream} {chunks : List (List UInt8)}
    {frame : AudioFrame} (h : frame ∈ parsedChunks stream chunks) : frame.type = stream.type := by
  induction chunks with
  | nil => cases h
  | cons chunk chunks ih =>
    rw [parsedChunks] at h
    split at h
    · cases h
    · exact ih h
    · rcases List.mem_cons.mp h with rfl | h
      · rfl
      · exact ih h

/-- The bytes that a forwarded frame's packet would take. -/
def AudioFrame.size (frame : AudioFrame) : Nat := 20 + frame.pcm.length

/-- Each chunk yields at most one frame, and no larger than itself. -/
theorem size_parsedChunks_le (stream : AudioStream) (chunks : List (List UInt8)) :
    ((parsedChunks stream chunks).map AudioFrame.size).sum ≤ chunks.flatten.length := by
  induction chunks with
  | nil => exact Nat.le_refl 0
  | cons chunk chunks ih =>
    rw [List.flatten_cons, List.length_append, parsedChunks]
    split
    · exact Nat.zero_le _
    · exact Nat.le_trans ih (Nat.le_add_left _ _)
    · rename_i frame h
      have hsize := length_of_parseAudioPacket h
      rw [List.map_cons, List.sum_cons]
      simp only [AudioFrame.size] at ih ⊢
      omega

/-- **The count that decides.**  If the frames forwarded account for every byte
received, then every chunk was exactly one of them. -/
theorem length_chunks_of_size {stream : AudioStream} {chunks : List (List UInt8)}
    (hne : ∀ chunk ∈ chunks, chunk ≠ [])
    (h : ((parsedChunks stream chunks).map AudioFrame.size).sum = chunks.flatten.length) :
    chunks.map List.length = (parsedChunks stream chunks).map AudioFrame.size := by
  induction chunks with
  | nil => rfl
  | cons chunk chunks ih =>
    have hpos : 0 < chunk.length :=
      List.length_pos_of_ne_nil (hne chunk (List.mem_cons_self ..))
    have hle := size_parsedChunks_le stream chunks
    have hne' : ∀ c ∈ chunks, c ≠ [] := fun c hc => hne c (List.mem_cons_of_mem _ hc)
    rw [List.flatten_cons, List.length_append] at h
    cases hp : parseAudioPacket chunk with
    | error e =>
      rw [parsedChunks, hp, List.map_nil, List.sum_nil] at h
      omega
    | ok parsed =>
      cases parsed with
      | none =>
        rw [parsedChunks, hp] at h
        simp only at h
        omega
      | some frame =>
        have hsize := length_of_parseAudioPacket hp
        rw [parsedChunks, hp] at h ⊢
        simp only [List.map_cons, List.sum_cons, AudioFrame.size] at h hle ih ⊢
        rw [ih hne' (by omega)]
        exact congrArg (· :: _) (by omega)

/-- Chunks that are whole packets are forwarded packet by packet. -/
theorem parsedChunks_packets {stream : AudioStream} {packets : List AudioPacket}
    (htype : ∀ p ∈ packets, p.type.toNat = stream.type) :
    parsedChunks stream (packets.map AudioPacket.bytes) = packets.map AudioPacket.frame := by
  induction packets with
  | nil => rfl
  | cons p packets ih =>
    have hparse := p.parse_bytes []
    rw [List.append_nil] at hparse
    rw [List.map_cons, parsedChunks, hparse, List.map_cons,
      ih fun q hq => htype q (List.mem_cons_of_mem p hq), ← htype p (List.mem_cons_self ..)]
    rfl

/-- **When the audio stream comes through.**  The packets queued on an audio
socket, cut into nonempty chunks, are forwarded exactly, each once and in order,
if and only if every chunk is one packet and every packet has the type that the
server assigns to the socket. -/
theorem audio_frames_iff_chunk_per_packet (stream : AudioStream) (packets : List AudioPacket)
    (chunks : List (List UInt8)) (hne : ∀ chunk ∈ chunks, chunk ≠ [])
    (hcut : chunks.flatten = packets.flatMap AudioPacket.bytes) :
    audioFrames stream chunks = packets.map AudioPacket.frame ↔
      chunks = packets.map AudioPacket.bytes ∧ ∀ p ∈ packets, p.type.toNat = stream.type := by
  rw [audioFrames_eq]
  constructor
  · intro h
    have hsizes : (packets.map AudioPacket.frame).map AudioFrame.size =
        (packets.map AudioPacket.bytes).map List.length := by
      simp only [List.map_map]
      exact List.map_congr_left fun p _ => (p.length_bytes).symm
    have htotal : ((parsedChunks stream chunks).map AudioFrame.size).sum =
        chunks.flatten.length := by
      rw [h, hsizes, hcut, List.flatMap_def, List.length_flatten]
    refine ⟨List.eq_iff_flatten_eq.mpr ⟨hcut.trans (List.flatMap_def ..), ?_⟩, ?_⟩
    · rw [length_chunks_of_size hne htotal, h, hsizes]
    · intro p hp
      exact type_of_mem_parsedChunks (h ▸ List.mem_map_of_mem hp)
  · rintro ⟨rfl, htype⟩
    exact parsedChunks_packets htype

/-- A media packet with one stereo sample. -/
def sample (timestampUs : UInt64) : AudioPacket :=
  { type := 1, sampleRate := 48000, channels := 2, bits := 16, timestampUs
    pcm := [1, 0, 2, 0], fits := by decide }

theorem audio_frames_of_sample_chunks :
    audioFrames .media [(sample 0).bytes, (sample 20000).bytes] =
      [(sample 0).frame, (sample 20000).frame] :=
  (audio_frames_iff_chunk_per_packet .media [sample 0, sample 20000]
    [(sample 0).bytes, (sample 20000).bytes] (by decide) (by decide)).mpr
    ⟨rfl, by decide⟩

/-- Two packets that arrive in one chunk: the second is dropped. -/
theorem audio_coalesced_chunk :
    [(sample 0).bytes ++ (sample 20000).bytes].flatten =
        [sample 0, sample 20000].flatMap AudioPacket.bytes ∧
      audioFrames .media [(sample 0).bytes ++ (sample 20000).bytes] = [(sample 0).frame] ∧
      [(sample 0).frame] ≠ [sample 0, sample 20000].map AudioPacket.frame := by
  decide

end Whutfa
