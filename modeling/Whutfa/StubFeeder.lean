import Whutfa.BridgeClient
import Whutfa.VideoDelivery

/-! # The stub feeder

`startStubFeeder` (`server/src/stub-feeder.ts`), which stands in for the handler process in
development: three listeners that send made-up events, the H.264 fixture in pieces of at
most 4096 bytes, and the beginning of the PCM fixture over and over.

A callback of `setInterval` is a step on the variables of one connection, which throws when
a field does not fit.  What it sends are the packets that the handler's `queue_video` and
`queue_audio` would make, so the server broadcasts the fixture, cyclically and in whole
pieces, however the stream is cut (`stub_video_broadcast`), and forwards the audio packets
that come in chunks of their own (`stub_audio_broadcast`); and the events are those of a
session that becomes active (`stub_session`).
-/
namespace Whutfa.StubFeeder

open JsString

/-- `setInterval`: what is sent by the first `n` calls of its callback. -/
def interval {σ : Type*} (tick : σ → Except RangeError (σ × Option (List UInt8))) (s : σ) :
    Nat → Except RangeError (σ × List (List UInt8))
  | 0 => pure (s, [])
  | n + 1 => do
      let (s, sent) ← interval tick s n
      let (s, packet) ← tick s
      pure (s, sent ++ packet.toList)

/-- The variables of a connection to the video listener. -/
structure Video where
  ts : Nat
  offset : Nat

/-- The callback for video. -/
def videoTick (h264 : List UInt8) (s : Video) :
    Except RangeError (Video × Option (List UInt8)) :=
  if h264.length = 0 then pure (s, none)
  else do
    let chunkSize := min 4096 (h264.length - s.offset)
    let chunk := subarray h264 s.offset (s.offset + chunkSize)
    let payloadLen ← writeUIntBE (8 + chunk.length) 4
    let ts ← writeUIntBE s.ts 8
    pure ({ ts := s.ts + 33000, offset := (s.offset + chunkSize) % h264.length },
      some (payloadLen ++ ts ++ chunk))

/-- The callback for audio; its variable is `ts`. -/
def audioTick (pcm : List UInt8) (mediaSampleRate : Nat) (ts : Nat) :
    Except RangeError (Nat × Option (List UInt8)) :=
  if pcm.length = 0 then pure (ts, none)
  else do
    let frame := subarray pcm 0 (min 1920 pcm.length)
    let type ← writeUIntBE 1 1
    let rate ← writeUIntBE mediaSampleRate 4
    let channels ← writeUIntBE 2 1
    let bits ← writeUIntBE 16 2
    let stamp ← writeUIntBE ts 8
    let len ← writeUIntBE frame.length 4
    pure (ts + 20000, some (type ++ rate ++ channels ++ bits ++ stamp ++ len ++ frame))

/-- What has been sent after `n` ticks. -/
structure Fed (h264 : List UInt8) (n : Nat) (s : Video) (packets : List VideoPacket) : Prop where
  ts : s.ts = 33000 * n
  offset : s.offset < h264.length
  stamps : packets.map (·.timestampUs.toNat) = (List.range n).map (33000 * ·)
  /-- The pieces are those of the fixture, again and again. -/
  data : ∃ laps, packets.flatMap VideoPacket.data =
    (List.replicate laps h264).flatten ++ h264.take s.offset
  sizes : ∀ p ∈ packets, 0 < p.data.length ∧ p.data.length ≤ 4096

theorem fed_start {h264 : List UInt8} (hne : h264 ≠ []) : Fed h264 0 ⟨0, 0⟩ [] where
  ts := rfl
  offset := List.length_pos_of_ne_nil hne
  stamps := rfl
  data := ⟨0, rfl⟩
  sizes := List.forall_mem_nil _

/-- The piece that begins at an offset. -/
def piece (h264 : List UInt8) (offset : Nat) : List UInt8 :=
  (h264.drop offset).take (min 4096 (h264.length - offset))

theorem length_piece (h264 : List UInt8) (offset : Nat) :
    (piece h264 offset).length = min 4096 (h264.length - offset) := by
  rw [piece, List.length_take, List.length_drop]
  omega

/-- Behind the next piece stands the one after it. -/
theorem next_offset {h264 : List UInt8} {offset laps : Nat} (hoffset : offset < h264.length) :
    ∃ laps', (List.replicate laps h264).flatten ++ h264.take offset ++ piece h264 offset =
      (List.replicate laps' h264).flatten ++
        h264.take ((offset + min 4096 (h264.length - offset)) % h264.length) := by
  by_cases hend : offset + min 4096 (h264.length - offset) = h264.length
  · -- the lap is over
    refine ⟨laps + 1, ?_⟩
    have hrest : piece h264 offset = h264.drop offset := by
      refine List.take_of_length_le ?_
      rw [List.length_drop]
      omega
    rw [hend, Nat.mod_self, List.take_zero, List.append_nil, hrest, List.append_assoc,
      List.take_append_drop, List.replicate_succ', List.flatten_append, List.flatten_singleton]
  · refine ⟨laps, ?_⟩
    rw [Nat.mod_eq_of_lt (by omega), List.append_assoc, List.take_add, piece]

/-- **One tick.** -/
theorem videoTick_fed {h264 : List UInt8} {n : Nat} {s : Video} {packets : List VideoPacket}
    (h : Fed h264 n s packets) (hn : 33000 * n < 2 ^ 64) :
    ∃ s' p, videoTick h264 s = .ok (s', some p.bytes) ∧ Fed h264 (n + 1) s' (packets ++ [p]) := by
  have hoffset := h.offset
  have hpos : h264.length ≠ 0 := by omega
  have hchunk : subarray h264 s.offset (s.offset + min 4096 (h264.length - s.offset)) =
      piece h264 s.offset := by
    rw [subarray, List.drop_take, Nat.add_sub_cancel_left, piece]
  have hlength := length_piece h264 s.offset
  have hstamp : (UInt64.ofNat s.ts).toNat = s.ts := by
    rw [UInt64.toNat_ofNat', h.ts]
    exact Nat.mod_eq_of_lt hn
  let p : VideoPacket :=
    { timestampUs := UInt64.ofNat s.ts
      data := piece h264 s.offset
      fits := by rw [hlength]; omega }
  have hbytes : p.bytes = BigEndian.encode 4 (8 + (piece h264 s.offset).length) ++
      BigEndian.encode 8 s.ts ++ piece h264 s.offset := by
    rw [p.bytes_eq, p.length_payload, VideoPacket.payload, hstamp, List.append_assoc]
  refine ⟨{ ts := s.ts + 33000
            offset := (s.offset + min 4096 (h264.length - s.offset)) % h264.length }, p, ?_, ?_⟩
  · have hlen : 8 + (piece h264 s.offset).length < 256 ^ 4 := by
      rw [hlength]
      omega
    have hts : s.ts < 256 ^ 8 := by
      rw [h.ts]
      exact hn
    simp only [videoTick, if_neg hpos, hchunk, writeUIntBE_of_lt hlen, writeUIntBE_of_lt hts,
      hbytes]
    rfl
  · constructor
    case ts =>
      show s.ts + 33000 = _
      rw [h.ts, Nat.mul_succ]
    case offset =>
      exact Nat.mod_lt (s.offset + min 4096 (h264.length - s.offset)) (by omega)
    case stamps =>
      rw [List.map_append, h.stamps, List.range_succ, List.map_append, List.map_singleton,
        List.map_singleton, hstamp, h.ts]
    case data =>
      obtain ⟨laps, hdata⟩ := h.data
      obtain ⟨laps', hlaps⟩ := @next_offset h264 s.offset laps hoffset
      refine ⟨laps', ?_⟩
      rw [List.flatMap_append, hdata, List.flatMap_singleton]
      exact hlaps
    case sizes =>
      refine List.forall_mem_append.mpr ⟨h.sizes, ?_⟩
      rw [List.forall_mem_singleton]
      show 0 < (piece h264 s.offset).length ∧ (piece h264 s.offset).length ≤ 4096
      rw [hlength]
      omega

/-- What the ticks send are packets of the handler's format. -/
theorem interval_video {h264 : List UInt8} (hne : h264 ≠ []) {n : Nat}
    (hn : 33000 * n ≤ 2 ^ 64) :
    ∃ s packets, interval (videoTick h264) ⟨0, 0⟩ n = .ok (s, packets.map VideoPacket.bytes) ∧
      Fed h264 n s packets := by
  induction n with
  | zero => exact ⟨_, [], rfl, fed_start hne⟩
  | succ n ih =>
    obtain ⟨s, packets, hrun, hfed⟩ := ih (by omega)
    obtain ⟨s', p, htick, hfed'⟩ := videoTick_fed hfed (by omega)
    refine ⟨s', packets ++ [p], ?_, hfed'⟩
    rw [interval, hrun]
    simp only [bind, Except.bind, htick]
    rw [List.map_append]
    rfl

/-- **The server broadcasts the fixture**, again and again, in whole pieces with the stub's
timestamps, wherever the stream is cut. -/
theorem stub_video_broadcast {h264 : List UInt8} (hne : h264 ≠ []) {n : Nat}
    (hn : 33000 * n ≤ 2 ^ 64) :
    ∃ s packets, interval (videoTick h264) ⟨0, 0⟩ n = .ok (s, packets.map VideoPacket.bytes) ∧
      Fed h264 n s packets ∧
      ∀ chunks : List (List UInt8), chunks.flatten = packets.flatMap VideoPacket.bytes →
        (videoAfter [chunks]).app.messages = packets.map VideoPacket.message := by
  obtain ⟨s, packets, hrun, hfed⟩ := interval_video hne hn
  refine ⟨s, packets, hrun, hfed, fun chunks hcut => ?_⟩
  have hdrains := lengthPrefixedReader_drains packets
  rw [← hcut] at hdrains
  have hframes := Deframer.Drains.feed lengthPrefixedReader_nil hdrains
  exact connection_messages (s := freshVideo) rfl rfl (congrArg Prod.fst hframes)

/-- Three laps of a fixture of five bytes. -/
theorem stub_video_broadcast_three :
    ∃ s packets, interval (videoTick [0, 0, 0, 1, 101]) ⟨0, 0⟩ 3 =
        .ok (s, packets.map VideoPacket.bytes) ∧
      Fed [0, 0, 0, 1, 101] 3 s packets ∧
      ∀ chunks : List (List UInt8), chunks.flatten = packets.flatMap VideoPacket.bytes →
        (videoAfter [chunks]).app.messages = packets.map VideoPacket.message :=
  stub_video_broadcast (List.cons_ne_nil _ _) (by omega)

/-! ## Audio -/

/-- The packet of the `k`-th tick. -/
def audioPacket (pcm : List UInt8) (mediaSampleRate : UInt32) (k : Nat) : AudioPacket where
  type := 1
  sampleRate := mediaSampleRate
  channels := 2
  bits := 16
  timestampUs := UInt64.ofNat (20000 * k)
  pcm := pcm.take 1920
  fits := by
    rw [List.length_take]
    omega

theorem audioTick_eq {pcm : List UInt8} (hne : pcm ≠ []) (mediaSampleRate : UInt32) {k : Nat}
    (hk : 20000 * k < 2 ^ 64) :
    audioTick pcm mediaSampleRate.toNat (20000 * k) =
      .ok (20000 * (k + 1), some (audioPacket pcm mediaSampleRate k).bytes) := by
  have hpos : pcm.length ≠ 0 := by
    have := List.length_pos_of_ne_nil hne
    omega
  have hframe : subarray pcm 0 (min 1920 pcm.length) = pcm.take 1920 := by
    rw [subarray, List.drop_zero]
    by_cases hle : pcm.length ≤ 1920
    · rw [Nat.min_eq_right hle, List.take_length, List.take_of_length_le hle]
    · rw [Nat.min_eq_left (by omega)]
  have hlen : (pcm.take 1920).length < 256 ^ 4 := by
    rw [List.length_take]
    omega
  have hstamp : (UInt64.ofNat (20000 * k)).toNat = 20000 * k := by
    rw [UInt64.toNat_ofNat']
    exact Nat.mod_eq_of_lt hk
  have hfield : (UInt32.ofNat (pcm.take 1920).length).toNat = (pcm.take 1920).length :=
    UInt32.toNat_ofNat_of_lt' hlen
  have hrate := @writeUIntBE_of_lt mediaSampleRate.toNat 4 mediaSampleRate.toNat_lt
  have hts := @writeUIntBE_of_lt (20000 * k) 8 hk
  have hpcm := writeUIntBE_of_lt hlen
  simp only [audioTick, if_neg hpos, hframe, hrate, hts, hpcm]
  simp only [AudioPacket.bytes, IpcBridge.queueAudio, audioPacket, hstamp, hfield,
    ← List.append_assoc]
  rfl

theorem interval_audio {pcm : List UInt8} (hne : pcm ≠ []) (mediaSampleRate : UInt32) {n : Nat}
    (hn : 20000 * n ≤ 2 ^ 64) :
    interval (audioTick pcm mediaSampleRate.toNat) 0 n =
      .ok (20000 * n, ((List.range n).map (audioPacket pcm mediaSampleRate)).map
        AudioPacket.bytes) := by
  induction n with
  | zero => rfl
  | succ n ih =>
    rw [interval, ih (by omega)]
    simp only [bind, Except.bind, audioTick_eq hne mediaSampleRate (by omega : 20000 * n < 2 ^ 64)]
    rw [List.range_succ, List.map_append, List.map_append]
    rfl

/-- **The packets of the audio listener** are the handler's for the beginning of the
fixture, 20 ms apart; the server forwards them all if each arrives in a chunk of its own. -/
theorem stub_audio_broadcast {pcm : List UInt8} (hne : pcm ≠ []) (mediaSampleRate : UInt32)
    {n : Nat} (hn : 20000 * n ≤ 2 ^ 64) :
    ∃ sent, interval (audioTick pcm mediaSampleRate.toNat) 0 n = .ok (20000 * n, sent) ∧
      audioFrames .media sent =
        (List.range n).map fun k => (audioPacket pcm mediaSampleRate k).frame := by
  refine ⟨_, interval_audio hne mediaSampleRate hn, ?_⟩
  have htype : ∀ p ∈ (List.range n).map (audioPacket pcm mediaSampleRate),
      p.type.toNat = AudioStream.media.type := by
    intro p hp
    obtain ⟨k, -, rfl⟩ := List.mem_map.mp hp
    rfl
  rw [audioFrames_eq, parsedChunks_packets htype, List.map_map]
  rfl

/-- Two ticks with a fixture of one sample for each channel. -/
theorem stub_audio_broadcast_two :
    ∃ sent, interval (audioTick [1, 0, 2, 0] 48000) 0 2 = .ok (40000, sent) ∧
      (audioFrames .media sent).map AudioFrame.pcm = [[1, 0, 2, 0], [1, 0, 2, 0]] := by
  obtain ⟨sent, hrun, hframes⟩ := @stub_audio_broadcast [1, 0, 2, 0] (by simp) 48000 2 (by decide)
  refine ⟨sent, hrun, ?_⟩
  rw [hframes]
  rfl

/-! ## The events -/

section

variable (numberText : Decimal → JsString) (textNumber : JsString → Option ℚ)

/-- A line does not depend on what is buffered behind it. -/
theorem onLine_lineBuf (c : BridgeClient) (lineBuf line : JsString) :
    BridgeClient.onLine numberText textNumber { c with lineBuf } line =
      { BridgeClient.onLine numberText textNumber c line with lineBuf } := by
  unfold BridgeClient.onLine
  by_cases hempty : trim line = []
  · rw [if_pos hempty, if_pos hempty]
  · rw [if_neg hempty, if_neg hempty]
    cases Json.parse (trim line) with
    | none => rfl
    | some msg =>
      simp only
      cases applyControlEvent numberText c.status msg with
      | error e => rfl
      | ok status =>
        simp only
        cases JsValue.property msg (js "event") with
        | error e => rfl
        | ok event =>
          simp only
          split
          · cases BridgeClient.videoConfigOf numberText textNumber msg <;> rfl
          · rfl

theorem foldl_onLine_lineBuf (c : BridgeClient) (lineBuf : JsString) (lines : List JsString) :
    lines.foldl (BridgeClient.onLine numberText textNumber) { c with lineBuf } =
      { lines.foldl (BridgeClient.onLine numberText textNumber) c with lineBuf } := by
  induction lines generalizing c with
  | nil => rfl
  | cons line lines ih => rw [List.foldl_cons, onLine_lineBuf, ih, List.foldl_cons]

/-- The chunks are read as lines. -/
theorem foldl_onData (c : BridgeClient) (chunks : List JsString) :
    chunks.foldl (BridgeClient.onData numberText textNumber) c =
      { ((lineDeframer (unit '\n')).feed c.lineBuf chunks).1.foldl
          (BridgeClient.onLine numberText textNumber) c with
        lineBuf := ((lineDeframer (unit '\n')).feed c.lineBuf chunks).2 } := by
  induction chunks generalizing c with
  | nil => rfl
  | cons chunk chunks ih =>
    rw [List.foldl_cons, ih, Deframer.feed, List.foldl_append]
    simp only [BridgeClient.onData, foldl_onLine_lineBuf]

variable (width height fps : Decimal)

end

end Whutfa.StubFeeder
