import Whutfa.BigEndian

/-! # The server's packet formats

The functions of `server/src/ipc-framing.ts`.  A Node `Buffer` is a byte list.
Its `read…BE` methods throw a `RangeError` when the bytes they need are not all
inside the buffer, its `write…BE` methods when the value does not fit, and
`subarray` clamps its arguments; so the functions that read return in
`Except RangeError`, and a value `none` is the `null` of the source.
-/
namespace Whutfa

/-- The error of a read or write outside a buffer's bounds or a field's range. -/
inductive RangeError
  | read (offset width length : Nat)
  | write (value width : Nat)
  deriving DecidableEq, Repr

/-- `buf.readUInt8`, `readUInt16BE`, `readUInt32BE` and `readBigUInt64BE`, by the
number of bytes they read. -/
def readUIntBE (buf : List UInt8) (offset width : Nat) : Except RangeError Nat :=
  if offset + width ≤ buf.length then
    .ok (BigEndian.decode ((buf.drop offset).take width))
  else
    .error (.read offset width buf.length)

/-- The bytes that `writeUInt8`, `writeUInt32BE` and `writeBigUInt64BE` store. -/
def writeUIntBE (value width : Nat) : Except RangeError (List UInt8) :=
  if value < 256 ^ width then .ok (BigEndian.encode width value)
  else .error (.write value width)

/-- `buf.subarray(start, stop)`. -/
def subarray (buf : List UInt8) (start stop : Nat) : List UInt8 :=
  (buf.take stop).drop start

/-! ## Video -/

/-- `VideoFrame`. -/
structure VideoFrame where
  timestampUs : Nat
  data : List UInt8
  keyframe : Bool
  deriving DecidableEq, Repr

/-- The index after a start code at `i`, of three bytes or of four. -/
def startCodeEnd (h264 : List UInt8) (i : Nat) : Option Nat :=
  if h264[i]? = some 0 ∧ h264[i + 1]? = some 0 ∧ h264[i + 2]? = some 1 then some (i + 3)
  else if h264[i]? = some 0 ∧ h264[i + 1]? = some 0 ∧ h264[i + 2]? = some 0 ∧
      h264[i + 3]? = some 1 then some (i + 4)
  else none

/-- NAL units of an IDR slice, a sequence or a picture parameter set. -/
def isKeyframeNalType (header : UInt8) : Bool :=
  header &&& 0x1f == 5 || header &&& 0x1f == 7 || header &&& 0x1f == 8

/-- Whether some start code before the last four bytes opens a keyframe's unit. -/
def detectKeyframe (h264 : List UInt8) : Bool :=
  (List.range (h264.length - 4)).any fun i =>
    ((startCodeEnd h264 i).bind (h264[·]?)).any isKeyframeNalType

/-- The payload after the outer length prefix: timestamp, then the H.264 bytes. -/
def parseVideoPayload (payload : List UInt8) : Except RangeError (Option VideoFrame) :=
  if payload.length < 8 then .ok none
  else do
    let timestampUs ← readUIntBE payload 0 8
    let data := payload.drop 8
    .ok (some { timestampUs, data, keyframe := detectKeyframe data })

/-- `packVideoForWs`. -/
def packVideoForWs (frame : VideoFrame) : List UInt8 :=
  (if frame.keyframe then 1 else 0) :: frame.data

/-! ## Audio -/

/-- `AudioFrame`. -/
structure AudioFrame where
  type : Nat
  sampleRate : Nat
  channels : Nat
  bitsPerSample : Nat
  timestampUs : Nat
  pcm : List UInt8
  deriving DecidableEq, Repr

/-- `parseAudioPacket`; a read behind the end of the buffer throws. -/
def parseAudioPacket (buf : List UInt8) : Except RangeError (Option AudioFrame) :=
  if buf.length < 19 then .ok none
  else do
    let type ← readUIntBE buf 0 1
    let sampleRate ← readUIntBE buf 1 4
    let channels ← readUIntBE buf 5 1
    let bitsPerSample ← readUIntBE buf 6 2
    let timestampUs ← readUIntBE buf 8 8
    let pcmLen ← readUIntBE buf 16 4
    if buf.length < 20 + pcmLen then .ok none
    else .ok (some { type, sampleRate, channels, bitsPerSample, timestampUs,
                     pcm := subarray buf 20 (20 + pcmLen) })

/-- The header is allocated with 17 zero bytes, of which 14 are written. -/
def packAudioForWs (frame : AudioFrame) : Except RangeError (List UInt8) := do
  let type ← writeUIntBE frame.type 1
  let sampleRate ← writeUIntBE frame.sampleRate 4
  let channels ← writeUIntBE frame.channels 1
  let timestampUs ← writeUIntBE frame.timestampUs 8
  .ok (type ++ sampleRate ++ channels ++ timestampUs ++ [0, 0, 0] ++ frame.pcm)

/-! ## Reads of known fields -/

theorem readUIntBE_of_le {buf : List UInt8} {offset width : Nat}
    (h : offset + width ≤ buf.length) :
    readUIntBE buf offset width = .ok (BigEndian.decode ((buf.drop offset).take width)) :=
  if_pos h

theorem parseVideoPayload_of_ge {payload : List UInt8} (h : 8 ≤ payload.length) :
    parseVideoPayload payload = .ok (some
      { timestampUs := BigEndian.decode (payload.take 8), data := payload.drop 8
        keyframe := detectKeyframe (payload.drop 8) }) := by
  rw [parseVideoPayload, if_neg (Nat.not_lt.mpr h), readUIntBE_of_le (by omega), List.drop_zero]
  rfl

/-- The video parser's own guard covers its read: it never throws. -/
theorem parseVideoPayload_isOk (payload : List UInt8) :
    ∃ frame, parseVideoPayload payload = .ok frame := by
  by_cases h : payload.length < 8
  · exact ⟨none, if_pos h⟩
  · exact ⟨_, parseVideoPayload_of_ge (Nat.not_lt.mp h)⟩

/-- The frame whose header is the first 20 bytes of `buf`. -/
def audioFrameAt (buf : List UInt8) : AudioFrame :=
  { type := BigEndian.decode (buf.take 1)
    sampleRate := BigEndian.decode ((buf.drop 1).take 4)
    channels := BigEndian.decode ((buf.drop 5).take 1)
    bitsPerSample := BigEndian.decode ((buf.drop 6).take 2)
    timestampUs := BigEndian.decode ((buf.drop 8).take 8)
    pcm := subarray buf 20 (20 + BigEndian.decode ((buf.drop 16).take 4)) }

/-- From 20 bytes on every read of the audio parser is inside the buffer. -/
theorem parseAudioPacket_of_ge {buf : List UInt8} (h : 20 ≤ buf.length) :
    parseAudioPacket buf =
      if buf.length < 20 + BigEndian.decode ((buf.drop 16).take 4) then .ok none
      else .ok (some (audioFrameAt buf)) := by
  rw [parseAudioPacket, if_neg (by omega), readUIntBE_of_le (by omega),
    readUIntBE_of_le (by omega), readUIntBE_of_le (by omega), readUIntBE_of_le (by omega),
    readUIntBE_of_le (by omega), readUIntBE_of_le (by omega), List.drop_zero]
  rfl

/-- **The guard of the audio parser is one byte short**: a chunk of exactly 19
bytes passes it, and the read of the PCM length throws. -/
theorem parseAudioPacket_length_19 {buf : List UInt8} (h : buf.length = 19) :
    parseAudioPacket buf = .error (.read 16 4 19) := by
  have hpcm : readUIntBE buf 16 4 = .error (.read 16 4 19) := by
    rw [readUIntBE, if_neg (by omega), h]
  rw [parseAudioPacket, if_neg (by omega), readUIntBE_of_le (by omega),
    readUIntBE_of_le (by omega), readUIntBE_of_le (by omega), readUIntBE_of_le (by omega),
    readUIntBE_of_le (by omega), hpcm]
  rfl

/-- Below 19 bytes the guard of the audio parser answers before any read. -/
theorem parseAudioPacket_of_lt {buf : List UInt8} (h : buf.length < 19) :
    parseAudioPacket buf = .ok none :=
  if_pos h

/-- **Where the audio parser stays inside its buffer.**  It comes back with a frame
or with nothing, every read in bounds, on each buffer whose length is not 19. -/
theorem parseAudioPacket_isOk_iff (buf : List UInt8) :
    (∃ frame, parseAudioPacket buf = .ok frame) ↔ buf.length ≠ 19 := by
  constructor
  · rintro ⟨frame, hframe⟩ h19
    rw [parseAudioPacket_length_19 h19] at hframe
    cases hframe
  · intro h
    rcases Nat.lt_or_gt_of_ne h with hlt | hgt
    · exact ⟨none, parseAudioPacket_of_lt hlt⟩
    · rw [parseAudioPacket_of_ge hgt]
      by_cases hpcm : buf.length < 20 + BigEndian.decode ((buf.drop 16).take 4)
      · exact ⟨none, if_pos hpcm⟩
      · exact ⟨some (audioFrameAt buf), if_neg hpcm⟩

/-- A chunk of 19 zero bytes makes the parser throw. -/
theorem parseAudioPacket_zeros_19 :
    ¬ ∃ frame, parseAudioPacket (List.replicate 19 0) = .ok frame := by
  rw [parseAudioPacket_length_19 (List.length_replicate)]
  rintro ⟨frame, hframe⟩
  cases hframe

/-- What a chunk that yields a frame looks like. -/
theorem parseAudioPacket_some {buf : List UInt8} {frame : AudioFrame}
    (h : parseAudioPacket buf = .ok (some frame)) :
    20 + BigEndian.decode ((buf.drop 16).take 4) ≤ buf.length ∧ frame = audioFrameAt buf := by
  rcases Nat.lt_trichotomy buf.length 19 with hlt | heq | hgt
  · rw [parseAudioPacket_of_lt hlt] at h
    cases h
  · rw [parseAudioPacket_length_19 heq] at h
    cases h
  · rw [parseAudioPacket_of_ge hgt] at h
    split at h
    · cases h
    · injection h with h
      injection h with h
      exact ⟨by omega, h.symm⟩

/-- A chunk that yields a frame holds the frame's header and PCM. -/
theorem length_of_parseAudioPacket {buf : List UInt8} {frame : AudioFrame}
    (h : parseAudioPacket buf = .ok (some frame)) : 20 + frame.pcm.length ≤ buf.length := by
  obtain ⟨hlen, rfl⟩ := parseAudioPacket_some h
  simp only [audioFrameAt, subarray, List.length_drop, List.length_take]
  omega

theorem writeUIntBE_of_lt {value width : Nat} (h : value < 256 ^ width) :
    writeUIntBE value width = .ok (BigEndian.encode width value) :=
  if_pos h

/-- The packer can write every field the parser has read, with any one-byte type. -/
theorem packAudioForWs_of_parsed {buf : List UInt8} {frame : AudioFrame} {type : Nat}
    (h : parseAudioPacket buf = .ok (some frame)) (htype : type < 256) :
    packAudioForWs { frame with type } = .ok (BigEndian.encode 1 type ++
      BigEndian.encode 4 frame.sampleRate ++ BigEndian.encode 1 frame.channels ++
      BigEndian.encode 8 frame.timestampUs ++ [0, 0, 0] ++ frame.pcm) := by
  obtain ⟨-, rfl⟩ := parseAudioPacket_some h
  have hwrite : writeUIntBE type 1 = .ok (BigEndian.encode 1 type) := writeUIntBE_of_lt htype
  have hrate := BigEndian.decode_take_lt 4 (buf.drop 1)
  have hchannels := BigEndian.decode_take_lt 1 (buf.drop 5)
  have hts := BigEndian.decode_take_lt 8 (buf.drop 8)
  simp only [packAudioForWs, audioFrameAt, hwrite,
    writeUIntBE_of_lt hrate, writeUIntBE_of_lt hchannels, writeUIntBE_of_lt hts]
  rfl

end Whutfa
