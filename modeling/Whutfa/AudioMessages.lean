import Whutfa.MediaSockets

/-! # The browser's audio messages

What the message handler of `connectAudio` (`frontend/app.js`) reads.  A `DataView`'s
`getUint8`, `getUint32` and `getBigUint64` read most significant byte first and throw a
`RangeError` outside the buffer, which is `readUIntBE`; `slice` clamps its argument.
-/
namespace Whutfa

/-- The fields that the handler takes out of a message. -/
structure AudioMessage where
  sampleRate : Nat
  channels : Nat
  ts : Nat
  pcm : List UInt8
  deriving DecidableEq, Repr

/-- The reads of the handler. -/
def readAudioMessage (data : List UInt8) : Except RangeError AudioMessage := do
  let sampleRate ← readUIntBE data 1 4
  let channels ← readUIntBE data 5 1
  let ts ← readUIntBE data 6 8
  .ok { sampleRate, channels, ts, pcm := data.drop 17 }

/-- The handler's view of a frame: the type and the sample size are not in it. -/
def AudioFrame.message (frame : AudioFrame) : AudioMessage :=
  { sampleRate := frame.sampleRate, channels := frame.channels, ts := frame.timestampUs
    pcm := frame.pcm }

/-- From 14 bytes on every read of the handler is inside the message. -/
theorem readAudioMessage_of_ge {data : List UInt8} (h : 14 ≤ data.length) :
    readAudioMessage data = .ok
      { sampleRate := BigEndian.decode ((data.drop 1).take 4)
        channels := BigEndian.decode ((data.drop 5).take 1)
        ts := BigEndian.decode ((data.drop 6).take 8)
        pcm := data.drop 17 } := by
  rw [readAudioMessage, readUIntBE_of_le (by omega), readUIntBE_of_le (by omega),
    readUIntBE_of_le (by omega)]
  rfl

/-- A frame whose fields fit the widths of the header. -/
structure AudioFrame.Fits (frame : AudioFrame) : Prop where
  type : frame.type < 256 ^ 1
  sampleRate : frame.sampleRate < 256 ^ 4
  channels : frame.channels < 256 ^ 1
  timestampUs : frame.timestampUs < 256 ^ 8

/-- The message of a frame that fits. -/
def AudioFrame.bytes (frame : AudioFrame) : List UInt8 :=
  BigEndian.encode 1 frame.type ++ (BigEndian.encode 4 frame.sampleRate ++
    (BigEndian.encode 1 frame.channels ++ (BigEndian.encode 8 frame.timestampUs ++
      (0 :: 0 :: 0 :: frame.pcm))))

theorem packAudioForWs_of_fits {frame : AudioFrame} (h : frame.Fits) :
    packAudioForWs frame = .ok frame.bytes := by
  simp only [packAudioForWs, writeUIntBE_of_lt h.type, writeUIntBE_of_lt h.sampleRate,
    writeUIntBE_of_lt h.channels, writeUIntBE_of_lt h.timestampUs, AudioFrame.bytes]
  simp only [bind, Except.bind, List.append_assoc, List.cons_append, List.nil_append]

/-- **The offsets line up**: the handler reads a frame's message back as the frame. -/
theorem readAudioMessage_bytes {frame : AudioFrame} (h : frame.Fits) :
    readAudioMessage frame.bytes = .ok frame.message := by
  have hrate := BigEndian.decode_encode 4 h.sampleRate
  have hchannels := BigEndian.decode_encode 1 h.channels
  have hts := BigEndian.decode_encode 8 h.timestampUs
  rw [readAudioMessage_of_ge (by simp [AudioFrame.bytes]; omega)]
  simp only [AudioFrame.bytes, AudioFrame.message, BigEndian.drop_encode_append,
    BigEndian.take_encode_append, Nat.reduceLeDiff, Nat.reduceSub, List.drop_zero,
    List.drop_succ_cons, hrate, hchannels, hts]

theorem AudioPacket.fits_frame (p : AudioPacket) : p.frame.Fits where
  type := p.type.toNat_lt
  sampleRate := p.sampleRate.toNat_lt
  channels := p.channels.toNat_lt
  timestampUs := p.timestampUs.toNat_lt

/-- What an audio handler of the server does with a packet of its own type. -/
theorem onAudioData_bytes {stream : AudioStream} {p : AudioPacket}
    (htype : p.type.toNat = stream.type) (s : AudioState) (rest : List UInt8) :
    onAudioData stream s (p.bytes ++ rest) = .ok
      { frames := s.frames ++ [p.frame], messages := s.messages ++ [p.frame.bytes] } := by
  have hframe : { p.frame with type := stream.type } = p.frame := by rw [← htype]; rfl
  simp only [onAudioData, p.parse_bytes rest, bind, Except.bind, hframe,
    packAudioForWs_of_fits p.fits_frame]

/-- **Audio from the handler to the browser.**  A packet that `queue_audio` builds for
either kind of audio, at the front of a chunk, is parsed to its own fields; it goes to the
socket to which the server assigns the packet's type; and the message that the server
sends for it is read by the browser as the packet's sample rate, channel count, timestamp
and PCM. -/
theorem audio_packet_reaches_browser (type : UInt8) (sampleRate : UInt32) (channels : UInt8)
    (bits : UInt16) (timestampUs : UInt64) (pcm rest : List UInt8) (htype : type = 1 ∨ type = 2)
    (hpcm : pcm.length < 2 ^ 32) :
    let chunk := IpcBridge.queueAudio type sampleRate channels bits timestampUs pcm ++ rest
    let frame : AudioFrame :=
      { type := type.toNat, sampleRate := sampleRate.toNat, channels := channels.toNat
        bitsPerSample := bits.toNat, timestampUs := timestampUs.toNat, pcm }
    parseAudioPacket chunk = .ok (some frame) ∧
      ∃ stream : AudioStream, ∃ message : List UInt8,
        IpcBridge.audioTarget type = stream.socket ∧ stream.type = type.toNat ∧
        (∀ s, onAudioData stream s chunk = .ok
          { frames := s.frames ++ [frame], messages := s.messages ++ [message] }) ∧
        packAudioForWs frame = .ok message ∧
        readAudioMessage message = .ok
          { sampleRate := sampleRate.toNat, channels := channels.toNat
            ts := timestampUs.toNat, pcm } := by
  intro chunk frame
  let p : AudioPacket := { type, sampleRate, channels, bits, timestampUs, pcm, fits := hpcm }
  obtain ⟨stream, htarget, hstream⟩ : ∃ stream : AudioStream,
      IpcBridge.audioTarget type = stream.socket ∧ stream.type = type.toNat := by
    rcases htype with rfl | rfl
    · exact ⟨.media, AudioStream.audioTarget_type .media, rfl⟩
    · exact ⟨.speech, AudioStream.audioTarget_type .speech, rfl⟩
  refine ⟨p.parse_bytes rest, stream, p.frame.bytes, htarget, hstream, ?_, ?_, ?_⟩
  · exact fun s => onAudioData_bytes (p := p) hstream.symm s rest
  · exact packAudioForWs_of_fits p.fits_frame
  · exact readAudioMessage_bytes p.fits_frame

/-- A speech packet of one sample, with a byte of the next packet behind it. -/
theorem speech_packet_reaches_browser :
    parseAudioPacket (IpcBridge.queueAudio 2 16000 1 16 7 [3, 4] ++ [9]) = .ok (some
      { type := 2, sampleRate := 16000, channels := 1, bitsPerSample := 16
        timestampUs := 7, pcm := [3, 4] }) :=
  (audio_packet_reaches_browser 2 16000 1 16 7 [3, 4] [9] (Or.inr rfl) (by decide)).1

end Whutfa
