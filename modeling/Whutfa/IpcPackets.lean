import Whutfa.IpcFraming

/-! # The handler's packets

What `IpcBridge` (`aa-handler/src/ipc_bridge.cpp`) puts on its four sockets.
`htonl`, `htons` and `htobe64` followed by `memcpy` store a number's bytes most
significant first on every host, which is `BigEndian.encode`.
-/
namespace Whutfa

/-- The four sockets of `IpcBridge`. -/
inductive SocketName
  | bridge
  | video
  | audioMedia
  | audioSpeech
  deriving DecidableEq, Repr

namespace IpcBridge

/-- The packet `queue_video` hands to `enqueue`.  The length field counts the
timestamp, and is the low 32 bits of that count. -/
def queueVideo (timestampUs : UInt64) (data : List UInt8) : List UInt8 :=
  let payloadLen : UInt32 := UInt32.ofNat (8 + data.length)
  BigEndian.encode 4 payloadLen.toNat ++ (BigEndian.encode 8 timestampUs.toNat ++ data)

/-- The packet `queue_audio` hands to `enqueue`. -/
def queueAudio (type : UInt8) (sampleRate : UInt32) (channels : UInt8) (bits : UInt16)
    (timestampUs : UInt64) (pcm : List UInt8) : List UInt8 :=
  let len : UInt32 := UInt32.ofNat pcm.length
  BigEndian.encode 1 type.toNat ++ (BigEndian.encode 4 sampleRate.toNat ++
    (BigEndian.encode 1 channels.toNat ++ (BigEndian.encode 2 bits.toNat ++
      (BigEndian.encode 8 timestampUs.toNat ++ (BigEndian.encode 4 len.toNat ++ pcm)))))

/-- The socket `queue_audio` chooses. -/
def audioTarget (type : UInt8) : SocketName :=
  if type = 2 then .audioSpeech else .audioMedia

end IpcBridge

/-! ## Packets within the format's limits -/

/-- A video frame whose payload the reader's limit admits. -/
structure VideoPacket where
  timestampUs : UInt64
  data : List UInt8
  fits : 8 + data.length ≤ 10000000

namespace VideoPacket

/-- What follows the length prefix. -/
def payload (p : VideoPacket) : List UInt8 := BigEndian.encode 8 p.timestampUs.toNat ++ p.data

/-- The bytes that `queue_video` queues. -/
def bytes (p : VideoPacket) : List UInt8 := IpcBridge.queueVideo p.timestampUs p.data

/-- The frame the server makes of the packet. -/
def frame (p : VideoPacket) : VideoFrame :=
  { timestampUs := p.timestampUs.toNat, data := p.data, keyframe := detectKeyframe p.data }

@[simp] theorem length_payload (p : VideoPacket) : p.payload.length = 8 + p.data.length := by
  simp [payload]

theorem bytes_eq (p : VideoPacket) :
    p.bytes = BigEndian.encode 4 p.payload.length ++ p.payload := by
  have hfits := p.fits
  have hlen : (UInt32.ofNat (8 + p.data.length)).toNat = 8 + p.data.length := by
    rw [UInt32.toNat_ofNat']
    omega
  rw [length_payload, bytes, IpcBridge.queueVideo]
  simp only [hlen, payload]

theorem parse_payload (p : VideoPacket) : parseVideoPayload p.payload = .ok (some p.frame) := by
  have hts : p.timestampUs.toNat < 256 ^ 8 := p.timestampUs.toNat_lt
  rw [parseVideoPayload_of_ge (by simp), payload, List.take_left' (by simp),
    List.drop_left' (by simp), BigEndian.decode_encode 8 hts]
  rfl

end VideoPacket

/-- An audio packet whose PCM length its 32-bit field can hold. -/
structure AudioPacket where
  type : UInt8
  sampleRate : UInt32
  channels : UInt8
  bits : UInt16
  timestampUs : UInt64
  pcm : List UInt8
  fits : pcm.length < 2 ^ 32

namespace AudioPacket

/-- The bytes that `queue_audio` queues. -/
def bytes (p : AudioPacket) : List UInt8 :=
  IpcBridge.queueAudio p.type p.sampleRate p.channels p.bits p.timestampUs p.pcm

/-- The frame with the packet's fields. -/
def frame (p : AudioPacket) : AudioFrame :=
  { type := p.type.toNat, sampleRate := p.sampleRate.toNat, channels := p.channels.toNat
    bitsPerSample := p.bits.toNat, timestampUs := p.timestampUs.toNat, pcm := p.pcm }

@[simp] theorem length_bytes (p : AudioPacket) : p.bytes.length = 20 + p.pcm.length := by
  simp only [bytes, IpcBridge.queueAudio, List.length_append, BigEndian.length_encode]
  omega

/-- **A whole packet at the front of a chunk is parsed back**, whatever follows. -/
theorem parse_bytes (p : AudioPacket) (rest : List UInt8) :
    parseAudioPacket (p.bytes ++ rest) = .ok (some p.frame) := by
  have hlen : (UInt32.ofNat p.pcm.length).toNat = p.pcm.length :=
    UInt32.toNat_ofNat_of_lt' p.fits
  have htype := BigEndian.decode_encode 1 p.type.toNat_lt
  have hrate := BigEndian.decode_encode 4 p.sampleRate.toNat_lt
  have hchannels := BigEndian.decode_encode 1 p.channels.toNat_lt
  have hbits := BigEndian.decode_encode 2 p.bits.toNat_lt
  have hts := BigEndian.decode_encode 8 p.timestampUs.toNat_lt
  have hpcm := BigEndian.decode_encode 4 p.fits
  rw [parseAudioPacket_of_ge (by simp; omega)]
  simp only [audioFrameAt, subarray, List.drop_take, bytes, IpcBridge.queueAudio, hlen,
    List.append_assoc, BigEndian.drop_encode_append, BigEndian.take_encode_append,
    Nat.reduceLeDiff, Nat.reduceSub, List.drop_zero, List.length_append, BigEndian.length_encode,
    htype, hrate, hchannels, hbits, hts, hpcm]
  rw [if_neg (by omega), Nat.add_sub_cancel_left, List.take_left' rfl]
  rfl

end AudioPacket

end Whutfa
