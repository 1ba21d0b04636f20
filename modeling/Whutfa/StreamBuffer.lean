import Whutfa.Deframer
import Whutfa.IpcPackets

/-! # The length-prefixed reader

`LengthPrefixedReader` of `server/src/stream-buffer.ts`.  Its loop is the loop of a
`Deframer`: `next` is one turn of it, on a buffer that may hold no whole length
field or no whole frame yet (the loop ends), a whole frame (it is cut off and
handed to `onFrame`), or a length above the limit (the buffer is emptied and the
loop ends).

The main result is that the reader inverts `queue_video`: whatever the handler
queues within the limit, and however the kernel cuts the stream, the server
parses the same timestamps and bytes back (`video_stream_roundtrip`).
-/
namespace Whutfa
namespace LengthPrefixedReader

/-- One turn of the loop of `push`. -/
def next (buffer : List UInt8) : Cut UInt8 (List UInt8) :=
  if buffer.length < 4 then .more
  else
    let len := BigEndian.decode (buffer.take 4)
    if len > 10000000 then .reject
    else if buffer.length < 4 + len then .more
    else .frame (subarray buffer 4 (4 + len)) (buffer.drop (4 + len))

theorem next_frame {b f r : List UInt8} (h : next b = .frame f r) :
    ∃ len, 4 + len ≤ b.length ∧ BigEndian.decode (b.take 4) = len ∧ len ≤ 10000000 ∧
      f = (b.drop 4).take len ∧ r = b.drop (4 + len) := by
  simp only [next] at h
  split at h
  · cases h
  · split at h
    · cases h
    · split at h
      · cases h
      · obtain ⟨rfl, rfl⟩ := Cut.frame.inj h
        refine ⟨_, by omega, rfl, by omega, ?_, rfl⟩
        rw [subarray, List.drop_take, Nat.add_sub_cancel_left]

/-- What makes `next` deliver a frame. -/
theorem next_eq_frame {b : List UInt8} (len : Nat) (hb : 4 + len ≤ b.length)
    (hlen : BigEndian.decode (b.take 4) = len) (hmax : len ≤ 10000000) :
    next b = .frame ((b.drop 4).take len) (b.drop (4 + len)) := by
  simp only [next, hlen]
  rw [if_neg (by omega), if_neg (by omega), if_neg (by omega), subarray, List.drop_take,
    Nat.add_sub_cancel_left]

theorem next_reject {b : List UInt8} :
    next b = .reject ↔ 4 ≤ b.length ∧ 10000000 < BigEndian.decode (b.take 4) := by
  simp only [next]
  split_ifs with h₁ h₂ h₃
  · simp; omega
  · simp; omega
  · simp; omega
  · simp; omega

theorem next_append {b f r : List UInt8} (c : List UInt8) (h : next b = .frame f r) :
    next (b ++ c) = .frame f (r ++ c) := by
  obtain ⟨len, hb, hlen, hmax, rfl, rfl⟩ := next_frame h
  have htake : (b ++ c).take 4 = b.take 4 := List.take_append_of_le_length (by omega)
  rw [next_eq_frame len (by simp; omega) (htake ▸ hlen) hmax,
    List.drop_append_of_le_length (by omega), List.drop_append_of_le_length hb,
    List.take_append_of_le_length (by simp; omega)]

theorem reject_append {b : List UInt8} (c : List UInt8) (h : next b = .reject) :
    next (b ++ c) = .reject := by
  obtain ⟨hb, hlen⟩ := next_reject.mp h
  refine next_reject.mpr ⟨by simp; omega, ?_⟩
  rwa [List.take_append_of_le_length hb]

end LengthPrefixedReader

/-- `LengthPrefixedReader`: `lengthPrefixedReader.push` is its `push`, from the
buffer before a chunk to the frames handed to `onFrame` and the buffer after it. -/
def lengthPrefixedReader : Deframer UInt8 (List UInt8) where
  next := LengthPrefixedReader.next
  next_shorter h := by
    obtain ⟨len, hb, -, -, -, rfl⟩ := LengthPrefixedReader.next_frame h
    rw [List.length_drop]
    omega
  next_append c h := LengthPrefixedReader.next_append c h
  reject_append c h := LengthPrefixedReader.reject_append c h

theorem lengthPrefixedReader_nil : lengthPrefixedReader.next [] = .more := rfl

/-- The reader recognises a packet of `queue_video`, whatever follows it. -/
theorem lengthPrefixedReader_next_packet (p : VideoPacket) (rest : List UInt8) :
    lengthPrefixedReader.next (p.bytes ++ rest) = .frame p.payload rest := by
  have hfits := p.fits
  have hbytes : p.bytes ++ rest =
      BigEndian.encode 4 p.payload.length ++ (p.payload ++ rest) := by
    rw [p.bytes_eq, List.append_assoc]
  have hlen : BigEndian.decode ((p.bytes ++ rest).take 4) = p.payload.length := by
    rw [hbytes, BigEndian.take_encode_append, BigEndian.decode_encode 4]
    rw [p.length_payload]
    omega
  have hnext := LengthPrefixedReader.next_eq_frame p.payload.length
    (by rw [hbytes]; simp) hlen (by rw [p.length_payload]; exact hfits)
  have hskip : (p.bytes ++ rest).drop 4 = p.payload ++ rest := by
    rw [hbytes, BigEndian.drop_encode_append (Nat.le_refl 4), Nat.sub_self, List.drop_zero]
  rwa [← List.drop_drop, hskip, List.take_left' rfl, List.drop_left' rfl] at hnext

/-- A stream of packets drains to their payloads, and to nothing else. -/
theorem lengthPrefixedReader_drains (packets : List VideoPacket) :
    lengthPrefixedReader.Drains (packets.flatMap VideoPacket.bytes)
      (packets.map VideoPacket.payload) [] := by
  have h : lengthPrefixedReader.Drains (packets.flatMap VideoPacket.bytes ++ [])
      (packets.map VideoPacket.payload) [] :=
    .encoded (fun p _ rest => lengthPrefixedReader_next_packet p rest) lengthPrefixedReader_nil
  rwa [List.append_nil] at h

/-- **Round trip of the video stream.**  For every list of frames within the
reader's limit and every way of cutting their packets into chunks, the frames a
fresh reader delivers are parsed back to the timestamps and bytes that were
queued, in order, and the reader's buffer ends empty. -/
theorem video_stream_roundtrip (packets : List VideoPacket) (chunks : List (List UInt8))
    (hcut : chunks.flatten = packets.flatMap VideoPacket.bytes) :
    (lengthPrefixedReader.feed [] chunks).1.map parseVideoPayload =
        packets.map (fun p => .ok (some p.frame)) ∧
      (lengthPrefixedReader.feed [] chunks).2 = [] := by
  have hdrains := lengthPrefixedReader_drains packets
  rw [← hcut] at hdrains
  rw [Deframer.Drains.feed lengthPrefixedReader_nil hdrains]
  refine ⟨?_, rfl⟩
  rw [List.map_map]
  exact List.map_congr_left fun p _ => p.parse_payload

/-- Two packets, cut inside the first length field and between the two payloads. -/
theorem video_stream_roundtrip_two :
    (lengthPrefixedReader.feed [] [[0, 0], [0, 9, 0, 0, 0, 0, 0, 0, 0, 7, 101, 0, 0],
        [0, 8, 0, 0, 0, 0, 0, 0, 0, 8]]).1.map parseVideoPayload =
      [.ok (some { timestampUs := 7, data := [101], keyframe := false }),
        .ok (some { timestampUs := 8, data := [], keyframe := false })] :=
  (video_stream_roundtrip
    [{ timestampUs := 7, data := [101], fits := by decide },
      { timestampUs := 8, data := [], fits := by decide }]
    [[0, 0], [0, 9, 0, 0, 0, 0, 0, 0, 0, 7, 101, 0, 0],
      [0, 8, 0, 0, 0, 0, 0, 0, 0, 8]] (by decide)).1

/-! ## Streams of any bytes -/

namespace LengthPrefixedReader

theorem next_more {b : List UInt8} :
    next b = .more ↔ b.length < 4 ∨
      BigEndian.decode (b.take 4) ≤ 10000000 ∧ b.length < 4 + BigEndian.decode (b.take 4) := by
  simp only [next]
  split_ifs with h₁ h₂ h₃
  · simp [h₁]
  · simp; omega
  · simp; omega
  · simp; omega

theorem frontDetermined : lengthPrefixedReader.FrontDetermined := by
  intro b f r h
  obtain ⟨len, hb, hlen, hmax, rfl, rfl⟩ := next_frame h
  refine ⟨b.take (4 + len), (List.take_append_drop _ _).symm, fun rest => ?_⟩
  have hlength : (b.take (4 + len)).length = 4 + len := List.length_take_of_le hb
  have hfour : (b.take (4 + len) ++ rest).take 4 = b.take 4 := by
    rw [List.take_append_of_le_length (by omega), List.take_take, Nat.min_eq_left (by omega)]
  show next _ = _
  rw [next_eq_frame len (by rw [List.length_append]; omega) (hfour ▸ hlen) hmax,
    List.drop_left' hlength, List.drop_append_of_le_length (by omega),
    List.take_append_of_le_length (by rw [List.length_drop]; omega), List.drop_take,
    List.take_take]
  simp

/-- A refused length is the stream's own: it is met whatever has been buffered behind it. -/
theorem refusal_iff {m front rest : List UInt8} (hm : m = front ++ rest) :
    next front = .reject ↔ 4 ≤ front.length ∧ 10000000 < BigEndian.decode (m.take 4) := by
  rw [next_reject, hm]
  constructor
  · rintro ⟨hfour, hlen⟩
    rw [List.take_append_of_le_length hfour]
    exact ⟨hfour, hlen⟩
  · rintro ⟨hfour, hlen⟩
    rw [List.take_append_of_le_length hfour] at hlen
    exact ⟨hfour, hlen⟩

end LengthPrefixedReader

/-- **The buffer between two chunks.**  Whatever bytes have come, after a `push` the buffer
is shorter than a length field and the longest frame, and holds no complete frame; and
the loop, in which a frame may be empty, has ended within as many turns as it had bytes,
and one more. -/
theorem buffer_between_chunks (chunks : List (List UInt8)) (chunk : List UInt8) :
    let before := (lengthPrefixedReader.feed [] chunks).2
    let b := (lengthPrefixedReader.push before chunk).2
    b.length < 10000004 ∧
      (b.length < 4 ∨ BigEndian.decode (b.take 4) ≤ 10000000 ∧
        b.length < 4 + BigEndian.decode (b.take 4)) ∧
      lengthPrefixedReader.loop ((before ++ chunk).length + 1) (before ++ chunk) =
        some (lengthPrefixedReader.push before chunk) := by
  intro before b
  have hidle : LengthPrefixedReader.next b = .more := by
    rcases lengthPrefixedReader.drain_idle (before ++ chunk) with hmore | hempty
    · exact hmore
    · show lengthPrefixedReader.next (lengthPrefixedReader.drain (before ++ chunk)).2 = .more
      rw [hempty]
      exact lengthPrefixedReader_nil
  have hpartial := LengthPrefixedReader.next_more.mp hidle
  refine ⟨?_, hpartial, Deframer.loop_eq_drain (Nat.lt_succ_self _)⟩
  rcases hpartial with hshort | ⟨hlimit, hshort⟩
  · omega
  · omega

/-- **What is delivered depends on the bytes alone exactly when a refused length is the
end of it.**  Two ways of cutting a stream give the same frames, whichever they are, if
and only if behind the first length above the limit that is met, reading frame by frame,
no complete frame begins at any byte. -/
theorem chunks_irrelevant_iff (stream : List UInt8) :
    (∀ chunks chunks' : List (List UInt8), chunks.flatten = stream → chunks'.flatten = stream →
      (lengthPrefixedReader.feed [] chunks).1 = (lengthPrefixedReader.feed [] chunks').1) ↔
    ∀ frames m, lengthPrefixedReader.Reads stream frames m → 4 ≤ m.length →
      10000000 < BigEndian.decode (m.take 4) →
        ∀ k, 4 ≤ k → ∀ f r, LengthPrefixedReader.next (m.drop k) ≠ .frame f r := by
  rw [Deframer.feed_independent_iff LengthPrefixedReader.frontDetermined lengthPrefixedReader_nil]
  constructor
  · intro h frames m hreads hfour hlen k hk
    have hm : m = m.take 4 ++ m.drop 4 := (List.take_append_drop 4 m).symm
    have hreject := (LengthPrefixedReader.refusal_iff hm).mpr
      ⟨(List.length_take_of_le hfour).ge, hlen⟩
    refine h frames (m.take 4) (m.drop 4) (hm ▸ hreads) hreject ((m.drop 4).take (k - 4)) _ ?_
    rw [show m.drop k = (m.drop 4).drop (k - 4) by rw [List.drop_drop, Nat.add_sub_of_le hk],
      List.take_append_drop]
  · intro h frames front rest hreads hreject skipped tail hrest f r
    obtain ⟨hfour, hlen⟩ := (LengthPrefixedReader.refusal_iff rfl).mp hreject
    have htail : (front ++ rest).drop (front.length + skipped.length) = tail := by
      rw [hrest, ← List.append_assoc]
      exact List.drop_left' (List.length_append ..)
    have hbarren := h frames _ hreads (by rw [List.length_append]; omega) hlen
      (front.length + skipped.length) (by omega) f r
    rwa [htail] at hbarren

/-- A length of 2^32 - 1, and a frame of one byte behind it: thrown away with it, or
delivered. -/
theorem frame_behind_refusal :
    [[255, 255, 255, 255, 0, 0, 0, 1, 42]].flatten =
        [[(255 : UInt8), 255, 255, 255], [0, 0, 0, 1, 42]].flatten ∧
      (lengthPrefixedReader.feed [] [[255, 255, 255, 255, 0, 0, 0, 1, 42]]).1 = [] ∧
      (lengthPrefixedReader.feed [] [[255, 255, 255, 255], [0, 0, 0, 1, 42]]).1 = [[42]] := by
  decide

end Whutfa
