import Mathlib.Data.Rat.Cast.Order
import Whutfa.JsString
import Whutfa.Transition

/-! # The browser's PCM player

`PcmPlayerProcessor` (`frontend/audio-worklet.js`): a queue of chunks, filled by the
messages that `connectAudio` (`frontend/app.js`) posts and drained by the audio thread's
calls of `process`.  A `Float32Array` is a list of rationals, which is exact: a sample is
a 16-bit integer over 32768.  An `Int16Array` is a list of samples.

A call fills the first channel from the front of the queue and copies it to the second.
Nothing is lost on the way: what has been written and what is still queued are together
what was posted, over 32768 (`Conserved`), and each message and each call keeps it so
(`plays_what_it_receives`).  The player asks for no number of channels, though.  Of the
interleaved samples of two channels the first output channel gets all, one after the other,
and the second a copy, so that stereo comes out as such only where it is constant
(`stereo_iff_constant`).
-/
namespace Whutfa.AudioWorklet

open JsString (js)

/-- The object that `connectAudio` posts. -/
structure Message where
  type : JsString
  pcm : List UInt8
  sampleRate : Nat
  channels : Nat

/-- `new Int16Array(buffer)` on a little-endian host; `none` is the `RangeError` for an
odd number of bytes. -/
def int16Array : List UInt8 → Option (List Int16)
  | [] => some []
  | [_] => none
  | low :: high :: rest =>
      (int16Array rest).map ((UInt16.ofNat (low.toNat + 256 * high.toNat)).toInt16 :: ·)

/-- The processor of the worklet, with the chunks that have not been played. -/
structure PcmPlayerProcessor where
  queue : List (List Int16)

/-- The chunk that a message brings. -/
def Message.chunk (m : Message) : Option (List Int16) :=
  if m.type = js "pcm" then int16Array m.pcm else none

/-- The handler of `port.onmessage`. -/
def onmessage (p : PcmPlayerProcessor) (m : Message) : PcmPlayerProcessor :=
  match m.chunk with
  | some chunk => { queue := p.queue ++ [chunk] }
  | none => p

/-- `chunk[j] / 32768`. -/
def sample (x : Int16) : ℚ := x.toInt / 32768

/-- What the `while` loop of `process` changes. -/
structure Fill where
  i : Nat
  ch0 : List ℚ
  queue : List (List Int16)

/-- The samples of the first chunk that fit are written, and taken off the queue. -/
def takeFrom (s : Fill) (chunk : List Int16) (queue : List (List Int16)) : Fill :=
  let take := min chunk.length (s.ch0.length - s.i)
  { i := s.i + take
    ch0 := s.ch0.take s.i ++ (chunk.take take).map sample ++ s.ch0.drop (s.i + take)
    queue := if chunk.length ≤ take then queue else chunk.drop take :: queue }

/-- A turn of the loop. -/
inductive Turn
  | again (s : Fill)
  | ended (s : Fill)

/-- One turn of the loop in `process`. -/
def turn (s : Fill) : Turn :=
  if s.i < s.ch0.length then
    match s.queue with
    | [] => .ended { s with
        ch0 := s.ch0.take s.i ++ List.replicate (s.ch0.length - s.i) 0 }
    | chunk :: queue => .again (takeFrom s chunk queue)
  else .ended s

/-- At most `fuel` turns; `none` if the loop has not ended by then. -/
def loop : Nat → Fill → Option Fill
  | 0, _ => none
  | fuel + 1, s =>
      match turn s with
      | .ended t => some t
      | .again t => loop fuel t

/-- The channels of an output; an output is a list of arrays. -/
abbrev Output := List (List ℚ)

/-- What a call leaves: `filled` is the loop's `i` at its end. -/
structure Played where
  processor : PcmPlayerProcessor
  outputs : List Output
  filled : Nat

/-- `output[1][k] = ch0[k]` for each `k < ch0.length`, where the array has an index `k`. -/
def copyToSecond (ch0 : List ℚ) : List (List ℚ) → List (List ℚ)
  | [] => []
  | ch1 :: rest => (ch0.take ch1.length ++ ch1.drop ch0.length) :: rest

/-- `process`, which does nothing without an output or without a channel. -/
def process (p : PcmPlayerProcessor) : List Output → Option Played
  | (ch0 :: rest) :: outputs =>
      (loop (p.queue.length + 1) { i := 0, ch0, queue := p.queue }).map fun t =>
        { processor := { queue := t.queue }
          outputs := (t.ch0 :: copyToSecond t.ch0 rest) :: outputs, filled := t.i }
  | outputs => some { processor := p, outputs, filled := 0 }

/-! ## Every list of samples is the content of a buffer

What a page posts is logged as its samples; here they meet the bytes that `onmessage` makes
an `Int16Array` of. -/

/-- The two bytes of a sample. -/
def sampleBytes (x : Int16) : List UInt8 :=
  [UInt8.ofNat x.toUInt16.toNat, UInt8.ofNat (x.toUInt16.toNat / 256)]

theorem int16Array_bytes (samples : List Int16) :
    int16Array (samples.flatMap sampleBytes) = some samples := by
  induction samples with
  | nil => rfl
  | cons x samples ih =>
    have hlt := x.toUInt16.toNat_lt
    have hvalue : (UInt8.ofNat x.toUInt16.toNat).toNat +
        256 * (UInt8.ofNat (x.toUInt16.toNat / 256)).toNat = x.toUInt16.toNat := by
      rw [UInt8.toNat_ofNat', UInt8.toNat_ofNat']
      omega
    rw [List.flatMap_cons, sampleBytes, List.cons_append, List.singleton_append, int16Array, ih,
      hvalue, UInt16.ofNat_toNat, Int16.toInt16_toUInt16]
    rfl

/-! ## The loop -/

/-- What the loop makes of an output and a queue. -/
structure Filled (s t : Fill) : Prop where
  ch0 : t.ch0 = s.ch0.take s.i ++
    ((s.queue.flatten.take (s.ch0.length - s.i)).map sample ++
      List.replicate (s.ch0.length - s.i - s.queue.flatten.length) 0)
  queue : t.queue.flatten = s.queue.flatten.drop (s.ch0.length - s.i)
  i : t.i = s.i + min (s.ch0.length - s.i) s.queue.flatten.length
  exhausted : t.i < s.ch0.length → t.queue = []

/-- A turn that takes `n` samples from the first chunk: it takes the whole chunk off the
queue, or reaches the end of the output. -/
structure Takes (n : Nat) (s u : Fill) : Prop where
  room : n ≤ s.ch0.length - s.i
  queued : n ≤ s.queue.flatten.length
  i : u.i = s.i + n
  length : u.ch0.length = s.ch0.length
  ch0 : u.ch0.take u.i = s.ch0.take s.i ++ (s.queue.flatten.take n).map sample
  queue : u.queue.flatten = s.queue.flatten.drop n
  progress : u.queue.length < s.queue.length ∨
    u.i = u.ch0.length ∧ u.queue.length = s.queue.length

theorem takes_takeFrom {s : Fill} {chunk : List Int16} {queue : List (List Int16)} {n : Nat}
    (hqueue : s.queue = chunk :: queue) (hi : s.i ≤ s.ch0.length)
    (hn : n = min chunk.length (s.ch0.length - s.i)) : Takes n s (takeFrom s chunk queue) := by
  have heq : takeFrom s chunk queue =
      { i := s.i + n
        ch0 := s.ch0.take s.i ++ (chunk.take n).map sample ++ s.ch0.drop (s.i + n)
        queue := if chunk.length ≤ n then queue else chunk.drop n :: queue } := by
    rw [hn]
    rfl
  have hchunk : n ≤ chunk.length := hn ▸ Nat.min_le_left _ _
  have hroom : n ≤ s.ch0.length - s.i := hn ▸ Nat.min_le_right _ _
  have hwritten : (s.ch0.take s.i ++ (chunk.take n).map sample).length = s.i + n := by
    rw [List.length_append, List.length_map, List.length_take, List.length_take]
    omega
  have hlength : (s.ch0.take s.i ++ (chunk.take n).map sample ++ s.ch0.drop (s.i + n)).length =
      s.ch0.length := by
    rw [List.length_append, hwritten, List.length_drop]
    omega
  rw [heq]
  exact {
    room := hroom
    queued := by
      rw [hqueue, List.flatten_cons, List.length_append]
      omega
    i := rfl
    length := hlength
    ch0 := by
      rw [hqueue, List.flatten_cons, List.take_append_of_le_length hchunk]
      exact List.take_left' hwritten
    queue := by
      rw [hqueue, List.flatten_cons, List.drop_append_of_le_length hchunk]
      by_cases hle : chunk.length ≤ n
      · rw [if_pos hle, List.drop_eq_nil_of_le hle, List.nil_append]
      · rw [if_neg hle, List.flatten_cons]
    progress := by
      rw [hqueue]
      by_cases hle : chunk.length ≤ n
      · -- the chunk is used up
        rw [if_pos hle]
        exact Or.inl (Nat.lt_succ_self _)
      · have hend : s.i + n = s.ch0.length := by omega
        rw [if_neg hle]
        exact Or.inr ⟨hend.trans hlength.symm, rfl⟩ }

/-- What is filled after a turn, and the turn before it. -/
theorem Filled.after {n : Nat} {s u t : Fill} (hturn : Takes n s u) (h : Filled u t) :
    Filled s t := by
  have hroom := hturn.room
  have hqueued := hturn.queued
  have hu : u.ch0.length - u.i = s.ch0.length - s.i - n := by
    rw [hturn.length, hturn.i]
    omega
  have hsplit : s.ch0.length - s.i = n + (s.ch0.length - s.i - n) := by omega
  exact {
    ch0 := by
      rw [h.ch0, hturn.ch0, hu, hturn.queue, List.length_drop, List.append_assoc]
      conv_rhs => rw [hsplit, List.take_add, List.map_append, List.append_assoc]
      congr 4
      omega
    queue := by
      rw [h.queue, hu, hturn.queue, List.drop_drop]
      congr 1
      omega
    i := by
      rw [h.i, hu, hturn.i, hturn.queue, List.length_drop]
      omega
    exhausted := fun hlt => h.exhausted (hturn.length ▸ hlt) }

theorem filled_of_full {s : Fill} (hi : s.i = s.ch0.length) : Filled s s := by
  have hroom : s.ch0.length - s.i = 0 := by omega
  exact {
    ch0 := by simp [hi]
    queue := by rw [hroom, List.drop_zero]
    i := by rw [hroom, Nat.zero_min, Nat.add_zero]
    exhausted := fun hlt => absurd hi (Nat.ne_of_lt hlt) }

/-- **The loop ends, and fills the output from the queue.**  Each turn takes a chunk off
the queue, also an empty one, or is the last but one. -/
theorem loop_filled {fuel : Nat} {s : Fill} (hi : s.i ≤ s.ch0.length)
    (hfuel : s.queue.length < fuel ∨ s.i = s.ch0.length ∧ 0 < fuel) :
    ∃ t, loop fuel s = some t ∧ Filled s t := by
  induction fuel generalizing s with
  | zero => omega
  | succ fuel ih =>
    by_cases hlt : s.i < s.ch0.length
    · cases hqueue : s.queue with
      | nil =>
        -- zeros to the end of the output, and the loop is left
        refine ⟨_, by rw [loop, turn, if_pos hlt, hqueue], ?_⟩
        exact {
          ch0 := by simp [hqueue]
          queue := by simp [hqueue]
          i := by simp [hqueue]
          exhausted := fun _ => rfl }
      | cons chunk queue =>
        -- the front of the first chunk, and the rest of the loop
        have htakes := takes_takeFrom hqueue hi rfl
        have hle : (takeFrom s chunk queue).i ≤ (takeFrom s chunk queue).ch0.length := by
          have hroom := htakes.room
          rw [htakes.i, htakes.length]
          omega
        have hrest : (takeFrom s chunk queue).queue.length < fuel ∨
            (takeFrom s chunk queue).i = (takeFrom s chunk queue).ch0.length ∧ 0 < fuel := by
          have hprogress := htakes.progress
          rw [hqueue, List.length_cons] at hprogress
          rw [hqueue, List.length_cons] at hfuel
          omega
        obtain ⟨t, hloop, hfilled⟩ := ih hle hrest
        refine ⟨t, ?_, hfilled.after htakes⟩
        rw [loop, turn, if_pos hlt, hqueue]
        exact hloop
    · refine ⟨s, ?_, filled_of_full (Nat.le_antisymm hi (Nat.not_lt.mp hlt))⟩
      rw [loop, turn, if_neg hlt]

/-! ## Calls -/

/-- What a call does to the first channel and to the queue: samples up to `filled`, then
zeros, and zeros only once the queue is exhausted. -/
structure Plays (p q : PcmPlayerProcessor) (ch0 played : List ℚ) (filled : Nat) : Prop where
  length : played.length = ch0.length
  count : filled = min ch0.length p.queue.flatten.length
  samples : played.take filled ++ q.queue.flatten.map sample = p.queue.flatten.map sample
  zeros : played.drop filled = List.replicate (ch0.length - filled) 0
  exhausted : filled < ch0.length → q.queue = []

theorem process_plays (p : PcmPlayerProcessor) (ch0 : List ℚ) (rest : List (List ℚ))
    (outputs : List Output) : ∃ q played filled,
      process p ((ch0 :: rest) :: outputs) = some
        { processor := q, outputs := (played :: copyToSecond played rest) :: outputs, filled } ∧
      Plays p q ch0 played filled := by
  obtain ⟨t, hloop, hfilled⟩ : ∃ t, loop (p.queue.length + 1) { i := 0, ch0, queue := p.queue } =
      some t ∧ Filled { i := 0, ch0, queue := p.queue } t :=
    loop_filled (Nat.zero_le _) (Or.inl (Nat.lt_succ_self _))
  have hi : t.i = min ch0.length p.queue.flatten.length := by
    rw [hfilled.i, Nat.zero_add, Nat.sub_zero]
  have hch0 : t.ch0 = (p.queue.flatten.take ch0.length).map sample ++
      List.replicate (ch0.length - p.queue.flatten.length) 0 := hfilled.ch0
  have hqueue : t.queue.flatten = p.queue.flatten.drop ch0.length := hfilled.queue
  have htaken : ((p.queue.flatten.take ch0.length).map sample).length = t.i := by
    rw [List.length_map, List.length_take, hi]
  refine ⟨{ queue := t.queue }, t.ch0, t.i, ?_, ?_⟩
  · rw [process, hloop]
    rfl
  · exact {
      length := by
        rw [hch0, List.length_append, htaken, List.length_replicate, hi]
        omega
      count := hi
      samples := by
        rw [hch0, List.take_left' htaken, hqueue, ← List.map_append, List.take_append_drop]
      zeros := by
        rw [hch0, List.drop_left' htaken, hi]
        congr 1
        omega
      exhausted := hfilled.exhausted }

/-- The second channel of an output, as long as the first, becomes a copy of it. -/
theorem copyToSecond_cons {ch0 ch1 : List ℚ} (h : ch1.length = ch0.length)
    (rest : List (List ℚ)) : copyToSecond ch0 (ch1 :: rest) = ch0 :: rest := by
  rw [copyToSecond, h, List.take_length, ← h, List.drop_length, List.append_nil]

/-! ## Runs -/

/-- The channel of the first output. -/
def channel (k : Nat) (outputs : List Output) : List ℚ := (outputs.head?.getD [])[k]?.getD []

/-- The message for a list of samples, as `connectAudio` posts it. -/
def pcmMessage (samples : List Int16) (sampleRate channels : Nat) : Message :=
  { type := js "pcm", pcm := samples.flatMap sampleBytes, sampleRate, channels }

/-- The processor, the samples that have been posted to it, and what the calls have
written to the two channels, without the zeros. -/
structure State where
  processor : PcmPlayerProcessor
  received : List Int16
  written : List ℚ
  written1 : List ℚ

/-- A processor that has just been made. -/
def initial : State :=
  { processor := { queue := [] }, received := [], written := [], written1 := [] }

/-- What the page's main thread and the audio thread do to the processor. -/
inductive Action
  /-- A chunk of samples is posted, an empty one perhaps. -/
  | post (samples : List Int16) (sampleRate channels : Nat)
  /-- A message of another type is posted. -/
  | other (m : Message)
  | process (outputs : List Output)

/-- What one call of `process` leaves behind, and what it has written without the zero fill. -/
def State.played (s : State) (result : Played) : State :=
  { s with processor := result.processor
           written := s.written ++ (channel 0 result.outputs).take result.filled
           written1 := s.written1 ++ (channel 1 result.outputs).take result.filled }

/-- What has been posted is put down as it is, whatever the handler makes of it. -/
def step (s : State) : Action → Option State
  | .post samples sampleRate channels =>
      some { s with
        processor := onmessage s.processor (pcmMessage samples sampleRate channels)
        received := s.received ++ samples }
  | .other m =>
      if m.type = js "pcm" then none else some { s with processor := onmessage s.processor m }
  | .process outputs => (process s.processor outputs).map s.played

/-- Nothing received is lost, repeated or out of order. -/
def Conserved (s : State) : Prop :=
  s.written ++ s.processor.queue.flatten.map sample = s.received.map sample

/-- The handler queues the samples that have been posted, as one chunk. -/
theorem onmessage_pcmMessage (p : PcmPlayerProcessor) (samples : List Int16)
    (sampleRate channels : Nat) :
    onmessage p (pcmMessage samples sampleRate channels) = { queue := p.queue ++ [samples] } := by
  have hchunk : (pcmMessage samples sampleRate channels).chunk = some samples := by
    rw [Message.chunk, pcmMessage, if_pos rfl, int16Array_bytes]
  rw [onmessage, hchunk]

theorem onmessage_other {m : Message} (h : m.type ≠ js "pcm") (p : PcmPlayerProcessor) :
    onmessage p m = p := by
  rw [onmessage, Message.chunk, if_neg h]

theorem conserved_step {s t : State} {a : Action} (h : Conserved s) (hstep : step s a = some t) :
    Conserved t := by
  cases a with
  | post samples sampleRate channels =>
    obtain rfl := Option.some.inj hstep
    rw [Conserved, onmessage_pcmMessage, List.flatten_append, List.flatten_singleton,
      List.map_append, List.map_append, ← List.append_assoc, h]
  | other m =>
    obtain ⟨htype, hstep⟩ := Option.ite_none_left_eq_some.mp hstep
    obtain rfl := Option.some.inj hstep
    rw [Conserved, onmessage_other htype]
    exact h
  | process outputs =>
    match outputs with
    | [] | [] :: _ =>
      -- nothing is written without an output
      obtain rfl := Option.some.inj hstep
      rw [Conserved, State.played, List.take_zero, List.append_nil]
      exact h
    | (ch0 :: rest) :: outputs =>
      obtain ⟨q, played, filled, hprocess, hplays⟩ := process_plays s.processor ch0 rest outputs
      rw [step, hprocess] at hstep
      obtain rfl := Option.some.inj hstep
      have hwritten : channel 0 ((played :: copyToSecond played rest) :: outputs) = played := rfl
      rw [Conserved, State.played, hwritten, List.append_assoc, hplays.samples]
      exact h

/-- **The player plays what it receives.**  After any messages and calls, what has been
written and what is in the queue, over 32768, make up the samples posted, in order.  A call
of `process` comes back; it pads the first channel with zeros to its end, but only when the
queue is exhausted, and the second channel is a copy of the first. -/
theorem plays_what_it_receives {s : State} (h : Transition.Reachable step (· = initial) s) :
    s.written ++ s.processor.queue.flatten.map (fun x => (x.toInt : ℚ) / 32768) =
        s.received.map (fun x => (x.toInt : ℚ) / 32768) ∧
      ∀ outputs, ∃ result, process s.processor outputs = some result ∧
        ∀ ch0 rest others, outputs = (ch0 :: rest) :: others →
          ∃ played rest', result.outputs = (played :: rest') :: others ∧
            Plays s.processor result.processor ch0 played result.filled ∧
            ∀ ch1 more, rest = ch1 :: more → ch1.length = ch0.length →
              rest' = played :: more := by
  have hinitial : Conserved initial := rfl
  have hconserved : Conserved s :=
    h.invariant_from hinitial fun _ _ _ hs hstep => conserved_step hs hstep
  refine ⟨hconserved, fun outputs => ?_⟩
  match outputs with
  | [] | [] :: _ => exact ⟨_, rfl, nofun⟩
  | (ch0 :: rest) :: outputs =>
    obtain ⟨q, played, filled, hprocess, hplays⟩ := process_plays s.processor ch0 rest outputs
    refine ⟨_, hprocess, ?_⟩
    rintro _ _ _ ⟨rfl, rfl, rfl⟩
    refine ⟨played, copyToSecond played rest, rfl, hplays, ?_⟩
    rintro ch1 more rfl hlength
    exact copyToSecond_cons (hlength.trans hplays.length.symm) more

/-- A chunk of two samples, an empty one and a message of another type, and one sample
written. -/
theorem plays_first_of_two :
    ∃ s, Transition.run step initial
        [.post [1, -2] 48000 2, .post [] 48000 2,
         .other { type := js "stop", pcm := [7], sampleRate := 0, channels := 0 },
         .process [[[0], [0]]]] = some s ∧
      s.received = [1, -2] ∧ s.processor.queue = [[-2], []] ∧
      s.written ++ s.processor.queue.flatten.map (fun x => (x.toInt : ℚ) / 32768) =
        s.received.map (fun x => (x.toInt : ℚ) / 32768) := by
  obtain ⟨s, hrun, hreceived, hqueue⟩ : ∃ s, Transition.run step initial
      [.post [1, -2] 48000 2, .post [] 48000 2,
       .other { type := js "stop", pcm := [7], sampleRate := 0, channels := 0 },
       .process [[[0], [0]]]] = some s ∧ s.received = [1, -2] ∧
        s.processor.queue = [[-2], []] := ⟨_, rfl, rfl, rfl⟩
  exact ⟨s, hrun, hreceived, hqueue, (plays_what_it_receives ⟨initial, _, rfl, hrun⟩).1⟩

/-! ## Two channels

The same runs, with interleaved samples and an output of two channels. -/

/-- The samples of the left channel of an interleaved stream. -/
def lefts {α : Type*} : List α → List α
  | [] => []
  | [x] => [x]
  | x :: _ :: rest => x :: lefts rest

/-- The samples of the right channel. -/
def rights {α : Type*} : List α → List α
  | [] => []
  | [_] => []
  | _ :: y :: rest => y :: rights rest

/-- What has been written is the left and the right channel of the stream received, one
frame for each position. -/
structure InStereo (s : State) : Prop where
  left : s.written <+: (lefts s.received).map sample
  right : s.written1 <+: (rights s.received).map sample
  frames : s.written.length = s.written1.length

/-- Two-channel PCM posted, and two channels of one length to fill. -/
def Action.stereo : Action → Bool
  | .post _ _ channels => channels == 2
  | .other _ => true
  | .process [[ch0, ch1]] => ch1.length == ch0.length
  | .process _ => false

/-- A step of a run in which all that is posted is stereo. -/
def stereoStep (s : State) (a : Action) : Option State := if a.stereo then step s a else none

/-- The first `w` frames are there, and their samples are all the same. -/
structure Constant (w : Nat) (stream : List Int16) : Prop where
  frames : 2 * w ≤ stream.length
  same : ∀ k < 2 * w, stream[k]? = stream[0]?

/-- A call finds that the frames for the samples it will have written are constant. -/
def FindsConstant (s : State) : Action → Prop
  | .process outputs =>
      Constant (min s.received.length (s.written.length + (channel 0 outputs).length)) s.received
  | _ => True

theorem getElem?_lefts {α : Type*} (l : List α) (k : Nat) : (lefts l)[k]? = l[2 * k]? := by
  induction l using lefts.induct generalizing k with
  | case1 => rfl
  | case2 x =>
    cases k with
    | zero => rfl
    | succ k => simp [lefts, Nat.mul_succ]
  | case3 x y rest ih =>
    cases k with
    | zero => rfl
    | succ k =>
      rw [lefts, List.getElem?_cons_succ, ih, Nat.mul_succ, List.getElem?_cons_succ,
        List.getElem?_cons_succ]

theorem getElem?_rights {α : Type*} (l : List α) (k : Nat) :
    (rights l)[k]? = l[2 * k + 1]? := by
  induction l using rights.induct generalizing k with
  | case1 => rfl
  | case2 x => simp [rights]
  | case3 x y rest ih =>
    cases k with
    | zero => rfl
    | succ k =>
      rw [rights, List.getElem?_cons_succ, ih, Nat.mul_succ, List.getElem?_cons_succ,
        List.getElem?_cons_succ]

/-- The front of a stream is the front of another. -/
theorem take_prefix_iff {α : Type*} {l m : List α} {w : Nat} (hw : w ≤ l.length) :
    l.take w <+: m ↔ ∀ k < w, m[k]? = l[k]? := by
  rw [List.prefix_iff_getElem?]
  constructor
  · intro h k hk
    have hlt : k < (l.take w).length := by rwa [List.length_take_of_le hw]
    rw [h k hlt, List.getElem_take, List.getElem?_eq_getElem]
  · intro h k hk
    have hlt : k < w := by rwa [List.length_take_of_le hw] at hk
    rw [h k hlt, List.getElem_take, List.getElem?_eq_getElem]

/-- **A stream is both of its channels only where it is constant.** -/
theorem constant_iff {stream : List Int16} {w : Nat} (hw : w ≤ stream.length) :
    stream.take w <+: lefts stream ∧ stream.take w <+: rights stream ↔ Constant w stream := by
  simp only [take_prefix_iff hw, getElem?_lefts, getElem?_rights]
  constructor
  · rintro ⟨hleft, hright⟩
    -- position `k` of the frames is the sample at `k / 2` in its channel
    have hhalf : ∀ k < 2 * w, stream[k]? = stream[k / 2]? := by
      intro k hk
      rcases Nat.mod_two_eq_zero_or_one k with hmod | hmod
      · have := hleft (k / 2) (by omega)
        rwa [show 2 * (k / 2) = k by omega] at this
      · have := hright (k / 2) (by omega)
        rwa [show 2 * (k / 2) + 1 = k by omega] at this
    refine ⟨?_, fun k hk => ?_⟩
    · -- the last right sample is there
      by_cases hzero : w = 0
      · omega
      · have hlast := hright (w - 1) (by omega)
        rw [List.getElem?_eq_getElem (show w - 1 < stream.length by omega)] at hlast
        have := (List.getElem?_eq_some_iff.mp hlast).1
        omega
    · induction k using Nat.strongRecOn with
      | ind k ih =>
        by_cases hzero : k = 0
        · rw [hzero]
        · rw [hhalf k hk]
          exact ih (k / 2) (by omega) (by omega)
  · intro h
    refine ⟨fun k hk => ?_, fun k hk => ?_⟩
    · rw [h.same _ (by omega), h.same k (by omega)]
    · rw [h.same _ (by omega), h.same k (by omega)]

theorem Constant.append {w : Nat} {stream : List Int16} (h : Constant w stream)
    (more : List Int16) : Constant w (stream ++ more) where
  frames := by
    rw [List.length_append]
    exact Nat.le_add_right_of_le h.frames
  same := fun k hk => by
    have hframes := h.frames
    rw [List.getElem?_append_left (by omega), List.getElem?_append_left (by omega), h.same k hk]

theorem sample_injective : Function.Injective sample := by
  intro x y h
  have hint : (x.toInt : ℚ) = y.toInt := by
    rw [sample, sample, div_left_inj' (by norm_num)] at h
    exact h
  exact Int16.toInt.inj (Int.cast_injective hint)

/-- Both channels hold what has been written of the stream. -/
structure Copied (s : State) : Prop where
  conserved : Conserved s
  second : s.written1 = s.written

theorem Copied.length_add {s : State} (h : Copied s) :
    s.written.length + s.processor.queue.flatten.length = s.received.length := by
  have hlength := congrArg List.length h.conserved
  rwa [List.length_append, List.length_map, List.length_map] at hlength

theorem Copied.written {s : State} (h : Copied s) :
    s.written = (s.received.take s.written.length).map sample := by
  rw [List.map_take, ← h.conserved, List.take_left' rfl]

theorem inStereo_iff {s : State} (h : Copied s) :
    InStereo s ↔ Constant s.written.length s.received := by
  have hle : s.written.length ≤ s.received.length := by
    have := h.length_add
    omega
  have hsecond : s.written1 = (s.received.take s.written.length).map sample :=
    h.second.trans h.written
  rw [← constant_iff hle, ← List.prefix_map_iff_of_injective sample_injective,
    ← List.prefix_map_iff_of_injective sample_injective, ← h.written]
  exact ⟨fun hs => ⟨hs.left, h.second ▸ hs.right⟩,
    fun ⟨hleft, hright⟩ => ⟨hleft, h.second.symm ▸ hright, by rw [h.second]⟩⟩

/-- What a step of a two-channel run does to the stream received and to what is written. -/
theorem stereoStep_cases {s t : State} {a : Action} (h : Copied s)
    (hstep : stereoStep s a = some t) : Copied t ∧
      ((FindsConstant s a ∧ t.written = s.written ∧ ∃ more, t.received = s.received ++ more) ∨
        ∃ outputs, a = .process outputs ∧ t.received = s.received ∧
          t.written.length =
            min s.received.length (s.written.length + (channel 0 outputs).length)) := by
  obtain ⟨hstereo, hstep⟩ := Option.ite_none_right_eq_some.mp hstep
  have hconserved := conserved_step h.conserved hstep
  match a with
  | .post samples sampleRate channels =>
    obtain rfl := Option.some.inj hstep
    exact ⟨⟨hconserved, h.second⟩, Or.inl ⟨trivial, rfl, samples, rfl⟩⟩
  | .other m =>
    obtain ⟨-, hstep⟩ := Option.ite_none_left_eq_some.mp hstep
    obtain rfl := Option.some.inj hstep
    exact ⟨⟨hconserved, h.second⟩, Or.inl ⟨trivial, rfl, [], (List.append_nil _).symm⟩⟩
  | .process [[ch0, ch1]] =>
    obtain ⟨q, played, filled, hprocess, hplays⟩ := process_plays s.processor ch0 [ch1] []
    have hlength : ch1.length = played.length :=
      (beq_iff_eq.mp hstereo).trans hplays.length.symm
    rw [copyToSecond_cons hlength] at hprocess
    rw [step, hprocess] at hstep
    obtain rfl := Option.some.inj hstep
    refine ⟨⟨hconserved, ?_⟩, Or.inr ⟨_, rfl, rfl, ?_⟩⟩
    · show s.written1 ++ played.take filled = s.written ++ played.take filled
      rw [h.second]
    · show (s.written ++ played.take filled).length = min _ (_ + ch0.length)
      have hqueued := h.length_add
      have hcount := hplays.count
      rw [List.length_append, List.length_take, hplays.length]
      omega

/-- **When the player plays stereo.**  Along a run with two-channel PCM and two output
channels, left samples go to the left channel and right samples to the right, one frame for
each position, exactly if every call finds that for the `w` samples it will have written,
the first `w` frames of the stream are there and all their samples are the same. -/
theorem stereo_iff_constant (as : List Action) :
    Transition.Throughout stereoStep InStereo initial as ↔
      Transition.Meets stereoStep FindsConstant initial as := by
  have hinitial : Copied initial ∧ Constant initial.written.length initial.received :=
    ⟨⟨rfl, rfl⟩, ⟨Nat.le_refl 0, nofun⟩⟩
  refine Transition.throughout_iff_meets
    (I := fun s => Copied s ∧ Constant s.written.length s.received) ?_ ?_ ?_ hinitial
  · exact fun s hs => (inStereo_iff hs.1).mpr hs.2
  · intro s a t hs hfinds hstep
    obtain ⟨hcopied, hcases⟩ := stereoStep_cases hs.1 hstep
    refine ⟨hcopied, ?_⟩
    rcases hcases with ⟨-, hwritten, more, hreceived⟩ | ⟨outputs, rfl, hreceived, hlength⟩
    · rw [hwritten, hreceived]
      exact hs.2.append _
    · rw [hreceived, hlength]
      exact hfinds
  · intro s a t hs hfinds hstep hstereo
    obtain ⟨hcopied, hcases⟩ := stereoStep_cases hs.1 hstep
    have hconstant := (inStereo_iff hcopied).mp hstereo
    rcases hcases with ⟨hmet, -, -⟩ | ⟨outputs, rfl, hreceived, hlength⟩
    · exact hfinds hmet
    · rw [hreceived, hlength] at hconstant
      exact hfinds hconstant

/-- Two frames, `1 2` and `3 4`, and a call for one position: the left sample goes to both
channels. -/
theorem one_two_not_stereo :
    ¬ Transition.Throughout stereoStep InStereo initial
      [.post [1, 2, 3, 4] 48000 2, .process [[[0], [0]]]] := by
  intro h
  obtain ⟨s, hrun, hwritten, hreceived⟩ : ∃ s, Transition.run stereoStep initial
      [.post [1, 2, 3, 4] 48000 2, .process [[[0], [0]]]] = some s ∧ s.written1 = [sample 1] ∧
        s.received = [1, 2, 3, 4] := ⟨_, rfl, rfl, rfl⟩
  have hright := (h.last hrun).right
  rw [hwritten, hreceived] at hright
  obtain ⟨more, heq⟩ := hright
  have hsame : sample 1 = sample 2 := (List.cons.inj heq).1
  exact absurd (sample_injective hsame) (by decide)

end Whutfa.AudioWorklet
