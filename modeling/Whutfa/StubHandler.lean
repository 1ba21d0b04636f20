import Whutfa.EventLoss
import Whutfa.HandlerConfig
import Whutfa.VideoDelivery

/-! # The handler without a phone

`run_stub_handler` (`aa-handler/src/stub_handler.cpp`), which the handler process runs in
stub mode instead of waiting for a device.  It emits the events of one session, once, and
then passes through a loop for ever: the whole H.264 fixture as one frame, and the first
1920 bytes of the PCM fixture.

The events are not repeated, so what the server shows for the rest of the run is decided by
which of the three it was there for (`stub_reported_iff`).  The frames are, and however many
of them are lost, a page is sent the whole fixture and nothing else (`stub_to_page`).
-/
namespace Whutfa.StubHandler

/-- What `read_fixture` has returned for the two files; empty if there is none. -/
structure Fixtures where
  h264 : List UInt8
  pcm : List UInt8

/-- A call of `queue_video` or `queue_audio`. -/
inductive Call
  | queueVideo (timestampUs : UInt64) (data : List UInt8)
  | queueAudio (type : UInt8) (sampleRate : UInt32) (channels : UInt8) (bits : UInt16)
      (timestampUs : UInt64) (pcm : List UInt8)
  deriving DecidableEq

/-- What is emitted before the loop. -/
def events (cfg : HandlerConfig) : List ControlEvent :=
  [.session .connecting, .videoConfig cfg.videoWidth cfg.videoHeight cfg.videoFps,
   .session .active]

section

variable (cfg : HandlerConfig) (fixtures : Fixtures)

/-- The body of the loop: `ts` after it, and the calls. -/
def pass (ts : UInt64) : UInt64 × List Call :=
  let (ts, video) :=
    if fixtures.h264.isEmpty then (ts, []) else (ts + 33000, [.queueVideo ts fixtures.h264])
  let audio :=
    if fixtures.pcm.isEmpty then []
    else [.queueAudio 1 cfg.mediaSampleRate 2 16 ts
      (fixtures.pcm.take (min fixtures.pcm.length 1920))]
  (ts, video ++ audio)

/-- `ts` after some passes, and the calls. -/
def passes : Nat → UInt64 × List Call
  | 0 => (0, [])
  | n + 1 =>
      let (ts, calls) := passes n
      let (ts, more) := pass cfg fixtures ts
      (ts, calls ++ more)

end

/-! ## What the server reports -/

/-- While a session is active. -/
def activeStatus : HandlerStatus :=
  { defaultStatus with
    usbPhase := .sessionActive, aoapOpen := true, sslOk := true, sessionActive := true }

/-- The size when the stub's own has arrived. -/
def stubSize (cfg : HandlerConfig) : VideoConfig :=
  defaultVideoConfig.after (.videoConfig cfg.videoWidth cfg.videoHeight cfg.videoFps)

/-- Some of the three events. -/
def part (cfg : HandlerConfig) (connecting geometry active : Bool) : List ControlEvent :=
  (if connecting then [.session .connecting] else []) ++
    (if geometry then [.videoConfig cfg.videoWidth cfg.videoHeight cfg.videoFps] else []) ++
      if active then [.session .active] else []

theorem sublist_events_iff {cfg : HandlerConfig} {kept : List ControlEvent} :
    kept.Sublist (events cfg) ↔ ∃ a b c, kept = part cfg a b c := by
  constructor
  · intro h
    simp only [events, List.sublist_cons_iff, List.sublist_nil] at h
    rcases h with ((rfl | ⟨_, rfl, rfl⟩) | ⟨_, rfl, rfl | ⟨_, rfl, rfl⟩⟩) |
      ⟨_, rfl, (rfl | ⟨_, rfl, rfl⟩) | ⟨_, rfl, rfl | ⟨_, rfl, rfl⟩⟩⟩
    · exact ⟨false, false, false, rfl⟩
    · exact ⟨false, false, true, rfl⟩
    · exact ⟨false, true, false, rfl⟩
    · exact ⟨false, true, true, rfl⟩
    · exact ⟨true, false, false, rfl⟩
    · exact ⟨true, false, true, rfl⟩
    · exact ⟨true, true, false, rfl⟩
    · exact ⟨true, true, true, rfl⟩
  · rintro ⟨a, b, c, rfl⟩
    cases a <;> cases b <;> cases c <;> simp [part, events]

/-- The status depends on the session events alone, and on the last of them most. -/
theorem status_part (cfg : HandlerConfig) (a b c : Bool) :
    (part cfg a b c).foldl HandlerStatus.after defaultStatus =
      if c then activeStatus
      else if a then { defaultStatus with usbPhase := .aoaSwitch } else defaultStatus := by
  cases a <;> cases b <;> cases c <;> rfl

theorem size_part (cfg : HandlerConfig) (a b c : Bool) :
    (part cfg a b c).foldl VideoConfig.after defaultVideoConfig =
      if b then stubSize cfg else defaultVideoConfig := by
  cases a <;> cases b <;> cases c <;> rfl

section

variable (numberText : Decimal → JsString) (textNumber : JsString → Option ℚ)

/-- A status before the first event, while the session is connecting, or active; with the
default size or the stub's own. -/
def IsStubReport (cfg : HandlerConfig) (status : HandlerStatus) (size : VideoConfig) : Prop :=
  status ∈ [defaultStatus, { defaultStatus with usbPhase := .aoaSwitch }, activeStatus] ∧
    size ∈ [defaultVideoConfig, stubSize cfg]

theorem isStubReport_of_kept {cfg : HandlerConfig} {kept : List ControlEvent}
    (h : kept.Sublist (events cfg)) :
    IsStubReport cfg (kept.foldl HandlerStatus.after defaultStatus)
      (kept.foldl VideoConfig.after defaultVideoConfig) := by
  obtain ⟨a, b, c, rfl⟩ := sublist_events_iff.mp h
  rw [status_part, size_part]
  cases a <;> cases b <;> cases c <;> simp [IsStubReport]

theorem exists_kept {cfg : HandlerConfig} {status : HandlerStatus} {size : VideoConfig}
    (h : IsStubReport cfg status size) :
    ∃ kept : List ControlEvent, kept.Sublist (events cfg) ∧
      kept.foldl HandlerStatus.after defaultStatus = status ∧
      kept.foldl VideoConfig.after defaultVideoConfig = size := by
  obtain ⟨hstatus, hsize⟩ := h
  simp only [List.mem_cons, List.not_mem_nil, or_false] at hstatus hsize
  obtain ⟨a, c, hac⟩ : ∃ a c : Bool, status = if c then activeStatus
      else if a then { defaultStatus with usbPhase := .aoaSwitch } else defaultStatus := by
    rcases hstatus with rfl | rfl | rfl
    · exact ⟨false, false, rfl⟩
    · exact ⟨true, false, rfl⟩
    · exact ⟨true, true, rfl⟩
  obtain ⟨b, hb⟩ : ∃ b : Bool, size = if b then stubSize cfg else defaultVideoConfig := by
    rcases hsize with rfl | rfl
    · exact ⟨false, rfl⟩
    · exact ⟨true, rfl⟩
  exact ⟨part cfg a b c, sublist_events_iff.mpr ⟨a, b, c, rfl⟩,
    (status_part cfg a b c).trans hac.symm, (size_part cfg a b c).trans hb.symm⟩

/-- **What is reported of the stub.**  Over all interleavings of the bridge with the stub's
emissions, the server reports one of three statuses and one of two sizes; and each of the
six combinations can be what it reports for good: all has been emitted, nothing is queued or
on its way, and the report stays whoever connects later. -/
theorem stub_reported_iff (cfg : HandlerConfig) (status : HandlerStatus) (size : VideoConfig) :
    ((∃ n, BridgeSync.Outcome numberText textNumber ((events cfg).take n) status size) ↔
        IsStubReport cfg status size) ∧
      (BridgeSync.FinalOutcome numberText textNumber (events cfg) status size ↔
        IsStubReport cfg status size) := by
  have hsound : ∀ n, BridgeSync.Outcome numberText textNumber ((events cfg).take n) status size →
      IsStubReport cfg status size := by
    intro n h
    obtain ⟨kept, hkept, rfl, rfl⟩ := h.exists_kept
    exact isStubReport_of_kept (hkept.trans (List.take_sublist ..))
  have hcomplete : IsStubReport cfg status size →
      BridgeSync.FinalOutcome numberText textNumber (events cfg) status size := by
    intro h
    obtain ⟨kept, hkept, rfl, rfl⟩ := exists_kept h
    exact BridgeSync.finalOutcome_of_kept numberText textNumber hkept
  exact ⟨⟨fun ⟨n, h⟩ => hsound n h, fun h => ⟨3, (hcomplete h).outcome⟩⟩,
    fun h => hsound 3 h.outcome, hcomplete⟩

end

/-! ## What the pages are sent -/

/-- The timestamp and data of a call of `queue_video`. -/
def Call.video? : Call → Option (UInt64 × List UInt8)
  | queueVideo timestampUs data => some (timestampUs, data)
  | queueAudio .. => none

/-- The frames that are queued in some passes: the fixture, at most once in each. -/
theorem video_passes (cfg : HandlerConfig) (fixtures : Fixtures) (n : Nat) :
    ∃ stamps : List UInt64, stamps.length ≤ n ∧
      (passes cfg fixtures n).2.filterMap Call.video? = stamps.map (·, fixtures.h264) := by
  induction n with
  | zero => exact ⟨[], Nat.le_refl 0, rfl⟩
  | succ n ih =>
    obtain ⟨stamps, hlength, hcalls⟩ := ih
    obtain ⟨more, hmore, hpass⟩ : ∃ more : List UInt64, more.length ≤ 1 ∧
        (pass cfg fixtures (passes cfg fixtures n).1).2.filterMap Call.video? =
          more.map (·, fixtures.h264) := by
      by_cases hempty : fixtures.h264.isEmpty = true
      · refine ⟨[], Nat.zero_le 1, ?_⟩
        simp only [pass, hempty, if_true]
        split <;> rfl
      · refine ⟨[(passes cfg fixtures n).1], Nat.le_refl 1, ?_⟩
        simp only [pass, hempty, Bool.false_eq_true, if_false]
        split <;> rfl
    refine ⟨stamps ++ more, ?_, ?_⟩
    · rw [List.length_append]
      omega
    · rw [passes, List.filterMap_append, hcalls, hpass, List.map_append]

/-- **Pages are sent the fixture, whole.**  Take `n` passes of the loop, any state of the
video socket in which they have made its calls of `queue_video`, and the server and the
pages behind it as in `video_end_to_end`: all that the pages have been sent are copies of the
fixture behind its key flag, at most one for each pass. -/
theorem stub_to_page (cfg : HandlerConfig) (fixtures : Fixtures) (n : Nat)
    {s : IpcSocket.State VideoPacket UInt8}
    (h : IpcSocket.Reachable VideoPacket.bytes .video s)
    (hqueued : s.enqueued.map (fun p => (p.timestampUs, p.data)) =
      (passes cfg fixtures n).2.filterMap Call.video?)
    (history : List (Nat × List (List UInt8))) (hread : ∀ x ∈ history, x.2.flatten <+: s.stream x.1)
    (horder : history.Pairwise fun x y => x.1 < y.1)
    (hwhole : ∀ x ∈ history.dropLast, ∃ packets : List VideoPacket,
      x.2.flatten = packets.flatMap VideoPacket.bytes)
    (retries : Nat → Bool) {w : WebSockets.State (List UInt8)}
    (hw : Transition.Reachable (WebSockets.step retries) (· = WebSockets.initial) w)
    (hbroadcasts : w.broadcasts = (videoAfter (history.map Prod.snd)).app.messages) :
    ∃ k ≤ n, WebSockets.delivered w = List.replicate k (pageMessage fixtures.h264) := by
  obtain ⟨stamps, hlength, hcalls⟩ := video_passes cfg fixtures n
  have hmessages : s.enqueued.map VideoPacket.message =
      List.replicate stamps.length (pageMessage fixtures.h264) := by
    have hframes : s.enqueued.map VideoPacket.message =
        (s.enqueued.map fun p => (p.timestampUs, p.data)).map fun frame => pageMessage frame.2 := by
      rw [List.map_map]
      rfl
    rw [hframes, hqueued, hcalls, List.map_map]
    show stamps.map (fun _ => pageMessage fixtures.h264) = _
    rw [List.map_const']
  obtain ⟨k, hk, hdelivered⟩ := List.sublist_replicate_iff.mp
    (hmessages ▸ (video_end_to_end h history hread horder hwhole retries hw hbroadcasts).2)
  exact ⟨k, hk.trans hlength, hdelivered⟩

/-- A fixture of one byte, and the frames of two passes. -/
def oneByte : Fixtures := { h264 := [9], pcm := [] }

/-- The frame of a pass. -/
def oneByteFrame (timestampUs : UInt64) : VideoPacket :=
  { timestampUs, data := [9], fits := by simp }

/-- Each frame is taken off the queue and written before the next. -/
def twoPasses : List (IpcSocket.Action VideoPacket) :=
  [.connect, .accept, .install, .enqueue (oneByteFrame 0), .pop, .write 13, .done,
    .enqueue (oneByteFrame 33000), .pop, .write 13, .done]

/-- Nobody watches in the second pass. -/
theorem stub_to_page_two :
    ∃ w : WebSockets.State (List UInt8), w.broadcasts = [[0, 9], [0, 9]] ∧
      WebSockets.delivered w = [[0, 9]] ∧
      ∃ k ≤ 2, WebSockets.delivered w = List.replicate k (pageMessage [9]) := by
  obtain ⟨s, hrun, henqueued, hstream⟩ : ∃ s, Transition.run (IpcSocket.step VideoPacket.bytes
        (SocketName.maxQueue .video)) IpcSocket.initial twoPasses = some s ∧
      s.enqueued = [oneByteFrame 0, oneByteFrame 33000] ∧
      s.stream 0 = (oneByteFrame 0).bytes ++ (oneByteFrame 33000).bytes :=
    ⟨_, rfl, rfl, by decide⟩
  let history : List (Nat × List (List UInt8)) :=
    [(0, [(oneByteFrame 0).bytes ++ (oneByteFrame 33000).bytes])]
  have hqueued : s.enqueued.map (fun p => (p.timestampUs, p.data)) =
      (passes {} oneByte 2).2.filterMap Call.video? := by
    rw [henqueued]
    rfl
  have hread : ∀ x ∈ history, x.2.flatten <+: s.stream x.1 := by
    intro x hx
    obtain rfl := List.mem_singleton.mp hx
    rw [hstream]
    exact ⟨[], by decide⟩
  have hmessages : [[0, 9], [0, 9]] = (videoAfter (history.map Prod.snd)).app.messages := by
    decide
  exact ⟨_, rfl, rfl, stub_to_page {} oneByte 2 ⟨IpcSocket.initial, twoPasses, rfl, hrun⟩ hqueued
    history hread (List.pairwise_singleton _ _) nofun WebSockets.videoRetries
    ⟨WebSockets.initial, [.openTab, .upgrade 0, .broadcast [0, 9], .closing 0, .close 0,
      .broadcast [0, 9]], rfl, rfl⟩ hmessages⟩

end Whutfa.StubHandler
