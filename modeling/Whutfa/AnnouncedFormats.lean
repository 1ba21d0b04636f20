import Whutfa.AudioMessages
import Whutfa.SessionChannels

/-! # What the phone is told to send

The service discovery response (`fillFeatures` in `aa-handler/src/aa/Session.cpp`) against
the rest of a session: the headers under which the audio sinks queue the phone's PCM, and
the geometry that the server is told.  The formats are written down in several places, in
types of different widths; the page finally reads samples of two bytes without looking.

PCM of the phone is queued, and read by the page, in exactly the format that was announced
for its channel, whose samples are of 16 bits.  For video it is not so: the phone knows
three sizes and two rates, and the server is told the configured ones
(`announced_formats`).
-/
namespace Whutfa.Handlers

open Lifecycle (ErrorCode)

/-! ## Formats -/

/-- The width and height that the name stands for. -/
def VideoCodecResolution.size : VideoCodecResolution → Nat × Nat
  | video800x480 => (800, 480)
  | video1280x720 => (1280, 720)
  | video1920x1080 => (1920, 1080)

/-- Frames in a second. -/
def VideoFrameRate.fps : VideoFrameRate → Nat
  | fps30 => 30
  | fps60 => 60

/-- Sampling rate, bits and channels of the PCM that may come on a channel. -/
def ServiceDiscoveryResponse.audioFormats (response : ServiceDiscoveryResponse) (c : Channel) :
    List (UInt32 × UInt32 × UInt32) :=
  response.channels.filterMap fun
    | (id, .audio _ _ samplingRate bits channels) =>
        if id = c then some (samplingRate, bits, channels) else none
    | _ => none

/-- Size and rate of the frames that may come. -/
def ServiceDiscoveryResponse.videoFormats (response : ServiceDiscoveryResponse) :
    List ((Nat × Nat) × Nat) :=
  response.channels.filterMap fun
    | (.video, .video _ resolution rate _) => some (resolution.size, rate.fps)
    | _ => none

/-- The touchscreens that are announced, with their sizes. -/
def ServiceDiscoveryResponse.touchScreens (response : ServiceDiscoveryResponse) :
    List (Int32 × Int32) :=
  response.channels.filterMap fun
    | (.input, .input width height) => some (width, height)
    | _ => none

/-- The sizes and the rates that there are names for. -/
def videoSizes : List (Nat × Nat) := [(800, 480), (1280, 720), (1920, 1080)]

/-- The rates that there are names for. -/
def frameRates : List Nat := [30, 60]

theorem size_resolutionFor (w : UInt32) (h : Nat) :
    (VideoSink.resolutionFor w).size = (w.toNat, h) ↔ (w.toNat, h) ∈ videoSizes := by
  unfold VideoSink.resolutionFor videoSizes
  simp only [ge_iff_le, UInt32.le_iff_toNat_le, UInt32.reduceToNat, List.mem_cons, Prod.mk.injEq,
    List.not_mem_nil, or_false]
  split
  · simp only [VideoCodecResolution.size, Prod.mk.injEq]
    omega
  · split
    · simp only [VideoCodecResolution.size, Prod.mk.injEq]
      omega
    · simp only [VideoCodecResolution.size, Prod.mk.injEq]
      omega

theorem fps_fpsFor (fps : UInt32) : (VideoSink.fpsFor fps).fps = fps.toNat ↔
    fps.toNat ∈ frameRates := by
  unfold VideoSink.fpsFor frameRates
  simp only [ge_iff_le, UInt32.le_iff_toNat_le, UInt32.reduceToNat, List.mem_cons,
    List.not_mem_nil, or_false]
  split
  · simp only [VideoFrameRate.fps]
    omega
  · simp only [VideoFrameRate.fps]
    omega

/-! ## What a session says of its configuration -/

/-- An effect that tells a format tells that of the configuration. -/
def Effect.FromConfig (cfg : HandlerConfig) : Effect → Prop
  | send (.serviceDiscoveryResponse response) _ => response = ControlHandler.serviceDiscovery cfg
  | emitControl (.videoConfig width height fps) =>
      width = cfg.videoWidth ∧ height = cfg.videoHeight ∧ fps = cfg.videoFps
  | _ => True

theorem fromConfig_continue (cfg : HandlerConfig) (then_ : Continuation) :
    ∀ effect ∈ continue_ then_, effect.FromConfig cfg := by
  intro effect heffect
  cases then_ with
  | nothing => cases heffect
  | sendFocus | sendDriving | sendNight | triggerQuit =>
    rw [List.mem_singleton.mp heffect]
    trivial

theorem fromConfig_sendHandshake (cfg : HandlerConfig) (cryptor : Cryptor) :
    ∀ effect ∈ ControlHandler.sendHandshake cryptor, effect.FromConfig cfg := by
  unfold ControlHandler.sendHandshake
  split <;> simp [Effect.FromConfig]

theorem fromConfig_control (cfg : HandlerConfig) (cryptor : Cryptor) (m : ControlMessage) :
    ∀ effect ∈ ControlHandler.handle cfg cryptor m, effect.FromConfig cfg := by
  cases m with
  | versionResponse major minor status =>
    show ∀ effect ∈ ControlHandler.onVersionResponse cryptor status, _
    unfold ControlHandler.onVersionResponse
    split
    · simp [Effect.FromConfig]
    · split
      · simp [Effect.FromConfig]
      · exact List.forall_mem_cons.mpr ⟨trivial, fromConfig_sendHandshake cfg cryptor⟩
  | handshake payload =>
    show ∀ effect ∈ ControlHandler.onHandshake cryptor, _
    unfold ControlHandler.onHandshake
    split
    · simp [Effect.FromConfig]
    · split
      · simp [Effect.FromConfig]
      · exact List.forall_mem_cons.mpr ⟨trivial, fromConfig_sendHandshake cfg cryptor⟩
      · simp [Effect.FromConfig]
  | serviceDiscoveryRequest _ | audioFocusRequest _ | byeByeRequest _ | byeByeResponse
  | navigationFocusRequest | voiceSessionRequest | batteryStatusNotification | pingRequest
  | pingResponse =>
    simp [ControlHandler.handle, ControlHandler.onServiceDiscoveryRequest,
      ControlHandler.onAudioFocusRequest, Effect.FromConfig]

theorem fromConfig_respond (cfg : HandlerConfig) (s : State) (m : Message) :
    ∀ effect ∈ respond cfg s m, effect.FromConfig cfg := by
  cases m with
  | control m cryptor => exact fromConfig_control cfg cryptor m
  | video m =>
    cases m <;> simp [respond, VideoSink.handle, VideoSink.onMediaWithTimestampIndication,
      VideoSink.sendFocus, channelOpen, mediaSetup, acknowledge, Effect.FromConfig]
  | mediaAudio m | systemAudio m =>
    cases m <;> simp [respond, AudioSink.handle, AudioSink.onMediaWithTimestampIndication,
      channelOpen, mediaSetup, acknowledge, Effect.FromConfig]
  | input m => cases m <;> simp [respond, InputSource.handle, channelOpen, Effect.FromConfig]
  | sensor m => cases m <;> simp [respond, SensorSource.handle, channelOpen, Effect.FromConfig]

/-- All that has been told so far. -/
def State.FromConfig (cfg : HandlerConfig) (s : State) : Prop :=
  ∀ entry ∈ s.log, entry.2.FromConfig cfg

theorem State.FromConfig.perform {cfg : HandlerConfig} {s u : State} (h : s.FromConfig cfg)
    (hlog : u.log = s.log) (c : Channel) {effects : List Effect}
    (heffects : ∀ effect ∈ effects, effect.FromConfig cfg) :
    (Handlers.perform c effects u).FromConfig cfg := by
  intro entry hentry
  rcases List.mem_append.mp hentry with hold | hnew
  · exact h entry (hlog ▸ hold)
  · obtain ⟨effect, heffect, rfl⟩ := List.mem_map.mp hnew
    exact heffects effect heffect

theorem fromConfig_step {cfg : HandlerConfig} {s t : State} {a : Action} (h : s.FromConfig cfg)
    (hstep : step cfg s a = some t) : t.FromConfig cfg := by
  cases a with
  | start c =>
    obtain ⟨-, ht⟩ := Option.ite_none_right_eq_some.mp hstep
    obtain rfl := Option.some.inj ht
    unfold startChannel
    split
    · exact h.perform rfl _ (by simp [ControlHandler.sendVersionRequest, Effect.FromConfig])
    · exact h.perform rfl _ (by simp [Effect.FromConfig])
  | deliver m =>
    obtain ⟨-, ht⟩ := Option.ite_none_right_eq_some.mp hstep
    obtain rfl := Option.some.inj ht
    exact h.perform (log_accept cfg s m) _ (fromConfig_respond cfg s m)
  | receiveFails c e =>
    obtain ⟨-, ht⟩ := Option.ite_none_right_eq_some.mp hstep
    obtain rfl := Option.some.inj ht
    exact h.perform rfl _ (by simp [Effect.FromConfig])
  | sent i failed =>
    simp only [step] at hstep
    split at hstep
    · cases hstep
    · rename_i c then_ _
      obtain rfl := Option.some.inj hstep
      refine h.perform rfl _ ?_
      cases failed with
      | none => exact fromConfig_continue cfg then_
      | some e => simp [Effect.FromConfig]
  | touch report =>
    obtain rfl := Option.some.inj hstep
    exact h.perform rfl _ (by simp [InputSource.sendInputReport, Effect.FromConfig])
  | pingResolved =>
    obtain rfl := Option.some.inj hstep
    exact h.perform rfl _ (by simp [ControlHandler.sendPing, Effect.FromConfig])
  | pingRejected e =>
    obtain rfl := Option.some.inj hstep
    refine h.perform rfl _ ?_
    split <;> simp [Effect.FromConfig]

/-! ## PCM from the phone to the page -/

/-- The PCM that a message of the phone carries, with its timestamp. -/
def Message.pcm? : Message → Option (UInt64 × List UInt8)
  | mediaAudio (.mediaWithTimestampIndication timestamp buffer) => some (timestamp, buffer)
  | mediaAudio (.mediaIndication buffer) => some (0, buffer)
  | systemAudio (.mediaWithTimestampIndication timestamp buffer) => some (timestamp, buffer)
  | systemAudio (.mediaIndication buffer) => some (0, buffer)
  | _ => none

/-- The packet is for the PCM of this channel, its samples are of 16 bits, and it has the one
format that is announced for the channel. -/
structure InFormat (response : ServiceDiscoveryResponse) (c : Channel) (p : AudioPacket)
    (stream : AudioStream) : Prop where
  socket : IpcBridge.audioTarget p.type = stream.socket
  type : p.type.toNat = stream.type
  bits : p.bits = 16
  format : response.audioFormats c = [(p.sampleRate, p.bits.toUInt32, p.channels.toUInt32)]

/-- The packet that is queued for PCM. -/
theorem exists_packet (cfg : HandlerConfig) {m : Message} {timestamp : UInt64} {pcm : List UInt8}
    (hm : m.pcm? = some (timestamp, pcm)) (hpcm : pcm.length < 2 ^ 32) :
    ∃ p : AudioPacket, ∃ stream, p.timestampUs = timestamp ∧ p.pcm = pcm ∧
      m.queueCall cfg = some (m.channel,
        .queueAudio p.type p.sampleRate p.channels p.bits p.timestampUs p.pcm) ∧
      InFormat (ControlHandler.serviceDiscovery cfg) m.channel p stream := by
  let media : AudioPacket :=
    { type := 1, sampleRate := cfg.mediaSampleRate, channels := 2, bits := 16
      timestampUs := timestamp, pcm, fits := hpcm }
  let speech : AudioPacket :=
    { type := 2, sampleRate := cfg.speechSampleRate, channels := 1, bits := 16
      timestampUs := timestamp, pcm, fits := hpcm }
  cases m with
  | mediaAudio m =>
    refine ⟨media, .media, rfl, rfl, ?_, rfl, rfl, rfl, rfl⟩
    cases m with
    | mediaWithTimestampIndication | mediaIndication =>
      obtain ⟨rfl, rfl⟩ := Prod.mk.inj (Option.some.inj hm)
      rfl
    | channelOpenRequest | setupRequest | startIndication | stopIndication => cases hm
  | systemAudio m =>
    refine ⟨speech, .speech, rfl, rfl, ?_, rfl, rfl, rfl, rfl⟩
    cases m with
    | mediaWithTimestampIndication | mediaIndication =>
      obtain ⟨rfl, rfl⟩ := Prod.mk.inj (Option.some.inj hm)
      rfl
    | channelOpenRequest | setupRequest | startIndication | stopIndication => cases hm
  | control | video | input | sensor => cases hm

/-- What the page reads of a packet that the server finds at the front of a chunk. -/
theorem InFormat.page {response : ServiceDiscoveryResponse} {c : Channel} {p : AudioPacket}
    {stream : AudioStream} (h : InFormat response c p stream) (state : AudioState)
    (rest : List UInt8) :
    ∃ message, onAudioData stream state (p.bytes ++ rest) = .ok
        { frames := state.frames ++ [p.frame], messages := state.messages ++ [message] } ∧
      readAudioMessage message = .ok p.frame.message :=
  ⟨p.frame.bytes, onAudioData_bytes h.type state rest, readAudioMessage_bytes p.fits_frame⟩

/-- **PCM comes in the announced format, video in another.**  In every state of every run in
which the phone has been told the services: for all PCM that it has sent there is a packet,
queued with the sampling rate and the channels announced for its channel, samples being of
16 bits; and wherever the server finds this packet at the front of a chunk, the page reads
that rate, those channels, the phone's timestamp and its PCM.  The touchscreen announced has
the size that the server is told; the video announced has this size and rate exactly when
they are among those that have names. -/
theorem announced_formats (cfg : HandlerConfig) {s : State}
    (h : Transition.Reachable (step cfg) (· = initial) s) {response : ServiceDiscoveryResponse}
    {then_ : Continuation}
    (htold : (.control, .send (.serviceDiscoveryResponse response) then_) ∈ s.log) :
    (∀ m ∈ s.delivered, ∀ timestamp pcm, m.pcm? = some (timestamp, pcm) → pcm.length < 2 ^ 32 →
      ∃ p : AudioPacket, ∃ stream, p.timestampUs = timestamp ∧ p.pcm = pcm ∧
        (m.channel, .queueAudio p.type p.sampleRate p.channels p.bits p.timestampUs p.pcm) ∈
          s.log ∧
        InFormat response m.channel p stream ∧
        ∀ state rest, ∃ message, onAudioData stream state (p.bytes ++ rest) = .ok
            { frames := state.frames ++ [p.frame], messages := state.messages ++ [message] } ∧
          readAudioMessage message = .ok p.frame.message) ∧
    ∀ c width height fps, (c, .emitControl (.videoConfig width height fps)) ∈ s.log →
      response.touchScreens = [(width.toInt32, height.toInt32)] ∧
      ∃ format, response.videoFormats = [format] ∧
        (format = ((width.toNat, height.toNat), fps.toNat) ↔
          (width.toNat, height.toNat) ∈ videoSizes ∧ fps.toNat ∈ frameRates) := by
  have hconfig : s.FromConfig cfg :=
    h.invariant_from nofun fun _ _ _ hs hstep => fromConfig_step hs hstep
  have hforwarded : Forwarded cfg s :=
    h.invariant_from ⟨rfl, rfl⟩ fun _ _ _ hs hstep => forwarded_step hs hstep
  obtain rfl : response = ControlHandler.serviceDiscovery cfg := hconfig _ htold
  constructor
  · intro m hm timestamp pcm hmessage hpcm
    obtain ⟨p, stream, htimestamp, hbytes, hcall, hformat⟩ := exists_packet cfg hmessage hpcm
    refine ⟨p, stream, htimestamp, hbytes, ?_, hformat, hformat.page⟩
    have hqueued : (m.channel, _) ∈ queueCalls s.log :=
      hforwarded.queued ▸ List.mem_filterMap.mpr ⟨m, hm, hcall⟩
    exact (List.mem_filter.mp hqueued).1
  · intro c width height fps hevent
    obtain ⟨rfl, rfl, rfl⟩ : width = cfg.videoWidth ∧ height = cfg.videoHeight ∧
        fps = cfg.videoFps := hconfig _ hevent
    refine ⟨rfl, _, rfl, ?_⟩
    rw [Prod.mk.injEq, size_resolutionFor, fps_fpsFor]

/-- The phone asks for the services and sends two bytes of music. -/
def musicActions : List Action :=
  [.start .control, .start .mediaAudio,
   .deliver (.control (.serviceDiscoveryRequest [])
     { writeHandshakeBuffer := .ok (), doHandshake := .ok true, readHandshakeBuffer := .ok [] }),
   .deliver (.mediaAudio (.mediaIndication [1, 2]))]

/-- With a picture of 1024 by 600 the music is as announced, and the video is not. -/
theorem announced_formats_music :
    let cfg : HandlerConfig := { defaultConfig with videoWidth := 1024, videoHeight := 600 }
    let response := ControlHandler.serviceDiscovery cfg
    ∃ s, Transition.run (step cfg) initial musicActions = some s ∧
      (∃ p stream, p.pcm = [1, 2] ∧ InFormat response .mediaAudio p stream) ∧
      response.touchScreens = [(1024, 600)] ∧
      response.videoFormats ≠ [((1024, 600), 30)] := by
  intro cfg response
  obtain ⟨s, hrun, hdelivered, htold, hevent⟩ : ∃ s,
      Transition.run (step cfg) initial musicActions = some s ∧
      .mediaAudio (.mediaIndication [1, 2]) ∈ s.delivered ∧
      (.control, .send (.serviceDiscoveryResponse response) .nothing) ∈ s.log ∧
      (.control, .emitControl (.videoConfig 1024 600 30)) ∈ s.log :=
    ⟨_, rfl, by decide, List.mem_of_getElem? (i := 5) rfl, List.mem_of_getElem? (i := 3) rfl⟩
  obtain ⟨hpcm, hgeometry⟩ := announced_formats cfg ⟨initial, _, rfl, hrun⟩ htold
  obtain ⟨p, stream, -, hbytes, -, hformat, -⟩ := hpcm _ hdelivered 0 [1, 2] rfl (by decide)
  obtain ⟨htouch, format, hvideo, hnamed⟩ := hgeometry .control 1024 600 30 hevent
  refine ⟨s, hrun, ⟨p, stream, hbytes, hformat⟩, htouch, fun htold => ?_⟩
  rw [hvideo] at htold
  exact absurd (hnamed.mp (List.head_eq_of_cons_eq htold)).1 (by decide)

end Whutfa.Handlers
