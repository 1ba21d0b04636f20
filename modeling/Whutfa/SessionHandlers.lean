import Whutfa.SessionLifecycle

/-! # The handlers of the session's channels

The five event-handler classes of `aa-handler/src/aa/Session.cpp`: `VideoSink`,
`AudioSink` (two instances), `InputSource`, `SensorSource` and `ControlHandler`.  A
handler is the list of what it does, in order: the messages it sends, each with what is
to happen once it has been sent, the calls it makes of `IpcBridge`, and whether it
re-arms its channel with `channel_->receive(..)`.  Log lines are left out.

A channel delivers one message for each `receive`, so a handler that re-arms once keeps
the channel going and one that does not ends it (`receives_video` and its siblings).
-/
namespace Whutfa.Handlers

open Lifecycle (ErrorCode)

/-- The channels of a session. -/
inductive Channel
  | control
  | video
  | mediaAudio
  | systemAudio
  | input
  | sensor
  deriving DecidableEq

/-- What `Session.cpp` reads of its `HandlerConfig`. -/
structure HandlerConfig extends Lifecycle.HandlerConfig where
  manufacturer : List UInt8
  model : List UInt8
  name : List UInt8
  videoDpi : UInt32
  mediaSampleRate : UInt32
  speechSampleRate : UInt32

/-- The defaults of `config.hpp`. -/
def defaultConfig : HandlerConfig :=
  { manufacturer := "WHUTFA".toUTF8.toList
    model := "WHUTFA-1".toUTF8.toList
    name := "WHUTFA Web Head Unit".toUTF8.toList
    videoWidth := 1280
    videoHeight := 720
    videoFps := 30
    videoDpi := 160
    mediaSampleRate := 48000
    speechSampleRate := 16000 }

/-! ## Messages -/

/-- The status of a version response. -/
inductive MessageStatus
  | success
  | noCompatibleVersion
  | other
  deriving DecidableEq

/-- The sensors that a phone may subscribe to. -/
inductive SensorType
  | drivingStatusData
  | nightMode
  | other
  deriving DecidableEq

/-- What the phone asks for: to release the focus, or to gain it in one way or another. -/
inductive AudioFocusRequestType
  | release
  | other
  deriving DecidableEq

/-- What the phone is told. -/
inductive AudioFocusStateType
  | gain
  | loss
  deriving DecidableEq

/-- The sizes that protobuf has names for. -/
inductive VideoCodecResolution
  | video800x480
  | video1280x720
  | video1920x1080
  deriving DecidableEq

/-- The rates that protobuf has names for. -/
inductive VideoFrameRate
  | fps30
  | fps60
  deriving DecidableEq

/-- The kinds of audio channels. -/
inductive AudioStreamType
  | media
  | systemAudio
  deriving DecidableEq

/-- The action of a pointer. -/
inductive PointerAction
  | down
  | up
  | moved
  deriving DecidableEq

/-- One service of the `ServiceDiscoveryResponse`, as `fillFeatures` describes it. -/
inductive Features
  /-- `MEDIA_CODEC_VIDEO_H264_BP`. -/
  | video (availableWhileInCall : Bool) (codecResolution : VideoCodecResolution)
      (frameRate : VideoFrameRate) (density : UInt32)
  /-- `MEDIA_CODEC_AUDIO_PCM`. -/
  | audio (audioType : AudioStreamType) (availableWhileInCall : Bool)
      (samplingRate numberOfBits numberOfChannels : UInt32)
  | input (touchWidth touchHeight : Int32)
  | sensor (types : List SensorType)
  deriving DecidableEq

/-- The ping configuration of the service discovery response. -/
structure PingConfiguration where
  trackedPingCount : Nat
  timeoutMs : Nat
  intervalMs : Nat
  highLatencyThresholdMs : Nat
  deriving DecidableEq

/-- The description of the head unit. -/
structure HeadUnitInfo where
  make : List UInt8
  model : List UInt8
  year : String
  vehicleId : String
  headUnitMake : List UInt8
  headUnitModel : List UInt8
  headUnitSoftwareBuild : String
  headUnitSoftwareVersion : String
  deriving DecidableEq

/-- The driver's position is always the left. -/
structure ServiceDiscoveryResponse where
  displayName : List UInt8
  probeForSupport : Bool
  pingConfiguration : PingConfiguration
  headunitInfo : HeadUnitInfo
  /-- The services, each under its channel's id. -/
  channels : List (Channel × Features)
  deriving DecidableEq

/-- An `InputReport` with one pointer. -/
structure InputReport where
  timestamp : UInt64
  action : PointerAction
  x : UInt32
  y : UInt32
  deriving DecidableEq

/-- What the handlers send to the phone. -/
inductive Outgoing
  | channelOpenResponse (status : MessageStatus)
  /-- `STATUS_READY`. -/
  | channelSetupResponse (maxUnacked : Nat) (configurationIndices : List Nat)
  | mediaAckIndication (sessionId : Int32) (ack : Nat)
  /-- `VIDEO_FOCUS_PROJECTED`. -/
  | videoFocusIndication (unsolicited : Bool)
  | keyBindingResponse (status : MessageStatus)
  | inputReport (report : InputReport)
  | sensorStartResponse (status : MessageStatus)
  /-- A `SensorBatch` with the status `DRIVE_STATUS_UNRESTRICTED`. -/
  | drivingStatusUnrestricted
  | nightMode (on : Bool)
  | versionRequest
  | handshake (payload : List UInt8)
  | authComplete (status : MessageStatus)
  | serviceDiscoveryResponse (response : ServiceDiscoveryResponse)
  | audioFocusResponse (state : AudioFocusStateType)
  | shutdownResponse
  /-- `NAV_FOCUS_PROJECTED`. -/
  | navigationFocusResponse
  | pingRequest
  deriving DecidableEq

/-- What happens when a message has been sent; when it could not be, the handler's
`onChannelError` is called. -/
inductive Continuation
  | nothing
  | sendFocus
  | sendDriving
  | sendNight
  | triggerQuit
  deriving DecidableEq

/-- What a handler does. -/
inductive Effect
  /-- `channel_->receive(self)`. -/
  | receive
  | send (message : Outgoing) (then_ : Continuation)
  | queueVideo (timestampUs : UInt64) (data : List UInt8)
  | queueAudio (type : UInt8) (sampleRate : UInt32) (channels : UInt8) (bits : UInt16)
      (timestampUs : UInt64) (pcm : List UInt8)
  | emitControl (event : ControlEvent)
  /-- `cryptor_->doHandshake()` has returned. -/
  | handshakeReturned (complete : Bool)
  /-- `pinger_->pong()`. -/
  | pong
  /-- `onChannelError`. -/
  | channelError (e : ErrorCode)
  | triggerQuit
  deriving DecidableEq

/-- The answer to every `ChannelOpenRequest`. -/
def channelOpen : List Effect :=
  [.send (.channelOpenResponse .success) .nothing, .receive]

/-- The answer of a media sink to a setup request. -/
def mediaSetup (then_ : Continuation) : List Effect :=
  [.send (.channelSetupResponse 1 [0]) then_, .receive]

/-- What a media sink does once it has queued an indication's bytes. -/
def acknowledge (session : Int32) : List Effect :=
  [.send (.mediaAckIndication session 1) .nothing, .receive]

/-! ## VideoSink -/

/-- What the video channel receives. -/
inductive VideoMessage
  | channelOpenRequest
  | setupRequest
  | startIndication (sessionId : Int32)
  | stopIndication
  | mediaWithTimestampIndication (timestamp : UInt64) (buffer : List UInt8)
  | mediaIndication (buffer : List UInt8)
  | focusRequest
  deriving DecidableEq

namespace VideoSink

/-- `resolution_for`: the width alone decides. -/
def resolutionFor (w : UInt32) : VideoCodecResolution :=
  if w ≥ 1920 then .video1920x1080 else if w ≥ 1280 then .video1280x720 else .video800x480

/-- `fps_for`. -/
def fpsFor (fps : UInt32) : VideoFrameRate := if fps ≥ 60 then .fps60 else .fps30

/-- `VideoSink::fillFeatures`. -/
def fillFeatures (cfg : HandlerConfig) : Channel × Features :=
  (.video, .video true (resolutionFor cfg.videoWidth) (fpsFor cfg.videoFps) cfg.videoDpi)

/-- `VideoSink::sendFocus`. -/
def sendFocus : List Effect := [.send (.videoFocusIndication false) .nothing]

/-- `VideoSink::onMediaWithTimestampIndication`. -/
def onMediaWithTimestampIndication (session : Int32) (timestamp : UInt64)
    (buffer : List UInt8) : List Effect :=
  .queueVideo timestamp buffer :: acknowledge session

/-- The sink's `session_` after a message, and what it does. -/
def handle (session : Int32) : VideoMessage → Int32 × List Effect
  | .channelOpenRequest => (session, channelOpen)
  | .setupRequest => (session, mediaSetup .sendFocus)
  | .startIndication sessionId => (sessionId, [.receive])
  | .stopIndication => (session, [.receive])
  | .mediaWithTimestampIndication timestamp buffer =>
      (session, onMediaWithTimestampIndication session timestamp buffer)
  | .mediaIndication buffer => (session, onMediaWithTimestampIndication session 0 buffer)
  | .focusRequest => (session, sendFocus ++ [.receive])

end VideoSink

/-! ## AudioSink -/

/-- What an audio channel receives. -/
inductive AudioMessage
  | channelOpenRequest
  | setupRequest
  | startIndication (sessionId : Int32)
  | stopIndication
  | mediaWithTimestampIndication (timestamp : UInt64) (buffer : List UInt8)
  | mediaIndication (buffer : List UInt8)
  deriving DecidableEq

/-- What an `AudioSink` is constructed with. -/
structure AudioSink where
  channel : Channel
  audioType : AudioStreamType
  sampleRate : UInt32
  channels : UInt32
  bits : UInt32
  ipcType : UInt8

namespace AudioSink

/-- The sink of the media channel, as `Session::start` makes it. -/
def mediaAudio (cfg : HandlerConfig) : AudioSink :=
  { channel := .mediaAudio, audioType := .media, sampleRate := cfg.mediaSampleRate
    channels := 2, bits := 16, ipcType := 1 }

/-- The sink of the system channel. -/
def systemAudio (cfg : HandlerConfig) : AudioSink :=
  { channel := .systemAudio, audioType := .systemAudio, sampleRate := cfg.speechSampleRate
    channels := 1, bits := 16, ipcType := 2 }

/-- `AudioSink::fillFeatures`. -/
def fillFeatures (sink : AudioSink) : Channel × Features :=
  (sink.channel, .audio sink.audioType true sink.sampleRate sink.bits sink.channels)

/-- `AudioSink::onMediaWithTimestampIndication`. -/
def onMediaWithTimestampIndication (sink : AudioSink) (session : Int32) (timestamp : UInt64)
    (buffer : List UInt8) : List Effect :=
  .queueAudio sink.ipcType sink.sampleRate sink.channels.toUInt8 sink.bits.toUInt16 timestamp
    buffer :: acknowledge session

/-- Unlike the video sink, an audio sink forgets its session when it is stopped. -/
def handle (sink : AudioSink) (session : Int32) : AudioMessage → Int32 × List Effect
  | .channelOpenRequest => (session, channelOpen)
  | .setupRequest => (session, mediaSetup .nothing)
  | .startIndication sessionId => (sessionId, [.receive])
  | .stopIndication => (-1, [.receive])
  | .mediaWithTimestampIndication timestamp buffer =>
      (session, sink.onMediaWithTimestampIndication session timestamp buffer)
  | .mediaIndication buffer => (session, sink.onMediaWithTimestampIndication session 0 buffer)

end AudioSink

/-! ## InputSource and SensorSource -/

/-- What the input channel receives. -/
inductive InputMessage
  | channelOpenRequest
  | keyBindingRequest (keycodes : Nat)
  deriving DecidableEq

namespace InputSource

/-- `InputSource::fillFeatures`. -/
def fillFeatures (cfg : HandlerConfig) : Channel × Features :=
  (.input, .input cfg.videoWidth.toInt32 cfg.videoHeight.toInt32)

/-- The answers of `InputSource`. -/
def handle : InputMessage → List Effect
  | .channelOpenRequest => channelOpen
  | .keyBindingRequest _ => [.send (.keyBindingResponse .success) .nothing, .receive]

/-- The task that `dispatchTouch` posts. -/
def sendInputReport (report : InputReport) : List Effect :=
  [.send (.inputReport report) .nothing]

end InputSource

/-- What the sensor channel receives. -/
inductive SensorMessage
  | channelOpenRequest
  | startRequest (type : SensorType)
  deriving DecidableEq

namespace SensorSource

/-- `SensorSource::fillFeatures`. -/
def fillFeatures : Channel × Features := (.sensor, .sensor [.drivingStatusData, .nightMode])

/-- What follows the answer to a subscription. -/
def firstBatch : SensorType → Continuation
  | .drivingStatusData => .sendDriving
  | .nightMode => .sendNight
  | .other => .nothing

/-- The answers of `SensorSource`. -/
def handle : SensorMessage → List Effect
  | .channelOpenRequest => channelOpen
  | .startRequest type => [.send (.sensorStartResponse .success) (firstBatch type), .receive]

/-- `SensorSource::sendDriving`. -/
def sendDriving : List Effect := [.send .drivingStatusUnrestricted .nothing]

/-- `SensorSource::sendNight`. -/
def sendNight : List Effect := [.send (.nightMode false) .nothing]

end SensorSource

/-! ## ControlHandler -/

/-- What the cryptor does while one handler runs: each call may throw. -/
structure Cryptor where
  writeHandshakeBuffer : Except ErrorCode Unit
  doHandshake : Except ErrorCode Bool
  readHandshakeBuffer : Except ErrorCode (List UInt8)
  deriving DecidableEq

/-- What the control channel receives. -/
inductive ControlMessage
  | versionResponse (major minor : UInt16) (status : MessageStatus)
  | handshake (payload : List UInt8)
  | serviceDiscoveryRequest (deviceName : List UInt8)
  | audioFocusRequest (type : AudioFocusRequestType)
  | byeByeRequest (reason : Int32)
  | byeByeResponse
  | navigationFocusRequest
  | voiceSessionRequest
  | batteryStatusNotification
  | pingRequest
  | pingResponse
  deriving DecidableEq

namespace ControlHandler

/-- The response that `onServiceDiscoveryRequest` fills in. -/
def serviceDiscovery (cfg : HandlerConfig) : ServiceDiscoveryResponse :=
  { displayName := cfg.name
    probeForSupport := false
    pingConfiguration := { trackedPingCount := 5, timeoutMs := 3000, intervalMs := 1000
                           highLatencyThresholdMs := 200 }
    headunitInfo := { make := cfg.manufacturer, model := cfg.model, year := "2026"
                      vehicleId := "WHUTFA-1", headUnitMake := cfg.manufacturer
                      headUnitModel := cfg.name, headUnitSoftwareBuild := "1"
                      headUnitSoftwareVersion := "0.1" }
    channels := [VideoSink.fillFeatures cfg, (AudioSink.mediaAudio cfg).fillFeatures,
                 (AudioSink.systemAudio cfg).fillFeatures, InputSource.fillFeatures cfg,
                 SensorSource.fillFeatures] }

/-- `sendHandshake(readHandshakeBuffer())`, and the `receive` after it. -/
def sendHandshake (cryptor : Cryptor) : List Effect :=
  match cryptor.readHandshakeBuffer with
  | .error e => [.channelError e]
  | .ok payload => [.send (.handshake payload) .nothing, .receive]

/-- Whether the handshake is complete is not looked at here. -/
def onVersionResponse (cryptor : Cryptor) (status : MessageStatus) : List Effect :=
  if status = .noCompatibleVersion then [.triggerQuit]
  else
    match cryptor.doHandshake with
    | .error e => [.channelError e]
    | .ok complete => .handshakeReturned complete :: sendHandshake cryptor

/-- `ControlHandler::onHandshake`, with what the cryptor's calls return. -/
def onHandshake (cryptor : Cryptor) : List Effect :=
  match cryptor.writeHandshakeBuffer with
  | .error e => [.channelError e]
  | .ok () =>
      match cryptor.doHandshake with
      | .error e => [.channelError e]
      | .ok false => .handshakeReturned false :: sendHandshake cryptor
      | .ok true =>
          [.handshakeReturned true, .send (.authComplete .success) .nothing, .receive]

/-- `ControlHandler::onServiceDiscoveryRequest`. -/
def onServiceDiscoveryRequest (cfg : HandlerConfig) : List Effect :=
  [.emitControl (.videoConfig cfg.videoWidth cfg.videoHeight cfg.videoFps),
   .emitControl (.session .active),
   .send (.serviceDiscoveryResponse (serviceDiscovery cfg)) .nothing, .receive]

/-- `ControlHandler::onAudioFocusRequest`. -/
def onAudioFocusRequest (type : AudioFocusRequestType) : List Effect :=
  [.send (.audioFocusResponse (if type = .release then .loss else .gain)) .nothing, .receive]

/-- The callback of `ControlHandler` for the message. -/
def handle (cfg : HandlerConfig) (cryptor : Cryptor) : ControlMessage → List Effect
  | .versionResponse _ _ status => onVersionResponse cryptor status
  | .handshake _ => onHandshake cryptor
  | .serviceDiscoveryRequest _ => onServiceDiscoveryRequest cfg
  | .audioFocusRequest type => onAudioFocusRequest type
  | .byeByeRequest _ => [.send .shutdownResponse .triggerQuit]
  | .byeByeResponse => [.triggerQuit]
  | .navigationFocusRequest => [.send .navigationFocusResponse .nothing, .receive]
  | .voiceSessionRequest => [.receive]
  | .batteryStatusNotification => [.receive]
  | .pingRequest => [.receive]
  | .pingResponse => [.pong, .receive]

/-- The control handler's own part of `start`, apart from the other channels'. -/
def sendVersionRequest : List Effect := [.send .versionRequest .nothing, .receive]

/-- `ControlHandler::sendPing`. -/
def sendPing : List Effect := [.send .pingRequest .nothing]

end ControlHandler

/-! ## Re-arming -/

theorem receives_video (session : Int32) (m : VideoMessage) :
    (VideoSink.handle session m).2.count .receive = 1 := by
  cases m <;> rfl

theorem receives_audio (sink : AudioSink) (session : Int32) (m : AudioMessage) :
    (sink.handle session m).2.count .receive = 1 := by
  cases m <;> rfl

theorem receives_input (m : InputMessage) : (InputSource.handle m).count .receive = 1 := by
  cases m <;> rfl

theorem receives_sensor (m : SensorMessage) : (SensorSource.handle m).count .receive = 1 := by
  cases m <;> rfl

/-- It calls `onChannelError`, or quits. -/
def Ends (effects : List Effect) : Prop :=
  (∃ e, .channelError e ∈ effects) ∨ .triggerQuit ∈ effects

/-- One `receive`, or none and a reason. -/
def Rearms (effects : List Effect) : Prop :=
  effects.count .receive = 1 ∨ effects.count .receive = 0 ∧ Ends effects

theorem rearms_channelError (e : ErrorCode) : Rearms [.channelError e] :=
  Or.inr ⟨rfl, Or.inl ⟨e, List.mem_cons_self⟩⟩

theorem rearms_cons {effects : List Effect} (h : Rearms effects) {effect : Effect}
    (hne : effect ≠ .receive) : Rearms (effect :: effects) := by
  unfold Rearms
  rw [List.count_cons_of_ne hne]
  refine h.imp_right fun ⟨hzero, hends⟩ => ⟨hzero, ?_⟩
  rcases hends with ⟨e, he⟩ | hquit
  · exact Or.inl ⟨e, List.mem_cons_of_mem _ he⟩
  · exact Or.inr (List.mem_cons_of_mem _ hquit)

theorem rearms_sendHandshake (cryptor : Cryptor) :
    Rearms (ControlHandler.sendHandshake cryptor) := by
  unfold ControlHandler.sendHandshake
  split
  · exact rearms_channelError _
  · exact Or.inl rfl

theorem rearms_onVersionResponse (cryptor : Cryptor) (status : MessageStatus) :
    Rearms (ControlHandler.onVersionResponse cryptor status) := by
  unfold ControlHandler.onVersionResponse
  split
  · exact Or.inr ⟨rfl, Or.inr List.mem_cons_self⟩
  · split
    · exact rearms_channelError _
    · exact rearms_cons (rearms_sendHandshake cryptor) nofun

theorem rearms_onHandshake (cryptor : Cryptor) : Rearms (ControlHandler.onHandshake cryptor) := by
  unfold ControlHandler.onHandshake
  split
  · exact rearms_channelError _
  · split
    · exact rearms_channelError _
    · exact rearms_cons (rearms_sendHandshake cryptor) nofun
    · exact Or.inl rfl

/-- **The control handler re-arms its channel once**, unless it reports an error, quits,
or answers a `ByeByeRequest`. -/
theorem receives_control (cfg : HandlerConfig) (cryptor : Cryptor) (m : ControlMessage) :
    Rearms (ControlHandler.handle cfg cryptor m) ∨
      (ControlHandler.handle cfg cryptor m).count .receive = 0 ∧
        ∃ reason, m = .byeByeRequest reason := by
  cases m with
  | versionResponse _ _ status => exact Or.inl (rearms_onVersionResponse cryptor status)
  | handshake payload => exact Or.inl (rearms_onHandshake cryptor)
  | byeByeRequest reason => exact Or.inr ⟨rfl, reason, rfl⟩
  | byeByeResponse => exact Or.inl (Or.inr ⟨rfl, Or.inr List.mem_cons_self⟩)
  | serviceDiscoveryRequest _ | audioFocusRequest _ | navigationFocusRequest
  | voiceSessionRequest | batteryStatusNotification | pingRequest | pingResponse =>
    exact Or.inl (Or.inl rfl)

end Whutfa.Handlers
