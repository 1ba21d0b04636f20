import Whutfa.ControlEvents
import Whutfa.Transition

/-! # The life of a session

What the handler process publishes about its sessions: `Runner::onDevice`
(`aa-handler/src/aasdk_runner.cpp`), `Session::start` and `Session::stop`, and the
callbacks of `ControlHandler` that emit events or quit (`aa/Session.cpp`).  One
thread runs the io service, so a step is one callback: a device attaches, or a
control handler is called with what the phone sent or what became of a promise.
A control handler lives as long as a callback refers to it, longer than its session
if need be, and may be called at any time.  A signal ends the process and is no step.

Only `current_session_` keeps a `Session` object alive between steps: a session
whose `start` throws is destroyed, and so is one that is replaced.  `connecting` is
published before anything that can fail and is not taken back in the `catch` of
`onDevice`, and a service discovery publishes `active` whatever has become of the
session.  So the published state is backed by an active session throughout a run if
and only if these two steps are taken while some session is active
(`published_backed_iff`).
-/
namespace Whutfa.Lifecycle

/-- The steps of `Session::start` that can throw, in order. -/
inductive StartStep
  | transport
  | sslWrapper
  | cryptor
  | cryptorInit
  | inStream
  | outStream
  | messenger
  | videoChannel
  | video
  | mediaAudioChannel
  | mediaAudio
  | systemAudioChannel
  | systemAudio
  | inputChannel
  | input
  | sensorChannel
  | sensor
  | pinger
  | controlChannel
  | control
  /-- `control->start()`, after `active` has been set. -/
  | controlStart
  deriving DecidableEq

/-- The error codes that the callbacks tell apart. -/
inductive ErrorCode
  | operationAborted
  | operationInProgress
  | other
  deriving DecidableEq

/-- What a `ControlHandler` is called with. -/
inductive ControlInput
  /-- A version response, and what the handshake throws. -/
  | versionResponse (compatible : Bool) (thrown : Option ErrorCode)
  | handshake (thrown : Option ErrorCode)
  | serviceDiscoveryRequest
  /-- The answer to a `ByeByeRequest` has been sent. -/
  | byeByeAnswered
  | byeByeResponse
  /-- An error of the channel, or of a message that was sent. -/
  | channelError (e : ErrorCode)
  /-- The ping promise is rejected. -/
  | pingRejected (e : ErrorCode)
  /-- A focus request, a voice session, a battery status, a ping or its answer. -/
  | other

/-- What a callback of `ControlHandler` does. -/
structure Effect where
  emitted : List ControlEvent
  /-- It calls `triggerQuit`. -/
  quits : Bool

/-- Nothing is emitted and nothing quits. -/
def Effect.none : Effect := { emitted := [], quits := false }

/-- `onChannelError`: everything but an abort quits. -/
def onChannelError (e : ErrorCode) : Effect :=
  { emitted := [], quits := e ≠ .operationAborted }

/-- The rejection handler of `schedulePing`. -/
def onPingRejected (e : ErrorCode) : Effect :=
  { emitted := [], quits := e ≠ .operationAborted ∧ e ≠ .operationInProgress }

/-- What a `catch` does with what has been thrown, if anything has. -/
def onThrown : Option ErrorCode → Effect
  | .none => Effect.none
  | some e => onChannelError e

/-- The geometry of the configuration. -/
structure HandlerConfig where
  videoWidth : UInt32
  videoHeight : UInt32
  videoFps : UInt32

/-- The callbacks of `ControlHandler`. -/
def control (cfg : HandlerConfig) : ControlInput → Effect
  | .versionResponse compatible thrown =>
      if compatible then onThrown thrown else { emitted := [], quits := true }
  | .handshake thrown => onThrown thrown
  | .serviceDiscoveryRequest =>
      { emitted := [.videoConfig cfg.videoWidth cfg.videoHeight cfg.videoFps, .session .active]
        quits := false }
  | .byeByeAnswered => { emitted := [], quits := true }
  | .byeByeResponse => { emitted := [], quits := true }
  | .channelError e => onChannelError e
  | .pingRejected e => onPingRejected e
  | .other => Effect.none

/-- A `Session` object. -/
structure Session where
  id : Nat
  active : Bool
  deriving DecidableEq

/-- A `ControlHandler` object: the session its `on_quit` refers to. -/
structure ControlHandler where
  session : Nat
  quitTriggered : Bool
  deriving DecidableEq

/-- The process. -/
structure State where
  /-- `current_session_`. -/
  current : Option Session
  /-- How many sessions have been made. -/
  made : Nat
  handlers : List ControlHandler
  /-- What `emit_control` has been called with. -/
  published : List ControlEvent

/-- No device has attached. -/
def initial : State := { current := none, made := 0, handlers := [], published := [] }

/-- The callbacks of the io service. -/
inductive Action
  /-- `onDevice`: whether making the `AOAPDevice` throws, and where `start` does. -/
  | device (deviceThrows : Bool) (startThrows : Option StartStep)
  /-- The `i`-th control handler is called. -/
  | input (i : Nat) (what : ControlInput)

/-- `emit_control`. -/
def emit (s : State) (events : List ControlEvent) : State :=
  { s with published := s.published ++ events }

/-- `Session::start` of a new session, in `onDevice`. -/
def start (s : State) : Option StartStep → State
  | .none =>
      -- the session replaces the last one, which is destroyed
      { emit s [.session .connecting] with
        current := some { id := s.made, active := true }
        made := s.made + 1
        handlers := s.handlers ++ [{ session := s.made, quitTriggered := false }] }
  | some .controlStart =>
      -- the session is destroyed, its control handler may still be called
      { emit s [.session .connecting] with
        made := s.made + 1
        handlers := s.handlers ++ [{ session := s.made, quitTriggered := false }] }
  | some _ => { emit s [.session .connecting] with made := s.made + 1 }

/-- `on_quit` of a session: nothing if the session is no more. -/
def onQuit (s : State) (session : Nat) : State :=
  match s.current with
  | none => s
  | some current =>
      if current.id = session then
        { emit s [.session .idle] with current := some { current with active := false } }
      else s

/-- `triggerQuit` of the `i`-th control handler. -/
def triggerQuit (s : State) (i : Nat) (handler : ControlHandler) : State :=
  if handler.quitTriggered then s
  else onQuit { s with handlers := s.handlers.set i { handler with quitTriggered := true } }
    handler.session

/-- One callback; only a control handler that there is can be called. -/
def step (cfg : HandlerConfig) (s : State) : Action → Option State
  | .device deviceThrows startThrows => some (if deviceThrows then s else start s startThrows)
  | .input i what =>
      match s.handlers[i]? with
      | none => none
      | some handler =>
          let effect := control cfg what
          let s := emit s effect.emitted
          some (if effect.quits then triggerQuit s i handler else s)

/-- Some `Session` object is active. -/
def SomeActive (s : State) : Prop := ∃ session, s.current = some session ∧ session.active = true

/-- A published `connecting` or `active` is backed by an active session. -/
def Backed (s : State) : Prop :=
  lastSession s.published = some .connecting ∨ lastSession s.published = some .active →
    SomeActive s

/-- A session that fails to start, and a service discovery, find an active session. -/
def FindsActive (s : State) : Action → Prop
  | .device false (some _) => SomeActive s
  | .input _ .serviceDiscoveryRequest => SomeActive s
  | _ => True

/-! ## What a step publishes -/

theorem lastSession_emit_session (s : State) (state : SessionState) :
    lastSession (emit s [.session state]).published = some state := by
  simp [lastSession, emit, ControlEvent.session?]

/-- `on_quit` publishes `idle`, or the session was not current. -/
theorem backed_onQuit {s : State} (h : Backed s) (session : Nat) : Backed (onQuit s session) := by
  unfold onQuit
  split
  · exact h
  · split
    · intro hlast
      have hidle := lastSession_emit_session s .idle
      rcases hlast with hlast | hlast
      · exact absurd (hidle.symm.trans hlast) (by decide)
      · exact absurd (hidle.symm.trans hlast) (by decide)
    · exact h

theorem backed_triggerQuit {s : State} (h : Backed s) (i : Nat) (handler : ControlHandler) :
    Backed (triggerQuit s i handler) := by
  unfold triggerQuit
  split
  · exact h
  · refine backed_onQuit ?_ handler.session
    exact h

/-- What a failing start does: `connecting` is published, and the sessions are as
they were. -/
theorem start_throws (s : State) (failing : StartStep) :
    (start s (some failing)).current = s.current ∧
      lastSession (start s (some failing)).published = some .connecting := by
  cases failing <;> exact ⟨rfl, lastSession_emit_session s .connecting⟩

theorem lastSession_serviceDiscovery (cfg : HandlerConfig) (s : State) :
    lastSession (emit s (control cfg .serviceDiscoveryRequest).emitted).published =
      some .active := by
  unfold lastSession emit
  rw [List.filterMap_append]
  show (_ ++ [SessionState.active]).getLast? = _
  exact List.getLast?_concat

theorem step_input {cfg : HandlerConfig} {s t : State} {i : Nat} {what : ControlInput}
    (h : step cfg s (.input i what) = some t) :
    ∃ handler, s.handlers[i]? = some handler ∧
      t = if (control cfg what).quits then
        triggerQuit (emit s (control cfg what).emitted) i handler
      else emit s (control cfg what).emitted := by
  simp only [step] at h
  split at h
  · cases h
  · rename_i handler hhandler
    exact ⟨handler, hhandler, (Option.some.inj h).symm⟩

/-- Of all the callbacks, only a service discovery publishes something itself. -/
theorem emitted_eq_nil (cfg : HandlerConfig) {what : ControlInput}
    (h : what ≠ .serviceDiscoveryRequest) : (control cfg what).emitted = [] := by
  cases what with
  | versionResponse compatible thrown =>
    cases compatible
    · rfl
    · cases thrown <;> rfl
  | handshake thrown => cases thrown <;> rfl
  | serviceDiscoveryRequest => exact absurd rfl h
  | byeByeAnswered => rfl
  | byeByeResponse => rfl
  | channelError e => rfl
  | pingRejected e => rfl
  | other => rfl

theorem backed_input {cfg : HandlerConfig} {s t : State} {i : Nat} {what : ControlInput}
    (h : Backed s) (hactive : FindsActive s (.input i what))
    (hstep : step cfg s (.input i what) = some t) : Backed t := by
  obtain ⟨handler, -, rfl⟩ := step_input hstep
  have hemit : Backed (emit s (control cfg what).emitted) := by
    by_cases hwhat : what = .serviceDiscoveryRequest
    · subst hwhat
      exact fun _ => hactive
    · rw [emitted_eq_nil cfg hwhat]
      unfold emit
      rw [List.append_nil]
      exact h
  split
  · exact backed_triggerQuit hemit i handler
  · exact hemit

theorem backed_step {cfg : HandlerConfig} {s t : State} {a : Action} (h : Backed s)
    (hactive : FindsActive s a) (hstep : step cfg s a = some t) : Backed t := by
  cases a with
  | device deviceThrows startThrows =>
    obtain rfl := Option.some.inj hstep
    cases deviceThrows with
    | true => exact h
    | false =>
      cases startThrows with
      | none => exact fun _ => ⟨_, rfl, rfl⟩
      | some failing =>
        intro _
        show ∃ session, (start s (some failing)).current = some session ∧ _
        rw [(start_throws s failing).1]
        exact hactive
  | input i what => exact backed_input h hactive hstep

/-- A step that should have found an active session publishes a state that nothing
backs. -/
theorem not_backed_step {cfg : HandlerConfig} {s t : State} {a : Action}
    (hactive : ¬ FindsActive s a) (hstep : step cfg s a = some t) : ¬ Backed t := by
  intro hbacked
  cases a with
  | device deviceThrows startThrows =>
    obtain rfl := Option.some.inj hstep
    cases deviceThrows with
    | true => exact hactive trivial
    | false =>
      cases startThrows with
      | none => exact hactive trivial
      | some failing =>
        obtain ⟨session, hsession⟩ := hbacked (Or.inl (start_throws s failing).2)
        rw [if_neg (by decide), (start_throws s failing).1] at hsession
        exact hactive ⟨session, hsession⟩
  | input i what =>
    obtain ⟨handler, -, rfl⟩ := step_input hstep
    by_cases hwhat : what = .serviceDiscoveryRequest
    · subst hwhat
      exact hactive (hbacked (Or.inr (lastSession_serviceDiscovery cfg s)))
    · refine hactive ?_
      unfold FindsActive
      split
      · rename_i heq
        cases heq
      · rename_i heq
        cases heq
        exact absurd rfl hwhat
      · trivial

/-- **When the published state is backed by a session.**  In every run of the
process, whatever attaches, fails, is received or times out, a published
`connecting` or `active` is backed by an active session in every state if and only
if every start that fails and every service discovery finds an active session. -/
theorem published_backed_iff (cfg : HandlerConfig) (actions : List Action) :
    Transition.Throughout (step cfg) Backed initial actions ↔
      Transition.Meets (step cfg) FindsActive initial actions :=
  Transition.throughout_iff_meets (fun _ h => h) (fun _ _ _ h hg => backed_step h hg)
    (fun _ _ _ _ hg => not_backed_step hg) (by rintro (h | h) <;> cases h)

/-- The first device, and `cryptor->init()` throws: `connecting` stays published,
and there is no session. -/
theorem connecting_without_session :
    ∃ s, Transition.run (step { videoWidth := 1280, videoHeight := 720, videoFps := 30 }) initial
        [.device false (some .cryptorInit)] = some s ∧
      lastSession s.published = some .connecting ∧ s.current = none ∧ ¬ Backed s := by
  refine ⟨_, rfl, rfl, rfl, fun h => ?_⟩
  obtain ⟨session, hsession, -⟩ := h (Or.inl rfl)
  cases hsession

end Whutfa.Lifecycle
