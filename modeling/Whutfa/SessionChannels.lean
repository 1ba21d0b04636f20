import Mathlib.Logic.Function.Basic
import Whutfa.SessionHandlers
import Whutfa.Transition

/-! # A session's channels

The runs of one session (`aa-handler/src/aa/Session.cpp`): `ControlHandler::start` posts
the start of every channel, and then the phone's messages, failing receives, the outcomes
of what was sent, touches and the ping promise come in any order.  A message is delivered
only to a channel with a receive outstanding, and uses it up.

Two results.  Between handler calls every channel that has been started has exactly one
receive outstanding until it has seen an error or the session has been told to quit, and
each media indication is queued once and acknowledged once (`one_receive_outstanding`).
And the session is announced as active, and the services are told, after a complete
handshake exactly when no service discovery request comes before one: the handler for it
does not look (`announced_after_handshake_iff`).

A handler is the list of its effects (`SessionHandlers`), which `perform` carries out one
after the other.  So an invariant is kept if it is kept by each effect and by what a step
does around the handler: `Rearmed` for the receives, `Forwarded` for the calls of
`IpcBridge` and the acknowledgements, `Secured` for the handshake.
-/
namespace Whutfa.Handlers

open Lifecycle (ErrorCode)

/-- A message of the phone, with what the cryptor does in its handler. -/
inductive Message
  | control (m : ControlMessage) (cryptor : Cryptor)
  | video (m : VideoMessage)
  | mediaAudio (m : AudioMessage)
  | systemAudio (m : AudioMessage)
  | input (m : InputMessage)
  | sensor (m : SensorMessage)
  deriving DecidableEq

/-- The channel that a message comes on. -/
def Message.channel : Message → Channel
  | control .. => .control
  | video _ => .video
  | mediaAudio _ => .mediaAudio
  | systemAudio _ => .systemAudio
  | input _ => .input
  | sensor _ => .sensor

/-- Whether a channel's `start` has been posted to its strand, and has run. -/
inductive Stage
  | idle
  | dispatched
  | started
  deriving DecidableEq

/-- The channels, the members of the handlers, and what has happened so far. -/
structure State where
  stage : Channel → Stage
  /-- Receives that have been asked for and not been answered. -/
  outstanding : Channel → Nat
  /-- `session_` of the three sinks. -/
  videoSession : Int32
  mediaAudioSession : Int32
  systemAudioSession : Int32
  /-- Messages on their way to the phone, by what follows them. -/
  sends : List (Channel × Continuation)
  /-- `quit_triggered_`. -/
  quitTriggered : Bool
  /-- The calls of `onChannelError`. -/
  errors : List (Channel × ErrorCode)
  delivered : List Message
  /-- What the handlers have done. -/
  log : List (Channel × Effect)

/-- After `control->start()`. -/
def initial : State :=
  { stage := fun c => if c = .control then .dispatched else .idle
    outstanding := fun _ => 0
    videoSession := -1
    mediaAudioSession := -1
    systemAudioSession := -1
    sends := []
    quitTriggered := false
    errors := []
    delivered := []
    log := [] }

/-- What is to be done when the message has been sent. -/
def Effect.continuation? : Effect → Option Continuation
  | send _ then_ => some then_
  | _ => none

/-- The error that is handled. -/
def Effect.error? : Effect → Option ErrorCode
  | channelError e => some e
  | _ => none

/-- Only the control handler quits on an error. -/
def Effect.quits (c : Channel) : Effect → Bool
  | triggerQuit => true
  | channelError e => c = .control ∧ (Lifecycle.onChannelError e).quits
  | _ => false

/-- A handler of the channel does these things. -/
def perform (c : Channel) (effects : List Effect) (s : State) : State :=
  { s with
    outstanding := Function.update s.outstanding c (s.outstanding c + effects.count .receive)
    sends := s.sends ++ effects.filterMap fun effect => effect.continuation?.map (c, ·)
    errors := s.errors ++ effects.filterMap fun effect => effect.error?.map (c, ·)
    quitTriggered := s.quitTriggered || effects.any (Effect.quits c)
    log := s.log ++ effects.map (c, ·) }

/-- What the message's handler does. -/
def respond (cfg : HandlerConfig) (s : State) : Message → List Effect
  | .control m cryptor => ControlHandler.handle cfg cryptor m
  | .video m => (VideoSink.handle s.videoSession m).2
  | .mediaAudio m => ((AudioSink.mediaAudio cfg).handle s.mediaAudioSession m).2
  | .systemAudio m => ((AudioSink.systemAudio cfg).handle s.systemAudioSession m).2
  | .input m => InputSource.handle m
  | .sensor m => SensorSource.handle m

/-- The message is recorded, uses up a receive and may set a sink's session. -/
def accept (cfg : HandlerConfig) (s : State) (m : Message) : State :=
  let s := { s with
    outstanding := Function.update s.outstanding m.channel (s.outstanding m.channel - 1)
    delivered := s.delivered ++ [m] }
  match m with
  | .video m => { s with videoSession := (VideoSink.handle s.videoSession m).1 }
  | .mediaAudio m =>
      { s with mediaAudioSession :=
          ((AudioSink.mediaAudio cfg).handle s.mediaAudioSession m).1 }
  | .systemAudio m =>
      { s with systemAudioSession :=
          ((AudioSink.systemAudio cfg).handle s.systemAudioSession m).1 }
  | .control .. | .input _ | .sensor _ => s

/-- What follows a message that has been sent. -/
def continue_ : Continuation → List Effect
  | .nothing => []
  | .sendFocus => VideoSink.sendFocus
  | .sendDriving => SensorSource.sendDriving
  | .sendNight => SensorSource.sendNight
  | .triggerQuit => [.triggerQuit]

/-- The start of a channel; that of the control channel posts the others'. -/
def startChannel (s : State) (c : Channel) : State :=
  if c = .control then
    perform .control ControlHandler.sendVersionRequest
      { s with stage := fun d => if d = .control then .started else .dispatched }
  else perform c [.receive] { s with stage := Function.update s.stage c .started }

/-- What the phone, the transport or a timer does next. -/
inductive Action
  /-- The strand of the channel runs its `start`. -/
  | start (c : Channel)
  | deliver (m : Message)
  | receiveFails (c : Channel) (e : ErrorCode)
  /-- The `i`-th message on its way has been sent, or could not be. -/
  | sent (i : Nat) (failed : Option ErrorCode)
  /-- The task that `dispatchTouch` has posted. -/
  | touch (report : InputReport)
  /-- The ping promise is resolved, or rejected. -/
  | pingResolved
  | pingRejected (e : ErrorCode)

/-- One callback; a message is delivered only to a receive that is outstanding. -/
def step (cfg : HandlerConfig) (s : State) : Action → Option State
  | .start c => if s.stage c = .dispatched then some (startChannel s c) else none
  | .deliver m =>
      if 1 ≤ s.outstanding m.channel then
        some (perform m.channel (respond cfg s m) (accept cfg s m))
      else none
  | .receiveFails c e =>
      if 1 ≤ s.outstanding c then
        some (perform c [.channelError e]
          { s with outstanding := Function.update s.outstanding c (s.outstanding c - 1) })
      else none
  | .sent i failed =>
      match s.sends[i]? with
      | none => none
      | some (c, then_) =>
          let effects := match failed with
            | none => continue_ then_
            | some e => [.channelError e]
          some (perform c effects { s with sends := s.sends.eraseIdx i })
  | .touch report => some (perform .input (InputSource.sendInputReport report) s)
  | .pingResolved => some (perform .control ControlHandler.sendPing s)
  | .pingRejected e =>
      some (perform .control (if (Lifecycle.onPingRejected e).quits then [.triggerQuit] else []) s)

/-! ## What is queued, acknowledged and announced -/

/-- A call of `queue_video` or `queue_audio`. -/
def Effect.isQueue : Effect → Bool
  | queueVideo .. | queueAudio .. => true
  | _ => false

/-- The effect is a media acknowledgement. -/
def Effect.isAck : Effect → Bool
  | send (.mediaAckIndication ..) _ => true
  | _ => false

/-- The session is announced as active, or the phone is told the services. -/
def Effect.announces : Effect → Bool
  | emitControl (.session .active) => true
  | send (.serviceDiscoveryResponse _) _ => true
  | _ => false

/-- The queue call that the phone's message asks for. -/
def Message.queueCall (cfg : HandlerConfig) : Message → Option (Channel × Effect)
  | video (.mediaWithTimestampIndication timestamp buffer) =>
      some (.video, .queueVideo timestamp buffer)
  | video (.mediaIndication buffer) => some (.video, .queueVideo 0 buffer)
  | mediaAudio (.mediaWithTimestampIndication timestamp buffer) =>
      some (.mediaAudio, .queueAudio 1 cfg.mediaSampleRate 2 16 timestamp buffer)
  | mediaAudio (.mediaIndication buffer) =>
      some (.mediaAudio, .queueAudio 1 cfg.mediaSampleRate 2 16 0 buffer)
  | systemAudio (.mediaWithTimestampIndication timestamp buffer) =>
      some (.systemAudio, .queueAudio 2 cfg.speechSampleRate 1 16 timestamp buffer)
  | systemAudio (.mediaIndication buffer) =>
      some (.systemAudio, .queueAudio 2 cfg.speechSampleRate 1 16 0 buffer)
  | _ => none

/-- The calls of `queue_video` and `queue_audio`, with their channels. -/
def queueCalls (log : List (Channel × Effect)) : List (Channel × Effect) :=
  log.filter fun entry => entry.2.isQueue

/-- The channels on which acknowledgements have been sent, in order. -/
def acks (log : List (Channel × Effect)) : List Channel :=
  (log.filter fun entry => entry.2.isAck).map Prod.fst

/-- The channel has seen an error. -/
def SeenError (s : State) (c : Channel) : Prop := ∃ e, (c, e) ∈ s.errors

/-- `triggerQuit` has been called, or the phone has said goodbye. -/
def ToldToQuit (s : State) : Prop :=
  s.quitTriggered = true ∨ ∃ reason cryptor, .control (.byeByeRequest reason) cryptor ∈ s.delivered

/-- An effect that neither queues nor acknowledges nor announces. -/
def Effect.isQuiet (effect : Effect) : Bool :=
  !effect.isQueue && !effect.isAck && !effect.announces

/-- A quiet effect that asks for no receive. -/
def Effect.Plain (effect : Effect) : Prop := effect ≠ receive ∧ effect.isQuiet = true

/-! ## What a step does

Every step is a delivery, a failure, or one of the few things that make a handler run
without a message. -/

theorem plain_continue (then_ : Continuation) : ∀ effect ∈ continue_ then_, effect.Plain := by
  intro effect heffect
  cases then_ with
  | nothing => cases heffect
  | sendFocus | sendDriving | sendNight | triggerQuit =>
    rw [List.mem_singleton.mp heffect]
    exact ⟨nofun, rfl⟩

/-- A step starts a channel, delivers a message, fails a receive, or does some plain
things on one channel. -/
theorem step_cases {cfg : HandlerConfig} {s t : State} {a : Action}
    (h : step cfg s a = some t) :
    (∃ c, a = .start c ∧ s.stage c = .dispatched ∧ t = startChannel s c) ∨
    (∃ m, a = .deliver m ∧ 1 ≤ s.outstanding m.channel ∧
      t = perform m.channel (respond cfg s m) (accept cfg s m)) ∨
    (∃ c e, a = .receiveFails c e ∧ 1 ≤ s.outstanding c ∧
      t = perform c [.channelError e]
        { s with outstanding := Function.update s.outstanding c (s.outstanding c - 1) }) ∨
    (∃ c effects sends, (∀ m, a ≠ .deliver m) ∧ (∀ effect ∈ effects, effect.Plain) ∧
      t = perform c effects { s with sends }) := by
  have hsingle : ∀ {effect : Effect}, effect.Plain → ∀ e ∈ [effect], e.Plain :=
    fun hplain e he => List.mem_singleton.mp he ▸ hplain
  cases a with
  | start c =>
    obtain ⟨hstage, ht⟩ := Option.ite_none_right_eq_some.mp h
    exact Or.inl ⟨c, rfl, hstage, (Option.some.inj ht).symm⟩
  | deliver m =>
    obtain ⟨hle, ht⟩ := Option.ite_none_right_eq_some.mp h
    exact Or.inr (Or.inl ⟨m, rfl, hle, (Option.some.inj ht).symm⟩)
  | receiveFails c e =>
    obtain ⟨hle, ht⟩ := Option.ite_none_right_eq_some.mp h
    exact Or.inr (Or.inr (Or.inl ⟨c, e, rfl, hle, (Option.some.inj ht).symm⟩))
  | sent i failed =>
    simp only [step] at h
    split at h
    · cases h
    · rename_i c then_ _
      obtain rfl := Option.some.inj h
      refine Or.inr (Or.inr (Or.inr ⟨c, _, _, fun _ => Action.noConfusion, ?_, rfl⟩))
      cases failed with
      | none => exact plain_continue then_
      | some e => exact hsingle ⟨nofun, rfl⟩
  | touch report =>
    obtain rfl := Option.some.inj h
    refine Or.inr (Or.inr (Or.inr ⟨_, _, s.sends, fun _ => Action.noConfusion, ?_, rfl⟩))
    exact hsingle ⟨nofun, rfl⟩
  | pingResolved =>
    obtain rfl := Option.some.inj h
    refine Or.inr (Or.inr (Or.inr ⟨_, _, s.sends, fun _ => Action.noConfusion, ?_, rfl⟩))
    exact hsingle ⟨nofun, rfl⟩
  | pingRejected e =>
    obtain rfl := Option.some.inj h
    refine Or.inr (Or.inr (Or.inr ⟨_, _, s.sends, fun _ => Action.noConfusion, ?_, rfl⟩))
    by_cases hquits : (Lifecycle.onPingRejected e).quits = true
    · rw [if_pos hquits]
      exact hsingle ⟨nofun, rfl⟩
    · rw [if_neg hquits]
      exact nofun

theorem outstanding_perform (c : Channel) (effects : List Effect) (s : State) (d : Channel) :
    (perform c effects s).outstanding d =
      s.outstanding d + if d = c then effects.count .receive else 0 := by
  show Function.update s.outstanding c (s.outstanding c + effects.count .receive) d = _
  by_cases hd : d = c
  · subst hd
    rw [Function.update_self, if_pos rfl]
  · rw [Function.update_of_ne hd, if_neg hd, Nat.add_zero]

theorem SeenError.perform {s : State} {d : Channel} (h : SeenError s d) (c : Channel)
    (effects : List Effect) : SeenError (perform c effects s) d := by
  obtain ⟨e, he⟩ := h
  exact ⟨e, List.mem_append_left _ he⟩

theorem seenError_of_mem {effects : List Effect} {e : ErrorCode}
    (h : .channelError e ∈ effects) (c : Channel) (s : State) :
    SeenError (perform c effects s) c :=
  ⟨e, List.mem_append_right _ (List.mem_filterMap.mpr ⟨_, h, rfl⟩)⟩

theorem ToldToQuit.perform {s : State} (h : ToldToQuit s) (c : Channel)
    (effects : List Effect) : ToldToQuit (perform c effects s) := by
  rcases h with hquit | hbye
  · exact Or.inl (Bool.or_eq_true_iff.mpr (Or.inl hquit))
  · exact Or.inr hbye

theorem toldToQuit_of_mem {effects : List Effect} (h : .triggerQuit ∈ effects) (c : Channel)
    (s : State) : ToldToQuit (perform c effects s) :=
  Or.inl (Bool.or_eq_true_iff.mpr (Or.inr (List.any_eq_true.mpr ⟨_, h, rfl⟩)))

/-! ## One receive at a time -/

/-- The receives of every channel, started or not. -/
structure Rearmed (s : State) : Prop where
  outstanding_le : ∀ c, s.outstanding c ≤ 1
  idle : ∀ c, s.stage c ≠ .started → s.outstanding c = 0
  ready : ∀ c, s.stage c = .started → ¬ SeenError s c → ¬ ToldToQuit s → s.outstanding c = 1
  control_first : s.stage .control ≠ .started → ∀ c, c ≠ .control → s.stage c = .idle

theorem rearmed_initial : Rearmed initial where
  outstanding_le := fun _ => Nat.zero_le 1
  idle := fun _ _ => rfl
  ready := fun c hc => by cases c <;> cases hc
  control_first := fun _ _ hc => if_neg hc

/-- Effects without a `receive` leave the receives as they are. -/
theorem Rearmed.perform_plain {s : State} (h : Rearmed s) (c : Channel) {effects : List Effect}
    (hplain : ∀ effect ∈ effects, effect.Plain) (sends : List (Channel × Continuation)) :
    Rearmed (perform c effects { s with sends }) := by
  have hcount : effects.count .receive = 0 :=
    List.count_eq_zero.mpr fun hmem => (hplain _ hmem).1 rfl
  have hout : ∀ d, (perform c effects { s with sends }).outstanding d = s.outstanding d := by
    intro d
    rw [outstanding_perform, hcount, ite_self, Nat.add_zero]
  exact {
    outstanding_le := fun d => (hout d).trans_le (h.outstanding_le d)
    idle := fun d hd => (hout d).trans (h.idle d hd)
    ready := fun d hd herror htold => (hout d).trans (h.ready d hd
      (fun he => herror (SeenError.perform (s := { s with sends }) he c effects))
      (fun ht => htold (ToldToQuit.perform (s := { s with sends }) ht c effects)))
    control_first := h.control_first }

/-- A channel with a receive outstanding has been started. -/
theorem Rearmed.started_of_outstanding {s : State} (h : Rearmed s) {c : Channel}
    (hc : 1 ≤ s.outstanding c) : s.stage c = .started := by
  by_contra hstage
  exact absurd (h.idle c hstage) (Nat.one_le_iff_ne_zero.mp hc)

/-- A receive is used up, and the effects that follow ask for the next one, or for none
and leave a reason. -/
theorem Rearmed.perform_used {s u : State} (h : Rearmed s) {c : Channel} {effects : List Effect}
    (hc : 1 ≤ s.outstanding c) (hstage : u.stage = s.stage)
    (hout : u.outstanding = Function.update s.outstanding c (s.outstanding c - 1))
    (herrors : ∀ d, SeenError s d → SeenError u d) (htold : ToldToQuit s → ToldToQuit u)
    (hcount : effects.count .receive = 1 ∨ effects.count .receive = 0 ∧
      (SeenError (perform c effects u) c ∨ ToldToQuit (perform c effects u))) :
    Rearmed (perform c effects u) := by
  have hone : s.outstanding c = 1 := Nat.le_antisymm (h.outstanding_le c) hc
  have hself : (perform c effects u).outstanding c = effects.count .receive := by
    rw [outstanding_perform, if_pos rfl, hout, Function.update_self, hone, Nat.sub_self,
      Nat.zero_add]
  have hother : ∀ d, d ≠ c → (perform c effects u).outstanding d = s.outstanding d := by
    intro d hd
    rw [outstanding_perform, if_neg hd, hout, Function.update_of_ne hd, Nat.add_zero]
  have hstarted := h.started_of_outstanding hc
  have hstages : (perform c effects u).stage = s.stage := hstage
  refine ⟨fun d => ?_, fun d hd => ?_, fun d hd hnoError hnotTold => ?_, ?_⟩
  · by_cases hdc : d = c
    · subst hdc
      rw [hself]
      rcases hcount with hcount | hcount <;> omega
    · exact (hother d hdc).trans_le (h.outstanding_le d)
  · rw [hstages] at hd
    have hdc : d ≠ c := fun heq => hd (heq ▸ hstarted)
    exact (hother d hdc).trans (h.idle d hd)
  · by_cases hdc : d = c
    · subst hdc
      rcases hcount with hcount | ⟨-, hseen | hquit⟩
      · exact hself.trans hcount
      · exact absurd hseen hnoError
      · exact absurd hquit hnotTold
    · rw [hstages] at hd
      exact (hother d hdc).trans (h.ready d hd
        (fun he => hnoError ((herrors d he).perform c effects))
        (fun ht => hnotTold ((htold ht).perform c effects)))
  · rw [hstages]
    exact h.control_first

theorem stage_accept (cfg : HandlerConfig) (s : State) (m : Message) :
    (accept cfg s m).stage = s.stage := by
  cases m <;> rfl

theorem outstanding_accept (cfg : HandlerConfig) (s : State) (m : Message) :
    (accept cfg s m).outstanding =
      Function.update s.outstanding m.channel (s.outstanding m.channel - 1) := by
  cases m <;> rfl

theorem errors_accept (cfg : HandlerConfig) (s : State) (m : Message) :
    (accept cfg s m).errors = s.errors := by
  cases m <;> rfl

theorem quitTriggered_accept (cfg : HandlerConfig) (s : State) (m : Message) :
    (accept cfg s m).quitTriggered = s.quitTriggered := by
  cases m <;> rfl

theorem delivered_accept (cfg : HandlerConfig) (s : State) (m : Message) :
    (accept cfg s m).delivered = s.delivered ++ [m] := by
  cases m <;> rfl

theorem log_accept (cfg : HandlerConfig) (s : State) (m : Message) :
    (accept cfg s m).log = s.log := by
  cases m <;> rfl

/-- **Every handler re-arms its channel once**, save the control handler on its way out. -/
theorem receives_respond (cfg : HandlerConfig) (s : State) (m : Message) :
    Rearms (respond cfg s m) ∨ (respond cfg s m).count .receive = 0 ∧
      ∃ reason cryptor, m = .control (.byeByeRequest reason) cryptor := by
  cases m with
  | control m cryptor =>
    exact (receives_control cfg cryptor m).imp_right
      fun ⟨hzero, reason, hm⟩ => ⟨hzero, reason, cryptor, hm ▸ rfl⟩
  | video m => exact Or.inl (Or.inl (receives_video _ m))
  | mediaAudio m => exact Or.inl (Or.inl (receives_audio _ _ m))
  | systemAudio m => exact Or.inl (Or.inl (receives_audio _ _ m))
  | input m => exact Or.inl (Or.inl (receives_input m))
  | sensor m => exact Or.inl (Or.inl (receives_sensor m))

theorem Rearmed.deliver {cfg : HandlerConfig} {s : State} (h : Rearmed s) {m : Message}
    (hm : 1 ≤ s.outstanding m.channel) :
    Rearmed (perform m.channel (respond cfg s m) (accept cfg s m)) := by
  have htold : ToldToQuit s → ToldToQuit (accept cfg s m) := by
    unfold ToldToQuit
    rw [quitTriggered_accept, delivered_accept]
    exact Or.imp_right fun ⟨reason, cryptor, hmem⟩ =>
      ⟨reason, cryptor, List.mem_append_left _ hmem⟩
  refine h.perform_used hm (stage_accept cfg s m) (outstanding_accept cfg s m)
    (fun d ⟨e, he⟩ => ⟨e, (errors_accept cfg s m).symm ▸ he⟩) htold ?_
  rcases receives_respond cfg s m with (hone | ⟨hzero, herror | hquit⟩) | ⟨hzero, hbye⟩
  · exact Or.inl hone
  · obtain ⟨e, he⟩ := herror
    exact Or.inr ⟨hzero, Or.inl (seenError_of_mem he _ _)⟩
  · exact Or.inr ⟨hzero, Or.inr (toldToQuit_of_mem hquit _ _)⟩
  · obtain ⟨reason, cryptor, rfl⟩ := hbye
    have hdelivered : ToldToQuit
        (accept cfg s (.control (.byeByeRequest reason) cryptor)) := by
      refine Or.inr ⟨reason, cryptor, ?_⟩
      rw [delivered_accept]
      exact List.mem_append_right _ (List.mem_singleton_self _)
    exact Or.inr ⟨hzero, Or.inr (hdelivered.perform _ _)⟩

/-- A channel that is started asks for its first receive. -/
theorem Rearmed.perform_start {s u : State} (h : Rearmed s) {c : Channel} {effects : List Effect}
    (hc : s.stage c ≠ .started) (hout : u.outstanding = s.outstanding)
    (hstarted : u.stage c = .started) (hcontrol : u.stage .control = .started)
    (hother : ∀ d, d ≠ c → (u.stage d = .started ↔ s.stage d = .started))
    (herrors : u.errors = s.errors) (htold : ToldToQuit s → ToldToQuit u)
    (hcount : effects.count .receive = 1) : Rearmed (perform c effects u) := by
  have hself : (perform c effects u).outstanding c = 1 := by
    rw [outstanding_perform, if_pos rfl, hout, h.idle c hc, hcount]
  have hrest : ∀ d, d ≠ c → (perform c effects u).outstanding d = s.outstanding d := by
    intro d hd
    rw [outstanding_perform, if_neg hd, hout, Nat.add_zero]
  refine ⟨fun d => ?_, fun d hd => ?_, fun d hd hnoError hnotTold => ?_,
    fun hnot => absurd hcontrol hnot⟩
  · by_cases hdc : d = c
    · exact hdc ▸ hself.le
    · exact (hrest d hdc).trans_le (h.outstanding_le d)
  · have hdc : d ≠ c := fun heq => hd (heq ▸ hstarted)
    exact (hrest d hdc).trans (h.idle d fun hs => hd ((hother d hdc).mpr hs))
  · by_cases hdc : d = c
    · exact hdc ▸ hself
    · refine (hrest d hdc).trans (h.ready d ((hother d hdc).mp hd) (fun ⟨e, he⟩ => ?_)
        fun ht => hnotTold ((htold ht).perform c effects))
      exact hnoError (SeenError.perform ⟨e, herrors.symm ▸ he⟩ c effects)

theorem Rearmed.startChannel {s : State} (h : Rearmed s) {c : Channel}
    (hc : s.stage c = .dispatched) : Rearmed (startChannel s c) := by
  have hnot : s.stage c ≠ .started := by
    rw [hc]
    nofun
  unfold Handlers.startChannel
  by_cases hcontrol : c = .control
  · subst hcontrol
    rw [if_pos rfl]
    refine h.perform_start hnot rfl rfl rfl (fun d hd => ?_) rfl id rfl
    show (if d = .control then Stage.started else .dispatched) = .started ↔ _
    rw [if_neg hd, h.control_first hnot d hd]
    exact ⟨nofun, nofun⟩
  · have hfirst : s.stage .control = .started := by
      by_contra hne
      exact absurd (hc.symm.trans (h.control_first hne c hcontrol)) nofun
    rw [if_neg hcontrol]
    refine h.perform_start hnot rfl (Function.update_self ..) ?_ (fun d hd => ?_) rfl id rfl
    · exact (Function.update_of_ne (Ne.symm hcontrol) _ _).trans hfirst
    · exact iff_of_eq (congrArg (· = Stage.started) (Function.update_of_ne hd _ _))

theorem rearmed_step {cfg : HandlerConfig} {s t : State} {a : Action} (h : Rearmed s)
    (hstep : step cfg s a = some t) : Rearmed t := by
  rcases step_cases hstep with ⟨c, -, hc, rfl⟩ | ⟨m, -, hm, rfl⟩ | ⟨c, e, -, hc, rfl⟩ |
    ⟨c, effects, sends, -, hplain, rfl⟩
  · exact h.startChannel hc
  · exact h.deliver hm
  · exact h.perform_used hc rfl rfl (fun _ => id) id
      (Or.inr ⟨rfl, Or.inl (seenError_of_mem List.mem_cons_self _ _)⟩)
  · exact h.perform_plain c hplain sends

/-! ## One queue call and one acknowledgement for an indication -/

theorem queueCalls_perform (c : Channel) (effects : List Effect) (s : State) :
    queueCalls (perform c effects s).log =
      queueCalls s.log ++ (effects.filter Effect.isQueue).map (c, ·) := by
  show (s.log ++ effects.map (c, ·)).filter _ = _
  rw [List.filter_append, List.filter_map]
  rfl

theorem acks_perform (c : Channel) (effects : List Effect) (s : State) :
    acks (perform c effects s).log =
      acks s.log ++ (effects.filter Effect.isAck).map fun _ => c := by
  show ((s.log ++ effects.map (c, ·)).filter _).map Prod.fst = _
  rw [List.filter_append, List.map_append, List.filter_map, List.map_map]
  rfl

theorem isQuiet_iff (effect : Effect) : effect.isQuiet = true ↔
    effect.isQueue = false ∧ effect.isAck = false ∧ effect.announces = false := by
  unfold Effect.isQuiet
  simp only [Bool.and_eq_true, Bool.not_eq_true', and_assoc]

theorem filter_quiet {effects : List Effect} (h : effects.all Effect.isQuiet = true) :
    effects.filter Effect.isQueue = [] ∧ effects.filter Effect.isAck = [] := by
  have hquiet : ∀ effect ∈ effects, effect.isQueue = false ∧ effect.isAck = false ∧
      effect.announces = false := fun effect hmem =>
    (isQuiet_iff effect).mp (List.all_eq_true.mp h effect hmem)
  refine ⟨List.filter_eq_nil_iff.mpr fun effect hmem => ?_,
    List.filter_eq_nil_iff.mpr fun effect hmem => ?_⟩
  · rw [(hquiet effect hmem).1]
    nofun
  · rw [(hquiet effect hmem).2.1]
    nofun

theorem quiet_sendHandshake (cryptor : Cryptor) :
    (ControlHandler.sendHandshake cryptor).all Effect.isQuiet = true := by
  unfold ControlHandler.sendHandshake
  split <;> rfl

theorem quiet_onVersionResponse (cryptor : Cryptor) (status : MessageStatus) :
    (ControlHandler.onVersionResponse cryptor status).all Effect.isQuiet = true := by
  unfold ControlHandler.onVersionResponse
  split
  · rfl
  · split
    · rfl
    · exact quiet_sendHandshake cryptor

theorem quiet_onHandshake (cryptor : Cryptor) :
    (ControlHandler.onHandshake cryptor).all Effect.isQuiet = true := by
  unfold ControlHandler.onHandshake
  split
  · rfl
  · split
    · rfl
    · exact quiet_sendHandshake cryptor
    · rfl

/-- Of the control handlers only that of a service discovery request is not quiet. -/
theorem quiet_control (cfg : HandlerConfig) (cryptor : Cryptor) {m : ControlMessage}
    (hm : ∀ name, m ≠ .serviceDiscoveryRequest name) :
    (ControlHandler.handle cfg cryptor m).all Effect.isQuiet = true := by
  cases m with
  | versionResponse _ _ status => exact quiet_onVersionResponse cryptor status
  | handshake payload => exact quiet_onHandshake cryptor
  | serviceDiscoveryRequest name => exact absurd rfl (hm name)
  | audioFocusRequest _ | byeByeRequest _ | byeByeResponse | navigationFocusRequest
  | voiceSessionRequest | batteryStatusNotification | pingRequest | pingResponse => rfl

theorem control_not_media (cfg : HandlerConfig) (cryptor : Cryptor) (m : ControlMessage) :
    (ControlHandler.handle cfg cryptor m).filter Effect.isQueue = [] ∧
      (ControlHandler.handle cfg cryptor m).filter Effect.isAck = [] := by
  by_cases hm : ∃ name, m = .serviceDiscoveryRequest name
  · obtain ⟨name, rfl⟩ := hm
    exact ⟨rfl, rfl⟩
  · exact filter_quiet (quiet_control cfg cryptor fun name heq => hm ⟨name, heq⟩)

/-- **A media indication makes its one queue call and sends one acknowledgement**, and no
other message does either. -/
theorem respond_media (cfg : HandlerConfig) (s : State) (m : Message) :
    ((respond cfg s m).filter Effect.isQueue).map (m.channel, ·) = (m.queueCall cfg).toList ∧
      ((respond cfg s m).filter Effect.isAck).map (fun _ => m.channel) =
        ((m.queueCall cfg).map Prod.fst).toList := by
  cases m with
  | control m cryptor =>
    obtain ⟨hqueue, hack⟩ := control_not_media cfg cryptor m
    simp only [respond, hqueue, hack]
    exact ⟨rfl, rfl⟩
  | video m => cases m <;> exact ⟨rfl, rfl⟩
  | mediaAudio m => cases m <;> exact ⟨rfl, rfl⟩
  | systemAudio m => cases m <;> exact ⟨rfl, rfl⟩
  | input m => cases m <;> exact ⟨rfl, rfl⟩
  | sensor m => cases m <;> exact ⟨rfl, rfl⟩

/-- The queue calls and acknowledgements are those of the indications delivered. -/
structure Forwarded (cfg : HandlerConfig) (s : State) : Prop where
  queued : queueCalls s.log = s.delivered.filterMap (Message.queueCall cfg)
  acked : acks s.log = s.delivered.filterMap fun m => (m.queueCall cfg).map Prod.fst

theorem filterMap_snoc {α β : Type} (f : α → Option β) (xs : List α) (x : α) :
    (xs ++ [x]).filterMap f = xs.filterMap f ++ (f x).toList := by
  rw [List.filterMap_append]
  cases hx : f x with
  | none => rw [List.filterMap_cons_none hx, List.filterMap_nil, Option.toList_none]
  | some y => rw [List.filterMap_cons_some hx, List.filterMap_nil, Option.toList_some]

/-- Effects that are no queue calls and no acknowledgements leave both as they are. -/
theorem Forwarded.quiet {cfg : HandlerConfig} {s u : State} (h : Forwarded cfg s)
    (hlog : u.log = s.log) (hdelivered : u.delivered = s.delivered) (c : Channel)
    {effects : List Effect}
    (heffects : effects.filter Effect.isQueue = [] ∧ effects.filter Effect.isAck = []) :
    Forwarded cfg (perform c effects u) := by
  have hdelivered' : (perform c effects u).delivered = s.delivered := hdelivered
  constructor
  · rw [queueCalls_perform, heffects.1, hlog, hdelivered', List.map_nil, List.append_nil]
    exact h.queued
  · rw [acks_perform, heffects.2, hlog, hdelivered', List.map_nil, List.append_nil]
    exact h.acked

theorem Forwarded.deliver {cfg : HandlerConfig} {s : State} (h : Forwarded cfg s)
    (m : Message) :
    Forwarded cfg (perform m.channel (respond cfg s m) (accept cfg s m)) := by
  obtain ⟨hqueue, hack⟩ := respond_media cfg s m
  have hdelivered : (perform m.channel (respond cfg s m) (accept cfg s m)).delivered =
      s.delivered ++ [m] := delivered_accept cfg s m
  constructor
  · rw [queueCalls_perform, hqueue, log_accept, hdelivered, filterMap_snoc, h.queued]
  · rw [acks_perform, hack, log_accept, hdelivered, filterMap_snoc, h.acked]

theorem forwarded_step {cfg : HandlerConfig} {s t : State} {a : Action} (h : Forwarded cfg s)
    (hstep : step cfg s a = some t) : Forwarded cfg t := by
  rcases step_cases hstep with ⟨c, -, -, rfl⟩ | ⟨m, -, -, rfl⟩ | ⟨c, e, -, -, rfl⟩ |
    ⟨c, effects, sends, -, hplain, rfl⟩
  · unfold startChannel
    split
    · refine h.quiet ?_ ?_ _ (filter_quiet ?_)
      exacts [rfl, rfl, rfl]
    · refine h.quiet ?_ ?_ _ (filter_quiet ?_)
      exacts [rfl, rfl, rfl]
  · exact h.deliver m
  · refine h.quiet ?_ ?_ _ (filter_quiet ?_)
    exacts [rfl, rfl, rfl]
  · refine h.quiet ?_ ?_ _ (filter_quiet ?_)
    exacts [rfl, rfl, List.all_eq_true.mpr fun effect hmem => (hplain effect hmem).2]

/-- **Flow control of a session.**  In every state of every run: no channel has more than
one receive outstanding, a channel that has been started has exactly one until it has seen
an error or the session has been told to quit; and the calls of `queue_video` and
`queue_audio`, in order, are one for each media indication delivered, with its bytes, and
so are the acknowledgements, one for each on its channel. -/
theorem one_receive_outstanding (cfg : HandlerConfig) {s : State}
    (h : Transition.Reachable (step cfg) (· = initial) s) :
    (∀ c, s.outstanding c ≤ 1 ∧
      (s.stage c = .started → ¬ SeenError s c → ¬ ToldToQuit s → s.outstanding c = 1)) ∧
    queueCalls s.log = s.delivered.filterMap (Message.queueCall cfg) ∧
    acks s.log = s.delivered.filterMap fun m => (m.queueCall cfg).map Prod.fst := by
  have hinv : Rearmed s ∧ Forwarded cfg s :=
    h.invariant_from (I := fun s => Rearmed s ∧ Forwarded cfg s) ⟨rearmed_initial, rfl, rfl⟩
      fun _ _ _ hs hstep => ⟨rearmed_step hs.1 hstep, forwarded_step hs.2 hstep⟩
  exact ⟨fun c => ⟨hinv.1.outstanding_le c, hinv.1.ready c⟩, hinv.2.queued, hinv.2.acked⟩

/-- A video indication between start and stop: its bytes are queued, one acknowledgement
is sent, and the channel waits for the next message. -/
theorem video_indication_forwarded :
    ∃ s, Transition.run (step defaultConfig) initial
        [.start .control, .start .video, .deliver (.video (.startIndication 7)),
         .deliver (.video (.mediaIndication [0, 0, 1, 101]))] = some s ∧
      queueCalls s.log = [(.video, .queueVideo 0 [0, 0, 1, 101])] ∧ acks s.log = [.video] ∧
      s.outstanding .video = 1 := by
  obtain ⟨s, hrun, hdelivered, hstarted, herrors, hquit⟩ :
      ∃ s, Transition.run (step defaultConfig) initial
          [.start .control, .start .video, .deliver (.video (.startIndication 7)),
           .deliver (.video (.mediaIndication [0, 0, 1, 101]))] = some s ∧
        s.delivered = [.video (.startIndication 7), .video (.mediaIndication [0, 0, 1, 101])] ∧
        s.stage .video = .started ∧ s.errors = [] ∧ s.quitTriggered = false :=
    ⟨_, rfl, rfl, rfl, rfl, rfl⟩
  obtain ⟨hreceives, hqueued, hacked⟩ :=
    one_receive_outstanding defaultConfig ⟨initial, _, rfl, hrun⟩
  have hnoError : ¬ SeenError s .video := by simp [SeenError, herrors]
  have hgoesOn : ¬ ToldToQuit s := by simp [ToldToQuit, hquit, hdelivered]
  rw [hdelivered] at hqueued hacked
  exact ⟨s, hrun, hqueued, hacked, (hreceives .video).2 hstarted hnoError hgoesOn⟩

/-! ## What is announced before the handshake -/

/-- `doHandshake` has returned true. -/
def handshakeComplete : Channel × Effect := (.control, .handshakeReturned true)

/-- Whatever announces the session comes after a complete handshake. -/
def Secured (log : List (Channel × Effect)) : Prop :=
  ∀ i entry, log[i]? = some entry → entry.2.announces = true → handshakeComplete ∈ log.take i

/-- A service discovery request finds the handshake complete. -/
def AfterHandshake (s : State) (a : Action) : Prop :=
  ∀ name cryptor, a = .deliver (.control (.serviceDiscoveryRequest name) cryptor) →
    handshakeComplete ∈ s.log

/-- More effects leave a log secured if they announce nothing, or the handshake is
already complete. -/
theorem Secured.append {log more : List (Channel × Effect)} (h : Secured log)
    (hmore : handshakeComplete ∈ log ∨ ∀ entry ∈ more, entry.2.announces = false) :
    Secured (log ++ more) := by
  intro i entry hentry hannounces
  by_cases hi : i < log.length
  · rw [List.getElem?_append_left hi] at hentry
    rw [List.take_append_of_le_length hi.le]
    exact h i entry hentry hannounces
  · have hle := Nat.not_lt.mp hi
    rcases hmore with hdone | hquiet
    · rw [List.take_append, List.take_of_length_le hle]
      exact List.mem_append_left _ hdone
    · rw [List.getElem?_append_right hle] at hentry
      exact absurd (hannounces.symm.trans (hquiet entry (List.mem_of_getElem? hentry))) nofun

theorem secured_perform {s u : State} (h : Secured s.log) (hlog : u.log = s.log) (c : Channel)
    {effects : List Effect} (heffects : effects.all Effect.isQuiet = true) :
    Secured (perform c effects u).log := by
  show Secured (u.log ++ effects.map (c, ·))
  rw [hlog]
  refine h.append (Or.inr fun entry hentry => ?_)
  obtain ⟨effect, hmem, rfl⟩ := List.mem_map.mp hentry
  exact ((isQuiet_iff effect).mp (List.all_eq_true.mp heffects effect hmem)).2.2

theorem announces_video (session : Int32) (m : VideoMessage) :
    (VideoSink.handle session m).2.all (fun effect => !effect.announces) = true := by
  cases m <;> rfl

theorem announces_audio (sink : AudioSink) (session : Int32) (m : AudioMessage) :
    (sink.handle session m).2.all (fun effect => !effect.announces) = true := by
  cases m <;> rfl

/-- Only the answer to a service discovery request announces anything. -/
theorem respond_announces (cfg : HandlerConfig) (s : State) {m : Message}
    (hm : ∀ name cryptor, m ≠ .control (.serviceDiscoveryRequest name) cryptor) :
    (respond cfg s m).all (fun effect => !effect.announces) = true := by
  cases m with
  | control m cryptor =>
    have hquiet := quiet_control cfg cryptor fun name heq => hm name cryptor (heq ▸ rfl)
    refine List.all_eq_true.mpr fun effect hmem => ?_
    rw [((isQuiet_iff effect).mp (List.all_eq_true.mp hquiet effect hmem)).2.2]
    rfl
  | video m => exact announces_video _ m
  | mediaAudio m => exact announces_audio _ _ m
  | systemAudio m => exact announces_audio _ _ m
  | input m => cases m <;> rfl
  | sensor m => cases m <;> rfl

theorem secured_step {cfg : HandlerConfig} {s t : State} {a : Action} (h : Secured s.log)
    (hafter : AfterHandshake s a) (hstep : step cfg s a = some t) : Secured t.log := by
  rcases step_cases hstep with ⟨c, -, -, rfl⟩ | ⟨m, rfl, -, rfl⟩ | ⟨c, e, -, -, rfl⟩ |
    ⟨c, effects, sends, -, hplain, rfl⟩
  · unfold startChannel
    split
    · exact secured_perform h (by rfl) _ rfl
    · exact secured_perform h (by rfl) _ rfl
  · show Secured ((accept cfg s m).log ++ (respond cfg s m).map (m.channel, ·))
    rw [log_accept]
    refine h.append ?_
    by_cases hm : ∃ name cryptor, m = .control (.serviceDiscoveryRequest name) cryptor
    · obtain ⟨name, cryptor, rfl⟩ := hm
      exact Or.inl (hafter name cryptor rfl)
    · refine Or.inr fun entry hentry => ?_
      obtain ⟨effect, hmem, rfl⟩ := List.mem_map.mp hentry
      have hall := respond_announces cfg s (m := m) fun name cryptor heq => hm ⟨name, cryptor, heq⟩
      exact Bool.not_eq_true' _ |>.mp (List.all_eq_true.mp hall effect hmem)
  · exact secured_perform h (by rfl) _ rfl
  · exact secured_perform h (by rfl) c
      (List.all_eq_true.mpr fun effect hmem => (hplain effect hmem).2)

/-- A service discovery request before the handshake is complete is answered all the
same: `active` is announced with no complete handshake before it. -/
theorem not_secured_step {cfg : HandlerConfig} {s t : State} {a : Action}
    (hafter : ¬ AfterHandshake s a) (hstep : step cfg s a = some t) : ¬ Secured t.log := by
  intro hsecured
  refine hafter fun name cryptor ha => ?_
  subst ha
  obtain ⟨-, ht⟩ := Option.ite_none_right_eq_some.mp hstep
  have hlog : t.log = s.log ++ [(.control, .emitControl (.videoConfig cfg.videoWidth
      cfg.videoHeight cfg.videoFps))] ++ [(.control, .emitControl (.session .active)),
      (.control, .send (.serviceDiscoveryResponse (ControlHandler.serviceDiscovery cfg)) .nothing),
      (.control, .receive)] := by
    rw [← Option.some.inj ht, List.append_assoc]
    rfl
  have hactive := hsecured (s.log.length + 1) (.control, .emitControl (.session .active)) (by
    rw [hlog, List.getElem?_append_right (by simp)]
    simp) rfl
  rw [hlog, List.take_left' (by simp)] at hactive
  rcases List.mem_append.mp hactive with hmem | hmem
  · exact hmem
  · cases List.mem_singleton.mp hmem

/-- **When a session is announced only over a complete handshake.**  In every run, with the
phone's messages in any order, no `ServiceDiscoveryResponse` is sent and no `active` is
published before `doHandshake` has returned true if and only if no service discovery
request is delivered before it has. -/
theorem announced_after_handshake_iff (cfg : HandlerConfig) (actions : List Action) :
    Transition.Throughout (step cfg) (fun s => Secured s.log) initial actions ↔
      Transition.Meets (step cfg) AfterHandshake initial actions :=
  Transition.throughout_iff_meets (fun _ h => h) (fun _ _ _ h hafter => secured_step h hafter)
    (fun _ _ _ _ hafter => not_secured_step hafter) nofun

/-- The first message of the phone is a service discovery request: the session is
announced, and no handshake has begun. -/
theorem active_without_handshake :
    ∃ s, Transition.run (step defaultConfig) initial
        [.start .control, .deliver (.control (.serviceDiscoveryRequest [])
          { writeHandshakeBuffer := .ok (), doHandshake := .ok false
            readHandshakeBuffer := .ok [] })] = some s ∧
      ¬ Secured s.log :=
  ⟨_, rfl, fun h => absurd (h 3 _ rfl rfl) (by decide)⟩

end Whutfa.Handlers
