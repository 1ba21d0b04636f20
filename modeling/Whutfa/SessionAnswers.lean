import Whutfa.SessionChannels

/-! # What the phone is answered

The requests of the phone on the six channels of a session (`aa-handler/src/aa/Session.cpp`)
and the answers of their handlers, over whole runs in the model of `SessionChannels`.  Some
messages have an answer (a channel or a sink is opened, media are acknowledged, a focus is
given), others have none; what is sent besides the answers are the handshake, the pings, the
touches, and what follows an answer that has been sent.

The answers are those of the messages, one for each, in the order in which the messages came
(`answers_in_order`).  An acknowledgement names the session that was started last on its
channel; when the phone stops one, the audio sinks forget it and the video sink does not.
-/
namespace Whutfa.Handlers

open Lifecycle (ErrorCode)

/-! ## Requests and answers -/

/-- Whether a message answers one of the phone. -/
def Outgoing.isAnswer : Outgoing → Bool
  | channelOpenResponse _ | channelSetupResponse .. | mediaAckIndication .. => true
  | keyBindingResponse _ | sensorStartResponse _ => true
  | serviceDiscoveryResponse _ | audioFocusResponse _ | navigationFocusResponse => true
  | shutdownResponse => true
  | videoFocusIndication _ | inputReport _ | drivingStatusUnrestricted | nightMode _ => false
  | versionRequest | handshake _ | authComplete _ | pingRequest => false

/-- The answer that an effect sends. -/
def Effect.answer? : Effect → Option Outgoing
  | send message _ => if message.isAnswer then some message else none
  | _ => none

/-- The answers that have been sent, each with its channel. -/
def answered (log : List (Channel × Effect)) : List (Channel × Outgoing) :=
  log.filterMap fun entry => entry.2.answer?.map (entry.1, ·)

/-- What a message is to be answered, when `session` is that of its channel. -/
def Message.answer (cfg : HandlerConfig) (session : Int32) : Message → Option Outgoing
  | video .channelOpenRequest | mediaAudio .channelOpenRequest | systemAudio .channelOpenRequest
  | input .channelOpenRequest | sensor .channelOpenRequest => some (.channelOpenResponse .success)
  | video .setupRequest | mediaAudio .setupRequest | systemAudio .setupRequest =>
      some (.channelSetupResponse 1 [0])
  | video (.mediaWithTimestampIndication ..) | video (.mediaIndication _)
  | mediaAudio (.mediaWithTimestampIndication ..) | mediaAudio (.mediaIndication _)
  | systemAudio (.mediaWithTimestampIndication ..) | systemAudio (.mediaIndication _) =>
      some (.mediaAckIndication session 1)
  | input (.keyBindingRequest _) => some (.keyBindingResponse .success)
  | sensor (.startRequest _) => some (.sensorStartResponse .success)
  | control (.serviceDiscoveryRequest _) _ =>
      some (.serviceDiscoveryResponse (ControlHandler.serviceDiscovery cfg))
  | control (.audioFocusRequest type) _ =>
      some (.audioFocusResponse (if type = .release then .loss else .gain))
  | control .navigationFocusRequest _ => some .navigationFocusResponse
  | control (.byeByeRequest _) _ => some .shutdownResponse
  | _ => none

/-- The session of a channel after a message on it. -/
def Message.session (session : Int32) : Message → Int32
  | video (.startIndication id) | mediaAudio (.startIndication id)
  | systemAudio (.startIndication id) => id
  | mediaAudio .stopIndication | systemAudio .stopIndication => -1
  | _ => session

/-- The session of a channel after some messages. -/
def sessionOf (c : Channel) (ms : List Message) : Int32 :=
  (ms.filter (·.channel = c)).foldl Message.session (-1)

/-- The answers to messages that come behind others. -/
def answers (cfg : HandlerConfig) (before : List Message) :
    List Message → List (Channel × Outgoing)
  | [] => []
  | m :: ms =>
      ((m.answer cfg (sessionOf m.channel before)).map (m.channel, ·)).toList ++
        answers cfg (before ++ [m]) ms

theorem answers_concat (cfg : HandlerConfig) (before ms : List Message) (m : Message) :
    answers cfg before (ms ++ [m]) = answers cfg before ms ++
      ((m.answer cfg (sessionOf m.channel (before ++ ms))).map (m.channel, ·)).toList := by
  induction ms generalizing before with
  | nil => rw [List.nil_append, answers, answers, answers, List.append_nil, List.append_nil]; rfl
  | cons n ms ih =>
    rw [List.cons_append, answers, ih, answers, List.append_assoc, List.append_assoc]
    rfl

theorem sessionOf_concat (c : Channel) (ms : List Message) (m : Message) :
    sessionOf c (ms ++ [m]) =
      if m.channel = c then m.session (sessionOf c ms) else sessionOf c ms := by
  unfold sessionOf
  rw [List.filter_append]
  split
  · rename_i hc
    rw [List.filter_cons_of_pos (by simpa using hc), List.filter_nil, List.foldl_append]
    rfl
  · rename_i hc
    rw [List.filter_cons_of_neg (by simpa using hc), List.filter_nil, List.append_nil]

/-! ## What the handlers answer -/

/-- `session_` of a channel's sink. -/
def State.session (s : State) : Channel → Int32
  | .video => s.videoSession
  | .mediaAudio => s.mediaAudioSession
  | .systemAudio => s.systemAudioSession
  | .control | .input | .sensor => -1

theorem answered_append (log more : List (Channel × Effect)) :
    answered (log ++ more) = answered log ++ answered more := List.filterMap_append ..

theorem answered_perform (c : Channel) (effects : List Effect) (s : State) :
    answered (perform c effects s).log =
      answered s.log ++ (effects.filterMap Effect.answer?).map (c, ·) := by
  show answered (s.log ++ effects.map (c, ·)) = _
  rw [answered_append, answered, answered, List.filterMap_map, List.map_filterMap]
  rfl

theorem answer_sendHandshake (cryptor : Cryptor) :
    (ControlHandler.sendHandshake cryptor).filterMap Effect.answer? = [] := by
  unfold ControlHandler.sendHandshake
  split
  · rfl
  · rfl

/-- **A handler answers its message**, with the session of its sink. -/
theorem answer_respond (cfg : HandlerConfig) (s : State) (m : Message) :
    (respond cfg s m).filterMap Effect.answer? = (m.answer cfg (s.session m.channel)).toList := by
  cases m with
  | control m cryptor =>
    cases m with
    | versionResponse major minor status =>
      show (ControlHandler.onVersionResponse cryptor status).filterMap _ = []
      unfold ControlHandler.onVersionResponse
      split
      · rfl
      · split
        · rfl
        · exact answer_sendHandshake cryptor
    | handshake payload =>
      show (ControlHandler.onHandshake cryptor).filterMap _ = []
      unfold ControlHandler.onHandshake
      split
      · rfl
      · split
        · rfl
        · exact answer_sendHandshake cryptor
        · rfl
    | serviceDiscoveryRequest _ | audioFocusRequest _ | byeByeRequest _ | byeByeResponse
    | navigationFocusRequest | voiceSessionRequest | batteryStatusNotification | pingRequest
    | pingResponse => rfl
  | video m => cases m <;> rfl
  | mediaAudio m => cases m <;> rfl
  | systemAudio m => cases m <;> rfl
  | input m => cases m <;> rfl
  | sensor m => cases m <;> rfl

/-- A message sets the session of its own channel. -/
theorem session_accept (cfg : HandlerConfig) (s : State) (m : Message) (c : Channel) :
    (accept cfg s m).session c =
      if m.channel = c then m.session (s.session c) else s.session c := by
  cases m with
  | control m cryptor => cases c <;> rfl
  | video m => cases c <;> cases m <;> rfl
  | mediaAudio m => cases c <;> cases m <;> rfl
  | systemAudio m => cases c <;> cases m <;> rfl
  | input m => cases c <;> cases m <;> rfl
  | sensor m => cases c <;> cases m <;> rfl

/-- What follows an answer is none. -/
theorem answer_continue (then_ : Continuation) :
    (continue_ then_).filterMap Effect.answer? = [] := by
  cases then_ <;> rfl

/-! ## Every run -/

/-- The sessions and the answers are those of the messages delivered. -/
structure Answering (cfg : HandlerConfig) (s : State) : Prop where
  session : ∀ c, s.session c = sessionOf c s.delivered
  answered : answered s.log = answers cfg [] s.delivered

theorem Answering.quiet {cfg : HandlerConfig} {s u : State} (h : Answering cfg s)
    (hsession : u.session = s.session) (hlog : u.log = s.log)
    (hdelivered : u.delivered = s.delivered) (c : Channel) {effects : List Effect}
    (heffects : effects.filterMap Effect.answer? = []) : Answering cfg (perform c effects u) where
  session d := by
    show u.session d = sessionOf d u.delivered
    rw [hsession, hdelivered]
    exact h.session d
  answered := by
    rw [answered_perform, heffects, hlog, List.map_nil, List.append_nil]
    show _ = answers cfg [] u.delivered
    rw [hdelivered]
    exact h.answered

theorem Answering.deliver {cfg : HandlerConfig} {s : State} (h : Answering cfg s) (m : Message) :
    Answering cfg (perform m.channel (respond cfg s m) (accept cfg s m)) := by
  have hdelivered : (perform m.channel (respond cfg s m) (accept cfg s m)).delivered =
      s.delivered ++ [m] := delivered_accept cfg s m
  constructor
  · intro c
    show (accept cfg s m).session c = _
    rw [hdelivered, sessionOf_concat, session_accept, h.session c]
  · rw [hdelivered, answers_concat, answered_perform, answer_respond, log_accept, h.answered,
      h.session, List.nil_append]
    cases m.answer cfg (sessionOf m.channel s.delivered) <;> rfl

theorem answering_step {cfg : HandlerConfig} {s t : State} {a : Action} (h : Answering cfg s)
    (hstep : step cfg s a = some t) : Answering cfg t := by
  cases a with
  | start c =>
    obtain ⟨-, ht⟩ := Option.ite_none_right_eq_some.mp hstep
    obtain rfl := Option.some.inj ht
    unfold startChannel
    split
    · refine h.quiet ?_ ?_ ?_ _ ?_ <;> rfl
    · refine h.quiet ?_ ?_ ?_ _ ?_ <;> rfl
  | deliver m =>
    obtain ⟨-, ht⟩ := Option.ite_none_right_eq_some.mp hstep
    obtain rfl := Option.some.inj ht
    exact h.deliver m
  | receiveFails c e =>
    obtain ⟨-, ht⟩ := Option.ite_none_right_eq_some.mp hstep
    obtain rfl := Option.some.inj ht
    refine h.quiet ?_ ?_ ?_ _ ?_ <;> rfl
  | sent i failed =>
    simp only [step] at hstep
    split at hstep
    · cases hstep
    · rename_i c then_ _
      obtain rfl := Option.some.inj hstep
      refine h.quiet ?_ ?_ ?_ _ ?_
      · rfl
      · rfl
      · rfl
      · cases failed with
        | none => exact answer_continue then_
        | some e => rfl
  | touch report =>
    obtain rfl := Option.some.inj hstep
    refine h.quiet ?_ ?_ ?_ _ ?_ <;> rfl
  | pingResolved =>
    obtain rfl := Option.some.inj hstep
    refine h.quiet ?_ ?_ ?_ _ ?_ <;> rfl
  | pingRejected e =>
    obtain rfl := Option.some.inj hstep
    refine h.quiet ?_ ?_ ?_ _ ?_
    · rfl
    · rfl
    · rfl
    · split
      · rfl
      · rfl

/-- **The phone is answered in order.**  In every state of every run, the answers sent are
those to the messages delivered, one for each message that has one, on its channel and in
the order of the messages; each acknowledgement is for the session that was started last
there. -/
theorem answers_in_order (cfg : HandlerConfig) {s : State}
    (h : Transition.Reachable (step cfg) (· = initial) s) :
    answered s.log = answers cfg [] s.delivered := by
  have hinitial : Answering cfg initial := ⟨fun c => by cases c <;> rfl, rfl⟩
  exact (h.invariant_from hinitial fun _ _ _ hs hstep => answering_step hs hstep).answered

/-- A frame that comes behind the stop of its session: the video sink acknowledges it for
the session, the audio sink for none. -/
theorem answers_in_order_stopped :
    ∃ s, Transition.run (step defaultConfig) initial
        [.start .control, .start .video, .start .mediaAudio,
         .deliver (.video (.startIndication 7)), .deliver (.video .stopIndication),
         .deliver (.video (.mediaIndication [])), .deliver (.mediaAudio (.startIndication 7)),
         .deliver (.mediaAudio .stopIndication), .deliver (.mediaAudio (.mediaIndication []))] =
          some s ∧
      answered s.log =
        [(.video, .mediaAckIndication 7 1), (.mediaAudio, .mediaAckIndication (-1) 1)] := by
  obtain ⟨s, hrun, hdelivered⟩ :
      ∃ s, Transition.run (step defaultConfig) initial
        [.start .control, .start .video, .start .mediaAudio,
         .deliver (.video (.startIndication 7)), .deliver (.video .stopIndication),
         .deliver (.video (.mediaIndication [])), .deliver (.mediaAudio (.startIndication 7)),
         .deliver (.mediaAudio .stopIndication), .deliver (.mediaAudio (.mediaIndication []))] =
          some s ∧
        s.delivered = [.video (.startIndication 7), .video .stopIndication,
          .video (.mediaIndication []), .mediaAudio (.startIndication 7),
          .mediaAudio .stopIndication, .mediaAudio (.mediaIndication [])] := ⟨_, rfl, rfl⟩
  have hanswered := answers_in_order defaultConfig ⟨initial, _, rfl, hrun⟩
  rw [hdelivered] at hanswered
  exact ⟨s, hrun, hanswered⟩

end Whutfa.Handlers
