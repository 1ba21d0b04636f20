import Mathlib.Data.List.Induction
import Whutfa.ControlEvents
import Whutfa.JsValue

/-! # The status the server reports

`applyControlEvent` (`server/src/status.ts`): the fold of control messages into
`HandlerStatus`.  A message is any JSON value, since the caller parses a line and
asserts its type without checking it; reading a property of `null`, or turning an
object with a `toString` of its own into a string, throws.

The names of the session states are chosen in C++ and compared in TypeScript.  The
handler ends a session with `idle`, for which the fold has no case (the case that
resets the phase is `stopped`), and no case resets `aoapOpen` and `sslOk`.  So the
status is consistent with the events except after an `idle` that follows an
earlier session's `connecting` or `active` (`status_consistent_iff`).
-/
namespace Whutfa

open JsString JsValue

/-- The values of `usb_phase`. -/
inductive UsbPhase
  | idle
  | aoaSwitch
  | sessionActive
  | aoaFailed
  | sslFailed
  deriving DecidableEq

/-- `HandlerStatus`. -/
structure HandlerStatus where
  usbPhase : UsbPhase
  aoapOpen : Bool
  sslOk : Bool
  sessionActive : Bool
  lastError : Option JsString
  droppedFrames : Decimal
  deriving DecidableEq

/-- `defaultStatus`. -/
def defaultStatus : HandlerStatus :=
  { usbPhase := .idle, aoapOpen := false, sslOk := false, sessionActive := false,
    lastError := none, droppedFrames := Decimal.ofNat 0 }

section

-- how a number is turned into a string
variable (numberText : Decimal → JsString)

/-- The branch `event === "session"`. -/
def applySession (status : HandlerStatus) (msg : Json) : Except TypeError HandlerStatus := do
  let state ← property msg (js "state")
  let next := { status with sessionActive := isText state (js "active") }
  let next := if isText state (js "connecting") then { next with usbPhase := .aoaSwitch } else next
  let next :=
    if isText state (js "active") then
      { next with aoapOpen := true, sslOk := true, usbPhase := .sessionActive }
    else next
  pure <|
    if isText state (js "stopped") then { next with sessionActive := false, usbPhase := .idle }
    else next

/-- The branch `event === "error"`. -/
def applyError (status : HandlerStatus) (msg : Json) : Except TypeError HandlerStatus := do
  let code ← property msg (js "code")
  let hint ← property msg (js "hint")
  let codeText ← templateText numberText code
  let hintText ← toText numberText (orEmpty hint)
  let next := { status with lastError := some (codeText ++ js ": " ++ hintText) }
  let code ← toText numberText (orEmpty code)
  let next := if (js "AOA").isPrefixOf code then { next with usbPhase := .aoaFailed } else next
  pure <|
    if (js "SSL").isPrefixOf code then { next with sslOk := false, usbPhase := .sslFailed }
    else next

/-- The branch `event === "stats"`. -/
def applyStats (status : HandlerStatus) (msg : Json) : Except TypeError HandlerStatus := do
  let dropped ← property msg (js "dropped_frames")
  match dropped with
  | some (.num d) => pure { status with droppedFrames := d }
  | _ => pure status

/-- `applyControlEvent`; it throws on what has no properties. -/
def applyControlEvent (status : HandlerStatus) (msg : Json) : Except TypeError HandlerStatus := do
  let event ← property msg (js "event")
  if isText event (js "session") then applySession status msg
  else if isText event (js "error") then applyError numberText status msg
  else if isText event (js "stats") then applyStats status msg
  else pure status

end

/-! ## The handler's events -/

/-- What an event of the handler does to the status. -/
def HandlerStatus.after (status : HandlerStatus) : ControlEvent → HandlerStatus
  | .session .connecting => { status with sessionActive := false, usbPhase := .aoaSwitch }
  | .session .active =>
      { status with
        sessionActive := true, aoapOpen := true, sslOk := true, usbPhase := .sessionActive }
  | .session .idle => { status with sessionActive := false }
  | .videoConfig .. => status

/-- **No event of the handler makes the fold throw**, and `idle` only clears
`sessionActive`. -/
theorem applyControlEvent_message (numberText : Decimal → JsString) (status : HandlerStatus)
    (e : ControlEvent) : applyControlEvent numberText status e.message = .ok (status.after e) := by
  cases e with
  | session state => cases state <;> rfl
  | videoConfig width height fps => rfl

/-- The status after a sequence of messages. -/
def applyAll (numberText : Decimal → JsString) (status : HandlerStatus) (msgs : List Json) :
    Except TypeError HandlerStatus :=
  msgs.foldlM (applyControlEvent numberText) status

/-- The status after a sequence of the handler's events. -/
def statusAfter (events : List ControlEvent) : HandlerStatus :=
  events.foldl HandlerStatus.after defaultStatus

theorem applyAll_messages (numberText : Decimal → JsString) (events : List ControlEvent) :
    applyAll numberText defaultStatus (events.map ControlEvent.message) =
      .ok (statusAfter events) := by
  unfold statusAfter
  generalize defaultStatus = status
  induction events generalizing status with
  | nil => rfl
  | cons e events ih =>
    rw [List.map_cons, List.foldl_cons, ← ih (status.after e)]
    unfold applyAll
    rw [List.foldlM_cons, applyControlEvent_message]
    rfl

/-- An event that a session's beginning emits. -/
def ControlEvent.Opens : ControlEvent → Prop
  | .session .connecting => True
  | .session .active => True
  | _ => False

/-- What the status keeps of the events so far. -/
structure Tracks (events : List ControlEvent) (status : HandlerStatus) : Prop where
  active_iff : status.sessionActive = true ↔ lastSession events = some .active
  connecting : lastSession events = some .connecting → status.usbPhase = .aoaSwitch
  active : lastSession events = some .active → status.usbPhase = .sessionActive
  /-- Before the first session nothing changes. -/
  fresh : (∀ e ∈ events, ¬ e.Opens) →
    status.usbPhase = .idle ∧ status.aoapOpen = false ∧ status.sslOk = false
  /-- After it the phase is never idle again. -/
  opened : ∀ e ∈ events, e.Opens → status.usbPhase ≠ .idle

theorem tracks_nil : Tracks [] defaultStatus where
  active_iff := by simp [defaultStatus, lastSession]
  connecting h := by simp [lastSession] at h
  active h := by simp [lastSession] at h
  fresh _ := ⟨rfl, rfl, rfl⟩
  opened e he := by simp at he

/-- **One event.** -/
theorem Tracks.snoc {events : List ControlEvent} {status : HandlerStatus}
    (h : Tracks events status) (e : ControlEvent) : Tracks (events ++ [e]) (status.after e) := by
  have hinit : (∀ e' ∈ events ++ [e], ¬ e'.Opens) → ∀ e' ∈ events, ¬ e'.Opens :=
    fun hall e' he' => hall e' (List.mem_append_left _ he')
  have hmem : ∀ e' ∈ events ++ [e], e' ∈ events ∨ e' = e := by
    intro e' he'
    simpa using he'
  rcases e with (_ | _ | _) | ⟨width, height, fps⟩
  · -- connecting
    constructor
    · simp [lastSession_snoc, ControlEvent.session?, HandlerStatus.after]
    · exact fun _ => rfl
    · simp [lastSession_snoc, ControlEvent.session?]
    · intro hall
      exact absurd trivial (hall (.session .connecting) (by simp))
    · intro _ _ _ hidle
      cases hidle
  · -- active
    constructor
    · simp [lastSession_snoc, ControlEvent.session?, HandlerStatus.after]
    · simp [lastSession_snoc, ControlEvent.session?]
    · exact fun _ => rfl
    · intro hall
      exact absurd trivial (hall (.session .active) (by simp))
    · intro _ _ _ hidle
      cases hidle
  · -- idle: the phase stays what it was
    constructor
    · simp [lastSession_snoc, ControlEvent.session?, HandlerStatus.after]
    · simp [lastSession_snoc, ControlEvent.session?]
    · simp [lastSession_snoc, ControlEvent.session?]
    · exact fun hall => h.fresh (hinit hall)
    · intro e' he' hopens
      rcases hmem e' he' with hold | rfl
      · exact h.opened e' hold hopens
      · exact hopens.elim
  · -- video_config
    have hlast : lastSession (events ++ [.videoConfig width height fps]) = lastSession events := by
      rw [lastSession_snoc]
      rfl
    constructor
    · rw [hlast]
      exact h.active_iff
    · rw [hlast]
      exact h.connecting
    · rw [hlast]
      exact h.active
    · exact fun hall => h.fresh (hinit hall)
    · intro e' he' hopens
      rcases hmem e' he' with hold | rfl
      · exact h.opened e' hold hopens
      · exact hopens.elim

theorem tracks_statusAfter (events : List ControlEvent) : Tracks events (statusAfter events) := by
  induction events using List.reverseRecOn with
  | nil => exact tracks_nil
  | append_singleton events e ih =>
    have hlast : statusAfter (events ++ [e]) = (statusAfter events).after e := by
      unfold statusAfter
      rw [List.foldl_append]
      rfl
    rw [hlast]
    exact ih.snoc e

/-- The status says what the events say: the phase and the flag agree, and after an
`idle` nothing of the session is left. -/
def Consistent (events : List ControlEvent) (status : HandlerStatus) : Prop :=
  (status.usbPhase = .sessionActive ↔ status.sessionActive = true) ∧
    (lastSession events = some .idle →
      status.usbPhase = .idle ∧ status.aoapOpen = false ∧ status.sslOk = false)

theorem not_opens_of_lastSession_none {events : List ControlEvent}
    (h : lastSession events = none) : ∀ e ∈ events, ¬ e.Opens := by
  intro e he hopens
  have hnil : events.filterMap ControlEvent.session? = [] := List.getLast?_eq_none_iff.mp h
  have hnone := List.filterMap_eq_nil_iff.mp hnil e he
  cases e with
  | session state => cases hnone
  | videoConfig width height fps => exact hopens

/-- **When a tracked status is consistent.** -/
theorem Tracks.consistent_iff {events : List ControlEvent} {status : HandlerStatus}
    (h : Tracks events status) :
    Consistent events status ↔ (lastSession events = some .idle → ∀ e ∈ events, ¬ e.Opens) := by
  constructor
  · intro hcons hidle e he hopens
    exact h.opened e he hopens (hcons.2 hidle).1
  · intro hopens
    refine ⟨?_, fun hidle => h.fresh (hopens hidle)⟩
    rw [h.active_iff]
    -- the phase, by the last session event
    cases hlast : lastSession events with
    | none =>
      have hphase := (h.fresh (not_opens_of_lastSession_none hlast)).1
      simp [hphase]
    | some state =>
      cases state with
      | connecting => simp [h.connecting hlast]
      | active => simp [h.active hlast]
      | idle => simp [(h.fresh (hopens hlast)).1]

/-- **When the status is consistent.**  For every sequence of events of the handler,
the fold ends in a consistent status if and only if the last session event is not
an `idle` that ends something: no session was begun before it. -/
theorem status_consistent_iff (numberText : Decimal → JsString) (events : List ControlEvent) :
    (∃ status, applyAll numberText defaultStatus (events.map ControlEvent.message) = .ok status ∧
      Consistent events status) ↔
      (lastSession events = some .idle → ∀ e ∈ events, ¬ e.Opens) := by
  rw [applyAll_messages, ← (tracks_statusAfter events).consistent_iff]
  constructor
  · rintro ⟨status, hstatus, hcons⟩
    rw [Except.ok.inj hstatus]
    exact hcons
  · intro hcons
    exact ⟨_, rfl, hcons⟩

/-- The events of one whole session. -/
def oneSession : List ControlEvent :=
  [.session .connecting, .videoConfig 1280 720 30, .session .active, .session .idle]

/-- After one whole session the phase stays `session_active` with the flag cleared,
and `aoapOpen` and `sslOk` stay set. -/
theorem status_after_one_session :
    ∃ status, applyAll Decimal.print defaultStatus (oneSession.map ControlEvent.message) =
        .ok status ∧
      status.usbPhase = .sessionActive ∧ status.sessionActive = false ∧
      status.aoapOpen = true ∧ status.sslOk = true ∧ ¬ Consistent oneSession status := by
  refine ⟨_, applyAll_messages _ _, rfl, rfl, rfl, rfl, fun hcons => ?_⟩
  exact absurd (hcons.2 rfl).1 (by decide)

end Whutfa
