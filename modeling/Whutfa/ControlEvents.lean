import Whutfa.Json

/-! # Control events

The lines that the handler passes to `emit_control`: the state of the session, and
the geometry of the projection (`aa/Session.cpp`, `stub_handler.cpp`).  The C++
code writes them out by hand; each is the JSON text of the message that the server
reads from it (`parse_line`).
-/
namespace Whutfa

open JsString

/-- The session states the handler names. -/
inductive SessionState
  | connecting
  | active
  | idle
  deriving DecidableEq

/-- What the handler passes to `emit_control`. -/
inductive ControlEvent
  | session (state : SessionState)
  | videoConfig (width height fps : UInt32)
  deriving DecidableEq

/-- The state as it is written in the event. -/
def SessionState.text : SessionState → JsString
  | .connecting => js "connecting"
  | .active => js "active"
  | .idle => js "idle"

namespace ControlEvent

/-- The argument of `emit_control`, as the C++ string literals and `<<` make it. -/
def line : ControlEvent → JsString
  | session state => js "\x7b\"event\":\"session\",\"state\":\"" ++ state.text ++ js "\"\x7d"
  | videoConfig width height fps =>
      js "\x7b\"event\":\"video_config\",\"width\":" ++ Decimal.digits width.toNat ++
        js ",\"height\":" ++ Decimal.digits height.toNat ++
        js ",\"fps\":" ++ Decimal.digits fps.toNat ++ js "\x7d"

/-- The message on that line. -/
def message : ControlEvent → Json
  | session state => .obj [(js "event", .str (js "session")), (js "state", .str state.text)]
  | videoConfig width height fps =>
      .obj [(js "event", .str (js "video_config")),
        (js "width", .num (Decimal.ofNat width.toNat)),
        (js "height", .num (Decimal.ofNat height.toNat)),
        (js "fps", .num (Decimal.ofNat fps.toNat))]

/-- The session state it announces. -/
def session? : ControlEvent → Option SessionState
  | session state => some state
  | videoConfig .. => none

/-- The geometry it announces. -/
def videoConfig? : ControlEvent → Option (UInt32 × UInt32 × UInt32)
  | session _ => none
  | videoConfig width height fps => some (width, height, fps)

theorem print_ofNat (n : Nat) : (Decimal.ofNat n).print = Decimal.digits n := by
  simp [Decimal.print, Decimal.ofNat, Decimal.printFrac, Decimal.printExp]

theorem line_eq_stringify (e : ControlEvent) : e.line = Json.stringify e.message := by
  cases e with
  | session state => cases state <;> rfl
  | videoConfig width height fps =>
    have htext : Json.stringify (message (.videoConfig width height fps)) =
        js "\x7b\"event\":\"video_config\",\"width\":" ++ ((Decimal.ofNat width.toNat).print ++
          (js ",\"height\":" ++ ((Decimal.ofNat height.toNat).print ++
            (js ",\"fps\":" ++ ((Decimal.ofNat fps.toNat).print ++ js "\x7d"))))) := rfl
    rw [htext, print_ofNat, print_ofNat, print_ofNat]
    simp only [line, List.append_assoc]

/-- **The server reads back the message.** -/
theorem parse_line (e : ControlEvent) : Json.parse e.line = some e.message := by
  rw [line_eq_stringify, Json.parse_stringify]

end ControlEvent

/-- The state of the last session event. -/
def lastSession (events : List ControlEvent) : Option SessionState :=
  (events.filterMap ControlEvent.session?).getLast?

/-- The geometry of the last `video_config` event. -/
def lastVideoConfig (events : List ControlEvent) : Option (UInt32 × UInt32 × UInt32) :=
  (events.filterMap ControlEvent.videoConfig?).getLast?

theorem lastSession_snoc (events : List ControlEvent) (e : ControlEvent) :
    lastSession (events ++ [e]) = e.session?.or (lastSession events) := by
  unfold lastSession
  rw [List.filterMap_append]
  cases e <;> simp [ControlEvent.session?]

theorem lastVideoConfig_snoc (events : List ControlEvent) (e : ControlEvent) :
    lastVideoConfig (events ++ [e]) = e.videoConfig?.or (lastVideoConfig events) := by
  unfold lastVideoConfig
  rw [List.filterMap_append]
  cases e <;> simp [ControlEvent.videoConfig?]

end Whutfa
