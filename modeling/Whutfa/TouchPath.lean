import Mathlib.Data.Rat.Floor
import Whutfa.CText
import Whutfa.Lines
import Whutfa.Status

/-! # Touches, from the browser to the phone

The four pieces a pointer event goes through: `connectInput` of the browser
(`frontend/app.js`), the `/ws/input` handler of the server (`server/src/index.ts`)
with `BridgeClient.sendTouch`, the scanner of `IpcBridge::bridge_read_loop`, and
the switch of `InputSource::dispatchTouch`.  Positions are the decimal literals the
browser prints; the server's arithmetic is exact, and the literal it prints for a
number is a parameter.

The browser names an action, the server passes the name on, and the scanner reads
a number where the name is (its comment says `"action":N`): `strtod` converts
nothing, the action stays `-1` and the callback is not called.  So the callback is
right only when there is no event at all (`touches_delivered_iff`).
-/
namespace Whutfa

open JsString JsValue

/-! ## The browser -/

/-- The pointer events `connectInput` listens to. -/
inductive PointerKind
  | down
  | move
  | up
  deriving DecidableEq

/-- A pointer event: its kind, and the position relative to the canvas. -/
structure PointerEvent where
  kind : PointerKind
  x : Decimal
  y : Decimal

/-- The action as the page writes it. -/
def PointerKind.text : PointerKind → JsString
  | .down => js "down"
  | .move => js "move"
  | .up => js "up"

/-- What `send` of `connectInput` sends. -/
def PointerEvent.message (e : PointerEvent) : JsString :=
  Json.stringify (.obj [(js "type", .str (js "touch")), (js "action", .str e.kind.text),
    (js "x", .num e.x), (js "y", .num e.y)])

/-! ## The server -/

/-- `Math.round`. -/
def mathRound (q : ℚ) : Int := ⌊q + 1 / 2⌋

section

-- how a number becomes a string, a string a number, and a result a literal
variable (numberText : Decimal → JsString) (textNumber : JsString → Option ℚ) (print : ℚ → Decimal)

/-- The nearest pixel fraction, as a JSON value. -/
def pixelFraction (size : ℚ) : Option ℚ → Json
  | none => .null
  | some q => .num (print (mathRound (q * size) / size))

/-- The argument of `sendTouch`; `JSON.stringify` leaves out an undefined action. -/
def touchPayload (width height : ℚ) (msg : Json) : Except TypeError Json := do
  let x ← toNumber numberText textNumber (← property msg (js "x"))
  let y ← toNumber numberText textNumber (← property msg (js "y"))
  let action ← property msg (js "action")
  pure (.obj ((js "type", .str (js "touch")) ::
    (action.toList.map fun v => (js "action", v)) ++
    [(js "x", pixelFraction print width x), (js "y", pixelFraction print height y)]))

/-- `sendTouch`: the bytes written. -/
def sendTouch (payload : Json) : List UInt8 := utf8 (Json.stringify payload ++ [unit '\n'])

/-- The handler of a `/ws/input` message: what it writes to the bridge.  Errors are
caught and ignored. -/
def onInputMessage (width height : ℚ) (raw : JsString) : List UInt8 :=
  match Json.parse raw with
  | none => []
  | some msg =>
      match touchPayload numberText textNumber print width height msg with
      | .error _ => []
      | .ok payload => sendTouch payload

end

/-! ## The handler -/

/-- The arguments of the touch callback. -/
structure TouchCall where
  x : CText.Double
  y : CText.Double
  action : Int

/-- A step whose behaviour C++ does not define. -/
inductive UndefinedBehaviour
  | undefinedBehaviour

/-- `find_num`: the number after the first colon after the key. -/
def findNum (line : List UInt8) (key : List UInt8) : Option CText.Double :=
  (CText.find key line).bind fun t =>
    (CText.find (CText.bytes ":") t).bind fun t =>
      CText.strtod ((t.drop 1).dropWhile fun c => c = 0x20 || c = 0x09)

/-- One line of `bridge_read_loop`: the call of the callback, if any. -/
def readTouch (line : List UInt8) : Except UndefinedBehaviour (Option TouchCall) := do
  let action ←
    match findNum line (CText.bytes "\"action\"") with
    | none => pure (-1)
    | some a =>
        match CText.toInt a with
        | none => throw .undefinedBehaviour
        | some n => pure n
  let x := (findNum line (CText.bytes "\"x\"")).getD (.finite 0)
  let y := (findNum line (CText.bytes "\"y\"")).getD (.finite 0)
  pure (if 0 ≤ action then some { x, y, action } else none)

/-- The calls of the callback for one connection, read in chunks. -/
def touchCalls (chunks : List (List UInt8)) : Except UndefinedBehaviour (List TouchCall) := do
  let calls ← ((lineDeframer 0x0A).feed [] chunks).1.mapM readTouch
  pure calls.reduceOption

/-- The actions of an input report. -/
inductive PointerAction
  | ACTION_DOWN
  | ACTION_UP
  | ACTION_MOVED
  deriving DecidableEq

/-- The switch of `dispatchTouch`. -/
def dispatchAction (action : Int) : PointerAction :=
  if action = 0 then .ACTION_DOWN else if action = 1 then .ACTION_UP else .ACTION_MOVED

/-! ## End to end -/

/-- The action the event means. -/
def PointerKind.action : PointerKind → PointerAction
  | .down => .ACTION_DOWN
  | .move => .ACTION_MOVED
  | .up => .ACTION_UP

/-- The callback was called once for each event, in order, with a code for the same
action and the position at the nearest pixel. -/
def Delivered (width height : ℚ) (events : List PointerEvent) (calls : List TouchCall) : Prop :=
  List.Forall₂ (fun e c => dispatchAction c.action = e.kind.action ∧
    c.x = .finite (mathRound (e.x.value * width) / width) ∧
    c.y = .finite (mathRound (e.y.value * height) / height)) events calls

/-- The text that the server writes for an event, without the line feed. -/
def touchText (kind : PointerKind) (x y : Decimal) : JsString :=
  Json.stringify (.obj [(js "type", .str (js "touch")), (js "action", .str kind.text),
    (js "x", .num x), (js "y", .num y)])

section

variable (numberText : Decimal → JsString) (textNumber : JsString → Option ℚ) (print : ℚ → Decimal)
variable (width height : ℚ)

/-- The server passes the name of the action on. -/
theorem onInputMessage_message (e : PointerEvent) :
    onInputMessage numberText textNumber print width height e.message =
      utf8 (touchText e.kind (print (mathRound (e.x.value * width) / width))
        (print (mathRound (e.y.value * height) / height)) ++ [unit '\n']) := by
  unfold onInputMessage PointerEvent.message
  rw [Json.parse_stringify]
  rfl

theorem isPlain_touchText (kind : PointerKind) (x y : Decimal) :
    ∀ c ∈ touchText kind x y, isPlain c := by
  let head := js "\x7b\"type\":\"touch\",\"action\":" ++ Json.quote kind.text ++ js ",\"x\":"
  have htext : touchText kind x y =
      head ++ (x.print ++ (js ",\"y\":" ++ (y.print ++ js "\x7d"))) := by
    cases kind <;> rfl
  have hhead : ∀ c ∈ head, isPlain c := by
    cases kind <;> exact List.all_eq_true.mp rfl
  have hy : ∀ c ∈ js ",\"y\":", isPlain c := List.all_eq_true.mp rfl
  have hend : ∀ c ∈ js "\x7d", isPlain c := List.all_eq_true.mp rfl
  intro c hc
  rw [htext] at hc
  simp only [List.mem_append] at hc
  rcases hc with hc | hc | hc | hc | hc
  · exact hhead c hc
  · exact Decimal.isPlain_of_mem_print hc
  · exact hy c hc
  · exact Decimal.isPlain_of_mem_print hc
  · exact hend c hc

/-- The scanner finds no number in a name. -/
theorem readTouch_touchText (kind : PointerKind) (x y : Decimal) :
    readTouch ((touchText kind x y).map byte) = .ok none := by
  cases kind <;> rfl

/-- The line of an event, as the scanner sees it. -/
def touchLine (e : PointerEvent) : List UInt8 :=
  (touchText e.kind (print (mathRound (e.x.value * width) / width))
    (print (mathRound (e.y.value * height) / height))).map byte

theorem onInputMessage_eq_line (e : PointerEvent) :
    onInputMessage numberText textNumber print width height e.message =
      touchLine print width height e ++ [0x0A] := by
  rw [onInputMessage_message, utf8_line _ (isPlain_touchText _ _ _), touchLine]

theorem lf_not_mem_touchLine (e : PointerEvent) : 0x0A ∉ touchLine print width height e :=
  lf_not_mem_bytes (isPlain_touchText _ _ _)

theorem readTouch_touchLine (e : PointerEvent) :
    readTouch (touchLine print width height e) = .ok none := readTouch_touchText _ _ _

theorem mapM_readTouch (events : List PointerEvent) :
    (events.map (touchLine print width height)).mapM readTouch =
      .ok (events.map fun _ => none) := by
  induction events with
  | nil => rfl
  | cons e events ih =>
    rw [List.map_cons, List.mapM_cons, ih, readTouch_touchLine]
    rfl

/-- No event reaches the callback. -/
theorem touchCalls_messages (events : List PointerEvent) {chunks : List (List UInt8)}
    (hchunks : chunks.flatten = events.flatMap fun e =>
      onInputMessage numberText textNumber print width height e.message) :
    touchCalls chunks = .ok [] := by
  have hlines : ∀ line ∈ events.map (touchLine print width height), 0x0A ∉ line := by
    intro line hline
    obtain ⟨e, -, rfl⟩ := List.mem_map.mp hline
    exact lf_not_mem_touchLine print width height e
  have hbytes : chunks.flatten =
      (events.map (touchLine print width height)).flatMap (· ++ [0x0A]) := by
    rw [hchunks, List.flatMap_map]
    simp only [onInputMessage_eq_line]
  have hnone : (events.map fun _ => (none : Option TouchCall)).reduceOption = [] := by
    show (events.map fun _ => (none : Option TouchCall)).filterMap id = []
    simp
  unfold touchCalls
  rw [Lines.feed_lines hlines hbytes]
  show (do let calls ← (events.map (touchLine print width height)).mapM readTouch
           pure calls.reduceOption) = _
  rw [mapM_readTouch]
  show Except.ok (List.reduceOption _) = _
  rw [hnone]

/-- **When touches are delivered.**  For every list of pointer events, every size of
the video and every cut of the bytes into reads, the callback is called once for
each event with its action and position if and only if there is no event. -/
theorem touches_delivered_iff (events : List PointerEvent) {chunks : List (List UInt8)}
    (hchunks : chunks.flatten = events.flatMap fun e =>
      onInputMessage numberText textNumber print width height e.message) :
    (∃ calls, touchCalls chunks = .ok calls ∧ Delivered width height events calls) ↔
      events = [] := by
  rw [touchCalls_messages numberText textNumber print width height events hchunks]
  constructor
  · rintro ⟨calls, hcalls, hdel⟩
    obtain rfl := Except.ok.inj hcalls
    exact List.forall₂_nil_right_iff.mp hdel
  · rintro rfl
    exact ⟨[], rfl, List.Forall₂.nil⟩

end

/-- `0.5`, as it is printed. -/
def half : Decimal := { neg := false, int := 0, frac := [⟨5, by decide⟩], exp := none }

/-- A press in the middle of the canvas. -/
def centerPress : PointerEvent := { kind := .down, x := half, y := half }

/-- What the server writes for it; `640 / 1280` and `360 / 720` are printed as `0.5`. -/
def centerPressBytes : List UInt8 :=
  onInputMessage Decimal.print (fun _ => none) (fun _ => half) 1280 720 centerPress.message

theorem touches_delivered_iff_center :
    (∃ calls, touchCalls [centerPressBytes] = .ok calls ∧
      Delivered 1280 720 [centerPress] calls) ↔ [centerPress] = [] :=
  touches_delivered_iff Decimal.print (fun _ => none) (fun _ => half) 1280 720 [centerPress]
    (by rw [List.flatten_singleton, List.flatMap_singleton]; rfl)

/-- One press, and the callback is not called. -/
theorem center_press_lost :
    touchCalls [centerPressBytes] = .ok [] ∧ ¬ Delivered 1280 720 [centerPress] [] := by
  constructor
  · refine touchCalls_messages Decimal.print (fun _ => none) (fun _ => half) 1280 720
      [centerPress] ?_
    rw [List.flatten_singleton, List.flatMap_singleton]
    rfl
  · intro h
    cases h

end Whutfa
