import Whutfa.InputLines

/-! # Messages of any text on /ws/input

The whole way of a `/ws/input` message to the touch callback, whatever text a page sends:
the handler of the server (`server/src/index.ts`), which parses it as JSON and passes an
action and a position on, `BridgeClient.sendTouch`, and the scanner of
`IpcBridge::bridge_read_loop` (`aa-handler/src/ipc_bridge.cpp`).

A text that is no JSON, or whose conversions throw, writes nothing.  Of the others each
writes one line, and no text of an action can end it or make the scanner find another
number in it.  So the callbacks are those of the messages whose action is a number, in
order; and what C++ leaves undefined is met exactly when such a number is no `int`
(`input_messages_called`).  A number is read here as the decimal that it is written as, and
a position is multiplied by the size exactly: this is about texts whose numbers are
doubles, which JavaScript does not round.
-/
namespace Whutfa

open JsString JsValue

section

variable (numberText : Decimal → JsString) (textNumber : JsString → Option ℚ) (print : ℚ → Decimal)

/-- A coordinate at the nearest pixel. -/
def nearestPixel (size : ℚ) (q : Option ℚ) : Option Decimal :=
  q.map fun q => print (mathRound (q * size) / size)

/-- The fields that the handler of `/ws/input` reads off a parsed message. -/
def inputFields (width height : ℚ) (msg : Json) : Except TypeError InputMessage := do
  let x ← toNumber numberText textNumber (← property msg (js "x"))
  let y ← toNumber numberText textNumber (← property msg (js "y"))
  let action ← property msg (js "action")
  pure { action, x := nearestPixel print width x, y := nearestPixel print height y }

/-- A message that is not ignored. -/
def readInput (width height : ℚ) (raw : JsString) : Option InputMessage :=
  (Json.parse raw).bind fun msg =>
    match inputFields numberText textNumber print width height msg with
    | .error _ => none
    | .ok m => some m

variable (width height : ℚ)

theorem touchPayload_eq (msg : Json) :
    touchPayload numberText textNumber print width height msg =
      (inputFields numberText textNumber print width height msg).map InputMessage.payload := by
  have hpixel : ∀ (size : ℚ) (q : Option ℚ),
      pixelFraction print size q = InputMessage.coordJson (nearestPixel print size q) := by
    intro size q
    cases q <;> rfl
  unfold touchPayload inputFields
  cases property msg (js "x") with
  | error e => rfl
  | ok vx =>
    cases hx : toNumber numberText textNumber vx with
    | error e => simp only [bind, Except.bind, hx]; rfl
    | ok x =>
      cases property msg (js "y") with
      | error e => simp only [bind, Except.bind, hx]; rfl
      | ok vy =>
        cases hy : toNumber numberText textNumber vy with
        | error e => simp only [bind, Except.bind, hx, hy]; rfl
        | ok y =>
          cases property msg (js "action") with
          | error e => simp only [bind, Except.bind, hx, hy]; rfl
          | ok action => simp only [bind, Except.bind, hx, hy, hpixel]; rfl

end

section

variable (numberText : Decimal → JsString) (textNumber : JsString → Option ℚ) (print : ℚ → Decimal)
variable (width height : ℚ)

/-- A message writes one line, or nothing. -/
theorem onInputMessage_eq (raw : JsString) :
    onInputMessage numberText textNumber print width height raw =
      (readInput numberText textNumber print width height raw).toList.flatMap
        fun m => m.line ++ [0x0A] := by
  unfold onInputMessage readInput
  cases Json.parse raw with
  | none => rfl
  | some msg =>
    simp only [touchPayload_eq, Option.bind_some]
    cases inputFields numberText textNumber print width height msg with
    | error e => rfl
    | ok m =>
      show sendTouch m.payload = _
      rw [InputMessage.sendTouch_payload]
      simp

/-- **The callback is called for the messages with a number for an action**, whatever the
texts are that come in at `/ws/input` and wherever their lines are cut: once for each, in
order, when the truncated number is not negative.  There is such a list of calls exactly
when each of the numbers is an `int`. -/
theorem input_messages_called (raws : List JsString) {chunks : List (List UInt8)}
    (hchunks : chunks.flatten =
      raws.flatMap (onInputMessage numberText textNumber print width height))
    (calls : List TouchCall) :
    touchCalls chunks = .ok calls ↔
      (∀ m ∈ raws.filterMap (readInput numberText textNumber print width height),
        m.Representable) ∧
      calls = (raws.filterMap (readInput numberText textNumber print width height)).filterMap
        InputMessage.call? := by
  let sent := raws.filterMap (readInput numberText textNumber print width height)
  have hlines : ∀ line ∈ sent.map InputMessage.line, 0x0A ∉ line := by
    intro line hline
    obtain ⟨m, -, rfl⟩ := List.mem_map.mp hline
    exact m.lf_not_mem_line
  have hbytes : chunks.flatten = (sent.map InputMessage.line).flatMap (· ++ [0x0A]) := by
    rw [hchunks, List.flatMap_map]
    show raws.flatMap _ = (raws.filterMap _).flatMap _
    rw [List.filterMap_eq_flatMap_toList, List.flatMap_assoc]
    exact congrArg (List.flatMap · raws) (funext fun raw =>
      onInputMessage_eq numberText textNumber print width height raw)
  have hcalls : touchCalls chunks = (do
      let calls ← (sent.map InputMessage.line).mapM readTouch
      pure calls.reduceOption) := by
    unfold touchCalls
    rw [Lines.feed_lines hlines hbytes]
  have hreduce : (sent.map InputMessage.call?).reduceOption =
      sent.filterMap InputMessage.call? := reduceOption_map _ sent
  rw [hcalls]
  constructor
  · intro h
    cases hread : (sent.map InputMessage.line).mapM readTouch with
    | error e =>
      rw [hread] at h
      cases h
    | ok read =>
      obtain ⟨hall, rfl⟩ := (InputMessage.mapM_readTouch_line sent read).mp hread
      rw [hread] at h
      exact ⟨hall, (Except.ok.inj h).symm.trans hreduce⟩
  · rintro ⟨hall, rfl⟩
    rw [(InputMessage.mapM_readTouch_line sent _).mpr ⟨hall, rfl⟩]
    exact congrArg Except.ok hreduce

end

/-- A text that is no JSON, and a move whose `x` is a word. -/
def oddMessages : List JsString :=
  [js "\x7b", Json.stringify (.obj [(js "action", .num (Decimal.ofNat 2)),
    (js "x", .str (js "left")), (js "y", .num half)])]

/-- The word becomes `null`, and `null` a position of zero. -/
theorem input_messages_called_odd :
    touchCalls [oddMessages.flatMap
        (onInputMessage Decimal.print (fun _ => none) (fun _ => half) 1280 720)] =
      .ok [{ x := .finite 0, y := .finite half.value, action := 2 }] := by
  have htwo : truncate (Decimal.ofNat 2).value = 2 := by
    rw [Decimal.value_ofNat]
    decide +kernel
  have hread : oddMessages.filterMap
      (readInput Decimal.print (fun _ => none) (fun _ => half) 1280 720) =
        [{ action := some (.num (Decimal.ofNat 2)), x := none, y := some half }] := by
    have hjunk : Json.parse (js "\x7b") = none := rfl
    unfold oddMessages readInput
    simp only [List.filterMap_cons, List.filterMap_nil, hjunk, Json.parse_stringify]
    rfl
  refine (input_messages_called Decimal.print (fun _ => none) (fun _ => half) 1280 720
    oddMessages List.flatten_singleton _).mpr ?_
  rw [hread]
  constructor
  · intro m hm d hd
    obtain rfl := List.mem_singleton.mp hm
    obtain rfl := Json.num.inj (Option.some.inj hd)
    rw [htwo]
    omega
  · simp only [List.filterMap_cons, List.filterMap_nil, InputMessage.call?, htwo]
    rfl

end Whutfa
