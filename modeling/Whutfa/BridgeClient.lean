import Whutfa.Lines
import Whutfa.Status

/-! # The server's end of the bridge

The `data` handler of `BridgeClient.start` (`server/src/bridge-client.ts`), with the
two callbacks that `main` gives it (`server/src/index.ts`).  The socket decodes the
bytes it receives as UTF-8; the handler's lines are ASCII, for which each byte is
one unit.

`lineBuf` belongs to the client and not to a connection: what an earlier connection
left in it is the beginning of the next one's first line.
-/
namespace Whutfa

open JsString JsValue

/-- What `onVideoConfig` is called with; `none` is a number that is not finite. -/
structure VideoConfig where
  width : Option ℚ
  height : Option ℚ
  fps : Option ℚ
  deriving DecidableEq

/-- The initial value of `videoConfig` in `main`. -/
def defaultVideoConfig : VideoConfig := { width := some 1280, height := some 720, fps := some 30 }

/-- The members of `BridgeClient` that the `data` handler sets. -/
structure BridgeClient where
  status : HandlerStatus
  lineBuf : JsString
  videoConfig : VideoConfig

namespace BridgeClient

/-- The members' initial values. -/
def initial : BridgeClient :=
  { status := defaultStatus, lineBuf := [], videoConfig := defaultVideoConfig }

section

variable (numberText : Decimal → JsString) (textNumber : JsString → Option ℚ)

/-- What `onVideoConfig` is called with for a message. -/
def videoConfigOf (msg : Json) : Except TypeError VideoConfig := do
  let width ← toNumber numberText textNumber (← property msg (js "width"))
  let height ← toNumber numberText textNumber (← property msg (js "height"))
  let fps ← toNumber numberText textNumber (← property msg (js "fps"))
  pure { width, height, fps }

/-- The body of the loop, for one line; what is thrown is caught and ignored. -/
def onLine (c : BridgeClient) (line : JsString) : BridgeClient :=
  let line := trim line
  if line = [] then c
  else
    match Json.parse line with
    | none => c
    | some msg =>
        match applyControlEvent numberText c.status msg with
        | .error _ => c
        | .ok status =>
            let c := { c with status }
            match property msg (js "event") with
            | .error _ => c
            | .ok event =>
                if isText event (js "video_config") then
                  match videoConfigOf numberText textNumber msg with
                  | .error _ => c
                  | .ok videoConfig => { c with videoConfig }
                else c

/-- `socket.on("data", …)`. -/
def onData (c : BridgeClient) (chunk : JsString) : BridgeClient :=
  let (lines, rest) := (lineDeframer (unit '\n')).push c.lineBuf chunk
  { lines.foldl (onLine numberText textNumber) c with lineBuf := rest }

end

end BridgeClient

/-! ## The handler's events -/

namespace ControlEvent

theorem isPlain_line (e : ControlEvent) : ∀ c ∈ e.line, isPlain c := by
  cases e with
  | session state => cases state <;> exact List.all_eq_true.mp rfl
  | videoConfig width height fps =>
    have hdigits : ∀ n : Nat, ∀ c ∈ Decimal.digits n, isPlain c := fun n c hc =>
      Decimal.isPlain_of_isDigit (Decimal.isDigit_of_mem_digits hc)
    have hhead : ∀ c ∈ js "\x7b\"event\":\"video_config\",\"width\":", isPlain c :=
      List.all_eq_true.mp rfl
    have hheight : ∀ c ∈ js ",\"height\":", isPlain c := List.all_eq_true.mp rfl
    have hfps : ∀ c ∈ js ",\"fps\":", isPlain c := List.all_eq_true.mp rfl
    have hend : ∀ c ∈ js "\x7d", isPlain c := List.all_eq_true.mp rfl
    intro c hc
    simp only [line, List.mem_append] at hc
    rcases hc with (((((hc | hc) | hc) | hc) | hc) | hc) | hc
    · exact hhead c hc
    · exact hdigits _ c hc
    · exact hheight c hc
    · exact hdigits _ c hc
    · exact hfps c hc
    · exact hdigits _ c hc
    · exact hend c hc

/-- A line begins with a brace. -/
theorem head_line (e : ControlEvent) : e.line.head? = some (unit '\x7b') := by
  cases e with
  | session state => cases state <;> rfl
  | videoConfig width height fps => rfl

/-- A line ends with a brace. -/
theorem getLast_line (e : ControlEvent) : e.line.getLast? = some (unit '\x7d') := by
  cases e with
  | session state => cases state <;> rfl
  | videoConfig width height fps => exact List.getLast?_concat

theorem trim_line (e : ControlEvent) : trim e.line = e.line := by
  apply trim_eq_self
  · intro c hc
    rw [head_line] at hc
    rw [← Option.some.inj hc]
    decide
  · intro c hc
    rw [getLast_line] at hc
    rw [← Option.some.inj hc]
    decide

theorem line_ne_nil (e : ControlEvent) : e.line ≠ [] := by
  intro h
  have hhead := e.head_line
  rw [h] at hhead
  cases hhead

end ControlEvent

/-- The geometry after an event. -/
def VideoConfig.after (v : VideoConfig) : ControlEvent → VideoConfig
  | .session _ => v
  | .videoConfig width height fps =>
      { width := some (width.toNat : ℚ), height := some (height.toNat : ℚ)
        fps := some (fps.toNat : ℚ) }

namespace BridgeClient

/-- What an event of the handler does to the client. -/
def after (c : BridgeClient) (e : ControlEvent) : BridgeClient :=
  { c with status := c.status.after e, videoConfig := c.videoConfig.after e }

section

variable (numberText : Decimal → JsString) (textNumber : JsString → Option ℚ)

/-- **A line of the handler is one event.** -/
theorem onLine_line (c : BridgeClient) (e : ControlEvent) :
    onLine numberText textNumber c e.line = c.after e := by
  unfold onLine
  rw [e.trim_line, if_neg e.line_ne_nil, e.parse_line]
  simp only [applyControlEvent_message]
  cases e with
  | session state => cases state <;> rfl
  | videoConfig width height fps =>
    have hnum : ∀ n : Nat, toNumber numberText textNumber (some (.num (Decimal.ofNat n))) =
        .ok (some (n : ℚ)) := by
      intro n
      show Except.ok (some (Decimal.ofNat n).value) = _
      rw [Decimal.value_ofNat]
    have hconfig : videoConfigOf numberText textNumber
        (ControlEvent.videoConfig width height fps).message = .ok
          { width := some (width.toNat : ℚ), height := some (height.toNat : ℚ)
            fps := some (fps.toNat : ℚ) } := by
      show (do
        let w ← toNumber numberText textNumber (some (.num (Decimal.ofNat width.toNat)))
        let h ← toNumber numberText textNumber (some (.num (Decimal.ofNat height.toNat)))
        let f ← toNumber numberText textNumber (some (.num (Decimal.ofNat fps.toNat)))
        pure ({ width := w, height := h, fps := f } : VideoConfig)) = _
      rw [hnum, hnum, hnum]
      rfl
    have hevent : property (ControlEvent.videoConfig width height fps).message (js "event") =
        .ok (some (.str (js "video_config"))) := rfl
    simp only [hevent, hconfig]
    rfl

theorem foldl_onLine (c : BridgeClient) (events : List ControlEvent) :
    (events.map ControlEvent.line).foldl (onLine numberText textNumber) c =
      events.foldl after c := by
  induction events generalizing c with
  | nil => rfl
  | cons e events ih =>
    rw [List.map_cons, List.foldl_cons, List.foldl_cons, onLine_line]
    exact ih _

/-- **A chunk of the handler's lines.**  What was left of the last chunk and a new
one give the events whose lines they complete, and leave what follows. -/
theorem onData_lines {c : BridgeClient} {chunk part : JsString} {events : List ControlEvent}
    (hchunk : c.lineBuf ++ chunk = (events.flatMap fun e => e.line ++ [unit '\n']) ++ part)
    (hpart : unit '\n' ∉ part) :
    onData numberText textNumber c chunk =
      { events.foldl after c with lineBuf := part } := by
  have hdrains : (lineDeframer (unit '\n')).Drains
      ((events.flatMap fun e => e.line ++ [unit '\n']) ++ part)
      (events.map ControlEvent.line) part := by
    apply Deframer.Drains.encoded
    · intro e _ rest
      rw [List.append_assoc, List.singleton_append]
      refine Lines.next_line (fun hmem => ?_) rest
      exact absurd (e.isPlain_line _ hmem) (by decide)
    · exact Lines.next_more hpart
  have hpush : (lineDeframer (unit '\n')).push c.lineBuf chunk =
      (events.map ControlEvent.line, part) := by
    unfold Deframer.push
    rw [hchunk]
    exact hdrains.drain_eq
  unfold onData
  rw [hpush]
  show ({ (events.map ControlEvent.line).foldl (onLine numberText textNumber) c with
    lineBuf := part } : BridgeClient) = _
  rw [foldl_onLine]

end

/-- The client after a list of events, without what is in its buffer. -/
theorem foldl_after (c : BridgeClient) (events : List ControlEvent) :
    events.foldl after c =
      { status := events.foldl HandlerStatus.after c.status
        lineBuf := c.lineBuf
        videoConfig := events.foldl VideoConfig.after c.videoConfig } := by
  induction events generalizing c with
  | nil => rfl
  | cons e events ih =>
    rw [List.foldl_cons, ih]
    rfl

/-- The size after a list of events is that of the last `video_config`. -/
theorem foldl_videoConfig (v : VideoConfig) (events : List ControlEvent) :
    events.foldl VideoConfig.after v =
      match lastVideoConfig events with
      | none => v
      | some (width, height, fps) => v.after (.videoConfig width height fps) := by
  induction events using List.reverseRecOn with
  | nil => rfl
  | append_singleton events e ih =>
    rw [List.foldl_append, lastVideoConfig_snoc]
    cases e with
    | session state => exact ih
    | videoConfig width height fps => rfl

end BridgeClient
end Whutfa
