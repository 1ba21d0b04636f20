import Whutfa.InputLines

/-! # Touch lines with actions of any kind

The touches that the `/ws/input` handler of the server (`server/src/index.ts`) passes on when
the position is finite.  A touch is a message with both parts of a position, and its line is
read as such: the action's value decides whether there is a call, and no action is taken for
another (`touches_called`).
-/
namespace Whutfa

open JsString

/-- The argument of `sendTouch`; an action that is `undefined` is left out of the text. -/
structure Touch where
  action : Option Json
  x : Decimal
  y : Decimal

namespace Touch

/-- The object that the server makes of the touch. -/
def payload (p : Touch) : Json :=
  .obj ((js "type", .str (js "touch")) :: (p.action.toList.map fun v => (js "action", v)) ++
    [(js "x", .num p.x), (js "y", .num p.y)])

/-- The line that is written, without its line feed. -/
def line (p : Touch) : List UInt8 := utf8 (Json.stringify p.payload)

/-- An action that is a number is an `int` when it is truncated. -/
def Bounded (p : Touch) : Prop := ∀ d, p.action = some (.num d) → |d.value| < 2147483648

end Touch

/-- The call that a touch is for. -/
def Touch.call? (p : Touch) : Option TouchCall :=
  match p.action with
  | some (.num d) =>
      if 0 ≤ truncate d.value then
        some { x := .finite p.x.value, y := .finite p.y.value, action := truncate d.value }
      else none
  | _ => none

/-- A touch is a message with both parts of a position. -/
def Touch.message (p : Touch) : InputMessage :=
  { action := p.action, x := some p.x, y := some p.y }

theorem Touch.line_message (p : Touch) : p.line = p.message.line := rfl

theorem Touch.call?_message (p : Touch) : p.call? = p.message.call? := rfl

theorem Touch.Bounded.representable {p : Touch} (hp : p.Bounded) : p.message.Representable := by
  intro d hd
  obtain ⟨hlow, hhigh⟩ := abs_lt.mp (hp d hd)
  unfold truncate
  by_cases hpos : 0 ≤ d.value
  · rw [if_pos hpos]
    have hfloor : ⌊d.value⌋ < 2147483648 := Int.floor_lt.mpr (by exact_mod_cast hhigh)
    have hnonneg : 0 ≤ ⌊d.value⌋ := Int.floor_nonneg.mpr hpos
    omega
  · rw [if_neg hpos]
    have hceil : -2147483648 < ⌈d.value⌉ := Int.lt_ceil.mpr (by exact_mod_cast hlow)
    have hnonpos : ⌈d.value⌉ ≤ 0 := Int.ceil_le.mpr (by push_cast; linarith)
    omega

theorem lf_not_mem_line (p : Touch) : 0x0A ∉ p.line := p.message.lf_not_mem_line

theorem sendTouch_payload (p : Touch) : sendTouch p.payload = p.line ++ [0x0A] :=
  p.message.sendTouch_payload

/-- **A line is read as the touch it was written for.** -/
theorem readTouch_line {p : Touch} (hp : p.Bounded) : readTouch p.line = .ok p.call? := by
  rw [Touch.line_message, Touch.call?_message]
  exact InputMessage.readTouch_line hp.representable

theorem mapM_readTouch_line {touches : List Touch} (h : ∀ p ∈ touches, p.Bounded) :
    (touches.map Touch.line).mapM readTouch = .ok (touches.map Touch.call?) := by
  induction touches with
  | nil => rfl
  | cons p touches ih =>
    rw [List.map_cons, List.mapM_cons, readTouch_line (h p List.mem_cons_self),
      ih fun q hq => h q (List.mem_cons_of_mem p hq)]
    rfl

/-- **The callback is called for the touches with a number for an action**, and for no
others: in order, with the truncated number, when it is not negative, and the position,
whatever the actions are and wherever the bytes are cut. -/
theorem touches_called (touches : List Touch) (hbounded : ∀ p ∈ touches, p.Bounded)
    {chunks : List (List UInt8)}
    (hchunks : chunks.flatten = touches.flatMap fun p => sendTouch p.payload) :
    touchCalls chunks = .ok (touches.filterMap Touch.call?) := by
  have hlines : ∀ line ∈ touches.map Touch.line, 0x0A ∉ line := by
    intro line hline
    obtain ⟨p, -, rfl⟩ := List.mem_map.mp hline
    exact lf_not_mem_line p
  have hbytes : chunks.flatten = (touches.map Touch.line).flatMap (· ++ [0x0A]) := by
    rw [hchunks, List.flatMap_map]
    simp only [sendTouch_payload]
  unfold touchCalls
  rw [Lines.feed_lines hlines hbytes]
  show (do let calls ← (touches.map Touch.line).mapM readTouch
           pure calls.reduceOption) = _
  rw [mapM_readTouch_line hbounded]
  show Except.ok (List.reduceOption _) = _
  rw [reduceOption_map]

/-- A move, and two touches whose actions mention the keys. -/
def mixedTouches : List Touch :=
  [{ action := some (.num (Decimal.ofNat 2)), x := half, y := half },
    { action := some (.str (js "\"x\":1")), x := half, y := half },
    { action := some (.obj [(js "action", .num half)]), x := half, y := half }]

/-- Only the move is called back, with the bytes cut behind the seventh. -/
theorem touches_called_mixed :
    touchCalls [(mixedTouches.flatMap fun p => sendTouch p.payload).take 7,
        (mixedTouches.flatMap fun p => sendTouch p.payload).drop 7] =
      .ok [{ x := .finite half.value, y := .finite half.value, action := 2 }] := by
  have hcalls : mixedTouches.filterMap Touch.call? =
      [{ x := .finite half.value, y := .finite half.value, action := 2 }] := by
    have htwo : truncate (2 : ℚ) = 2 := by decide +kernel
    simp [mixedTouches, Touch.call?, htwo]
  have hbounded : ∀ p ∈ mixedTouches, p.Bounded := by
    intro p hp d hd
    simp only [mixedTouches, List.mem_cons, List.not_mem_nil, or_false] at hp
    rcases hp with rfl | rfl | rfl
    · obtain rfl := Json.num.inj (Option.some.inj hd)
      norm_num
    · cases hd
    · cases hd
  rw [touches_called mixedTouches hbounded (by simp), hcalls]

end Whutfa
