import Mathlib.Algebra.Order.Floor.Ring
import Whutfa.CDecimal
import Whutfa.TouchPath

/-! # Lines of input

The lines that `BridgeClient.sendTouch` (`server/src/bridge-client.ts`) writes for the
payloads of the `/ws/input` handler (`server/src/index.ts`), whatever JSON value a client has
put for the action and whether the position is finite, and what the scanner of
`IpcBridge::bridge_read_loop` (`aa-handler/src/ipc_bridge.cpp`) makes of them.

The scanner looks for a quoted key and the next colon.  The action's key stands in front
of its value, so no action hides it; the other keys matter only when the action is a
number, whose text has no quotes.  Each line is read as the message it was written for, if
an action that is a number is an `int` (`InputMessage.readTouch_line`).
-/
namespace Whutfa

open JsString

/-- What the server passes on of a message: a position that is not finite becomes `null`. -/
structure InputMessage where
  action : Option Json
  x : Option Decimal
  y : Option Decimal

/-- Truncation towards zero. -/
def truncate (q : ℚ) : Int := if 0 ≤ q then ⌊q⌋ else ⌈q⌉

namespace InputMessage

/-- The text of a position: `null` when it is not finite. -/
def coordJson : Option Decimal → Json
  | none => .null
  | some d => .num d

/-- The argument of `sendTouch`. -/
def payload (m : InputMessage) : Json :=
  .obj ((js "type", .str (js "touch")) :: (m.action.toList.map fun v => (js "action", v)) ++
    [(js "x", coordJson m.x), (js "y", coordJson m.y)])

/-- The line that is written, without its line feed. -/
def line (m : InputMessage) : List UInt8 := utf8 (Json.stringify m.payload)

/-- What the scanner makes of a position. -/
def coordValue : Option Decimal → CText.Double
  | none => .finite 0
  | some d => .finite d.value

/-- An action that is a number is an `int` when it is truncated. -/
def Representable (m : InputMessage) : Prop :=
  ∀ d, m.action = some (.num d) →
    -2147483648 ≤ truncate d.value ∧ truncate d.value ≤ 2147483647

/-- The call that a message is for. -/
def call? (m : InputMessage) : Option TouchCall :=
  match m.action with
  | some (.num d) =>
      if 0 ≤ truncate d.value then
        some { x := coordValue m.x, y := coordValue m.y, action := truncate d.value }
      else none
  | _ => none

end InputMessage

/-! ## Numbers behind a key -/

theorem tdiv_eq_truncate (q : ℚ) : q.num.tdiv q.den = truncate q := by
  unfold truncate
  by_cases hq : 0 ≤ q
  · rw [if_pos hq, Rat.floor_def', Int.tdiv_eq_ediv_of_nonneg (Rat.num_nonneg.mpr hq)]
  · have hneg : 0 ≤ -q.num := by
      have hnum : (-q).num = -q.num := Rat.num_neg_eq_neg_num q
      rw [← hnum]
      exact Rat.num_nonneg.mpr (by linarith)
    rw [if_neg hq, Rat.ceil_def', ← Int.tdiv_eq_ediv_of_nonneg hneg, Int.neg_tdiv, neg_neg]

theorem find_singleton {k : UInt8} {t : List UInt8} (h : k ∉ t) (u : List UInt8) :
    CText.find [k] (t ++ k :: u) = some (k :: u) := by
  induction t with
  | nil => simp [CText.find]
  | cons b t ih =>
    have hne : k ≠ b := fun heq => h (heq ▸ List.mem_cons_self)
    have hrest := ih fun hmem => h (List.mem_cons_of_mem b hmem)
    simp [CText.find, hne, hrest]

/-- White space that `find_num` skips. -/
theorem dropWhile_print (d : Decimal) (u : List UInt8) :
    (d.print.map byte ++ u).dropWhile (fun c => c = 0x20 || c = 0x09) = d.print.map byte ++ u := by
  have hhead : ∃ c s, d.print = c :: s ∧ byte c ≠ 0x20 ∧ byte c ≠ 0x09 := by
    obtain ⟨c, s, hs, -⟩ := Json.print_head d
    have hall : ((js "-.e+").all fun c => byte c ≠ 0x20 ∧ byte c ≠ 0x09) = true := rfl
    refine ⟨c, s, hs, ?_⟩
    rcases Decimal.mem_print (hs ▸ List.mem_cons_self) with hdigit | hmark
    · obtain ⟨hspace, -⟩ := CText.isSpace_byte_of_isDigit hdigit
      constructor
      · intro heq
        rw [heq] at hspace
        exact absurd hspace (by decide)
      · intro heq
        rw [heq] at hspace
        exact absurd hspace (by decide)
    · exact of_decide_eq_true (List.all_eq_true.mp hall c hmark)
  obtain ⟨c, s, hs, hsp, htab⟩ := hhead
  rw [hs, List.map_cons, List.cons_append, List.dropWhile_cons_of_neg (by simp [hsp, htab])]

/-- A printed number behind the first colon. -/
theorem findNum_print {key line mid u : List UInt8} {d : Decimal} {c : UInt8}
    (hfind : CText.find key line = some (mid ++ 0x3A :: (d.print.map byte ++ c :: u)))
    (hmid : 0x3A ∉ mid) (hc : CText.Stops c) : findNum line key = some (.finite d.value) := by
  have hcolon : CText.bytes ":" = [0x3A] := rfl
  unfold findNum
  rw [hfind, Option.bind_some, hcolon, find_singleton hmid, Option.bind_some, List.drop_one,
    List.tail_cons, dropWhile_print, CText.strtod_print_append d hc]

/-- Nothing is read where no number begins. -/
theorem findNum_eq_none {key line mid u : List UInt8} {c : UInt8}
    (hfind : CText.find key line = some (mid ++ 0x3A :: c :: u)) (hmid : 0x3A ∉ mid)
    (hblank : c ≠ 0x20 ∧ c ≠ 0x09) (hnone : CText.strtod (c :: u) = none) :
    findNum line key = none := by
  have hcolon : CText.bytes ":" = [0x3A] := rfl
  unfold findNum
  rw [hfind, Option.bind_some, hcolon, find_singleton hmid, Option.bind_some, List.drop_one,
    List.tail_cons, List.dropWhile_cons_of_neg (by simp [hblank.1, hblank.2])]
  exact hnone

/-- The text of a number has no quotes. -/
theorem find_print_append (d : Decimal) {key : List UInt8} {c : UInt8} (hc : c ∉ 0x22 :: key)
    (u : List UInt8) :
    CText.find (0x22 :: key) (d.print.map byte ++ c :: u) =
      CText.find (0x22 :: key) (c :: u) := by
  refine CText.find_append_of_none (CText.find_eq_none_of_not_mem fun hmem => ?_) hc
  obtain ⟨x, hx, hbyte⟩ := List.mem_map.mp hmem
  rcases Decimal.mem_print hx with hdigit | hmark
  · obtain ⟨hval, hlow, -⟩ := CText.toNat_byte_of_isDigit hdigit
    rw [hbyte] at hval
    exact absurd (hval ▸ hlow) (by decide)
  · have hall : ((js "-.e+").all fun x => byte x ≠ 0x22) = true := rfl
    exact of_decide_eq_true (List.all_eq_true.mp hall x hmark) hbyte

/-! ## The line of a message -/

theorem isAscii_print {d : Decimal} {c : UInt16} (hc : c ∈ d.print) : isAscii c := by
  have hplain := Decimal.isPlain_of_mem_print hc
  simp only [isPlain, Bool.and_eq_true] at hplain
  exact hplain.1

namespace InputMessage

/-- The bytes of a position. -/
def coordBytes (d : Option Decimal) : List UInt8 := (Json.stringify (coordJson d)).map byte

/-- The members behind the action, and the closing brace. -/
def coordsText (x y : Option Decimal) : JsString :=
  js ",\"x\":" ++ (Json.stringify (coordJson x) ++
    (js ",\"y\":" ++ (Json.stringify (coordJson y) ++ js "\x7d")))

/-- The bytes behind the action. -/
def coordsBytes (x y : Option Decimal) : List UInt8 :=
  CText.bytes ",\"x\":" ++ (coordBytes x ++
    (CText.bytes ",\"y\":" ++ (coordBytes y ++ CText.bytes "\x7d")))

theorem isAscii_stringify_coord (d : Option Decimal) :
    ∀ c ∈ Json.stringify (coordJson d), isAscii c := by
  cases d with
  | none => exact List.all_eq_true.mp rfl
  | some d => exact fun c hc => isAscii_print hc

theorem utf8_coordsText (x y : Option Decimal) : utf8 (coordsText x y) = coordsBytes x y := by
  have hx : ∀ c ∈ js ",\"x\":", isAscii c := List.all_eq_true.mp rfl
  have hy : ∀ c ∈ js ",\"y\":", isAscii c := List.all_eq_true.mp rfl
  unfold coordsText coordsBytes
  rw [utf8_append_of_ascii hx, utf8_append_of_ascii (isAscii_stringify_coord x),
    utf8_append_of_ascii hy, utf8_append_of_ascii (isAscii_stringify_coord y)]
  rfl

/-- The line, with the value of its action. -/
theorem line_some (v : Json) (x y : Option Decimal) :
    (InputMessage.mk (some v) x y).line = CText.bytes "\x7b\"type\":\"touch\",\"action\":" ++
      utf8 (Json.stringify v ++ coordsText x y) := by
  have hhead : ∀ c ∈ js "\x7b\"type\":\"touch\",\"action\":", isAscii c :=
    List.all_eq_true.mp rfl
  have htext : Json.stringify (InputMessage.mk (some v) x y).payload =
      js "\x7b\"type\":\"touch\",\"action\":" ++ (Json.stringify v ++ coordsText x y) := rfl
  rw [line, htext, utf8_append_of_ascii hhead]
  rfl

/-- The line of a message without an action. -/
theorem line_none (x y : Option Decimal) :
    (InputMessage.mk none x y).line =
      CText.bytes "\x7b\"type\":\"touch\"" ++ coordsBytes x y := by
  have hhead : ∀ c ∈ js "\x7b\"type\":\"touch\"", isAscii c := List.all_eq_true.mp rfl
  have htext : Json.stringify (InputMessage.mk none x y).payload =
      js "\x7b\"type\":\"touch\"" ++ coordsText x y := rfl
  rw [line, htext, utf8_append_of_ascii hhead, utf8_coordsText]
  rfl

/-- No text of an action ends the line. -/
theorem lf_not_mem_line (m : InputMessage) : 0x0A ∉ m.line := by
  intro hmem
  have hunit : (0x0A : UInt16) ∈ Json.stringify m.payload :=
    mem_of_byte_mem_utf8 (by decide) hmem
  exact absurd (Json.isPrintable_stringify _ _ hunit) (by decide)

theorem sendTouch_payload (m : InputMessage) : sendTouch m.payload = m.line ++ [0x0A] := by
  unfold sendTouch line
  rw [utf8_append_cons (by decide)]
  rfl

end InputMessage

/-! ## What the scanner reads -/

theorem stops_comma : CText.Stops 0x2C := by constructor <;> decide

theorem stops_brace : CText.Stops 0x7D := by constructor <;> decide

/-- `find` goes on behind the beginning of a line. -/
theorem find_head (key rest : List UInt8) (hkey : key = CText.bytes "\"x\"" ∨
    key = CText.bytes "\"y\"") :
    CText.find key (CText.bytes "\x7b\"type\":\"touch\",\"action\":" ++ rest) =
      CText.find key rest := by
  rcases hkey with rfl | rfl <;> rfl

theorem find_action (rest : List UInt8) :
    CText.find (CText.bytes "\"action\"")
        (CText.bytes "\x7b\"type\":\"touch\",\"action\":" ++ rest) =
      some (CText.bytes "\"action\"" ++ 0x3A :: rest) := rfl

/-- An action that is no number converts to nothing. -/
theorem strtod_stringify {v : Json} (hv : ∀ d, v ≠ .num d) (t : JsString) :
    ∃ c u, utf8 (Json.stringify v ++ t) = c :: u ∧ (c ≠ 0x20 ∧ c ≠ 0x09) ∧
      CText.strtod (c :: u) = none := by
  have hstop : ∀ {c : UInt16} (_ : isAscii c) (_ : CText.Stops (byte c)) {s : JsString},
      Json.stringify v = c :: s → ∃ b u, utf8 (Json.stringify v ++ t) = b :: u ∧
        (b ≠ 0x20 ∧ b ≠ 0x09) ∧ CText.strtod (b :: u) = none := by
    intro c hc hstops s hs
    refine ⟨byte c, utf8 (s ++ t), ?_, ⟨?_, ?_⟩, CText.strtod_cons_eq_none hstops⟩
    · rw [hs, List.cons_append, ← List.singleton_append,
        utf8_append_of_ascii (by simpa using hc)]
      rfl
    · intro heq
      exact absurd (heq ▸ hstops.notSpace) (by decide)
    · intro heq
      exact absurd (heq ▸ hstops.notSpace) (by decide)
  cases v with
  | num d => exact absurd rfl (hv d)
  | null =>
    have hnull : ∀ c ∈ js "null", isAscii c := List.all_eq_true.mp rfl
    exact ⟨0x6E, _, utf8_append_of_ascii hnull t, by decide, rfl⟩
  | bool b =>
    cases b with
    | true => exact hstop (c := unit 't') (by decide) (by constructor <;> decide) rfl
    | false =>
      have hfalse : ∀ c ∈ js "false", isAscii c := List.all_eq_true.mp rfl
      exact ⟨0x66, _, utf8_append_of_ascii hfalse t, by decide, rfl⟩
  | str s => exact hstop (c := unit '"') (by decide) (by constructor <;> decide) rfl
  | arr items =>
    cases items <;> exact hstop (c := unit '[') (by decide) (by constructor <;> decide) rfl
  | obj members =>
    cases members <;>
      exact hstop (c := unit '\x7b') (by decide) (by constructor <;> decide) rfl

/-- Without a number for the action the callback is not called. -/
theorem readTouch_of_no_action {line : List UInt8}
    (h : findNum line (CText.bytes "\"action\"") = none) : readTouch line = .ok none := by
  unfold readTouch
  rw [h]
  rfl

namespace InputMessage

/-- A quoted key is not in the text of a position. -/
theorem find_coord_append (d : Option Decimal) {key : List UInt8} {c : UInt8}
    (hc : c ∉ 0x22 :: key) (u : List UInt8) :
    CText.find (0x22 :: key) (coordBytes d ++ c :: u) = CText.find (0x22 :: key) (c :: u) := by
  cases d with
  | none =>
    refine CText.find_append_of_none (CText.find_eq_none_of_not_mem ?_) hc
    decide
  | some d => exact find_print_append d hc u

/-- The number behind a position's key: zero when there is none. -/
theorem findNum_coord {key line mid u : List UInt8} {d : Option Decimal} {c : UInt8}
    (hfind : CText.find key line = some (mid ++ 0x3A :: (coordBytes d ++ c :: u)))
    (hmid : 0x3A ∉ mid) (hc : CText.Stops c) :
    (findNum line key).getD (.finite 0) = coordValue d := by
  cases d with
  | none =>
    have hnone : findNum line key = none :=
      findNum_eq_none (c := 0x6E) (u := CText.bytes "ull" ++ c :: u) hfind hmid (by decide) rfl
    rw [hnone]
    rfl
  | some d =>
    rw [findNum_print hfind hmid hc]
    rfl

section

variable (n : Decimal) (x y : Option Decimal)

/-- The line of a message whose action is a number. -/
def numberLine : List UInt8 :=
  CText.bytes "\x7b\"type\":\"touch\",\"action\":" ++ (n.print.map byte ++ coordsBytes x y)

theorem line_number : (InputMessage.mk (some (.num n)) x y).line = numberLine n x y := by
  rw [line_some, Json.stringify, utf8_append_of_ascii fun c hc => isAscii_print hc,
    utf8_coordsText]
  rfl

theorem findNum_action :
    findNum (numberLine n x y) (CText.bytes "\"action\"") = some (.finite n.value) :=
  findNum_print (find_action _) (by decide) stops_comma

theorem findNum_x :
    (findNum (numberLine n x y) (CText.bytes "\"x\"")).getD (.finite 0) = coordValue x := by
  have hfind : CText.find (CText.bytes "\"x\"") (numberLine n x y) =
      some (CText.bytes "\"x\"" ++ 0x3A :: (coordBytes x ++
        0x2C :: (CText.bytes "\"y\":" ++ (coordBytes y ++ CText.bytes "\x7d")))) := by
    rw [numberLine, find_head _ _ (Or.inl rfl)]
    exact find_print_append n (by decide) _
  exact findNum_coord hfind (by decide) stops_comma

theorem findNum_y :
    (findNum (numberLine n x y) (CText.bytes "\"y\"")).getD (.finite 0) = coordValue y := by
  have hfind : CText.find (CText.bytes "\"y\"") (numberLine n x y) =
      some (CText.bytes "\"y\"" ++ 0x3A :: (coordBytes y ++ 0x7D :: [])) := by
    rw [numberLine, find_head _ _ (Or.inr rfl)]
    exact (find_print_append n (by decide) _).trans (find_coord_append x (by decide) _)
  exact findNum_coord hfind (by decide) stops_brace

/-- A number that is an `int` leads to the call, any other to nothing that C++ defines. -/
theorem readTouch_number :
    readTouch (InputMessage.mk (some (.num n)) x y).line =
      if -2147483648 ≤ truncate n.value ∧ truncate n.value ≤ 2147483647 then
        .ok (InputMessage.mk (some (.num n)) x y).call?
      else .error .undefinedBehaviour := by
  unfold readTouch
  rw [line_number, findNum_action, findNum_x, findNum_y]
  simp only [CText.toInt, tdiv_eq_truncate]
  by_cases hint : -2147483648 ≤ truncate n.value ∧ truncate n.value ≤ 2147483647
  · rw [if_pos hint, if_pos hint]
    rfl
  · rw [if_neg hint, if_neg hint]
    rfl

end

/-- No action is found in the positions. -/
theorem find_action_none (x y : Option Decimal) :
    CText.find (CText.bytes "\"action\"") (InputMessage.mk none x y).line = none := by
  have hskip : CText.find (CText.bytes "\"action\"") (InputMessage.mk none x y).line =
      CText.find (CText.bytes "\"action\"") (coordBytes x ++ 0x2C ::
        (CText.bytes "\"y\":" ++ (coordBytes y ++ CText.bytes "\x7d"))) := by
    rw [line_none]
    rfl
  rw [hskip]
  exact (find_coord_append x (by decide) _).trans (find_coord_append y (by decide) _)

/-- A message without a number for its action is for no call. -/
theorem readTouch_of_not_number {m : InputMessage} (hm : ∀ d, m.action ≠ some (.num d)) :
    readTouch m.line = .ok m.call? := by
  obtain ⟨action, x, y⟩ := m
  cases action with
  | none =>
    refine readTouch_of_no_action ?_
    unfold findNum
    rw [find_action_none]
    rfl
  | some v =>
    have hnot : ∀ d, v ≠ .num d := fun d heq => hm d (congrArg some heq)
    obtain ⟨c, u, hutf8, hblank, hnone⟩ := strtod_stringify hnot (coordsText x y)
    have hline : readTouch (InputMessage.mk (some v) x y).line = .ok none := by
      rw [line_some, hutf8]
      exact readTouch_of_no_action (findNum_eq_none (find_action _) (by decide) hblank hnone)
    rw [hline]
    cases v with
    | num d => exact absurd rfl (hnot d)
    | null | bool | str | arr | obj => rfl

theorem readTouch_line {m : InputMessage} (hm : m.Representable) :
    readTouch m.line = .ok m.call? := by
  obtain ⟨action, x, y⟩ := m
  by_cases hnum : ∃ d, action = some (.num d)
  · obtain ⟨d, rfl⟩ := hnum
    rw [readTouch_number, if_pos (hm d rfl)]
  · exact readTouch_of_not_number fun d hd => hnum ⟨d, hd⟩

theorem readTouch_line_error {m : InputMessage} (hm : ¬ m.Representable) :
    readTouch m.line = .error .undefinedBehaviour := by
  obtain ⟨action, x, y⟩ := m
  by_cases hnum : ∃ d, action = some (.num d)
  · obtain ⟨d, rfl⟩ := hnum
    rw [readTouch_number, if_neg]
    intro hbounds
    refine hm fun d' hd' => ?_
    obtain rfl := Json.num.inj (Option.some.inj hd')
    exact hbounds
  · exact absurd (fun d hd => absurd ⟨d, hd⟩ hnum) hm

/-- The lines are read without undefined behaviour when every action is an `int`. -/
theorem mapM_readTouch_line (ms : List InputMessage) (calls : List (Option TouchCall)) :
    (ms.map line).mapM readTouch = .ok calls ↔
      (∀ m ∈ ms, m.Representable) ∧ calls = ms.map call? := by
  induction ms generalizing calls with
  | nil =>
    rw [List.map_nil, List.mapM_nil]
    constructor
    · intro h
      exact ⟨List.forall_mem_nil _, (Except.ok.inj h).symm⟩
    · rintro ⟨-, rfl⟩
      rfl
  | cons m ms ih =>
    rw [List.map_cons, List.mapM_cons, List.forall_mem_cons]
    by_cases hm : m.Representable
    · rw [readTouch_line hm]
      constructor
      · intro h
        cases hrest : (ms.map line).mapM readTouch with
        | error e =>
          rw [hrest] at h
          cases h
        | ok later =>
          obtain ⟨hall, rfl⟩ := (ih later).mp hrest
          rw [hrest] at h
          exact ⟨⟨hm, hall⟩, (Except.ok.inj h).symm⟩
      · rintro ⟨⟨-, hall⟩, rfl⟩
        rw [(ih _).mpr ⟨hall, rfl⟩]
        rfl
    · rw [readTouch_line_error hm]
      constructor
      · intro h
        cases h
      · rintro ⟨⟨hrep, -⟩, -⟩
        exact absurd hrep hm

end InputMessage

/-- The calls without the messages that are for none. -/
theorem reduceOption_map {α β : Type*} (f : α → Option β) (xs : List α) :
    (xs.map f).reduceOption = xs.filterMap f := by
  show (xs.map f).filterMap id = _
  rw [List.filterMap_map]
  rfl

end Whutfa
