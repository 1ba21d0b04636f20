import Mathlib.Data.List.Induction
import Whutfa.TouchLines

/-! # Touches over several connections

`line_buf` of `IpcBridge::bridge_read_loop` (`aa-handler/src/ipc_bridge.cpp`) is declared
outside the loop over the connections: the unfinished line of a client that has left is
the beginning of the next client's first line.  The joined line is read as the line alone
when the part in front has none of the three keys; a key in it is found first, and what
stands behind it does not depend on the new line (`undisturbed_iff_keyFree`).
-/
namespace Whutfa

open JsString

/-- The calls for some lines. -/
def readLines (lines : List (List UInt8)) : Except UndefinedBehaviour (List TouchCall) := do
  let calls ← lines.mapM readTouch
  pure calls.reduceOption

/-- The calls for each connection, in the chunks it is read in; `lineBuf` is what there is
in `line_buf` before the first. -/
def readConnections : List UInt8 → List (List (List UInt8)) →
    Except UndefinedBehaviour (List (List TouchCall))
  | _, [] => pure []
  | lineBuf, chunks :: later => do
      let calls ← readLines ((lineDeframer 0x0A).feed lineBuf chunks).1
      let more ← readConnections ((lineDeframer 0x0A).feed lineBuf chunks).2 later
      pure (calls :: more)

/-- `line_buf` after some connections. -/
def lineBufAfter (connections : List (List (List UInt8))) : List UInt8 :=
  connections.foldl (fun lineBuf chunks => ((lineDeframer 0x0A).feed lineBuf chunks).2) []

/-- A connection: touch lines, the beginning of one more perhaps, and the chunks in which
the bytes are read. -/
structure TouchConnection where
  touches : List Touch
  bounded : ∀ p ∈ touches, p.Bounded
  unfinished : List UInt8
  onLine : 0x0A ∉ unfinished
  chunks : List (List UInt8)
  carries : chunks.flatten = (touches.flatMap fun p => sendTouch p.payload) ++ unfinished

/-- The calls for each connection are those it would lead to if it had been the only one. -/
def Undisturbed (connections : List TouchConnection) : Prop :=
  readConnections [] (connections.map TouchConnection.chunks) =
    connections.mapM fun c => touchCalls c.chunks

/-- The keys that the scanner looks for. -/
def touchKeys : List (List UInt8) :=
  [CText.bytes "\"action\"", CText.bytes "\"x\"", CText.bytes "\"y\""]

/-- None of the keys is in the text. -/
def KeyFree (text : List UInt8) : Prop := ∀ key ∈ touchKeys, CText.find key text = none

/-! ## A line behind an unfinished one

The scanner looks for a key in the whole line: what it finds in the part in front it reads
from there, and a key that is not in the part in front is found where it was, shifted. -/

/-- A line begins with a brace, and its first colon stands in front of a string. -/
theorem line_eq_cons (v : Json) (x y : Decimal) : ∃ u,
    (Touch.mk (some v) x y).line = 0x7B :: (CText.bytes "\"type\"" ++ 0x3A :: 0x22 :: u) :=
  ⟨CText.bytes "touch\",\"action\":" ++
    utf8 (Json.stringify v ++ InputMessage.coordsText (some x) (some y)),
    InputMessage.line_some v (some x) (some y)⟩

theorem line_head (p : Touch) : ∃ u, p.line = 0x7B :: u := by
  obtain ⟨action, x, y⟩ := p
  cases action with
  | none => exact ⟨CText.bytes "\"type\":\"touch\"" ++
      InputMessage.coordsBytes (some x) (some y), InputMessage.line_none (some x) (some y)⟩
  | some v =>
    obtain ⟨u, hu⟩ := line_eq_cons v x y
    exact ⟨_, hu⟩

theorem brace_not_mem_key : ∀ key ∈ touchKeys, (0x7B : UInt8) ∉ key := by decide

theorem stops_open_brace : CText.Stops 0x7B := by constructor <;> decide

theorem stops_quote : CText.Stops 0x22 := by constructor <;> decide

/-- A part without the keys does not disturb the line. -/
theorem readTouch_append {r : List UInt8} (hr : KeyFree r) (p : Touch) :
    readTouch (r ++ p.line) = readTouch p.line := by
  obtain ⟨u, hu⟩ := line_head p
  have hfind : ∀ key ∈ touchKeys, findNum (r ++ p.line) key = findNum p.line key := by
    intro key hkey
    unfold findNum
    rw [hu, CText.find_append_of_none (hr key hkey) (brace_not_mem_key key hkey)]
  unfold readTouch
  rw [hfind _ (by decide), hfind _ (by decide), hfind _ (by decide)]

/-- A search ends at what was searched for. -/
theorem find_ne_nil {key r t : List UInt8} (h : CText.find key r = some t) (hkey : key ≠ []) :
    t ≠ [] := by
  induction r with
  | nil =>
    cases key with
    | nil => exact absurd rfl hkey
    | cons k key => cases h
  | cons b r ih =>
    rw [CText.find] at h
    split at h
    · obtain rfl := Option.some.inj h
      exact List.cons_ne_nil b r
    · exact ih h

/-- **A key in the part in front is read from there**, or from the beginning of the line:
the touch has no say in it. -/
theorem findNum_constant {r t key : List UInt8} (hr : CText.find key r = some t) :
    ∃ a, ∀ v x y, findNum (r ++ (Touch.mk (some v) x y).line) key = a := by
  cases hcolon : CText.find (CText.bytes ":") t with
  | some t' =>
    refine ⟨CText.strtod ((t'.drop 1).dropWhile fun c => c = 0x20 || c = 0x09), fun v x y => ?_⟩
    obtain ⟨u, hu⟩ := line_head (Touch.mk (some v) x y)
    have hlen : 1 ≤ t'.length := List.length_pos_of_ne_nil (find_ne_nil hcolon (by decide))
    have hblank : ∀ s : List UInt8, (s ++ 0x7B :: u).dropWhile (fun c => c = 0x20 || c = 0x09) =
        s.dropWhile (fun c => c = 0x20 || c = 0x09) ++ 0x7B :: u := by
      intro s
      induction s with
      | nil => rfl
      | cons b s ih =>
        rw [List.cons_append, List.dropWhile_cons, List.dropWhile_cons]
        split
        · exact ih
        · rfl
    unfold findNum
    rw [CText.find_append_of_some hr, Option.bind_some, CText.find_append_of_some hcolon,
      Option.bind_some, List.drop_append_of_le_length hlen, hu, hblank,
      CText.strtod_append_cons stops_open_brace]
  | none =>
    refine ⟨none, fun v x y => ?_⟩
    obtain ⟨u, hu⟩ := line_eq_cons v x y
    have hline : CText.find (CText.bytes ":")
        (0x7B :: (CText.bytes "\"type\"" ++ 0x3A :: 0x22 :: u)) =
          some (0x3A :: 0x22 :: u) := rfl
    unfold findNum
    rw [CText.find_append_of_some hr, Option.bind_some, hu,
      CText.find_append_of_none hcolon (by decide), hline, Option.bind_some]
    exact CText.strtod_cons_eq_none stops_quote

/-- What a call says about its line. -/
theorem readTouch_call {line : List UInt8} {call : TouchCall}
    (h : readTouch line = .ok (some call)) :
    (∃ a, findNum line (CText.bytes "\"action\"") = some a ∧
        CText.toInt a = some call.action) ∧
      call.x = (findNum line (CText.bytes "\"x\"")).getD (.finite 0) ∧
      call.y = (findNum line (CText.bytes "\"y\"")).getD (.finite 0) := by
  unfold readTouch at h
  cases haction : findNum line (CText.bytes "\"action\"") with
  | none =>
    rw [haction] at h
    cases h
  | some a =>
    rw [haction] at h
    cases hint : CText.toInt a with
    | none =>
      simp only [hint] at h
      cases h
    | some n =>
      simp only [hint] at h
      have hcall := Option.ite_none_right_eq_some.mp (Except.ok.inj h)
      obtain ⟨-, heq⟩ := hcall
      obtain rfl := Option.some.inj heq
      exact ⟨⟨a, rfl, hint⟩, rfl, rfl⟩

/-- A press at one of the corners. -/
def cornerTouch (n x y : Nat) : Touch :=
  { action := some (.num (Decimal.ofNat n)), x := Decimal.ofNat x, y := Decimal.ofNat y }

theorem cornerTouch_bounded {n : Nat} (hn : n < 2147483648) (x y : Nat) :
    (cornerTouch n x y).Bounded := by
  intro d hd
  obtain rfl := Json.num.inj (Option.some.inj hd)
  rw [Decimal.value_ofNat, abs_of_nonneg (Nat.cast_nonneg n)]
  exact_mod_cast hn

theorem cornerTouch_call (n x y : Nat) :
    (cornerTouch n x y).call? = some { x := .finite x, y := .finite y, action := n } := by
  have htruncate : truncate (n : ℚ) = n := by
    rw [truncate, if_pos (Nat.cast_nonneg n), Int.floor_natCast]
  simp [Touch.call?, cornerTouch, htruncate]

/-- Of two touches that differ in the number of a key that is read from the part in front,
one is read wrongly. -/
theorem keyFree_of_readTouch {r : List UInt8}
    (h : ∀ n x y, n < 2 → readTouch (r ++ (cornerTouch n x y).line) =
      .ok (cornerTouch n x y).call?) : KeyFree r := by
  have hcall : ∀ n x y, n < 2 → readTouch (r ++ (cornerTouch n x y).line) =
      .ok (some { x := .finite x, y := .finite y, action := n }) := fun n x y hn => by
    rw [h n x y hn, cornerTouch_call]
  intro key hkey
  cases hfind : CText.find key r with
  | none => rfl
  | some t =>
    obtain ⟨a, hconstant⟩ := findNum_constant hfind
    have hzero := readTouch_call (hcall 0 0 0 (by decide))
    simp only [touchKeys, List.mem_cons, List.not_mem_nil, or_false] at hkey
    rcases hkey with rfl | rfl | rfl
    · have hone := readTouch_call (hcall 1 0 0 (by decide))
      obtain ⟨⟨b, hb, hbint⟩, -⟩ := hzero
      obtain ⟨⟨c, hc, hcint⟩, -⟩ := hone
      rw [cornerTouch, hconstant] at hb hc
      obtain rfl := Option.some.inj (hb.symm.trans hc)
      rw [hbint] at hcint
      cases hcint
    · have hone := readTouch_call (hcall 0 1 0 (by decide))
      have hx := hzero.2.1
      have hx' := hone.2.1
      rw [cornerTouch, hconstant] at hx hx'
      have heq := CText.Double.finite.inj (hx.trans hx'.symm)
      norm_num at heq
    · have hone := readTouch_call (hcall 0 0 1 (by decide))
      have hy := hzero.2.2
      have hy' := hone.2.2
      rw [cornerTouch, hconstant] at hy hy'
      have heq := CText.Double.finite.inj (hy.trans hy'.symm)
      norm_num at heq

/-! ## The connections

By induction on them, with what the earlier ones have left in `line_buf`. -/

/-- The lines of a connection, without their line feeds. -/
def TouchConnection.lines (c : TouchConnection) : List (List UInt8) := c.touches.map Touch.line

theorem feed_connection {lineBuf : List UInt8} (hline : 0x0A ∉ lineBuf) (c : TouchConnection) :
    (lineDeframer 0x0A).feed lineBuf c.chunks =
      (Lines.joined lineBuf c.lines, Lines.leftOver lineBuf c.lines c.unfinished) := by
  have hcarries : c.chunks.flatten = c.lines.flatMap (· ++ [0x0A]) ++ c.unfinished := by
    rw [c.carries, TouchConnection.lines, List.flatMap_map]
    simp only [sendTouch_payload]
  have hlines : ∀ line ∈ c.lines, 0x0A ∉ line := by
    intro line hline
    obtain ⟨p, -, rfl⟩ := List.mem_map.mp hline
    exact lf_not_mem_line p
  exact Lines.feed_joined hline hlines c.onLine hcarries

theorem touchCalls_connection (c : TouchConnection) :
    touchCalls c.chunks = .ok (c.touches.filterMap Touch.call?) := by
  unfold touchCalls
  rw [feed_connection List.not_mem_nil c, Lines.joined_nil]
  show (do let calls ← (c.touches.map Touch.line).mapM readTouch
           pure calls.reduceOption) = _
  rw [mapM_readTouch_line c.bounded]
  show Except.ok (List.reduceOption _) = _
  rw [reduceOption_map]

/-- Behind a part without the keys a connection is read as if it were alone. -/
theorem readLines_joined {lineBuf : List UInt8} (hkeys : KeyFree lineBuf) {touches : List Touch}
    (hbounded : ∀ p ∈ touches, p.Bounded) :
    readLines (Lines.joined lineBuf (touches.map Touch.line)) =
      .ok (touches.filterMap Touch.call?) := by
  have hmapM : (Lines.joined lineBuf (touches.map Touch.line)).mapM readTouch =
      .ok (touches.map Touch.call?) := by
    cases touches with
    | nil => rfl
    | cons p touches =>
      rw [List.map_cons, Lines.joined, List.mapM_cons, readTouch_append hkeys,
        readTouch_line (hbounded p List.mem_cons_self),
        mapM_readTouch_line fun q hq => hbounded q (List.mem_cons_of_mem p hq)]
      rfl
  unfold readLines
  rw [hmapM]
  show Except.ok (List.reduceOption _) = _
  rw [reduceOption_map]

theorem lineBufAfter_concat (connections : List (List (List UInt8)))
    (chunks : List (List UInt8)) : lineBufAfter (connections ++ [chunks]) =
      ((lineDeframer 0x0A).feed (lineBufAfter connections) chunks).2 := by
  rw [lineBufAfter, List.foldl_append]
  rfl

/-- `line_buf` never holds a whole line between two reads. -/
theorem lf_not_mem_lineBufAfter (connections : List (List (List UInt8))) :
    0x0A ∉ lineBufAfter connections := by
  induction connections using List.reverseRecOn with
  | nil => exact List.not_mem_nil
  | append_singleton connections chunks ih =>
    rw [lineBufAfter_concat]
    have hmore : (lineDeframer (0x0A : UInt8)).next (lineBufAfter connections) = .more :=
      Lines.next_more ih
    exact Lines.not_mem_of_next_more ((lineDeframer 0x0A).feed_idle rfl hmore chunks)

theorem readConnections_concat (lineBuf : List UInt8) (connections : List (List (List UInt8)))
    (chunks : List (List UInt8)) :
    readConnections lineBuf (connections ++ [chunks]) = (do
      let calls ← readConnections lineBuf connections
      let last ← readLines ((lineDeframer 0x0A).feed (connections.foldl
        (fun lineBuf chunks => ((lineDeframer 0x0A).feed lineBuf chunks).2) lineBuf) chunks).1
      pure (calls ++ [last])) := by
  induction connections generalizing lineBuf with
  | nil =>
    simp only [List.nil_append, readConnections, List.foldl_nil, pure_bind]
  | cons c connections ih =>
    simp only [List.cons_append, readConnections, List.foldl_cons, ih, bind_assoc, pure_bind]

theorem mapM_touchCalls (connections : List TouchConnection) :
    (connections.mapM fun c => touchCalls c.chunks) =
      .ok (connections.map fun c => c.touches.filterMap Touch.call?) := by
  induction connections with
  | nil => rfl
  | cons c connections ih =>
    rw [List.mapM_cons, touchCalls_connection, ih]
    rfl

/-- What the handler's reading of one more connection is. -/
theorem readConnections_map_concat (earlier : List TouchConnection) (next : TouchConnection) :
    readConnections [] ((earlier ++ [next]).map TouchConnection.chunks) = (do
      let calls ← readConnections [] (earlier.map TouchConnection.chunks)
      let last ← readLines
        (Lines.joined (lineBufAfter (earlier.map TouchConnection.chunks)) next.lines)
      pure (calls ++ [last])) := by
  rw [List.map_append, List.map_singleton, readConnections_concat]
  show (do
    let calls ← readConnections [] (earlier.map TouchConnection.chunks)
    let last ← readLines ((lineDeframer 0x0A).feed
      (lineBufAfter (earlier.map TouchConnection.chunks)) next.chunks).1
    pure (calls ++ [last])) = _
  rw [feed_connection (lf_not_mem_lineBufAfter _)]

/-- While no part that is left has a key, the connections are undisturbed. -/
theorem undisturbed_of_keyFree {connections : List TouchConnection}
    (h : ∀ earlier, earlier <+: connections → earlier ≠ connections →
      KeyFree (lineBufAfter (earlier.map TouchConnection.chunks))) :
    Undisturbed connections := by
  unfold Undisturbed
  induction connections using List.reverseRecOn with
  | nil => rfl
  | append_singleton earlier next ih =>
    have hearlier := ih fun first hfirst _ =>
      h first (hfirst.trans (List.prefix_append _ _)) fun heq => by
        have hlen := hfirst.length_le
        rw [heq, List.length_append, List.length_singleton] at hlen
        omega
    have hkeys := h earlier (List.prefix_append _ _) fun heq => by
      have hlen := congrArg List.length heq
      rw [List.length_append, List.length_singleton] at hlen
      omega
    rw [readConnections_map_concat, hearlier, mapM_touchCalls, mapM_touchCalls,
      TouchConnection.lines, readLines_joined hkeys next.bounded, List.map_append]
    rfl

/-- An undisturbed connection is read as its own lines. -/
theorem Undisturbed.readLines {earlier : List TouchConnection} {next : TouchConnection}
    (h : Undisturbed (earlier ++ [next])) :
    Whutfa.readLines (Lines.joined (lineBufAfter (earlier.map TouchConnection.chunks))
      next.lines) = .ok (next.touches.filterMap Touch.call?) := by
  unfold Undisturbed at h
  rw [readConnections_map_concat, mapM_touchCalls, List.map_append] at h
  cases hcalls : readConnections [] (earlier.map TouchConnection.chunks) with
  | error e =>
    rw [hcalls] at h
    cases h
  | ok calls =>
    rw [hcalls] at h
    cases hlast : Whutfa.readLines (Lines.joined
        (lineBufAfter (earlier.map TouchConnection.chunks)) next.lines) with
    | error e =>
      rw [hlast] at h
      cases h
    | ok last =>
      rw [hlast] at h
      have heq := List.append_inj_right' (Except.ok.inj h) rfl
      rw [List.map_singleton] at heq
      rw [List.cons.inj heq |>.1]

theorem readTouch_of_readLines {line : List UInt8} {call : TouchCall}
    (h : readLines [line] = .ok [call]) : readTouch line = .ok (some call) := by
  unfold readLines at h
  rw [List.mapM_cons, List.mapM_nil] at h
  cases hread : readTouch line with
  | error e =>
    rw [hread] at h
    cases h
  | ok call? =>
    rw [hread] at h
    cases call? with
    | none => cases h
    | some c =>
      have heq : [c] = [call] := Except.ok.inj h
      rw [(List.cons.inj heq).1]

/-- A connection with one press. -/
def cornerConnection (n x y : Nat) (hn : n < 2147483648) : TouchConnection where
  touches := [cornerTouch n x y]
  bounded := fun p hp => by
    rw [List.mem_singleton.mp hp]
    exact cornerTouch_bounded hn x y
  unfinished := []
  onLine := List.not_mem_nil
  chunks := [sendTouch (cornerTouch n x y).payload]
  carries := by simp

/-- **A client is undisturbed by those before it exactly while they leave no key.**  For
every sequence of connections, cut into reads in any way: whatever connection comes after
any first part of it, each gets the calls that it would get alone, if and only if none of
the first parts leaves a text in `line_buf` that has one of the three keys. -/
theorem undisturbed_iff_keyFree (connections : List TouchConnection) :
    (∀ earlier, earlier <+: connections → ∀ next, Undisturbed (earlier ++ [next])) ↔
      ∀ earlier, earlier <+: connections →
        KeyFree (lineBufAfter (earlier.map TouchConnection.chunks)) := by
  constructor
  · intro h earlier hearlier
    refine keyFree_of_readTouch fun n x y hn => ?_
    have hn' : n < 2147483648 := Nat.lt_trans hn (by decide)
    have hread := (h earlier hearlier (cornerConnection n x y hn')).readLines
    simp only [cornerConnection, TouchConnection.lines, List.map_cons, List.map_nil, Lines.joined,
      List.filterMap_cons, List.filterMap_nil, cornerTouch_call] at hread
    rw [cornerTouch_call]
    exact readTouch_of_readLines hread
  · intro h earlier hearlier next
    refine undisturbed_of_keyFree fun first hfirst hne => h first ?_
    have hfirst' : first <+: earlier := by
      rcases List.prefix_concat_iff.mp hfirst with heq | hpre
      · exact absurd heq hne
      · exact hpre
    exact hfirst'.trans hearlier

/-- The beginning of a release, after which the client leaves. -/
def brokenRelease : TouchConnection where
  touches := []
  bounded := nofun
  unfinished := CText.bytes "\x7b\"type\":\"touch\",\"action\":1"
  onLine := by decide
  chunks := [CText.bytes "\x7b\"type\":\"touch\",\"action\":1"]
  carries := by simp

/-- The press behind it is read as a release. -/
theorem readTouch_brokenRelease :
    readTouch (brokenRelease.unfinished ++ (cornerTouch 0 0 0).line) =
      .ok (some { x := .finite 0, y := .finite 0, action := 1 }) := by
  have hline : (cornerTouch 0 0 0).line = InputMessage.numberLine (Decimal.ofNat 0)
      (some (Decimal.ofNat 0)) (some (Decimal.ofNat 0)) := by
    rw [Touch.line_message]
    exact InputMessage.line_number _ _ _
  have hfind : CText.find (CText.bytes "\"action\"")
      (brokenRelease.unfinished ++ (cornerTouch 0 0 0).line) =
        some (CText.bytes "\"action\"" ++ 0x3A :: ((Decimal.ofNat 1).print.map byte ++
          (cornerTouch 0 0 0).line)) := rfl
  have haction : findNum (brokenRelease.unfinished ++ (cornerTouch 0 0 0).line)
      (CText.bytes "\"action\"") = some (.finite (Decimal.ofNat 1).value) := by
    obtain ⟨u, hu⟩ := line_head (cornerTouch 0 0 0)
    rw [hu] at hfind ⊢
    exact findNum_print hfind (by decide) stops_open_brace
  have hskip : ∀ key ∈ [CText.bytes "\"x\"", CText.bytes "\"y\""],
      findNum (brokenRelease.unfinished ++ (cornerTouch 0 0 0).line) key =
        findNum (cornerTouch 0 0 0).line key := by
    intro key hkey
    have hnone : ∀ key ∈ [CText.bytes "\"x\"", CText.bytes "\"y\""],
        CText.find key brokenRelease.unfinished = none ∧ (0x7B : UInt8) ∉ key := by decide
    obtain ⟨hfind, hbrace⟩ := hnone key hkey
    obtain ⟨u, hu⟩ := line_head (cornerTouch 0 0 0)
    unfold findNum
    rw [hu, CText.find_append_of_none hfind hbrace]
  have hone : CText.toInt (.finite (1 : ℚ)) = some 1 := by decide +kernel
  unfold readTouch
  rw [haction, hskip _ (by decide), hskip _ (by decide), hline, InputMessage.findNum_x,
    InputMessage.findNum_y, Decimal.value_ofNat, Nat.cast_one]
  simp only [InputMessage.coordValue, Decimal.value_ofNat, Nat.cast_zero, hone]
  rfl

/-- A client that leaves in the middle of a release turns the next client's press into
one. -/
theorem press_read_as_release :
    readConnections [] [brokenRelease.chunks, (cornerConnection 0 0 0 (by decide)).chunks] =
        .ok [[], [{ x := .finite 0, y := .finite 0, action := 1 }]] ∧
      touchCalls (cornerConnection 0 0 0 (by decide)).chunks =
        .ok [{ x := .finite 0, y := .finite 0, action := 0 }] ∧
      ¬ Undisturbed [brokenRelease, cornerConnection 0 0 0 (by decide)] := by
  have hread : readConnections [] [brokenRelease.chunks,
      (cornerConnection 0 0 0 (by decide)).chunks] =
        .ok [[], [{ x := .finite 0, y := .finite 0, action := 1 }]] := by
    have hlines : Lines.joined brokenRelease.unfinished
        (cornerConnection 0 0 0 (by decide)).lines =
          [brokenRelease.unfinished ++ (cornerTouch 0 0 0).line] := rfl
    simp only [readConnections]
    rw [feed_connection List.not_mem_nil brokenRelease]
    show (do
      let calls ← readLines []
      let more ← (do
        let last ← readLines ((lineDeframer 0x0A).feed brokenRelease.unfinished
          (cornerConnection 0 0 0 (by decide)).chunks).1
        let more ← pure []
        pure (last :: more))
      pure (calls :: more)) = _
    rw [feed_connection brokenRelease.onLine, hlines, readLines, readLines, List.mapM_cons,
      readTouch_brokenRelease]
    rfl
  have halone : touchCalls (cornerConnection 0 0 0 (by decide)).chunks =
      .ok [{ x := .finite 0, y := .finite 0, action := 0 }] := by
    rw [touchCalls_connection]
    simp [cornerConnection, cornerTouch_call]
  refine ⟨hread, halone, fun h => ?_⟩
  have hfirst := touchCalls_connection brokenRelease
  unfold Undisturbed at h
  simp only [List.map_cons, List.map_nil, List.mapM_cons, List.mapM_nil, hread, halone,
    hfirst] at h
  have heq := (List.cons.inj (List.cons.inj (Except.ok.inj h)).2).1
  have haction := congrArg TouchCall.action (List.cons.inj heq).1
  exact absurd haction (by decide)

end Whutfa
