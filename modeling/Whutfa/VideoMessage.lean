import Whutfa.AnnexB
import Whutfa.VideoPlayer

/-! # Video messages, by server and browser

The server looks for a key unit with `detectKeyframe` (`server/src/ipc-framing.ts`), the
browser with `isKeyframeAccessUnit` on the units of `splitAnnexB` (`frontend/h264.js`).
Both look for a start code with the unit's header behind it; the server stops one byte too
early for a start code of three bytes (`keyframe_agrees_iff`).

The browser splits the whole message, with the flag in front.  A flag that is zero can
complete a start code that the frame does not have (`messageUnits_iff`).
-/
namespace Whutfa

open H264 NalUnits

/-- A start code with the header of a key unit behind it. -/
def HasKeyUnit (h264 : List UInt8) : Prop :=
  ∃ y, isKeyframeNalType y = true ∧ [0, 0, 1, y] <:+: h264

/-- One that the server's scan reaches: with a byte after the header, or a zero before the
start code. -/
def HasReachedKeyUnit (h264 : List UInt8) : Prop :=
  ∃ y, isKeyframeNalType y = true ∧ ∃ before after, h264 = before ++ [0, 0, 1, y] ++ after ∧
    (after ≠ [] ∨ before.getLast? = some 0)

/-! ## The browser's scan -/

theorem isKeyframeNalType_ne {y : UInt8} (h : isKeyframeNalType y = true) : y ≠ 0 ∧ y ≠ 1 := by
  refine ⟨?_, ?_⟩
  · rintro rfl
    cases h
  · rintro rfl
    cases h

theorem isKeyframeAccessUnit_iff (units : List (List UInt8)) :
    isKeyframeAccessUnit units = true ↔
      ∃ y, isKeyframeNalType y = true ∧ ∃ u ∈ units, u.head? = some y := by
  rw [isKeyframeAccessUnit, List.any_eq_true]
  constructor
  · rintro ⟨u, hmem, hkey⟩
    cases u with
    | nil => cases hkey
    | cons y tail => exact ⟨y, hkey, y :: tail, hmem, rfl⟩
  · rintro ⟨y, hkey, u, hmem, hhead⟩
    obtain ⟨tail, rfl⟩ := List.head?_eq_some_iff.mp hhead
    exact ⟨y :: tail, hmem, hkey⟩

theorem browser_keyframe_iff (h264 : List UInt8) :
    isKeyframeAccessUnit (splitAnnexB h264) = true ↔ HasKeyUnit h264 := by
  rw [isKeyframeAccessUnit_iff, HasKeyUnit]
  refine exists_congr fun y => and_congr_right fun hkey => ?_
  exact unit_head_iff (isKeyframeNalType_ne hkey).1 h264

/-! ## The server's scan -/

/-- What the loop of `detectKeyframe` finds at its first index. -/
def keyUnitInFront (h264 : List UInt8) : Bool :=
  ((startCodeEnd h264 0).bind (h264[·]?)).any isKeyframeNalType

theorem startCodeEnd_cons (b : UInt8) (h264 : List UInt8) (i : Nat) :
    startCodeEnd (b :: h264) (i + 1) = (startCodeEnd h264 i).map (· + 1) := by
  simp only [startCodeEnd, Nat.add_right_comm i 1, List.getElem?_cons_succ]
  split
  · rfl
  · split <;> rfl

theorem detectKeyframe_cons (b : UInt8) (h264 : List UInt8) :
    detectKeyframe (b :: h264) =
      (decide (4 ≤ h264.length) && keyUnitInFront (b :: h264) || detectKeyframe h264) := by
  by_cases hlength : 4 ≤ h264.length
  · have hcount : (b :: h264).length - 4 = h264.length - 4 + 1 := by
      rw [List.length_cons]
      omega
    have hshift : ∀ i, ((startCodeEnd (b :: h264) (i + 1)).bind ((b :: h264)[·]?)) =
        (startCodeEnd h264 i).bind (h264[·]?) := by
      intro i
      rw [startCodeEnd_cons]
      cases startCodeEnd h264 i <;> rfl
    rw [decide_eq_true hlength, Bool.true_and, detectKeyframe, hcount, List.range_succ_eq_map,
      List.any_cons, List.any_map, detectKeyframe, keyUnitInFront]
    simp only [Function.comp_def, Nat.succ_eq_add_one, hshift]
  · have hnone : ∀ view : List UInt8, view.length ≤ 4 → detectKeyframe view = false := by
      intro view hle
      rw [detectKeyframe, Nat.sub_eq_zero_of_le hle]
      rfl
    rw [decide_eq_false hlength, Bool.false_and, Bool.false_or,
      hnone _ (by rw [List.length_cons]; omega), hnone _ (by omega)]

theorem keyUnitInFront_iff {b : UInt8} {view : List UInt8} (h : 4 ≤ view.length) :
    keyUnitInFront (b :: view) = true ↔ ∃ y, isKeyframeNalType y = true ∧
      ([0, 0, 1, y] <+: b :: view ∨ [0, 0, 0, 1, y] <+: b :: view) := by
  match view with
  | [] | [_] | [_, _] | [_, _, _] => simp at h
  | c :: d :: e :: f :: rest =>
    simp only [keyUnitInFront, startCodeEnd, List.cons_prefix_cons, List.nil_prefix, and_true,
      Nat.zero_add, List.getElem?_cons_zero, List.getElem?_cons_succ, Option.some.injEq]
    by_cases hthree : b = 0 ∧ c = 0 ∧ d = 1
    · obtain ⟨rfl, rfl, rfl⟩ := hthree
      simp
    · by_cases hfour : b = 0 ∧ c = 0 ∧ d = 0 ∧ e = 1
      · obtain ⟨rfl, rfl, rfl, rfl⟩ := hfour
        simp
      · rw [if_neg hthree, if_neg hfour, Option.bind_none, Option.any_none]
        grind

/-- The scan reaches a key unit at the first index, or behind it. -/
theorem hasReachedKeyUnit_cons (b : UInt8) (view : List UInt8) :
    HasReachedKeyUnit (b :: view) ↔
      (4 ≤ view.length ∧ ∃ y, isKeyframeNalType y = true ∧
        ([0, 0, 1, y] <+: b :: view ∨ [0, 0, 0, 1, y] <+: b :: view)) ∨
      HasReachedKeyUnit view := by
  constructor
  · rintro ⟨y, hkey, before, after, heq, hreached⟩
    cases before with
    | nil =>
      have hafter : after ≠ [] := hreached.resolve_right nofun
      have hlength : 4 ≤ view.length := by
        have hlen := congrArg List.length heq
        have hpos := List.length_pos_iff.mpr hafter
        simp only [List.length_cons, List.length_append, List.length_nil] at hlen
        omega
      exact Or.inl ⟨hlength, y, hkey, Or.inl ⟨after, heq.symm⟩⟩
    | cons c before =>
      obtain ⟨rfl, rfl⟩ := List.cons.inj heq
      by_cases hrest : after ≠ [] ∨ before.getLast? = some 0
      · exact Or.inr ⟨y, hkey, before, after, rfl, hrest⟩
      · -- the zero in front makes it a start code of four bytes
        obtain ⟨hafter, hlast⟩ := not_or.mp hrest
        have hzero := hreached.resolve_left hafter
        obtain rfl := Classical.not_not.mp hafter
        rw [List.getLast?_cons] at hzero
        cases hbefore : before.getLast? with
        | some d =>
          rw [hbefore] at hzero
          exact absurd (hbefore.trans hzero) hlast
        | none =>
          obtain rfl := List.getLast?_eq_none_iff.mp hbefore
          obtain rfl : b = 0 := Option.some.inj hzero
          exact Or.inl ⟨Nat.le_refl 4, y, hkey, Or.inr (List.prefix_refl _)⟩
  · rintro (⟨hlength, y, hkey, ⟨after, heq⟩ | ⟨after, heq⟩⟩ |
      ⟨y, hkey, before, after, rfl, hreached⟩)
    · refine ⟨y, hkey, [], after, heq.symm, Or.inl ?_⟩
      rintro rfl
      obtain ⟨-, rfl⟩ := List.cons.inj heq
      simp at hlength
    · exact ⟨y, hkey, [0], after, heq.symm, Or.inr rfl⟩
    · refine ⟨y, hkey, b :: before, after, rfl, hreached.imp_right fun hlast => ?_⟩
      rw [List.getLast?_cons, hlast, Option.getD_some]

theorem detectKeyframe_iff (h264 : List UInt8) :
    detectKeyframe h264 = true ↔ HasReachedKeyUnit h264 := by
  induction h264 with
  | nil => simp [HasReachedKeyUnit, detectKeyframe]
  | cons b view ih =>
    rw [detectKeyframe_cons, Bool.or_eq_true, Bool.and_eq_true, decide_eq_true_eq, ih,
      hasReachedKeyUnit_cons, and_congr_right fun hlength => keyUnitInFront_iff hlength]

/-! ## Where the two agree -/

/-- The only key unit is one byte at the very end, behind a start code of three. -/
def OnlyKeyUnitLast (h264 : List UInt8) : Prop :=
  ∃ before y, h264 = before ++ [0, 0, 1, y] ∧ isKeyframeNalType y = true ∧
    before.getLast? ≠ some 0 ∧ ¬ HasKeyUnit before

theorem HasReachedKeyUnit.hasKeyUnit {h264 : List UInt8} (h : HasReachedKeyUnit h264) :
    HasKeyUnit h264 := by
  obtain ⟨y, hkey, before, after, rfl, -⟩ := h
  exact ⟨y, hkey, before, after, rfl⟩

/-- A key unit that the scan does not reach is the only one. -/
theorem reached_or_last {h264 : List UInt8} (h : HasKeyUnit h264) :
    HasReachedKeyUnit h264 ∨ OnlyKeyUnitLast h264 := by
  obtain ⟨y, hkey, before, after, rfl⟩ := h
  by_cases hreached : after ≠ [] ∨ before.getLast? = some 0
  · exact Or.inl ⟨y, hkey, before, after, rfl, hreached⟩
  · obtain ⟨hafter, hlast⟩ := not_or.mp hreached
    obtain rfl := Classical.not_not.mp hafter
    rw [List.append_nil]
    by_cases hbefore : HasKeyUnit before
    · obtain ⟨z, hz, front, back, rfl⟩ := hbefore
      refine Or.inl ⟨z, hz, front, back ++ [0, 0, 1, y], ?_, Or.inl ?_⟩
      · simp only [List.append_assoc]
      · exact fun hnil => nomatch (List.append_eq_nil_iff.mp hnil).2
    · exact Or.inr ⟨before, y, rfl, hkey, hlast, hbefore⟩

/-- A key unit does not reach into the start code of another. -/
theorem not_reached_of_last {h264 : List UInt8} (h : OnlyKeyUnitLast h264) :
    ¬ HasReachedKeyUnit h264 := by
  obtain ⟨before, y, rfl, hkey, hlast, hnone⟩ := h
  rintro ⟨z, hz, front, back, heq, hreached⟩
  rcases List.append_eq_append_iff.mp heq with ⟨middle, hfront, hback⟩ | ⟨middle, hbefore, -⟩
  · obtain ⟨hzero, hone⟩ := isKeyframeNalType_ne hz
    -- what the two share ends in the header `z`, which is no byte of a start code
    have hlastMiddle : (front ++ [0, 0, 1, z]).getLast? = some z := by
      rw [List.getLast?_append]
      rfl
    match middle with
    | [] =>
      -- the key unit reached would lie in front of the last one
      rw [List.append_nil] at hfront
      exact hnone ⟨z, hz, front, [], by rw [List.append_nil, hfront]⟩
    | [a] | [a, b] | [a, b, c] =>
      rw [hfront, List.getLast?_append] at hlastMiddle
      grind
    | [a, b, c, d] =>
      -- it is the last one itself, which is not reached
      obtain rfl : back = [] := by
        have hlen := congrArg List.length hback
        simp only [List.length_append, List.length_cons, List.length_nil] at hlen
        exact List.eq_nil_of_length_eq_zero (by omega)
      rw [List.append_nil] at hback
      rw [← hback] at hfront
      have hsame := List.append_inj_left' hfront rfl
      exact hlast (hsame ▸ hreached.resolve_left fun hne => hne rfl)
    | a :: b :: c :: d :: e :: middle =>
      have hlen := congrArg List.length hback
      simp only [List.length_append, List.length_cons, List.length_nil] at hlen
      omega
  · exact hnone ⟨z, hz, front, middle, hbefore.symm⟩

/-- **The two scans agree**, except where the only key unit is one byte at the very end
behind a start code of three bytes with no zero before it. -/
theorem keyframe_agrees_iff (h264 : List UInt8) :
    detectKeyframe h264 = isKeyframeAccessUnit (splitAnnexB h264) ↔ ¬ OnlyKeyUnitLast h264 := by
  rw [Bool.eq_iff_iff, detectKeyframe_iff, browser_keyframe_iff]
  constructor
  · intro hagree hlast
    obtain ⟨before, y, rfl, hkey, -, -⟩ := id hlast
    exact not_reached_of_last hlast (hagree.mpr ⟨y, hkey, before, [], by rw [List.append_nil]⟩)
  · exact fun hnot => ⟨HasReachedKeyUnit.hasKeyUnit,
      fun hkey => (reached_or_last hkey).resolve_right hnot⟩

/-- An IDR slice of one byte behind a start code of three. -/
theorem keyframe_disagrees_short_idr :
    detectKeyframe [0, 0, 1, 0x65] ≠ isKeyframeAccessUnit (splitAnnexB [0, 0, 1, 0x65]) := by
  decide

/-! ## The flag in front of the frame -/

/-- The frame begins with `00 01`, which the flag completes to a start code, and the bytes
behind that are not taken up by a start code of their own. -/
def FlagOpensUnit (frame : VideoFrame) : Prop :=
  frame.keyframe = false ∧ ∃ b nal, frame.data = 0 :: 1 :: b :: nal ∧ opens (b :: nal) = false

theorem packVideoForWs_key {frame : VideoFrame} (h : frame.keyframe = true) :
    packVideoForWs frame = 1 :: frame.data := by
  rw [packVideoForWs, h, if_pos rfl]

theorem packVideoForWs_delta {frame : VideoFrame} (h : frame.keyframe = false) :
    packVideoForWs frame = 0 :: frame.data := by
  rw [packVideoForWs, h, if_neg nofun]

theorem opens_one (data : List UInt8) : opens (1 :: data) = false := by
  simp [opens, startsAt]

/-- Behind the start code that the flag completes, the frame's bytes make one unit more,
unless a start code follows at once. -/
theorem splitAnnexB_completed (b : UInt8) (nal : List UInt8) :
    splitAnnexB (0 :: 0 :: 1 :: b :: nal) = splitAnnexB (0 :: 1 :: b :: nal) ↔
      opens (b :: nal) = true := by
  have hdata : splitAnnexB (0 :: 1 :: b :: nal) = splitAnnexB (b :: nal) := by
    rw [splitAnnexB_cons (by simp [opens, startsAt]), splitAnnexB_cons (opens_one _)]
  rw [hdata, splitAnnexB_three, ← openedUnit_eq_nil_iff]
  exact List.append_left_eq_self

/-- **The browser's units are the frame's**, except where a flag that is zero completes a
start code. -/
theorem messageUnits_iff (frame : VideoFrame) :
    VideoPlayer.messageUnits (packVideoForWs frame) = splitAnnexB frame.data ↔
      ¬ FlagOpensUnit frame := by
  rw [VideoPlayer.messageUnits]
  by_cases hkey : frame.keyframe = true
  · rw [packVideoForWs_key hkey, splitAnnexB_cons (opens_one _)]
    refine iff_of_true rfl fun h => ?_
    exact absurd (hkey.symm.trans h.1) nofun
  · have hdelta := Bool.eq_false_iff.mpr hkey
    rw [packVideoForWs_delta hdelta]
    by_cases hopens : opens (0 :: frame.data) = true
    · rcases opens_cases hopens with ⟨b, nal, heq⟩ | ⟨nal, heq⟩
      · obtain ⟨-, hdata⟩ := List.cons.inj heq
        have hopened : FlagOpensUnit frame ↔ opens (b :: nal) = false := by
          simp [FlagOpensUnit, hdelta, hdata]
        rw [hopened, hdata, splitAnnexB_completed, Bool.not_eq_false]
      · -- the flag is the first zero of a start code of four bytes
        obtain ⟨-, hdata⟩ := List.cons.inj heq
        rw [hdata, splitAnnexB_four]
        refine iff_of_true rfl fun ⟨_, b, nal, hshape, _⟩ => ?_
        rw [hdata] at hshape
        cases hshape
    · rw [splitAnnexB_cons (Bool.eq_false_iff.mpr hopens)]
      refine iff_of_true rfl fun ⟨_, b, nal, hshape, _⟩ => ?_
      rw [hshape] at hopens
      exact hopens (opens_startCode .three (List.cons_ne_nil b nal))

/-- A payload whose frame is `00 01 05`, and a unit that the frame does not hold. -/
theorem messageUnits_of_zero_one :
    let frame : VideoFrame := { timestampUs := 7, data := [0, 1, 5], keyframe := false }
    parseVideoPayload [0, 0, 0, 0, 0, 0, 0, 7, 0, 1, 5] = .ok (some frame) ∧
      VideoPlayer.messageUnits (packVideoForWs frame) ≠ splitAnnexB frame.data := by
  exact ⟨rfl, by decide⟩

end Whutfa
