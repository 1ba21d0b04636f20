import Whutfa.JsString
import Whutfa.NalUnits

/-! # The browser's H.264 utilities

The functions of `frontend/h264.js`.  An `ArrayBuffer` is a byte list; an index outside
it reads as `undefined`, which is `none` here and equal to no byte, and is stored in a
`Uint8Array` as zero.
-/
namespace Whutfa.H264

open JsString (js)

/-- `findStart` returns at `j`. -/
def startsAt (view : List UInt8) (j : Nat) : Bool :=
  view[j]? == some 0 && view[j + 1]? == some 0 &&
    (view[j + 2]? == some 1 || view[j + 2]? == some 0 && view[j + 3]? == some 1)

/-- The first start code from `start` on, with a byte after it: the loop runs while
`j < len - 3`. -/
def findStart (view : List UInt8) (start : Nat) : Option Nat :=
  (List.range' start (view.length - 3 - start)).find? (startsAt view)

/-- The length of the start code at `pos`. -/
def startLen (view : List UInt8) (pos : Nat) : Nat :=
  if view[pos + 2]? = some 1 then 3 else 4

/-- The loop of `splitAnnexB`, from index `i`; it goes forward by a start code at least,
so that `fuel` need not exceed the buffer's length. -/
def splitFrom (view : List UInt8) : Nat → Nat → List (List UInt8)
  | 0, _ => []
  | fuel + 1, i =>
      if i < view.length then
        match findStart view i with
        | none => []
        | some start =>
            let nalStart := start + startLen view start
            let nalEnd := (findStart view nalStart).getD view.length
            (if nalStart < nalEnd then [(view.take nalEnd).drop nalStart] else []) ++
              splitFrom view fuel nalEnd
      else []

/-- `splitAnnexB`. -/
def splitAnnexB (buffer : List UInt8) : List (List UInt8) := splitFrom buffer buffer.length 0

/-- `nal[0] & 0x1f`. -/
def nalType (nal : List UInt8) : UInt8 := nal.headD 0 &&& 0x1f

/-- The last parameter sets of a frame, if it has any. -/
structure ParameterSets where
  sps : Option (List UInt8)
  pps : Option (List UInt8)
  deriving DecidableEq

/-- The last unit of each kind. -/
def extractSpsPps (units : List (List UInt8)) : ParameterSets :=
  { sps := units.reverse.find? (nalType · == 7), pps := units.reverse.find? (nalType · == 8) }

/-- The `avcC` description.  Its fifth byte sets `lengthSizeMinusOne` to 3. -/
def buildAvcDescription (sets : ParameterSets) : Option (List UInt8) :=
  match sets.sps, sets.pps with
  | some sps, some pps =>
      some ([1, sps[1]?.getD 0, sps[2]?.getD 0, sps[3]?.getD 0, 0xff, 0xe1,
          UInt8.ofNat (sps.length / 256), UInt8.ofNat sps.length] ++ sps ++
        [1, UInt8.ofNat (pps.length / 256), UInt8.ofNat pps.length] ++ pps)
  | _, _ => none

/-- `n.toString(16).padStart(2, "0")`. -/
def toHex (n : UInt8) : JsString :=
  let digit (d : Nat) : UInt16 := UInt16.ofNat (if d < 10 then 48 + d else 87 + d)
  [digit (n.toNat / 16), digit (n.toNat % 16)]

/-- `codecStringFromSps`; without four bytes of a set it falls back to a profile. -/
def codecStringFromSps (sps : Option (List UInt8)) : JsString :=
  match sps with
  | some (_ :: profile :: compatibility :: level :: _) =>
      js "avc1." ++ toHex profile ++ toHex compatibility ++ toHex level
  | _ => js "avc1.640028"

/-- `isKeyframeAccessUnit`: an IDR slice or a parameter set is among the units. -/
def isKeyframeAccessUnit (units : List (List UInt8)) : Bool :=
  units.any fun u => nalType u == 5 || nalType u == 7 || nalType u == 8

/-! ## The loop of the splitter -/

theorem findStart_bounds {view : List UInt8} {start pos : Nat}
    (h : findStart view start = some pos) : start ≤ pos ∧ pos + 3 < view.length := by
  have hmem := List.mem_range'_1.mp (List.mem_of_find?_eq_some h)
  omega

theorem lt_startLen (view : List UInt8) (pos : Nat) : 0 < startLen view pos := by
  unfold startLen
  split <;> decide

/-- The end of a unit lies after the point where the search for it began. -/
theorem lt_nalEnd {view : List UInt8} {i start : Nat} (h : findStart view i = some start) :
    i < (findStart view (start + startLen view start)).getD view.length := by
  obtain ⟨hle, hlt⟩ := findStart_bounds h
  have hpos := lt_startLen view start
  cases hnext : findStart view (start + startLen view start) with
  | none =>
    rw [Option.getD_none]
    omega
  | some next =>
    rw [Option.getD_some]
    have := (findStart_bounds hnext).1
    omega

/-- **The loop ends**: any fuel that covers what is left gives the same units. -/
theorem splitFrom_congr {view : List UInt8} {m n i : Nat} (hm : view.length - i ≤ m)
    (hn : view.length - i ≤ n) : splitFrom view m i = splitFrom view n i := by
  induction m generalizing n i with
  | zero =>
    cases n with
    | zero => rfl
    | succ n => rw [splitFrom, splitFrom, if_neg (by omega)]
  | succ m ih =>
    cases n with
    | zero => rw [splitFrom, splitFrom, if_neg (by omega)]
    | succ n =>
      unfold splitFrom
      split
      · split
        · rfl
        · rename_i start hstart
          have hlt := lt_nalEnd hstart
          exact congrArg (_ ++ ·) (ih (by omega) (by omega))
      · rfl

/-- The description says that lengths take four bytes. -/
theorem lengthSize_buildAvcDescription {sets : ParameterSets} {description : List UInt8}
    (h : buildAvcDescription sets = some description) : NalUnits.lengthSize description = 4 := by
  unfold buildAvcDescription at h
  split at h
  · obtain rfl := Option.some.inj h
    simp [NalUnits.lengthSize]
  · cases h

end Whutfa.H264
