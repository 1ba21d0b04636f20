import Mathlib.Tactic.FieldSimp
import Mathlib.Tactic.Linarith
import Whutfa.TouchPath

/-! # The pixel of a touch

`InputSource::dispatchTouch` and `InputSource::fillFeatures`
(`aa-handler/src/aa/Session.cpp`) behind the server's rounding to a pixel
(`server/src/index.ts`).  The server divides the pixel by the size again; the handler
clamps the fraction to the unit interval, both ends included, and scales it.  A fraction
of 1 is then the pixel next to the last one (`pixel_inside_iff`).
-/
namespace Whutfa

open CText (Double)

/-- `static_cast<uint32_t>`: truncation, `none` where the result is undefined. -/
def toUInt32 : Double → Option UInt32
  | .finite q =>
      let n := q.num.tdiv q.den
      if 0 ≤ n ∧ n < 4294967296 then some (UInt32.ofNat n.toNat) else none
  | _ => none

/-- `if (x < 0) x = 0; if (x > 1) x = 1;` -/
def clampNorm : Double → Double
  | .finite q =>
      let q := if q < 0 then 0 else q
      .finite (if 1 < q then 1 else q)
  | .infinity neg => .finite (if neg then 0 else 1)
  | .nan => .nan

/-- The product with a size. -/
def scaleBy (size : UInt32) : Double → Double
  | .finite q => .finite (q * size.toNat)
  | .infinity neg => if size = 0 then .nan else .infinity neg
  | .nan => .nan

/-- An `InputReport` with one touch event of one pointer. -/
structure InputReport where
  timestamp : UInt64
  action : PointerAction
  actionIndex : UInt32
  x : UInt32
  y : UInt32
  pointerId : UInt32

/-- The touchscreen in the service discovery response. -/
structure TouchScreen where
  width : Int32
  height : Int32

/-- What `fillFeatures` advertises. -/
def fillFeatures (videoWidth videoHeight : UInt32) : TouchScreen :=
  { width := videoWidth.toInt32, height := videoHeight.toInt32 }

/-- `InputSource::dispatchTouch`: the position in pixels, clamped to the screen. -/
def dispatchTouch (videoWidth videoHeight : UInt32) (ts : UInt64) (touch : TouchCall) :
    Except UndefinedBehaviour InputReport :=
  match toUInt32 (scaleBy videoWidth (clampNorm touch.x)),
      toUInt32 (scaleBy videoHeight (clampNorm touch.y)) with
  | some ax, some ay =>
      .ok { timestamp := ts, action := dispatchAction touch.action, actionIndex := 0
            x := ax, y := ay, pointerId := 0 }
  | _, _ => .error .undefinedBehaviour

/-- The touch that the server passes on: the nearest pixel as a fraction of the size. -/
def roundedTouch (videoWidth videoHeight : UInt32) (x y : ℚ) (action : Int) : TouchCall :=
  { x := .finite (mathRound (x * videoWidth.toNat) / videoWidth.toNat)
    y := .finite (mathRound (y * videoHeight.toNat) / videoHeight.toNat)
    action }

/-- The pixel is one of a picture of this size. -/
def InputReport.Inside (r : InputReport) (width height : Int) : Prop :=
  0 ≤ (r.x.toNat : Int) ∧ (r.x.toNat : Int) < width ∧
    0 ≤ (r.y.toNat : Int) ∧ (r.y.toNat : Int) < height

/-! ## Scaling -/

/-- A whole number in range is cast to itself. -/
theorem toUInt32_natCast {n : Nat} (hn : n < 4294967296) :
    toUInt32 (.finite (n : ℚ)) = some (UInt32.ofNat n) := by
  have htdiv : (n : ℚ).num.tdiv (n : ℚ).den = n := by simp
  simp only [toUInt32, htdiv]
  rw [if_pos ⟨Int.natCast_nonneg n, by omega⟩, Int.toNat_natCast]

/-- A pixel's fraction is scaled back to the pixel, or to one of the two ends. -/
theorem scaleBy_clampNorm {size : UInt32} (hsize : 0 < size.toNat) (n : Int) :
    scaleBy size (clampNorm (.finite (n / (size.toNat : ℚ)))) =
      .finite ((min n.toNat size.toNat : Nat) : ℚ) := by
  have hpos : (0 : ℚ) < size.toNat := by exact_mod_cast hsize
  have hneg : (n : ℚ) / size.toNat < 0 ↔ n < 0 := by
    rw [div_lt_iff₀ hpos, zero_mul]
    exact_mod_cast Iff.rfl
  have hover : 1 < (n : ℚ) / size.toNat ↔ (size.toNat : Int) < n := by
    rw [lt_div_iff₀ hpos, one_mul]
    exact_mod_cast Iff.rfl
  simp only [clampNorm, scaleBy, hneg]
  by_cases hzero : n < 0
  · -- left of the picture
    have hmin : min n.toNat size.toNat = 0 := by omega
    simp [hzero, hmin]
  · rw [if_neg hzero]
    by_cases hright : (size.toNat : Int) < n
    · -- right of it: the fraction is 1
      have hmin : min n.toNat size.toNat = size.toNat := by omega
      rw [if_pos (hover.mpr hright), one_mul, hmin]
    · have hmin : min n.toNat size.toNat = n.toNat := by omega
      have hnat : ((n.toNat : Nat) : ℚ) = (n : ℚ) := by
        exact_mod_cast Int.toNat_of_nonneg (not_lt.mp hzero)
      rw [if_neg fun h => hright (hover.mp h), hmin, hnat, div_mul_cancel₀ _ (ne_of_gt hpos)]

/-- The pixel that a coordinate ends up at. -/
def pixel (size : UInt32) (q : ℚ) : Nat := min (mathRound (q * size.toNat)).toNat size.toNat

theorem pixel_le (size : UInt32) (q : ℚ) : pixel size q ≤ size.toNat := Nat.min_le_right _ _

theorem toUInt32_pixel {size : UInt32} (hsize : 1 ≤ size) (q : ℚ) :
    toUInt32 (scaleBy size (clampNorm (.finite (mathRound (q * size.toNat) / size.toNat)))) =
      some (UInt32.ofNat (pixel size q)) := by
  have hpos : 0 < size.toNat := UInt32.le_iff_toNat_le.mp hsize
  rw [scaleBy_clampNorm hpos]
  exact toUInt32_natCast (Nat.lt_of_le_of_lt (pixel_le size q) size.toNat_lt)

theorem toNat_ofNat_pixel (size : UInt32) (q : ℚ) :
    (UInt32.ofNat (pixel size q)).toNat = pixel size q :=
  UInt32.toNat_ofNat_of_lt (Nat.lt_of_le_of_lt (pixel_le size q) size.toNat_lt)

/-- `dispatchTouch` reports the pixels of the rounded coordinates. -/
theorem dispatchTouch_rounded {w h : UInt32} (hw : 1 ≤ w) (hh : 1 ≤ h) (ts : UInt64) (x y : ℚ)
    (action : Int) :
    dispatchTouch w h ts (roundedTouch w h x y action) =
      .ok { timestamp := ts, action := dispatchAction action, actionIndex := 0
            x := UInt32.ofNat (pixel w x), y := UInt32.ofNat (pixel h y), pointerId := 0 } := by
  simp only [dispatchTouch, roundedTouch, toUInt32_pixel hw, toUInt32_pixel hh]

/-! ## The last pixel -/

/-- Half a pixel from the end, the rounding goes to the end itself. -/
theorem pixel_lt_iff {size : UInt32} (hsize : 1 ≤ size) (q : ℚ) :
    pixel size q < size.toNat ↔ q < 1 - 1 / (2 * size.toNat) := by
  have hpos : 0 < size.toNat := UInt32.le_iff_toNat_le.mp hsize
  have hsize' : (0 : ℚ) < size.toNat := by exact_mod_cast hpos
  have hround : pixel size q < size.toNat ↔ mathRound (q * size.toNat) < size.toNat := by
    unfold pixel
    omega
  have hscale : (1 - 1 / (2 * (size.toNat : ℚ))) * size.toNat = size.toNat - 1 / 2 := by
    field_simp
  rw [hround, mathRound, Int.floor_lt, Int.cast_natCast,
    ← mul_lt_mul_iff_of_pos_right (b := q) hsize', hscale]
  constructor
  · intro h
    linarith
  · intro h
    linarith

/-- A side of the advertised touchscreen wraps around at 2^31. -/
theorem toInt_toInt32 (size : UInt32) : size.toInt32.toInt =
    if size.toNat < 2147483648 then (size.toNat : Int) else size.toNat - 4294967296 := by
  have hsigned : size.toInt32.toInt = size.toBitVec.toInt := rfl
  rw [hsigned, BitVec.toInt_eq_toNat_cond]
  by_cases hsize : size.toNat < 2147483648
  · rw [if_pos hsize, if_pos (by show 2 * size.toNat < 4294967296; omega)]
    rfl
  · rw [if_neg hsize, if_neg (by show ¬ 2 * size.toNat < 4294967296; omega)]
    rfl

/-- **The pixel is on the screen exactly when the touch is half a pixel inside it.**  For
every size and every touch, anywhere: the pixel is inside the picture if and only if the
touch is more than half a pixel left of its right edge and above its lower one; the
touchscreen that is advertised is the picture while its sides are below 2^31. -/
theorem pixel_inside_iff {w h : UInt32} (hw : 1 ≤ w) (hh : 1 ≤ h) (ts : UInt64) (x y : ℚ)
    (action : Int) :
    ∃ report, dispatchTouch w h ts (roundedTouch w h x y action) = .ok report ∧
      (report.Inside w.toNat h.toNat ↔
        x < 1 - 1 / (2 * w.toNat) ∧ y < 1 - 1 / (2 * h.toNat)) ∧
      (report.Inside (fillFeatures w h).width.toInt (fillFeatures w h).height.toInt ↔
        (x < 1 - 1 / (2 * w.toNat) ∧ y < 1 - 1 / (2 * h.toNat)) ∧
          w.toNat < 2147483648 ∧ h.toNat < 2147483648) := by
  refine ⟨_, dispatchTouch_rounded hw hh ts x y action, ?_, ?_⟩
  · simp only [InputReport.Inside, toNat_ofNat_pixel]
    rw [← pixel_lt_iff hw, ← pixel_lt_iff hh]
    omega
  · have hx := pixel_le w x
    have hy := pixel_le h y
    have hwlt := w.toNat_lt
    have hhlt := h.toNat_lt
    simp only [InputReport.Inside, toNat_ofNat_pixel, fillFeatures, toInt_toInt32]
    rw [← pixel_lt_iff hw, ← pixel_lt_iff hh]
    split_ifs <;> omega

/-- A touch at the right edge of a picture of 1280 by 720 is reported at pixel 1280. -/
theorem right_edge_outside :
    ∃ report, dispatchTouch 1280 720 0 (roundedTouch 1280 720 1 (1 / 2) 0) = .ok report ∧
      report.x = 1280 ∧ report.y = 360 ∧ ¬ report.Inside 1280 720 := by
  have hx : UInt32.ofNat (pixel 1280 1) = 1280 := by decide +kernel
  have hy : UInt32.ofNat (pixel 720 (1 / 2)) = 360 := by decide +kernel
  refine ⟨_, dispatchTouch_rounded (by decide) (by decide) 0 1 (1 / 2) 0, hx, hy, fun h => ?_⟩
  have hlt := h.2.1
  rw [hx] at hlt
  exact absurd hlt (by decide)

/-- One in the middle is inside. -/
theorem pixel_inside_iff_center :
    ∃ report, dispatchTouch 1280 720 0 (roundedTouch 1280 720 (1 / 2) (1 / 2) 0) = .ok report ∧
      report.Inside 1280 720 := by
  obtain ⟨report, hreport, hinside, -⟩ := pixel_inside_iff (w := 1280) (h := 720) (by decide)
    (by decide) 0 (1 / 2) (1 / 2) 0
  refine ⟨report, hreport, hinside.mpr ?_⟩
  show (1 / 2 : ℚ) < 1 - 1 / (2 * (1280 : Nat)) ∧ (1 / 2 : ℚ) < 1 - 1 / (2 * (720 : Nat))
  norm_num

end Whutfa
