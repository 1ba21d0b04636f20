import Whutfa.JsString

/-! # Percent-encoded text

JavaScript's `encodeURIComponent`, the query of a URL, and what `URLSearchParams` reads: a
query is split at `&` and at the first `=`, `+` is a space, `%` and two hexadecimal digits
are a byte, and the bytes are decoded as UTF-8, with U+FFFD for what is none.

What is read is well-formed (`toWellFormed_searchParamsGet`), and a value that was encoded
is read back from the URL it was put in (`searchParamsGet_urlQuery`).

The decoder of UTF-8 is the incremental one of the Encoding Standard: it keeps a code point
that has begun (`Pending`), with the bounds that the next byte is held to, and a byte that
does not fit ends it with U+FFFD and is looked at again.
-/
namespace UrlEncoded

open JsString

/-! ## Decoding UTF-8

A byte at a time: one that cannot follow gives a replacement character for what has begun, and
is looked at once more. -/

/-- A code point that has begun: how many bytes it needs, its bits so far, and the bounds
of the next byte. -/
structure Pending where
  needed : Nat
  point : Nat
  lower : Nat
  upper : Nat

/-- A byte in front of which nothing has begun. -/
def lead (b : Nat) : Nat ⊕ Pending :=
  if b < 0x80 then .inl b
  else if 0xC2 ≤ b ∧ b ≤ 0xDF then .inr ⟨1, b - 0xC0, 0x80, 0xBF⟩
  else if 0xE0 ≤ b ∧ b ≤ 0xEF then
    .inr ⟨2, b - 0xE0, if b = 0xE0 then 0xA0 else 0x80, if b = 0xED then 0x9F else 0xBF⟩
  else if 0xF0 ≤ b ∧ b ≤ 0xF4 then
    .inr ⟨3, b - 0xF0, if b = 0xF0 then 0x90 else 0x80, if b = 0xF4 then 0x8F else 0xBF⟩
  else .inl 0xFFFD

/-- The code points of some bytes. -/
def decodePoints : Option Pending → List UInt8 → List Nat
  | none, [] => []
  | some _, [] => [0xFFFD]
  | none, b :: bs =>
      match lead b.toNat with
      | .inl n => n :: decodePoints none bs
      | .inr p => decodePoints (some p) bs
  | some p, b :: bs =>
      if p.lower ≤ b.toNat ∧ b.toNat ≤ p.upper then
        let point := p.point * 0x40 + b.toNat % 0x40
        if p.needed = 1 then point :: decodePoints none bs
        else decodePoints (some ⟨p.needed - 1, point, 0x80, 0xBF⟩) bs
      else
        -- the byte is read once more
        match lead b.toNat with
        | .inl n => 0xFFFD :: n :: decodePoints none bs
        | .inr p => 0xFFFD :: decodePoints (some p) bs

/-- The text of some bytes; what is no UTF-8 becomes the replacement character. -/
def utf8Decode (bytes : List UInt8) : JsString := (decodePoints none bytes).flatMap pointUnits

/-- A code point that is no surrogate. -/
def IsScalar (n : Nat) : Prop := n < 0xD800 ∨ 0xE000 ≤ n ∧ n < 0x110000

section

variable {b needed point lower upper : Nat} (bs : List UInt8)

theorem toNat_ofNat (hb : b < 256) : (UInt8.ofNat b).toNat = b := by
  rw [UInt8.toNat_ofNat']
  exact Nat.mod_eq_of_lt hb

theorem decodePoints_lead {p : Pending} (hb : b < 256) (h : lead b = .inr p) :
    decodePoints none (UInt8.ofNat b :: bs) = decodePoints (some p) bs := by
  rw [decodePoints, toNat_ofNat hb, h]

/-- A byte that is not the last. -/
theorem decodePoints_next (hb : b < 256) (h : lower ≤ b ∧ b ≤ upper) :
    decodePoints (some ⟨needed + 2, point, lower, upper⟩) (UInt8.ofNat b :: bs) =
      decodePoints (some ⟨needed + 1, point * 0x40 + b % 0x40, 0x80, 0xBF⟩) bs := by
  rw [decodePoints, toNat_ofNat hb, if_pos h, if_neg (by simp)]
  rfl

/-- The last byte. -/
theorem decodePoints_last (hb : b < 256) (h : lower ≤ b ∧ b ≤ upper) :
    decodePoints (some ⟨1, point, lower, upper⟩) (UInt8.ofNat b :: bs) =
      (point * 0x40 + b % 0x40) :: decodePoints none bs := by
  rw [decodePoints, toNat_ofNat hb, if_pos h, if_pos rfl]

end

/-- **The bytes of a code point are decoded to it.** -/
theorem decodePoints_utf8Point {n : Nat} (hn : IsScalar n) (bs : List UInt8) :
    decodePoints none (utf8Point n ++ bs) = n :: decodePoints none bs := by
  unfold IsScalar at hn
  unfold utf8Point
  split_ifs with h1 h2 h3
  · have hlead : lead n = .inl n := if_pos h1
    rw [List.cons_append, decodePoints, toNat_ofNat (by omega), hlead]
    rfl
  · have hlead : lead (0xC0 + n / 0x40) = .inr ⟨1, n / 0x40, 0x80, 0xBF⟩ := by
      rw [lead, if_neg (by omega), if_pos (by omega), Nat.add_sub_cancel_left]
    rw [List.cons_append, decodePoints_lead _ (by omega) hlead, List.cons_append,
      decodePoints_last _ (by omega) (by omega)]
    congr 1
    omega
  · have hlead : lead (0xE0 + n / 0x1000) =
        .inr ⟨2, n / 0x1000, if 0xE0 + n / 0x1000 = 0xE0 then 0xA0 else 0x80,
          if 0xE0 + n / 0x1000 = 0xED then 0x9F else 0xBF⟩ := by
      rw [lead, if_neg (by omega), if_neg (by omega), if_pos (by omega), Nat.add_sub_cancel_left]
    have hsecond : (if 0xE0 + n / 0x1000 = 0xE0 then 0xA0 else 0x80) ≤ 0x80 + n / 0x40 % 0x40 ∧
        0x80 + n / 0x40 % 0x40 ≤ if 0xE0 + n / 0x1000 = 0xED then 0x9F else 0xBF := by
      constructor <;> split <;> omega
    rw [List.cons_append, decodePoints_lead _ (by omega) hlead, List.cons_append,
      decodePoints_next _ (by omega) hsecond, List.cons_append,
      decodePoints_last _ (by omega) (by omega)]
    congr 1
    omega
  · have hlead : lead (0xF0 + n / 0x40000) =
        .inr ⟨3, n / 0x40000, if 0xF0 + n / 0x40000 = 0xF0 then 0x90 else 0x80,
          if 0xF0 + n / 0x40000 = 0xF4 then 0x8F else 0xBF⟩ := by
      rw [lead, if_neg (by omega), if_neg (by omega), if_neg (by omega), if_pos (by omega),
        Nat.add_sub_cancel_left]
    have hsecond : (if 0xF0 + n / 0x40000 = 0xF0 then 0x90 else 0x80) ≤
          0x80 + n / 0x1000 % 0x40 ∧
        0x80 + n / 0x1000 % 0x40 ≤ if 0xF0 + n / 0x40000 = 0xF4 then 0x8F else 0xBF := by
      constructor <;> split <;> omega
    rw [List.cons_append, decodePoints_lead _ (by omega) hlead, List.cons_append,
      decodePoints_next _ (by omega) hsecond, List.cons_append,
      decodePoints_next _ (by omega) (by omega), List.cons_append,
      decodePoints_last _ (by omega) (by omega)]
    congr 1
    omega

theorem points_isScalar (s : JsString) : ∀ n ∈ points s, IsScalar n := by
  have hlone : ∀ c : UInt16, IsScalar (replaceLone c).toNat := by
    intro c
    have hlt := c.toNat_lt
    unfold replaceLone IsScalar
    split
    · decide
    · rename_i hnot
      simp only [isHigh, isLow, Bool.or_eq_true, Bool.and_eq_true, decide_eq_true_eq,
        UInt16.le_iff_toNat_le] at hnot
      have hD8 : (0xD800 : UInt16).toNat = 0xD800 := rfl
      have hDB : (0xDBFF : UInt16).toNat = 0xDBFF := rfl
      have hDC : (0xDC00 : UInt16).toNat = 0xDC00 := rfl
      have hDF : (0xDFFF : UInt16).toNat = 0xDFFF := rfl
      omega
  induction s using utf8.induct with
  | case1 => exact List.forall_mem_nil _
  | case2 c =>
    rw [points, List.forall_mem_singleton]
    exact hlone c
  | case3 c d s hpair ih =>
    rw [points, if_pos hpair, List.forall_mem_cons]
    obtain ⟨hc, hc', hd, hd'⟩ := pair_bounds hpair
    refine ⟨Or.inr ⟨?_, ?_⟩, ih⟩
    · unfold pairPoint
      omega
    · unfold pairPoint
      omega
  | case4 c d s hpair ih =>
    rw [points, if_neg hpair, List.forall_mem_cons]
    exact ⟨hlone c, ih⟩

/-- **What was written is decoded**, but for unpaired surrogates. -/
theorem utf8Decode_utf8 (s : JsString) : utf8Decode (utf8 s) = toWellFormed s := by
  have hpoints : ∀ ns : List Nat, (∀ n ∈ ns, IsScalar n) →
      decodePoints none (ns.flatMap utf8Point) = ns := by
    intro ns hns
    induction ns with
    | nil => rfl
    | cons n ns ih =>
      rw [List.forall_mem_cons] at hns
      rw [List.flatMap_cons, decodePoints_utf8Point hns.1, ih hns.2]
  rw [utf8Decode, utf8_eq_flatMap, hpoints _ (points_isScalar s), toWellFormed_eq_flatMap]

/-- What is decoded from here on is no surrogate. -/
def Pending.Scalar (p : Pending) : Prop :=
  ∀ b, p.lower ≤ b → b ≤ p.upper →
    let point := p.point * 0x40 + b % 0x40
    p.needed = 1 ∧ IsScalar point ∨
      p.needed = 2 ∧ (point < 0x360 ∨ 0x380 ≤ point ∧ point < 0x4400) ∨
      p.needed = 3 ∧ (point < 0xD ∨ 0xE ≤ point ∧ point < 0x110)

theorem lead_scalar {b : Nat} : (∀ n, lead b = .inl n → IsScalar n) ∧
    ∀ p, lead b = .inr p → p.Scalar := by
  by_cases h1 : b < 0x80
  · rw [lead, if_pos h1]
    refine ⟨?_, nofun⟩
    rintro n ⟨⟩
    exact Or.inl (by omega)
  rw [lead, if_neg h1]
  by_cases h2 : 0xC2 ≤ b ∧ b ≤ 0xDF
  · rw [if_pos h2]
    refine ⟨nofun, ?_⟩
    rintro p ⟨⟩ b' hlower hupper
    refine Or.inl ⟨rfl, Or.inl ?_⟩
    dsimp only at hlower hupper ⊢
    omega
  rw [if_neg h2]
  by_cases h3 : 0xE0 ≤ b ∧ b ≤ 0xEF
  · rw [if_pos h3]
    refine ⟨nofun, ?_⟩
    rintro p ⟨⟩ b' hlower hupper
    refine Or.inr (Or.inl ⟨rfl, ?_⟩)
    dsimp only at hlower hupper ⊢
    -- no surrogate begins with ED
    by_cases hED : b = 0xED
    · rw [if_pos hED] at hupper
      rw [if_neg (by omega)] at hlower
      omega
    · rw [if_neg hED] at hupper
      have hlower' : 0x80 ≤ b' := by split at hlower <;> omega
      omega
  rw [if_neg h3]
  by_cases h4 : 0xF0 ≤ b ∧ b ≤ 0xF4
  · rw [if_pos h4]
    refine ⟨nofun, ?_⟩
    rintro p ⟨⟩ b' hlower hupper
    refine Or.inr (Or.inr ⟨rfl, ?_⟩)
    dsimp only at hlower hupper ⊢
    have hF0 : b = 0xF0 → 0x90 ≤ b' := fun heq => by rwa [if_pos heq] at hlower
    have hF4 : b = 0xF4 → b' ≤ 0x8F := fun heq => by rwa [if_pos heq] at hupper
    have hbounds : 0x80 ≤ b' ∧ b' ≤ 0xBF := by
      constructor
      · split at hlower <;> omega
      · split at hupper <;> omega
    omega
  rw [if_neg h4]
  refine ⟨?_, nofun⟩
  rintro n ⟨⟩
  exact Or.inr ⟨by omega, by omega⟩

theorem decodePoints_isScalar (pending : Option Pending) (bytes : List UInt8)
    (h : ∀ p, pending = some p → p.Scalar) : ∀ n ∈ decodePoints pending bytes, IsScalar n := by
  have hreplaced : IsScalar 0xFFFD := Or.inr ⟨by omega, by omega⟩
  fun_induction decodePoints pending bytes with
  | case1 => exact List.forall_mem_nil _
  | case2 p => exact List.forall_mem_singleton.mpr hreplaced
  | case3 b bs n hlead ih =>
    exact List.forall_mem_cons.mpr ⟨lead_scalar.1 n hlead, ih nofun⟩
  | case4 b bs p hlead ih =>
    refine ih fun p' heq => ?_
    rw [← Option.some.inj heq]
    exact lead_scalar.2 p hlead
  | case5 p b bs hbounds point hlast ih =>
    refine List.forall_mem_cons.mpr ⟨?_, ih nofun⟩
    rcases h p rfl b.toNat hbounds.1 hbounds.2 with ⟨-, hpoint⟩ | ⟨hneeded, -⟩ | ⟨hneeded, -⟩
    · exact hpoint
    · omega
    · omega
  | case6 p b bs hbounds point hlast ih =>
    refine ih fun p' heq => ?_
    rw [← Option.some.inj heq]
    intro b' hlower hupper
    have hpoint := h p rfl b.toNat hbounds.1 hbounds.2
    dsimp only at hpoint hlower hupper ⊢
    unfold IsScalar
    omega
  | case7 p b bs hbounds n hlead ih =>
    refine List.forall_mem_cons.mpr ⟨hreplaced, List.forall_mem_cons.mpr ⟨?_, ih nofun⟩⟩
    exact lead_scalar.1 n hlead
  | case8 p b bs hbounds p' hlead ih =>
    refine List.forall_mem_cons.mpr ⟨hreplaced, ih fun p'' heq => ?_⟩
    rw [← Option.some.inj heq]
    exact lead_scalar.2 p' hlead

theorem points_pair {h l : Nat} (hhigh : 0xD800 ≤ h ∧ h ≤ 0xDBFF)
    (hlow : 0xDC00 ≤ l ∧ l ≤ 0xDFFF) (s : JsString) :
    points (UInt16.ofNat h :: UInt16.ofNat l :: s) =
      (0x10000 + (h - 0xD800) * 0x400 + (l - 0xDC00)) :: points s := by
  have hhighValue : (UInt16.ofNat h).toNat = h := by
    rw [UInt16.toNat_ofNat']
    exact Nat.mod_eq_of_lt (by omega)
  have hlowValue : (UInt16.ofNat l).toNat = l := by
    rw [UInt16.toNat_ofNat']
    exact Nat.mod_eq_of_lt (by omega)
  have hpair : (isHigh (UInt16.ofNat h) && isLow (UInt16.ofNat l)) = true := by
    simp only [isHigh, isLow, Bool.and_eq_true, decide_eq_true_eq, UInt16.le_iff_toNat_le,
      hhighValue, hlowValue]
    exact ⟨hhigh, hlow⟩
  rw [points, if_pos hpair]
  unfold pairPoint
  rw [hhighValue, hlowValue]

/-- The units of a scalar are its only point. -/
theorem points_pointUnits {n : Nat} (hn : IsScalar n) (s : JsString) :
    points (pointUnits n ++ s) = n :: points s := by
  unfold IsScalar at hn
  unfold pointUnits
  split_ifs with hsmall
  · have hvalue : (UInt16.ofNat n).toNat = n := by
      rw [UInt16.toNat_ofNat']
      exact Nat.mod_eq_of_lt hsmall
    have hhigh : isHigh (UInt16.ofNat n) = false := by
      simp only [isHigh, Bool.and_eq_false_iff, decide_eq_false_iff_not, UInt16.le_iff_toNat_le,
        hvalue]
      show ¬ 0xD800 ≤ n ∨ ¬ n ≤ 0xDBFF
      omega
    have hlow : isLow (UInt16.ofNat n) = false := by
      simp only [isLow, Bool.and_eq_false_iff, decide_eq_false_iff_not, UInt16.le_iff_toNat_le,
        hvalue]
      show ¬ 0xDC00 ≤ n ∨ ¬ n ≤ 0xDFFF
      omega
    have hsame : replaceLone (UInt16.ofNat n) = UInt16.ofNat n := by
      rw [replaceLone, hhigh, hlow]
      rfl
    cases s with
    | nil =>
      show [(replaceLone (UInt16.ofNat n)).toNat] = [n]
      rw [hsame, hvalue]
    | cons d s =>
      rw [List.cons_append, List.nil_append, points, hhigh, Bool.false_and, hsame, hvalue]
      rfl
  · have hpoint : ∀ h l, h = 0xD800 + (n - 0x10000) / 0x400 → l = 0xDC00 + (n - 0x10000) % 0x400 →
        points (UInt16.ofNat h :: UInt16.ofNat l :: s) = n :: points s := by
      intro h l hh hl
      rw [points_pair (by omega) (by omega)]
      refine congrArg (· :: points s) ?_
      omega
    exact hpoint _ _ rfl rfl

/-- What is decoded is well-formed. -/
theorem toWellFormed_utf8Decode (bytes : List UInt8) :
    toWellFormed (utf8Decode bytes) = utf8Decode bytes := by
  have hpoints : ∀ ns : List Nat, (∀ n ∈ ns, IsScalar n) → points (ns.flatMap pointUnits) = ns := by
    intro ns hns
    induction ns with
    | nil => rfl
    | cons n ns ih =>
      rw [List.forall_mem_cons] at hns
      rw [List.flatMap_cons, points_pointUnits hns.1, ih hns.2]
  rw [toWellFormed_eq_flatMap, utf8Decode, hpoints _ (decodePoints_isScalar none bytes nofun)]

/-! ## Percent-encoding

On bytes; the units of an encoded text are its bytes. -/

/-- The bytes that `encodeURIComponent` leaves as they are. -/
def isUnreserved (b : UInt8) : Bool :=
  (0x30 ≤ b && b ≤ 0x39) || (0x41 ≤ b && b ≤ 0x5A) || (0x61 ≤ b && b ≤ 0x7A) ||
    b ∈ [0x2D, 0x5F, 0x2E, 0x21, 0x7E, 0x2A, 0x27, 0x28, 0x29]

/-- An upper-case hexadecimal digit. -/
def hexDigit (n : Nat) : UInt8 := UInt8.ofNat (if n < 10 then 0x30 + n else 0x37 + n)

/-- What a hexadecimal digit stands for. -/
def hexValue (b : UInt8) : Option Nat :=
  if 0x30 ≤ b ∧ b ≤ 0x39 then some (b.toNat - 0x30)
  else if 0x41 ≤ b ∧ b ≤ 0x46 then some (b.toNat - 0x37)
  else if 0x61 ≤ b ∧ b ≤ 0x66 then some (b.toNat - 0x57)
  else none

/-- A byte as it is, if it is one of those to keep, and else as `%` and two digits. -/
def encodeByte (keep : UInt8 → Bool) (b : UInt8) : List UInt8 :=
  if keep b then [b] else [0x25, hexDigit (b.toNat / 16), hexDigit (b.toNat % 16)]

/-- ASCII text, of its bytes. -/
def units (bytes : List UInt8) : JsString := bytes.map fun b => UInt16.ofNat b.toNat

/-- The bytes with their percent escapes taken out; a percent sign alone stays. -/
def percentDecode : List UInt8 → List UInt8
  | b :: h :: l :: bs =>
      match hexValue h, hexValue l with
      | some high, some low =>
          if b = 0x25 then UInt8.ofNat (16 * high + low) :: percentDecode bs
          else b :: percentDecode (h :: l :: bs)
      | _, _ => b :: percentDecode (h :: l :: bs)
  | bs => bs

/-- `encodeURIComponent`; it throws when a surrogate is not paired. -/
def encodeURIComponent (s : JsString) : Option JsString :=
  if toWellFormed s = s then some (units ((utf8 s).flatMap (encodeByte isUnreserved))) else none

/-- The bytes that the query of an `http` or `ws` URL has as they are. -/
def isQueryByte (b : UInt8) : Bool :=
  0x21 ≤ b && b ≤ 0x7E && b ∉ [0x22, 0x23, 0x27, 0x3C, 0x3E]

/-- The query of a URL that was parsed. -/
def urlQuery (query : JsString) : JsString := units ((utf8 query).flatMap (encodeByte isQueryByte))

/-- A query that a URL has as it is. -/
def isQuery (query : JsString) : Bool := query.all fun c => isAscii c && isQueryByte (byte c)

/-- A name or a value, as `URLSearchParams` reads it. -/
def decodeComponent (bytes : List UInt8) : JsString :=
  utf8Decode (percentDecode (bytes.map fun b => if b = 0x2B then 0x20 else b))

/-- The pairs of a query. -/
def searchParams (query : JsString) : List (JsString × JsString) :=
  (((utf8 query).splitOn 0x26).filter (· ≠ [])).map fun pair =>
    (decodeComponent (pair.takeWhile (· ≠ 0x3D)),
      decodeComponent ((pair.dropWhile (· ≠ 0x3D)).drop 1))

/-- `new URLSearchParams(query).get(name)`. -/
def searchParamsGet (query name : JsString) : Option JsString :=
  ((searchParams query).find? (·.1 = name)).map (·.2)

/-! ## What is encoded is read back

Encoded text has letters, digits, a few marks and escapes, and none of these means anything to
the query's syntax or is changed by the URL parser. -/

/-- A byte that stands for itself, wherever it stands. -/
theorem percentDecode_cons {b : UInt8} (hb : b ≠ 0x25) (bs : List UInt8) :
    percentDecode (b :: bs) = b :: percentDecode bs := by
  cases bs with
  | nil => rfl
  | cons h bs =>
    cases bs with
    | nil => rfl
    | cons l bs =>
      rw [percentDecode]
      split
      · rw [if_neg hb]
      · rfl

theorem hexValue_hexDigit : ∀ n < 16, hexValue (hexDigit n) = some n := by decide

theorem isUnreserved_hexDigit : ∀ n < 16, isUnreserved (hexDigit n) = true := by decide

section

variable {keep : UInt8 → Bool} (hkeep : ∀ b, keep b = true → isUnreserved b = true)
include hkeep

theorem percentDecode_encodeByte (b : UInt8) (bs : List UInt8) :
    percentDecode (encodeByte keep b ++ bs) = b :: percentDecode bs := by
  unfold encodeByte
  split
  · rename_i hb
    refine percentDecode_cons (fun heq => ?_) bs
    rw [heq] at hb
    exact absurd (hkeep _ hb) (by decide)
  · have hlt := b.toNat_lt
    have hwhole : 16 * (b.toNat / 16) + b.toNat % 16 = b.toNat := by omega
    rw [List.cons_append, List.cons_append, List.cons_append, List.nil_append, percentDecode,
      hexValue_hexDigit _ (by omega), hexValue_hexDigit _ (by omega)]
    simp only [if_true]
    rw [hwhole, UInt8.ofNat_toNat]

theorem percentDecode_flatMap (bytes : List UInt8) :
    percentDecode (bytes.flatMap (encodeByte keep)) = bytes := by
  induction bytes with
  | nil => rfl
  | cons b bytes ih => rw [List.flatMap_cons, percentDecode_encodeByte hkeep, ih]

/-- A byte of encoded text is kept, `%`, or a digit. -/
theorem unreserved_of_mem {bytes : List UInt8} {b : UInt8}
    (h : b ∈ bytes.flatMap (encodeByte keep)) : isUnreserved b = true ∨ b = 0x25 := by
  obtain ⟨c, -, hb⟩ := List.mem_flatMap.mp h
  have hlt := c.toNat_lt
  unfold encodeByte at hb
  split at hb
  · rename_i hc
    rw [List.mem_singleton.mp hb]
    exact Or.inl (hkeep c hc)
  · simp only [List.mem_cons, List.not_mem_nil, or_false] at hb
    rcases hb with rfl | rfl | rfl
    · exact Or.inr rfl
    · exact Or.inl (isUnreserved_hexDigit _ (by omega))
    · exact Or.inl (isUnreserved_hexDigit _ (by omega))

/-- No byte of encoded text separates or is decoded to something else. -/
theorem plain_of_mem {bytes : List UInt8} {b : UInt8}
    (h : b ∈ bytes.flatMap (encodeByte keep)) : b ≠ 0x26 ∧ b ≠ 0x3D ∧ b ≠ 0x2B ∧ b < 0x80 := by
  have hencoded := unreserved_of_mem hkeep h
  have hne : ∀ c : UInt8, isUnreserved c = false → c ≠ 0x25 → b ≠ c := by
    rintro c hc hpercent rfl
    rcases hencoded with hb | hb
    · rw [hb] at hc
      cases hc
    · exact hpercent hb
  refine ⟨hne _ (by decide) (by decide), hne _ (by decide) (by decide),
    hne _ (by decide) (by decide), ?_⟩
  rcases hencoded with hb | rfl
  · simp only [isUnreserved, Bool.or_eq_true, Bool.and_eq_true, decide_eq_true_eq,
      List.mem_cons, List.not_mem_nil, or_false, UInt8.le_iff_toNat_le, UInt8.ext_iff] at hb
    rw [UInt8.lt_iff_toNat_lt]
    simp at hb ⊢
    omega
  · decide

theorem decodeComponent_flatMap {s : JsString} (hs : toWellFormed s = s) :
    decodeComponent ((utf8 s).flatMap (encodeByte keep)) = s := by
  have hplus : ((utf8 s).flatMap (encodeByte keep)).map (fun b => if b = 0x2B then 0x20 else b) =
      (utf8 s).flatMap (encodeByte keep) := by
    conv_rhs => rw [← List.map_id ((utf8 s).flatMap (encodeByte keep))]
    exact List.map_congr_left fun b hb => if_neg (plain_of_mem hkeep hb).2.2.1
  rw [decodeComponent, hplus, percentDecode_flatMap hkeep, utf8Decode_utf8, hs]

end

/-- ASCII text that is made of its bytes. -/
theorem utf8_units {bytes : List UInt8} (h : ∀ b ∈ bytes, b < 0x80) :
    utf8 (units bytes) = bytes := by
  have hvalue : ∀ b : UInt8, (UInt16.ofNat b.toNat).toNat = b.toNat := by
    intro b
    have hlt := b.toNat_lt
    rw [UInt16.toNat_ofNat']
    omega
  rw [units, utf8_eq_map_of_ascii, List.map_map]
  · have hbyte : ∀ b ∈ bytes, (byte ∘ fun b => UInt16.ofNat b.toNat) b = b := by
      intro b _
      show UInt8.ofNat (UInt16.ofNat b.toNat).toNat = b
      rw [hvalue, UInt8.ofNat_toNat]
    exact (List.map_congr_left hbyte).trans (List.map_id _)
  · intro c hc
    obtain ⟨b, hb, rfl⟩ := List.mem_map.mp hc
    have hlt := UInt8.lt_iff_toNat_lt.mp (h b hb)
    simp only [isAscii, decide_eq_true_eq, UInt16.lt_iff_toNat_lt, hvalue]
    exact hlt

/-- A name and a value that were encoded are one pair. -/
theorem searchParams_flatMap {keep : UInt8 → Bool}
    (hkeep : ∀ b, keep b = true → isUnreserved b = true) {name value : JsString}
    (hname : toWellFormed name = name) (hvalue : toWellFormed value = value) :
    searchParams (units ((utf8 name).flatMap (encodeByte keep) ++
      0x3D :: (utf8 value).flatMap (encodeByte keep))) = [(name, value)] := by
  let front := (utf8 name).flatMap (encodeByte keep)
  let back := (utf8 value).flatMap (encodeByte keep)
  have hfront : ∀ b ∈ front, b ≠ 0x26 ∧ b ≠ 0x3D ∧ b ≠ 0x2B ∧ b < 0x80 := fun b hb =>
    plain_of_mem hkeep hb
  have hback : ∀ b ∈ back, b ≠ 0x26 ∧ b ≠ 0x3D ∧ b ≠ 0x2B ∧ b < 0x80 := fun b hb =>
    plain_of_mem hkeep hb
  have hbytes : utf8 (units (front ++ 0x3D :: back)) = front ++ 0x3D :: back := by
    refine utf8_units (List.forall_mem_append.mpr ⟨fun b hb => (hfront b hb).2.2.2, ?_⟩)
    exact List.forall_mem_cons.mpr ⟨by decide, fun b hb => (hback b hb).2.2.2⟩
  have hsplit : (front ++ 0x3D :: back).splitOn 0x26 = [front ++ 0x3D :: back] := by
    refine List.splitOn_eq_singleton fun hmem => ?_
    rcases List.mem_append.mp hmem with hmem | hmem
    · exact (hfront _ hmem).1 rfl
    · rcases List.mem_cons.mp hmem with heq | hmem
      · exact absurd heq (by decide)
      · exact (hback _ hmem).1 rfl
  have hbefore : ∀ b ∈ front, (decide (b ≠ 0x3D)) = true := fun b hb =>
    decide_eq_true (hfront b hb).2.1
  have htake : (front ++ 0x3D :: back).takeWhile (· ≠ 0x3D) = front := by
    rw [List.takeWhile_append_of_pos hbefore, List.takeWhile_cons_of_neg (by simp), List.append_nil]
  have hdrop : (front ++ 0x3D :: back).dropWhile (· ≠ 0x3D) = 0x3D :: back := by
    rw [List.dropWhile_append_of_pos hbefore, List.dropWhile_cons_of_neg (by simp)]
  rw [searchParams, hbytes, hsplit, List.filter_cons_of_pos (by simp), List.filter_nil,
    List.map_singleton, htake, hdrop, List.drop_one, List.tail_cons,
    decodeComponent_flatMap hkeep hname, decodeComponent_flatMap hkeep hvalue]

/-- What the URL encodes of encoded text is what would have been encoded at once. -/
theorem flatMap_encodeByte (bytes : List UInt8) :
    (bytes.flatMap (encodeByte isUnreserved)).flatMap (encodeByte isQueryByte) =
      bytes.flatMap (encodeByte fun b => isUnreserved b && isQueryByte b) := by
  rw [List.flatMap_assoc]
  refine List.flatMap_congr fun b _ => ?_
  have hdigit : ∀ n < 16, encodeByte isQueryByte (hexDigit n) = [hexDigit n] := by decide
  have hpercent : encodeByte isQueryByte 0x25 = [0x25] := rfl
  have hlt := b.toNat_lt
  cases hb : isUnreserved b with
  | true =>
    have hfirst : encodeByte isUnreserved b = [b] := if_pos hb
    rw [hfirst, List.flatMap_singleton, encodeByte, encodeByte, hb, Bool.true_and]
  | false =>
    have hfirst : encodeByte isUnreserved b =
        [0x25, hexDigit (b.toNat / 16), hexDigit (b.toNat % 16)] := if_neg (by simp [hb])
    rw [hfirst, List.flatMap_cons, List.flatMap_cons, List.flatMap_singleton, hpercent,
      hdigit _ (by omega), hdigit _ (by omega), encodeByte, hb, Bool.false_and]
    rfl

/-- **A value that was encoded is read back** from the URL that it is part of. -/
theorem searchParamsGet_urlQuery {name value name' value' : JsString}
    (hname : encodeURIComponent name = some name')
    (hvalue : encodeURIComponent value = some value') :
    searchParamsGet (urlQuery (name' ++ unit '=' :: value')) name = some value := by
  obtain ⟨hnameWell, heq⟩ := Option.ite_none_right_eq_some.mp hname
  obtain rfl := Option.some.inj heq
  obtain ⟨hvalueWell, heq⟩ := Option.ite_none_right_eq_some.mp hvalue
  obtain rfl := Option.some.inj heq
  have hplain : ∀ b, isUnreserved b = true → isUnreserved b = true := fun _ hb => hb
  have hascii : ∀ s : JsString, ∀ b ∈ (utf8 s).flatMap (encodeByte isUnreserved), b < 0x80 :=
    fun s b hb => (plain_of_mem hplain hb).2.2.2
  have hbytes : utf8 (units ((utf8 name).flatMap (encodeByte isUnreserved)) ++
      unit '=' :: units ((utf8 value).flatMap (encodeByte isUnreserved))) =
      (utf8 name).flatMap (encodeByte isUnreserved) ++
        0x3D :: (utf8 value).flatMap (encodeByte isUnreserved) := by
    have hall := utf8_units (List.forall_mem_append.mpr
      ⟨hascii name, List.forall_mem_cons.mpr ⟨(by decide : (0x3D : UInt8) < 0x80), hascii value⟩⟩)
    rw [units, List.map_append, List.map_cons] at hall
    exact hall
  have hequals : encodeByte isQueryByte 0x3D = [0x3D] := rfl
  rw [searchParamsGet, urlQuery, hbytes, List.flatMap_append, List.flatMap_cons, hequals,
    flatMap_encodeByte, flatMap_encodeByte, List.singleton_append,
    searchParams_flatMap (fun b hb => (Bool.and_eq_true_iff.mp hb).1) hnameWell hvalueWell,
    List.find?_cons_of_pos (by simp)]
  rfl

/-- What has been parsed is left as it is. -/
theorem isQuery_urlQuery (query : JsString) : isQuery (urlQuery query) = true := by
  have hdigit : ∀ n < 16, isQueryByte (hexDigit n) = true := by decide
  have hencoded : ∀ b ∈ (utf8 query).flatMap (encodeByte isQueryByte), isQueryByte b = true := by
    intro b hb
    obtain ⟨c, -, hb⟩ := List.mem_flatMap.mp hb
    have hlt := c.toNat_lt
    unfold encodeByte at hb
    split at hb
    · rename_i hc
      rw [List.mem_singleton.mp hb]
      exact hc
    · simp only [List.mem_cons, List.not_mem_nil, or_false] at hb
      rcases hb with rfl | rfl | rfl
      · rfl
      · exact hdigit _ (by omega)
      · exact hdigit _ (by omega)
  refine List.all_eq_true.mpr fun c hc => ?_
  obtain ⟨b, hb, rfl⟩ := List.mem_map.mp hc
  have hquery := hencoded b hb
  have hlt := b.toNat_lt
  have hvalue : (UInt16.ofNat b.toNat).toNat = b.toNat := by
    rw [UInt16.toNat_ofNat']
    omega
  have hascii : isAscii (UInt16.ofNat b.toNat) = true := by
    simp only [isQueryByte, Bool.and_eq_true, decide_eq_true_eq, UInt8.le_iff_toNat_le] at hquery
    simp only [isAscii, decide_eq_true_eq, UInt16.lt_iff_toNat_lt, hvalue]
    exact Nat.lt_of_le_of_lt hquery.1.2 (by decide)
  rw [hascii, byte, hvalue, UInt8.ofNat_toNat, hquery]
  rfl

/-- What is read is well-formed. -/
theorem toWellFormed_searchParamsGet {query name value : JsString}
    (h : searchParamsGet query name = some value) : toWellFormed value = value := by
  obtain ⟨pair, hfind, rfl⟩ := Option.map_eq_some_iff.mp h
  obtain ⟨part, -, rfl⟩ := List.mem_map.mp (List.mem_of_find?_eq_some hfind)
  exact toWellFormed_utf8Decode _

end UrlEncoded
