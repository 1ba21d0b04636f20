import Whutfa.BigEndian

/-! # Two formats for the NAL units of a video frame

An access unit is a list of NAL units.  In Annex-B format each is preceded by a start
code, `00 00 01` or `00 00 00 01`; in AVC format each is preceded by its length, in a
fixed number of bytes, most significant first.

The two are not each other's: read with lengths of four bytes, an Annex-B text gives
back its own units only if each is one byte long and stands behind a start code of four
bytes, which is then the number one (`read_annexB_iff`).
-/
namespace NalUnits

/-- No `00 00 00` and no `00 00 01` inside. -/
def noStartCode : List UInt8 → Bool
  | a :: b :: c :: rest => !(a == 0 && b == 0 && (c == 0 || c == 1)) && noStartCode (b :: c :: rest)
  | _ => true

/-- A NAL unit as emulation prevention leaves it. -/
structure NalUnit where
  bytes : List UInt8
  nonempty : bytes ≠ []
  noStartCode : noStartCode bytes = true
  last_ne_zero : bytes.getLast? ≠ some 0

/-- The two start codes. -/
inductive StartCode
  | three
  | four
  deriving DecidableEq

/-- Their bytes. -/
def StartCode.bytes : StartCode → List UInt8
  | three => [0, 0, 1]
  | four => [0, 0, 0, 1]

/-- The units of an access unit, and the start code before each. -/
abbrev AccessUnit := List (StartCode × NalUnit)

namespace AccessUnit

/-- The stream of an access unit: each unit behind its start code. -/
def annexB : AccessUnit → List UInt8
  | [] => []
  | (code, unit) :: rest => code.bytes ++ unit.bytes ++ annexB rest

/-- The units' bytes. -/
def units (au : AccessUnit) : List (List UInt8) := au.map fun entry => entry.2.bytes

/-- Every unit is one byte, behind a start code of four. -/
def OneByteUnits (au : AccessUnit) : Prop :=
  ∀ entry ∈ au, entry.1 = .four ∧ entry.2.bytes.length = 1

end AccessUnit

/-- The units of an AVC text whose lengths take `size` bytes; `fuel` bounds their
number. -/
def readUnits (size : Nat) : Nat → List UInt8 → Option (List (List UInt8))
  | _, [] => some []
  | 0, _ :: _ => none
  | fuel + 1, data =>
      let n := BigEndian.decode (data.take size)
      let rest := data.drop size
      if data.length < size ∨ rest.length < n then none
      else (readUnits size fuel (rest.drop n)).map (rest.take n :: ·)

/-- The bytes that a length takes, by an `avcC` description: one more than the low two
bits of its fifth byte. -/
def lengthSize (description : List UInt8) : Nat := (description[4]?.getD 0 &&& 3).toNat + 1

/-- The units of an AVC text. -/
def readAvc (size : Nat) (data : List UInt8) : Option (List (List UInt8)) :=
  readUnits size data.length data

/-- A text that begins with a length that is covered. -/
theorem readUnits_succ {size fuel : Nat} {data : List UInt8} (hne : data ≠ []) :
    readUnits size (fuel + 1) data =
      if data.length < size ∨
          (data.drop size).length < BigEndian.decode (data.take size) then none
      else (readUnits size fuel
          ((data.drop size).drop (BigEndian.decode (data.take size)))).map
        ((data.drop size).take (BigEndian.decode (data.take size)) :: ·) := by
  cases data with
  | nil => exact absurd rfl hne
  | cons b data => rfl

theorem readUnits_cons {size fuel : Nat} {data : List UInt8} {u : List UInt8}
    {us : List (List UInt8)} (h : readUnits size fuel data = some (u :: us)) :
    ∃ fuel', fuel = fuel' + 1 ∧ BigEndian.decode (data.take size) ≤ (data.drop size).length ∧
      (data.drop size).take (BigEndian.decode (data.take size)) = u ∧
      readUnits size fuel' ((data.drop size).drop (BigEndian.decode (data.take size))) =
        some us := by
  have hne : data ≠ [] := by
    rintro rfl
    cases fuel <;> cases h
  cases fuel with
  | zero =>
    obtain ⟨b, rest, rfl⟩ := List.exists_cons_of_ne_nil hne
    cases h
  | succ fuel =>
    rw [readUnits_succ hne] at h
    obtain ⟨hlen, h⟩ := Option.ite_none_left_eq_some.mp h
    obtain ⟨vs, hvs, heq⟩ := Option.map_eq_some_iff.mp h
    injection heq with hu hus
    refine ⟨fuel, rfl, ?_, hu, hus ▸ hvs⟩
    exact Nat.not_lt.mp fun hlt => hlen (Or.inr hlt)

theorem getLast?_of_append_singleton {l m : List UInt8} {b : UInt8} (h : l = m ++ [b]) :
    l.getLast? = some b := by
  rw [h, List.getLast?_concat]

/-- A unit behind a start code of three bytes would have to end in the first byte of
what follows it, which is the zero of the next start code. -/
theorem no_unit_behind_three {unit rest : List UInt8} (hne : unit ≠ [])
    (hlast : unit.getLast? ≠ some 0) (hrest : rest = [] ∨ ∃ more, rest = 0 :: more)
    {n : Nat} (hpos : unit.length = n) (htake : (unit.tail ++ rest).take n = unit) :
    False := by
  obtain ⟨b, tail, rfl⟩ := List.exists_cons_of_ne_nil hne
  subst hpos
  rw [List.tail_cons, List.length_cons, List.take_length_add_append] at htake
  rcases hrest with rfl | ⟨more, rfl⟩
  · have hlen := congrArg List.length htake
    rw [List.take_nil, List.append_nil, List.length_cons] at hlen
    omega
  · rw [List.take_succ_cons, List.take_zero] at htake
    exact hlast (getLast?_of_append_singleton htake.symm)

theorem annexB_head (au : AccessUnit) : au.annexB = [] ∨ ∃ more, au.annexB = 0 :: more := by
  cases au with
  | nil => exact Or.inl rfl
  | cons entry au =>
    obtain ⟨code, unit⟩ := entry
    cases code with
    | three => exact Or.inr ⟨_, rfl⟩
    | four => exact Or.inr ⟨_, rfl⟩

theorem oneByteUnits_of_read {au : AccessUnit} {fuel : Nat}
    (h : readUnits 4 fuel au.annexB = some au.units) : au.OneByteUnits := by
  induction au generalizing fuel with
  | nil => exact fun _ hmem => nomatch hmem
  | cons entry au ih =>
    obtain ⟨code, unit⟩ := entry
    obtain ⟨fuel', -, hle, htake, hrest⟩ := readUnits_cons h
    cases code with
    | three =>
      -- the length is `00 00 01` and the unit's first byte
      obtain ⟨b, tail, hunit⟩ := List.exists_cons_of_ne_nil unit.nonempty
      have hdrop : (AccessUnit.annexB ((StartCode.three, unit) :: au)).drop 4 =
          unit.bytes.tail ++ AccessUnit.annexB au := by
        simp [AccessUnit.annexB, StartCode.bytes, hunit]
      rw [hdrop] at hle htake
      refine (no_unit_behind_three unit.nonempty unit.last_ne_zero (annexB_head au) ?_ htake).elim
      rw [← congrArg List.length htake, List.length_take, Nat.min_eq_left hle]
    | four =>
      -- the length is one
      have hdrop : (AccessUnit.annexB ((StartCode.four, unit) :: au)).drop 4 =
          unit.bytes ++ AccessUnit.annexB au := by
        simp [AccessUnit.annexB, StartCode.bytes]
      have hcount : BigEndian.decode
          ((AccessUnit.annexB ((StartCode.four, unit) :: au)).take 4) = 1 := rfl
      rw [hdrop, hcount] at htake hrest
      have hlength : unit.bytes.length = 1 := by
        have hpos := List.length_pos_iff.mpr unit.nonempty
        have hmin := congrArg List.length htake
        rw [List.length_take] at hmin
        exact Nat.le_antisymm (hmin ▸ Nat.min_le_left 1 _) hpos
      have hmore : (unit.bytes ++ AccessUnit.annexB au).drop 1 = AccessUnit.annexB au :=
        List.drop_left' hlength
      rw [hmore] at hrest
      intro entry hmem
      rcases List.mem_cons.mp hmem with rfl | hmem
      · exact ⟨rfl, hlength⟩
      · exact ih hrest entry hmem

theorem read_of_oneByteUnits {au : AccessUnit} (h : au.OneByteUnits) {fuel : Nat}
    (hfuel : au.length ≤ fuel) : readUnits 4 fuel au.annexB = some au.units := by
  induction au generalizing fuel with
  | nil => cases fuel <;> rfl
  | cons entry au ih =>
    obtain ⟨code, unit⟩ := entry
    obtain ⟨hcode, hlength⟩ := h (code, unit) List.mem_cons_self
    obtain rfl : code = .four := hcode
    obtain ⟨b, hunit⟩ : ∃ b, unit.bytes = [b] := List.length_eq_one_iff.mp hlength
    cases fuel with
    | zero => exact absurd hfuel (Nat.not_succ_le_zero _)
    | succ fuel =>
      have hrest := ih (fun entry hmem => h entry (List.mem_cons_of_mem _ hmem))
        (Nat.le_of_succ_le_succ hfuel)
      have hbytes : AccessUnit.annexB ((.four, unit) :: au) =
          0 :: 0 :: 0 :: 1 :: b :: AccessUnit.annexB au := by
        simp [AccessUnit.annexB, StartCode.bytes, hunit]
      have hcount : BigEndian.decode [0, 0, 0, 1] = 1 := rfl
      rw [hbytes, readUnits_succ (List.cons_ne_nil _ _)]
      simp [hcount, hrest, AccessUnit.units, hunit]

theorem length_le_annexB (au : AccessUnit) : au.length ≤ au.annexB.length := by
  induction au with
  | nil => exact Nat.le_refl 0
  | cons entry au ih =>
    have hpos := List.length_pos_iff.mpr entry.2.nonempty
    rw [AccessUnit.annexB, List.length_append, List.length_append, List.length_cons]
    omega

/-- **When an Annex-B text reads as its own units in AVC format.** -/
theorem read_annexB_iff (au : AccessUnit) :
    readAvc 4 au.annexB = some au.units ↔ au.OneByteUnits :=
  ⟨oneByteUnits_of_read, fun h => read_of_oneByteUnits h (length_le_annexB au)⟩

end NalUnits
