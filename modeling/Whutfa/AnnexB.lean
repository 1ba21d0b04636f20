import Whutfa.AvcConfig
import Whutfa.H264

/-! # The browser's splitter

`splitAnnexB` (`frontend/h264.js`) scans a buffer by index.  Two equations say what it
does to the bytes themselves: a byte at which no start code is found is skipped
(`splitAnnexB_cons`), and a start code opens a unit that reaches to the next one found, or
to the end (`splitAnnexB_startCode`).  The scan stops three bytes before the end, so a
start code is found only with a byte after it, or if it has four bytes (`opens`).

The units of an access unit come out as they were put in, and the `avcC` description made
of them holds the last parameter set of each kind.
-/
namespace Whutfa.H264

open NalUnits

/-- `findStart` finds a start code at the first byte. -/
def opens (view : List UInt8) : Bool := decide (3 < view.length) && startsAt view 0

/-- The bytes before the next start code found. -/
def nalSize (nal : List UInt8) : Nat := (findStart nal 0).getD nal.length

/-- The unit that a start code before `nal` opens; an empty one is not pushed. -/
def openedUnit (nal : List UInt8) : List (List UInt8) :=
  if 0 < nalSize nal then [nal.take (nalSize nal)] else []

/-! ## Bytes in front of a buffer -/

theorem getElem?_append_length (front view : List UInt8) (j : Nat) :
    (front ++ view)[front.length + j]? = view[j]? := by
  rw [List.getElem?_append_right (Nat.le_add_right _ _), Nat.add_sub_cancel_left]

theorem startsAt_append (front view : List UInt8) (j : Nat) :
    startsAt (front ++ view) (front.length + j) = startsAt view j := by
  simp only [startsAt, Nat.add_assoc, getElem?_append_length]

theorem startLen_append (front view : List UInt8) (j : Nat) :
    startLen (front ++ view) (front.length + j) = startLen view j := by
  simp only [startLen, Nat.add_assoc, getElem?_append_length]

theorem findStart_append (front view : List UInt8) (i : Nat) :
    findStart (front ++ view) (front.length + i) = (findStart view i).map (front.length + ·) := by
  have hcount : (front ++ view).length - 3 - (front.length + i) = view.length - 3 - i := by
    rw [List.length_append]
    omega
  have hpred : startsAt (front ++ view) ∘ (front.length + ·) = startsAt view := by
    funext j
    exact startsAt_append front view j
  rw [findStart, findStart, hcount, ← List.map_add_range', List.find?_map, hpred]

theorem splitFrom_append (front view : List UInt8) (fuel i : Nat) :
    splitFrom (front ++ view) fuel (front.length + i) = splitFrom view fuel i := by
  induction fuel generalizing i with
  | zero => rfl
  | succ fuel ih =>
    by_cases hi : i < view.length
    · rw [splitFrom, splitFrom, if_pos hi, if_pos (by rw [List.length_append]; omega),
        findStart_append]
      cases findStart view i with
      | none => rfl
      | some start =>
        simp only [Option.map_some, Nat.add_assoc, startLen_append, findStart_append]
        cases findStart view (start + startLen view start) with
        | none =>
          -- the unit reaches to the end of the buffer
          simp only [Option.map_none, Option.getD_none, List.length_append,
            Nat.add_lt_add_iff_left, ih]
          rw [List.take_length_add_append, List.drop_length_add_append, List.take_length]
        | some next =>
          simp only [Option.map_some, Option.getD_some, Nat.add_lt_add_iff_left, ih]
          rw [List.take_length_add_append, List.drop_length_add_append]
    · rw [splitFrom, splitFrom, if_neg hi, if_neg (by rw [List.length_append]; omega)]

/-- The loop from an index is the splitter on the bytes from there on. -/
theorem splitFrom_drop {view : List UInt8} {fuel i : Nat} (hi : i ≤ view.length)
    (hfuel : view.length - i ≤ fuel) : splitFrom view fuel i = splitAnnexB (view.drop i) := by
  have hshift := splitFrom_append (view.take i) (view.drop i) fuel 0
  rw [List.take_append_drop, List.length_take_of_le hi, Nat.add_zero] at hshift
  rw [hshift, splitAnnexB]
  exact splitFrom_congr (by rw [List.length_drop]; omega) (Nat.le_refl _)

/-! ## The scan, byte by byte -/

theorem findStart_of_length_le {view : List UInt8} {i : Nat} (h : view.length ≤ i + 3) :
    findStart view i = none := by
  rw [findStart, show view.length - 3 - i = 0 by omega]
  rfl

theorem findStart_cons (b : UInt8) (view : List UInt8) :
    findStart (b :: view) 0 =
      if opens (b :: view) then some 0 else (findStart view 0).map (1 + ·) := by
  by_cases hlength : 3 < (b :: view).length
  · have hrange : List.range' 0 ((b :: view).length - 3 - 0) =
        0 :: List.range' 1 ((b :: view).length - 3 - 1) := by
      rw [show (b :: view).length - 3 - 0 = (b :: view).length - 3 - 1 + 1 by omega]
      rfl
    rw [findStart, hrange, List.find?_cons, opens, decide_eq_true hlength, Bool.true_and]
    cases startsAt (b :: view) 0 with
    | true => rfl
    | false => exact findStart_append [b] view 0
  · rw [opens, decide_eq_false hlength, Bool.false_and, findStart_of_length_le (by omega),
      findStart_of_length_le (by simp at hlength; omega)]
    rfl

theorem nalSize_of_opens {view : List UInt8} (h : opens view = true) : nalSize view = 0 := by
  cases view with
  | nil => rfl
  | cons b view => rw [nalSize, findStart_cons, if_pos h, Option.getD_some]

theorem nalSize_cons {b : UInt8} {view : List UInt8} (h : opens (b :: view) = false) :
    nalSize (b :: view) = nalSize view + 1 := by
  rw [nalSize, nalSize, findStart_cons, h]
  cases findStart view 0 with
  | none => rfl
  | some pos => exact Nat.add_comm 1 pos

theorem nalSize_le (view : List UInt8) : nalSize view ≤ view.length := by
  rw [nalSize]
  cases h : findStart view 0 with
  | none => exact Nat.le_refl _
  | some pos =>
    have := findStart_bounds h
    exact Nat.le_of_lt (by rw [Option.getD_some]; omega)

/-! ## The two equations -/

@[simp] theorem splitAnnexB_nil : splitAnnexB [] = [] := rfl

/-- Where no start code is found, the byte is skipped. -/
theorem splitAnnexB_cons {b : UInt8} {view : List UInt8} (h : opens (b :: view) = false) :
    splitAnnexB (b :: view) = splitAnnexB view := by
  have hfirst : findStart (b :: view) 0 = findStart (b :: view) 1 := by
    rw [findStart_cons, h]
    exact (findStart_append [b] view 0).symm
  have hrest : splitFrom (b :: view) (view.length + 1) 1 = splitAnnexB view :=
    splitFrom_drop (Nat.le_add_left _ _) (Nat.le_succ _)
  rw [← hrest, splitAnnexB, List.length_cons, splitFrom, splitFrom, ← hfirst,
    if_pos (show 0 < (b :: view).length from Nat.succ_pos _)]
  by_cases hone : 1 < (b :: view).length
  · rw [if_pos hone]
  · -- behind the only byte there is nothing to find
    rw [if_neg hone, findStart_of_length_le (by omega)]

theorem opens_startCode (code : StartCode) {nal : List UInt8} (hne : nal ≠ []) :
    opens (code.bytes ++ nal) = true := by
  obtain ⟨b, nal, rfl⟩ := List.exists_cons_of_ne_nil hne
  cases code with
  | three => simp [opens, startsAt, StartCode.bytes]
  | four => simp [opens, startsAt, StartCode.bytes]

theorem startLen_startCode (code : StartCode) (nal : List UInt8) :
    startLen (code.bytes ++ nal) 0 = code.bytes.length := by
  cases code <;> rfl

/-- A start code opens a unit, which ends where the next start code is found. -/
theorem splitAnnexB_startCode (code : StartCode) (nal : List UInt8) :
    splitAnnexB (code.bytes ++ nal) =
      openedUnit nal ++ splitAnnexB (nal.drop (nalSize nal)) := by
  by_cases hne : nal = []
  · subst hne
    cases code <;> rfl
  · have hopens := opens_startCode code hne
    have hstart : findStart (code.bytes ++ nal) 0 = some 0 := by
      cases code with
      | three => exact (findStart_cons _ _).trans (if_pos hopens)
      | four => exact (findStart_cons _ _).trans (if_pos hopens)
    have hend : (findStart (code.bytes ++ nal) code.bytes.length).getD
        (code.bytes ++ nal).length = code.bytes.length + nalSize nal := by
      have hshift := findStart_append code.bytes nal 0
      rw [Nat.add_zero] at hshift
      rw [hshift, nalSize, List.length_append]
      cases findStart nal 0 <;> rfl
    have hpos : 0 < (code.bytes ++ nal).length := by
      rw [List.length_append]
      have := List.length_pos_iff.mpr hne
      omega
    obtain ⟨fuel, hfuel⟩ := Nat.exists_eq_add_of_lt hpos
    -- the fuel that is left is enough for the bytes that are left
    have hrest : splitFrom (code.bytes ++ nal) fuel (code.bytes.length + nalSize nal) =
        splitAnnexB (nal.drop (nalSize nal)) := by
      have hsize := nalSize_le nal
      rw [splitFrom_append, splitFrom_drop hsize]
      cases code <;> simp only [StartCode.bytes, List.length_append, List.length_cons,
        List.length_nil] at hfuel <;> omega
    rw [splitAnnexB, hfuel, Nat.zero_add, splitFrom, if_pos hpos, hstart]
    simp only [startLen_startCode, Nat.zero_add, hend, hrest]
    rw [List.take_length_add_append, List.drop_left', openedUnit]
    · simp only [Nat.lt_add_right_iff_pos]
    · rfl

/-- The bytes before the next start code hold none. -/
theorem splitAnnexB_drop_nalSize (view : List UInt8) :
    splitAnnexB (view.drop (nalSize view)) = splitAnnexB view := by
  induction view with
  | nil => rfl
  | cons b view ih =>
    by_cases h : opens (b :: view) = true
    · rw [nalSize_of_opens h, List.drop_zero]
    · have hnot := Bool.eq_false_iff.mpr h
      rw [nalSize_cons hnot, List.drop_succ_cons, ih, splitAnnexB_cons hnot]

theorem splitAnnexB_three (nal : List UInt8) :
    splitAnnexB (0 :: 0 :: 1 :: nal) = openedUnit nal ++ splitAnnexB nal := by
  have h := splitAnnexB_startCode .three nal
  rwa [splitAnnexB_drop_nalSize] at h

/-- The zero of a start code of four bytes belongs to the code. -/
theorem splitAnnexB_four (nal : List UInt8) :
    splitAnnexB (0 :: 0 :: 0 :: 1 :: nal) = splitAnnexB (0 :: 0 :: 1 :: nal) :=
  (splitAnnexB_startCode .four nal).trans (splitAnnexB_startCode .three nal).symm

theorem opens_cases {view : List UInt8} (h : opens view = true) :
    (∃ b nal, view = 0 :: 0 :: 1 :: b :: nal) ∨ ∃ nal, view = 0 :: 0 :: 0 :: 1 :: nal := by
  obtain ⟨hlength, hstart⟩ := Bool.and_eq_true_iff.mp h
  match view with
  | [] | [_] | [_, _] | [_, _, _] => cases hlength
  | a :: b :: c :: d :: nal =>
    simp only [startsAt, Nat.zero_add, List.getElem?_cons_zero, List.getElem?_cons_succ,
      Bool.and_eq_true, Bool.or_eq_true, beq_iff_eq, Option.some.injEq] at hstart
    obtain ⟨⟨rfl, rfl⟩, rfl | ⟨rfl, rfl⟩⟩ := hstart
    · exact Or.inl ⟨d, nal, rfl⟩
    · exact Or.inr ⟨nal, rfl⟩

theorem openedUnit_eq_nil_iff {b : UInt8} {nal : List UInt8} :
    openedUnit (b :: nal) = [] ↔ opens (b :: nal) = true := by
  by_cases h : opens (b :: nal) = true
  · simp [openedUnit, nalSize_of_opens h, h]
  · simp [openedUnit, nalSize_cons (Bool.eq_false_iff.mpr h), h]

/-- The unit after a start code begins with the byte after the code, if that is not zero. -/
theorem openedUnit_head_iff {y b : UInt8} {nal : List UInt8} (hy : y ≠ 0) :
    (∃ u ∈ openedUnit (b :: nal), u.head? = some y) ↔ y = b := by
  by_cases h : opens (b :: nal) = true
  · have hzero : b = 0 := by
      rcases opens_cases h with ⟨_, _, heq⟩ | ⟨_, heq⟩
      · exact (List.cons.inj heq).1
      · exact (List.cons.inj heq).1
    rw [openedUnit_eq_nil_iff.mpr h, hzero]
    exact ⟨fun ⟨_, hmem, _⟩ => (nomatch hmem), fun heq => absurd heq hy⟩
  · have hsize := nalSize_cons (Bool.eq_false_iff.mpr h)
    simp [openedUnit, hsize, eq_comm]

/-- **Which bytes begin a unit**: those behind `00 00 01`, wherever it stands. -/
theorem unit_head_iff {y : UInt8} (hy : y ≠ 0) (view : List UInt8) :
    (∃ u ∈ splitAnnexB view, u.head? = some y) ↔ [0, 0, 1, y] <:+: view := by
  induction view with
  | nil => simp
  | cons b view ih =>
    rw [List.infix_cons_iff, ← ih]
    by_cases h : opens (b :: view) = true
    · rcases opens_cases h with ⟨c, nal, heq⟩ | ⟨nal, heq⟩
      · obtain ⟨rfl, rfl⟩ := List.cons.inj heq
        -- the scan passes over the rest of the start code
        have hrest : splitAnnexB (0 :: 1 :: c :: nal) = splitAnnexB (c :: nal) := by
          rw [splitAnnexB_cons (by simp [opens, startsAt]),
            splitAnnexB_cons (by simp [opens, startsAt])]
        rw [splitAnnexB_three, hrest]
        simp only [List.mem_append, or_and_right, exists_or, openedUnit_head_iff hy]
        simp
      · obtain ⟨rfl, rfl⟩ := List.cons.inj heq
        rw [splitAnnexB_four]
        simp
    · rw [splitAnnexB_cons (Bool.eq_false_iff.mpr h)]
      constructor
      · exact Or.inr
      · rintro (⟨nal, heq⟩ | hview)
        · exact absurd (heq ▸ opens_startCode .three (List.cons_ne_nil y nal)) h
        · exact hview

/-! ## Access units -/

/-- No start code begins inside a unit, nor in its last bytes and what follows them. -/
theorem opens_unit {b : UInt8} {tail rest : List UInt8}
    (hcode : noStartCode (b :: tail) = true) (hlast : (b :: tail).getLast? ≠ some 0) :
    opens (b :: tail ++ rest) = false := by
  refine Bool.eq_false_iff.mpr fun hopens => ?_
  have hstart : startsAt (b :: tail ++ rest) 0 = true := (Bool.and_eq_true_iff.mp hopens).2
  match tail with
  | [] => simp_all [startsAt]
  | [c] => simp_all [startsAt]
  | c :: d :: tail =>
    simp only [noStartCode, Bool.and_eq_true, Bool.not_eq_true', Bool.and_eq_false_iff,
      Bool.or_eq_false_iff] at hcode
    simp_all [startsAt]

theorem noStartCode_tail {b : UInt8} {tail : List UInt8} (h : noStartCode (b :: tail) = true) :
    noStartCode tail = true := by
  match tail with
  | [] => rfl
  | [_] => rfl
  | c :: d :: tail => exact (Bool.and_eq_true_iff.mp h).2

theorem nalSize_unit {bytes rest : List UInt8} (hcode : noStartCode bytes = true)
    (hlast : bytes.getLast? ≠ some 0) (hrest : rest = [] ∨ opens rest = true) :
    nalSize (bytes ++ rest) = bytes.length := by
  induction bytes with
  | nil =>
    rcases hrest with rfl | hrest
    · rfl
    · exact nalSize_of_opens hrest
  | cons b tail ih =>
    have htail : tail.getLast? ≠ some 0 := by
      cases tail with
      | nil => nofun
      | cons c tail => rwa [List.getLast?_cons_cons] at hlast
    have hnot : opens (b :: (tail ++ rest)) = false := opens_unit hcode hlast
    rw [List.length_cons, ← ih (noStartCode_tail hcode) htail]
    exact nalSize_cons hnot

/-- A start code and a unit at the front come off whole. -/
theorem splitAnnexB_unit (code : StartCode) (unit : NalUnit) {rest : List UInt8}
    (hrest : rest = [] ∨ opens rest = true) :
    splitAnnexB (code.bytes ++ unit.bytes ++ rest) = unit.bytes :: splitAnnexB rest := by
  have hsize := nalSize_unit unit.noStartCode unit.last_ne_zero hrest
  have hpos := List.length_pos_iff.mpr unit.nonempty
  rw [List.append_assoc, splitAnnexB_startCode, openedUnit, hsize, if_pos hpos,
    List.take_left' rfl, List.drop_left' rfl, List.singleton_append]

theorem opens_annexB_append (au : AccessUnit) {rest : List UInt8}
    (hrest : rest = [] ∨ opens rest = true) :
    au.annexB ++ rest = [] ∨ opens (au.annexB ++ rest) = true := by
  cases au with
  | nil => exact hrest
  | cons entry au =>
    obtain ⟨code, unit⟩ := entry
    have hne : unit.bytes ++ (AccessUnit.annexB au ++ rest) ≠ [] :=
      fun h => unit.nonempty (List.append_eq_nil_iff.mp h).1
    rw [AccessUnit.annexB, List.append_assoc, List.append_assoc]
    exact Or.inr (opens_startCode code hne)

/-- The units of an access unit come off one by one. -/
theorem splitAnnexB_annexB_append (au : AccessUnit) {rest : List UInt8}
    (hrest : rest = [] ∨ opens rest = true) :
    splitAnnexB (au.annexB ++ rest) = au.units ++ splitAnnexB rest := by
  induction au with
  | nil => rfl
  | cons entry au ih =>
    obtain ⟨code, unit⟩ := entry
    rw [AccessUnit.annexB, List.append_assoc,
      splitAnnexB_unit code unit (opens_annexB_append au hrest), ih]
    rfl

/-- Nothing follows the last unit of a frame. -/
theorem AccessUnit.splitAnnexB_eq (au : AccessUnit) : splitAnnexB au.annexB = au.units := by
  have h := splitAnnexB_annexB_append au (Or.inl rfl)
  rwa [List.append_nil, splitAnnexB_nil, List.append_nil] at h

/-- **The splitter undoes the concatenation**, with start codes of either length. -/
theorem splitAnnexB_annexB (au : AccessUnit) : splitAnnexB au.annexB = au.units :=
  AccessUnit.splitAnnexB_eq au

/-! ## The description -/

/-- The last unit of the type. -/
def IsLast (type : UInt8) (units : List (List UInt8)) (u : List UInt8) : Prop :=
  nalType u = type ∧ ∃ front back, units = front ++ u :: back ∧ ∀ v ∈ back, nalType v ≠ type

theorem exists_last {type : UInt8} {units : List (List UInt8)}
    (h : ∃ u ∈ units, nalType u = type) :
    ∃ u, units.reverse.find? (nalType · == type) = some u ∧ IsLast type units u := by
  obtain ⟨v, hv, htype⟩ := h
  -- the last unit is the first one of the reversed list
  have hsome : (units.reverse.find? (nalType · == type)).isSome = true :=
    List.find?_isSome.mpr ⟨v, List.mem_reverse.mpr hv, beq_iff_eq.mpr htype⟩
  obtain ⟨u, hu⟩ := Option.isSome_iff_exists.mp hsome
  obtain ⟨hlast, back, front, heq, hback⟩ := List.find?_eq_some_iff_append.mp hu
  refine ⟨u, hu, beq_iff_eq.mp hlast, front.reverse, back.reverse, ?_, fun w hw => ?_⟩
  · have hunits := congrArg List.reverse heq
    rw [List.reverse_reverse, List.reverse_append, List.reverse_cons, List.append_assoc] at hunits
    exact hunits
  · simpa using hback w (List.mem_reverse.mp hw)

theorem IsLast.mem {type : UInt8} {units : List (List UInt8)} {u : List UInt8}
    (h : IsLast type units u) : u ∈ units := by
  obtain ⟨-, front, back, rfl, -⟩ := h
  exact List.mem_append_right _ List.mem_cons_self

/-- What the description says; a byte that the set does not have is stored as zero. -/
def avcConfig (sps pps : List UInt8) : AvcConfig.Config :=
  { version := 1, profile := sps[1]?.getD 0, compatibility := sps[2]?.getD 0
    level := sps[3]?.getD 0, lengthSize := 4, sps := [sps], pps := [pps] }

/-- The bytes set one by one are those of the layout. -/
theorem buildAvcDescription_eq (sps pps : List UInt8) :
    buildAvcDescription { sps := some sps, pps := some pps } = some (avcConfig sps pps).bytes := by
  simp [buildAvcDescription, avcConfig, AvcConfig.Config.bytes, AvcConfig.encodeSets,
    BigEndian.encode]

theorem avcConfig_fits {sps pps : List UInt8} (hsps : sps.length < 2 ^ 16)
    (hpps : pps.length < 2 ^ 16) : (avcConfig sps pps).Fits where
  lengthSize_pos := Nat.succ_pos 3
  lengthSize_le := Nat.le_refl 4
  sps_lt := show 1 < 32 by decide
  pps_lt := show 1 < 256 by decide
  sps_sets := fun _ hset => List.mem_singleton.mp hset ▸ hsps
  pps_sets := fun _ hset => List.mem_singleton.mp hset ▸ hpps

/-- **The description of an access unit.**  With a sequence and a picture parameter set
among its units, it decodes, to its last byte, to the last of each, under the profile,
compatibility and level of that sequence parameter set. -/
theorem description_holds_last_sets (au : AccessUnit) (hsps : ∃ u ∈ au.units, nalType u = 7)
    (hpps : ∃ u ∈ au.units, nalType u = 8) (hlength : ∀ u ∈ au.units, u.length < 2 ^ 16) :
    ∃ sps pps description,
      IsLast 7 au.units sps ∧ IsLast 8 au.units pps ∧
      buildAvcDescription (extractSpsPps (splitAnnexB au.annexB)) = some description ∧
      AvcConfig.read description = some
        ({ version := 1, profile := sps[1]?.getD 0, compatibility := sps[2]?.getD 0
           level := sps[3]?.getD 0, lengthSize := 4, sps := [sps], pps := [pps] }, []) := by
  obtain ⟨sps, hfindSps, hlastSps⟩ := exists_last hsps
  obtain ⟨pps, hfindPps, hlastPps⟩ := exists_last hpps
  have hfits := avcConfig_fits (hlength sps hlastSps.mem) (hlength pps hlastPps.mem)
  refine ⟨sps, pps, (avcConfig sps pps).bytes, hlastSps, hlastPps, ?_, ?_⟩
  · rw [AccessUnit.splitAnnexB_eq au, extractSpsPps, hfindSps, hfindPps, buildAvcDescription_eq]
  · have hread := AvcConfig.read_bytes hfits []
    rwa [List.append_nil] at hread

/-- Parameter sets of four bytes and of one. -/
def setsOfFourAndOne : AccessUnit :=
  [(.four, { bytes := [0x67, 1, 2, 3], nonempty := nofun, noStartCode := rfl
             last_ne_zero := by decide }),
   (.three, { bytes := [0x68], nonempty := nofun, noStartCode := rfl, last_ne_zero := by decide })]

theorem description_of_setsOfFourAndOne : ∃ sps pps description,
    IsLast 7 setsOfFourAndOne.units sps ∧ IsLast 8 setsOfFourAndOne.units pps ∧
    buildAvcDescription (extractSpsPps (splitAnnexB setsOfFourAndOne.annexB)) =
      some description ∧
    AvcConfig.read description = some
      ({ version := 1, profile := sps[1]?.getD 0, compatibility := sps[2]?.getD 0
         level := sps[3]?.getD 0, lengthSize := 4, sps := [sps], pps := [pps] }, []) :=
  description_holds_last_sets setsOfFourAndOne ⟨[0x67, 1, 2, 3], by decide, by decide⟩
    ⟨[0x68], by decide, by decide⟩ (by decide)

/-- A sequence parameter set of four bytes, and a last one of one byte. -/
def shortLastSps : AccessUnit :=
  setsOfFourAndOne ++
    [(.three, { bytes := [0x67], nonempty := nofun, noStartCode := rfl
                last_ne_zero := by decide })]

/-- The last set has no profile to be equal to the description's. -/
theorem shortLastSps_profile :
    (∃ u ∈ shortLastSps.units, nalType u = 7 ∧ 4 ≤ u.length) ∧
      (∃ u ∈ shortLastSps.units, nalType u = 8) ∧
      (∀ u ∈ shortLastSps.units, u.length < 2 ^ 16) ∧
      ¬ ∃ sps description config,
        buildAvcDescription (extractSpsPps (splitAnnexB shortLastSps.annexB)) =
          some description ∧
        AvcConfig.read description = some (config, []) ∧ config.sps = [sps] ∧
        sps[1]? = some config.profile := by
  refine ⟨⟨[0x67, 1, 2, 3], by decide, by decide⟩, ⟨[0x68], by decide, by decide⟩, by decide, ?_⟩
  rintro ⟨sps, description, config, hbuild, hread, hsps, hprofile⟩
  -- the description is made of the set of one byte, which has no second
  have hconfig : AvcConfig.read (avcConfig [0x67] [0x68]).bytes =
      some (avcConfig [0x67] [0x68], []) := rfl
  have hdescription : some (avcConfig [0x67] [0x68]).bytes = some description := hbuild
  rw [← Option.some.inj hdescription, hconfig] at hread
  obtain ⟨rfl, -⟩ := Prod.mk.inj (Option.some.inj hread)
  obtain ⟨rfl, -⟩ := List.cons.inj hsps
  cases hprofile

end Whutfa.H264
