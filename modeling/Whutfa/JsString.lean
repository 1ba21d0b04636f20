import Mathlib.Data.List.Basic

/-! # Strings of UTF-16 code units

A JavaScript string is a sequence of UTF-16 code units, surrogates in any order
included.  This module has what programs that exchange text need of it: literals,
`String.prototype.trim`, and the UTF-8 bytes written for it, in which an unpaired
surrogate becomes U+FFFD.  Text that is all ASCII has one byte for each unit
(`utf8_eq_map_of_ascii`), and well-formed strings with the same bytes are the same
(`toWellFormed_eq_of_utf8`).
-/

/-- A string of JavaScript: its UTF-16 code units. -/
abbrev JsString := List UInt16

namespace JsString

/-- The code unit of a character of the basic multilingual plane. -/
def unit (c : Char) : UInt16 := UInt16.ofNat c.toNat

/-- A literal whose characters are all of the basic multilingual plane. -/
def js (s : String) : JsString := s.toList.map unit

/-- A high (leading) surrogate. -/
def isHigh (c : UInt16) : Bool := 0xD800 ≤ c && c ≤ 0xDBFF

/-- A low (trailing) surrogate. -/
def isLow (c : UInt16) : Bool := 0xDC00 ≤ c && c ≤ 0xDFFF

/-- A unit below 128. -/
def isAscii (c : UInt16) : Bool := c < 0x80

/-! ## Trimming -/

/-- White space and line terminators, as `trim` counts them. -/
def isSpace (c : UInt16) : Bool :=
  (0x09 ≤ c && c ≤ 0x0D) || c = 0x20 || c = 0xA0 || c = 0x1680 || (0x2000 ≤ c && c ≤ 0x200A) ||
    c = 0x2028 || c = 0x2029 || c = 0x202F || c = 0x205F || c = 0x3000 || c = 0xFEFF

/-- `s.trim()`. -/
def trim (s : JsString) : JsString :=
  ((s.dropWhile isSpace).reverse.dropWhile isSpace).reverse

/-- Text that begins and ends with something visible is left as it is. -/
theorem trim_eq_self {s : JsString} (hhead : ∀ c, s.head? = some c → isSpace c = false)
    (hlast : ∀ c, s.getLast? = some c → isSpace c = false) : trim s = s := by
  have hdrop : ∀ t : JsString, (∀ c, t.head? = some c → isSpace c = false) →
      t.dropWhile isSpace = t := by
    intro t ht
    cases t with
    | nil => rfl
    | cons c t => exact List.dropWhile_cons_of_neg (by simp [ht c rfl])
  unfold trim
  rw [hdrop s hhead, hdrop s.reverse (by rw [List.head?_reverse]; exact hlast),
    List.reverse_reverse]

/-! ## UTF-8 -/

/-- The bytes of a code point. -/
def utf8Point (n : Nat) : List UInt8 :=
  if n < 0x80 then [UInt8.ofNat n]
  else if n < 0x800 then [UInt8.ofNat (0xC0 + n / 0x40), UInt8.ofNat (0x80 + n % 0x40)]
  else if n < 0x10000 then
    [UInt8.ofNat (0xE0 + n / 0x1000), UInt8.ofNat (0x80 + n / 0x40 % 0x40),
      UInt8.ofNat (0x80 + n % 0x40)]
  else
    [UInt8.ofNat (0xF0 + n / 0x40000), UInt8.ofNat (0x80 + n / 0x1000 % 0x40),
      UInt8.ofNat (0x80 + n / 0x40 % 0x40), UInt8.ofNat (0x80 + n % 0x40)]

/-- The code point of a surrogate pair. -/
def pairPoint (hi lo : UInt16) : Nat :=
  0x10000 + (hi.toNat - 0xD800) * 0x400 + (lo.toNat - 0xDC00)

/-- The bytes of a unit that is not half of a pair. -/
def utf8Unit (c : UInt16) : List UInt8 :=
  utf8Point (if isHigh c || isLow c then 0xFFFD else c.toNat)

/-- The bytes written for a string. -/
def utf8 : JsString → List UInt8
  | [] => []
  | [c] => utf8Unit c
  | c :: d :: s =>
      if isHigh c && isLow d then utf8Point (pairPoint c d) ++ utf8 s
      else utf8Unit c ++ utf8 (d :: s)

theorem toNat_lt_of_ascii {c : UInt16} (h : isAscii c) : c.toNat < 128 := by
  simpa [isAscii, UInt16.lt_iff_toNat_lt] using h

theorem not_isHigh_of_ascii {c : UInt16} (h : isAscii c) : isHigh c = false := by
  have hc := toNat_lt_of_ascii h
  have hD8 : (0xD800 : UInt16).toNat = 55296 := rfl
  have hnot : ¬ (0xD800 : UInt16) ≤ c := by rw [UInt16.le_iff_toNat_le]; omega
  simp [isHigh, hnot]

theorem not_isLow_of_ascii {c : UInt16} (h : isAscii c) : isLow c = false := by
  have hc := toNat_lt_of_ascii h
  have hDC : (0xDC00 : UInt16).toNat = 56320 := rfl
  have hnot : ¬ (0xDC00 : UInt16) ≤ c := by rw [UInt16.le_iff_toNat_le]; omega
  simp [isLow, hnot]

/-- The byte of an ASCII unit. -/
def byte (c : UInt16) : UInt8 := UInt8.ofNat c.toNat

theorem utf8Unit_of_ascii {c : UInt16} (h : isAscii c) : utf8Unit c = [byte c] := by
  have hlone : ¬ (isHigh c || isLow c) = true := by
    simp [not_isHigh_of_ascii h, not_isLow_of_ascii h]
  unfold utf8Unit utf8Point
  rw [if_neg hlone, if_pos (toNat_lt_of_ascii h)]
  rfl

/-- **ASCII text has one byte for each unit.** -/
theorem utf8_eq_map_of_ascii (s : JsString) (h : ∀ c ∈ s, isAscii c) :
    utf8 s = s.map byte := by
  induction s using utf8.induct with
  | case1 => rfl
  | case2 c => exact utf8Unit_of_ascii (h c (by simp))
  | case3 c d s hpair =>
    -- an ASCII unit does not begin a pair
    have hc := not_isHigh_of_ascii (h c (by simp))
    rw [hc] at hpair
    exact absurd hpair (by simp)
  | case4 c d s hpair ih =>
    rw [utf8, if_neg hpair, ih (fun e he => h e (List.mem_cons_of_mem _ he)),
      utf8Unit_of_ascii (h c (by simp))]
    rfl

/-- ASCII text in front of any other is written by itself. -/
theorem utf8_append_of_ascii {p : JsString} (h : ∀ c ∈ p, isAscii c) (s : JsString) :
    utf8 (p ++ s) = p.map byte ++ utf8 s := by
  induction p with
  | nil => rfl
  | cons c p ih =>
    have hc := h c List.mem_cons_self
    have hrest := ih fun d hd => h d (List.mem_cons_of_mem c hd)
    rw [List.map_cons, List.cons_append, List.cons_append, ← hrest]
    cases hs : p ++ s with
    | nil => exact utf8Unit_of_ascii hc
    | cons d t =>
      have hpair : ¬ (isHigh c && isLow d) = true := by simp [not_isHigh_of_ascii hc]
      rw [utf8, if_neg hpair, utf8Unit_of_ascii hc]
      rfl

/-- Text in front of an ASCII unit is written by itself. -/
theorem utf8_append_cons {c : UInt16} (hc : isAscii c) (s t : JsString) :
    utf8 (s ++ c :: t) = utf8 s ++ utf8 (c :: t) := by
  induction s using utf8.induct with
  | case1 => rfl
  | case2 d =>
    have hpair : ¬ (isHigh d && isLow c) = true := by simp [not_isLow_of_ascii hc]
    rw [List.singleton_append, utf8, utf8, if_neg hpair]
  | case3 d e s hpair ih =>
    rw [List.cons_append, List.cons_append, utf8, if_pos hpair, utf8, if_pos hpair, ih,
      List.append_assoc]
  | case4 d e s hpair ih =>
    rw [List.cons_append, List.cons_append, utf8, if_neg hpair, utf8, if_neg hpair,
      ← List.cons_append, ih, List.append_assoc]

/-- A unit of a line of ASCII text: not the line feed. -/
def isPlain (c : UInt16) : Bool := isAscii c && c ≠ 0x0A

/-- A line of ASCII text is written as its bytes and one line feed. -/
theorem utf8_line (s : JsString) (h : ∀ c ∈ s, isPlain c) :
    utf8 (s ++ [unit '\n']) = s.map byte ++ [0x0A] := by
  rw [utf8_eq_map_of_ascii, List.map_append]
  · rfl
  · intro c hc
    rcases List.mem_append.mp hc with hs | hnl
    · have hplain := h c hs
      simp only [isPlain, Bool.and_eq_true] at hplain
      exact hplain.1
    · rw [List.mem_singleton.mp hnl]
      decide

theorem lf_not_mem_bytes {s : JsString} (h : ∀ c ∈ s, isPlain c) : 0x0A ∉ s.map byte := by
  intro hmem
  obtain ⟨c, hc, hbyte⟩ := List.mem_map.mp hmem
  have hplain := h c hc
  simp only [isPlain, Bool.and_eq_true, decide_eq_true_eq] at hplain
  have hlt := toNat_lt_of_ascii hplain.1
  have hval : (byte c).toNat = c.toNat := by
    simp only [byte, UInt8.toNat_ofNat']
    omega
  rw [hbyte] at hval
  exact hplain.2 (UInt16.toNat_inj.mp hval.symm)

/-- The bytes of a code point above 127 are above 127. -/
theorem utf8Point_ge {n : Nat} (hn : n < 0x110000) (hbig : 0x80 ≤ n) :
    ∀ b ∈ utf8Point n, 0x80 ≤ b.toNat := by
  unfold utf8Point
  intro b hb
  split_ifs at hb <;> simp only [List.mem_cons, List.not_mem_nil, or_false] at hb
  · omega
  · rcases hb with rfl | rfl <;> rw [UInt8.toNat_ofNat'] <;> omega
  · rcases hb with rfl | rfl | rfl <;> rw [UInt8.toNat_ofNat'] <;> omega
  · rcases hb with rfl | rfl | rfl | rfl <;> rw [UInt8.toNat_ofNat'] <;> omega

/-! ## Well-formed strings -/

/-- What is read for a unit that is not half of a pair. -/
def replaceLone (c : UInt16) : UInt16 := if isHigh c || isLow c then 0xFFFD else c

/-- `s.toWellFormed()`: unpaired surrogates become U+FFFD. -/
def toWellFormed : JsString → JsString
  | [] => []
  | [c] => [replaceLone c]
  | c :: d :: s =>
      if isHigh c && isLow d then c :: d :: toWellFormed s
      else replaceLone c :: toWellFormed (d :: s)

/-- The code points that are written for a string. -/
def points : JsString → List Nat
  | [] => []
  | [c] => [(replaceLone c).toNat]
  | c :: d :: s =>
      if isHigh c && isLow d then pairPoint c d :: points s
      else (replaceLone c).toNat :: points (d :: s)

/-- The units of a code point. -/
def pointUnits (n : Nat) : JsString :=
  if n < 0x10000 then [UInt16.ofNat n]
  else [UInt16.ofNat (0xD800 + (n - 0x10000) / 0x400),
    UInt16.ofNat (0xDC00 + (n - 0x10000) % 0x400)]

theorem utf8Unit_eq (c : UInt16) : utf8Unit c = utf8Point (replaceLone c).toNat := by
  unfold utf8Unit replaceLone
  split
  · rfl
  · rfl

theorem utf8_eq_flatMap (s : JsString) : utf8 s = (points s).flatMap utf8Point := by
  induction s using utf8.induct with
  | case1 => rfl
  | case2 c => rw [utf8, points, List.flatMap_singleton, utf8Unit_eq]
  | case3 c d s hpair ih => rw [utf8, points, if_pos hpair, if_pos hpair, List.flatMap_cons, ih]
  | case4 c d s hpair ih =>
    rw [utf8, points, if_neg hpair, if_neg hpair, List.flatMap_cons, ih, utf8Unit_eq]

theorem pointUnits_toNat (c : UInt16) : pointUnits c.toNat = [c] := by
  have hlt := c.toNat_lt
  rw [pointUnits, if_pos hlt, UInt16.ofNat_toNat]

theorem pair_bounds {c d : UInt16} (h : (isHigh c && isLow d) = true) :
    0xD800 ≤ c.toNat ∧ c.toNat ≤ 0xDBFF ∧ 0xDC00 ≤ d.toNat ∧ d.toNat ≤ 0xDFFF := by
  simp only [isHigh, isLow, Bool.and_eq_true, decide_eq_true_eq, UInt16.le_iff_toNat_le] at h
  exact ⟨h.1.1, h.1.2, h.2.1, h.2.2⟩

theorem pointUnits_pairPoint {c d : UInt16} (h : (isHigh c && isLow d) = true) :
    pointUnits (pairPoint c d) = [c, d] := by
  obtain ⟨hc, hc', hd, hd'⟩ := pair_bounds h
  have hhigh : 0xD800 + (pairPoint c d - 0x10000) / 0x400 = c.toNat := by
    unfold pairPoint
    omega
  have hlow : 0xDC00 + (pairPoint c d - 0x10000) % 0x400 = d.toNat := by
    unfold pairPoint
    omega
  rw [pointUnits, if_neg (by unfold pairPoint; omega), hhigh, hlow, UInt16.ofNat_toNat,
    UInt16.ofNat_toNat]

theorem toWellFormed_eq_flatMap (s : JsString) :
    toWellFormed s = (points s).flatMap pointUnits := by
  induction s using utf8.induct with
  | case1 => rfl
  | case2 c => rw [toWellFormed, points, List.flatMap_singleton, pointUnits_toNat]
  | case3 c d s hpair ih =>
    rw [toWellFormed, points, if_pos hpair, if_pos hpair, List.flatMap_cons, ih,
      pointUnits_pairPoint hpair]
    rfl
  | case4 c d s hpair ih =>
    rw [toWellFormed, points, if_neg hpair, if_neg hpair, List.flatMap_cons, ih, pointUnits_toNat]
    rfl

theorem points_lt (s : JsString) : ∀ n ∈ points s, n < 0x110000 := by
  induction s using utf8.induct with
  | case1 => exact nofun
  | case2 c =>
    intro n hn
    have hlt := (replaceLone c).toNat_lt
    rw [List.mem_singleton.mp hn]
    omega
  | case3 c d s hpair ih =>
    intro n hn
    rw [points, if_pos hpair] at hn
    rcases List.mem_cons.mp hn with heq | hn
    · obtain ⟨hc, hc', hd, hd'⟩ := pair_bounds hpair
      have hpoint : n = 0x10000 + (c.toNat - 0xD800) * 0x400 + (d.toNat - 0xDC00) := heq
      omega
    · exact ih n hn
  | case4 c d s hpair ih =>
    intro n hn
    have hlt := (replaceLone c).toNat_lt
    rw [points, if_neg hpair] at hn
    rcases List.mem_cons.mp hn with heq | hn
    · omega
    · exact ih n hn

theorem mem_points_of_lt {s : JsString} {n : Nat} (h : n ∈ points s) (hn : n < 0x80) :
    ∃ c ∈ s, c.toNat = n := by
  have hlone : ∀ c : UInt16, (replaceLone c).toNat = n → c.toNat = n := by
    intro c hc
    unfold replaceLone at hc
    split at hc
    · have hFFFD : (0xFFFD : UInt16).toNat = 65533 := rfl
      omega
    · exact hc
  induction s using utf8.induct with
  | case1 => cases h
  | case2 c => exact ⟨c, List.mem_cons_self, hlone c (List.mem_singleton.mp h).symm⟩
  | case3 c d s hpair ih =>
    rw [points, if_pos hpair] at h
    rcases List.mem_cons.mp h with heq | h
    · have hpoint : 0x10000 ≤ pairPoint c d := by
        unfold pairPoint
        omega
      omega
    · obtain ⟨e, he, hval⟩ := ih h
      exact ⟨e, List.mem_cons_of_mem _ (List.mem_cons_of_mem _ he), hval⟩
  | case4 c d s hpair ih =>
    rw [points, if_neg hpair] at h
    rcases List.mem_cons.mp h with heq | h
    · exact ⟨c, List.mem_cons_self, hlone c heq.symm⟩
    · obtain ⟨e, he, hval⟩ := ih h
      exact ⟨e, List.mem_cons_of_mem _ he, hval⟩

/-- **An ASCII byte is written for its unit only.** -/
theorem mem_of_byte_mem_utf8 {s : JsString} {c : UInt16} (hc : isAscii c)
    (h : byte c ∈ utf8 s) : c ∈ s := by
  have hlt := toNat_lt_of_ascii hc
  have hbyte : (byte c).toNat = c.toNat := by
    rw [byte, UInt8.toNat_ofNat']
    omega
  rw [utf8_eq_flatMap] at h
  obtain ⟨n, hn, hmem⟩ := List.mem_flatMap.mp h
  by_cases hsmall : n < 0x80
  · have hval : n = c.toNat := by
      rw [utf8Point, if_pos hsmall, List.mem_singleton] at hmem
      have htoNat := congrArg UInt8.toNat hmem
      rw [hbyte, UInt8.toNat_ofNat'] at htoNat
      omega
    obtain ⟨d, hd, hdn⟩ := mem_points_of_lt hn hsmall
    rwa [← UInt16.toNat_inj.mp (hdn.trans hval)]
  · have hbig := utf8Point_ge (points_lt s n hn) (Nat.le_of_not_lt hsmall) _ hmem
    omega

theorem ofNat_eq_iff (a b : Nat) : UInt8.ofNat a = UInt8.ofNat b ↔ a % 256 = b % 256 := by
  rw [← UInt8.toNat_inj, UInt8.toNat_ofNat', UInt8.toNat_ofNat']

/-- The bytes of a code point show where it ends. -/
theorem utf8Point_append_inj {m n : Nat} (hm : m < 0x110000) (hn : n < 0x110000)
    {s t : List UInt8} (h : utf8Point m ++ s = utf8Point n ++ t) : m = n ∧ s = t := by
  unfold utf8Point at h
  split_ifs at h <;>
    simp only [List.cons_append, List.nil_append, List.cons.injEq, ofNat_eq_iff] at h
  -- the first bytes of different lengths differ
  all_goals try omega
  · exact ⟨by omega, h.2⟩
  · exact ⟨by omega, h.2.2⟩
  · exact ⟨by omega, h.2.2.2⟩
  · exact ⟨by omega, h.2.2.2.2⟩

theorem utf8Point_ne_nil (n : Nat) : utf8Point n ≠ [] := by
  unfold utf8Point
  split_ifs
  all_goals exact List.cons_ne_nil _ _

theorem flatMap_utf8Point_inj {l m : List Nat} (hl : ∀ n ∈ l, n < 0x110000)
    (hm : ∀ n ∈ m, n < 0x110000) (h : l.flatMap utf8Point = m.flatMap utf8Point) : l = m := by
  induction l generalizing m with
  | nil =>
    cases m with
    | nil => rfl
    | cons n m => exact absurd (List.append_eq_nil_iff.mp h.symm).1 (utf8Point_ne_nil n)
  | cons k l ih =>
    cases m with
    | nil => exact absurd (List.append_eq_nil_iff.mp h).1 (utf8Point_ne_nil k)
    | cons n m =>
      obtain ⟨rfl, hrest⟩ := utf8Point_append_inj (hl k List.mem_cons_self)
        (hm n List.mem_cons_self) h
      rw [ih (fun i hi => hl i (List.mem_cons_of_mem _ hi))
        (fun i hi => hm i (List.mem_cons_of_mem _ hi)) hrest]

/-- **Strings with the same bytes are the same**, but for their unpaired surrogates. -/
theorem toWellFormed_eq_of_utf8 {s t : JsString} (h : utf8 s = utf8 t) :
    toWellFormed s = toWellFormed t := by
  rw [utf8_eq_flatMap, utf8_eq_flatMap] at h
  rw [toWellFormed_eq_flatMap, toWellFormed_eq_flatMap,
    flatMap_utf8Point_inj (points_lt s) (points_lt t) h]

/-- Text of units below 256 has no surrogates. -/
theorem toWellFormed_of_latin1 {s : JsString} (h : ∀ c ∈ s, c.toNat < 256) :
    toWellFormed s = s := by
  have hlone : ∀ c : UInt16, c.toNat < 256 → isHigh c = false ∧ isLow c = false := by
    intro c hc
    have hD8 : (0xD800 : UInt16).toNat = 55296 := rfl
    have hDC : (0xDC00 : UInt16).toNat = 56320 := rfl
    constructor
    · simp only [isHigh, Bool.and_eq_false_iff, decide_eq_false_iff_not, UInt16.le_iff_toNat_le]
      omega
    · simp only [isLow, Bool.and_eq_false_iff, decide_eq_false_iff_not, UInt16.le_iff_toNat_le]
      omega
  have hunit : ∀ c : UInt16, c.toNat < 256 → replaceLone c = c := fun c hc => by
    simp [replaceLone, hlone c hc]
  induction s using utf8.induct with
  | case1 => rfl
  | case2 c => rw [toWellFormed, hunit c (h c List.mem_cons_self)]
  | case3 c d s hpair =>
    rw [(hlone c (h c List.mem_cons_self)).1] at hpair
    exact absurd hpair nofun
  | case4 c d s hpair ih =>
    rw [toWellFormed, if_neg hpair, hunit c (h c List.mem_cons_self),
      ih fun e he => h e (List.mem_cons_of_mem _ he)]

end JsString
