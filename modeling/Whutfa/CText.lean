import Mathlib.Data.Rat.Cast.Order

/-! # Text in C

What C++ code needs of `std::string::find`, `strtod`, `std::stoul` and `std::stod`, on
bytes.  A converted number is an exact rational (rounding to a `double` is left out), an
infinity or a NaN.  A search and a conversion that end inside a text do not depend on what
follows it (`find_append_of_some`, `strtod_append_cons`).
-/
namespace CText

/-- A literal of ASCII characters. -/
def bytes (s : String) : List UInt8 := s.toList.map fun c => UInt8.ofNat c.toNat

/-- `text.find(key)`: the text from the first occurrence on. -/
def find (key : List UInt8) : List UInt8 → Option (List UInt8)
  | [] => if key.isEmpty then some [] else none
  | c :: t => if key.isPrefixOf (c :: t) then some (c :: t) else find key t

/-- `isspace` in the C locale. -/
def isSpace (c : UInt8) : Bool := c = 0x20 || (0x09 ≤ c && c ≤ 0x0D)

/-- `tolower` for the letters of ASCII. -/
def lower (c : UInt8) : UInt8 := if 0x41 ≤ c && c ≤ 0x5A then c + 0x20 else c

/-- The value of a digit of the base. -/
def digit? (base : Nat) (c : UInt8) : Option Nat :=
  let n := (lower c).toNat
  let v := if 0x30 ≤ n ∧ n ≤ 0x39 then n - 0x30 else if 0x61 ≤ n then n - 0x61 + 10 else base
  if v < base then some v else none

/-- The digits in front. -/
def digits (base : Nat) (t : List UInt8) : List Nat :=
  (t.takeWhile fun c => (digit? base c).isSome).filterMap (digit? base)

/-- The number that digits stand for. -/
def digitsValue (base : Nat) (ds : List Nat) : Nat := ds.foldl (fun n d => base * n + d) 0

/-- What a conversion to `double` gives. -/
inductive Double
  | finite (q : ℚ)
  | infinity (neg : Bool)
  | nan

/-- A sign, and the rest. -/
def readSign : List UInt8 → Bool × List UInt8
  | [] => (false, [])
  | c :: t => if c = 0x2D then (true, t) else if c = 0x2B then (false, t) else (false, c :: t)

/-- Digits with at most one point, at least one digit: the value, and the rest. -/
def mantissa (base : Nat) (t : List UInt8) : Option (ℚ × List UInt8) :=
  let int := digits base t
  let t := t.drop int.length
  let point := t.head? = some 0x2E
  let frac := if point then digits base (t.drop 1) else []
  if int.isEmpty && frac.isEmpty then none
  else
    some (digitsValue base (int ++ frac) / (base : ℚ) ^ frac.length,
      if point then t.drop (frac.length + 1) else t)

/-- The exponent after its letter, or zero. -/
def exponent (letter : UInt8) (t : List UInt8) : Int :=
  match t with
  | [] => 0
  | c :: t =>
      let (neg, t) := readSign t
      let value : Int := digitsValue 10 (digits 10 t)
      if lower c = letter then if neg then -value else value else 0

/-- `text` begins with the word, in any case. -/
def hasWord (word : List UInt8) (t : List UInt8) : Bool := (t.take word.length).map lower = word

/-- A number in the base, scaled by a power of `radix`. -/
def scaled (base : Nat) (radix : ℚ) (letter : UInt8) (neg : Bool) (t : List UInt8) :
    Option Double :=
  (mantissa base t).map fun (m, rest) =>
    .finite ((if neg then -m else m) * radix ^ exponent letter rest)

/-- `strtod`, or `none` when nothing is converted. -/
def strtod (t : List UInt8) : Option Double :=
  let (neg, t) := readSign (t.dropWhile isSpace)
  if hasWord (bytes "inf") t then some (.infinity neg)
  else if hasWord (bytes "nan") t then some .nan
  else if hasWord (bytes "0x") t && (mantissa 16 (t.drop 2)).isSome then
    scaled 16 2 0x70 neg (t.drop 2)
  else scaled 10 10 0x65 neg t

/-- `static_cast<int>`: truncation, `none` where the result is undefined. -/
def toInt : Double → Option Int
  | .finite q =>
      let n := q.num.tdiv q.den
      if -2147483648 ≤ n ∧ n ≤ 2147483647 then some n else none
  | _ => none

/-- `std::stoul`: an `unsigned long` of 64 bits, or `none` when it throws. -/
def stoul (t : List UInt8) : Option Nat :=
  let (neg, t) := readSign (t.dropWhile isSpace)
  let value := digitsValue 10 (digits 10 t)
  if (digits 10 t).isEmpty || 2 ^ 64 ≤ value then none
  else some (if neg then (2 ^ 64 - value) % 2 ^ 64 else value)

/-- Whether a number is out of the range of a `double`: an overflow, or an underflow that
loses digits. -/
def outOfRange (q : ℚ) : Bool :=
  2 ^ 1024 - 2 ^ 970 ≤ |q| || (0 < |q| && |q| * 2 ^ 1022 < 1 && (q * 2 ^ 1074).den ≠ 1)

/-- `std::stod`, or `none` when it throws. -/
def stod (t : List UInt8) : Option Double :=
  match strtod t with
  | some (.finite q) => if outOfRange q then none else some (.finite q)
  | d => d

/-! ## Searching in longer texts

What is found in a text is found in a longer one, and what is not in it is looked for in what
follows, if that begins with a byte that the key does not have. -/

theorem isPrefixOf_append_of_le {key t : List UInt8} (h : key.length ≤ t.length) (s : List UInt8) :
    key.isPrefixOf (t ++ s) = key.isPrefixOf t := by
  rw [Bool.eq_iff_iff, List.isPrefixOf_iff_prefix, List.isPrefixOf_iff_prefix]
  constructor
  · exact fun hpre => List.prefix_of_prefix_length_le hpre (List.prefix_append _ _) h
  · exact fun hpre => hpre.trans (List.prefix_append _ _)

/-- A key that begins in `t` ends in it, if what follows begins with a byte that is not of
the key. -/
theorem isPrefixOf_append_cons {key : List UInt8} {c : UInt8} (hc : c ∉ key) (t u : List UInt8) :
    key.isPrefixOf (t ++ c :: u) = key.isPrefixOf t := by
  by_cases hlen : key.length ≤ t.length
  · exact isPrefixOf_append_of_le hlen _
  · rw [Bool.eq_iff_iff, List.isPrefixOf_iff_prefix, List.isPrefixOf_iff_prefix]
    refine ⟨fun h => absurd ?_ hc, fun h => h.trans (List.prefix_append _ _)⟩
    -- the key would go on over `c`
    have hpre : t ++ [c] <+: key := by
      refine List.prefix_of_prefix_length_le ?_ h (by rw [List.length_append]; simp; omega)
      rw [List.append_cons t c u]
      exact List.prefix_append _ _
    exact hpre.subset (List.mem_append_right t (List.mem_singleton_self c))

theorem find_length {key r t : List UInt8} (h : find key r = some t) : key.length ≤ r.length := by
  induction r with
  | nil =>
    cases key with
    | nil => exact Nat.le_refl 0
    | cons k key => cases h
  | cons c r ih =>
    rw [find] at h
    by_cases hpre : key.isPrefixOf (c :: r) = true
    · exact (List.isPrefixOf_iff_prefix.mp hpre).length_le
    · rw [if_neg hpre] at h
      exact Nat.le_succ_of_le (ih h)

/-- The first occurrence stays the first when the text goes on. -/
theorem find_append_of_some {key r t : List UInt8} (h : find key r = some t) (s : List UInt8) :
    find key (r ++ s) = some (t ++ s) := by
  induction r with
  | nil =>
    cases key with
    | nil =>
      obtain rfl := Option.some.inj h
      cases s <;> rfl
    | cons k key => cases h
  | cons c r ih =>
    have hlen := find_length h
    rw [List.cons_append, find, ← List.cons_append, isPrefixOf_append_of_le hlen]
    rw [find] at h
    by_cases hpre : key.isPrefixOf (c :: r) = true
    · rw [if_pos hpre] at h ⊢
      obtain rfl := Option.some.inj h
      rfl
    · rw [if_neg hpre] at h ⊢
      exact ih h

/-- A text without the key is skipped, if what follows begins with a byte that is not of
the key. -/
theorem find_append_of_none {key r u : List UInt8} {c : UInt8} (h : find key r = none)
    (hc : c ∉ key) : find key (r ++ c :: u) = find key (c :: u) := by
  induction r with
  | nil => rfl
  | cons b r ih =>
    rw [List.cons_append, find, ← List.cons_append, isPrefixOf_append_cons hc]
    rw [find] at h
    by_cases hpre : key.isPrefixOf (b :: r) = true
    · rw [if_pos hpre] at h
      cases h
    · rw [if_neg hpre] at h ⊢
      exact ih h

theorem find_eq_none_of_not_mem {k : UInt8} {key r : List UInt8} (h : k ∉ r) :
    find (k :: key) r = none := by
  induction r with
  | nil => rfl
  | cons b r ih =>
    have hpre : (k :: key).isPrefixOf (b :: r) = false := by
      have hne : k ≠ b := fun heq => h (heq ▸ List.mem_cons_self)
      show (k == b && key.isPrefixOf r) = false
      rw [beq_false_of_ne hne, Bool.false_and]
    rw [find, if_neg (by rw [hpre]; nofun)]
    exact ih fun hmem => h (List.mem_cons_of_mem _ hmem)

/-! ## Where a number ends

`strtod` is given the rest of the line, and reads on until a byte stops it.  Up to a byte that
no part of a number begins with or goes on with, only the text in front of it matters. -/

/-- A byte that begins no number, and that no number goes on with. -/
structure Stops (c : UInt8) : Prop where
  notSpace : isSpace c = false
  notSign : c ≠ 0x2D ∧ c ≠ 0x2B
  notPoint : c ≠ 0x2E
  notDigit : digit? 10 c = none ∧ digit? 16 c = none
  notLetter : lower c ∉ bytes "infap0xe"

variable {c : UInt8}

theorem digits_append_cons {base : Nat} (hc : digit? base c = none) (t u : List UInt8) :
    digits base (t ++ c :: u) = digits base t := by
  unfold digits
  congr 1
  induction t with
  | nil => simp [hc]
  | cons b t ih =>
    rw [List.cons_append, List.takeWhile_cons, List.takeWhile_cons]
    by_cases hb : (digit? base b).isSome = true
    · rw [if_pos hb, if_pos hb, ih]
    · rw [if_neg hb, if_neg hb]

theorem length_digits_le (base : Nat) (t : List UInt8) : (digits base t).length ≤ t.length :=
  Nat.le_trans (List.length_filterMap_le ..) (List.takeWhile_prefix _).length_le

theorem drop_digits_append {base : Nat} (t s : List UInt8) :
    (t ++ s).drop (digits base t).length = t.drop (digits base t).length ++ s :=
  List.drop_append_of_le_length (length_digits_le base t)

theorem mantissa_append_cons {base : Nat} (hc : digit? base c = none) (hpoint : c ≠ 0x2E)
    (t u : List UInt8) :
    mantissa base (t ++ c :: u) = (mantissa base t).map fun (m, rest) => (m, rest ++ c :: u) := by
  unfold mantissa
  simp only [digits_append_cons hc, drop_digits_append]
  generalize t.drop (digits base t).length = rest
  cases rest with
  | nil =>
    by_cases hint : (digits base t).isEmpty = true
    · simp only [hint]
      simp [hpoint]
    · simp only [hint]
      simp [hpoint]
  | cons b rest =>
    by_cases hb : b = 0x2E
    · subst hb
      have hfrac := digits_append_cons hc rest u
      have hrest : (rest ++ c :: u).drop (digits base rest).length =
          rest.drop (digits base rest).length ++ c :: u := drop_digits_append rest (c :: u)
      by_cases hempty : ((digits base t).isEmpty && (digits base rest).isEmpty) = true
      · simp [hfrac, hempty]
      · simp [hfrac, hempty, hrest]
    · by_cases hint : (digits base t).isEmpty <;> simp [hint, hb]

theorem readSign_append_cons (hc : c ≠ 0x2D ∧ c ≠ 0x2B) (t u : List UInt8) :
    readSign (t ++ c :: u) = ((readSign t).1, (readSign t).2 ++ c :: u) := by
  cases t with
  | nil => simp [readSign, hc.1, hc.2]
  | cons b t =>
    simp only [List.cons_append, readSign]
    split
    · rfl
    · split <;> rfl

theorem exponent_append_cons {letter : UInt8} (hc : Stops c) (hletter : lower c ≠ letter)
    (t u : List UInt8) : exponent letter (t ++ c :: u) = exponent letter t := by
  cases t with
  | nil => simp [exponent, hletter]
  | cons b t =>
    simp only [List.cons_append, exponent, readSign_append_cons hc.notSign,
      digits_append_cons hc.notDigit.1]

/-- A word that begins in `t` ends in it. -/
theorem hasWord_append_cons {word : List UInt8} (hc : lower c ∉ word) (t u : List UInt8) :
    hasWord word (t ++ c :: u) = hasWord word t := by
  unfold hasWord
  rw [Bool.eq_iff_iff, decide_eq_true_iff, decide_eq_true_iff]
  by_cases hlen : word.length ≤ t.length
  · rw [List.take_append_of_le_length hlen]
  · constructor
    · intro h
      refine absurd ?_ hc
      rw [← h]
      refine List.mem_map_of_mem (List.mem_take_iff_getElem.mpr ⟨t.length, ?_, ?_⟩)
      · simp
        omega
      · simp
    · intro h
      have hshort := congrArg List.length h
      rw [List.length_map, List.length_take] at hshort
      omega

theorem dropWhile_isSpace_append_cons (hc : isSpace c = false) (t u : List UInt8) :
    (t ++ c :: u).dropWhile isSpace = t.dropWhile isSpace ++ c :: u := by
  induction t with
  | nil => exact List.dropWhile_cons_of_neg (by rw [hc]; nofun)
  | cons b t ih =>
    rw [List.cons_append, List.dropWhile_cons, List.dropWhile_cons]
    by_cases hb : isSpace b = true
    · rw [if_pos hb, if_pos hb, ih]
    · rw [if_neg hb, if_neg hb]
      rfl

theorem scaled_append_cons {base : Nat} {radix : ℚ} {letter : UInt8} {neg : Bool} (hc : Stops c)
    (hdigit : digit? base c = none) (hletter : lower c ≠ letter) (t u : List UInt8) :
    scaled base radix letter neg (t ++ c :: u) = scaled base radix letter neg t := by
  unfold scaled
  rw [mantissa_append_cons hdigit hc.notPoint, Option.map_map]
  congr 1
  funext ⟨m, rest⟩
  simp [exponent_append_cons hc hletter]

/-- **A conversion does not look behind the number.** -/
theorem strtod_append_cons (hc : Stops c) (t u : List UInt8) :
    strtod (t ++ c :: u) = strtod t := by
  have hletter : ∀ l ∈ bytes "infap0xe", lower c ≠ l := fun l hl heq => hc.notLetter (heq ▸ hl)
  have hword : ∀ word : List UInt8, (word.all fun l => l ∈ bytes "infap0xe") = true →
      lower c ∉ word := fun word hall hmem =>
    hc.notLetter (of_decide_eq_true (List.all_eq_true.mp hall _ hmem))
  unfold strtod
  rw [dropWhile_isSpace_append_cons hc.notSpace, readSign_append_cons hc.notSign]
  obtain ⟨neg, t⟩ := readSign (t.dropWhile isSpace)
  simp only
  rw [hasWord_append_cons (hword _ rfl), hasWord_append_cons (hword _ rfl),
    hasWord_append_cons (hword _ rfl),
    scaled_append_cons hc hc.notDigit.1 (hletter _ (by decide))]
  by_cases hhex : hasWord (bytes "0x") t = true
  · -- the two letters are there
    have htwo : 2 ≤ t.length := by
      have hlen := congrArg List.length (of_decide_eq_true hhex)
      rw [List.length_map, List.length_take] at hlen
      have hword2 : (bytes "0x").length = 2 := rfl
      omega
    rw [List.drop_append_of_le_length htwo, mantissa_append_cons hc.notDigit.2 hc.notPoint,
      Option.isSome_map, scaled_append_cons hc hc.notDigit.2 (hletter _ (by decide))]
  · simp only [Bool.not_eq_true] at hhex
    simp only [hhex, Bool.false_and, Bool.false_eq_true, if_false]

/-- A byte that no number begins with. -/
theorem strtod_cons_eq_none {t : List UInt8} (hc : Stops c) : strtod (c :: t) = none :=
  strtod_append_cons hc [] t

end CText
