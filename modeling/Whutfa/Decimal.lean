import Mathlib.Data.Rat.Cast.Order
import Whutfa.JsString

/-! # Decimal literals

Numbers as they are written: sign, integer part, fraction digits, exponent, with
the value an exact rational.  `print` writes a literal in the layout of JSON and
`read` takes one, in any layout JSON allows, from the front of a text;
`read_print` is the round trip.
-/

/-- A decimal literal: sign, integer part, fraction digits, exponent. -/
structure Decimal where
  neg : Bool
  int : Nat
  frac : List (Fin 10)
  exp : Option Int
  deriving DecidableEq

open JsString

namespace Decimal

/-- The literal of a natural number. -/
def ofNat (n : Nat) : Decimal := { neg := false, int := n, frac := [], exp := none }

/-- The number a literal stands for. -/
def value (d : Decimal) : ℚ :=
  let magnitude := d.frac.foldr (fun a v => ((a.val : ℚ) + v) / 10) 0 + d.int
  (if d.neg then -1 else 1) * magnitude * 10 ^ d.exp.getD 0

@[simp] theorem value_ofNat (n : Nat) : (ofNat n).value = n := by
  simp [value, ofNat]

/-! ### Digits -/

/-- The digits of a natural number, as every printer here writes them. -/
def digits (n : Nat) : JsString := (Nat.toDigits 10 n).map unit

/-- The digits of a number. -/
def isDigit (c : UInt16) : Bool := 0x30 ≤ c && c ≤ 0x39

/-- The number that digits stand for. -/
def digitsValue (s : JsString) : Nat := s.foldl (fun n c => 10 * n + (c.toNat - 0x30)) 0

/-- The character of a digit behind the point. -/
def fracUnit (d : Fin 10) : UInt16 := UInt16.ofNat (0x30 + d)

/-- The digit that a character stands for. -/
def fracDigit (c : UInt16) : Fin 10 := Fin.ofNat 10 (c.toNat - 0x30)

theorem isDigit_fracUnit : ∀ d : Fin 10, isDigit (fracUnit d) := by decide

theorem fracDigit_fracUnit : ∀ d : Fin 10, fracDigit (fracUnit d) = d := by decide

theorem toNat_unit_of_isDigit {c : Char} (hc : c.isDigit) : (unit c).toNat = c.toNat := by
  have hle : c.toNat ≤ 57 := by
    simp only [Char.isDigit, Bool.and_eq_true, decide_eq_true_eq] at hc
    exact hc.2
  simp only [unit, UInt16.toNat_ofNat']
  omega

theorem isDigit_unit {c : Char} (hc : c.isDigit) : isDigit (unit c) := by
  have hval := toNat_unit_of_isDigit hc
  simp only [Char.isDigit, Bool.and_eq_true, decide_eq_true_eq] at hc
  have h1 : 48 ≤ c.toNat := hc.1
  have h2 : c.toNat ≤ 57 := hc.2
  have h30 : (0x30 : UInt16).toNat = 48 := rfl
  have h39 : (0x39 : UInt16).toNat = 57 := rfl
  simp only [isDigit, Bool.and_eq_true, decide_eq_true_eq, UInt16.le_iff_toNat_le]
  omega

theorem isDigit_of_mem_digits {n : Nat} {c : UInt16} (hc : c ∈ digits n) : isDigit c := by
  obtain ⟨d, hd, rfl⟩ := List.mem_map.mp hc
  exact isDigit_unit (Nat.isDigit_of_mem_toDigits (by omega) (by omega) hd)

theorem digits_ne_nil (n : Nat) : digits n ≠ [] := by
  intro h
  exact Nat.toDigits_ne_nil (List.map_eq_nil_iff.mp h)

theorem digitsValue_digits (n : Nat) : digitsValue (digits n) = n := by
  have hfold : ∀ (l : List Char) (v : Nat), (∀ c ∈ l, c.isDigit) →
      (l.map unit).foldl (fun n c => 10 * n + (c.toNat - 0x30)) v = Nat.ofDigitChars 10 l v := by
    intro l
    induction l with
    | nil => intro v _; simp
    | cons c l ih =>
      intro v hl
      rw [List.map_cons, List.foldl_cons, Nat.ofDigitChars_cons,
        ih _ (fun d hd => hl d (List.mem_cons_of_mem _ hd)),
        toNat_unit_of_isDigit (hl c (List.mem_cons_self ..))]
      rfl
  unfold digitsValue digits
  rw [hfold _ 0 (fun c hc => Nat.isDigit_of_mem_toDigits (by omega) (by omega) hc)]
  exact Nat.ofDigitChars_ten_toDigits

/-- The digits in front, and the rest. -/
def spanDigits (t : JsString) : JsString × JsString := (t.takeWhile isDigit, t.dropWhile isDigit)

theorem spanDigits_append {ds t : JsString} (hds : ∀ c ∈ ds, isDigit c)
    (ht : ∀ c, t.head? = some c → isDigit c = false) : spanDigits (ds ++ t) = (ds, t) := by
  unfold spanDigits
  rw [List.takeWhile_append_of_pos hds, List.dropWhile_append_of_pos hds]
  cases t with
  | nil => simp
  | cons c t =>
    have hc := ht c rfl
    simp [hc]

/-! ### Printing and reading a literal -/

/-- The digits behind the point, and the point, if there are any. -/
def printFrac (frac : List (Fin 10)) : JsString :=
  if frac.isEmpty then [] else unit '.' :: frac.map fracUnit

/-- The exponent with its sign, if there is one. -/
def printExp : Option Int → JsString
  | none => []
  | some e => unit 'e' :: (if e < 0 then unit '-' else unit '+') :: digits e.natAbs

/-- The text of a number in JSON. -/
def print (d : Decimal) : JsString :=
  (if d.neg then [unit '-'] else []) ++ digits d.int ++ printFrac d.frac ++ printExp d.exp

/-- One optional character. -/
def readFlag (c : UInt16) : JsString → Bool × JsString
  | [] => (false, [])
  | d :: t => if d = c then (true, t) else (false, d :: t)

theorem readFlag_self (c : UInt16) (t : JsString) : readFlag c (c :: t) = (true, t) :=
  if_pos rfl

/-- What stands behind a point; a point needs a digit. -/
def readFrac (t : JsString) : Option (List (Fin 10) × JsString) :=
  let (point, t') := readFlag (unit '.') t
  if point then
    let (ds, rest) := spanDigits t'
    if ds.isEmpty then none else some (ds.map fracDigit, rest)
  else some ([], t)

/-- An exponent with or without a sign. -/
def readExp : JsString → Option (Option Int × JsString)
  | [] => some (none, [])
  | c :: t =>
      if c = unit 'e' || c = unit 'E' then
        let (neg, t') := readFlag (unit '-') t
        let (_, t'') := if neg then (false, t') else readFlag (unit '+') t'
        let (ds, rest) := spanDigits t''
        if ds.isEmpty then none
        else some (some (if neg then -(digitsValue ds : Int) else digitsValue ds), rest)
      else some (none, c :: t)

/-- A number at the front of a text, and what follows it. -/
def read (t : JsString) : Option (Decimal × JsString) := do
  let (neg, t) := readFlag (unit '-') t
  let (ds, t) := spanDigits t
  -- no superfluous leading zero, and at least one digit
  if ds = digits (digitsValue ds) then
    let (frac, t) ← readFrac t
    let (exp, t) ← readExp t
    some ({ neg, int := digitsValue ds, frac, exp }, t)
  else none

/-- What may follow a literal: nothing that would continue it. -/
def Ends (t : JsString) : Prop :=
  ∀ c, t.head? = some c → isDigit c = false ∧ c ≠ unit '.' ∧ c ≠ unit 'e' ∧ c ≠ unit 'E'

theorem Ends.cons {c : UInt16} (hc : isDigit c = false ∧ c ≠ unit '.' ∧ c ≠ unit 'e' ∧ c ≠ unit 'E')
    (t : JsString) : Ends (c :: t) := by
  intro d hd
  obtain rfl := Option.some.inj hd
  exact hc

theorem Ends.not_digit {t : JsString} (h : Ends t) :
    ∀ c, t.head? = some c → isDigit c = false := fun c hc => (h c hc).1

theorem readExp_print {e : Option Int} {t : JsString} (ht : Ends t) :
    readExp (printExp e ++ t) = some (e, t) := by
  cases e with
  | none =>
    cases t with
    | nil => rfl
    | cons c t =>
      obtain ⟨-, -, he, hE⟩ := ht c rfl
      simp [printExp, readExp, he, hE]
  | some e =>
    have hspan := spanDigits_append (fun c hc => isDigit_of_mem_digits (n := e.natAbs) hc)
      ht.not_digit
    have hne := digits_ne_nil e.natAbs
    by_cases hneg : e < 0
    · simp [printExp, readExp, readFlag, hneg, hspan, hne, digitsValue_digits, abs_of_neg hneg]
    · have habs : (e.natAbs : Int) = e := by omega
      have hpm : unit '+' ≠ unit '-' := by decide
      simp [printExp, readExp, readFlag, hneg, hspan, hne, digitsValue_digits, habs, hpm]

theorem readFrac_print {frac : List (Fin 10)} {t : JsString}
    (ht : ∀ c, t.head? = some c → isDigit c = false ∧ c ≠ unit '.') :
    readFrac (printFrac frac ++ t) = some (frac, t) := by
  cases frac with
  | nil =>
    cases t with
    | nil => rfl
    | cons c t => simp [printFrac, readFrac, readFlag, (ht c rfl).2]
  | cons a frac =>
    have hdigits : ∀ c ∈ (a :: frac).map fracUnit, isDigit c := by
      intro c hc
      obtain ⟨d, -, rfl⟩ := List.mem_map.mp hc
      exact isDigit_fracUnit d
    have hspan := spanDigits_append hdigits (fun c hc => (ht c hc).1)
    have hmap : ((a :: frac).map fracUnit).map fracDigit = a :: frac := by
      rw [List.map_map, show fracDigit ∘ fracUnit = id from funext fracDigit_fracUnit, List.map_id]
    unfold readFrac printFrac
    rw [if_neg (by simp), List.cons_append, readFlag_self]
    simp only [if_true, hspan]
    rw [if_neg (by simp), hmap]

theorem head_printExp {e : Option Int} {t : JsString} (ht : Ends t) :
    ∀ c, (printExp e ++ t).head? = some c → isDigit c = false ∧ c ≠ unit '.' := by
  intro c hc
  cases e with
  | none => exact ⟨(ht c hc).1, (ht c hc).2.1⟩
  | some e =>
    obtain rfl := Option.some.inj hc
    decide

theorem head_printFrac {frac : List (Fin 10)} {t : JsString}
    (ht : ∀ c, t.head? = some c → isDigit c = false) :
    ∀ c, (printFrac frac ++ t).head? = some c → isDigit c = false := by
  intro c hc
  cases frac with
  | nil => exact ht c hc
  | cons a frac =>
    obtain rfl := Option.some.inj hc
    decide

/-- The units a literal is made of. -/
theorem mem_print {d : Decimal} {c : UInt16} (hc : c ∈ d.print) :
    isDigit c ∨ c ∈ js "-.e+" := by
  simp only [print, List.mem_append] at hc
  rcases hc with ((hsign | hint) | hfrac) | hexp
  · split at hsign
    · rw [List.mem_singleton.mp hsign]
      decide
    · cases hsign
  · exact Or.inl (isDigit_of_mem_digits hint)
  · unfold printFrac at hfrac
    split at hfrac
    · cases hfrac
    · rcases List.mem_cons.mp hfrac with rfl | hdigit
      · decide
      · obtain ⟨a, -, rfl⟩ := List.mem_map.mp hdigit
        exact Or.inl (isDigit_fracUnit a)
  · cases hd : d.exp with
    | none =>
      rw [hd] at hexp
      cases hexp
    | some e =>
      rw [hd] at hexp
      rcases List.mem_cons.mp hexp with rfl | hexp
      · decide
      · rcases List.mem_cons.mp hexp with rfl | hdigit
        · split <;> decide
        · exact Or.inl (isDigit_of_mem_digits hdigit)

theorem isPlain_of_isDigit {c : UInt16} (hc : isDigit c) : isPlain c := by
  have h30 : (0x30 : UInt16).toNat = 48 := rfl
  have h39 : (0x39 : UInt16).toNat = 57 := rfl
  have h80 : (0x80 : UInt16).toNat = 128 := rfl
  simp only [isDigit, Bool.and_eq_true, decide_eq_true_eq, UInt16.le_iff_toNat_le] at hc
  simp only [isPlain, isAscii, Bool.and_eq_true, decide_eq_true_eq, UInt16.lt_iff_toNat_lt]
  refine ⟨by omega, ?_⟩
  rintro rfl
  exact absurd hc.1 (by decide)

theorem isPlain_of_mem_print {d : Decimal} {c : UInt16} (hc : c ∈ d.print) : isPlain c := by
  rcases mem_print hc with hdigit | hmark
  · exact isPlain_of_isDigit hdigit
  · have hall : ∀ c ∈ js "-.e+", isPlain c := List.all_eq_true.mp rfl
    exact hall c hmark

/-- A literal without its sign begins with a digit. -/
theorem digits_head (n : Nat) : ∃ c t, digits n = c :: t ∧ isDigit c := by
  cases h : digits n with
  | nil => exact absurd h (digits_ne_nil n)
  | cons c t =>
    have hc : c ∈ digits n := by
      rw [h]
      exact List.mem_cons_self ..
    exact ⟨c, t, rfl, isDigit_of_mem_digits hc⟩

/-- **Reading a printed literal gives the literal back.** -/
theorem read_print (d : Decimal) {t : JsString} (ht : Ends t) :
    read (print d ++ t) = some (d, t) := by
  have hflag : readFlag (unit '-') (print d ++ t) =
      (d.neg, digits d.int ++ (printFrac d.frac ++ (printExp d.exp ++ t))) := by
    cases hneg : d.neg with
    | true => simp [print, hneg, readFlag_self]
    | false =>
      obtain ⟨c, s, hs, hc⟩ := digits_head d.int
      have hne : c ≠ unit '-' := by
        rintro rfl
        exact absurd hc (by decide)
      simp [print, hneg, hs, readFlag, hne]
  have hspan : spanDigits (digits d.int ++ (printFrac d.frac ++ (printExp d.exp ++ t))) =
      (digits d.int, printFrac d.frac ++ (printExp d.exp ++ t)) :=
    spanDigits_append (fun _ hc => isDigit_of_mem_digits hc)
      (head_printFrac fun c hc => (head_printExp ht c hc).1)
  unfold read
  simp only [hflag, hspan, digitsValue_digits, if_true, readFrac_print (head_printExp ht),
    readExp_print ht, Option.bind_eq_bind, Option.bind_some]

end Decimal
