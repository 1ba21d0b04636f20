import Mathlib.Tactic.FieldSimp
import Mathlib.Tactic.Ring
import Whutfa.CText
import Whutfa.Decimal

/-! # Decimal literals, read in C

What `strtod` makes of a literal that a printer of `Decimal` has written: exactly its
value, whatever stands behind it (`strtod_print_append`).  The two grammars agree part by
part, sign, digits, fraction and exponent, and each part ends where the next begins.
-/
namespace CText

open JsString

/-! ## Digits -/

theorem toNat_byte_of_isDigit {c : UInt16} (hc : Decimal.isDigit c) :
    (byte c).toNat = c.toNat ∧ 48 ≤ c.toNat ∧ c.toNat ≤ 57 := by
  have h30 : (0x30 : UInt16).toNat = 48 := rfl
  have h39 : (0x39 : UInt16).toNat = 57 := rfl
  simp only [Decimal.isDigit, Bool.and_eq_true, decide_eq_true_eq, UInt16.le_iff_toNat_le] at hc
  refine ⟨?_, by omega, by omega⟩
  rw [byte, UInt8.toNat_ofNat']
  omega

theorem lower_of_lt {b : UInt8} (hb : b.toNat < 0x41) : lower b = b := by
  have h41 : (0x41 : UInt8).toNat = 65 := rfl
  have hnot : ¬ (0x41 : UInt8) ≤ b := by
    rw [UInt8.le_iff_toNat_le]
    omega
  simp [lower, hnot]

theorem digit?_byte {c : UInt16} (hc : Decimal.isDigit c) :
    digit? 10 (byte c) = some (c.toNat - 0x30) := by
  obtain ⟨hval, hlow, hhigh⟩ := toNat_byte_of_isDigit hc
  have hdigit : 0x30 ≤ c.toNat ∧ c.toNat ≤ 0x39 := ⟨by omega, by omega⟩
  simp only [digit?, lower_of_lt (show (byte c).toNat < 0x41 by omega), hval, hdigit, and_self,
    if_true]
  exact if_pos (by omega)

/-- The digits of a printed number, and what stands behind them. -/
theorem digits_map_byte {ds : JsString} (hds : ∀ c ∈ ds, Decimal.isDigit c) {rest : List UInt8}
    (hrest : ∀ b, rest.head? = some b → digit? 10 b = none) :
    digits 10 (ds.map byte ++ rest) = ds.map fun c => c.toNat - 0x30 := by
  induction ds with
  | nil =>
    cases rest with
    | nil => rfl
    | cons b rest => simp [digits, hrest b rfl]
  | cons c ds ih =>
    have hc := digit?_byte (hds c List.mem_cons_self)
    have htail := ih fun e he => hds e (List.mem_cons_of_mem c he)
    simp only [digits, List.map_cons, List.cons_append] at htail ⊢
    rw [List.takeWhile_cons_of_pos (by rw [hc]; rfl), List.filterMap_cons, hc, htail]

/-- Nothing stands behind the digits. -/
theorem digits_printed (n : Nat) :
    digits 10 ((Decimal.digits n).map byte) = (Decimal.digits n).map fun c => c.toNat - 0x30 := by
  have h : digits 10 ((Decimal.digits n).map byte ++ []) =
      (Decimal.digits n).map fun c => c.toNat - 0x30 :=
    digits_map_byte (fun c hc => Decimal.isDigit_of_mem_digits hc) nofun
  rwa [List.append_nil] at h

theorem digitsValue_append (base : Nat) (a b : List Nat) :
    digitsValue base (a ++ b) = digitsValue base a * base ^ b.length + digitsValue base b := by
  have hfold : ∀ (l : List Nat) (n : Nat), l.foldl (fun n d => base * n + d) n =
      n * base ^ l.length + l.foldl (fun n d => base * n + d) 0 := by
    intro l
    induction l with
    | nil => intro n; simp
    | cons d l ih =>
      intro n
      rw [List.foldl_cons, List.foldl_cons, ih, ih (base * 0 + d), List.length_cons, Nat.pow_succ]
      ring
  rw [digitsValue, List.foldl_append, hfold]
  rfl

theorem digitsValue_digits (n : Nat) :
    digitsValue 10 ((Decimal.digits n).map fun c => c.toNat - 0x30) = n := by
  rw [digitsValue, List.foldl_map]
  exact Decimal.digitsValue_digits n

/-- The digits of a fraction. -/
theorem digitsValue_frac (frac : List (Fin 10)) :
    (digitsValue 10 (frac.map Fin.val) : ℚ) / 10 ^ frac.length =
      frac.foldr (fun a v => ((a.val : ℚ) + v) / 10) 0 := by
  induction frac with
  | nil => simp [digitsValue]
  | cons a frac ih =>
    rw [List.foldr_cons, ← ih, List.map_cons, ← List.singleton_append, digitsValue_append,
      List.length_map, List.length_cons, pow_succ]
    have ha : digitsValue 10 [a.val] = a.val := by simp [digitsValue]
    rw [ha]
    push_cast
    field_simp

/-! ## The parts of a literal -/

theorem digit?_of_head {rest : List UInt8} {c : UInt8}
    (hrest : ∀ b, rest.head? = some b → b = c) (hc : digit? 10 c = none) :
    ∀ b, rest.head? = some b → digit? 10 b = none := fun b hb => hrest b hb ▸ hc

/-- The number in front of the exponent, which begins with its letter. -/
theorem mantissa_print (int : Nat) (frac : List (Fin 10)) {rest : List UInt8}
    (hrest : ∀ b, rest.head? = some b → b = 0x65) :
    mantissa 10 ((Decimal.digits int).map byte ++ ((Decimal.printFrac frac).map byte ++ rest)) =
      some (frac.foldr (fun a v => ((a.val : ℚ) + v) / 10) 0 + int, rest) := by
  have hint : ∀ c ∈ Decimal.digits int, Decimal.isDigit c := fun c hc =>
    Decimal.isDigit_of_mem_digits hc
  have hlen : ((Decimal.digits int).map fun c => c.toNat - 0x30).length =
      ((Decimal.digits int).map byte).length := by simp
  cases frac with
  | nil =>
    have hdigits := digits_map_byte hint (digit?_of_head hrest (by decide))
    have hpoint : rest.head? ≠ some 0x2E := fun h => absurd (hrest _ h) (by decide)
    have hvalue := digitsValue_digits int
    simp only [Decimal.printFrac, List.isEmpty_nil, if_true, List.map_nil, List.nil_append,
      mantissa, hdigits, hlen, List.drop_left' rfl, hpoint, if_false, List.append_nil, hvalue]
    simp [Decimal.digits_ne_nil int]
  | cons a frac =>
    have hfrac : ∀ c ∈ (a :: frac).map Decimal.fracUnit, Decimal.isDigit c := by
      intro c hc
      obtain ⟨d, -, rfl⟩ := List.mem_map.mp hc
      exact Decimal.isDigit_fracUnit d
    have hprint : (Decimal.printFrac (a :: frac)).map byte ++ rest =
        0x2E :: (((a :: frac).map Decimal.fracUnit).map byte ++ rest) := rfl
    have hdigits : digits 10 ((Decimal.digits int).map byte ++
        0x2E :: (((a :: frac).map Decimal.fracUnit).map byte ++ rest)) =
          (Decimal.digits int).map fun c => c.toNat - 0x30 :=
      digits_map_byte hint fun b hb => by
        obtain rfl := Option.some.inj hb
        decide
    have hfracDigits := digits_map_byte hfrac (digit?_of_head hrest (by decide))
    have hvals : ((a :: frac).map Decimal.fracUnit).map (fun c => c.toNat - 0x30) =
        (a :: frac).map Fin.val := by
      have hval : ∀ d : Fin 10, (Decimal.fracUnit d).toNat - 0x30 = d.val := by decide
      rw [List.map_map]
      exact List.map_congr_left fun d _ => hval d
    rw [hvals] at hfracDigits
    have hskip : (((a :: frac).map Decimal.fracUnit).map byte ++ rest).drop
        ((a :: frac).map Fin.val).length = rest := List.drop_left' (by simp)
    have hsum : ((digitsValue 10 (((Decimal.digits int).map fun c => c.toNat - 0x30) ++
        (a :: frac).map Fin.val) : Nat) : ℚ) / 10 ^ ((a :: frac).map Fin.val).length =
          (a :: frac).foldr (fun a v => ((a.val : ℚ) + v) / 10) 0 + int := by
      rw [digitsValue_append, digitsValue_digits, ← digitsValue_frac, List.length_map]
      push_cast
      field_simp
      ring
    simp only [hprint, mantissa, hdigits, hlen, List.drop_left' rfl, List.head?_cons, if_true,
      List.drop_succ_cons, List.drop_zero, hfracDigits, hskip]
    rw [if_neg (by simp)]
    exact congrArg (fun q => some (q, rest)) hsum

theorem exponent_print (e : Option Int) :
    exponent 0x65 ((Decimal.printExp e).map byte) = e.getD 0 := by
  cases e with
  | none => rfl
  | some e =>
    have hdigits := digits_printed e.natAbs
    have hvalue := digitsValue_digits e.natAbs
    by_cases hneg : e < 0
    · have hprint : (Decimal.printExp (some e)).map byte =
          0x65 :: 0x2D :: (Decimal.digits e.natAbs).map byte := by
        simp only [Decimal.printExp, if_pos hneg]
        rfl
      have hletter : lower 0x65 = 0x65 := by decide
      rw [hprint]
      simp only [exponent, readSign, if_true, hdigits, hvalue, hletter, Option.getD_some]
      omega
    · have hprint : (Decimal.printExp (some e)).map byte =
          0x65 :: 0x2B :: (Decimal.digits e.natAbs).map byte := by
        simp only [Decimal.printExp, if_neg hneg]
        rfl
      have hletter : lower 0x65 = 0x65 := by decide
      have hplus : ¬ (0x2B : UInt8) = 0x2D := by decide
      rw [hprint]
      simp only [exponent, readSign, if_neg hplus, if_true, hdigits, hvalue, hletter,
        Option.getD_some, Bool.false_eq_true, if_false]
      omega

/-! ## The literal -/

theorem hasWord_eq_false {word t : List UInt8} {l : UInt8} (hl : l ∈ word)
    (ht : ∀ b ∈ t, lower b ≠ l) : hasWord word t = false := by
  refine decide_eq_false fun h => ?_
  obtain ⟨b, hb, hbl⟩ := List.mem_map.mp (h ▸ hl)
  exact ht b (List.mem_of_mem_take hb) hbl

/-- The bytes of a literal spell no word. -/
theorem lower_byte_print {d : Decimal} {c : UInt16} (hc : c ∈ d.print) :
    ∀ l ∈ bytes "inx", lower (byte c) ≠ l := by
  intro l hl
  rcases Decimal.mem_print hc with hdigit | hmark
  · obtain ⟨hval, hlow, hhigh⟩ := toNat_byte_of_isDigit hdigit
    rw [lower_of_lt (by omega)]
    rintro rfl
    have hbig : ((bytes "inx").all fun l => 57 < l.toNat) = true := rfl
    exact absurd (of_decide_eq_true (List.all_eq_true.mp hbig _ hl)) (by omega)
  · have hall : ((js "-.e+").all fun c => (bytes "inx").all fun l => lower (byte c) ≠ l) = true :=
      rfl
    exact of_decide_eq_true (List.all_eq_true.mp (List.all_eq_true.mp hall c hmark) l hl)

theorem isSpace_byte_of_isDigit {c : UInt16} (hc : Decimal.isDigit c) :
    isSpace (byte c) = false ∧ byte c ≠ 0x2D ∧ byte c ≠ 0x2B := by
  obtain ⟨hval, hlow, hhigh⟩ := toNat_byte_of_isDigit hc
  have h20 : (0x20 : UInt8).toNat = 32 := rfl
  have h0D : (0x0D : UInt8).toNat = 13 := rfl
  have h2D : (0x2D : UInt8).toNat = 45 := rfl
  have h2B : (0x2B : UInt8).toNat = 43 := rfl
  have hne : ∀ b : UInt8, b.toNat < 48 → byte c ≠ b := by
    rintro b hb rfl
    omega
  refine ⟨?_, hne _ (by omega), hne _ (by omega)⟩
  simp only [isSpace, Bool.or_eq_false_iff, Bool.and_eq_false_iff, decide_eq_false_iff_not]
  refine ⟨hne _ (by omega), Or.inr ?_⟩
  rw [UInt8.le_iff_toNat_le]
  omega

/-- The sign of a literal, with no white space in front of it. -/
theorem readSign_print (d : Decimal) :
    readSign ((d.print.map byte).dropWhile isSpace) =
      (d.neg, (Decimal.digits d.int).map byte ++ ((Decimal.printFrac d.frac).map byte ++
        (Decimal.printExp d.exp).map byte)) := by
  cases hneg : d.neg with
  | true =>
    have hprint : d.print.map byte = 0x2D :: ((Decimal.digits d.int).map byte ++
        ((Decimal.printFrac d.frac).map byte ++ (Decimal.printExp d.exp).map byte)) := by
      simp only [Decimal.print, hneg, if_true, List.map_append, List.append_assoc]
      rfl
    rw [hprint, List.dropWhile_cons_of_neg (by decide)]
    rfl
  | false =>
    obtain ⟨c, s, hs, hc⟩ := Decimal.digits_head d.int
    obtain ⟨hspace, hminus, hplus⟩ := isSpace_byte_of_isDigit hc
    have hprint : d.print.map byte = (Decimal.digits d.int).map byte ++
        ((Decimal.printFrac d.frac).map byte ++ (Decimal.printExp d.exp).map byte) := by
      simp [Decimal.print, hneg]
    rw [hprint, hs, List.map_cons, List.cons_append,
      List.dropWhile_cons_of_neg (by simp [hspace]), readSign, if_neg hminus, if_neg hplus]

/-- **`strtod` reads a printed literal as its value.** -/
theorem strtod_print (d : Decimal) : strtod (d.print.map byte) = some (.finite d.value) := by
  have hsub : ∀ b ∈ (Decimal.digits d.int).map byte ++ ((Decimal.printFrac d.frac).map byte ++
      (Decimal.printExp d.exp).map byte), ∀ l ∈ bytes "inx", lower b ≠ l := by
    intro b hb
    have hmem : b ∈ d.print.map byte := by
      simp only [Decimal.print, List.map_append, List.mem_append] at hb ⊢
      tauto
    obtain ⟨c, hc, rfl⟩ := List.mem_map.mp hmem
    exact lower_byte_print hc
  have hexp : ∀ b, ((Decimal.printExp d.exp).map byte).head? = some b → b = 0x65 := by
    intro b hb
    cases he : d.exp with
    | none =>
      rw [he] at hb
      cases hb
    | some e =>
      rw [he] at hb
      exact (Option.some.inj hb).symm
  unfold strtod
  rw [readSign_print]
  simp only
  rw [hasWord_eq_false (l := 0x69) (by decide) fun b hb => hsub b hb _ (by decide),
    hasWord_eq_false (l := 0x6E) (by decide) fun b hb => hsub b hb _ (by decide),
    hasWord_eq_false (l := 0x78) (by decide) fun b hb => hsub b hb _ (by decide)]
  simp only [Bool.false_eq_true, if_false, Bool.false_and, scaled, mantissa_print _ _ hexp,
    Option.map_some, exponent_print]
  cases hneg : d.neg <;> simp [Decimal.value, hneg]

/-- **`stoul` reads the digits of a number as the number.** -/
theorem stoul_digits {n : Nat} (hn : n < 2 ^ 64) :
    stoul ((Decimal.digits n).map byte) = some n := by
  obtain ⟨c, s, hs, hc⟩ := Decimal.digits_head n
  obtain ⟨hspace, hminus, hplus⟩ := isSpace_byte_of_isDigit hc
  have hsign : readSign (((Decimal.digits n).map byte).dropWhile isSpace) =
      (false, (Decimal.digits n).map byte) := by
    rw [hs, List.map_cons, List.dropWhile_cons_of_neg (by simp [hspace]), readSign,
      if_neg hminus, if_neg hplus]
  have hempty : ((Decimal.digits n).map fun c => c.toNat - 0x30).isEmpty = false := by
    simp [Decimal.digits_ne_nil n]
  unfold stoul
  rw [hsign]
  simp only [digits_printed, digitsValue_digits, hempty, Bool.false_or, decide_eq_true_eq,
    Nat.not_le.mpr hn, if_false, Bool.false_eq_true]

/-- The literal ends where the text goes on with something else. -/
theorem strtod_print_append (d : Decimal) {c : UInt8} (hc : Stops c) (u : List UInt8) :
    strtod (d.print.map byte ++ c :: u) = some (.finite d.value) := by
  rw [strtod_append_cons hc, strtod_print]

end CText
