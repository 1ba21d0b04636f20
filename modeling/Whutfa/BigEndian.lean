import Mathlib.Data.List.Induction
import Mathlib.Tactic.Ring

/-! # Big-endian numbers in byte lists

`encode w n` is the `w`-byte big-endian form of `n` (its low `8 * w` bits, as a
conversion to a `w`-byte unsigned integer keeps them), and `decode` reads a byte
list back as a number. -/
namespace BigEndian

/-- The low `w` bytes of `n`, most significant first. -/
def encode : Nat → Nat → List UInt8
  | 0, _ => []
  | w + 1, n => encode w (n / 256) ++ [UInt8.ofNat n]

/-- The number a byte list denotes, most significant byte first. -/
def decode (bs : List UInt8) : Nat := bs.foldl (fun n b => n * 256 + b.toNat) 0

@[simp] theorem length_encode (w n : Nat) : (encode w n).length = w := by
  induction w generalizing n with
  | zero => rfl
  | succ w ih => simp [encode, ih]

@[simp] theorem decode_nil : decode [] = 0 := rfl

theorem decode_concat (bs : List UInt8) (b : UInt8) :
    decode (bs ++ [b]) = decode bs * 256 + b.toNat := by
  simp [decode]

theorem decode_lt (bs : List UInt8) : decode bs < 256 ^ bs.length := by
  induction bs using List.reverseRecOn with
  | nil => simp
  | append_singleton bs b ih =>
    have hb := b.toNat_lt
    rw [decode_concat, List.length_append, List.length_singleton, Nat.pow_succ]
    omega

theorem decode_take_lt (w : Nat) (bs : List UInt8) : decode (bs.take w) < 256 ^ w :=
  Nat.lt_of_lt_of_le (decode_lt _)
    (Nat.pow_le_pow_right (by decide) (List.length_take_le w bs))

@[simp] theorem take_encode_append (w n : Nat) (bs : List UInt8) :
    (encode w n ++ bs).take w = encode w n :=
  List.take_left' (length_encode w n)

/-- Skipping at least a whole number skips it and the rest of the way behind it. -/
theorem drop_encode_append {w k : Nat} (h : w ≤ k) (n : Nat) (bs : List UInt8) :
    (encode w n ++ bs).drop k = bs.drop (k - w) := by
  rw [List.drop_append, length_encode, List.drop_of_length_le (by simpa using h), List.nil_append]

/-- **Reading back what was written.** -/
theorem decode_encode (w : Nat) {n : Nat} (h : n < 256 ^ w) : decode (encode w n) = n := by
  induction w generalizing n with
  | zero =>
    have hn : n = 0 := by simpa using h
    simp [encode, hn]
  | succ w ih =>
    have hdiv : n / 256 < 256 ^ w := by
      rw [Nat.pow_succ] at h
      omega
    rw [encode, decode_concat, ih hdiv, UInt8.toNat_ofNat']
    omega

end BigEndian
