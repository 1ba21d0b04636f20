import Whutfa.BigEndian

/-! # The `avcC` layout

The configuration of an AVC decoder: version, profile, compatibility and level, how many
bytes a unit's length takes, then the sequence and the picture parameter sets, each list
behind its number and each set behind a length of two bytes.  The size of a length has two
bits and the number of sequence parameter sets five, below bits that are set.
-/
namespace AvcConfig

/-- The fields of a decoder configuration record. -/
structure Config where
  version : UInt8
  profile : UInt8
  compatibility : UInt8
  level : UInt8
  lengthSize : Nat
  sps : List (List UInt8)
  pps : List (List UInt8)
  deriving DecidableEq

/-- `count` parameter sets, and what follows them. -/
def readSets : Nat → List UInt8 → Option (List (List UInt8) × List UInt8)
  | 0, data => some ([], data)
  | count + 1, data =>
      let length := BigEndian.decode (data.take 2)
      let rest := data.drop 2
      if data.length < 2 ∨ rest.length < length then none
      else (readSets count (rest.drop length)).map fun (sets, data) =>
        (rest.take length :: sets, data)

/-- A configuration, and what follows it. -/
def read : List UInt8 → Option (Config × List UInt8)
  | version :: profile :: compatibility :: level :: size :: spsCount :: data =>
      match readSets (spsCount &&& 0x1f).toNat data with
      | some (sps, ppsCount :: data) =>
          (readSets ppsCount.toNat data).map fun (pps, data) =>
            ({ version, profile, compatibility, level
               lengthSize := (size &&& 3).toNat + 1, sps, pps }, data)
      | _ => none
  | _ => none

/-- Parameter sets, each behind its length in two bytes. -/
def encodeSets (sets : List (List UInt8)) : List UInt8 :=
  sets.flatMap fun set => BigEndian.encode 2 set.length ++ set

/-- The record as bytes; the reserved bits are ones. -/
def Config.bytes (config : Config) : List UInt8 :=
  config.version :: config.profile :: config.compatibility :: config.level ::
    UInt8.ofNat (0xfc + (config.lengthSize - 1)) :: UInt8.ofNat (0xe0 + config.sps.length) ::
    (encodeSets config.sps ++ UInt8.ofNat config.pps.length :: encodeSets config.pps)

/-- The numbers fit their fields. -/
structure Config.Fits (config : Config) : Prop where
  lengthSize_pos : 0 < config.lengthSize
  lengthSize_le : config.lengthSize ≤ 4
  sps_lt : config.sps.length < 32
  pps_lt : config.pps.length < 256
  sps_sets : ∀ set ∈ config.sps, set.length < 2 ^ 16
  pps_sets : ∀ set ∈ config.pps, set.length < 2 ^ 16

theorem readSets_encodeSets {sets : List (List UInt8)} (h : ∀ set ∈ sets, set.length < 2 ^ 16)
    (rest : List UInt8) : readSets sets.length (encodeSets sets ++ rest) = some (sets, rest) := by
  induction sets with
  | nil => rfl
  | cons set sets ih =>
    have hlength := BigEndian.decode_encode 2 (h set List.mem_cons_self)
    have hrest := ih fun set hset => h set (List.mem_cons_of_mem _ hset)
    have hbytes : encodeSets (set :: sets) ++ rest =
        BigEndian.encode 2 set.length ++ (set ++ (encodeSets sets ++ rest)) := by
      simp only [encodeSets, List.flatMap_cons, List.append_assoc]
    have hfits : ¬ ((BigEndian.encode 2 set.length ++ (set ++ (encodeSets sets ++ rest))).length
        < 2 ∨ (set ++ (encodeSets sets ++ rest)).length < set.length) := by
      simp only [List.length_append, BigEndian.length_encode]
      omega
    rw [hbytes, List.length_cons, readSets]
    simp only [BigEndian.take_encode_append, hlength, List.drop_left' (BigEndian.length_encode 2 _)]
    rw [if_neg hfits, List.drop_left' rfl, List.take_left' rfl, hrest]
    rfl

/-- The low bits of a field below bits that are set. -/
theorem toNat_and_ofNat {high n : Nat} (k : Nat) (hhigh : 2 ^ k ∣ high) (hn : n < 2 ^ k)
    (hk : k ≤ 8) : (UInt8.ofNat (high + n) &&& UInt8.ofNat (2 ^ k - 1)).toNat = n := by
  have hmask : 2 ^ k - 1 < 2 ^ 8 :=
    Nat.lt_of_lt_of_le (Nat.sub_lt (Nat.two_pow_pos k) Nat.one_pos)
      (Nat.pow_le_pow_right (by decide) hk)
  obtain ⟨m, rfl⟩ := hhigh
  rw [UInt8.toNat_and, UInt8.toNat_ofNat', UInt8.toNat_ofNat', Nat.mod_eq_of_lt hmask,
    Nat.and_two_pow_sub_one_eq_mod, Nat.mod_mod_of_dvd _ (Nat.pow_dvd_pow 2 hk),
    Nat.mul_add_mod, Nat.mod_eq_of_lt hn]

/-- **A configuration is read back**, whatever follows it. -/
theorem read_bytes {config : Config} (h : config.Fits) (rest : List UInt8) :
    read (config.bytes ++ rest) = some (config, rest) := by
  have hsize : (UInt8.ofNat (0xfc + (config.lengthSize - 1)) &&& 3).toNat + 1 =
      config.lengthSize := by
    have hpos := h.lengthSize_pos
    have hle := h.lengthSize_le
    have hlow : (UInt8.ofNat (0xfc + (config.lengthSize - 1)) &&& 3).toNat =
        config.lengthSize - 1 := toNat_and_ofNat 2 (by decide) (by omega) (by decide)
    omega
  have hsps : (UInt8.ofNat (0xe0 + config.sps.length) &&& 0x1f).toNat = config.sps.length :=
    toNat_and_ofNat 5 (by decide) h.sps_lt (by decide)
  have hpps : (UInt8.ofNat config.pps.length).toNat = config.pps.length :=
    UInt8.toNat_ofNat_of_lt' h.pps_lt
  simp only [Config.bytes, List.cons_append, List.append_assoc, read, hsps,
    readSets_encodeSets h.sps_sets, hpps, readSets_encodeSets h.pps_sets, Option.map_some, hsize]

end AvcConfig
