import Edm.Ieee.Text
import Mathlib

/-!
This module contains the laws of the bits of floats: the bits of a finite float are its sign, its
exponent and its mantissa, and no number that is read is a NaN.
-/

namespace Edm.Ieee

open Float.Model.UnpackedFloat

/-! ### Fields of bits -/

section

variable {spec : Float.Model.Format}

theorem toNat_unpackMantissa (b : BitVec spec.numBits)
    : (unpackMantissa b).toNat = b.toNat % 2 ^ spec.mantissaBitsWithoutImplicit := by
  rw [unpackMantissa_def, BitVec.extractLsb'_toNat, Nat.shiftRight_zero]

theorem toNat_unpackExponent (b : BitVec spec.numBits)
    : (unpackExponent b).toNat
        = b.toNat / 2 ^ spec.mantissaBitsWithoutImplicit % 2 ^ spec.exponentBits := by
  rw [unpackExponent_def, BitVec.extractLsb'_toNat, Nat.shiftRight_eq_div_pow]

theorem mod_eq_zero_of_top {n c e : Nat} (hle : n % (c * e) ≤ (e - 1) * c)
    (htop : n / c % e = e - 1) : n % c = 0 := by
  rw [Nat.mod_mul, htop, Nat.mul_comm] at hle
  omega

theorem valid_of_le {b : BitVec spec.numBits}
    (h : b.toNat % (2 ^ spec.mantissaBitsWithoutImplicit * 2 ^ spec.exponentBits)
      ≤ (2 ^ spec.exponentBits - 1) * 2 ^ spec.mantissaBitsWithoutImplicit) : spec.Valid b := by
  refine ⟨fun htop hzero => absurd ?_ hzero⟩
  have hfield : b.toNat / 2 ^ spec.mantissaBitsWithoutImplicit % 2 ^ spec.exponentBits
      = 2 ^ spec.exponentBits - 1 := by
    rw [← toNat_unpackExponent, htop, BitVec.neg_one_eq_allOnes, BitVec.toNat_allOnes]
  apply BitVec.eq_of_toNat_eq
  rw [toNat_unpackMantissa, mod_eq_zero_of_top h hfield]
  rfl

end

theorem toBits_ofBits {bits : UInt64} (h : Float.Model.Format.binary64.Valid bits.toBitVec)
    : (Float.ofBits bits).toBits = bits :=
  UInt64.toBitVec_inj.mp (pack_unpack_of_valid h)

theorem toBits_ofBits32 {bits : UInt32} (h : Float.Model.Format.binary32.Valid bits.toBitVec)
    : (Float32.ofBits bits).toBits = bits :=
  UInt32.toBitVec_inj.mp (pack_unpack_of_valid h)

/-! ### Fields of a datum -/

namespace Format

variable {f : Format}

/-- The magnitude bits of the finite float `m * 2 ^ q`. -/
def magnitude (f : Format) (m : Nat) (q : Int) : Nat :=
  (q - f.leastExponent).toNat * f.fractionCount + m

structure IsCanonical (f : Format) (m : Nat) (q : Int) : Prop where
  lt : m < 2 * f.fractionCount
  least_le : f.leastExponent ≤ q
  le_of_normal : f.leastExponent < q → f.fractionCount ≤ m
  magnitude_lt : f.magnitude m q < f.infinityBits

theorem fractionCount_pos (f : Format) : 0 < f.fractionCount := twoPow_pos _

theorem magnitude_least (f : Format) (m : Nat) : f.magnitude m f.leastExponent = m := by
  unfold magnitude
  rw [Int.sub_self, Int.toNat_zero, Nat.zero_mul, Nat.zero_add]

theorem magnitude_field (f : Format) {field : Nat} (fraction : Nat) (h : field ≠ 0)
    : f.magnitude (f.fractionCount + fraction) (f.leastExponent + (field - 1))
        = field * f.fractionCount + fraction := by
  obtain ⟨n, rfl⟩ := Nat.exists_eq_succ_of_ne_zero h
  have hn : (f.leastExponent + (((n + 1 : Nat) : Int) - 1) - f.leastExponent).toNat = n := by
    omega
  unfold magnitude
  rw [hn, Nat.succ_mul, Nat.add_assoc]

theorem eq_withSign {bits : Nat} (hbits : bits < 2 * f.signPlace)
    : bits = f.withSign (decide (f.signPlace ≤ bits))
        (bits / f.fractionCount % twoPow f.exponentBits * f.fractionCount
          + bits % f.fractionCount) := by
  have hdiv := Nat.div_add_mod' bits f.fractionCount
  have hpos := f.fractionCount_pos
  have hfields : bits / f.fractionCount < 2 * twoPow f.exponentBits := by
    rw [Nat.div_lt_iff_lt_mul hpos, Nat.mul_assoc, Nat.mul_comm (twoPow _)]
    exact hbits
  unfold withSign signPlace
  by_cases hsign : twoPow f.exponentBits ≤ bits / f.fractionCount
  . have hle : f.fractionCount * twoPow f.exponentBits ≤ bits := by
      rwa [Nat.mul_comm, ← Nat.le_div_iff_mul_le hpos]
    have hfield : bits / f.fractionCount % twoPow f.exponentBits
        = bits / f.fractionCount - twoPow f.exponentBits := by
      rw [Nat.mod_eq_sub_mod hsign, Nat.mod_eq_of_lt (by omega)]
    rw [if_pos (by simpa using hle), hfield, Nat.sub_mul, Nat.mul_comm f.fractionCount]
    rw [Nat.mul_comm f.fractionCount] at hle
    have := Nat.mul_le_mul_right f.fractionCount hsign
    omega
  . have hlt : ¬ f.fractionCount * twoPow f.exponentBits ≤ bits := by
      rwa [Nat.mul_comm, ← Nat.le_div_iff_mul_le hpos]
    rw [if_neg (by simpa using hlt), Nat.mod_eq_of_lt (by omega), hdiv]

theorem eq_withSign_of_decode {bits : Nat} {negative : Bool} {m : Nat} {q : Int}
    (hbits : bits < 2 * f.signPlace) (h : f.decode bits = .finite negative m q)
    : bits = f.withSign negative (f.magnitude m q) ∧ f.IsCanonical m q := by
  have hparts := eq_withSign hbits
  have hfraction : bits % f.fractionCount < f.fractionCount := Nat.mod_lt _ f.fractionCount_pos
  have hfield : bits / f.fractionCount % twoPow f.exponentBits < twoPow f.exponentBits :=
    Nat.mod_lt _ (twoPow_pos _)
  unfold decode at h
  dsimp only at h
  generalize bits / f.fractionCount % twoPow f.exponentBits = field at *
  generalize bits % f.fractionCount = fraction at *
  split at h
  . split at h
    . cases h
    . cases h
  . next htop =>
    have hle : (field + 1) * f.fractionCount ≤ f.infinityBits := by
      unfold infinityBits topField at *
      exact Nat.mul_le_mul_right _ (by omega)
    rw [Nat.succ_mul] at hle
    split at h
    . next hzero =>
      cases h
      rw [hzero, Nat.zero_mul, Nat.zero_add] at hparts hle
      refine ⟨?_, by omega, Int.le_refl _, fun h => absurd h (Int.lt_irrefl _), ?_⟩
      . rw [magnitude_least]
        exact hparts
      . rw [magnitude_least]
        omega
    . next hzero =>
      cases h
      have hmagnitude := f.magnitude_field fraction hzero
      refine ⟨?_, by omega, by omega, fun _ => Nat.le_add_right _ _, ?_⟩
      . rw [hmagnitude]
        exact hparts
      . rw [hmagnitude]
        omega

theorem infinityBits_lt (f : Format) : f.infinityBits < f.signPlace := by
  have hpos := twoPow_pos f.exponentBits
  unfold infinityBits topField signPlace
  rw [Nat.mul_comm]
  exact Nat.mul_lt_mul_of_pos_left (Nat.sub_lt hpos (by decide)) f.fractionCount_pos

theorem withSign_mod (f : Format) (negative : Bool) {n : Nat} (h : n < f.signPlace)
    : f.withSign negative n % f.signPlace = n := by
  unfold withSign
  split
  . rw [Nat.add_mod_left, Nat.mod_eq_of_lt h]
  . exact Nat.mod_eq_of_lt h

theorem withSign_lt (f : Format) (negative : Bool) {n : Nat} (h : n < f.signPlace)
    : f.withSign negative n < 2 * f.signPlace := by
  unfold withSign
  split
  . omega
  . omega

theorem decode_ne_nan {bits : Nat} (h : bits % f.signPlace ≤ f.infinityBits)
    : f.decode bits ≠ .nan := by
  unfold decode
  dsimp only
  split
  . next htop =>
    rw [mod_eq_zero_of_top h htop, if_pos rfl]
    exact nofun
  . split
    . exact nofun
    . exact nofun

end Format

/-! ### Floats -/

theorem eq_ofBits_of_datum {x : Float} {negative : Bool} {m : Nat} {q : Int}
    (h : datum x = .finite negative m q)
    : x = .ofBits (.ofNat (binary64.withSign negative (binary64.magnitude m q)))
        ∧ binary64.IsCanonical m q := by
  obtain ⟨hbits, hcanonical⟩ := Format.eq_withSign_of_decode x.toBits.toNat_lt h
  rw [← hbits, UInt64.ofNat_toNat, Float.ofBits_toBits]
  exact ⟨rfl, hcanonical⟩

theorem eq_ofBits_of_datum32 {x : Float32} {negative : Bool} {m : Nat} {q : Int}
    (h : datum32 x = .finite negative m q)
    : x = .ofBits (.ofNat (binary32.withSign negative (binary32.magnitude m q)))
        ∧ binary32.IsCanonical m q := by
  obtain ⟨hbits, hcanonical⟩ := Format.eq_withSign_of_decode x.toBits.toNat_lt h
  rw [← hbits, UInt32.ofNat_toNat, Float32.ofBits_toBits]
  exact ⟨rfl, hcanonical⟩

theorem datum_ofBits_ne_nan {negative : Bool} {n : Nat} (h : n ≤ binary64.infinityBits)
    : datum (.ofBits (.ofNat (binary64.withSign negative n))) ≠ .nan := by
  have hplace := Nat.lt_of_le_of_lt h binary64.infinityBits_lt
  have htoNat : (UInt64.ofNat (binary64.withSign negative n)).toNat
      = binary64.withSign negative n :=
    UInt64.toNat_ofNat_of_lt (binary64.withSign_lt negative hplace)
  have hle : binary64.withSign negative n % binary64.signPlace ≤ binary64.infinityBits := by
    rwa [binary64.withSign_mod negative hplace]
  unfold datum
  rw [toBits_ofBits, htoNat]
  . exact Format.decode_ne_nan hle
  . apply valid_of_le
    rw [UInt64.toNat_toBitVec, htoNat]
    exact hle

theorem datum32_ofBits_ne_nan {negative : Bool} {n : Nat} (h : n ≤ binary32.infinityBits)
    : datum32 (.ofBits (.ofNat (binary32.withSign negative n))) ≠ .nan := by
  have hplace := Nat.lt_of_le_of_lt h binary32.infinityBits_lt
  have htoNat : (UInt32.ofNat (binary32.withSign negative n)).toNat
      = binary32.withSign negative n :=
    UInt32.toNat_ofNat_of_lt (binary32.withSign_lt negative hplace)
  have hle : binary32.withSign negative n % binary32.signPlace ≤ binary32.infinityBits := by
    rwa [binary32.withSign_mod negative hplace]
  unfold datum32
  rw [toBits_ofBits32, htoNat]
  . exact Format.decode_ne_nan hle
  . apply valid_of_le
    rw [UInt32.toNat_toBitVec, htoNat]
    exact hle

theorem beq_self {x : Float} (h : datum x ≠ .nan) : (x == x) = true := by
  rw [Float.beq_self_iff]
  rintro rfl
  exact h rfl

theorem beq_self32 {x : Float32} (h : datum32 x ≠ .nan) : (x == x) = true := by
  rw [Float32.beq_self_iff]
  rintro rfl
  exact h rfl

/-! ### Reading -/

theorem Format.ofDecimal_le (f : Format) (m : Nat) (e : Int)
    : f.ofDecimal m e ≤ f.infinityBits := by
  unfold ofDecimal
  split
  . exact Nat.zero_le _
  . dsimp only
    split
    . exact Nat.le_refl _
    . split
      . exact Nat.zero_le _
      . unfold ofRatio
        split
        . exact Nat.zero_le _
        . exact Nat.min_le_right _ _

theorem datum_ne_nan_of_read? {cs : List Char} {x : Float} (h : read? cs = some x)
    : datum x ≠ .nan := by
  obtain ⟨⟨negative, m, e⟩, _, rfl⟩ := Option.map_eq_some_iff.mp h
  exact datum_ofBits_ne_nan (binary64.ofDecimal_le m e)

theorem datum32_ne_nan_of_read32? {cs : List Char} {x : Float32} (h : read32? cs = some x)
    : datum32 x ≠ .nan := by
  obtain ⟨⟨negative, m, e⟩, _, rfl⟩ := Option.map_eq_some_iff.mp h
  exact datum32_ofBits_ne_nan (binary32.ofDecimal_le m e)

end Edm.Ieee
