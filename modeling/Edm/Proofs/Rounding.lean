import Edm.Proofs.Floats

/-!
This module contains the laws of rounding to floats: a ratio that is nearer to a float than half way
to its neighbours is rounded to that float.
-/

namespace Edm

/-! ### Powers -/

theorem cast_twoPow (n : Nat) : (twoPow n : ℚ) = 2 ^ n := Nat.cast_pow 2 n

theorem cast_tenPow (n : Nat) : (tenPow n : ℚ) = 10 ^ n := Nat.cast_pow 10 n

theorem zpow_eq_div (b : ℚ) (e : Int) : b ^ e = b ^ e.toNat / b ^ (-e).toNat := by
  obtain ⟨n, rfl | rfl⟩ := e.eq_nat_or_neg
  . simp
  . simp

theorem two_zpow_eq_div (e : Int) : (2 : ℚ) ^ e = twoPow e.toNat / twoPow (-e).toNat := by
  rw [cast_twoPow, cast_twoPow, zpow_eq_div]

theorem ten_zpow_eq_div (e : Int) : (10 : ℚ) ^ e = tenPow e.toNat / tenPow (-e).toNat := by
  rw [cast_tenPow, cast_tenPow, zpow_eq_div]

theorem two_zpow_pos (e : Int) : (0 : ℚ) < 2 ^ e := zpow_pos two_pos e

theorem two_zpow_succ (e : Int) : (2 : ℚ) ^ (e + 1) = 2 * 2 ^ e := by
  rw [zpow_add_one₀ two_ne_zero, mul_comm]

theorem lt_of_two_zpow_lt {a b : Int} (h : (2 : ℚ) ^ a < 2 ^ b) : a < b := by
  rwa [zpow_lt_zpow_iff_right₀ one_lt_two] at h

namespace Ieee

/-! ### Ratios -/

section

variable {num den : Nat}

theorem scaled_le_iff (hden : 0 < den) (e : Int)
    : den * twoPow e.toNat ≤ num * twoPow (-e).toNat ↔ (2 : ℚ) ^ e ≤ num / den := by
  have hden' : (0 : ℚ) < den := by exact_mod_cast hden
  have hpow : (0 : ℚ) < twoPow (-e).toNat := by exact_mod_cast twoPow_pos _
  rw [two_zpow_eq_div, div_le_div_iff₀ hpow hden', mul_comm (twoPow e.toNat : ℚ)]
  exact_mod_cast Iff.rfl

theorem ratioLog_spec (hnum : 0 < num) (hden : 0 < den)
    : (2 : ℚ) ^ ratioLog num den ≤ num / den ∧ (num : ℚ) / den < 2 ^ (ratioLog num den + 1) := by
  have hden' : (0 : ℚ) < den := by exact_mod_cast hden
  have hnumLow : (2 : ℚ) ^ num.log2 ≤ num := by exact_mod_cast Nat.log2_self_le (by omega)
  have hnumHigh : (num : ℚ) < 2 ^ (num.log2 + 1) := by exact_mod_cast Nat.lt_log2_self
  have hdenLow : (2 : ℚ) ^ den.log2 ≤ den := by exact_mod_cast Nat.log2_self_le (by omega)
  have hdenHigh : (den : ℚ) < 2 ^ (den.log2 + 1) := by exact_mod_cast Nat.lt_log2_self
  -- The logarithms leave open which of two powers of two is the one below the ratio.
  have hlow : (2 : ℚ) ^ ((num.log2 : Int) - den.log2 - 1) ≤ num / den := by
    rw [le_div_iff₀ hden']
    calc (2 : ℚ) ^ ((num.log2 : Int) - den.log2 - 1) * den
        ≤ 2 ^ ((num.log2 : Int) - den.log2 - 1) * 2 ^ (den.log2 + 1) :=
          mul_le_mul_of_nonneg_left hdenHigh.le (two_zpow_pos _).le
      _ = 2 ^ num.log2 := by
        rw [← zpow_natCast, ← zpow_natCast, ← zpow_add₀ two_ne_zero]
        congr 1
        push_cast
        ring
      _ ≤ num := hnumLow
  have hhigh : (num : ℚ) / den < 2 ^ ((num.log2 : Int) - den.log2 + 1) := by
    rw [div_lt_iff₀ hden']
    calc (num : ℚ) < 2 ^ (num.log2 + 1) := hnumHigh
      _ = 2 ^ ((num.log2 : Int) - den.log2 + 1) * 2 ^ den.log2 := by
        rw [← zpow_natCast, ← zpow_natCast, ← zpow_add₀ two_ne_zero]
        congr 1
        push_cast
        ring
      _ ≤ 2 ^ ((num.log2 : Int) - den.log2 + 1) * den :=
        mul_le_mul_of_nonneg_left hdenLow (two_zpow_pos _).le
  unfold ratioLog
  dsimp only
  split
  . next h => exact ⟨(scaled_le_iff hden _).mp h, hhigh⟩
  . next h =>
    rw [scaled_le_iff hden, not_le] at h
    rw [Int.sub_add_cancel]
    exact ⟨hlow, h⟩

theorem ratioLog_eq {e : Int} (hnum : 0 < num) (hden : 0 < den) (hlow : (2 : ℚ) ^ e ≤ num / den)
    (hhigh : (num : ℚ) / den < 2 ^ (e + 1)) : ratioLog num den = e := by
  obtain ⟨hlow', hhigh'⟩ := ratioLog_spec hnum hden
  have := lt_of_two_zpow_lt (hlow.trans_lt hhigh')
  have := lt_of_two_zpow_lt (hlow'.trans_lt hhigh)
  omega

theorem divEven_eq {m : Nat} (hden : 0 < den) (hlow : 2 * m * den ≤ 2 * num + den)
    (hhigh : 2 * num ≤ 2 * m * den + den)
    (heven : 2 * m * den = 2 * num + den ∨ 2 * num = 2 * m * den + den → m % 2 = 0)
    : divEven num den = m := by
  have hdiv := Nat.div_add_mod num den
  have hmod := Nat.mod_lt num hden
  unfold divEven
  dsimp only
  generalize num / den = d at *
  generalize num % den = r at *
  have hle : d ≤ m := by
    by_contra hlt
    have := Nat.mul_le_mul_left den (Nat.succ_le_of_lt (not_le.mp hlt))
    rw [Nat.mul_succ] at this
    have hcomm : 2 * m * den = 2 * (den * m) := by ring
    omega
  have hle' : m ≤ d + 1 := by
    by_contra hlt
    have := Nat.mul_le_mul_left den (Nat.succ_le_of_lt (not_le.mp hlt))
    rw [Nat.mul_succ, Nat.mul_succ] at this
    have hcomm : 2 * m * den = 2 * (den * m) := by ring
    omega
  obtain rfl | rfl : m = d ∨ m = d + 1 := by omega
  . have hcomm : 2 * m * den = 2 * (den * m) := by ring
    split
    . rfl
    . split
      . omega
      . rw [if_pos (heven (.inr (by omega)))]
  . have hcomm : 2 * (d + 1) * den = 2 * (den * d) + 2 * den := by ring
    split
    . omega
    . split
      . rfl
      . have := heven (.inl (by omega))
        rw [if_neg (by omega)]

theorem divEven_of_near {m : Nat} (hden : 0 < den) (hlow : (m : ℚ) - 1 / 2 ≤ num / den)
    (hhigh : (num : ℚ) / den ≤ m + 1 / 2)
    (heven : (num : ℚ) / den = m - 1 / 2 ∨ (num : ℚ) / den = m + 1 / 2 → m % 2 = 0)
    : divEven num den = m := by
  have hden' : (0 : ℚ) < den := by exact_mod_cast hden
  rw [le_div_iff₀ hden'] at hlow
  rw [div_le_iff₀ hden'] at hhigh
  rw [div_eq_iff hden'.ne', div_eq_iff hden'.ne'] at heven
  apply divEven_eq hden
  . have : (2 * m * den : ℚ) ≤ 2 * num + den := by linarith
    exact_mod_cast this
  . have : (2 * num : ℚ) ≤ 2 * m * den + den := by linarith
    exact_mod_cast this
  . intro htie
    apply heven
    rcases htie with htie | htie
    . have : (2 * m * den : ℚ) = 2 * num + den := by exact_mod_cast htie
      exact .inl (by linarith)
    . have : (2 * num : ℚ) = 2 * m * den + den := by exact_mod_cast htie
      exact .inr (by linarith)

end

namespace Format

/-! ### The ratios that round to a float -/

/-- Formats with at least one bit for the mantissa, and exponents down to the least float. -/
structure IsWide (f : Format) : Prop where
  precision_pos : 1 ≤ f.precision
  exponentBits_pos : 1 ≤ f.exponentBits
  precision_le : f.precision ≤ twoPow (f.exponentBits - 1) + 2

theorem isWide_binary64 : binary64.IsWide := by
  exact ⟨by decide, by decide, by decide⟩

theorem isWide_binary32 : binary32.IsWide := by
  exact ⟨by decide, by decide, by decide⟩

/--
The lower end of what rounds to the float `m * 2 ^ q`, in quarters of its last place: half way to
the float below, which is nearer below a power of two.
-/
def lowQuarters (f : Format) (m : Nat) (q : Int) : Nat :=
  if m = f.fractionCount ∧ f.leastExponent < q then 4 * m - 1 else 4 * m - 2

/-- The ratio `r` is nearest to the float `m * 2 ^ q`, a ratio half way only if `m` is even. -/
structure RoundsTo (f : Format) (m : Nat) (q : Int) (r : ℚ) : Prop where
  low_le : f.lowQuarters m q * 2 ^ (q - 2) ≤ r
  le_high : r ≤ (4 * m + 2 : Nat) * 2 ^ (q - 2)
  even_of_eq : r = f.lowQuarters m q * 2 ^ (q - 2) ∨ r = (4 * m + 2 : Nat) * 2 ^ (q - 2) →
    m % 2 = 0

variable {f : Format} {m num den : Nat} {q : Int}

theorem cast_fractionCount (hf : f.IsWide)
    : (f.fractionCount : ℚ) = 2 ^ ((f.precision : Int) - 1) := by
  have hprecision : ((f.precision : Int) - 1) = (f.precision - 1 : Nat) := by
    have := hf.precision_pos
    omega
  unfold fractionCount
  rw [cast_twoPow, hprecision, zpow_natCast]

theorem scaled_div (num den : Nat) (q : Int)
    : ((num * twoPow (-q).toNat : Nat) : ℚ) / (den * twoPow q.toNat : Nat)
        = num / den / 2 ^ q := by
  have hpow : (twoPow (-q).toNat : ℚ) ≠ 0 := by exact_mod_cast (twoPow_pos _).ne'
  rw [two_zpow_eq_div]
  push_cast
  field_simp

theorem ofRatio_of_exponent {n : Nat} {p : Int} (hnum : 0 < num) (hden : 0 < den)
    (hp : max f.leastExponent (ratioLog num den - (f.precision - 1)) = p)
    (hlow : (n : ℚ) - 1 / 2 ≤ num / den / 2 ^ p) (hhigh : (num : ℚ) / den / 2 ^ p ≤ n + 1 / 2)
    (heven : (num : ℚ) / den / 2 ^ p = n - 1 / 2 ∨ (num : ℚ) / den / 2 ^ p = n + 1 / 2 →
      n % 2 = 0)
    : f.ofRatio num den = min (f.magnitude n p) f.infinityBits := by
  have hmantissa : divEven (num * twoPow (-p).toNat) (den * twoPow p.toNat) = n := by
    apply divEven_of_near (Nat.mul_pos hden (twoPow_pos _))
    . rwa [scaled_div]
    . rwa [scaled_div]
    . rwa [scaled_div]
  unfold ofRatio
  rw [if_neg (by omega)]
  dsimp only
  rw [hp, hmantissa]
  rfl

theorem two_zpow_quarter (q : Int) : (2 : ℚ) ^ q = 4 * 2 ^ (q - 2) := by
  have hq : q = q - 2 + 1 + 1 := by omega
  conv_lhs => rw [hq]
  rw [two_zpow_succ, two_zpow_succ]
  ring

theorem two_zpow_precision (hf : f.IsWide) (q : Int)
    : (2 : ℚ) ^ (q + (f.precision - 1)) = 4 * f.fractionCount * 2 ^ (q - 2) := by
  rw [zpow_add₀ two_ne_zero, ← cast_fractionCount hf, two_zpow_quarter]
  ring

theorem lowQuarters_le (f : Format) (m : Nat) (q : Int) : f.lowQuarters m q ≤ 4 * m - 1 := by
  unfold lowQuarters
  split
  . exact Nat.le_refl _
  . omega

theorem le_lowQuarters (f : Format) (m : Nat) (q : Int) : 4 * m - 2 ≤ f.lowQuarters m q := by
  unfold lowQuarters
  split
  . omega
  . exact Nat.le_refl _

theorem ofRatio_of_exponent_eq (hpos : 0 < m) (hcanonical : f.IsCanonical m q) (hnum : 0 < num)
    (hden : 0 < den) (h : f.RoundsTo m q (num / den))
    (hexponent : max f.leastExponent (ratioLog num den - (f.precision - 1)) = q)
    : f.ofRatio num den = f.magnitude m q := by
  have hunit := two_zpow_pos (q - 2)
  have hpow := two_zpow_pos q
  have hlow := h.low_le
  have hhigh := h.le_high
  have heven := h.even_of_eq
  have hquarters : (4 * m - 2 : ℚ) ≤ f.lowQuarters m q := by
    have hle : 4 * m ≤ f.lowQuarters m q + 2 := by
      have := f.le_lowQuarters m q
      omega
    have : (4 * m : ℚ) ≤ f.lowQuarters m q + 2 := by exact_mod_cast hle
    linarith
  push_cast at hhigh heven
  rw [ofRatio_of_exponent hnum hden hexponent (n := m),
    Nat.min_eq_left hcanonical.magnitude_lt.le]
  . rw [le_div_iff₀ hpow, two_zpow_quarter q]
    nlinarith
  . rw [div_le_iff₀ hpow, two_zpow_quarter q]
    nlinarith
  . rw [div_eq_iff hpow.ne', div_eq_iff hpow.ne', two_zpow_quarter q]
    intro htie
    apply heven
    rcases htie with htie | htie
    . exact .inl (le_antisymm (by nlinarith) hlow)
    . exact .inr (by rw [htie]; ring)

theorem ofRatio_of_narrow (hf : f.IsWide) (hcanonical : f.IsCanonical f.fractionCount q)
    (hq : f.leastExponent < q) (hnum : 0 < num) (hden : 0 < den)
    (hlow : (4 * f.fractionCount - 1 : ℚ) * 2 ^ (q - 2) ≤ num / den)
    (hhigh : (num : ℚ) / den < 2 ^ (q + (f.precision - 1)))
    : f.ofRatio num den = f.magnitude f.fractionCount q := by
  have hunit := two_zpow_pos (q - 2)
  have hcount : (1 : ℚ) ≤ f.fractionCount := by exact_mod_cast f.fractionCount_pos
  have hhalf : (2 : ℚ) ^ (q - 1) = 2 * 2 ^ (q - 2) := by
    rw [← two_zpow_succ]
    congr 1
    omega
  have hpow : (0 : ℚ) < 2 ^ (q - 1) := two_zpow_pos (q - 1)
  have hlog : ratioLog num den = q - 1 + (f.precision - 1) := by
    apply ratioLog_eq hnum hden
    . rw [zpow_add₀ two_ne_zero, ← cast_fractionCount hf, hhalf]
      nlinarith
    . rwa [show q - 1 + (f.precision - 1 : Int) + 1 = q + (f.precision - 1) by omega]
  have hmagnitude : f.magnitude (2 * f.fractionCount) (q - 1) = f.magnitude f.fractionCount q := by
    obtain ⟨k, hk⟩ : ∃ k, (q - f.leastExponent).toNat = k + 1 :=
      Nat.exists_eq_succ_of_ne_zero (by omega)
    unfold magnitude
    rw [hk, show (q - 1 - f.leastExponent).toNat = k by omega, Nat.succ_mul k]
    omega
  rw [two_zpow_precision hf] at hhigh
  rw [ofRatio_of_exponent hnum hden (n := 2 * f.fractionCount) (p := q - 1), hmagnitude,
    Nat.min_eq_left hcanonical.magnitude_lt.le]
  . omega
  . rw [le_div_iff₀ hpow, hhalf]
    push_cast
    nlinarith
  . rw [div_le_iff₀ hpow, hhalf]
    push_cast
    nlinarith
  . exact fun _ => Nat.mul_mod_right 2 _

theorem lt_of_roundsTo (hf : f.IsWide) (hcanonical : f.IsCanonical m q) {r : ℚ}
    (h : f.RoundsTo m q r) : r < 2 ^ (q + (f.precision - 1) + 1) := by
  have hunit := two_zpow_pos (q - 2)
  have hm : ((4 * m + 2 : Nat) : ℚ) < 8 * f.fractionCount := by
    have := hcanonical.lt
    exact_mod_cast (show 4 * m + 2 < 8 * f.fractionCount by omega)
  have hhigh := h.le_high
  rw [two_zpow_succ, two_zpow_precision hf]
  nlinarith

theorem le_of_roundsTo (hpos : 0 < m) {r : ℚ} (h : f.RoundsTo m q r)
    : (2 : ℚ) ^ (q - 1) ≤ r := by
  have hunit := two_zpow_pos (q - 2)
  have hlow := h.low_le
  have hquarters : (2 : ℚ) ≤ f.lowQuarters m q := by
    have := f.le_lowQuarters m q
    exact_mod_cast (show 2 ≤ f.lowQuarters m q by omega)
  rw [show q - 1 = q - 2 + 1 by omega, two_zpow_succ]
  nlinarith

theorem ofRatio_of_roundsTo (hf : f.IsWide) (hpos : 0 < m) (hcanonical : f.IsCanonical m q)
    (hnum : 0 < num) (hden : 0 < den) (h : f.RoundsTo m q (num / den))
    : f.ofRatio num den = f.magnitude m q := by
  have hunit := two_zpow_pos (q - 2)
  have hprecision := two_zpow_precision hf q
  have hlow := h.low_le
  obtain ⟨hlog, hlog'⟩ := ratioLog_spec hnum hden
  have hbelow := lt_of_roundsTo hf hcanonical h
  have hle := lt_of_two_zpow_lt (hlog.trans_lt hbelow)
  rcases hcanonical.least_le.eq_or_lt with hleast | hlt
  . exact ofRatio_of_exponent_eq hpos hcanonical hnum hden h (by omega)
  . by_cases habove : (2 : ℚ) ^ (q + (f.precision - 1)) ≤ num / den
    . have hexponent := ratioLog_eq hnum hden habove hbelow
      exact ofRatio_of_exponent_eq hpos hcanonical hnum hden h (by omega)
    . rw [not_le] at habove
      have hquarters : f.lowQuarters m q < 4 * f.fractionCount := by
        have : (f.lowQuarters m q : ℚ) < 4 * f.fractionCount := by
          rw [hprecision] at habove
          exact lt_of_mul_lt_mul_right (hlow.trans_lt habove) hunit.le
        exact_mod_cast this
      obtain rfl : m = f.fractionCount := by
        have := f.le_lowQuarters m q
        have := hcanonical.le_of_normal hlt
        omega
      apply ofRatio_of_narrow hf hcanonical hlt hnum hden _ habove
      unfold lowQuarters at hlow
      rw [if_pos ⟨rfl, hlt⟩, Nat.cast_sub (by omega)] at hlow
      exact_mod_cast hlow

/-! ### Decimal numbers -/

theorem ten_zpow_le {e : Int} (he : e ≤ 0) : (10 : ℚ) ^ e ≤ 2 ^ e := by
  obtain ⟨n, rfl⟩ := Int.exists_eq_neg_ofNat he
  rw [zpow_neg, zpow_neg, zpow_natCast, zpow_natCast]
  exact inv_anti₀ (by positivity) (pow_le_pow_left₀ (by norm_num) (by norm_num) n)

theorem le_ten_zpow {e : Int} (he : 0 ≤ e) : (2 : ℚ) ^ e ≤ 10 ^ e := by
  obtain ⟨n, rfl⟩ := Int.eq_ofNat_of_zero_le he
  rw [zpow_natCast, zpow_natCast]
  exact pow_le_pow_left₀ (by norm_num) (by norm_num) n

theorem twoPow_exponentBits (hf : f.IsWide)
    : twoPow f.exponentBits = 2 * twoPow (f.exponentBits - 1) := by
  obtain ⟨n, hn⟩ := Nat.exists_eq_succ_of_ne_zero (Nat.ne_of_gt hf.exponentBits_pos)
  rw [hn, Nat.succ_sub_one, Nat.succ_eq_one_add, twoPow_add]
  rfl

theorem exponent_le (hf : f.IsWide) (hcanonical : f.IsCanonical m q)
    : q + f.precision ≤ twoPow f.exponentBits := by
  have hhalf := twoPow_exponentBits hf
  have hpos := twoPow_pos (f.exponentBits - 1)
  have hleast : f.leastExponent = 3 - twoPow (f.exponentBits - 1) - f.precision := rfl
  rcases hcanonical.least_le.eq_or_lt with heq | hlt
  . omega
  . have hle := hcanonical.le_of_normal hlt
    have hlt' := hcanonical.magnitude_lt
    unfold magnitude infinityBits topField at hlt'
    have hfield : ((q - f.leastExponent).toNat + 1) * f.fractionCount
        < (twoPow f.exponentBits - 1) * f.fractionCount := by
      rw [Nat.succ_mul]
      omega
    have := Nat.lt_of_mul_lt_mul_right hfield
    omega

theorem neg_reach_le (hf : f.IsWide) (hcanonical : f.IsCanonical m q)
    : -(twoPow f.exponentBits : Int) ≤ q - 1 := by
  have hhalf := twoPow_exponentBits hf
  have hprecision := hf.precision_le
  have hleast : f.leastExponent = 3 - twoPow (f.exponentBits - 1) - f.precision := rfl
  have := hcanonical.least_le
  omega

/-- Every decimal number that is nearer to a float than to all others is read as that float. -/
theorem ofDecimal_of_roundsTo {digits : Nat} {exponent : Int} (hf : f.IsWide) (hpos : 0 < m)
    (hcanonical : f.IsCanonical m q) (h : f.RoundsTo m q (digits * 10 ^ exponent))
    : f.ofDecimal digits exponent = f.magnitude m q := by
  have hlow := le_of_roundsTo hpos h
  have hhigh := lt_of_roundsTo hf hcanonical h
  have hpow : (0 : ℚ) < 10 ^ exponent := zpow_pos (by norm_num) exponent
  have hdigits : 0 < digits := by
    by_contra hzero
    obtain rfl : digits = 0 := by omega
    rw [Nat.cast_zero, zero_mul] at hlow
    exact absurd hlow (not_le.mpr (two_zpow_pos _))
  have hdigits' : (1 : ℚ) ≤ digits := by exact_mod_cast hdigits
  unfold ofDecimal
  rw [if_neg (by omega)]
  dsimp only
  split
  . next hreach =>
    -- The number would be above all floats.
    have hle : (2 : ℚ) ^ exponent < 2 ^ (q + (f.precision - 1) + 1) := by
      calc (2 : ℚ) ^ exponent ≤ 10 ^ exponent := le_ten_zpow (by omega)
        _ ≤ digits * 10 ^ exponent := le_mul_of_one_le_left hpow.le hdigits'
        _ < 2 ^ (q + (f.precision - 1) + 1) := hhigh
    have := lt_of_two_zpow_lt hle
    have := exponent_le hf hcanonical
    omega
  . split
    . next hreach =>
      -- The number would be below all floats.
      have hlt : (2 : ℚ) ^ (q - 1) < 2 ^ (exponent + (digits.log2 + 1 : Nat)) := by
        calc (2 : ℚ) ^ (q - 1) ≤ digits * 10 ^ exponent := hlow
          _ < 2 ^ (digits.log2 + 1) * 10 ^ exponent :=
            mul_lt_mul_of_pos_right (by exact_mod_cast Nat.lt_log2_self) hpow
          _ ≤ 2 ^ (digits.log2 + 1) * 2 ^ exponent :=
            mul_le_mul_of_nonneg_left (ten_zpow_le (by omega)) (by positivity)
          _ = 2 ^ (exponent + (digits.log2 + 1 : Nat)) := by
            rw [zpow_add₀ two_ne_zero, zpow_natCast, mul_comm]
      have := lt_of_two_zpow_lt hlt
      have := neg_reach_le hf hcanonical
      omega
    . apply ofRatio_of_roundsTo hf hpos hcanonical
        (Nat.mul_pos hdigits (tenPow_pos _)) (tenPow_pos _)
      rwa [Nat.cast_mul, mul_div_assoc, ← ten_zpow_eq_div]

end Format

end Ieee

end Edm
