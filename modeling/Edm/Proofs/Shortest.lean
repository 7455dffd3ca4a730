import Edm.Ieee.Text
import Edm.Proofs.Numerals
import Edm.Proofs.Rounding

/-!
This module contains the laws of the texts of floats: the digits that are chosen for a float are
nearest to it, so that it is read back from its text.
-/

namespace Edm.Ieee

/-! ### Digits -/

namespace Digits

def value (d : Digits) : ℚ := d.digits * 10 ^ d.exponent

theorem value_strip (d : Digits) : d.strip.value = d.value := by
  fun_induction strip d with
  | case1 d h ih =>
    have hdiv : ((d.digits / 10 : Nat) : ℚ) * 10 = d.digits := by
      exact_mod_cast Nat.div_mul_cancel (Nat.dvd_of_mod_eq_zero h.2)
    rw [ih]
    unfold value
    dsimp only
    rw [zpow_add_one₀ (by norm_num), mul_comm ((10 : ℚ) ^ d.exponent), ← mul_assoc, hdiv]
  | case2 => rfl

end Digits

/-! ### Candidates -/

/-- A quarter of the last place of a float with the exponent `q`, over the decimal denominator. -/
def quarterUnit (q : Int) : Nat :=
  if 0 ≤ q - 2 then twoPow (q - 2).toNat else Nat.pow 5 (-(q - 2)).toNat

theorem quarterUnit_eq (q : Int)
    : (quarterUnit q : ℚ) * 10 ^ (-((-(q - 2)).toNat : Int)) = 2 ^ (q - 2) := by
  unfold quarterUnit
  split
  . next h =>
    rw [show (-(q - 2)).toNat = 0 by omega, cast_twoPow, ← zpow_natCast, Int.toNat_of_nonneg h]
    simp
  . next h =>
    obtain ⟨n, hn⟩ : ∃ n : Nat, q - 2 = -n := ⟨(-(q - 2)).toNat, by omega⟩
    have hcast : ((Nat.pow 5 n : Nat) : ℚ) = 5 ^ n := Nat.cast_pow 5 n
    rw [hn, neg_neg, Int.toNat_natCast, hcast, zpow_neg, zpow_neg, zpow_natCast, zpow_natCast,
      ← div_eq_mul_inv, ← one_div, div_eq_div_iff (by positivity) (by positivity), one_mul,
      ← mul_pow]
    norm_num

namespace Format

variable {f : Format} {m n : Nat} {q : Int}

theorem interval_low (f : Format) (m : Nat) (q : Int)
    : (f.interval m q).low = f.lowQuarters m q * quarterUnit q := by
  unfold interval lowQuarters
  dsimp only
  simp only [decide_eq_true_eq]
  rfl

theorem interval_high (f : Format) (m : Nat) (q : Int)
    : (f.interval m q).high = (4 * m + 2) * quarterUnit q := rfl

theorem interval_places (f : Format) (m : Nat) (q : Int)
    : (f.interval m q).places = (-(q - 2)).toNat := rfl

theorem roundsTo_of_quarters {r : Nat}
    (hlow : f.lowQuarters m q * quarterUnit q ≤ r) (hhigh : r ≤ (4 * m + 2) * quarterUnit q)
    (heven : r = f.lowQuarters m q * quarterUnit q ∨ r = (4 * m + 2) * quarterUnit q → m % 2 = 0)
    : f.RoundsTo m q (r * 10 ^ (-((f.interval m q).places : Int))) := by
  have hpow : (0 : ℚ) < 10 ^ (-((f.interval m q).places : Int)) := zpow_pos (by norm_num) _
  have hunit := quarterUnit_eq q
  rw [← interval_places f m q] at hunit
  refine ⟨?_, ?_, ?_⟩
  . rw [← hunit, ← mul_assoc]
    exact mul_le_mul_of_nonneg_right (by exact_mod_cast hlow) hpow.le
  . rw [← hunit, ← mul_assoc]
    exact mul_le_mul_of_nonneg_right (by exact_mod_cast hhigh) hpow.le
  . rw [← hunit, ← mul_assoc, ← mul_assoc, mul_left_inj' hpow.ne', mul_left_inj' hpow.ne']
    intro h
    exact heven (by exact_mod_cast h)

theorem roundsTo_of_contains (h : (f.interval m q).contains n = true)
    : f.RoundsTo m q (n * 10 ^ (-((f.interval m q).places : Int))) := by
  have hends : f.lowQuarters m q * quarterUnit q ≤ (4 * m + 2) * quarterUnit q := by
    have := f.lowQuarters_le m q
    exact Nat.mul_le_mul_right _ (by omega)
  unfold Interval.contains at h
  rw [interval_low, interval_high, Bool.or_eq_true] at h
  rcases h with h | h
  . rw [Bool.and_eq_true, decide_eq_true_eq, decide_eq_true_eq] at h
    exact roundsTo_of_quarters h.1.le h.2.le (by omega)
  . rw [Bool.and_eq_true, Bool.or_eq_true, decide_eq_true_eq, decide_eq_true_eq] at h
    obtain ⟨hclosed, hend⟩ := h
    have heven : m % 2 = 0 := by simpa [interval] using hclosed
    exact roundsTo_of_quarters (by omega) (by omega) fun _ => heven

theorem value_grid (n drop places : Nat)
    : (Digits.mk n (drop - places)).value = (n * tenPow drop : Nat) * 10 ^ (-(places : Int)) := by
  unfold Digits.value
  dsimp only
  rw [sub_eq_add_neg, zpow_add₀ (by norm_num), zpow_natCast, Nat.cast_mul, cast_tenPow, mul_assoc]

theorem roundsTo_of_candidate? {tie : Tie} {d : Digits}
    (h : (f.interval m q).candidate? tie n = some d) : f.RoundsTo m q d.value := by
  -- Whichever neighbour is chosen on the grid, it is one that lies in the interval.
  have hgrid : ∀ {k : Nat}, (f.interval m q).contains
      (k * tenPow (digitCount (f.interval m q).value - n)) = true →
      d = ⟨k, (digitCount (f.interval m q).value - n : Nat) - (f.interval m q).places⟩ →
      f.RoundsTo m q d.value := by
    rintro k hk rfl
    rw [value_grid]
    exact roundsTo_of_contains hk
  unfold Interval.candidate? at h
  dsimp only at h
  split at h
  . cases h
  . next hbelow _ =>
    exact hgrid hbelow (Option.some.inj h).symm
  . next _ habove =>
    exact hgrid habove (Option.some.inj h).symm
  . next hbelow habove =>
    split at h
    . exact hgrid hbelow (Option.some.inj h).symm
    . split at h
      . exact hgrid habove (Option.some.inj h).symm
      . split at h
        . exact hgrid habove (Option.some.inj h).symm
        . split at h
          . exact hgrid hbelow (Option.some.inj h).symm
          . exact hgrid habove (Option.some.inj h).symm

theorem roundsTo_shortest (f : Format) (tie : Tie) (hpos : 0 < m) (q : Int)
    : f.RoundsTo m q (f.shortest tie m q).value := by
  unfold shortest
  dsimp only
  rw [Digits.value_strip]
  cases hfound : (List.range' 1 17).findSome? ((f.interval m q).candidate? tie) with
  | some d =>
    obtain ⟨n, _, hn⟩ := List.exists_of_findSome?_eq_some hfound
    exact roundsTo_of_candidate? hn
  | none =>
    have hunit : 0 < quarterUnit q := by
      unfold quarterUnit
      split
      . exact twoPow_pos _
      . exact Nat.pow_pos (by decide)
    have hquarters : f.lowQuarters m q < 4 * m := by
      have := f.lowQuarters_le m q
      omega
    have hlow := Nat.mul_lt_mul_of_pos_right hquarters hunit
    have hhigh := Nat.mul_lt_mul_of_pos_right (show 4 * m < 4 * m + 2 by omega) hunit
    exact roundsTo_of_quarters (r := 4 * m * quarterUnit q) hlow.le hhigh.le (by omega)

end Format

/-! ### Texts -/

open Format

theorem digitsValue_append_zeros (ds : List Char) (k : Nat)
    : digitsValue (ds ++ .replicate k '0') = digitsValue ds * 10 ^ k := by
  rw [digitsValue_eq, digitsValue_eq, Nat.ofDigitChars_append, Nat.ofDigitChars_replicate_zero,
    Nat.mul_comm]

theorem readDecimal?_digits {ds : List Char} (negative : Bool) (hds : ∀ c ∈ ds, c.isDigit = true)
    (hne : ds ≠ []) : readDecimal? (signed negative ds) = some (negative, digitsValue ds, 0) := by
  obtain ⟨c, cs, rfl⟩ := List.exists_cons_of_ne_nil hne
  have htake := Text.takeWhile_digits hds Text.ends_nil
  have hdrop := Text.dropWhile_digits hds Text.ends_nil
  rw [List.append_nil] at htake hdrop
  unfold readDecimal?
  rw [splitSign_signed negative cs (hds c List.mem_cons_self)]
  simp [htake, hdrop]

theorem readDecimal?_point {whole frac : List Char} (negative : Bool)
    (hwhole : ∀ c ∈ whole, c.isDigit = true) (hfrac : ∀ c ∈ frac, c.isDigit = true)
    (hne : whole ≠ [])
    : readDecimal? (signed negative (whole ++ '.' :: frac))
        = some (negative, digitsValue (whole ++ frac), -(frac.length : Int)) := by
  obtain ⟨c, cs, rfl⟩ := List.exists_cons_of_ne_nil hne
  have htake := Text.takeWhile_digits hwhole (Text.ends_cons frac (c := '.') rfl)
  have hdrop := Text.dropWhile_digits hwhole (Text.ends_cons frac (c := '.') rfl)
  have htake' := Text.takeWhile_digits hfrac Text.ends_nil
  have hdrop' := Text.dropWhile_digits hfrac Text.ends_nil
  rw [List.append_nil] at htake' hdrop'
  unfold readDecimal?
  rw [List.cons_append, splitSign_signed negative _ (hwhole c List.mem_cons_self)]
  rw [List.cons_append] at htake hdrop
  simp [htake, hdrop, htake', hdrop']

/-- Texts without a sign and an exponent, of the same value as the digits `d`. -/
inductive Positional (d : Digits) : List Char → Prop where
  | whole {ds : List Char} (hds : ∀ c ∈ ds, c.isDigit = true) (hne : ds ≠ [])
      (hvalue : (Digits.mk (digitsValue ds) 0).value = d.value) : Positional d ds
  | point {whole frac : List Char} (hwhole : ∀ c ∈ whole, c.isDigit = true)
      (hfrac : ∀ c ∈ frac, c.isDigit = true) (hne : whole ≠ [])
      (hvalue : (Digits.mk (digitsValue (whole ++ frac)) (-(frac.length : Int))).value = d.value)
      : Positional d (whole ++ '.' :: frac)

theorem positional_toList (d : Digits) : Positional d d.positional.toList := by
  have hds : ∀ c ∈ decimalDigits d.digits, c.isDigit = true :=
    fun c => isDigit_of_mem_decimalDigits
  have hne : decimalDigits d.digits ≠ [] := Nat.toDigits_ne_nil
  have hvalue := digitsValue_decimalDigits d.digits
  unfold Digits.positional
  dsimp only
  generalize decimalDigits d.digits = ds at *
  split
  . next hexponent =>
    rw [String.toList_ofList]
    refine .whole ?_ (by simp [hne]) ?_
    . intro c hc
      exact (List.mem_append.mp hc).elim (hds c) isDigit_of_mem_zeros
    . rw [digitsValue_append_zeros, hvalue]
      unfold Digits.value
      dsimp only
      rw [zpow_zero, mul_one, Nat.cast_mul, Nat.cast_pow, ← zpow_natCast,
        Int.toNat_of_nonneg hexponent]
      norm_cast
  . next hexponent =>
    split
    . next hplaces =>
      rw [String.toList_ofList]
      refine .point (fun c hc => hds c (List.mem_of_mem_take hc))
        (fun c hc => hds c (List.mem_of_mem_drop hc)) ?_ ?_
      . rw [ne_eq, List.take_eq_nil_iff, not_or]
        exact ⟨by omega, hne⟩
      . rw [List.take_append_drop, hvalue, List.length_drop]
        congr 2
        omega
    . next hplaces =>
      rw [String.toList_ofList]
      have hzero : ∀ c ∈ ['0'], c.isDigit = true := List.all_eq_true.mp rfl
      refine .point hzero ?_ (List.cons_ne_nil _ _) ?_
      . intro c hc
        exact (List.mem_append.mp hc).elim isDigit_of_mem_zeros (hds c)
      . have hzeros := digitsValue_zeros_append ds ((-d.exponent).toNat - ds.length + 1)
        rw [List.replicate_succ, List.cons_append, hvalue] at hzeros
        rw [List.singleton_append, hzeros, List.length_append, List.length_replicate]
        congr 2
        omega

namespace Positional

variable {d : Digits} {cs : List Char}

theorem reads (h : Positional d cs) (negative : Bool)
    : ∃ digits exponent, readDecimal? (signed negative cs) = some (negative, digits, exponent)
        ∧ (Digits.mk digits exponent).value = d.value := by
  cases h with
  | whole hds hne hvalue => exact ⟨_, _, readDecimal?_digits negative hds hne, hvalue⟩
  | point hwhole hfrac hne hvalue =>
    exact ⟨_, _, readDecimal?_point negative hwhole hfrac hne, hvalue⟩

theorem exists_cons (h : Positional d cs) : ∃ c ds, cs = c :: ds ∧ c.isDigit = true := by
  cases h with
  | whole hds hne _ =>
    obtain ⟨c, ds, rfl⟩ := List.exists_cons_of_ne_nil hne
    exact ⟨c, ds, rfl, hds c List.mem_cons_self⟩
  | point hwhole _ hne _ =>
    obtain ⟨c, ds, rfl⟩ := List.exists_cons_of_ne_nil hne
    exact ⟨c, _, rfl, hwhole c List.mem_cons_self⟩

theorem isDigit_or_point (h : Positional d cs) : ∀ c ∈ cs, c.isDigit = true ∨ c = '.' := by
  cases h with
  | whole hds _ _ => exact fun c hc => .inl (hds c hc)
  | point hwhole hfrac _ _ =>
    intro c hc
    rcases List.mem_append.mp hc with hc | hc
    . exact .inl (hwhole c hc)
    . rcases List.mem_cons.mp hc with rfl | hc
      . exact .inr rfl
      . exact .inl (hfrac c hc)

end Positional

def unsignedText (f : Format) (m : Nat) (q : Int) : List Char :=
  if m = 0 then ['0'] else (f.shortest .up m q).positional.toList

theorem toList_display (f : Format) (negative : Bool) (m : Nat) (q : Int)
    : (f.display (.finite negative m q)).toList = signed negative (unsignedText f m q) := by
  have hbody : unsignedText f m q
      = (if m = 0 then "0" else (f.shortest .up m q).positional).toList := by
    unfold unsignedText
    split
    . rfl
    . rfl
  rw [hbody]
  unfold Format.display signed
  dsimp only
  split
  . rw [String.toList_append]
    rfl
  . rfl

theorem exists_unsignedText (f : Format) (m : Nat) (q : Int)
    : ∃ c cs, unsignedText f m q = c :: cs ∧ c.isDigit = true := by
  unfold unsignedText
  split
  . exact ⟨'0', [], rfl, rfl⟩
  . exact (positional_toList _).exists_cons

theorem isDigit_or_point_of_mem_unsignedText {f : Format} {m : Nat} {q : Int} {c : Char}
    (h : c ∈ unsignedText f m q) : c.isDigit = true ∨ c = '.' := by
  unfold unsignedText at h
  split at h
  . rw [List.mem_singleton] at h
    rw [h]
    exact .inl rfl
  . exact (positional_toList _).isDigit_or_point c h

theorem readDecimal?_display {f : Format} (negative : Bool) {m : Nat} {q : Int} (hf : f.IsWide)
    (hcanonical : f.IsCanonical m q)
    : ∃ digits exponent, readDecimal? (f.display (.finite negative m q)).toList
          = some (negative, digits, exponent)
        ∧ f.ofDecimal digits exponent = f.magnitude m q := by
  rw [toList_display]
  unfold unsignedText
  split
  . next hzero =>
    have hq : q = f.leastExponent := by
      by_contra hne
      have := hcanonical.le_of_normal (lt_of_le_of_ne hcanonical.least_le (Ne.symm hne))
      have := f.fractionCount_pos
      omega
    refine ⟨0, 0, readDecimal?_digits negative (List.all_eq_true.mp rfl) (List.cons_ne_nil _ _), ?_⟩
    rw [hzero, hq, magnitude_least]
    rfl
  . next hpos =>
    obtain ⟨digits, exponent, hread, hvalue⟩ :=
      (positional_toList (f.shortest .up m q)).reads negative
    have hrounds := roundsTo_shortest f .up (Nat.pos_of_ne_zero hpos) q
    rw [← hvalue] at hrounds
    exact ⟨digits, exponent, hread,
      ofDecimal_of_roundsTo hf (Nat.pos_of_ne_zero hpos) hcanonical hrounds⟩

theorem read?_display {x : Float} {negative : Bool} {m : Nat} {q : Int}
    (h : datum x = .finite negative m q) : read? (display x).toList = some x := by
  obtain ⟨hbits, hcanonical⟩ := eq_ofBits_of_datum h
  obtain ⟨digits, exponent, hread, hmagnitude⟩ :=
    readDecimal?_display negative isWide_binary64 hcanonical
  unfold read? display
  rw [h, hread, Option.map_some]
  dsimp only
  rw [hmagnitude, ← hbits]

theorem read32?_display32 {x : Float32} {negative : Bool} {m : Nat} {q : Int}
    (h : datum32 x = .finite negative m q) : read32? (display32 x).toList = some x := by
  obtain ⟨hbits, hcanonical⟩ := eq_ofBits_of_datum32 h
  obtain ⟨digits, exponent, hread, hmagnitude⟩ :=
    readDecimal?_display negative isWide_binary32 hcanonical
  unfold read32? display32
  rw [h, hread, Option.map_some]
  dsimp only
  rw [hmagnitude, ← hbits]

end Edm.Ieee
