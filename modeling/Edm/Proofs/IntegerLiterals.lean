import Edm.Proofs.Integers
import Edm.Proofs.Literals

/-!
This module contains the grammar of integer literals: an optional sign and at least one digit, and
an `L` behind them for 64 bits. The main statement is that the value decides the type that a literal
without the letter is read as, and that what does not fit is refused as out of range. So is, though
it has no value, every other text of signs and digits.
-/

namespace Edm

namespace Literal

open Text (isBlank)

/-- An optional sign with at least one digit behind it, and the integer that they denote. -/
inductive DenotesInteger : List Char → Int → Prop where
  | unsigned {ds : List Char} (hne : ds ≠ []) (hds : ∀ c ∈ ds, c.isDigit = true)
      : DenotesInteger ds (Nat.ofDigitChars 10 ds 0)
  | plus {ds : List Char} (hne : ds ≠ []) (hds : ∀ c ∈ ds, c.isDigit = true)
      : DenotesInteger ('+' :: ds) (Nat.ofDigitChars 10 ds 0)
  | minus {ds : List Char} (hne : ds ≠ []) (hds : ∀ c ∈ ds, c.isDigit = true)
      : DenotesInteger ('-' :: ds) (-Nat.ofDigitChars 10 ds 0)

theorem splitSign_digits {ds : List Char} (hds : ∀ c ∈ ds, c.isDigit = true)
    : Ieee.splitSign ds = (false, ds) := by
  unfold Ieee.splitSign
  split
  . cases hds '-' (by simp)
  . cases hds '+' (by simp)
  . rfl

theorem readInt64?_of_splitSign {cs ds : List Char} {negative : Bool}
    (hsign : Ieee.splitSign cs = (negative, ds)) (hne : ds ≠ [])
    (hds : ∀ c ∈ ds, c.isDigit = true)
    : readInt64? cs
        = Numeric.int64? (if negative then -Nat.ofDigitChars 10 ds 0 else Nat.ofDigitChars 10 ds 0)
    := by
  have hdigits : (!ds.isEmpty && ds.all Char.isDigit) = true := by
    simp [hne, List.all_eq_true.mpr hds]
  unfold readInt64?
  rw [hsign]
  dsimp only
  rw [if_pos hdigits, Ieee.digitsValue_eq]

theorem readInt64?_of_denotes {cs : List Char} {n : Int} (h : DenotesInteger cs n)
    : readInt64? cs = Numeric.int64? n := by
  cases h with
  | unsigned hne hds => exact readInt64?_of_splitSign (splitSign_digits hds) hne hds
  | @plus ds hne hds =>
    have hsign : Ieee.splitSign ('+' :: ds) = (false, ds) := rfl
    exact readInt64?_of_splitSign hsign hne hds
  | @minus ds hne hds =>
    have hsign : Ieee.splitSign ('-' :: ds) = (true, ds) := rfl
    exact readInt64?_of_splitSign hsign hne hds

theorem exists_denotesInteger {cs : List Char} {negative : Bool} {ds : List Char}
    (hsign : Ieee.splitSign cs = (negative, ds)) (hne : ds ≠ [])
    (hds : ∀ c ∈ ds, c.isDigit = true) : ∃ n, DenotesInteger cs n := by
  unfold Ieee.splitSign at hsign
  split at hsign
  . cases hsign
    exact ⟨_, .minus hne hds⟩
  . cases hsign
    exact ⟨_, .plus hne hds⟩
  . cases hsign
    exact ⟨_, .unsigned hne hds⟩

theorem readInt64?_eq_none {cs : List Char} (h : ∀ n, ¬ DenotesInteger cs n)
    : readInt64? cs = none := by
  unfold readInt64?
  split
  next negative ds hsign =>
  apply if_neg
  intro hdigits
  rw [Bool.and_eq_true, List.all_eq_true] at hdigits
  obtain ⟨n, hn⟩ := exists_denotesInteger hsign (by simpa using hdigits.1) hdigits.2
  exact h n hn

/-! ### Texts of signs and digits -/

theorem IsIntegerChar.isAlpha_eq {c : Char} (h : IsIntegerChar c) : c.isAlpha = false := by
  rcases h with h | rfl | rfl
  . exact isAlpha_of_isDigit h
  . rfl
  . rfl

theorem IsIntegerChar.isNumberChar_eq {c : Char} (h : IsIntegerChar c) : isNumberChar c = true := by
  rcases h with h | rfl | rfl
  . exact isNumberChar_of_isDigit h
  . rfl
  . rfl

section

variable {text : String} (hne : text.toList ≠ []) (hchars : ∀ c ∈ text.toList, IsIntegerChar c)

include hne hchars

theorem decode_plain
    : decode text
        = match readInt64? text.toList with
          | some n => .ok (Numeric.integerValue true n)
          | none => .error (.outOfRange text) := by
  obtain ⟨c, cs, hcs⟩ := List.exists_cons_of_ne_nil hne
  have hlast := List.getLast?_eq_some_getLast hne
  have hend := hchars _ (List.getLast_mem hne)
  have hblank : ∀ d ∈ (c :: cs).getLast?, isBlank d = false := by
    rw [← hcs, hlast]
    intro d hd
    cases hd
    exact hend.isBlank_eq
  rw [decode_number hcs (hchars c (by simp [hcs])) hblank,
    number_digits text hlast hend.isAlpha_eq fun d hd => (hchars d hd).isNumberChar_eq]
  exact plainNumber_integer text hchars

theorem decode_letter_long {letter : Char} (hletter : letter = 'L' ∨ letter = 'l')
    : decode (text.push letter)
        = match readInt64? text.toList with
          | some n => .ok (.int64 n)
          | none => .error (.outOfRange (text.push letter)) := by
  obtain ⟨c, cs, hcs⟩ := List.exists_cons_of_ne_nil hne
  have hpush : (text.push letter).toList = text.toList ++ [letter] := String.toList_push letter
  have hstart : (text.push letter).toList = c :: (cs ++ [letter]) := by
    rw [hpush, hcs, List.cons_append]
  have hkind : isBlank letter = false ∧ letter.isAlpha = true ∧ letter.toUpper = 'L' := by
    rcases hletter with rfl | rfl
    . decide
    . decide
  have hblank : ∀ d ∈ (c :: (cs ++ [letter])).getLast?, isBlank d = false := by
    rw [← List.cons_append, List.getLast?_concat]
    intro d hd
    cases hd
    exact hkind.1
  rw [decode_number hstart (hchars c (by simp [hcs])) hblank, hpush,
    number_letter _ hkind.2.1 hne fun d hd => (hchars d hd).isNumberChar_eq]
  unfold suffixedNumber
  rw [hkind.2.2]
  rfl

end

/--
A text of signs and digits that denotes an integer is read as the integer if that fits, with 32 bits
if these are enough and the letter of 64 bits does not follow. It is out of range otherwise, as are
the texts of signs and digits that denote nothing.
-/
theorem decode_signs_and_digits {text : String} {letter : Char} (hne : text.toList ≠ [])
    (hchars : ∀ c ∈ text.toList, IsIntegerChar c) (hletter : letter = 'L' ∨ letter = 'l')
    : (∀ n, DenotesInteger text.toList n →
        decode text
            = (if FitsIn 32 n then .ok (.int32 (.ofInt n))
              else if FitsIn 64 n then .ok (.int64 (.ofInt n))
              else .error (.outOfRange text))
          ∧
        decode (text.push letter)
            = (if FitsIn 64 n then .ok (.int64 (.ofInt n))
              else .error (.outOfRange (text.push letter))))
        ∧
      ((∀ n, ¬ DenotesInteger text.toList n) →
        decode text = .error (.outOfRange text)
          ∧
        decode (text.push letter) = .error (.outOfRange (text.push letter))) := by
  rw [decode_plain hne hchars, decode_letter_long hne hchars hletter]
  constructor
  . intro n hn
    rw [readInt64?_of_denotes hn]
    by_cases hfits : FitsIn 64 n
    . rw [Numeric.int64?_of_fitsIn hfits, if_pos hfits, if_pos hfits]
      refine ⟨?_, rfl⟩
      dsimp only
      unfold Numeric.integerValue
      rw [toInt_ofInt_of_fitsIn hfits]
      simp only [true_and, ← fitsIn_32_iff]
      split
      . rfl
      . rfl
    . have hnarrow : ¬ FitsIn 32 n := by
        rw [fitsIn_64_iff] at hfits
        rw [fitsIn_32_iff]
        omega
      rw [Numeric.int64?_of_not_fitsIn hfits, if_neg hnarrow, if_neg hfits, if_neg hfits]
      exact ⟨rfl, rfl⟩
  . intro h
    rw [readInt64?_eq_none h]
    exact ⟨rfl, rfl⟩

/-- The greatest integer of 64 bits, with a plus and a zero in front of it. -/
theorem decode_signs_and_digits_greatest
    : DenotesInteger "+09223372036854775807".toList 9223372036854775807
        ∧
      decode "+09223372036854775807" = .ok (.int64 (.ofInt 9223372036854775807))
        ∧
      decode "+09223372036854775807l" = .ok (.int64 (.ofInt 9223372036854775807)) := by
  have hdigits : ∀ c ∈ "09223372036854775807".toList, c.isDigit = true :=
    List.all_eq_true.mp rfl
  have hdenotes : DenotesInteger "+09223372036854775807".toList 9223372036854775807 :=
    .plus (List.cons_ne_nil _ _) hdigits
  have hchars : ∀ c ∈ "+09223372036854775807".toList, IsIntegerChar c := by
    intro c hc
    rcases List.mem_cons.mp hc with rfl | hc
    . exact .inr (.inr rfl)
    . exact .inl (hdigits c hc)
  have hne : "+09223372036854775807".toList ≠ [] := List.cons_ne_nil _ _
  have hread := (decode_signs_and_digits hne hchars (.inr rfl)).1 _ hdenotes
  rw [if_neg (by decide), if_pos (by decide)] at hread
  exact ⟨hdenotes, hread⟩

/-- A sign between digits is told as out of range. -/
theorem decode_sign_between_digits
    : (∀ n, ¬ DenotesInteger "1-2".toList n) ∧ decode "1-2" = .error (.outOfRange "1-2") := by
  refine ⟨?_, rfl⟩
  intro n hn
  generalize hcs : "1-2".toList = cs at hn
  cases hn with
  | unsigned hne hds =>
    have hminus := hds '-' (by simp [← hcs])
    cases hminus
  | plus => cases hcs
  | minus => cases hcs

end Literal

end Edm
