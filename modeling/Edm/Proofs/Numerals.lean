import Edm.Literal.Decode

/-!
This module contains the laws of the digits of numbers: integers and decimals are read back from
their texts. Only the sign of a zero is lost on the way.
-/

namespace Edm

namespace Text

def Ends (rest : List Char) : Prop := ∀ c ∈ rest.head?, c.isDigit = false

theorem ends_nil : Ends [] := by
  intro c hc
  cases hc

theorem ends_cons {c : Char} (cs : List Char) (hc : c.isDigit = false) : Ends (c :: cs) := by
  intro d hd
  cases hd
  exact hc

theorem takeWhile_of_ends {rest : List Char} (h : Ends rest)
    : rest.takeWhile Char.isDigit = [] := by
  cases rest with
  | nil => rfl
  | cons c cs => exact List.takeWhile_cons_of_neg (by simp [h c rfl])

theorem dropWhile_of_ends {rest : List Char} (h : Ends rest)
    : rest.dropWhile Char.isDigit = rest := by
  cases rest with
  | nil => rfl
  | cons c cs => exact List.dropWhile_cons_of_neg (by simp [h c rfl])

theorem takeWhile_digits {ds rest : List Char} (hds : ∀ c ∈ ds, c.isDigit = true)
    (h : Ends rest) : (ds ++ rest).takeWhile Char.isDigit = ds := by
  rw [List.takeWhile_append_of_pos hds, takeWhile_of_ends h, List.append_nil]

theorem dropWhile_digits {ds rest : List Char} (hds : ∀ c ∈ ds, c.isDigit = true)
    (h : Ends rest) : (ds ++ rest).dropWhile Char.isDigit = rest := by
  rw [List.dropWhile_append_of_pos hds, dropWhile_of_ends h]

end Text

namespace Ieee

theorem ofDigitChars_eq_foldl (ds : List Char) (n : Nat)
    : Nat.ofDigitChars 10 ds n = ds.foldl (fun n c => n * 10 + digitValue c) n := by
  rw [Nat.ofDigitChars_eq_foldl]
  congr 1
  funext n c
  rw [Nat.mul_comm]
  rfl

theorem digitsValue_eq (ds : List Char) : digitsValue ds = Nat.ofDigitChars 10 ds 0 := by
  rw [ofDigitChars_eq_foldl]
  rfl

theorem digitsValue_zeros_append (ds : List Char) (k : Nat)
    : digitsValue (.replicate k '0' ++ ds) = digitsValue ds := by
  rw [digitsValue_eq, digitsValue_eq, Nat.ofDigitChars_append, Nat.ofDigitChars_replicate_zero,
    Nat.mul_zero]

theorem digitsValue_decimalDigits (n : Nat) : digitsValue (decimalDigits n) = n := by
  rw [digitsValue_eq]
  exact Nat.ofDigitChars_ten_toDigits

theorem isDigit_of_mem_decimalDigits {n : Nat} {c : Char} (h : c ∈ decimalDigits n)
    : c.isDigit = true := by
  exact Nat.isDigit_of_mem_toDigits (by decide) (by decide) h

theorem isDigit_of_mem_zeros {k : Nat} {c : Char} (h : c ∈ List.replicate k '0')
    : c.isDigit = true := by
  rw [(List.mem_replicate.mp h).2]
  rfl

theorem le_ofDigitChars (ds : List Char) (n : Nat) : n ≤ Nat.ofDigitChars 10 ds n := by
  induction ds generalizing n with
  | nil => simp
  | cons c ds ih =>
    rw [Nat.ofDigitChars_cons]
    have := ih (10 * n + (c.toNat - '0'.toNat))
    omega

/-- Put a minus in front of the digits of a negative number. -/
def signed (negative : Bool) (ds : List Char) : List Char := if negative then '-' :: ds else ds

theorem splitSign_signed {c : Char} (negative : Bool) (cs : List Char) (hc : c.isDigit = true)
    : splitSign (signed negative (c :: cs)) = (negative, c :: cs) := by
  unfold signed
  cases negative with
  | true => rfl
  | false =>
    have hminus : c ≠ '-' := by
      rintro rfl
      contradiction
    have hplus : c ≠ '+' := by
      rintro rfl
      contradiction
    simp [splitSign, hminus, hplus]

theorem getLast?_signed (negative : Bool) {ds : List Char} (h : ds ≠ [])
    : (signed negative ds).getLast? = ds.getLast? := by
  unfold signed
  split
  . rw [List.getLast?_cons_of_ne_nil h]
  . rfl

theorem signed_append (negative : Bool) (ds es : List Char)
    : signed negative (ds ++ es) = signed negative ds ++ es := by
  unfold signed
  split
  . rfl
  . rfl

theorem signed_inj {m n : Bool} {ds es : List Char} (hds : ∃ c cs, ds = c :: cs ∧ c.isDigit = true)
    (hes : ∃ c cs, es = c :: cs ∧ c.isDigit = true) (h : signed m ds = signed n es)
    : m = n ∧ ds = es := by
  obtain ⟨c, cs, rfl, hc⟩ := hds
  obtain ⟨d, ds, rfl, hd⟩ := hes
  have hsplit := congrArg splitSign h
  rw [splitSign_signed m cs hc, splitSign_signed n ds hd] at hsplit
  exact Prod.mk.inj hsplit

end Ieee

open Ieee (decimalDigits digitsValue digitValue splitSign signed)

/-! ### Integers -/

theorem toList_toString_int (n : Int)
    : (toString n).toList = signed (decide (n < 0)) (decimalDigits n.natAbs) := by
  rw [Int.toString_eq_repr, Int.repr_eq_if]
  unfold signed decimalDigits
  split
  . have hn : ¬ n < 0 := by omega
    have habs : n.toNat = n.natAbs := by omega
    simp [hn, habs]
  . have hn : n < 0 := by omega
    have habs : (-n).toNat = n.natAbs := by omega
    simp [hn, habs]

theorem exists_decimalDigits (n : Nat)
    : ∃ c cs, decimalDigits n = c :: cs ∧ c.isDigit = true := by
  cases hds : decimalDigits n with
  | nil => exact absurd hds Nat.toDigits_ne_nil
  | cons c cs =>
    refine ⟨c, cs, rfl, Ieee.isDigit_of_mem_decimalDigits (n := n) ?_⟩
    rw [hds]
    exact List.mem_cons_self

theorem readInt64?_toString (n : Int)
    : Literal.readInt64? (toString n).toList = Numeric.int64? n := by
  obtain ⟨c, cs, hds, hc⟩ := exists_decimalDigits n.natAbs
  have hdigits : (!(c :: cs).isEmpty && (c :: cs).all Char.isDigit) = true := by
    rw [List.isEmpty_cons, Bool.not_false, Bool.true_and, List.all_eq_true, ← hds]
    intro d hd
    exact Ieee.isDigit_of_mem_decimalDigits hd
  have hvalue : digitsValue (c :: cs) = n.natAbs := by
    rw [← hds]
    exact Ieee.digitsValue_decimalDigits n.natAbs
  have hsigned : (if decide (n < 0) = true then -(n.natAbs : Int) else n.natAbs) = n := by
    split
    . next h =>
      rw [decide_eq_true_eq] at h
      omega
    . next h =>
      rw [decide_eq_true_eq] at h
      omega
  unfold Literal.readInt64?
  rw [toList_toString_int, hds, Ieee.splitSign_signed _ cs hc]
  simp only [hdigits, hvalue, hsigned, if_true]

theorem int64?_toInt (n : Int64) : Numeric.int64? n.toInt = some n := by
  unfold Numeric.int64?
  have hle := n.le_toInt
  have hlt := n.toInt_lt
  rw [if_pos (by omega), Int64.ofInt_toInt]

/-! ### Decimals -/

namespace Decimal

def unsignedZero (d : Decimal) : Decimal := { d with negative := unsigned d.negative d.mantissa }

theorem unsignedZero_eq_self {d : Decimal} (h : d.negative = true → d.mantissa ≠ 0)
    : d.unsignedZero = d := by
  obtain ⟨negative, mantissa, scale, hmantissa, hscale⟩ := d
  cases negative with
  | false => rfl
  | true => simp [unsignedZero, unsigned, h rfl]

theorem signedMantissa_unsignedZero (d : Decimal)
    : d.unsignedZero.signedMantissa = d.signedMantissa := by
  unfold signedMantissa unsignedZero unsigned
  dsimp
  cases d.negative with
  | false => rfl
  | true =>
    by_cases h : d.mantissa = 0
    . simp [h]
    . simp [h]

theorem order_unsignedZero (d : Decimal) : d.unsignedZero.order d = .eq := by
  unfold order
  rw [signedMantissa_unsignedZero]
  exact Std.ReflCmp.compare_self

theorem ofParts?_unsigned (d : Decimal)
    : ofParts? (unsigned d.negative d.mantissa) d.mantissa d.scale = some d.unsignedZero := by
  unfold ofParts?
  rw [dif_pos ⟨d.mantissa_lt, d.scale_le⟩]
  rfl

theorem readFraction?_eq {negative seen : Bool} {mantissa scale : Nat} {ds : List Char}
    (hdigits : ∀ c ∈ ds, c.isDigit = true) (hscale : scale + ds.length ≤ maxScale)
    (hlimit : Nat.ofDigitChars 10 ds mantissa < mantissaLimit) (hseen : seen = true ∨ ds ≠ [])
    : readFraction? negative mantissa scale seen ds
        = ofParts? (unsigned negative (Nat.ofDigitChars 10 ds mantissa))
            (Nat.ofDigitChars 10 ds mantissa) (scale + ds.length) := by
  -- No digit is rounded off, since neither the places nor the mantissa run out.
  induction ds generalizing mantissa scale seen with
  | nil =>
    obtain rfl : seen = true := by simpa using hseen
    rw [readFraction?]
    simp
  | cons c ds ih =>
    rw [Nat.ofDigitChars_cons] at hlimit ⊢
    have hvalue : mantissa * 10 + digitValue c = 10 * mantissa + (c.toNat - '0'.toNat) := by
      rw [Nat.mul_comm]
      rfl
    have hle := Ieee.le_ofDigitChars ds (10 * mantissa + (c.toNat - '0'.toNat))
    rw [List.length_cons] at hscale ⊢
    rw [readFraction?, if_pos (hdigits c List.mem_cons_self), hvalue, if_neg (by omega),
      ih (fun d hd => hdigits d (List.mem_cons_of_mem c hd)) (by omega) hlimit (.inl rfl),
      Nat.add_assoc, Nat.add_comm 1]

theorem readWhole?_append {negative seen : Bool} {mantissa : Nat} {ds : List Char}
    (rest : List Char) (hdigits : ∀ c ∈ ds, c.isDigit = true)
    (hlimit : Nat.ofDigitChars 10 ds mantissa < mantissaLimit)
    : readWhole? negative mantissa seen (ds ++ rest)
        = readWhole? negative (Nat.ofDigitChars 10 ds mantissa) (seen || !ds.isEmpty) rest := by
  induction ds generalizing mantissa seen with
  | nil => simp
  | cons c ds ih =>
    rw [Nat.ofDigitChars_cons] at hlimit ⊢
    have hvalue : mantissa * 10 + digitValue c = 10 * mantissa + (c.toNat - '0'.toNat) := by
      rw [Nat.mul_comm]
      rfl
    have hle := Ieee.le_ofDigitChars ds (10 * mantissa + (c.toNat - '0'.toNat))
    have hc := hdigits c List.mem_cons_self
    have hpoint : c ≠ '.' := by
      rintro rfl
      contradiction
    rw [List.cons_append, readWhole?, if_neg hpoint, if_pos hc]
    dsimp
    rw [hvalue, if_pos (by omega),
      ih (fun d hd => hdigits d (List.mem_cons_of_mem c hd)) hlimit]
    simp

/-- The digits of the mantissa, at least one more than the places behind the point. -/
def paddedDigits (d : Decimal) : List Char :=
  .replicate (d.scale + 1 - (decimalDigits d.mantissa).length) '0' ++ decimalDigits d.mantissa

theorem scale_lt_length (d : Decimal) : d.scale < d.paddedDigits.length := by
  unfold paddedDigits
  rw [List.length_append, List.length_replicate]
  omega

theorem isDigit_of_mem_paddedDigits {d : Decimal} {c : Char} (h : c ∈ d.paddedDigits)
    : c.isDigit = true := by
  rcases List.mem_append.mp h with h | h
  . exact Ieee.isDigit_of_mem_zeros h
  . exact Ieee.isDigit_of_mem_decimalDigits h

theorem ofDigitChars_paddedDigits (d : Decimal)
    : Nat.ofDigitChars 10 d.paddedDigits 0 = d.mantissa := by
  unfold paddedDigits
  rw [← Ieee.digitsValue_eq, Ieee.digitsValue_zeros_append, Ieee.digitsValue_decimalDigits]

def unsignedText (d : Decimal) : List Char :=
  if d.scale = 0 then d.paddedDigits
  else
    d.paddedDigits.take (d.paddedDigits.length - d.scale)
      ++ '.' :: d.paddedDigits.drop (d.paddedDigits.length - d.scale)

theorem toList_toText (d : Decimal) : d.toText.toList = signed d.negative d.unsignedText := by
  unfold toText
  rw [String.toList_ofList]
  rfl

theorem exists_unsignedText (d : Decimal)
    : ∃ c cs, d.unsignedText = c :: cs ∧ c.isDigit = true := by
  have hlt := d.scale_lt_length
  cases hds : d.paddedDigits with
  | nil => simp [hds] at hlt
  | cons c ds =>
    have hc : c.isDigit = true := isDigit_of_mem_paddedDigits (d := d) (by simp [hds])
    unfold unsignedText
    rw [hds] at hlt ⊢
    split
    . exact ⟨c, ds, rfl, hc⟩
    . obtain ⟨n, hn⟩ : ∃ n, (c :: ds).length - d.scale = n + 1 :=
        Nat.exists_eq_succ_of_ne_zero (by omega)
      rw [hn]
      exact ⟨c, _, rfl, hc⟩

theorem read?_toText (d : Decimal) : read? d.toText.toList = some d.unsignedZero := by
  obtain ⟨c, cs, htext, hc⟩ := d.exists_unsignedText
  unfold read?
  rw [toList_toText, htext, Ieee.splitSign_signed _ cs hc, ← htext]
  dsimp
  have hlt := d.scale_lt_length
  have hvalue := d.ofDigitChars_paddedDigits
  unfold unsignedText
  split
  . next hscale =>
    have hne : d.paddedDigits ≠ [] := List.ne_nil_of_length_pos (by omega)
    have hread : readWhole? d.negative 0 false (d.paddedDigits ++ []) = _ :=
      readWhole?_append [] (fun c hc => isDigit_of_mem_paddedDigits hc) (hvalue ▸ d.mantissa_lt)
    rw [List.append_nil, hvalue] at hread
    rw [hread, readWhole?, ← ofParts?_unsigned]
    simp [hne, hscale]
  . -- The digits before the point are read first, and those behind it go on from there.
    generalize hwhole : d.paddedDigits.take (d.paddedDigits.length - d.scale) = whole
    generalize hplaces : d.paddedDigits.drop (d.paddedDigits.length - d.scale) = places
    have happend : whole ++ places = d.paddedDigits := by
      rw [← hwhole, ← hplaces, List.take_append_drop]
    have hlength : places.length = d.scale := by
      rw [← hplaces, List.length_drop]
      omega
    have hne : whole ≠ [] := by
      rintro rfl
      rw [List.nil_append] at happend
      rw [happend] at hlength
      omega
    rw [← happend, Nat.ofDigitChars_append] at hvalue
    have hdigits : ∀ c ∈ whole ++ places, c.isDigit = true := by
      intro c hc
      rw [happend] at hc
      exact isDigit_of_mem_paddedDigits hc
    have hle := Ieee.le_ofDigitChars places (Nat.ofDigitChars 10 whole 0)
    have hmantissa := d.mantissa_lt
    rw [readWhole?_append ('.' :: places) (fun c hc => hdigits c (List.mem_append_left _ hc))
      (by omega), readWhole?, if_pos rfl,
      readFraction?_eq (fun c hc => hdigits c (List.mem_append_right _ hc)) _ (by omega) _, hvalue,
      Nat.zero_add, hlength, ofParts?_unsigned]
    . rw [Nat.zero_add, hlength]
      exact d.scale_le
    . left
      simpa using hne

end Decimal

end Edm
