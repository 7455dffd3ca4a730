import Edm.Proofs.TimeLiterals

/-!
This module contains the grammar of binary literals: hexadecimal digits of either case stand in
their quotes, two for each byte. The main statement is that a literal is read exactly if it follows
the grammar, where a plus counts as a zero if it stands in the place of the first digit of a byte.
-/

namespace Edm

namespace Text

/-- A character is a hexadecimal digit for a number, in lower or upper case. -/
def IsHexDigit (c : Char) (n : Nat) : Prop :=
  n < 16 ∧ (c = n.digitChar ∨ c = n.digitChar.toUpper)

instance (c : Char) (n : Nat) : Decidable (IsHexDigit c n) := inferInstanceAs (Decidable (_ ∧ _))

theorem IsHexDigit.hexValue?_eq {c : Char} {n : Nat} (h : IsHexDigit c n)
    : hexValue? c = some n := by
  have hvalue : ∀ n < 16,
      hexValue? n.digitChar = some n ∧ hexValue? n.digitChar.toUpper = some n := by
    decide
  obtain ⟨hn, rfl | rfl⟩ := h
  . exact (hvalue n hn).1
  . exact (hvalue n hn).2

theorem isHexDigit_range {c first : Char} (count shift : Nat)
    (hdigits : ∀ n < count, IsHexDigit (.ofNat (first.toNat + n)) (n + shift))
    (hfirst : first ≤ c) (hlast : c.toNat < first.toNat + count)
    : IsHexDigit c (c.toNat - first.toNat + shift) := by
  have hle : first.toNat ≤ c.toNat := hfirst
  have hdigit := hdigits (c.toNat - first.toNat) (by omega)
  rwa [Nat.add_sub_cancel' hle, Char.ofNat_toNat] at hdigit

theorem hexValue?_eq_some_iff {c : Char} {n : Nat} : hexValue? c = some n ↔ IsHexDigit c n := by
  constructor
  . intro h
    unfold hexValue? at h
    split at h
    . next hc =>
      cases h
      exact isHexDigit_range 10 0 (by decide) hc.1 (Nat.lt_succ_of_le hc.2)
    . split at h
      . next hc =>
        cases h
        exact isHexDigit_range 6 10 (by decide) hc.1 (Nat.lt_succ_of_le hc.2)
      . split at h
        . next hc =>
          cases h
          exact isHexDigit_range 6 10 (by decide) hc.1 (Nat.lt_succ_of_le hc.2)
        . cases h
  . exact IsHexDigit.hexValue?_eq

theorem IsHexDigit.toUpper_eq {c : Char} {n : Nat} (h : IsHexDigit c n)
    : c.toUpper = (hexDigit n).toUpper := by
  have hupper : ∀ n < 16,
      n.digitChar.toUpper = (hexDigit n).toUpper
        ∧ n.digitChar.toUpper.toUpper = (hexDigit n).toUpper := by
    decide
  obtain ⟨hn, rfl | rfl⟩ := h
  . exact (hupper n hn).1
  . exact (hupper n hn).2

/-- Texts of two hexadecimal digits for each byte, and the bytes that they denote. -/
inductive Spells : List Char → List UInt8 → Prop where
  | nil : Spells [] []
  | cons {c d : Char} {m n : Nat} {cs : List Char} {bytes : List UInt8} (hc : IsHexDigit c m)
      (hd : IsHexDigit d n) (h : Spells cs bytes)
      : Spells (c :: d :: cs) (.ofNat (m * 16 + n) :: bytes)

theorem exists_spells_iff {cs : List Char}
    : (∃ bytes, Spells cs bytes) ↔ cs.length % 2 = 0 ∧ ∀ c ∈ cs, ∃ n, IsHexDigit c n := by
  constructor
  . rintro ⟨bytes, h⟩
    induction h with
    | nil => simp
    | @cons c d m n cs bytes hc hd _ ih =>
      simp only [List.forall_mem_cons, List.length_cons]
      refine ⟨by omega, ?_⟩
      exact ⟨⟨m, hc⟩, ⟨n, hd⟩, ih.2⟩
  . rintro ⟨hlength, h⟩
    induction cs using List.twoStepInduction with
    | nil => exact ⟨[], .nil⟩
    | singleton c => simp at hlength
    | cons_cons c d cs ih _ =>
      simp only [List.forall_mem_cons, List.length_cons] at h hlength
      obtain ⟨⟨m, hc⟩, ⟨n, hd⟩, h⟩ := h
      obtain ⟨bytes, hbytes⟩ := ih (by omega) h
      exact ⟨_, .cons hc hd hbytes⟩

theorem Spells.bytesHexUpper_eq {cs : List Char} {bytes : List UInt8} (h : Spells cs bytes)
    : bytesHexUpper bytes = cs.map Char.toUpper := by
  induction h with
  | nil => rfl
  | @cons c d m n cs bytes hc hd _ ih =>
    have hm := hc.1
    have hn := hd.1
    have hbyte : (UInt8.ofNat (m * 16 + n)).toNat = m * 16 + n := by
      apply UInt8.toNat_ofNat_of_lt'
      simp only [UInt8.size]
      omega
    have hhigh : (m * 16 + n) / 16 = m := by omega
    have hlow : (m * 16 + n) % 16 = n := by omega
    rw [bytesHexUpper_cons, hbyte, hhigh, hlow, ih, List.map_cons, List.map_cons, hc.toUpper_eq,
      hd.toUpper_eq]

end Text

namespace Literal

open Text (IsHexDigit Spells exists_spells_iff hexValue? hexValue?_eq_some_iff)

/-- The text with zeros for the pluses that stand in the place of the first digit of a byte. -/
def plusAsZero : List Char → List Char
  | c :: d :: cs => (if c = '+' then '0' else c) :: d :: plusAsZero cs
  | cs => cs

theorem plusAsZero_eq_self {cs : List Char} (h : '+' ∉ cs) : plusAsZero cs = cs := by
  fun_induction plusAsZero cs with
  | case1 c d cs ih =>
    simp only [List.mem_cons, not_or] at h
    rw [if_neg (Ne.symm h.1), ih h.2.2]
  | case2 => rfl

theorem length_plusAsZero (cs : List Char) : (plusAsZero cs).length = cs.length := by
  fun_induction plusAsZero cs with
  | case1 c d cs ih => simp [ih]
  | case2 => rfl

theorem eq_plus_or_mem {cs : List Char} {c : Char} (h : c ∈ cs)
    : c = '+' ∨ c ∈ plusAsZero cs := by
  fun_induction plusAsZero cs with
  | case1 d e cs ih =>
    simp only [List.mem_cons] at h ⊢
    rcases h with rfl | rfl | h
    . by_cases hplus : c = '+'
      . exact .inl hplus
      . simp [hplus]
    . simp
    . rcases ih h with h | h
      . exact .inl h
      . simp [h]
  | case2 => exact .inr h

theorem hexPair?_eq_some_iff {c d : Char} {b : UInt8}
    : hexPair? c d = some b
        ↔ ∃ m n,
            IsHexDigit (if c = '+' then '0' else c) m
              ∧ IsHexDigit d n
              ∧ UInt8.ofNat (m * 16 + n) = b := by
  simp only [← hexValue?_eq_some_iff]
  unfold hexPair?
  split
  . have hzero : hexValue? '0' = some 0 := rfl
    simp [hzero]
  . next hplus =>
    rw [if_neg (by simpa using hplus)]
    simp [Option.bind_eq_some_iff]

theorem hexPairs?_eq_some_iff {cs : List Char} {bytes : List UInt8}
    : hexPairs? cs = some bytes ↔ Spells (plusAsZero cs) bytes := by
  fun_induction hexPairs? cs generalizing bytes with
  | case1 =>
    constructor
    . rintro ⟨⟩
      exact .nil
    . rintro ⟨⟩
      rfl
  | case2 c =>
    constructor
    . nofun
    . nofun
  | case3 c d cs ih =>
    rw [plusAsZero]
    constructor
    . intro h
      obtain ⟨b, hb, h⟩ := Option.bind_eq_some_iff.mp h
      obtain ⟨bs, hbs, h⟩ := Option.bind_eq_some_iff.mp h
      obtain ⟨m, n, hm, hn, rfl⟩ := hexPair?_eq_some_iff.mp hb
      cases h
      exact .cons hm hn (ih.mp hbs)
    . rintro (_ | ⟨hm, hn, h⟩)
      rw [hexPair?_eq_some_iff.mpr ⟨_, _, hm, hn, rfl⟩, ih.mpr h]
      rfl

theorem utf8Size_of_spells {cs : List Char} {bytes : List UInt8}
    (h : Spells (plusAsZero cs) bytes) : Text.utf8Size cs % 2 = 0 := by
  obtain ⟨hlength, hdigits⟩ := exists_spells_iff.mp ⟨bytes, h⟩
  rw [Text.utf8Size_eq_length, ← length_plusAsZero, hlength]
  intro c hc
  rcases eq_plus_or_mem hc with rfl | hc
  . rfl
  . obtain ⟨n, hn⟩ := hdigits c hc
    apply Text.utf8Size_of_hexValue?
    rw [hn.hexValue?_eq]
    rfl

theorem hexBody_eq_ok_iff {literal : String} {cs : List Char} {v : Value}
    : hexBody literal cs = .ok v ↔ ∃ bytes, v = .binary bytes ∧ Spells (plusAsZero cs) bytes := by
  unfold hexBody
  constructor
  . intro h
    split at h
    . cases h
    . split at h
      . next bytes hbytes =>
        cases h
        exact ⟨bytes, rfl, hexPairs?_eq_some_iff.mp hbytes⟩
      . cases h
  . rintro ⟨bytes, rfl, h⟩
    rw [if_neg (by simp [utf8Size_of_spells h]), hexPairs?_eq_some_iff.mpr h]

/-- What stands in front of the digits and the final quote of a binary literal of these digits. -/
inductive OpensBinary (digits : String) : String → Prop where
  | upper : OpensBinary digits "X'"
  | lower : OpensBinary digits "x'"
  | word (h : '\'' ∉ digits.toList) : OpensBinary digits "binary'"

theorem decode_opened {digits opening : String} (h : OpensBinary digits opening)
    : decode (opening ++ digits ++ "'") = hexBody (opening ++ digits ++ "'") digits.toList := by
  cases h with
  | upper => exact decode_hex (.inl rfl) (by simp)
  | lower => exact decode_hex (.inr rfl) (by simp)
  | word h => exact decode_quoted "binary" digits (by simp [wordForms]) h

theorem encode_spells {cs : List Char} {bytes : List UInt8} (h : Spells cs bytes)
    : encode (.binary bytes) = .ok ("X'" ++ .ofList (cs.map Char.toUpper) ++ "'") := by
  rw [← h.bytesHexUpper_eq]
  unfold encode
  dsimp only
  congr 1
  apply String.toList_inj.mp
  simp

/--
A binary literal is read exactly if nothing but hexadecimal digits stands in it, two for each byte,
and its bytes are written with the same digits in upper case. This holds of the text that has zeros
for the pluses in the place of a byte's first digit, for so they are read; a text without a plus is
that text itself.
-/
theorem decode_binary_eq_ok_iff {digits opening : String} (h : OpensBinary digits opening)
    : (∀ v,
        decode (opening ++ digits ++ "'") = .ok v
          ↔ ∃ bytes,
              v = .binary bytes
                ∧ Spells (plusAsZero digits.toList) bytes
                ∧ encode v
                    = .ok ("X'" ++ .ofList ((plusAsZero digits.toList).map Char.toUpper) ++ "'"))
        ∧
      ((∃ v, decode (opening ++ digits ++ "'") = .ok v)
        ↔ (plusAsZero digits.toList).length % 2 = 0
            ∧ ∀ c ∈ plusAsZero digits.toList, ∃ n, IsHexDigit c n)
        ∧
      ('+' ∉ digits.toList → plusAsZero digits.toList = digits.toList) := by
  have hread : ∀ v, decode (opening ++ digits ++ "'") = .ok v
      ↔ ∃ bytes, v = .binary bytes ∧ Spells (plusAsZero digits.toList) bytes := by
    intro v
    rw [decode_opened h, hexBody_eq_ok_iff]
  refine ⟨?_, ?_, plusAsZero_eq_self⟩
  . intro v
    rw [hread]
    constructor
    . rintro ⟨bytes, rfl, hbytes⟩
      exact ⟨bytes, rfl, hbytes, encode_spells hbytes⟩
    . rintro ⟨bytes, rfl, hbytes, _⟩
      exact ⟨bytes, rfl, hbytes⟩
  . rw [← exists_spells_iff]
    constructor
    . rintro ⟨v, hv⟩
      obtain ⟨bytes, _, hbytes⟩ := (hread v).mp hv
      exact ⟨bytes, hbytes⟩
    . rintro ⟨bytes, hbytes⟩
      exact ⟨.binary bytes, (hread _).mpr ⟨bytes, rfl, hbytes⟩⟩

/-- Digits of both cases. -/
theorem decode_binary_mixed
    : OpensBinary "0aFf" "binary'"
        ∧
      decode "binary'0aFf'" = .ok (.binary [10, 255])
        ∧
      encode (.binary [10, 255]) = .ok "X'0AFF'" := by
  have hopens : OpensBinary "0aFf" "binary'" := .word (by decide)
  have hbytes : Spells (plusAsZero "0aFf".toList) [10, 255] := by
    apply Text.Spells.cons (m := 0) (n := 10) (by decide) (by decide)
    exact .cons (m := 15) (n := 15) (by decide) (by decide) .nil
  have hread := ((decode_binary_eq_ok_iff hopens).1 _).mpr ⟨_, rfl, hbytes, rfl⟩
  exact ⟨hopens, hread, rfl⟩

/-- A plus is no hexadecimal digit, but is read as one. -/
theorem decode_binary_plus
    : (∀ n, ¬ IsHexDigit '+' n) ∧ decode "X'+f'" = .ok (.binary [15]) := by
  refine ⟨?_, rfl⟩
  intro n hn
  cases hn.hexValue?_eq

end Literal

end Edm
