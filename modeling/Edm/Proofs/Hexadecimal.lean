import Edm.Literal.Decode

/-!
This module contains the laws of hexadecimal digits: bytes and identifiers are read back from their
texts.
-/

namespace Edm

namespace Text

def IsHex (ds : List Char) : Prop := ∀ c ∈ ds, (hexValue? c).isSome = true

theorem IsHex.not_mem {ds : List Char} {c : Char} (h : IsHex ds) (hc : hexValue? c = none)
    : c ∉ ds := by
  intro hmem
  have := h c hmem
  rw [hc] at this
  cases this

theorem hexValue?_toUpper_hexDigit : ∀ n < 16, hexValue? (hexDigit n).toUpper = some n := by decide

theorem hexValue?_digitChar : ∀ n < 16, hexValue? n.digitChar = some n := by decide

theorem utf8Size_of_hexValue? {c : Char} (h : (hexValue? c).isSome = true) : c.utf8Size = 1 := by
  rw [Char.utf8Size_eq_one_iff]
  unfold hexValue? at h
  split at h
  . next hc => exact UInt32.le_trans hc.2 (by decide)
  . split at h
    . next hc => exact UInt32.le_trans hc.2 (by decide)
    . split at h
      . next hc => exact UInt32.le_trans hc.2 (by decide)
      . cases h

theorem utf8Size_eq_length {cs : List Char} (h : ∀ c ∈ cs, c.utf8Size = 1)
    : utf8Size cs = cs.length := by
  induction cs with
  | nil => rfl
  | cons c cs ih =>
    rw [List.forall_mem_cons] at h
    rw [utf8Size_cons, h.1, ih h.2, List.length_cons]
    omega

theorem IsHex.utf8Size_eq {ds : List Char} (h : IsHex ds) : utf8Size ds = ds.length := by
  exact utf8Size_eq_length fun c hc => utf8Size_of_hexValue? (h c hc)

/-! ### Bytes -/

theorem bytesHexUpper_cons (b : UInt8) (bytes : List UInt8)
    : bytesHexUpper (b :: bytes)
        = (hexDigit (b.toNat / 16)).toUpper :: (hexDigit (b.toNat % 16)).toUpper
          :: bytesHexUpper bytes := by
  rfl

theorem halves_lt (b : UInt8) : b.toNat / 16 < 16 ∧ b.toNat % 16 < 16 := by
  have := b.toNat_lt
  omega

theorem isHex_bytesHexUpper (bytes : List UInt8) : IsHex (bytesHexUpper bytes) := by
  induction bytes with
  | nil => intro c hc; cases hc
  | cons b bytes ih =>
    obtain ⟨hhigh, hlow⟩ := halves_lt b
    rw [bytesHexUpper_cons]
    intro c hc
    rcases List.mem_cons.mp hc with rfl | hc
    . rw [hexValue?_toUpper_hexDigit _ hhigh]
      rfl
    . rcases List.mem_cons.mp hc with rfl | hc
      . rw [hexValue?_toUpper_hexDigit _ hlow]
        rfl
      . exact ih c hc

theorem length_bytesHexUpper (bytes : List UInt8)
    : (bytesHexUpper bytes).length = 2 * bytes.length := by
  induction bytes with
  | nil => rfl
  | cons b bytes ih =>
    rw [bytesHexUpper_cons, List.length_cons, List.length_cons, List.length_cons, ih]
    omega

end Text

namespace Literal

open Text (hexDigit hexValue? bytesHexUpper)

theorem hexPair?_eq {c d : Char} {high low : Nat} (hc : hexValue? c = some high)
    (hd : hexValue? d = some low) : hexPair? c d = some (.ofNat (high * 16 + low)) := by
  have hplus : c ≠ '+' := by
    rintro rfl
    cases hc
  unfold hexPair?
  split
  . contradiction
  . rw [hc, hd]
    rfl

theorem hexPairs?_bytesHexUpper (bytes : List UInt8)
    : hexPairs? (bytesHexUpper bytes) = some bytes := by
  induction bytes with
  | nil => rfl
  | cons b bytes ih =>
    obtain ⟨hhigh, hlow⟩ := Text.halves_lt b
    have hbyte : UInt8.ofNat (b.toNat / 16 * 16 + b.toNat % 16) = b := by
      rw [Nat.div_add_mod', UInt8.ofNat_toNat]
    rw [Text.bytesHexUpper_cons, hexPairs?,
      hexPair?_eq (Text.hexValue?_toUpper_hexDigit _ hhigh)
        (Text.hexValue?_toUpper_hexDigit _ hlow),
      hbyte, ih]
    rfl

theorem hexBody_bytesHexUpper (literal : String) (bytes : List UInt8)
    : hexBody literal (bytesHexUpper bytes) = .ok (.binary bytes) := by
  have hsize : Text.utf8Size (bytesHexUpper bytes) = 2 * bytes.length := by
    rw [(Text.isHex_bytesHexUpper bytes).utf8Size_eq, Text.length_bytesHexUpper]
  unfold hexBody
  rw [hsize, hexPairs?_bytesHexUpper, if_neg (by omega)]

end Literal

/-! ### Identifiers -/

namespace Text

def Denotes (ds : List Char) (n : Nat) : Prop :=
  ∃ ns, ds.mapM hexValue? = some ns ∧ ns.foldl (fun n d => n * 16 + d) 0 = n

theorem isHex_of_mapM {ds : List Char} {ns : List Nat} (h : ds.mapM hexValue? = some ns)
    : IsHex ds := by
  induction ds generalizing ns with
  | nil => intro c hc; cases hc
  | cons d ds ih =>
    rw [List.mapM_cons] at h
    obtain ⟨m, hm, h⟩ := Option.bind_eq_some_iff.mp h
    obtain ⟨ms, hms, _⟩ := Option.bind_eq_some_iff.mp h
    intro c hc
    rcases List.mem_cons.mp hc with rfl | hc
    . rw [hm]
      rfl
    . exact ih hms c hc

theorem Denotes.concat {ds : List Char} {n d : Nat} (h : Denotes ds n) (hd : d < 16)
    : Denotes (ds ++ [d.digitChar]) (n * 16 + d) := by
  obtain ⟨ns, hns, rfl⟩ := h
  refine ⟨ns ++ [d], ?_, ?_⟩
  . rw [List.mapM_append, hns, List.mapM_cons, hexValue?_digitChar d hd]
    rfl
  . rw [List.foldl_append]
    rfl

theorem denotes_toDigits (n : Nat) : Denotes (Nat.toDigits 16 n) n := by
  induction n using Nat.base_induction 16 (by decide) with
  | single d hd =>
    rw [Nat.toDigits_of_lt_base hd]
    exact ⟨[d], by simp [hexValue?_digitChar d hd], by simp⟩
  | digit m d hd hm ih =>
    rw [← Nat.toDigits_append_toDigits (by decide) hm hd, Nat.toDigits_of_lt_base hd,
      Nat.mul_comm]
    exact ih.concat hd

theorem Denotes.zero_cons {ds : List Char} {n : Nat} (h : Denotes ds n)
    : Denotes ('0' :: ds) n := by
  obtain ⟨ns, hns, rfl⟩ := h
  refine ⟨0 :: ns, ?_, rfl⟩
  rw [List.mapM_cons, hns]
  rfl

theorem denotes_hexPadded (width n : Nat) : Denotes (hexPadded width n) n := by
  unfold hexPadded
  dsimp
  generalize width - (Nat.toDigits 16 n).length = zeros
  induction zeros with
  | zero => exact denotes_toDigits n
  | succ zeros ih => exact ih.zero_cons

theorem length_hexPadded {width n : Nat} (h : (Nat.toDigits 16 n).length ≤ width)
    : (hexPadded width n).length = width := by
  unfold hexPadded
  rw [List.length_append, List.length_replicate]
  omega

theorem eq_or_mem_of_mem_intercalate {separator c : Char} {texts : List (List Char)}
    (h : c ∈ [separator].intercalate texts) : c = separator ∨ c ∈ texts.flatten := by
  induction texts with
  | nil => cases h
  | cons text texts ih =>
    cases texts with
    | nil =>
      rw [List.intercalate_singleton] at h
      exact .inr (by simpa using h)
    | cons next texts =>
      rw [List.intercalate_cons_cons, List.mem_append, List.mem_append] at h
      rw [List.flatten_cons, List.mem_append]
      rcases h with (h | h) | h
      . exact .inr (.inl h)
      . exact .inl (List.mem_singleton.mp h)
      . rcases ih h with h | h
        . exact .inl h
        . exact .inr (.inr h)

end Text

namespace Guid

open Text (hexPadded)

def total : List Nat → Nat
  | [] => 0
  | n :: sizes => n + total sizes

theorem flatten_cut {sizes : List Nat} {ds : List Char} (h : ds.length = total sizes)
    : (cut sizes ds).flatten = ds := by
  induction sizes generalizing ds with
  | nil => exact (List.length_eq_zero_iff.mp h).symm
  | cons n sizes ih =>
    rw [total] at h
    rw [cut, List.flatten_cons, ih (by rw [List.length_drop]; omega), List.take_append_drop]

theorem lengths_cut {sizes : List Nat} {ds : List Char} (h : ds.length = total sizes)
    : (cut sizes ds).map List.length = sizes := by
  induction sizes generalizing ds with
  | nil => rfl
  | cons n sizes ih =>
    rw [total] at h
    rw [cut, List.map_cons, ih (by rw [List.length_drop]; omega), List.length_take]
    congr 1
    omega

def digits (g : Guid) : List Char := hexPadded 32 g.value.toNat

theorem length_digits (g : Guid) : g.digits.length = total groupSizes := by
  have hlt : g.value.toNat < 16 ^ 32 := g.value.isLt
  exact Text.length_hexPadded ((Nat.length_toDigits_le_iff (by decide) (by decide)).mpr hlt)

theorem isHex_digits (g : Guid) : Text.IsHex g.digits := by
  obtain ⟨ns, hns, _⟩ := Text.denotes_hexPadded 32 g.value.toNat
  exact Text.isHex_of_mapM hns

theorem toList_toText (g : Guid)
    : g.toText.toList = ['-'].intercalate (cut groupSizes g.digits) := by
  unfold toText
  rw [String.toList_ofList]
  rfl

theorem mem_of_mem_cut {g : Guid} {group : List Char} {c : Char}
    (hgroup : group ∈ cut groupSizes g.digits) (hc : c ∈ group) : c ∈ g.digits := by
  rw [← flatten_cut g.length_digits]
  exact List.mem_flatten.mpr ⟨group, hgroup, hc⟩

theorem ofDigits?_digits (g : Guid) : ofDigits? g.digits = some g := by
  obtain ⟨ns, hns, hvalue⟩ := Text.denotes_hexPadded 32 g.value.toNat
  have hlength : g.digits.length = 32 := g.length_digits
  unfold ofDigits?
  rw [if_pos hlength]
  unfold digits
  rw [hns, Option.map_some, hvalue, BitVec.ofNat_toNat, BitVec.setWidth_eq]

theorem ofGroups?_toText (g : Guid) : ofGroups? g.toText.toList = some g := by
  have hhyphen : ∀ group ∈ cut groupSizes g.digits, '-' ∉ group := by
    intro group hgroup hmem
    exact g.isHex_digits.not_mem (c := '-') rfl (mem_of_mem_cut hgroup hmem)
  have hne : cut groupSizes g.digits ≠ [] := by
    intro h
    cases h
  unfold ofGroups?
  rw [toList_toText, List.splitOn_intercalate '-' hhyphen hne]
  dsimp
  rw [if_pos (lengths_cut g.length_digits), flatten_cut g.length_digits, ofDigits?_digits]

theorem eq_hyphen_or_mem {g : Guid} {c : Char} (h : c ∈ g.toText.toList)
    : c = '-' ∨ c ∈ g.digits := by
  rw [toList_toText] at h
  rw [← flatten_cut g.length_digits]
  exact Text.eq_or_mem_of_mem_intercalate h

theorem quote_not_mem (g : Guid) : '\'' ∉ g.toText.toList := by
  intro h
  rcases eq_hyphen_or_mem h with h | h
  . cases h
  . exact g.isHex_digits.not_mem rfl h

theorem utf8Size_toText (g : Guid) : Text.utf8Size g.toText.toList = 36 := by
  have hsize : ∀ c ∈ g.toText.toList, c.utf8Size = 1 := by
    intro c hc
    rcases eq_hyphen_or_mem hc with rfl | hc
    . rfl
    . exact Text.utf8Size_of_hexValue? (g.isHex_digits c hc)
  have hlength : g.digits.length = 32 := g.length_digits
  rw [Text.utf8Size_eq_length hsize, toList_toText]
  simp [cut, groupSizes, List.intercalate, hlength]

theorem read_toText (g : Guid) : read g.toText.toList = .ok g := by
  unfold read
  dsimp
  rw [utf8Size_toText, if_neg (by decide), if_pos rfl, ofGroups?_toText]

end Guid

end Edm
