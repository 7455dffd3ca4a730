import Edm.Proofs.Dates
import Edm.Proofs.Floats

/-!
This module contains what literals can be read as: numbers are read as the types that show in their
literals and never as NaN, and what follows a word in front of quotes is of the type of the word.
-/

namespace Edm

namespace Literal

/-! ### Words in front of quotes -/

theorem readForm_word {literal word : String} {read : List Char → Except Fault Value}
    (hword : (word, read) ∈ wordForms literal) (rest : List Char)
    : readForm literal (word.toList ++ '\'' :: rest) = (quotedBody literal rest).bind read := by
  unfold wordForms at hword
  simp only [List.mem_cons, List.not_mem_nil, or_false, Prod.mk.injEq] at hword
  rcases hword with ⟨rfl, rfl⟩ | ⟨rfl, rfl⟩ | ⟨rfl, rfl⟩ | ⟨rfl, rfl⟩ | ⟨rfl, rfl⟩
  . rfl
  . rfl
  . rfl
  . rfl
  . rfl

theorem decode_word {text word : String} {rest : List Char}
    {read : List Char → Except Fault Value}
    (htrim : Text.trim text.toList = word.toList ++ '\'' :: rest)
    (hword : (word, read) ∈ wordForms (.ofList (Text.trim text.toList)))
    : decode text = (quotedBody (.ofList (Text.trim text.toList)) rest).bind read := by
  have hquote : '\'' ∈ Text.trim text.toList := by
    rw [htrim]
    exact List.mem_append_right _ List.mem_cons_self
  have hkeyword : ∀ keyword : String, '\'' ∉ keyword.toList →
      String.ofList (Text.trim text.toList) ≠ keyword := by
    rintro keyword hkeyword rfl
    rw [String.toList_ofList] at hkeyword
    exact hkeyword hquote
  rw [decode_eq_readForm_of_ne rfl (List.ne_nil_of_mem hquote) (hkeyword "null" (by decide))
    (hkeyword "true" (by decide)) (hkeyword "false" (by decide))]
  generalize String.ofList (Text.trim text.toList) = literal at *
  rw [htrim, readForm_word hword]

/-! ### What is read -/

/--
The values that literals are read as, but for points in time. Integers of less than 32 bits do not
show in their literals, and NaN has none.
-/
def IsTimeless : Value → Prop
  | .byte _ | .sbyte _ | .int16 _ | .dateTime _ | .dateTimeOffset _ | .time _ => False
  | .double x => Ieee.datum x ≠ .nan
  | .single x => Ieee.datum32 x ≠ .nan
  | _ => True

/-- What can be read from a text without white space around it. -/
inductive ReadFrom (cs : List Char) : Value → Prop where
  | timeless {v : Value} (h : IsTimeless v) : ReadFrom cs v
  | time {t : TimeOfDay} (hword : "time'".toList <+: cs) (h : t.IsValid) : ReadFrom cs (.time t)
  | dateTime {t : DateTime} (hword : "datetime'".toList <+: cs) (h : t.IsValid)
      : ReadFrom cs (.dateTime t)
  | dateTimeOffset {t : DateTime} {offset : Int} (hword : "datetimeoffset'".toList <+: cs)
      (h : t.IsValid) (hfirst : 0 ≤ t.date.year) (hlast : t.date.year ≤ 9999)
      (hoffset : offset.natAbs < TimeOfDay.secondsPerDay) (hminutes : offset % 60 = 0)
      : ReadFrom cs (.dateTimeOffset (.ofLocal t offset))

theorem isTimeless_of_plainNumber {literal : String} {body : List Char} {v : Value}
    (h : plainNumber literal body = .ok v) : IsTimeless v := by
  unfold plainNumber at h
  split at h
  . split at h
    . next hread =>
      cases h
      exact Ieee.datum_ne_nan_of_read? hread
    . cases h
  . split at h
    . split at h
      . cases h
        trivial
      . cases h
    . split at h
      . cases h
        unfold Numeric.integerValue
        split
        . trivial
        . trivial
      . cases h

theorem isTimeless_of_suffixedNumber {literal : String} {body : List Char} {suffix : Char}
    {v : Value} (h : suffixedNumber literal body suffix = .ok v) : IsTimeless v := by
  unfold suffixedNumber at h
  dsimp only at h
  split at h
  . split at h
    . cases h
      trivial
    . cases h
  . split at h
    . next hread =>
      cases h
      obtain ⟨d, _, rfl⟩ := Option.map_eq_some_iff.mp hread
      trivial
    . cases h
  . split at h
    . next hread =>
      cases h
      obtain ⟨x, hx, rfl⟩ := Option.map_eq_some_iff.mp hread
      exact Ieee.datum_ne_nan_of_read? hx
    . cases h
  . split at h
    . next hread =>
      cases h
      obtain ⟨x, hx, rfl⟩ := Option.map_eq_some_iff.mp hread
      exact Ieee.datum32_ne_nan_of_read32? hx
    . cases h
  . cases h

theorem isTimeless_of_number {literal : String} {cs : List Char} {v : Value}
    (h : number literal cs = .ok v) : IsTimeless v := by
  unfold number at h
  split at h
  split at h
  . cases h
  . split at h
    . exact isTimeless_of_suffixedNumber h
    . exact isTimeless_of_plainNumber h

theorem isTimeless_of_hexBody {literal : String} {cs : List Char} {v : Value}
    (h : hexBody literal cs = .ok v) : IsTimeless v := by
  unfold hexBody at h
  split at h
  . cases h
  . split at h
    . cases h
      trivial
    . cases h

theorem of_invalidUnless {ε α : Type} {literal : String} {cause : ε → Cause} {make : α → Value}
    {r : Except ε α} {v : Value} (h : invalidUnless literal cause make r = .ok v)
    : ∃ a, r = .ok a ∧ v = make a := by
  cases r with
  | ok a =>
    cases h
    exact ⟨a, rfl, rfl⟩
  | error e => cases h

theorem readFrom_of_word {literal word : String} {read : List Char → Except Fault Value}
    {cs body rest : List Char} {v : Value} (hword : (word, read) ∈ wordForms literal)
    (hcs : cs = word.toList ++ '\'' :: rest) (h : read body = .ok v) : ReadFrom cs v := by
  unfold wordForms at hword
  simp only [List.mem_cons, List.not_mem_nil, or_false, Prod.mk.injEq] at hword
  rcases hword with ⟨rfl, rfl⟩ | ⟨rfl, rfl⟩ | ⟨rfl, rfl⟩ | ⟨rfl, rfl⟩ | ⟨rfl, rfl⟩
  . obtain ⟨t, ht, rfl⟩ := of_invalidUnless h
    obtain ⟨u, hu, hfirst, hlast, hoffset, hminutes, ht⟩ := Calendar.of_readOffsetDateTime ht
    rw [ht]
    exact .dateTimeOffset ⟨rest, hcs.symm⟩ hu hfirst hlast hoffset hminutes
  . obtain ⟨t, ht, rfl⟩ := of_invalidUnless h
    refine .dateTime ⟨rest, hcs.symm⟩ ?_
    split at ht
    . next hread =>
      cases ht
      exact Calendar.isValid_of_readDateTime hread
    . exact Calendar.isValid_of_readDateTimeToMinute ht
  . obtain ⟨t, ht, rfl⟩ := of_invalidUnless h
    exact .time ⟨rest, hcs.symm⟩ (Calendar.isValid_of_readTime ht)
  . obtain ⟨g, _, rfl⟩ := of_invalidUnless h
    exact .timeless trivial
  . exact .timeless (isTimeless_of_hexBody h)

theorem eq_append_of_afterWord? {word : String} {cs rest : List Char}
    (h : afterWord? word cs = some rest) : cs = word.toList ++ '\'' :: rest := by
  unfold afterWord? at h
  split at h
  . next hword =>
    obtain ⟨ds, rfl⟩ := List.isPrefixOf_iff_prefix.mp hword
    rw [← String.length_toList, List.drop_left] at h
    split at h
    . cases h
      rfl
    . cases h
  . cases h

theorem readFrom_of_readForm {literal : String} {cs : List Char} {v : Value}
    (h : readForm literal cs = .ok v) : ReadFrom cs v := by
  unfold readForm at h
  split at h
  . next rest =>
    cases hbody : quotedBody literal rest with
    | ok s =>
      rw [hbody] at h
      cases h
      exact .timeless trivial
    | error fault =>
      rw [hbody] at h
      cases h
  . split at h
    . exact .timeless (isTimeless_of_hexBody h)
    . cases h
  . split at h
    . exact .timeless (isTimeless_of_hexBody h)
    . cases h
  . dsimp only at h
    generalize hform : (wordForms literal).findSome? _ = form? at h
    cases form? with
    | none => exact .timeless (isTimeless_of_number h)
    | some form =>
      rw [Option.getD_some] at h
      obtain ⟨⟨word, read⟩, hword, hafter⟩ := List.exists_of_findSome?_eq_some hform
      obtain ⟨rest, hrest, rfl⟩ := Option.map_eq_some_iff.mp hafter
      cases hbody : quotedBody literal rest with
      | error fault =>
        rw [hbody] at h
        cases h
      | ok body =>
        rw [hbody] at h
        exact readFrom_of_word hword (eq_append_of_afterWord? hrest) h

theorem readFrom_of_decode {text : String} {v : Value} (h : decode text = .ok v)
    : ReadFrom (Text.trim text.toList) v := by
  unfold decode at h
  dsimp only at h
  split at h
  . cases h
  . split at h
    . cases h
      exact .timeless trivial
    . split at h
      . cases h
        exact .timeless trivial
      . split at h
        . cases h
          exact .timeless trivial
        . exact readFrom_of_readForm h

end Literal

end Edm
