import Edm.Expr.Token
import Edm.Proofs.Literals

/-!
This module contains the laws of words: where a word ends shows in its own characters, and every
literal is a word.
-/

namespace Edm

open Ieee (signed signed_inj decimalDigits)

namespace Expr

def isDelimiter (c : Char) : Bool := Text.isBlank c || (mark? c).isSome

/-- Whether no delimiter stands outside of quotes, and all quotes are closed. -/
def isWord (quoted : Bool) : List Char → Bool
  | [] => !quoted
  | c :: cs => (quoted || !isDelimiter c) && isWord (if c = '\'' then !quoted else quoted) cs

def Delimited (rest : List Char) : Prop := ∀ c ∈ rest.head?, isDelimiter c = true

theorem delimited_nil : Delimited [] := by
  intro c hc
  cases hc

theorem delimited_cons {c : Char} (rest : List Char) (h : isDelimiter c = true)
    : Delimited (c :: rest) := by
  intro d hd
  cases hd
  exact h

theorem isWord_cons {quoted : Bool} {c : Char} {cs : List Char}
    : isWord quoted (c :: cs) = true
        ↔ (quoted = true ∨ isDelimiter c = false)
            ∧ isWord (if c = '\'' then !quoted else quoted) cs = true := by
  simp [isWord]

theorem not_delimited_of_isWord {c : Char} {cs rest : List Char}
    (hword : isWord false (c :: cs) = true) : ¬ Delimited (c :: cs ++ rest) := by
  intro hrest
  rcases (isWord_cons.mp hword).1 with h | h
  . cases h
  . rw [hrest c rfl] at h
    cases h

theorem append_inj_of_isWord {quoted : Bool} {word word' rest rest' : List Char}
    (hword : isWord quoted word = true) (hword' : isWord quoted word' = true)
    (hrest : Delimited rest) (hrest' : Delimited rest') (h : word ++ rest = word' ++ rest')
    : word = word' ∧ rest = rest' := by
  -- Neither of the words can end in front of a character that goes on with the other one.
  induction word generalizing quoted word' with
  | nil =>
    obtain rfl : quoted = false := by simpa [isWord] using hword
    cases word' with
    | nil => exact ⟨rfl, h⟩
    | cons c word' =>
      rw [List.nil_append] at h
      exact absurd (h ▸ hrest) (not_delimited_of_isWord hword')
  | cons c word ih =>
    cases word' with
    | nil =>
      obtain rfl : quoted = false := by simpa [isWord] using hword'
      rw [List.nil_append] at h
      exact absurd (h ▸ hrest') (not_delimited_of_isWord hword)
    | cons d word' =>
      rw [List.cons_append, List.cons_append, List.cons.injEq] at h
      obtain ⟨rfl, h⟩ := h
      obtain ⟨rfl, rfl⟩ := ih (isWord_cons.mp hword).2 (isWord_cons.mp hword').2 h
      exact ⟨rfl, rfl⟩

/-! ### Literals -/

def isPlain (c : Char) : Bool := !isDelimiter c && c != '\''

theorem isWord_append {cs rest : List Char} (h : ∀ c ∈ cs, isPlain c = true)
    : isWord false (cs ++ rest) = isWord false rest := by
  induction cs with
  | nil => rfl
  | cons c cs ih =>
    rw [List.forall_mem_cons] at h
    have hc : isDelimiter c = false ∧ c ≠ '\'' := by simpa [isPlain] using h.1
    rw [List.cons_append, isWord, if_neg hc.2, hc.1, ih h.2]
    rfl

theorem isWord_of_isPlain {cs : List Char} (h : ∀ c ∈ cs, isPlain c = true)
    : isWord false cs = true := by
  rw [← List.append_nil cs, isWord_append h]
  rfl

theorem isWord_quoted {cs : List Char} (h : '\'' ∉ cs) : isWord true (cs ++ ['\'']) = true := by
  induction cs with
  | nil => rfl
  | cons c cs ih =>
    rw [List.mem_cons, not_or] at h
    rw [List.cons_append, isWord_cons, if_neg (Ne.symm h.1)]
    exact ⟨.inl rfl, ih h.2⟩

theorem isWord_doubleQuotes (cs : List Char)
    : isWord true (Literal.doubleQuotes cs ++ ['\'']) = true := by
  -- A doubled quote leaves the quotes and enters them again.
  induction cs with
  | nil => rfl
  | cons c cs ih =>
    unfold Literal.doubleQuotes
    split
    . exact ih
    . next hc =>
      rw [List.cons_append, isWord_cons, if_neg hc]
      exact ⟨.inl rfl, ih⟩

theorem isPlain_of_isNumberChar {c : Char} (h : Literal.isNumberChar c = true)
    : isPlain c = true := by
  unfold Literal.isNumberChar at h
  simp only [Bool.or_eq_true, decide_eq_true_eq] at h
  rcases h with ((((h | rfl) | rfl) | rfl) | rfl) | rfl
  . have hblank := Text.isBlank_of_isDigit h
    have hmark : mark? c = none := by
      unfold mark?
      split
      . cases h
      . cases h
      . cases h
      . rfl
    have hquote : c ≠ '\'' := by
      rintro rfl
      cases h
    simp [isPlain, isDelimiter, hblank, hmark, hquote]
  . rfl
  . rfl
  . rfl
  . rfl
  . rfl

theorem isWord_signed {negative : Bool} {ds : List Char} (rest : List Char)
    (h : ∀ c ∈ ds, Literal.isNumberChar c = true)
    : isWord false (signed negative ds ++ rest) = isWord false rest := by
  apply isWord_append
  intro c hc
  exact isPlain_of_isNumberChar (Literal.isNumberChar_of_mem_signed h c hc)

theorem isWord_decimalDigits (negative : Bool) (n : Nat) (rest : List Char)
    : isWord false (signed negative (decimalDigits n) ++ rest) = isWord false rest := by
  apply isWord_signed
  intro c hc
  exact Literal.isNumberChar_of_isDigit (Ieee.isDigit_of_mem_decimalDigits hc)

end Expr

namespace Decimal

theorem eq_of_unsignedZero_eq {c d : Decimal} (h : c.unsignedZero = d.unsignedZero)
    (hsign : c.negative = d.negative) : c = d := by
  have hmantissa : c.mantissa = d.mantissa := congrArg (fun d => d.mantissa) h
  have hscale : c.scale = d.scale := congrArg (fun d => d.scale) h
  obtain ⟨_, _, _, _, _⟩ := c
  obtain ⟨_, _, _, _, _⟩ := d
  cases hsign
  cases hmantissa
  cases hscale
  rfl

end Decimal

theorem Value.exists_decimal {v : Value} {d : Decimal} (h : v.widened.unsignedZero = .decimal d)
    : ∃ c, v = .decimal c := by
  cases v with
  | decimal c => exact ⟨c, rfl⟩
  | _ => cases h

namespace Literal

open Edm.Expr (isWord isWord_decimalDigits isWord_signed isWord_append isWord_quoted
  isWord_doubleQuotes)

theorem isWord_guidWord (rest : List Char)
    : isWord false (guidWord ++ rest) = isWord true rest := rfl

theorem isWord_hex (rest : List Char)
    : isWord false ('X' :: '\'' :: rest) = isWord true rest := rfl

theorem Form.isWord {v : Value} {cs : List Char} (h : Form v cs) : isWord false cs = true := by
  cases h with
  | nullWord => rfl
  | trueWord => rfl
  | falseWord => rfl
  | @narrow v n hv =>
    rw [← List.append_nil (signed _ _), isWord_decimalDigits]
    rfl
  | wide n =>
    rw [isWord_decimalDigits]
    rfl
  | decimal d =>
    rw [isWord_signed _ fun c hc => isNumberChar_of_mem_unsignedText hc]
    rfl
  | string s => exact isWord_doubleQuotes s.toList
  | guid g =>
    rw [isWord_guidWord]
    exact isWord_quoted g.quote_not_mem
  | binary bytes =>
    rw [isWord_hex]
    exact isWord_quoted ((Text.isHex_bytesHexUpper bytes).not_mem rfl)

theorem Form.decode_eq {v : Value} {cs : List Char} (h : Form v cs)
    : decode (.ofList cs) = .ok v.widened.unsignedZero := by
  apply decode_form
  rwa [String.toList_ofList]

theorem Form.ne_nil {v : Value} {cs : List Char} (h : Form v cs) : cs ≠ [] := by
  rintro rfl
  have hread := h.decode_eq
  have hempty : decode (.ofList []) = .error (.invalid (.ofList []) .empty) := rfl
  rw [hempty] at hread
  cases hread

theorem Form.eq_of_decimal {d : Decimal} {cs : List Char} (h : Form (.decimal d) cs)
    : cs = signed d.negative d.unsignedText ++ ['M'] := by
  cases h with
  | narrow hv => cases hv
  | decimal => rfl

theorem Form.widened_eq {v w : Value} {cs : List Char} (hv : Form v cs) (hw : Form w cs)
    : v.widened = w.widened := by
  have hread : v.widened.unsignedZero = w.widened.unsignedZero := by
    have h := hv.decode_eq
    rw [hw.decode_eq] at h
    exact (Except.ok.inj h).symm
  by_cases hdecimal : ∃ d, v = .decimal d
  . -- The reader drops the sign of a zero, but the literal shows it.
    obtain ⟨c, rfl⟩ := hdecimal
    obtain ⟨d, rfl⟩ := Value.exists_decimal hread.symm
    have hsigned := hw.eq_of_decimal
    rw [hv.eq_of_decimal, List.append_left_inj] at hsigned
    obtain ⟨hsign, _⟩ := signed_inj c.exists_unsignedText d.exists_unsignedText hsigned
    rw [Decimal.eq_of_unsignedZero_eq (Value.decimal.inj hread) hsign]
  . have hv : ∀ d, v ≠ .decimal d := fun d hd => hdecimal ⟨d, hd⟩
    have hw : ∀ d, w ≠ .decimal d := by
      rintro d rfl
      obtain ⟨c, hc⟩ := Value.exists_decimal hread
      exact hv c hc
    rwa [Value.unsignedZero_widened fun d hd => absurd hd (hv d),
      Value.unsignedZero_widened fun d hd => absurd hd (hw d)] at hread

end Literal

end Edm
