import Edm.Proofs.Hexadecimal
import Edm.Proofs.Numerals

/-!
This module contains the laws of literals. Values are read back from their literals, except for
floats and points in time, and a quoted literal is nothing but the literal of the text that is read
from it.
-/

namespace Edm

namespace Value

/-- The values whose literals are exact: all but floats and points in time. -/
def isExact : Value → Bool
  | .single _ | .double _ | .dateTime _ | .dateTimeOffset _ | .time _ => false
  | _ => true

/-- The integer of a value of at most 32 bits. Its type does not show in its literal. -/
def narrow? : Value → Option Int
  | .byte n => some n.toNat
  | .sbyte n => some n.toInt
  | .int16 n => some n.toInt
  | .int32 n => some n.toInt
  | _ => none

/-- The same value, where integers of at most 32 bits have 32 bits. -/
def widened (v : Value) : Value :=
  match v.narrow? with
  | some n => .int32 (.ofInt n)
  | none => v

def unsignedZero : Value → Value
  | .decimal d => .decimal d.unsignedZero
  | v => v

theorem narrow?_bounds {v : Value} {n : Int} (h : v.narrow? = some n)
    : -2147483648 ≤ n ∧ n ≤ 2147483647 := by
  cases v with
  | byte m =>
    cases h
    have := m.toNat_lt
    omega
  | sbyte m =>
    cases h
    have hle := m.le_toInt
    have hlt := m.toInt_lt
    omega
  | int16 m =>
    cases h
    have hle := m.le_toInt
    have hlt := m.toInt_lt
    omega
  | int32 m =>
    cases h
    have hle := m.le_toInt
    have hlt := m.toInt_lt
    omega
  | _ => cases h

theorem widened_of_narrow? {v : Value} {n : Int} (h : v.narrow? = some n)
    : v.widened = .int32 (.ofInt n) := by
  unfold widened
  rw [h]

theorem equals_unsignedZero {v : Value} (h : v.isExact = true)
    : v.unsignedZero.equals v = true := by
  cases v with
  | decimal d =>
    change (d.unsignedZero.order d == .eq) = true
    rw [Decimal.order_unsignedZero]
    rfl
  | single _ | double _ | dateTime _ | dateTimeOffset _ | time _ => cases h
  | null => rfl
  | _ => simp [unsignedZero, equals]

theorem unsignedZero_widened {v : Value}
    (h : ∀ d, v = .decimal d → d.negative = true → d.mantissa ≠ 0)
    : v.widened.unsignedZero = v.widened := by
  cases v with
  | decimal d =>
    change Value.decimal d.unsignedZero = .decimal d
    rw [Decimal.unsignedZero_eq_self (h d rfl)]
  | _ => rfl

theorem isExact_widened {v : Value} (h : v.isExact = true) : v.widened.isExact = true := by
  unfold widened
  split
  . rfl
  . exact h

end Value

namespace Text

theorem trim_eq_self {c : Char} {cs : List Char} (hfirst : isBlank c = false)
    (hlast : ∀ d ∈ (c :: cs).getLast?, isBlank d = false) : trim (c :: cs) = c :: cs := by
  have hstart : trimStart (c :: cs) = c :: cs := by
    unfold trimStart
    rw [List.dropWhile_cons_of_neg (by simp [hfirst])]
  unfold trim
  rw [hstart]
  unfold trimEnd
  rw [List.getLast?_eq_head?_reverse] at hlast
  cases hreverse : (c :: cs).reverse with
  | nil => simp at hreverse
  | cons d ds =>
    rw [hreverse] at hlast
    rw [List.dropWhile_cons_of_neg (by simp [hlast d rfl]), ← hreverse, List.reverse_reverse]

theorem trim_quoted {c : Char} {cs : List Char} (hfirst : isBlank c = false)
    : trim (c :: (cs ++ ['\''])) = c :: (cs ++ ['\'']) := by
  apply trim_eq_self hfirst
  rw [← List.cons_append, List.getLast?_concat]
  intro d hd
  cases hd
  rfl

theorem isBlank_of_isDigit {c : Char} (h : c.isDigit = true) : isBlank c = false := by
  have hrange : 48 ≤ c.toNat ∧ c.toNat ≤ 57 := by
    simpa [Char.isDigit, UInt32.le_iff_toNat_le] using h
  simp [isBlank, blankRanges, CodeRange.contains]
  omega

end Text

namespace Literal

open Ieee (decimalDigits signed signed_append getLast?_signed)
open Text (isBlank)

/-! ### Quotes -/

theorem closing?_eq_some_iff {cs body : List Char}
    : closing? cs = some body ↔ cs = body ++ ['\''] := by
  unfold closing?
  split
  . next rest h =>
    rw [List.reverse_eq_cons_iff] at h
    simp [h]
  . next h =>
    constructor
    . intro hnone
      cases hnone
    . rintro rfl
      simp at h

theorem eq_doubleQuotes {cs s : List Char} (h : undoubleQuotes? cs = some s)
    : cs = doubleQuotes s := by
  fun_induction undoubleQuotes? cs generalizing s with
  | case1 =>
    cases h
    rfl
  | case2 cs ih =>
    obtain ⟨s, hs, rfl⟩ := Option.map_eq_some_iff.mp h
    simp [doubleQuotes, ih hs]
  | case3 => cases h
  | case4 c cs _ hc ih =>
    obtain ⟨s, hs, rfl⟩ := Option.map_eq_some_iff.mp h
    simp [doubleQuotes, hc, ih hs]

theorem quotedBody_eq_ok_iff {literal : String} {cs s : List Char}
    : quotedBody literal cs = .ok s ↔ cs = doubleQuotes s ++ ['\''] := by
  unfold quotedBody
  constructor
  . intro h
    split at h
    . cases h
    . next body hbody =>
      split at h
      . cases h
      . next text htext =>
        cases h
        rw [closing?_eq_some_iff.mp hbody, eq_doubleQuotes htext]
  . intro h
    rw [closing?_eq_some_iff.mpr h]
    dsimp
    rw [undoubleQuotes?_doubleQuotes]

theorem doubleQuotes_eq_self {cs : List Char} (h : '\'' ∉ cs) : doubleQuotes cs = cs := by
  induction cs with
  | nil => rfl
  | cons c cs ih =>
    rw [List.mem_cons, not_or] at h
    rw [doubleQuotes, if_neg (Ne.symm h.1), ih h.2]

/-! ### The forms of literals -/

def guidWord : List Char := ['g', 'u', 'i', 'd', '\'']

inductive Form : Value → List Char → Prop where
  | nullWord : Form .null "null".toList
  | trueWord : Form (.boolean true) "true".toList
  | falseWord : Form (.boolean false) "false".toList
  | narrow {v : Value} {n : Int} (h : v.narrow? = some n)
      : Form v (signed (decide (n < 0)) (decimalDigits n.natAbs))
  | wide (n : Int64)
      : Form (.int64 n) (signed (decide (n.toInt < 0)) (decimalDigits n.toInt.natAbs) ++ ['L'])
  | decimal (d : Decimal) : Form (.decimal d) (signed d.negative d.unsignedText ++ ['M'])
  | string (s : String) : Form (.string s) (quote s.toList)
  | guid (g : Guid) : Form (.guid g) (guidWord ++ (g.toText.toList ++ ['\'']))
  | binary (bytes : List UInt8)
      : Form (.binary bytes) ('X' :: '\'' :: (Text.bytesHexUpper bytes ++ ['\'']))

theorem exists_form {v : Value} (h : v.isExact = true)
    : ∃ text, encode v = .ok text ∧ Form v text.toList := by
  have hnarrow : ∀ n, v.narrow? = some n → encode v = .ok (toString n) →
      ∃ text, encode v = .ok text ∧ Form v text.toList := by
    intro n hn henc
    refine ⟨_, henc, ?_⟩
    rw [toList_toString_int]
    exact .narrow hn
  cases v with
  | single _ | double _ | dateTime _ | dateTimeOffset _ | time _ => cases h
  | null => exact ⟨_, rfl, .nullWord⟩
  | boolean b =>
    cases b with
    | true => exact ⟨_, rfl, .trueWord⟩
    | false => exact ⟨_, rfl, .falseWord⟩
  | byte n => exact hnarrow _ rfl rfl
  | sbyte n => exact hnarrow _ rfl rfl
  | int16 n => exact hnarrow _ rfl rfl
  | int32 n => exact hnarrow _ rfl rfl
  | int64 n =>
    refine ⟨_, rfl, ?_⟩
    rw [String.toList_append, toList_toString_int]
    exact .wide n
  | decimal d =>
    refine ⟨_, rfl, ?_⟩
    rw [String.toList_append, Decimal.toList_toText]
    exact .decimal d
  | string s =>
    refine ⟨_, rfl, ?_⟩
    rw [String.toList_ofList]
    exact .string s
  | guid g =>
    refine ⟨_, rfl, ?_⟩
    rw [String.toList_append, String.toList_append, List.append_assoc]
    exact .guid g
  | binary bytes =>
    refine ⟨_, rfl, ?_⟩
    rw [String.toList_ofList]
    exact .binary bytes

/-! ### Reading -/

def readForm (literal : String) (cs : List Char) : Except Fault Value :=
  match cs with
  | '\'' :: rest => (quotedBody literal rest).map fun s => .string (.ofList s)
  | 'X' :: '\'' :: rest | 'x' :: '\'' :: rest =>
    match closing? rest with
    | some hex => hexBody literal hex
    | none => .error (.unterminated literal)
  | _ =>
    let form := (wordForms literal).findSome? fun (word, read) =>
      (afterWord? word cs).map fun rest => (quotedBody literal rest).bind read
    form.getD (number literal cs)

theorem decode_eq_readForm_of_ne {text : String} {cs : List Char}
    (htrim : Text.trim text.toList = cs) (hne : cs ≠ []) (hnull : String.ofList cs ≠ "null")
    (htrue : String.ofList cs ≠ "true") (hfalse : String.ofList cs ≠ "false")
    : decode text = readForm (.ofList cs) cs := by
  unfold decode
  rw [htrim]
  dsimp only
  rw [if_neg (by simpa using hne), if_neg hnull, if_neg htrue, if_neg hfalse]
  rfl

def keywordStarts : List Char := ['n', 't', 'f']

theorem decode_eq_readForm {text : String} {c : Char} {cs : List Char}
    (htrim : Text.trim text.toList = c :: cs) (hc : c ∉ keywordStarts)
    : decode text = readForm (.ofList (c :: cs)) (c :: cs) := by
  have hkeyword : ∀ word : String, word.toList.head?.all keywordStarts.contains = true →
      String.ofList (c :: cs) ≠ word := by
    rintro word hword rfl
    rw [String.toList_ofList] at hword
    exact hc (by simpa using hword)
  exact decode_eq_readForm_of_ne htrim (List.cons_ne_nil c cs) (hkeyword "null" rfl)
    (hkeyword "true" rfl) (hkeyword "false" rfl)

theorem readForm_quote (literal : String) (rest : List Char)
    : readForm literal ('\'' :: rest)
        = (quotedBody literal rest).map fun s => .string (.ofList s) := by
  rfl

theorem readForm_hex (literal : String) {letter : Char} (hletter : letter = 'X' ∨ letter = 'x')
    (hex : List Char)
    : readForm literal (letter :: '\'' :: (hex ++ ['\''])) = hexBody literal hex := by
  have hclosing : closing? (hex ++ ['\'']) = some hex := closing?_eq_some_iff.mpr rfl
  have hform : readForm literal (letter :: '\'' :: (hex ++ ['\'']))
      = match closing? (hex ++ ['\'']) with
        | some hex => hexBody literal hex
        | none => .error (.unterminated literal) := by
    rcases hletter with rfl | rfl
    . rfl
    . rfl
  rw [hform, hclosing]

theorem readForm_guid (literal : String) (rest : List Char)
    : readForm literal (guidWord ++ rest)
        = (quotedBody literal rest).bind fun cs =>
            invalidUnless literal .guid .guid (Guid.read cs) := by
  rfl

def wordStarts : List Char := ['d', 't', 'g', 'b']

theorem afterWord?_eq_none {word : String} {c : Char} {cs : List Char}
    (hword : word.toList.head?.any wordStarts.contains = true) (hc : c ∉ wordStarts)
    : afterWord? word (c :: cs) = none := by
  cases hchars : word.toList with
  | nil =>
    rw [hchars] at hword
    cases hword
  | cons d ds =>
    rw [hchars] at hword
    have hd : d ∈ wordStarts := by simpa using hword
    have hne : d ≠ c := by
      rintro rfl
      exact hc hd
    unfold afterWord?
    rw [hchars, if_neg]
    simp [hne]

theorem readForm_number {literal : String} {c : Char} (cs : List Char) (hquote : c ≠ '\'')
    (hhex : c ≠ 'X' ∧ c ≠ 'x') (hc : c ∉ wordStarts)
    : readForm literal (c :: cs) = number literal (c :: cs) := by
  unfold readForm
  split
  . next heq =>
    cases heq
    contradiction
  . next heq =>
    cases heq
    exact absurd rfl hhex.1
  . next heq =>
    cases heq
    exact absurd rfl hhex.2
  . unfold wordForms
    dsimp only [List.findSome?_cons]
    rw [afterWord?_eq_none rfl hc, afterWord?_eq_none rfl hc, afterWord?_eq_none rfl hc,
      afterWord?_eq_none rfl hc, afterWord?_eq_none rfl hc]
    rfl

/-! ### Numbers -/

theorem number_letter (literal : String) {body : List Char} {c : Char} (hc : c.isAlpha = true)
    (hbody : body ≠ []) (hchars : ∀ d ∈ body, isNumberChar d = true)
    : number literal (body ++ [c]) = suffixedNumber literal body c := by
  have hall : (body.isEmpty || !body.all isNumberChar) = false := by
    rw [List.all_eq_true.mpr hchars]
    simpa using hbody
  unfold number
  rw [List.getLast?_concat]
  dsimp only
  rw [if_pos hc, List.dropLast_concat]
  simp only [hall, Bool.false_eq_true, if_false]

theorem number_digits (literal : String) {cs : List Char} {d : Char} (hlast : cs.getLast? = some d)
    (hd : d.isAlpha = false) (hchars : ∀ d ∈ cs, isNumberChar d = true)
    : number literal cs = plainNumber literal cs := by
  have hall : (cs.isEmpty || !cs.all isNumberChar) = false := by
    rw [List.all_eq_true.mpr hchars]
    cases cs with
    | nil => cases hlast
    | cons c cs => rfl
  unfold number
  rw [hlast]
  dsimp only
  rw [hd]
  simp only [hall, Bool.false_eq_true, if_false]

theorem isNumberChar_of_isDigit {c : Char} (h : c.isDigit = true) : isNumberChar c = true := by
  unfold isNumberChar
  rw [h]
  rfl

theorem isNumberChar_of_mem_signed {negative : Bool} {ds : List Char}
    (h : ∀ c ∈ ds, isNumberChar c = true) : ∀ c ∈ signed negative ds, isNumberChar c = true := by
  unfold signed
  intro c hc
  split at hc
  . rcases List.mem_cons.mp hc with rfl | hc
    . rfl
    . exact h c hc
  . exact h c hc

theorem isAlpha_of_isDigit {c : Char} (h : c.isDigit = true) : c.isAlpha = false := by
  have hrange : 48 ≤ c.toNat ∧ c.toNat ≤ 57 := by
    simpa [Char.isDigit, UInt32.le_iff_toNat_le] using h
  change (decide ('A'.val ≤ c.val ∧ c.val ≤ 'Z'.val)
    || (decide ('a'.val ≤ c.val) && decide (c.val ≤ 'z'.val))) = false
  simp [UInt32.le_iff_toNat_le]
  omega

theorem isNumberChar_of_mem_unsignedText {d : Decimal} {c : Char} (h : c ∈ d.unsignedText)
    : isNumberChar c = true := by
  unfold Decimal.unsignedText at h
  split at h
  . exact isNumberChar_of_isDigit (Decimal.isDigit_of_mem_paddedDigits h)
  . rcases List.mem_append.mp h with h | h
    . exact isNumberChar_of_isDigit (Decimal.isDigit_of_mem_paddedDigits (List.mem_of_mem_take h))
    . rcases List.mem_cons.mp h with rfl | h
      . rfl
      . exact isNumberChar_of_isDigit (Decimal.isDigit_of_mem_paddedDigits (List.mem_of_mem_drop h))

def IsIntegerChar (c : Char) : Prop := c.isDigit = true ∨ c = '-' ∨ c = '+'

theorem IsIntegerChar.ne {c d : Char} (h : IsIntegerChar c) (hdigit : d.isDigit = false)
    (hminus : d ≠ '-') (hplus : d ≠ '+') : c ≠ d := by
  rintro rfl
  rcases h with h | h | h
  . rw [hdigit] at h
    cases h
  . exact hminus h
  . exact hplus h

theorem IsIntegerChar.isBlank_eq {c : Char} (h : IsIntegerChar c) : isBlank c = false := by
  rcases h with h | rfl | rfl
  . exact Text.isBlank_of_isDigit h
  . rfl
  . rfl

theorem decode_number {text : String} {c : Char} {cs : List Char} (htext : text.toList = c :: cs)
    (hc : IsIntegerChar c) (hlast : ∀ d ∈ (c :: cs).getLast?, isBlank d = false)
    : decode text = number text text.toList := by
  -- A digit or a sign at the start rules out every other form.
  have hkeyword : c ∉ keywordStarts := by
    simp [keywordStarts, hc.ne (d := 'n') rfl (by decide) (by decide),
      hc.ne (d := 't') rfl (by decide) (by decide), hc.ne (d := 'f') rfl (by decide) (by decide)]
  have hword : c ∉ wordStarts := by
    simp [wordStarts, hc.ne (d := 'd') rfl (by decide) (by decide),
      hc.ne (d := 't') rfl (by decide) (by decide), hc.ne (d := 'g') rfl (by decide) (by decide),
      hc.ne (d := 'b') rfl (by decide) (by decide)]
  have htrim : Text.trim text.toList = c :: cs := by
    rw [htext]
    exact Text.trim_eq_self hc.isBlank_eq hlast
  rw [decode_eq_readForm htrim hkeyword,
    readForm_number cs (hc.ne rfl (by decide) (by decide))
      ⟨hc.ne rfl (by decide) (by decide), hc.ne rfl (by decide) (by decide)⟩ hword,
    ← htext, String.ofList_toList]

theorem decode_signed {text : String} {negative : Bool} {c : Char} {cs : List Char}
    (htext : text.toList = signed negative (c :: cs)) (hc : c.isDigit = true)
    (hlast : ∀ d ∈ (c :: cs).getLast?, isBlank d = false)
    : decode text = number text text.toList := by
  rw [← getLast?_signed negative (List.cons_ne_nil c cs)] at hlast
  cases negative with
  | true => exact decode_number htext (.inr (.inl rfl)) hlast
  | false => exact decode_number htext (.inl hc) hlast

theorem readInt64?_signed (n : Int)
    : readInt64? (signed (decide (n < 0)) (decimalDigits n.natAbs)) = Numeric.int64? n := by
  rw [← toList_toString_int, readInt64?_toString]

theorem plainNumber_integer (literal : String) {body : List Char}
    (h : ∀ c ∈ body, IsIntegerChar c)
    : plainNumber literal body
        = match readInt64? body with
          | some n => .ok (Numeric.integerValue true n)
          | none => .error (.outOfRange literal) := by
  have hexponent : body.any (fun c => c = 'e' || c = 'E') = false := by
    rw [List.any_eq_false]
    intro c hc
    simp [(h c hc).ne (d := 'e') rfl (by decide) (by decide),
      (h c hc).ne (d := 'E') rfl (by decide) (by decide)]
  have hpoint : body.contains '.' = false := by
    rw [List.contains_eq_mem, decide_eq_false_iff_not]
    intro hc
    exact (h '.' hc).ne rfl (by decide) (by decide) rfl
  unfold plainNumber
  rw [hexponent, hpoint]
  rfl

theorem plainNumber_signed (literal : String) (n : Int)
    : plainNumber literal (signed (decide (n < 0)) (decimalDigits n.natAbs))
        = match Numeric.int64? n with
          | some n => .ok (Numeric.integerValue true n)
          | none => .error (.outOfRange literal) := by
  rw [plainNumber_integer, readInt64?_signed]
  intro c hc
  unfold signed at hc
  split at hc
  . rcases List.mem_cons.mp hc with rfl | hc
    . exact .inr (.inl rfl)
    . exact .inl (Ieee.isDigit_of_mem_decimalDigits hc)
  . exact .inl (Ieee.isDigit_of_mem_decimalDigits hc)

theorem suffixedNumber_long (literal : String) (n : Int64)
    : suffixedNumber literal (signed (decide (n.toInt < 0)) (decimalDigits n.toInt.natAbs)) 'L'
        = .ok (.int64 n) := by
  unfold suffixedNumber
  rw [readInt64?_signed, int64?_toInt]
  rfl

theorem suffixedNumber_decimal (literal : String) (d : Decimal)
    : suffixedNumber literal (signed d.negative d.unsignedText) 'M'
        = .ok (.decimal d.unsignedZero) := by
  unfold suffixedNumber
  rw [← Decimal.toList_toText, Decimal.read?_toText]
  rfl

theorem decode_narrow {v : Value} {n : Int} {text : String} (hv : v.narrow? = some n)
    (htext : text.toList = signed (decide (n < 0)) (decimalDigits n.natAbs))
    : decode text = .ok (.int32 (.ofInt n)) := by
  obtain ⟨hlow, hhigh⟩ := Value.narrow?_bounds hv
  obtain ⟨c, cs, hds, hc⟩ := exists_decimalDigits n.natAbs
  obtain ⟨d, hlast⟩ : ∃ d, (decimalDigits n.natAbs).getLast? = some d := by
    rw [hds]
    exact ⟨_, List.getLast?_eq_some_getLast (List.cons_ne_nil c cs)⟩
  have hd : d.isDigit = true := Ieee.isDigit_of_mem_decimalDigits (List.mem_of_getLast? hlast)
  have hint : Numeric.int64? n = some (.ofInt n) := by
    unfold Numeric.int64?
    rw [if_pos (by omega)]
  have htoInt : (Int64.ofInt n).toInt = n := Int64.toInt_ofInt_of_le (by omega) (by omega)
  have hread : decode text = number text text.toList := by
    apply decode_signed (htext.trans (by rw [hds])) hc
    rw [← hds, hlast]
    simpa using Text.isBlank_of_isDigit hd
  rw [hread, htext, number_digits text (d := d), plainNumber_signed, hint]
  . dsimp only
    unfold Numeric.integerValue
    rw [htoInt, if_pos ⟨rfl, hlow, hhigh⟩]
  . rwa [getLast?_signed _ (by rw [hds]; exact List.cons_ne_nil c cs)]
  . exact isAlpha_of_isDigit hd
  . exact isNumberChar_of_mem_signed fun c hc =>
      isNumberChar_of_isDigit (Ieee.isDigit_of_mem_decimalDigits hc)

theorem decode_letter {text : String} {negative : Bool} {ds : List Char} {letter : Char}
    (htext : text.toList = signed negative ds ++ [letter]) (hletter : letter.isAlpha = true)
    (hblank : isBlank letter = false) (hds : ∃ c cs, ds = c :: cs ∧ c.isDigit = true)
    (hchars : ∀ c ∈ ds, isNumberChar c = true)
    : decode text = suffixedNumber text (signed negative ds) letter := by
  obtain ⟨c, cs, rfl, hc⟩ := hds
  have hread : decode text = number text text.toList := by
    rw [← signed_append, List.cons_append] at htext
    apply decode_signed htext hc
    rw [← List.cons_append, List.getLast?_concat]
    simpa using hblank
  rw [hread, htext, number_letter text hletter _ (isNumberChar_of_mem_signed hchars)]
  unfold signed
  split
  . exact List.cons_ne_nil _ _
  . exact List.cons_ne_nil _ _

/-! ### Quoted literals -/

theorem decode_quote {text : String} {rest : List Char}
    (htrim : Text.trim text.toList = '\'' :: rest)
    : decode text
        = (quotedBody (.ofList ('\'' :: rest)) rest).map fun s => .string (.ofList s) := by
  rw [decode_eq_readForm htrim (by decide), readForm_quote]

theorem decode_string {text s : String} (htext : text.toList = quote s.toList)
    : decode text = .ok (.string s) := by
  have htrim : Text.trim text.toList = '\'' :: (doubleQuotes s.toList ++ ['\'']) := by
    rw [htext]
    exact Text.trim_quoted rfl
  rw [decode_quote htrim, quotedBody_eq_ok_iff.mpr rfl]
  change Except.ok (Value.string (.ofList s.toList)) = _
  rw [String.ofList_toList]

theorem decode_guid {text : String} {g : Guid}
    (htext : text.toList = guidWord ++ (g.toText.toList ++ ['\'']))
    : decode text = .ok (.guid g) := by
  have hcons : ∀ cs : List Char,
      guidWord ++ (cs ++ ['\'']) = 'g' :: ('u' :: 'i' :: 'd' :: '\'' :: cs ++ ['\'']) :=
    fun _ => rfl
  have htrim : Text.trim text.toList
      = 'g' :: ('u' :: 'i' :: 'd' :: '\'' :: g.toText.toList ++ ['\'']) := by
    rw [htext, hcons]
    exact Text.trim_quoted rfl
  have hbody : ∀ literal, quotedBody literal (g.toText.toList ++ ['\'']) = .ok g.toText.toList := by
    intro literal
    rw [quotedBody_eq_ok_iff, doubleQuotes_eq_self g.quote_not_mem]
  rw [decode_eq_readForm htrim (by decide), ← hcons, readForm_guid, hbody]
  dsimp only [Except.bind]
  rw [Guid.read_toText]
  rfl

theorem decode_hex {text : String} {letter : Char} {hex : List Char}
    (hletter : letter = 'X' ∨ letter = 'x')
    (htext : text.toList = letter :: '\'' :: (hex ++ ['\'']))
    : decode text = hexBody text hex := by
  have hstart : Text.isBlank letter = false ∧ letter ∉ keywordStarts := by
    rcases hletter with rfl | rfl
    . decide
    . decide
  have htrim : Text.trim text.toList = letter :: '\'' :: (hex ++ ['\'']) := by
    rw [htext, ← List.cons_append]
    exact Text.trim_quoted hstart.1
  rw [decode_eq_readForm htrim hstart.2, readForm_hex _ hletter, ← htext, String.ofList_toList]

theorem decode_binary {text : String} {bytes : List UInt8}
    (htext : text.toList = 'X' :: '\'' :: (Text.bytesHexUpper bytes ++ ['\'']))
    : decode text = .ok (.binary bytes) := by
  rw [decode_hex (.inl rfl) htext, hexBody_bytesHexUpper]

/-! ### Values and their literals -/

theorem decode_form {v : Value} {text : String} (h : Form v text.toList)
    : decode text = .ok v.widened.unsignedZero := by
  generalize hchars : text.toList = cs at h
  cases h with
  | nullWord =>
    rw [String.toList_inj.mp hchars]
    rfl
  | trueWord =>
    rw [String.toList_inj.mp hchars]
    rfl
  | falseWord =>
    rw [String.toList_inj.mp hchars]
    rfl
  | narrow hv =>
    rw [Value.widened_of_narrow? hv]
    exact decode_narrow hv hchars
  | wide n =>
    rw [decode_letter hchars rfl rfl (exists_decimalDigits _)
      fun c hc => isNumberChar_of_isDigit (Ieee.isDigit_of_mem_decimalDigits hc)]
    exact suffixedNumber_long text n
  | decimal d =>
    rw [decode_letter hchars rfl rfl d.exists_unsignedText
      fun c hc => isNumberChar_of_mem_unsignedText hc]
    exact suffixedNumber_decimal text d
  | string s => exact decode_string hchars
  | guid g => exact decode_guid hchars
  | binary bytes => exact decode_binary hchars

theorem decode_quote_eq_ok_iff {text s : String} {rest : List Char}
    (htrim : Text.trim text.toList = '\'' :: rest)
    : decode text = .ok (.string s) ↔ rest = doubleQuotes s.toList ++ ['\''] := by
  rw [decode_quote htrim]
  constructor
  . intro h
    cases hbody : quotedBody (.ofList ('\'' :: rest)) rest with
    | error fault =>
      rw [hbody] at h
      cases h
    | ok cs =>
      rw [hbody] at h
      cases h
      rw [String.toList_ofList]
      exact quotedBody_eq_ok_iff.mp hbody
  . intro h
    rw [quotedBody_eq_ok_iff.mpr h]
    dsimp only [Except.map]
    rw [String.ofList_toList]

/--
Values are read back from their literals, but for the width of small integers and the sign of a zero
decimal, which comparisons do not see. A text in quotes is read as a string exactly if it is the
literal of that string.
-/
theorem decode_encode
    : (∀ v : Value, v.isExact = true →
        ∃ text,
          encode v = .ok text
            ∧
          decode text = .ok v.widened.unsignedZero
            ∧
          v.widened.unsignedZero.equals v.widened = true
            ∧
          ((∀ d, v = .decimal d → d.negative = true → d.mantissa ≠ 0) →
            decode text = .ok v.widened))
        ∧
      ∀ text s : String, (Text.trim text.toList).head? = some '\'' →
        (decode text = .ok (.string s)
          ↔ encode (.string s) = .ok (.ofList (Text.trim text.toList))) := by
  constructor
  . intro v hv
    obtain ⟨text, henc, hform⟩ := exists_form hv
    have hdec := decode_form hform
    refine ⟨text, henc, hdec, Value.equals_unsignedZero (Value.isExact_widened hv), ?_⟩
    intro hsign
    rw [hdec, Value.unsignedZero_widened hsign]
  . intro text s hquote
    obtain ⟨rest, htrim⟩ := List.head?_eq_some_iff.mp hquote
    rw [decode_quote_eq_ok_iff htrim, htrim]
    unfold encode
    rw [Except.ok.injEq, String.ofList_inj]
    unfold quote
    rw [List.cons.injEq]
    constructor
    . intro h
      exact ⟨rfl, h.symm⟩
    . intro h
      exact h.2.symm

/-- The least integer of 64 bits, and a text in quotes with quotes in it and blanks around it. -/
theorem decode_encode_least_and_quotes
    : (Value.int64 (.ofInt (-9223372036854775808))).isExact = true
        ∧
      decode "-9223372036854775808L" = .ok (.int64 (.ofInt (-9223372036854775808)))
        ∧
      (Text.trim "\t'it''s '''  ".toList).head? = some '\''
        ∧
      decode "\t'it''s '''  " = .ok (.string "it's '") := by
  have hexact : (Value.int64 (.ofInt (-9223372036854775808))).isExact = true := rfl
  have hquote : (Text.trim "\t'it''s '''  ".toList).head? = some '\'' := rfl
  have hencode : encode (.string "it's '")
      = .ok (.ofList (Text.trim "\t'it''s '''  ".toList)) := rfl
  obtain ⟨text, henc, hdec, _, _⟩ := decode_encode.1 _ hexact
  cases henc
  exact ⟨hexact, hdec, hquote, (decode_encode.2 _ _ hquote).mpr hencode⟩

end Literal

end Edm
