import Edm.Proofs.Comparing
import Edm.Proofs.Shortest
import Edm.Proofs.TimeLiterals

/-!
This module contains the law that what is read from a literal has a literal itself, from which an
equal value is read. Only the infinite floats that numbers out of range are read as have none.
-/

namespace Edm

namespace Value

def isInfinite : Value → Bool
  | .double x =>
    match Ieee.datum x with
    | .infinite _ => true
    | _ => false
  | .single x =>
    match Ieee.datum32 x with
    | .infinite _ => true
    | _ => false
  | _ => false

structure SameAs (v w : Value) : Prop where
  simpleType?_eq : w.simpleType? = v.simpleType?
  equals : w.equals v = true
  order?_eq : w.order? v = some .eq

theorem sameAs_unsignedZero {v : Value} (h : v.isExact = true) : v.SameAs v.unsignedZero := by
  refine ⟨?_, equals_unsignedZero h, ?_⟩
  . cases v <;> rfl
  . cases v with
    | decimal d =>
      change some (d.unsignedZero.order d) = some .eq
      rw [Decimal.order_unsignedZero]
    | _ => exact order?_self _

end Value

namespace Literal

open Ieee (signed)
open Text (isBlank)
open Value (SameAs)

/-- The value has a literal, from which an equal value is read. -/
def Rereads (v : Value) : Prop :=
  ∃ text w, encode v = .ok text ∧ decode text = .ok w ∧ v.SameAs w

theorem rereads_of_isExact {v : Value} (hexact : v.isExact = true) (hv : IsTimeless v)
    : Rereads v := by
  obtain ⟨text, henc, hform⟩ := exists_form hexact
  have hwidened : v.widened = v := by
    cases v with
    | byte _ | sbyte _ | int16 _ => exact hv.elim
    | int32 n =>
      change Value.int32 (.ofInt n.toInt) = .int32 n
      rw [Int32.ofInt_toInt]
    | _ => rfl
  have hdec := decode_form hform
  rw [hwidened] at hdec
  exact ⟨text, _, henc, hdec, Value.sameAs_unsignedZero hexact⟩

theorem isNumberChar_of_mem_unsignedText_float {f : Ieee.Format} {m : Nat} {q : Int} {c : Char}
    (h : c ∈ Ieee.unsignedText f m q) : isNumberChar c = true := by
  rcases Ieee.isDigit_or_point_of_mem_unsignedText h with h | rfl
  . exact isNumberChar_of_isDigit h
  . rfl

theorem decode_display (f : Ieee.Format) (negative : Bool) (m : Nat) (q : Int) (letter : Char)
    (hletter : letter.isAlpha = true) (hblank : isBlank letter = false)
    : decode (f.display (.finite negative m q) ++ .singleton letter)
        = suffixedNumber (f.display (.finite negative m q) ++ .singleton letter)
            (f.display (.finite negative m q)).toList letter := by
  have htext : (f.display (.finite negative m q) ++ .singleton letter).toList
      = signed negative (Ieee.unsignedText f m q) ++ [letter] := by
    rw [String.toList_append, Ieee.toList_display, String.toList_singleton]
  rw [decode_letter htext hletter hblank (Ieee.exists_unsignedText f m q)
    fun c => isNumberChar_of_mem_unsignedText_float, Ieee.toList_display]

theorem decode_double {x : Float} {negative : Bool} {m : Nat} {q : Int}
    (h : Ieee.datum x = .finite negative m q)
    : decode (Ieee.display x ++ "D") = .ok (.double x) := by
  have hread := Ieee.read?_display h
  have hdec := decode_display Ieee.binary64 negative m q 'D' rfl rfl
  unfold Ieee.display at *
  rw [h] at *
  unfold suffixedNumber at hdec
  rw [hread] at hdec
  exact hdec

theorem decode_single {x : Float32} {negative : Bool} {m : Nat} {q : Int}
    (h : Ieee.datum32 x = .finite negative m q)
    : decode (Ieee.display32 x ++ "f") = .ok (.single x) := by
  have hread := Ieee.read32?_display32 h
  have hdec := decode_display Ieee.binary32 negative m q 'f' rfl rfl
  unfold Ieee.display32 at *
  rw [h] at *
  unfold suffixedNumber at hdec
  rw [hread] at hdec
  exact hdec

theorem rereads_double {x : Float} {negative : Bool} {m : Nat} {q : Int}
    (h : Ieee.datum x = .finite negative m q) : Rereads (.double x) := by
  refine ⟨Ieee.display x ++ "D", .double x, ?_, decode_double h, rfl, ?_, Value.order?_self _⟩
  . unfold encode
    dsimp only
    rw [h]
  . exact Ieee.beq_self (by rw [h]; exact nofun)

theorem rereads_single {x : Float32} {negative : Bool} {m : Nat} {q : Int}
    (h : Ieee.datum32 x = .finite negative m q) : Rereads (.single x) := by
  refine ⟨Ieee.display32 x ++ "f", .single x, ?_, decode_single h, rfl, ?_, Value.order?_self _⟩
  . unfold encode
    dsimp only
    rw [h]
  . exact Ieee.beq_self32 (by rw [h]; exact nofun)

theorem rereads_time {t : TimeOfDay} (h : t.IsValid) : Rereads (.time t) := by
  exact ⟨_, _, rfl, decode_time h, rfl, beq_self_eq_true t, Value.order?_self _⟩

theorem rereads_dateTime {t : DateTime} (h : t.IsValid) : Rereads (.dateTime t) := by
  exact ⟨_, _, rfl, decode_dateTime h, rfl, beq_self_eq_true t, Value.order?_self _⟩

theorem rereads_dateTimeOffset {t : OffsetDateTime} (h : t.IsValid) (hminutes : t.offset % 60 = 0)
    (hfirst : 0 ≤ t.atOffset.date.year) (hlast : t.atOffset.date.year ≤ 9999)
    : Rereads (.dateTimeOffset t) := by
  exact ⟨_, _, rfl, decode_dateTimeOffset h hminutes hfirst hlast, rfl, beq_self_eq_true t.utc,
    Value.order?_self _⟩

theorem rereads_of_isTimeless {v : Value} (h : IsTimeless v) (hinfinite : v.isInfinite = false)
    : Rereads v := by
  cases v with
  | double x =>
    cases hx : Ieee.datum x with
    | nan => exact absurd hx h
    | infinite _ => simp [Value.isInfinite, hx] at hinfinite
    | finite _ _ _ => exact rereads_double hx
  | single x =>
    cases hx : Ieee.datum32 x with
    | nan => exact absurd hx h
    | infinite _ => simp [Value.isInfinite, hx] at hinfinite
    | finite _ _ _ => exact rereads_single hx
  | dateTime _ | dateTimeOffset _ | time _ => exact h.elim
  | _ => exact rereads_of_isExact rfl h

theorem rereads_of_readFrom {cs : List Char} {v : Value} (h : ReadFrom cs v)
    (hinfinite : v.isInfinite = false) : Rereads v := by
  cases h with
  | timeless h => exact rereads_of_isTimeless h hinfinite
  | time _ h => exact rereads_time h
  | dateTime _ h => exact rereads_dateTime h
  | dateTimeOffset _ h hfirst hlast hoffset hminutes =>
    have hlocal := OffsetDateTime.atOffset_ofLocal h hoffset
    apply rereads_dateTimeOffset (OffsetDateTime.isValid_ofLocal h hfirst hlast hoffset hminutes)
      hminutes
    . rwa [hlocal]
    . rwa [hlocal]

theorem encode_of_isInfinite {v : Value} (h : v.isInfinite = true)
    : encode v = .error .nonFinite := by
  cases v with
  | double x =>
    unfold Value.isInfinite at h
    dsimp only at h
    split at h
    . next hx =>
      unfold encode
      dsimp only
      rw [hx]
    . cases h
  | single x =>
    unfold Value.isInfinite at h
    dsimp only at h
    split at h
    . next hx =>
      unfold encode
      dsimp only
      rw [hx]
    . cases h
  | _ => cases h

/--
What is read from a literal has a literal, from which an equal value of the same type is read. This
does not hold of the infinite floats that numbers out of range are read as.
-/
theorem encode_of_decode {text : String} {v : Value} (h : decode text = .ok v)
    : (v.isInfinite = true → encode v = .error .nonFinite)
        ∧
      (v.isInfinite = false →
        ∃ text' w,
          encode v = .ok text'
            ∧
          decode text' = .ok w
            ∧
          w.simpleType? = v.simpleType?
            ∧
          w.equals v = true
            ∧
          w.order? v = some .eq) := by
  refine ⟨encode_of_isInfinite, fun hinfinite => ?_⟩
  obtain ⟨text', w, henc, hdec, hsame⟩ := rereads_of_readFrom (readFrom_of_decode h) hinfinite
  exact ⟨text', w, henc, hdec, hsame.simpleType?_eq, hsame.equals, hsame.order?_eq⟩

def tenth : Value := .double (.ofBits 0x3FB999999999999A)

def infinity : Value := .double (.ofBits 0x7FF0000000000000)

theorem decode_exponent {text : String} {m bits : Nat} {e : Int} {c d : Char} {cs : List Char}
    (htext : text.toList = c :: cs) (hc : c.isDigit = true) (hlast : text.toList.getLast? = some d)
    (hd : d.isDigit = true) (hchars : ∀ d ∈ text.toList, isNumberChar d = true)
    (hmark : text.toList.any (fun c => c = 'e' || c = 'E') = true)
    (hread : Ieee.readDecimal? text.toList = some (false, m, e))
    (hbits : Ieee.binary64.ofDecimal m e = bits)
    : decode text = .ok (.double (.ofBits (.ofNat bits))) := by
  have hsigned : text.toList = signed false (c :: cs) := htext
  have hblank : ∀ d ∈ (c :: cs).getLast?, isBlank d = false := by
    rw [← htext, hlast]
    intro d' hd'
    cases hd'
    exact Text.isBlank_of_isDigit hd
  rw [decode_signed hsigned hc hblank,
    number_digits text hlast (isAlpha_of_isDigit hd) hchars]
  unfold plainNumber
  rw [if_pos hmark]
  unfold Ieee.read?
  rw [hread, Option.map_some]
  dsimp only
  rw [hbits]
  rfl

/-- A tenth with an exponent is read, and is written without one. -/
theorem encode_of_decode_tenth
    : decode "1e-1" = .ok tenth
        ∧
      tenth.isInfinite = false
        ∧
      ∃ text w, encode tenth = .ok text ∧ decode text = .ok w ∧ w.equals tenth = true := by
  have hdec : decode "1e-1" = .ok tenth :=
    decode_exponent rfl rfl rfl rfl (List.all_eq_true.mp rfl) (by decide) (m := 1) (e := -1)
      (by decide +kernel) (by decide +kernel)
  have hfinite : tenth.isInfinite = false := by decide +kernel
  obtain ⟨text, w, henc, hdec', _, hequals, _⟩ := (encode_of_decode hdec).2 hfinite
  exact ⟨hdec, hfinite, text, w, henc, hdec', hequals⟩

/-- A number that is out of range is read, and has no literal. -/
theorem decode_out_of_range
    : decode "1e400" = .ok infinity ∧ encode infinity = .error .nonFinite := by
  have hdec : decode "1e400" = .ok infinity :=
    decode_exponent rfl rfl rfl rfl (List.all_eq_true.mp rfl) (by decide) (m := 1) (e := 400)
      (by decide +kernel) (by decide +kernel)
  have hinfinite : infinity.isInfinite = true := by decide +kernel
  exact ⟨hdec, encode_of_isInfinite hinfinite⟩

end Literal

end Edm
