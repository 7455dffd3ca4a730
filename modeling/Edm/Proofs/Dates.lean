import Edm.Proofs.Calendar
import Edm.Proofs.Literals
import Mathlib.Algebra.Group.Nat.Defs

/-!
This module contains the laws of the texts of dates and times: they are read back from their texts,
and what is read from any text is valid.
-/

namespace Edm

namespace Calendar

open Ieee (decimalDigits digitsValue)
open Text (Ends takeWhile_of_ends dropWhile_of_ends ends_cons)

/-! ### Padded numbers -/

theorem toList_padded (width n : Nat)
    : (padded width n).toList
        = .replicate (width - (decimalDigits n).length) '0' ++ decimalDigits n := by
  unfold padded
  rw [String.toList_ofList]
  rfl

theorem isDigit_of_mem_padded {width n : Nat} {c : Char} (h : c ∈ (padded width n).toList)
    : c.isDigit = true := by
  rw [toList_padded] at h
  rcases List.mem_append.mp h with h | h
  . exact Ieee.isDigit_of_mem_zeros h
  . exact Ieee.isDigit_of_mem_decimalDigits h

theorem digitsValue_padded (width n : Nat) : digitsValue (padded width n).toList = n := by
  rw [toList_padded, Ieee.digitsValue_zeros_append, Ieee.digitsValue_decimalDigits]

theorem length_padded {width n : Nat} (hpos : 0 < width) (h : n < 10 ^ width)
    : (padded width n).toList.length = width := by
  have hle : (decimalDigits n).length ≤ width :=
    (Nat.length_toDigits_le_iff (by decide) hpos).mpr h
  rw [toList_padded, List.length_append, List.length_replicate]
  omega

theorem exists_padded (width n : Nat)
    : ∃ c cs, (padded width n).toList = c :: cs ∧ c.isDigit = true := by
  cases hds : (padded width n).toList with
  | nil =>
    obtain ⟨c, cs, hcs, _⟩ := exists_decimalDigits n
    rw [toList_padded, hcs] at hds
    simp at hds
  | cons c cs => exact ⟨c, cs, rfl, isDigit_of_mem_padded (hds ▸ List.mem_cons_self)⟩

/-! ### Reading numbers -/

namespace Reader

variable {α β : Type} {r : Reader α} {f : α → Reader β}

theorem bind_of_ok {a : α} {cs ds : List Char} (h : r cs = .ok (a, ds))
    : (r >>= f) cs = f a ds := by
  change Except.bind (r cs) (fun p => f p.1 p.2) = _
  rw [h]
  rfl

theorem bind_eq_ok {b : β} {cs es : List Char} (h : (r >>= f) cs = .ok (b, es))
    : ∃ a ds, r cs = .ok (a, ds) ∧ f a ds = .ok (b, es) := by
  cases hr : r cs with
  | error fault =>
    change Except.bind (r cs) (fun p => f p.1 p.2) = _ at h
    rw [hr] at h
    cases h
  | ok p =>
    rw [bind_of_ok hr] at h
    exact ⟨p.1, p.2, rfl, h⟩

theorem digits_append {least most : Nat} {ds rest : List Char}
    (hds : ∀ c ∈ ds, c.isDigit = true) (hleast : least ≤ ds.length) (hmost : ds.length ≤ most)
    (hrest : ds.length < most → Ends rest) (hvalue : digitsValue ds < 9223372036854775808)
    : digits least most (ds ++ rest) = .ok (digitsValue ds, rest) := by
  have htaken : ((ds ++ rest).take most).takeWhile Char.isDigit = ds := by
    rw [List.take_append, List.take_of_length_le hmost, List.takeWhile_append_of_pos hds]
    rcases Nat.lt_or_eq_of_le hmost with hlt | heq
    . have hends : Ends (rest.take (most - ds.length)) := by
        intro c hc
        rw [List.head?_take] at hc
        split at hc
        . cases hc
        . exact hrest hlt c hc
      rw [takeWhile_of_ends hends, List.append_nil]
    . rw [heq, Nat.sub_self, List.take_zero, List.takeWhile_nil, List.append_nil]
  have hsize : ds.length ≤ Text.utf8Size (ds ++ rest) := by
    have := Text.length_le_utf8Size (ds ++ rest)
    rw [List.length_append] at this
    omega
  unfold digits
  rw [htaken, if_neg (by omega), if_neg (by omega)]
  dsimp only
  rw [List.drop_left]
  exact if_pos hvalue

theorem digits_padded {least width n : Nat} (rest : List Char) (hpos : 0 < width)
    (hn : n < 10 ^ width) (hleast : least ≤ width) (hwidth : width ≤ 9)
    : digits least width ((padded width n).toList ++ rest) = .ok (n, rest) := by
  have hlength := length_padded hpos hn
  have hvalue := digitsValue_padded width n
  have hle : 10 ^ width ≤ 10 ^ 9 := Nat.pow_le_pow_right (by decide) hwidth
  rw [digits_append (fun c hc => isDigit_of_mem_padded hc) (by omega) (by omega) (by omega)
    (by omega), hvalue]

theorem skipBlanks_padded (width n : Nat) (rest : List Char)
    : skipBlanks ((padded width n).toList ++ rest) = .ok ((), (padded width n).toList ++ rest) := by
  obtain ⟨c, cs, hcs, hc⟩ := exists_padded width n
  unfold skipBlanks Text.trimStart
  rw [hcs, List.cons_append, List.dropWhile_cons_of_neg (by simp [Text.isBlank_of_isDigit hc])]

theorem check_of {p : Prop} [Decidable p] (h : p) (cs : List Char)
    : check p cs = .ok ((), cs) := by
  unfold check
  rw [if_pos h]
  rfl

theorem of_check {p : Prop} [Decidable p] {u : Unit} {cs ds : List Char}
    (h : check p cs = .ok (u, ds)) : p ∧ ds = cs := by
  unfold check at h
  split at h
  . next hp =>
    cases h
    exact ⟨hp, rfl⟩
  . cases h

theorem bounded_padded {least lower upper n : Nat} (rest : List Char) (hleast : least ≤ 2)
    (hlower : lower ≤ n) (hupper : n ≤ upper) (hn : n < 100)
    : bounded least 2 lower upper ((padded 2 n).toList ++ rest) = .ok (n, rest) := by
  unfold bounded
  rw [bind_of_ok (digits_padded rest (by decide) hn hleast (by decide)),
    bind_of_ok (check_of ⟨hlower, hupper⟩ rest)]
  rfl

theorem field_padded {lower upper n : Nat} (rest : List Char) (hlower : lower ≤ n)
    (hupper : n ≤ upper) (hn : n < 100)
    : field lower upper ((padded 2 n).toList ++ rest) = .ok (n, rest) := by
  unfold field
  rw [bind_of_ok (skipBlanks_padded 2 n rest), bounded_padded rest (by decide) hlower hupper hn]

theorem literal_cons (c : Char) (cs : List Char) : literal c (c :: cs) = .ok ((), cs) := by
  exact if_pos rfl

theorem get_eq (cs : List Char) : (get : Reader (List Char)) cs = .ok (cs, cs) := by rfl

theorem set_eq (cs ds : List Char) : (set ds : Reader Unit) cs = .ok ((), ds) := by rfl

theorem pure_eq (a : α) (cs : List Char) : (pure a : Reader α) cs = .ok (a, cs) := by rfl

/-! ### Reading dates and times -/

theorem nanos_padded {width n : Nat} {rest : List Char} (hpos : 0 < width) (hwidth : width ≤ 9)
    (hn : n < 10 ^ width) (hrest : Ends rest)
    : nanos ((padded width n).toList ++ rest) = .ok (n * tenPow (9 - width), rest) := by
  have hlength := length_padded hpos hn
  have hvalue := digitsValue_padded width n
  have hle : 10 ^ width ≤ 10 ^ 9 := Nat.pow_le_pow_right (by decide) hwidth
  have hdigits : digits 1 9 ((padded width n).toList ++ rest) = .ok (n, rest) := by
    rw [digits_append (fun c hc => isDigit_of_mem_padded hc) (by omega) (by omega)
      (fun _ => hrest) (by omega), hvalue]
  unfold nanos
  rw [bind_of_ok (get_eq _), bind_of_ok hdigits, bind_of_ok (get_eq _), bind_of_ok (set_eq _ _),
    pure_eq, dropWhile_of_ends hrest, List.length_append, hlength, Nat.add_sub_cancel]

end Reader

/-- A fraction of a second as it is shown, with three, six or nine places. -/
def fractionText (nanos : Nat) : String :=
  if nanos = 0 then ""
  else if nanos % 1000000 = 0 then "." ++ padded 3 (nanos / 1000000)
  else if nanos % 1000 = 0 then "." ++ padded 6 (nanos / 1000)
  else "." ++ padded 9 nanos

namespace Reader

theorem fraction_point {width n : Nat} {rest : List Char} (hpos : 0 < width) (hwidth : width ≤ 9)
    (hn : n < 10 ^ width) (hrest : Ends rest)
    : fraction (("." ++ padded width n).toList ++ rest) = .ok (n * tenPow (9 - width), rest) := by
  rw [String.toList_append, List.append_assoc]
  unfold fraction
  rw [bind_of_ok (get_eq _)]
  exact (bind_of_ok (set_eq _ _)).trans (nanos_padded hpos hwidth hn hrest)

theorem fraction_none {rest : List Char} (hrest : rest.head? ≠ some '.')
    : fraction rest = .ok (0, rest) := by
  unfold fraction
  rw [bind_of_ok (get_eq _)]
  split
  . next cs =>
    exact absurd rfl hrest
  . rfl

theorem fraction_fractionText {n : Nat} {rest : List Char} (hn : n < TimeOfDay.nanosPerSecond)
    (hrest : Ends rest) (hpoint : rest.head? ≠ some '.')
    : fraction ((fractionText n).toList ++ rest) = .ok (n, rest) := by
  unfold TimeOfDay.nanosPerSecond at hn
  unfold fractionText
  split
  . next hzero =>
    subst hzero
    exact fraction_none hpoint
  . split
    . rw [fraction_point (by decide) (by decide) (by omega) hrest, Except.ok.injEq, Prod.mk.injEq]
      refine ⟨?_, rfl⟩
      change _ * 1000000 = _
      omega
    . split
      . rw [fraction_point (by decide) (by decide) (by omega) hrest, Except.ok.injEq,
          Prod.mk.injEq]
        refine ⟨?_, rfl⟩
        change _ * 1000 = _
        omega
      . rw [fraction_point (by decide) (by decide) (by omega) hrest, Except.ok.injEq,
          Prod.mk.injEq]
        exact ⟨Nat.mul_one n, rfl⟩

end Reader

theorem toList_timeText (t : TimeOfDay)
    : t.toText.toList
        = (padded 2 t.hour).toList ++ ':' :: ((padded 2 t.minute).toList
          ++ ':' :: ((padded 2 t.shownSecond).toList
          ++ (fractionText (t.nanos % TimeOfDay.nanosPerSecond)).toList)) := by
  have htext : t.toText = padded 2 t.hour ++ ":" ++ padded 2 t.minute ++ ":"
      ++ padded 2 t.shownSecond ++ fractionText (t.nanos % TimeOfDay.nanosPerSecond) := rfl
  rw [htext]
  simp

namespace Reader

theorem time_toText {t : TimeOfDay} {rest : List Char} (h : t.IsValid) (hrest : Ends rest)
    (hpoint : rest.head? ≠ some '.') : time (t.toText.toList ++ rest) = .ok (t, rest) := by
  have hhour := TimeOfDay.hour_le h
  have hminute := t.minute_le
  have hsecond := TimeOfDay.shownSecond_le h
  rw [toList_timeText]
  simp only [List.append_assoc, List.cons_append]
  unfold time
  rw [bind_of_ok (field_padded _ (by omega) hhour (by omega)), bind_of_ok (literal_cons _ _),
    bind_of_ok (field_padded _ (by omega) hminute (by omega)), bind_of_ok (literal_cons _ _),
    bind_of_ok (field_padded _ (by omega) hsecond (by omega)),
    bind_of_ok (fraction_fractionText (Nat.mod_lt _ (by decide)) hrest hpoint), pure_eq,
    TimeOfDay.ofParts_parts h]

end Reader

/-- A year as it is shown: of four digits, or with a sign. -/
def yearText (year : Int) : String :=
  if 0 ≤ year ∧ year ≤ 9999 then padded 4 year.natAbs
  else (if year < 0 then "-" else "+") ++ padded 4 year.natAbs

theorem toList_dateText (d : Date)
    : d.toText.toList
        = (yearText d.year).toList ++ '-' :: ((padded 2 d.month).toList
          ++ '-' :: (padded 2 d.day).toList) := by
  have htext : d.toText = yearText d.year ++ "-" ++ padded 2 d.month ++ "-" ++ padded 2 d.day := rfl
  rw [htext]
  simp

namespace Reader

theorem digits_yearText (year : Nat) {rest : List Char} (hyear : year < 10 ^ 9)
    (hrest : Ends rest)
    : digits 1 ((padded 4 year).toList ++ rest).length ((padded 4 year).toList ++ rest)
        = .ok (year, rest) := by
  have hvalue := digitsValue_padded 4 year
  obtain ⟨c, cs, hcs, _⟩ := exists_padded 4 year
  have hpos : 1 ≤ (padded 4 year).toList.length := by
    rw [hcs]
    exact Nat.le_add_left 1 cs.length
  rw [digits_append (fun c hc => isDigit_of_mem_padded hc) hpos
    (by rw [List.length_append]; omega) (fun _ => hrest) (by omega), hvalue]

theorem year_unsigned {n : Nat} {cs rest : List Char} (hsign : ∀ c ∈ cs.head?, c.isDigit = true)
    (hblanks : skipBlanks cs = .ok ((), cs)) (hdigits : digits 1 4 cs = .ok (n, rest))
    (hn : n < 10 ^ 9) : year cs = .ok ((n : Int), rest) := by
  unfold year
  rw [bind_of_ok hblanks, bind_of_ok (get_eq _)]
  split
  . cases hsign _ rfl
  . cases hsign _ rfl
  . rw [bind_of_ok hdigits, bind_of_ok (pure_eq _ _)]
    exact bind_of_ok (check_of (by omega) rest)

theorem year_negative {n : Nat} {cs rest : List Char}
    (hdigits : digits 1 cs.length cs = .ok (n, rest)) (hn : n < 10 ^ 9)
    : year ('-' :: cs) = .ok (-(n : Int), rest) := by
  unfold year
  rw [bind_of_ok (show skipBlanks ('-' :: cs) = .ok ((), '-' :: cs) from rfl),
    bind_of_ok (get_eq _)]
  refine (bind_of_ok (set_eq _ _)).trans ((bind_of_ok hdigits).trans ?_)
  exact (bind_of_ok (pure_eq _ _)).trans (bind_of_ok (check_of (by omega) rest))

theorem year_positive {n : Nat} {cs rest : List Char}
    (hdigits : digits 1 cs.length cs = .ok (n, rest)) (hn : n < 10 ^ 9)
    : year ('+' :: cs) = .ok ((n : Int), rest) := by
  unfold year
  rw [bind_of_ok (show skipBlanks ('+' :: cs) = .ok ((), '+' :: cs) from rfl),
    bind_of_ok (get_eq _)]
  refine (bind_of_ok (set_eq _ _)).trans ((bind_of_ok hdigits).trans ?_)
  exact (bind_of_ok (pure_eq _ _)).trans (bind_of_ok (check_of (by omega) rest))

theorem year_yearText {y : Int} {rest : List Char} (hfirst : Date.firstYear ≤ y)
    (hlast : y ≤ Date.lastYear) (hrest : Ends rest)
    : year ((yearText y).toList ++ rest) = .ok (y, rest) := by
  unfold Date.firstYear at hfirst
  unfold Date.lastYear at hlast
  unfold yearText
  split
  . rw [year_unsigned (n := y.natAbs) _ (skipBlanks_padded 4 _ rest)
      (digits_padded rest (by decide) (by omega) (by decide) (by decide)) (by omega)]
    . rw [show (y.natAbs : Int) = y by omega]
    . obtain ⟨c, cs, hcs, hc⟩ := exists_padded 4 y.natAbs
      rw [hcs]
      intro d hd
      cases hd
      exact hc
  . rw [String.toList_append, List.append_assoc]
    split
    . refine (year_negative (digits_yearText y.natAbs (by omega) hrest)
        (by omega)).trans ?_
      rw [show -(y.natAbs : Int) = y by omega]
    . refine (year_positive (digits_yearText y.natAbs (by omega) hrest)
        (by omega)).trans ?_
      rw [show (y.natAbs : Int) = y by omega]

theorem date_of_isValid {d : Date} (h : d.IsValid) (cs : List Char)
    : date d.year d.month d.day cs = .ok (d, cs) := by
  unfold date
  rw [Date.ofParts?_eq_some_iff.mpr ⟨h, rfl⟩]
  rfl

theorem dateTime_toText {t : DateTime} (h : t.IsValid)
    : dateTime time t.toText.toList = .ok (t, []) := by
  have hmonth := h.date.one_le_month
  have hmonth' := h.date.month_le
  have hday := h.date.one_le_day
  have hday' := Nat.le_trans h.date.day_le (Date.daysInMonth_bounds _ _).2
  have htime := time_toText h.time Text.ends_nil (by decide)
  rw [List.append_nil] at htime
  have htext : t.toText.toList
      = (yearText t.date.year).toList ++ '-' :: ((padded 2 t.date.month).toList
        ++ '-' :: ((padded 2 t.date.day).toList ++ 'T' :: t.time.toText.toList)) := by
    unfold DateTime.toText
    simp [toList_dateText]
  rw [htext]
  unfold dateTime
  rw [bind_of_ok (year_yearText h.date.firstYear_le h.date.le_lastYear (ends_cons _ rfl)),
    bind_of_ok (literal_cons _ _), bind_of_ok (field_padded _ hmonth hmonth' (by omega)),
    bind_of_ok (literal_cons _ _), bind_of_ok (field_padded _ hday hday' (by omega)),
    bind_of_ok (literal_cons _ _), bind_of_ok htime,
    bind_of_ok (show done [] = .ok ((), []) from rfl), bind_of_ok (date_of_isValid h.date [])]
  rfl

/-! ### Reading offsets -/

theorem offset_sign {sign : Int} {c : Char} {hour minute : Nat}
    (hsign : c = '+' ∧ sign = 1 ∨ c = '-' ∧ sign = -1) (hhour : hour ≤ 23) (hminute : minute ≤ 59)
    : offset (c :: ((padded 2 hour).toList ++ ':' :: (padded 2 minute).toList))
        = .ok (sign * (hour * 3600 + minute * 60 : Nat), []) := by
  have hhours : digits 2 2 ((padded 2 hour).toList ++ ':' :: (padded 2 minute).toList)
      = .ok (hour, ':' :: (padded 2 minute).toList) :=
    digits_padded _ (by decide) (by omega) (Nat.le_refl 2) (by decide)
  have hminutes : digits 2 2 ((padded 2 minute).toList ++ []) = .ok (minute, []) :=
    digits_padded [] (by decide) (by omega) (Nat.le_refl 2) (by decide)
  rw [List.append_nil] at hminutes
  unfold offset
  rw [bind_of_ok (get_eq _)]
  generalize (padded 2 hour).toList ++ ':' :: (padded 2 minute).toList = cs at *
  obtain ⟨rfl, rfl⟩ | ⟨rfl, rfl⟩ := hsign
  . refine (bind_of_ok (by rfl)).trans ?_
    refine (bind_of_ok (set_eq _ _)).trans ?_
    rw [bind_of_ok hhours, bind_of_ok (literal_cons _ _), bind_of_ok hminutes,
      bind_of_ok (check_of hminute []), bind_of_ok (check_of hhour [])]
    rfl
  . refine (bind_of_ok (by rfl)).trans ?_
    refine (bind_of_ok (set_eq _ _)).trans ?_
    rw [bind_of_ok hhours, bind_of_ok (literal_cons _ _), bind_of_ok hminutes,
      bind_of_ok (check_of hminute []), bind_of_ok (check_of hhour [])]
    rfl

theorem offset_offsetText {t : OffsetDateTime}
    (hoffset : t.offset.natAbs < TimeOfDay.secondsPerDay) (hminutes : t.offset % 60 = 0)
    : offset t.offsetText.toList = .ok (t.offset, []) := by
  unfold TimeOfDay.secondsPerDay at hoffset
  have htext : t.offsetText.toList
      = (if t.offset < 0 then '-' else '+') :: ((padded 2 (t.offset.natAbs / 60 / 60)).toList
        ++ ':' :: (padded 2 (t.offset.natAbs / 60 % 60)).toList) := by
    have hrounded : (t.offset.natAbs + 30) / 60 = t.offset.natAbs / 60 := by omega
    unfold OffsetDateTime.offsetText
    rw [hrounded]
    split
    . simp
    . simp
  rw [htext]
  split
  . rw [offset_sign (.inr ⟨rfl, rfl⟩) (by omega) (by omega), Except.ok.injEq, Prod.mk.injEq]
    exact ⟨by omega, rfl⟩
  . rw [offset_sign (.inl ⟨rfl, rfl⟩) (by omega) (by omega), Except.ok.injEq, Prod.mk.injEq]
    exact ⟨by omega, rfl⟩

theorem ends_offsetText (t : OffsetDateTime)
    : Ends t.offsetText.toList ∧ t.offsetText.toList.head? ≠ some '.' := by
  unfold OffsetDateTime.offsetText
  split
  . simp [Ends]
  . simp [Ends]

theorem offsetDateTime_toText {t : OffsetDateTime} (h : t.IsValid) (hminutes : t.offset % 60 = 0)
    (hfirst : 0 ≤ t.atOffset.date.year) (hlast : t.atOffset.date.year ≤ 9999)
    : offsetDateTime t.toText.toList = .ok (t, []) := by
  have hdate : t.atOffset.date.IsValid := by
    refine ⟨DateTime.inMonth_shift h.utc.date.toInMonth, ?_, ?_⟩
    . exact Int.le_trans (by decide) hfirst
    . exact Int.le_trans hlast (by decide)
  have htime : t.atOffset.time.IsValid :=
    DateTime.isValid_time_shift h.utc.time h.offset_lt hminutes
  have hmonth := hdate.one_le_month
  have hmonth' := hdate.month_le
  have hday := hdate.one_le_day
  have hday' := Nat.le_trans hdate.day_le (Date.daysInMonth_bounds _ _).2
  have hhour := TimeOfDay.hour_le htime
  have hminute := t.atOffset.time.minute_le
  have hsecond := TimeOfDay.shownSecond_le htime
  have hyear : ((t.atOffset.date.year.natAbs : Nat) : Int) = t.atOffset.date.year := by omega
  have htext : t.toText.toList
      = (padded 4 t.atOffset.date.year.natAbs).toList
        ++ '-' :: ((padded 2 t.atOffset.date.month).toList
        ++ '-' :: ((padded 2 t.atOffset.date.day).toList
        ++ 'T' :: (t.atOffset.time.toText.toList ++ t.offsetText.toList))) := by
    unfold OffsetDateTime.toText DateTime.toText
    simp [toList_dateText, yearText, hfirst, hlast]
  rw [htext, toList_timeText]
  simp only [List.append_assoc, List.cons_append]
  unfold offsetDateTime
  rw [bind_of_ok (digits_padded _ (by decide) (by omega) (Nat.le_refl 4) (by decide)),
    bind_of_ok (literal_cons _ _),
    bind_of_ok (bounded_padded _ (by decide) hmonth hmonth' (by omega)),
    bind_of_ok (literal_cons _ _),
    bind_of_ok (bounded_padded _ (by decide) hday hday' (by omega)), bind_of_ok (get_eq _)]
  refine (bind_of_ok (set_eq _ _)).trans ?_
  dsimp only
  rw [bind_of_ok (bounded_padded _ (by decide) (by omega) hhour (by omega)),
    bind_of_ok (literal_cons _ _),
    bind_of_ok (bounded_padded _ (by decide) (by omega) hminute (by omega)),
    bind_of_ok (literal_cons _ _),
    bind_of_ok (bounded_padded _ (by decide) (by omega) hsecond (by omega)),
    bind_of_ok (fraction_fractionText (Nat.mod_lt _ (by decide)) (ends_offsetText t).1
      (ends_offsetText t).2),
    bind_of_ok (offset_offsetText h.offset_lt hminutes),
    bind_of_ok (show done [] = .ok ((), []) from rfl), hyear,
    bind_of_ok (date_of_isValid hdate []), pure_eq, TimeOfDay.ofParts_parts htime,
    OffsetDateTime.ofLocal_atOffset h]

/-! ### What is read -/

theorem digits_eq_ok {least most n : Nat} {cs rest : List Char}
    (h : digits least most cs = .ok (n, rest))
    : ∃ ds, cs = ds ++ rest ∧ (∀ c ∈ ds, c.isDigit = true) ∧ ds.length ≤ most
        ∧ n = digitsValue ds := by
  unfold digits at h
  dsimp only at h
  split at h
  . cases h
  . split at h
    . cases h
    . split at h
      . cases h
        have hprefix := (List.takeWhile_prefix Char.isDigit).trans (List.take_prefix most cs)
        refine ⟨_, (List.prefix_iff_eq_append.mp hprefix).symm, ?_, ?_, rfl⟩
        . exact List.all_eq_true.mp List.all_takeWhile
        . exact Nat.le_trans (List.takeWhile_prefix _).length_le (List.length_take_le most cs)
      . cases h

theorem digitValue_lt {c : Char} (h : c.isDigit = true) : Ieee.digitValue c < 10 := by
  have hrange : 48 ≤ c.toNat ∧ c.toNat ≤ 57 := by
    simpa [Char.isDigit, UInt32.le_iff_toNat_le] using h
  unfold Ieee.digitValue
  change c.toNat - 48 < 10
  omega

theorem foldl_digitValue_lt {ds : List Char} (h : ∀ c ∈ ds, c.isDigit = true) (n : Nat)
    : ds.foldl (fun n c => n * 10 + Ieee.digitValue c) n < (n + 1) * 10 ^ ds.length := by
  induction ds generalizing n with
  | nil => simp
  | cons c ds ih =>
    have hc := digitValue_lt (h c List.mem_cons_self)
    have hlt := ih (fun d hd => h d (List.mem_cons_of_mem c hd)) (n * 10 + Ieee.digitValue c)
    rw [List.foldl_cons]
    calc ds.foldl (fun n c => n * 10 + Ieee.digitValue c) (n * 10 + Ieee.digitValue c)
        < (n * 10 + Ieee.digitValue c + 1) * 10 ^ ds.length := hlt
      _ ≤ ((n + 1) * 10) * 10 ^ ds.length := Nat.mul_le_mul_right _ (by omega)
      _ = (n + 1) * 10 ^ (c :: ds).length := by
        rw [List.length_cons, Nat.pow_succ, Nat.mul_assoc, Nat.mul_comm 10]

theorem digitsValue_lt {ds : List Char} (h : ∀ c ∈ ds, c.isDigit = true)
    : digitsValue ds < 10 ^ ds.length := by
  have hlt := foldl_digitValue_lt h 0
  rwa [Nat.zero_add, Nat.one_mul] at hlt

theorem bounds_of_bounded {least most lower upper n : Nat} {cs rest : List Char}
    (h : bounded least most lower upper cs = .ok (n, rest)) : lower ≤ n ∧ n ≤ upper := by
  obtain ⟨m, ds, _, h⟩ := bind_eq_ok h
  obtain ⟨_, es, hcheck, h⟩ := bind_eq_ok h
  cases h
  exact (of_check hcheck).1

theorem bounds_of_field {lower upper n : Nat} {cs rest : List Char}
    (h : field lower upper cs = .ok (n, rest)) : lower ≤ n ∧ n ≤ upper := by
  obtain ⟨_, ds, _, h⟩ := bind_eq_ok h
  exact bounds_of_bounded h

theorem lt_of_nanos {n : Nat} {cs rest : List Char} (h : nanos cs = .ok (n, rest))
    : n < TimeOfDay.nanosPerSecond := by
  obtain ⟨_, _, hget, h⟩ := bind_eq_ok h
  cases hget
  obtain ⟨m, after, hdigits, h⟩ := bind_eq_ok h
  obtain ⟨_, _, hget, h⟩ := bind_eq_ok h
  cases hget
  obtain ⟨_, _, _, h⟩ := bind_eq_ok h
  cases h
  obtain ⟨ds, rfl, hds, hlength, rfl⟩ := digits_eq_ok hdigits
  have hlt := digitsValue_lt hds
  have hpow : 10 ^ ds.length * 10 ^ (9 - ds.length) = 10 ^ 9 := by
    rw [← Nat.pow_add, Nat.add_sub_cancel' hlength]
  rw [List.length_append, Nat.add_sub_cancel]
  calc digitsValue ds * tenPow (9 - ds.length)
      < 10 ^ ds.length * 10 ^ (9 - ds.length) :=
        Nat.mul_lt_mul_of_pos_right hlt (tenPow_pos _)
    _ = TimeOfDay.nanosPerSecond := hpow

theorem lt_of_fraction {n : Nat} {cs rest : List Char} (h : fraction cs = .ok (n, rest))
    : n < TimeOfDay.nanosPerSecond := by
  unfold fraction at h
  rw [bind_of_ok (get_eq _)] at h
  split at h
  . obtain ⟨_, _, _, h⟩ := bind_eq_ok h
    exact lt_of_nanos h
  . cases h
    decide

theorem isValid_of_time {t : TimeOfDay} {cs rest : List Char} (h : time cs = .ok (t, rest))
    : t.IsValid := by
  obtain ⟨hour, _, hhour, h⟩ := bind_eq_ok h
  obtain ⟨_, _, _, h⟩ := bind_eq_ok h
  obtain ⟨minute, _, hminute, h⟩ := bind_eq_ok h
  obtain ⟨_, _, _, h⟩ := bind_eq_ok h
  obtain ⟨second, _, hsecond, h⟩ := bind_eq_ok h
  obtain ⟨n, _, hfraction, h⟩ := bind_eq_ok h
  cases h
  exact TimeOfDay.isValid_ofParts (bounds_of_field hhour).2 (bounds_of_field hminute).2
    (bounds_of_field hsecond).2 (lt_of_fraction hfraction)

theorem isValid_of_timeToMinute {t : TimeOfDay} {cs rest : List Char}
    (h : timeToMinute cs = .ok (t, rest)) : t.IsValid := by
  obtain ⟨hour, _, hhour, h⟩ := bind_eq_ok h
  obtain ⟨_, _, _, h⟩ := bind_eq_ok h
  obtain ⟨minute, _, hminute, h⟩ := bind_eq_ok h
  cases h
  exact TimeOfDay.isValid_ofParts (bounds_of_field hhour).2 (bounds_of_field hminute).2
    (Nat.zero_le 60) (by decide)

theorem of_date {y : Int} {m d : Nat} {t : Date} {cs rest : List Char}
    (h : date y m d cs = .ok (t, rest)) : t.IsValid ∧ t = ⟨y, m, d⟩ := by
  unfold date at h
  cases hparts : Date.ofParts? y m d with
  | some u =>
    rw [hparts] at h
    cases h
    exact Date.ofParts?_eq_some_iff.mp hparts
  | none =>
    rw [hparts] at h
    cases h

theorem isValid_of_dateTime {time : Reader TimeOfDay} {t : DateTime} {cs rest : List Char}
    (htime : ∀ u cs rest, time cs = .ok (u, rest) → u.IsValid)
    (h : dateTime time cs = .ok (t, rest)) : t.IsValid := by
  obtain ⟨_, _, _, h⟩ := bind_eq_ok h
  obtain ⟨_, _, _, h⟩ := bind_eq_ok h
  obtain ⟨_, _, _, h⟩ := bind_eq_ok h
  obtain ⟨_, _, _, h⟩ := bind_eq_ok h
  obtain ⟨_, _, _, h⟩ := bind_eq_ok h
  obtain ⟨_, _, _, h⟩ := bind_eq_ok h
  obtain ⟨u, _, hu, h⟩ := bind_eq_ok h
  obtain ⟨_, _, _, h⟩ := bind_eq_ok h
  obtain ⟨d, _, hd, h⟩ := bind_eq_ok h
  cases h
  exact ⟨(of_date hd).1, htime u _ _ hu⟩

theorem bounds_of_offset {n : Int} {cs rest : List Char} (h : offset cs = .ok (n, rest))
    : n.natAbs < TimeOfDay.secondsPerDay ∧ n % 60 = 0 := by
  unfold offset at h
  obtain ⟨_, _, _, h⟩ := bind_eq_ok h
  split at h
  . cases h
    decide
  . cases h
    decide
  . obtain ⟨⟨sign, ds⟩, _, hsign, h⟩ := bind_eq_ok h
    dsimp only at h
    obtain ⟨_, _, _, h⟩ := bind_eq_ok h
    obtain ⟨hour, _, _, h⟩ := bind_eq_ok h
    obtain ⟨_, _, _, h⟩ := bind_eq_ok h
    obtain ⟨minute, _, _, h⟩ := bind_eq_ok h
    obtain ⟨_, _, hminute, h⟩ := bind_eq_ok h
    obtain ⟨_, _, hhour, h⟩ := bind_eq_ok h
    cases h
    have hminute := (of_check hminute).1
    have hhour := (of_check hhour).1
    have hunit : sign = 1 ∨ sign = -1 := by
      dsimp only at hsign
      split at hsign
      . cases hsign
        exact .inl rfl
      . cases hsign
        exact .inr rfl
      . cases hsign
        exact .inr rfl
      . cases hsign
      . cases hsign
    unfold TimeOfDay.secondsPerDay
    rcases hunit with rfl | rfl
    . omega
    . omega

theorem of_offsetDateTime {t : OffsetDateTime} {cs rest : List Char}
    (h : offsetDateTime cs = .ok (t, rest))
    : ∃ u : DateTime, u.IsValid ∧ 0 ≤ u.date.year ∧ u.date.year ≤ 9999
        ∧ t.offset.natAbs < TimeOfDay.secondsPerDay ∧ t.offset % 60 = 0
        ∧ t = .ofLocal u t.offset := by
  unfold offsetDateTime at h
  obtain ⟨y, _, hy, h⟩ := bind_eq_ok h
  obtain ⟨_, _, _, h⟩ := bind_eq_ok h
  obtain ⟨_, _, _, h⟩ := bind_eq_ok h
  obtain ⟨_, _, _, h⟩ := bind_eq_ok h
  obtain ⟨_, _, _, h⟩ := bind_eq_ok h
  obtain ⟨_, _, _, h⟩ := bind_eq_ok h
  dsimp only at h
  -- The same follows each of the three letters between the date and the time.
  split at h
  case h_4 => cases h
  case h_5 => cases h
  all_goals
    obtain ⟨_, _, _, h⟩ := bind_eq_ok h
    obtain ⟨hour, _, hhour, h⟩ := bind_eq_ok h
    obtain ⟨_, _, _, h⟩ := bind_eq_ok h
    obtain ⟨minute, _, hminute, h⟩ := bind_eq_ok h
    obtain ⟨_, _, _, h⟩ := bind_eq_ok h
    obtain ⟨second, _, hsecond, h⟩ := bind_eq_ok h
    obtain ⟨n, _, hn, h⟩ := bind_eq_ok h
    obtain ⟨o, _, ho, h⟩ := bind_eq_ok h
    obtain ⟨_, _, _, h⟩ := bind_eq_ok h
    obtain ⟨d, _, hd, h⟩ := bind_eq_ok h
    cases h
    obtain ⟨hd, rfl⟩ := of_date hd
    obtain ⟨ds, _, hds, hlength, rfl⟩ := digits_eq_ok hy
    have hpow : 10 ^ ds.length ≤ 10 ^ 4 := Nat.pow_le_pow_right (by decide) hlength
    have hlt := digitsValue_lt hds
    obtain ⟨ho, ho'⟩ := bounds_of_offset ho
    refine ⟨_, ⟨hd, ?_⟩, ?_, ?_, ho, ho', rfl⟩
    . exact TimeOfDay.isValid_ofParts (bounds_of_bounded hhour).2 (bounds_of_bounded hminute).2
        (bounds_of_bounded hsecond).2 (lt_of_fraction hn)
    . exact Int.natCast_nonneg _
    . dsimp only
      omega

theorem run_of_ok {α : Type} {r : Reader α} {a : α} {cs rest : List Char}
    (h : r cs = .ok (a, rest)) : r.run cs = .ok a := by
  unfold Reader.run StateT.run
  rw [h]

theorem of_run {α : Type} {r : Reader α} {a : α} {cs : List Char} (h : r.run cs = .ok a)
    : ∃ rest, r cs = .ok (a, rest) := by
  unfold Reader.run StateT.run at h
  cases hr : r cs with
  | ok p =>
    rw [hr] at h
    cases h
    exact ⟨p.2, rfl⟩
  | error fault =>
    rw [hr] at h
    cases h

end Reader

/-! ### Whole texts -/

theorem readTime_toText {t : TimeOfDay} (h : t.IsValid) : readTime t.toText.toList = .ok t := by
  have htime := Reader.time_toText h Text.ends_nil (by decide)
  rw [List.append_nil] at htime
  exact Reader.run_of_ok ((Reader.bind_of_ok htime).trans (Reader.bind_of_ok rfl))

theorem readDateTime_toText {t : DateTime} (h : t.IsValid)
    : readDateTime t.toText.toList = .ok t := by
  exact Reader.run_of_ok (Reader.dateTime_toText h)

theorem readOffsetDateTime_toText {t : OffsetDateTime} (h : t.IsValid)
    (hminutes : t.offset % 60 = 0) (hfirst : 0 ≤ t.atOffset.date.year)
    (hlast : t.atOffset.date.year ≤ 9999) : readOffsetDateTime t.toText.toList = .ok t := by
  exact Reader.run_of_ok (Reader.offsetDateTime_toText h hminutes hfirst hlast)

theorem isValid_of_readTime {t : TimeOfDay} {cs : List Char} (h : readTime cs = .ok t)
    : t.IsValid := by
  obtain ⟨rest, h⟩ := Reader.of_run h
  obtain ⟨u, _, hu, h⟩ := Reader.bind_eq_ok h
  obtain ⟨_, _, _, h⟩ := Reader.bind_eq_ok h
  cases h
  exact Reader.isValid_of_time hu

theorem isValid_of_readDateTime {t : DateTime} {cs : List Char} (h : readDateTime cs = .ok t)
    : t.IsValid := by
  obtain ⟨rest, h⟩ := Reader.of_run h
  exact Reader.isValid_of_dateTime (fun _ _ _ => Reader.isValid_of_time) h

theorem isValid_of_readDateTimeToMinute {t : DateTime} {cs : List Char}
    (h : readDateTimeToMinute cs = .ok t) : t.IsValid := by
  obtain ⟨rest, h⟩ := Reader.of_run h
  exact Reader.isValid_of_dateTime (fun _ _ _ => Reader.isValid_of_timeToMinute) h

theorem of_readOffsetDateTime {t : OffsetDateTime} {cs : List Char}
    (h : readOffsetDateTime cs = .ok t)
    : ∃ u : DateTime, u.IsValid ∧ 0 ≤ u.date.year ∧ u.date.year ≤ 9999
        ∧ t.offset.natAbs < TimeOfDay.secondsPerDay ∧ t.offset % 60 = 0
        ∧ t = .ofLocal u t.offset := by
  obtain ⟨rest, h⟩ := Reader.of_run h
  exact Reader.of_offsetDateTime h

end Calendar

end Edm
