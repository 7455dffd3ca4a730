import Edm.Proofs.Readings

/-!
This module contains the laws of the literals of points in time: they are read back from their
literals, and the word in front of the quotes is the type of what is read.
-/

namespace Edm

/-! ### Quotes -/

namespace Calendar

theorem quote_not_mem_padded (width n : Nat) : '\'' ∉ (padded width n).toList := by
  intro h
  cases isDigit_of_mem_padded h

theorem quote_not_mem_fractionText (n : Nat) : '\'' ∉ (fractionText n).toList := by
  unfold fractionText
  split
  . decide
  . split
    . simp [quote_not_mem_padded]
    . split
      . simp [quote_not_mem_padded]
      . simp [quote_not_mem_padded]

theorem quote_not_mem_yearText (year : Int) : '\'' ∉ (yearText year).toList := by
  unfold yearText
  split
  . exact quote_not_mem_padded 4 _
  . split
    . simp [quote_not_mem_padded]
    . simp [quote_not_mem_padded]

end Calendar

open Calendar (quote_not_mem_padded quote_not_mem_fractionText quote_not_mem_yearText)

theorem TimeOfDay.quote_not_mem (t : TimeOfDay) : '\'' ∉ t.toText.toList := by
  simp [Calendar.toList_timeText, quote_not_mem_padded, quote_not_mem_fractionText]

theorem DateTime.quote_not_mem (t : DateTime) : '\'' ∉ t.toText.toList := by
  simp [DateTime.toText, Calendar.toList_dateText, quote_not_mem_padded, quote_not_mem_yearText,
    t.time.quote_not_mem]

theorem OffsetDateTime.quote_not_mem (t : OffsetDateTime) : '\'' ∉ t.toText.toList := by
  have hoffset : '\'' ∉ t.offsetText.toList := by
    unfold offsetText
    split
    . simp [quote_not_mem_padded]
    . simp [quote_not_mem_padded]
  simp [OffsetDateTime.toText, t.atOffset.quote_not_mem, hoffset]

namespace Literal

/-! ### Reading -/

theorem trim_word {word : String} {read : List Char → Except Fault Value} {literal : String}
    (hword : (word, read) ∈ wordForms literal) (body : List Char)
    : Text.trim (word.toList ++ '\'' :: (body ++ ['\'']))
        = word.toList ++ '\'' :: (body ++ ['\'']) := by
  obtain ⟨c, cs, hcs, hc⟩ : ∃ c cs, word.toList = c :: cs ∧ Text.isBlank c = false := by
    unfold wordForms at hword
    simp only [List.mem_cons, List.not_mem_nil, or_false, Prod.mk.injEq] at hword
    rcases hword with ⟨rfl, rfl⟩ | ⟨rfl, rfl⟩ | ⟨rfl, rfl⟩ | ⟨rfl, rfl⟩ | ⟨rfl, rfl⟩
    . exact ⟨_, _, rfl, rfl⟩
    . exact ⟨_, _, rfl, rfl⟩
    . exact ⟨_, _, rfl, rfl⟩
    . exact ⟨_, _, rfl, rfl⟩
    . exact ⟨_, _, rfl, rfl⟩
  have happend : word.toList ++ '\'' :: (body ++ ['\''])
      = c :: ((cs ++ '\'' :: body) ++ ['\'']) := by
    simp [hcs]
  rw [happend, Text.trim_quoted hc]

theorem decode_quoted (word body : String) {read : List Char → Except Fault Value}
    (hword : (word, read) ∈ wordForms (word ++ "'" ++ body ++ "'")) (hquote : '\'' ∉ body.toList)
    : decode (word ++ "'" ++ body ++ "'") = read body.toList := by
  have htext : (word ++ "'" ++ body ++ "'").toList
      = word.toList ++ '\'' :: (body.toList ++ ['\'']) := by
    simp
  have htrim := trim_word hword body.toList
  rw [← htext] at htrim
  have hliteral : String.ofList (Text.trim (word ++ "'" ++ body ++ "'").toList)
      = word ++ "'" ++ body ++ "'" := by
    rw [htrim, String.ofList_toList]
  rw [decode_word (htrim.trans htext) (by rw [hliteral]; exact hword),
    quotedBody_eq_ok_iff.mpr (by rw [doubleQuotes_eq_self hquote])]
  rfl

theorem decode_time {t : TimeOfDay} (h : t.IsValid)
    : decode ("time'" ++ t.toText ++ "'") = .ok (.time t) := by
  have hread := decode_quoted "time" t.toText (.tail _ (.tail _ (.head _)))
    t.quote_not_mem
  rw [Calendar.readTime_toText h] at hread
  exact hread

theorem decode_dateTime {t : DateTime} (h : t.IsValid)
    : decode ("datetime'" ++ t.toText ++ "'") = .ok (.dateTime t) := by
  have hread := decode_quoted "datetime" t.toText (.tail _ (.head _))
    t.quote_not_mem
  rw [Calendar.readDateTime_toText h] at hread
  exact hread

theorem decode_dateTimeOffset {t : OffsetDateTime} (h : t.IsValid)
    (hminutes : t.offset % 60 = 0) (hfirst : 0 ≤ t.atOffset.date.year)
    (hlast : t.atOffset.date.year ≤ 9999)
    : decode ("datetimeoffset'" ++ t.toText ++ "'") = .ok (.dateTimeOffset t) := by
  have hread := decode_quoted "datetimeoffset" t.toText (.head _)
    t.quote_not_mem
  rw [Calendar.readOffsetDateTime_toText h hminutes hfirst hlast] at hread
  exact hread

/-! ### Points in time and their literals -/

/-- The word in front of the quotes of points in time of a type. -/
def timeWord? : SimpleType → Option String
  | .dateTimeOffset => some "datetimeoffset"
  | .dateTime => some "datetime"
  | .time => some "time"
  | _ => none

theorem not_isTimeless {v : Value} {type : SimpleType} {word : String}
    (hword : timeWord? type = some word) (h : v.simpleType? = some type)
    : ¬ IsTimeless v := by
  cases v with
  | dateTime _ | dateTimeOffset _ | time _ => exact not_false
  | null => cases h
  | _ =>
    cases h
    cases hword

theorem prefix_of_readFrom {cs : List Char} {v : Value} {type : SimpleType} {word : String}
    (hword : timeWord? type = some word) (hread : ReadFrom cs v) (h : v.simpleType? = some type)
    : (word ++ "'").toList <+: cs := by
  cases hread with
  | timeless htimeless => exact absurd htimeless (not_isTimeless hword h)
  | time hstart _ =>
    cases h
    cases hword
    exact hstart
  | dateTime hstart _ =>
    cases h
    cases hword
    exact hstart
  | dateTimeOffset hstart _ _ _ _ _ =>
    cases h
    cases hword
    exact hstart

theorem simpleType?_of_prefix {text word : String} {v : Value} {type : SimpleType}
    (hword : timeWord? type = some word) (h : decode text = .ok v)
    (hstart : (word ++ "'").toList <+: Text.trim text.toList) : v.simpleType? = some type := by
  obtain ⟨rest, hrest⟩ := hstart
  have htrim : Text.trim text.toList = word.toList ++ '\'' :: rest := by
    simp [← hrest]
  have hread : ∀ read, (word, read) ∈ wordForms (.ofList (Text.trim text.toList)) →
      ∃ body, read body = .ok v := by
    intro read hmem
    rw [decode_word htrim hmem] at h
    cases hbody : quotedBody (.ofList (Text.trim text.toList)) rest with
    | error fault =>
      rw [hbody] at h
      cases h
    | ok body =>
      rw [hbody] at h
      exact ⟨body, h⟩
  unfold timeWord? at hword
  split at hword
  . cases hword
    obtain ⟨_, hbody⟩ := hread _ (.head _)
    obtain ⟨_, _, rfl⟩ := of_invalidUnless hbody
    rfl
  . cases hword
    obtain ⟨_, hbody⟩ := hread _ (.tail _ (.head _))
    obtain ⟨_, _, rfl⟩ := of_invalidUnless hbody
    rfl
  . cases hword
    obtain ⟨_, hbody⟩ := hread _ (.tail _ (.tail _ (.head _)))
    obtain ⟨_, _, rfl⟩ := of_invalidUnless hbody
    rfl
  . cases hword

/--
Points in time are read back from their literals: times with any fraction and in leap seconds, dates
and times, and these with an offset of whole minutes if four digits are enough for the year that is
shown. What is read is of one of these types exactly if the word of the type stands in front of the
quotes.
-/
theorem decode_encode_times
    : (∀ t : TimeOfDay, t.IsValid →
        ∃ text, encode (.time t) = .ok text ∧ decode text = .ok (.time t))
        ∧
      (∀ t : DateTime, t.IsValid →
        ∃ text, encode (.dateTime t) = .ok text ∧ decode text = .ok (.dateTime t))
        ∧
      (∀ t : OffsetDateTime, t.IsValid → t.offset % 60 = 0 → 0 ≤ t.atOffset.date.year →
        t.atOffset.date.year ≤ 9999 →
        ∃ text, encode (.dateTimeOffset t) = .ok text ∧ decode text = .ok (.dateTimeOffset t))
        ∧
      ∀ (text word : String) (v : Value) (type : SimpleType), decode text = .ok v →
        timeWord? type = some word →
        (v.simpleType? = some type ↔ (word ++ "'").toList <+: Text.trim text.toList) := by
  refine ⟨?_, ?_, ?_, ?_⟩
  . intro t h
    exact ⟨_, rfl, decode_time h⟩
  . intro t h
    exact ⟨_, rfl, decode_dateTime h⟩
  . intro t h hminutes hfirst hlast
    exact ⟨_, rfl, decode_dateTimeOffset h hminutes hfirst hlast⟩
  . intro text word v type h hword
    constructor
    . exact prefix_of_readFrom hword (readFrom_of_decode h)
    . exact simpleType?_of_prefix hword h

def leapSecond : TimeOfDay := ⟨86399, 1500000000⟩

/-- Half an hour into the year 10000, which is still the year before it one hour to the west. -/
def yearTenThousand : OffsetDateTime := ⟨⟨⟨10000, 1, 1⟩, ⟨1800, 120000⟩⟩, -3600⟩

def leapDay : DateTime := ⟨⟨0, 2, 29⟩, ⟨0, 1⟩⟩

theorem isValid_leapSecond : leapSecond.IsValid := by
  exact ⟨by decide, by decide, fun _ => by decide⟩

theorem isValid_leapDay : leapDay.IsValid := by
  exact ⟨⟨⟨by decide, by decide, by decide, by decide⟩, by decide, by decide⟩,
    ⟨by decide, by decide, fun h => absurd h (by decide)⟩⟩

theorem isValid_yearTenThousand : yearTenThousand.IsValid := by
  exact ⟨⟨⟨⟨by decide, by decide, by decide, by decide⟩, by decide, by decide⟩,
    ⟨by decide, by decide, fun h => absurd h (by decide)⟩⟩, by decide⟩

/-- A leap second with a fraction, a leap day of the year zero, an offset that changes the year. -/
theorem decode_encode_leaps
    : leapSecond.IsValid
        ∧
      decode "time'23:59:60.500'" = .ok (.time leapSecond)
        ∧
      leapDay.IsValid
        ∧
      decode "datetime'0000-02-29T00:00:00.000000001'" = .ok (.dateTime leapDay)
        ∧
      yearTenThousand.IsValid
        ∧
      decode "datetimeoffset'9999-12-31T23:30:00.000120-01:00'"
          = .ok (.dateTimeOffset yearTenThousand)
        ∧
      ("datetimeoffset" ++ "'").toList
          <+: Text.trim "datetimeoffset'9999-12-31T23:30:00.000120-01:00'".toList := by
  have hsecond : encode (.time leapSecond) = .ok "time'23:59:60.500'" := by cbv
  have hday : encode (.dateTime leapDay) = .ok "datetime'0000-02-29T00:00:00.000000001'" := by cbv
  have hyear : encode (.dateTimeOffset yearTenThousand)
      = .ok "datetimeoffset'9999-12-31T23:30:00.000120-01:00'" := by cbv
  have hyear' : decode "datetimeoffset'9999-12-31T23:30:00.000120-01:00'"
      = .ok (.dateTimeOffset yearTenThousand) := by
    obtain ⟨text, henc, hdec⟩ := decode_encode_times.2.2.1 _ isValid_yearTenThousand (by decide)
      (by decide) (by decide)
    rw [hyear] at henc
    cases henc
    exact hdec
  refine ⟨isValid_leapSecond, ?_, isValid_leapDay, ?_, isValid_yearTenThousand, hyear',
    (decode_encode_times.2.2.2 _ _ _ .dateTimeOffset hyear' rfl).mp rfl⟩
  . obtain ⟨text, henc, hdec⟩ := decode_encode_times.1 _ isValid_leapSecond
    rw [hsecond] at henc
    cases henc
    exact hdec
  . obtain ⟨text, henc, hdec⟩ := decode_encode_times.2.1 _ isValid_leapDay
    rw [hday] at henc
    cases henc
    exact hdec

end Literal

end Edm
