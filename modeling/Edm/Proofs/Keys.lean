import Edm.Key
import Edm.Proofs.Outcome
import Edm.Proofs.Words
import Mathlib.Data.List.Pairwise

/-!
This module contains the laws of the texts of keys. The text of a key tells its values, so that keys
with the same text find each other.
-/

namespace Edm

namespace Value

theorem order?_of_narrow? {v w : Value} {m n : Int} (hv : v.narrow? = some m)
    (hw : w.narrow? = some n)
    : v.order? w = some (Numeric.order (.integer (.ofInt m)) (.integer (.ofInt n))) := by
  cases v with
  | byte | sbyte | int16 | int32 =>
    cases hv
    cases w with
    | byte | sbyte | int16 | int32 =>
      cases hw
      rfl
    | _ => cases hw
  | _ => cases hv

theorem looselyEquals_self {v : Value} (h : v.isExact = true) : v.looselyEquals v = true := by
  unfold looselyEquals
  cases v with
  | single _ | double _ | dateTime _ | dateTimeOffset _ | time _ => cases h
  | null => rfl
  | _ =>
    simp [order?, numeric?, integer?, Numeric.order, Numeric.promote, Guid.order, Decimal.order]

theorem widened_of_narrow?_eq_none {v : Value} (h : v.narrow? = none) : v.widened = v := by
  unfold widened
  rw [h]

theorem narrow?_of_widened {v : Value} {n : Int32} (h : v.widened = .int32 n)
    : v.narrow? = some n.toInt := by
  cases hnarrow : v.narrow? with
  | none =>
    rw [widened_of_narrow?_eq_none hnarrow] at h
    rw [h] at hnarrow
    cases hnarrow
  | some m =>
    rw [widened_of_narrow? hnarrow] at h
    cases h
    obtain ⟨hlow, hhigh⟩ := narrow?_bounds hnarrow
    rw [Int32.toInt_ofInt_of_le (by omega) (by omega)]

theorem looselyEquals_of_widened_eq {v w : Value} (hv : v.isExact = true)
    (h : v.widened = w.widened) : v.looselyEquals w = true := by
  cases hnarrow : v.narrow? with
  | some m =>
    rw [widened_of_narrow? hnarrow] at h
    have hw := narrow?_of_widened h.symm
    have hm : v.narrow? = some (Int32.ofInt m).toInt :=
      narrow?_of_widened (widened_of_narrow? hnarrow)
    unfold looselyEquals
    rw [order?_of_narrow? hm hw]
    simp [Numeric.order, Numeric.promote]
  | none =>
    rw [widened_of_narrow?_eq_none hnarrow] at h
    have hw : w.narrow? = none := by
      rw [Option.eq_none_iff_forall_not_mem]
      intro n hn
      rw [widened_of_narrow? hn] at h
      rw [h] at hnarrow
      cases hnarrow
    rw [widened_of_narrow?_eq_none hw] at h
    rw [← h]
    exact looselyEquals_self hv

end Value

/-! ### Texts of keys -/

theorem cons_intercalate {c : Char} {texts : List (List Char)} (h : texts ≠ [])
    : c :: [c].intercalate texts = texts.flatMap fun text => c :: text := by
  induction texts with
  | nil => exact absurd rfl h
  | cons text texts ih =>
    cases texts with
    | nil => simp
    | cons next texts =>
      rw [List.intercalate_cons_cons, List.flatMap_cons, ← ih (List.cons_ne_nil _ _)]
      simp

namespace Key

theorem exists_literal {v : Value} (h : v.isExact = true)
    : ∃ text, literal v = .ok text ∧ Literal.Form v text.toList := by
  obtain ⟨text, henc, hform⟩ := Literal.exists_form h
  refine ⟨text, ?_, hform⟩
  unfold literal
  rw [henc]

theorem widened_eq_of_literal_eq {v w : Value} (hv : v.isExact = true) (hw : w.isExact = true)
    (h : literal v = literal w) : v.widened = w.widened := by
  obtain ⟨text, htext, hform⟩ := exists_literal hv
  obtain ⟨text', htext', hform'⟩ := exists_literal hw
  rw [htext, htext'] at h
  cases h
  exact hform.widened_eq hform'

def partText (part : String × Value) : Except Failure String :=
  return part.1 ++ "=" ++ (← literal part.2)

theorem text_composite (parts : List (String × Value))
    : (Key.composite parts).text
        = parts.mapM partText >>= fun texts => pure (",".intercalate texts) := by
  rfl

def IsText (part : String × Value) (text : List Char) : Prop :=
  ∃ form, Literal.Form part.2 form ∧ text = part.1.toList ++ '=' :: form

theorem exists_partText {part : String × Value} (h : part.2.isExact = true)
    : ∃ text, partText part = .ok text ∧ IsText part text.toList := by
  obtain ⟨text, htext, hform⟩ := exists_literal h
  refine ⟨part.1 ++ "=" ++ text, ?_, text.toList, hform, ?_⟩
  . unfold partText
    rw [htext]
    rfl
  . rw [String.toList_append, String.toList_append, List.append_assoc]
    rfl

theorem exists_partTexts {parts : List (String × Value)} (h : ∀ part ∈ parts, part.2.isExact = true)
    : ∃ texts,
        parts.mapM partText = .ok texts ∧ List.Forall₂ IsText parts (texts.map String.toList) := by
  induction parts with
  | nil => exact ⟨[], rfl, .nil⟩
  | cons part parts ih =>
    rw [List.forall_mem_cons] at h
    obtain ⟨text, htext, hpart⟩ := exists_partText h.1
    obtain ⟨texts, htexts, hparts⟩ := ih h.2
    refine ⟨text :: texts, ?_, .cons hpart hparts⟩
    rw [List.mapM_cons, htext, htexts]
    rfl

theorem exists_text {parts : List (String × Value)} (h : ∀ part ∈ parts, part.2.isExact = true)
    : ∃ text texts,
        (Key.composite parts).text = .ok text
          ∧
        text.toList = [','].intercalate texts
          ∧
        List.Forall₂ IsText parts texts := by
  obtain ⟨texts, htexts, hparts⟩ := exists_partTexts h
  refine ⟨",".intercalate texts, _, ?_, String.toList_intercalate, hparts⟩
  rw [text_composite, htexts]
  rfl

/-- Parts with the same name and with values that differ in the width of small integers at most. -/
def PartAlike (p q : String × Value) : Prop := p.1 = q.1 ∧ p.2.widened = q.2.widened

theorem delimited_flatMap (texts : List (List Char))
    : Expr.Delimited (texts.flatMap fun text => ',' :: text) := by
  cases texts with
  | nil => exact Expr.delimited_nil
  | cons text texts => exact Expr.delimited_cons _ rfl

theorem forall₂_partAlike {own other : List (String × Value)} {texts texts' : List (List Char)}
    (hown : List.Forall₂ IsText own texts) (hother : List.Forall₂ IsText other texts')
    (hnames : own.map Prod.fst = other.map Prod.fst)
    (h : (texts.flatMap fun text => ',' :: text) = texts'.flatMap fun text => ',' :: text)
    : List.Forall₂ PartAlike own other := by
  -- The names are the same, so that the first literals start at the same place. What follows them
  -- is empty or starts with a comma, so that they end at the same place, too.
  induction hown generalizing other texts' with
  | nil =>
    obtain rfl : other = [] := List.map_eq_nil_iff.mp hnames.symm
    exact .nil
  | cons hpart _ ih =>
    cases hother with
    | nil => cases hnames
    | cons hpart' hparts' =>
      rw [List.map_cons, List.map_cons, List.cons.injEq] at hnames
      obtain ⟨form, hform, rfl⟩ := hpart
      obtain ⟨form', hform', rfl⟩ := hpart'
      rw [hnames.1] at h
      simp only [List.flatMap_cons, List.cons_append, List.append_assoc, List.cons.injEq,
        List.append_cancel_left_eq, true_and] at h
      obtain ⟨rfl, hrest⟩ := Expr.append_inj_of_isWord hform.isWord hform'.isWord
        (delimited_flatMap _) (delimited_flatMap _) h
      exact .cons ⟨hnames.1, hform.widened_eq hform'⟩ (ih hparts' hnames.2 hrest)

theorem forall₂_partAlike_of_text_eq {own other : List (String × Value)}
    (hown : ∀ part ∈ own, part.2.isExact = true) (hother : ∀ part ∈ other, part.2.isExact = true)
    (hnames : own.map Prod.fst = other.map Prod.fst)
    (h : (Key.composite own).text = (Key.composite other).text)
    : List.Forall₂ PartAlike own other := by
  obtain ⟨text, texts, htext, htexts, hparts⟩ := exists_text hown
  obtain ⟨text', texts', htext', htexts', hparts'⟩ := exists_text hother
  rw [htext, htext'] at h
  cases h
  cases own with
  | nil =>
    obtain rfl : other = [] := List.map_eq_nil_iff.mp hnames.symm
    exact .nil
  | cons part own =>
    have hne : texts ≠ [] := by
      rintro rfl
      cases hparts
    have hne' : texts' ≠ [] := by
      rintro rfl
      cases hparts'
      cases hnames
    apply forall₂_partAlike hparts hparts' hnames
    rw [← cons_intercalate hne, ← cons_intercalate hne', ← htexts, ← htexts']

/-! ### Looking up -/

def DistinctNames (names : List String) : Prop :=
  names.Pairwise fun m n => Text.equalsIgnoringAsciiCase m n = false

theorem eq_of_distinctNames {parts : List (String × Value)} (h : DistinctNames (parts.map Prod.fst))
    {p q : String × Value} (hp : p ∈ parts) (hq : q ∈ parts)
    (heq : Text.equalsIgnoringAsciiCase p.1 q.1 = true) : p = q := by
  have hsymm : Std.Symm fun p q : String × Value =>
      Text.equalsIgnoringAsciiCase p.1 q.1 = false := by
    constructor
    intro p q hpq
    unfold Text.equalsIgnoringAsciiCase at hpq ⊢
    rwa [BEq.comm]
  by_contra hne
  have hdiffer := (List.pairwise_map.mp h).forall hp hq hne
  rw [hdiffer] at heq
  cases heq

theorem isMatch_of_partAlike {own other : List (String × Value)}
    (hexact : ∀ part ∈ own, part.2.isExact = true) (hnames : DistinctNames (other.map Prod.fst))
    (h : List.Forall₂ PartAlike own other)
    : (Key.composite own).isMatch (.composite other) = true := by
  unfold isMatch
  dsimp only
  rw [List.all_eq_true]
  intro part hpart
  obtain ⟨part', hpart', hname, hvalue⟩ := exists_of_forall₂ h hpart
  have hself : Text.equalsIgnoringAsciiCase part'.1 part.1 = true := by
    rw [hname]
    exact BEq.rfl
  cases hfind : other.find? fun p => Text.equalsIgnoringAsciiCase p.1 part.1 with
  | none =>
    rw [List.find?_eq_none] at hfind
    exact absurd hself (hfind part' hpart')
  | some found =>
    have hfound := List.find?_some hfind
    obtain rfl : found = part' := by
      apply eq_of_distinctNames hnames (List.mem_of_find?_eq_some hfind) hpart'
      rw [← hname]
      exact hfound
    exact Value.looselyEquals_of_widened_eq (hexact part hpart) hvalue

/-! ### Keys and their texts -/

/-- The same key, where integers of at most 32 bits have 32 bits. -/
def widened : Key → Key
  | .single v => .single v.widened
  | .composite parts => .composite (parts.map fun part => (part.1, part.2.widened))

theorem map_widened_eq {own other : List (String × Value)} (h : List.Forall₂ PartAlike own other)
    : own.map (fun part => (part.1, part.2.widened))
        = other.map fun part => (part.1, part.2.widened) := by
  induction h with
  | nil => rfl
  | cons hpart _ ih => rw [List.map_cons, List.map_cons, ih, hpart.1, hpart.2]

theorem forall₂_partAlike_symm {own other : List (String × Value)}
    (h : List.Forall₂ PartAlike own other) : List.Forall₂ PartAlike other own := by
  induction h with
  | nil => exact .nil
  | cons hpart _ ih => exact .cons ⟨hpart.1.symm, hpart.2.symm⟩ ih

theorem create_eq_ok {names : List String} {values : List Value} {k : Key}
    (h : create names values = .ok k)
    : names.length = values.length
        ∧ ((∃ v, values = [v] ∧ k = .single v)
            ∨ values.length ≠ 1 ∧ k = .composite (names.zip values)) := by
  unfold create at h
  split at h
  . cases h
  . next hcount =>
    rw [not_or, not_not] at hcount
    split at h
    . cases h
    . split at h
      . next v _ =>
        cases h
        exact ⟨hcount.2, .inl ⟨v, rfl, rfl⟩⟩
      . next hmany =>
        cases h
        refine ⟨hcount.2, .inr ⟨?_, rfl⟩⟩
        intro hone
        obtain ⟨v, rfl⟩ := List.length_eq_one_iff.mp hone
        exact hmany v rfl

theorem isExact_of_mem_zip (names : List String) {values : List Value}
    (h : ∀ v ∈ values, v.isExact = true)
    : ∀ part ∈ names.zip values, part.2.isExact = true := by
  intro part hpart
  exact h part.2 (List.of_mem_zip hpart).2

/--
The text of a key tells its values, up to the width of small integers. Two keys with the same text
find each other.
-/
theorem eq_of_text_eq {names : List String} {vs ws : List Value} {j k : Key}
    (hj : create names vs = .ok j) (hk : create names ws = .ok k)
    (hvs : ∀ v ∈ vs, v.isExact = true) (hws : ∀ w ∈ ws, w.isExact = true)
    (htext : j.text = k.text)
    : (∃ text, j.text = .ok text)
        ∧
      j.widened = k.widened
        ∧
      (DistinctNames names → j.isMatch k = true ∧ k.isMatch j = true) := by
  obtain ⟨hlength, hj⟩ := create_eq_ok hj
  obtain ⟨hlength', hk⟩ := create_eq_ok hk
  rcases hj with ⟨v, rfl, rfl⟩ | ⟨hmany, rfl⟩
  . rcases hk with ⟨w, rfl, rfl⟩ | ⟨hmany', rfl⟩
    . have hv := hvs v List.mem_cons_self
      have hw := hws w List.mem_cons_self
      have hwidened := widened_eq_of_literal_eq hv hw htext
      obtain ⟨text, hown, _⟩ := exists_literal hv
      refine ⟨⟨text, hown⟩, congrArg Key.single hwidened, ?_⟩
      intro _
      exact ⟨Value.looselyEquals_of_widened_eq hv hwidened,
        Value.looselyEquals_of_widened_eq hw hwidened.symm⟩
    . exact absurd (hlength'.symm.trans hlength) hmany'
  . rcases hk with ⟨w, rfl, rfl⟩ | ⟨_, rfl⟩
    . exact absurd (hlength.symm.trans hlength') hmany
    . have hexact := isExact_of_mem_zip names hvs
      have hexact' := isExact_of_mem_zip names hws
      have hnames : (names.zip vs).map Prod.fst = names := List.map_fst_zip (by omega)
      have hnames' : (names.zip ws).map Prod.fst = names := List.map_fst_zip (by omega)
      have halike := forall₂_partAlike_of_text_eq hexact hexact' (hnames.trans hnames'.symm) htext
      obtain ⟨text, _, hown, _, _⟩ := exists_text hexact
      refine ⟨⟨text, hown⟩, congrArg Key.composite (map_widened_eq halike), ?_⟩
      intro hdistinct
      exact ⟨isMatch_of_partAlike hexact (by rwa [hnames']) halike,
        isMatch_of_partAlike hexact' (by rwa [hnames]) (forall₂_partAlike_symm halike)⟩

/-- Names and values with commas, quotes and equality signs, and integers of different widths. -/
theorem eq_of_text_eq_marks
    : let names := ["a=',", "b"]
      let j := Key.composite [("a=',", .string "x','b=5"), ("b", .int16 (-5))]
      let k := Key.composite [("a=',", .string "x','b=5"), ("b", .sbyte (-5))]
      create names [.string "x','b=5", .int16 (-5)] = .ok j
        ∧
      create names [.string "x','b=5", .sbyte (-5)] = .ok k
        ∧
      j.text = k.text
        ∧
      j.widened = k.widened
        ∧
      DistinctNames names
        ∧
      j.isMatch k = true
        ∧
      k.isMatch j = true := by
  intro names j k
  have hj : create names [.string "x','b=5", .int16 (-5)] = .ok j := rfl
  have hk : create names [.string "x','b=5", .sbyte (-5)] = .ok k := rfl
  have htext : j.text = k.text := rfl
  have hnames : DistinctNames names := by
    unfold DistinctNames
    decide
  obtain ⟨_, hwidened, hmatch⟩ := eq_of_text_eq hj hk (by simp [Value.isExact])
    (by simp [Value.isExact]) htext
  exact ⟨hj, hk, htext, hwidened, hnames, hmatch hnames⟩

end Key

end Edm
