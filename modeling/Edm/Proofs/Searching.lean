import Edm.Expr.Eval
import Edm.Proofs.Integers

/-!
This module contains the laws of functions on texts in expressions. Positions and lengths are
counted in characters by all of them, so what one function finds another one can take out.
-/

namespace Edm

variable {α : Type}

namespace Text

/-- The first occurrence of a text starts where a character does, and has no other one before it. -/
theorem find?_eq_some_iff {needle cs : List Char} {bytes : Nat}
    : find? needle cs = some bytes
        ↔ ∃ n ≤ cs.length, utf8Size (cs.take n) = bytes
            ∧ needle <+: cs.drop n ∧ ∀ m < n, ¬ needle <+: cs.drop m := by
  induction cs generalizing bytes with
  | nil => simp [find?, and_comm]
  | cons c cs ih =>
    rw [find?]
    split
    . next hstart =>
      rw [List.isPrefixOf_iff_prefix] at hstart
      constructor
      . rintro ⟨⟩
        exact ⟨0, Nat.zero_le _, rfl, hstart, nofun⟩
      . rintro ⟨n, -, rfl, -, hfirst⟩
        cases n with
        | zero => rfl
        | succ n => exact absurd hstart (hfirst 0 n.succ_pos)
    . next hstart =>
      rw [List.isPrefixOf_iff_prefix] at hstart
      simp only [Option.map_eq_some_iff, ih]
      constructor
      . rintro ⟨_, ⟨n, hle, rfl, hn, hfirst⟩, rfl⟩
        refine ⟨n + 1, Nat.succ_le_succ hle, utf8Size_cons c _, hn, ?_⟩
        intro m hm
        cases m with
        | zero => exact hstart
        | succ m => exact hfirst m (by omega)
      . rintro ⟨n, hle, rfl, hn, hfirst⟩
        cases n with
        | zero => exact absurd hn hstart
        | succ n =>
          exact ⟨_, ⟨n, Nat.le_of_succ_le_succ hle, rfl, hn,
            fun m hm => hfirst (m + 1) (Nat.succ_lt_succ hm)⟩, (utf8Size_cons c _).symm⟩

theorem takeBytes_utf8Size_take (cs : List Char) (n : Nat)
    : takeBytes (utf8Size (cs.take n)) cs = cs.take n := by
  induction cs generalizing n with
  | nil => rw [List.take_nil, takeBytes]
  | cons c cs ih =>
    cases n with
    | zero =>
      have hpos := c.utf8Size_pos
      rw [List.take_zero, utf8Size_nil, takeBytes, if_neg (by omega)]
    | succ n => rw [List.take_succ_cons, utf8Size_cons, takeBytes, if_pos (Nat.le_add_right _ _),
        Nat.add_sub_cancel_left, ih]

theorem indexOf?_eq_some_iff {needle cs : List Char} {n : Nat}
    : indexOf? needle cs = some n
        ↔ n ≤ cs.length ∧ needle <+: cs.drop n ∧ ∀ m < n, ¬ needle <+: cs.drop m := by
  unfold indexOf?
  simp only [Option.map_eq_some_iff, find?_eq_some_iff]
  constructor
  . rintro ⟨_, ⟨k, hle, rfl, hk, hfirst⟩, rfl⟩
    rw [takeBytes_utf8Size_take, List.length_take_of_le hle]
    exact ⟨hle, hk, hfirst⟩
  . rintro ⟨hle, hn, hfirst⟩
    refine ⟨_, ⟨n, hle, rfl, hn, hfirst⟩, ?_⟩
    rw [takeBytes_utf8Size_take, List.length_take_of_le hle]

theorem contains_eq {needle cs : List Char} : contains needle cs = (indexOf? needle cs).isSome := by
  rw [contains, indexOf?, Option.isSome_map]

theorem indexOf?_eq_zero_iff {needle cs : List Char}
    : indexOf? needle cs = some 0 ↔ needle <+: cs := by
  simp [indexOf?_eq_some_iff]

theorem le_length_of_indexOf? {needle cs : List Char} {n : Nat} (h : indexOf? needle cs = some n)
    : n ≤ cs.length :=
  (indexOf?_eq_some_iff.mp h).1

end Text

namespace Expr

theorem isNull_string (s : String) : (Value.string s).isNull = false := rfl

theorem index_eq (f : Builtin) {v : Value} {bits n : Nat} (h : v.IsInteger bits n)
    : index f v = .ok n := by
  rw [index, h.integer?_eq]
  simp [toInt_ofInt_of_fitsIn h.fitsIn_64]

theorem isInteger_ofCount {n : Nat} (h : n < 2 ^ 63)
    : (ofCount n).IsInteger (resultBits 32 n) n := by
  have hfits : FitsIn 64 n := by
    rw [fitsIn_64_iff]
    omega
  have hvalue : (Numeric.integerValue (decide (32 ≤ 32)) (.ofInt n)).IsInteger _ _ :=
    Numeric.isInteger_integerValue hfits
  exact hvalue

section

variable (resolve : Shape → Option (Accessor α)) (r : Record α)

def IsNumber (e : Expr) (n : Int) : Prop :=
  ∃ v bits, evaluate resolve r e = .ok v ∧ v.IsInteger bits n

def IsText (e : Expr) (s : String) : Prop := evaluate resolve r e = .ok (.string s)

def IsTruth (e : Expr) (b : Bool) : Prop := evaluate resolve r e = .ok (.boolean b)

/-- What `y` stands for is first found in `x` at a position, or nowhere if it is negative. -/
structure IsFirst (x y : Expr) (t : String) (i : Int) : Prop where
  indexof : IsNumber resolve r (.call .indexof [x, y]) i
  found : IsTruth resolve r (.call .substringof [y, x]) (decide (0 ≤ i))
  starts : IsTruth resolve r (.call .startswith [x, y]) (decide (i = 0))
  taken : 0 ≤ i →
    IsText resolve r (.call .substring [x, .call .indexof [x, y], .call .length [y]]) t
  first : ∀ e j, IsNumber resolve r e j → 0 ≤ j → j < i →
    ∃ u, IsText resolve r (.call .substring [x, e, .call .length [y]]) u ∧ u ≠ t

end

section

variable {resolve : Shape → Option (Accessor α)} {r : Record α} {x y e k : Expr} {s t : String}
  {n m : Nat}

theorem evaluateAll_eq {args : List Expr} {vs : List Value}
    (h : List.Forall₂ (fun e v => evaluate resolve r e = .ok v) args vs)
    : evaluateAll resolve r args = .ok vs := by
  induction h with
  | nil => rw [evaluateAll]
  | cons he _ ih =>
    rw [evaluateAll, he, ok_bind, ih]
    rfl

theorem evaluate_call {f : Builtin} {args : List Expr} {vs : List Value}
    (hargs : List.Forall₂ (fun e v => evaluate resolve r e = .ok v) args vs)
    (harity : f.arity.1 ≤ args.length ∧ args.length ≤ f.arity.2)
    (hnull : ∀ v ∈ vs, v.isNull = false)
    : evaluate resolve r (.call f args) = callFunction f vs := by
  rw [evaluate]
  dsimp only
  have hany : vs.any (·.isNull) = false := List.any_eq_false.mpr (by simpa using hnull)
  rw [if_neg (by omega), evaluateAll_eq hargs, ok_bind, hany]
  rfl

theorem evaluate_call_texts {f : Builtin} (hx : IsText resolve r x s) (hy : IsText resolve r y t)
    (harity : f.arity = (2, 2))
    : evaluate resolve r (.call f [x, y]) = callFunction f [.string s, .string t] := by
  apply evaluate_call (.cons hx (.cons hy .nil))
  . simp [harity]
  . simp [isNull_string]

theorem isTruth_substringof (hy : IsText resolve r y t) (hx : IsText resolve r x s)
    : IsTruth resolve r (.call .substringof [y, x]) (Text.contains t.toList s.toList) :=
  evaluate_call_texts hy hx rfl

theorem isTruth_startswith (hx : IsText resolve r x s) (hy : IsText resolve r y t)
    : IsTruth resolve r (.call .startswith [x, y]) (t.toList.isPrefixOf s.toList) :=
  evaluate_call_texts hx hy rfl

theorem isTruth_endswith (hx : IsText resolve r x s) (hy : IsText resolve r y t)
    : IsTruth resolve r (.call .endswith [x, y]) (t.toList.isSuffixOf s.toList) :=
  evaluate_call_texts hx hy rfl

theorem isText_concat (hx : IsText resolve r x s) (hy : IsText resolve r y t)
    : IsText resolve r (.call .concat [x, y]) (s ++ t) := by
  have happend : String.ofList (s.toList ++ t.toList) = s ++ t := by
    rw [← String.toList_append, String.ofList_toList]
  rw [IsText, evaluate_call_texts hx hy rfl, ← happend]
  rfl

theorem isNumber_length (hx : IsText resolve r x s) (hs : s.length < 2 ^ 63)
    : IsNumber resolve r (.call .length [x]) s.length := by
  refine ⟨_, _, ?_, isInteger_ofCount hs⟩
  apply evaluate_call (.cons hx .nil)
  . simp [Builtin.arity]
  . simp [isNull_string]

theorem isNumber_indexof_of_some (hx : IsText resolve r x s) (hy : IsText resolve r y t)
    (hs : s.length < 2 ^ 63) (hn : Text.indexOf? t.toList s.toList = some n)
    : IsNumber resolve r (.call .indexof [x, y]) n := by
  have hle := Text.le_length_of_indexOf? hn
  rw [String.length_toList] at hle
  refine ⟨_, _, ?_, isInteger_ofCount (by omega)⟩
  rw [evaluate_call_texts hx hy rfl]
  simp [callFunction, text, hn]
  rfl

theorem isNumber_indexof_of_none (hx : IsText resolve r x s) (hy : IsText resolve r y t)
    (hnone : Text.indexOf? t.toList s.toList = none)
    : IsNumber resolve r (.call .indexof [x, y]) (-1) := by
  refine ⟨.int32 (-1), 32, ?_, .int32 _⟩
  rw [evaluate_call_texts hx hy rfl]
  simp [callFunction, text, hnone]
  rfl

theorem isText_substring (hx : IsText resolve r x s) (he : IsNumber resolve r e n)
    : IsText resolve r (.call .substring [x, e]) (.ofList (s.toList.drop n)) := by
  obtain ⟨v, bits, he, hv⟩ := he
  rw [IsText, evaluate_call (.cons hx (.cons he .nil))]
  . simp [callFunction, text, index_eq _ hv]
    rfl
  . simp [Builtin.arity]
  . simp [isNull_string, hv.isNull_eq]

theorem isText_substring_count (hx : IsText resolve r x s) (he : IsNumber resolve r e n)
    (hk : IsNumber resolve r k m)
    : IsText resolve r (.call .substring [x, e, k]) (.ofList ((s.toList.drop n).take m)) := by
  obtain ⟨v, bits, he, hv⟩ := he
  obtain ⟨w, bits', hk, hw⟩ := hk
  rw [IsText, evaluate_call (.cons hx (.cons he (.cons hk .nil)))]
  . simp [callFunction, text, index_eq _ hv, index_eq _ hw]
    rfl
  . simp [Builtin.arity]
  . simp [isNull_string, hv.isNull_eq, hw.isNull_eq]

theorem ofList_take_eq_iff
    : String.ofList ((s.toList.drop n).take t.length) = t ↔ t.toList <+: s.toList.drop n := by
  rw [← String.toList_inj, String.toList_ofList, ← String.length_toList,
    List.prefix_iff_eq_take]
  exact eq_comm

theorem isFirst_of_some (hx : IsText resolve r x s) (hy : IsText resolve r y t)
    (hs : s.length < 2 ^ 63) (hn : Text.indexOf? t.toList s.toList = some n)
    : IsFirst resolve r x y t n := by
  obtain ⟨-, hoccurs, hfirst⟩ := Text.indexOf?_eq_some_iff.mp hn
  have hindexof := isNumber_indexof_of_some hx hy hs hn
  have hlength : IsNumber resolve r (.call .length [y]) t.length := by
    have hle := hoccurs.length_le
    rw [List.length_drop, String.length_toList, String.length_toList] at hle
    exact isNumber_length hy (by omega)
  constructor
  . exact hindexof
  . have hfound := isTruth_substringof hy hx
    rwa [Text.contains_eq, hn] at hfound
  . have hstarts := isTruth_startswith hx hy
    have hzero : t.toList.isPrefixOf s.toList = decide ((n : Int) = 0) := by
      rw [Bool.eq_iff_iff, List.isPrefixOf_iff_prefix, ← Text.indexOf?_eq_zero_iff, hn]
      simp
    rwa [hzero] at hstarts
  . intro _
    have htaken := isText_substring_count hx hindexof hlength
    rwa [ofList_take_eq_iff.mpr hoccurs] at htaken
  . intro e j he hj hlt
    obtain ⟨j, rfl⟩ := Int.eq_ofNat_of_zero_le hj
    refine ⟨_, isText_substring_count hx he hlength, ?_⟩
    rw [Ne, ofList_take_eq_iff]
    exact hfirst j (by omega)

theorem isFirst_of_none (hx : IsText resolve r x s) (hy : IsText resolve r y t)
    (hnone : Text.indexOf? t.toList s.toList = none) : IsFirst resolve r x y t (-1) := by
  constructor
  . exact isNumber_indexof_of_none hx hy hnone
  . have hfound := isTruth_substringof hy hx
    rwa [Text.contains_eq, hnone] at hfound
  . have hstarts := isTruth_startswith hx hy
    have hne : t.toList.isPrefixOf s.toList = false := by
      rw [Bool.eq_false_iff, Ne, List.isPrefixOf_iff_prefix, ← Text.indexOf?_eq_zero_iff, hnone]
      simp
    rwa [hne] at hstarts
  . simp
  . intro e j he hj hlt
    omega

theorem isText_concat_substrings (hx : IsText resolve r x s) (he : IsNumber resolve r e n)
    (hk : IsNumber resolve r k 0)
    : IsText resolve r (.call .concat [.call .substring [x, k, e], .call .substring [x, e]]) s := by
  have hparts := isText_concat (isText_substring_count hx hk he) (isText_substring hx he)
  rwa [← String.ofList_append, List.drop_zero, List.take_append_drop, String.ofList_toList]
    at hparts

theorem isTruth_endswith_concat (hx : IsText resolve r x s) (hy : IsText resolve r y t)
    : IsTruth resolve r (.call .endswith [.call .concat [x, y], y]) true := by
  have hends := isTruth_endswith (isText_concat hx hy) hy
  rwa [String.toList_append, List.isSuffixOf_iff_suffix.mpr (List.suffix_append _ _)] at hends

theorem isTruth_startswith_concat (hx : IsText resolve r x s) (hy : IsText resolve r y t)
    : IsTruth resolve r (.call .startswith [.call .concat [x, y], x]) true := by
  have hstarts := isTruth_startswith (isText_concat hx hy) hx
  rwa [String.toList_append, List.isPrefixOf_iff_prefix.mpr (List.prefix_append _ _)] at hstarts

/--
The functions on texts agree with each other. The number of characters of a text is bounded only
because sizes are numbers of 64 bits.
-/
theorem evaluate_texts (hx : IsText resolve r x s) (hy : IsText resolve r y t)
    (hs : s.length < 2 ^ 63)
    : (∃ i, IsFirst resolve r x y t i)
      ∧ (∀ e k n, IsNumber resolve r e n → 0 ≤ n → IsNumber resolve r k 0 →
          IsText resolve r
            (.call .concat [.call .substring [x, k, e], .call .substring [x, e]]) s)
      ∧ (s.length + t.length < 2 ^ 63 → ∃ m n,
          IsNumber resolve r (.call .length [x]) m
          ∧ IsNumber resolve r (.call .length [y]) n
          ∧ IsNumber resolve r (.call .length [.call .concat [x, y]]) (m + n))
      ∧ IsTruth resolve r (.call .endswith [.call .concat [x, y], y]) true
      ∧ IsTruth resolve r (.call .startswith [.call .concat [x, y], x]) true := by
  refine ⟨?_, ?_, ?_, isTruth_endswith_concat hx hy, isTruth_startswith_concat hx hy⟩
  . cases hindex : Text.indexOf? t.toList s.toList with
    | none => exact ⟨_, isFirst_of_none hx hy hindex⟩
    | some i => exact ⟨_, isFirst_of_some hx hy hs hindex⟩
  . intro e k n he hn hk
    obtain ⟨n, rfl⟩ := Int.eq_ofNat_of_zero_le hn
    exact isText_concat_substrings hx he hk
  . intro hsum
    refine ⟨_, _, isNumber_length hx hs, isNumber_length hy (by omega), ?_⟩
    have hlength := isNumber_length (isText_concat hx hy) (by rwa [String.length_append])
    rwa [String.length_append, Int.natCast_add] at hlength

end

namespace Accents

def phrase : Expr := .literal (.string "aé€𝄞é€")

def euro : Expr := .literal (.string "€")

/-- The text is found behind two characters, which have three bytes. -/
theorem evaluate_texts_euro
    : IsFirst Extremes.resolve Extremes.empty phrase euro "€" 2
      ∧ IsText Extremes.resolve Extremes.empty
          (.call .concat [.call .substring [phrase, .literal (.int32 0), .literal (.byte 4)],
            .call .substring [phrase, .literal (.byte 4)]])
          "aé€𝄞é€" := by
  have hphrase : IsText Extremes.resolve Extremes.empty phrase "aé€𝄞é€" := rfl
  have heuro : IsText Extremes.resolve Extremes.empty euro "€" := rfl
  obtain ⟨⟨i, hfirst⟩, hparts, -⟩ := evaluate_texts hphrase heuro (by decide)
  have hindexof : evaluate Extremes.resolve Extremes.empty (.call .indexof [phrase, euro])
      = .ok (.int32 2) := rfl
  obtain rfl : i = 2 := by
    obtain ⟨v, bits, hv, hi⟩ := hfirst.indexof
    rw [hindexof] at hv
    cases hv
    cases hi
    rfl
  exact ⟨hfirst, hparts _ _ 4 ⟨_, _, rfl, .byte 4⟩ (by decide) ⟨_, _, rfl, .int32 0⟩⟩

end Accents

end Expr

end Edm
