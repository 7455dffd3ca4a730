import Edm.Proofs.Tokens

/-!
This module contains the places of tokens. The tokens of a text are slices of it that follow each
other, with nothing but white space outside of them, and there are tokens exactly if every quote is
closed.
-/

namespace Edm

def Text.StandsAt (text found : String) (offset : Nat) : Prop :=
  ∃ before after : String, text = before ++ found ++ after ∧ before.utf8ByteSize = offset

namespace Expr

open Text (StandsAt)

/-- Characters that stand for themselves and closed sections in quotes, which hold any others. -/
inductive Sectioned : List Char → Prop where
  | nil : Sectioned []
  | plain {c : Char} {cs : List Char} (hblank : Text.isBlank c = false)
      (hmark : c ∉ ['\'', '(', ')', ',']) (h : Sectioned cs) : Sectioned (c :: cs)
  | quoted {inner cs : List Char} (hinner : '\'' ∉ inner) (h : Sectioned cs)
      : Sectioned ('\'' :: (inner ++ '\'' :: cs))

/-- The tokens of a text tell all of it but for white space, and no word ends before it has to. -/
structure Lossless (text : String) (ls : List Lexeme) : Prop where
  stands : ∀ l ∈ ls, StandsAt text l.token.text l.offset
  ended : ∀ l ∈ ls, ∀ word, l.token = .word word → ∃ before after : String,
    text = before ++ word ++ after ∧ before.utf8ByteSize = l.offset ∧ Delimited after.toList
  ne_empty : ∀ l ∈ ls, l.token.text ≠ ""
  ordered : ls.Pairwise fun l m => l.offset < m.offset ∧ l.finish ≤ m.offset
  blank : ∀ {before after : String} {c : Char}, text = before ++ .singleton c ++ after →
    (∀ l ∈ ls, before.utf8ByteSize < l.offset ∨ l.finish ≤ before.utf8ByteSize) →
    Text.isBlank c = true
  sectioned : ∀ l ∈ ls, ∀ word, l.token = .word word → Sectioned word.toList

/-! ### Words -/

theorem not_mem_of_isDelimiter {c : Char} (h : isDelimiter c = false)
    : Text.isBlank c = false ∧ c ∉ ['(', ')', ','] := by
  obtain ⟨hblank, hmark⟩ := isDelimiter_eq_false_iff.mp h
  refine ⟨hblank, ?_⟩
  simp only [List.mem_cons, List.not_mem_nil, or_false]
  rintro (rfl | rfl | rfl)
  . cases hmark
  . cases hmark
  . cases hmark

theorem sectioned_of_isWord {cs : List Char} {quoted : Bool} (h : isWord quoted cs = true)
    : if quoted then ∃ inner rest, cs = inner ++ '\'' :: rest ∧ '\'' ∉ inner ∧ Sectioned rest
      else Sectioned cs := by
  induction cs generalizing quoted with
  | nil =>
    obtain rfl : quoted = false := by simpa [isWord] using h
    exact .nil
  | cons c cs ih =>
    obtain ⟨hc, h⟩ := isWord_cons.mp h
    have hrest := ih h
    by_cases hquote : c = '\''
    . subst hquote
      cases quoted with
      | true => exact ⟨[], cs, rfl, by simp, hrest⟩
      | false =>
        obtain ⟨inner, rest, rfl, hinner, hrest⟩ := hrest
        exact .quoted hinner hrest
    . rw [if_neg hquote] at hrest
      cases quoted with
      | true =>
        obtain ⟨inner, rest, rfl, hinner, hrest⟩ := hrest
        exact ⟨c :: inner, rest, rfl, by simp [Ne.symm hquote, hinner], hrest⟩
      | false =>
        obtain ⟨hblank, hmark⟩ := not_mem_of_isDelimiter (hc.resolve_left Bool.false_ne_true)
        exact .plain hblank (by simpa [hquote] using hmark) hrest

/-! ### Places -/

theorem Lexeme.offset_lt_finish {l : Lexeme} (h : l.token.text ≠ "") : l.offset < l.finish := by
  have hsize : l.token.text.utf8ByteSize ≠ 0 := by
    rwa [Ne, String.utf8ByteSize_eq_zero_iff]
  unfold finish
  omega

namespace LexesAt

variable {offset : Nat} {cs : List Char} {ls : List Lexeme}

theorem isWord_of_mem (h : LexesAt offset cs ls)
    : ∀ l ∈ ls, l.token.text ≠ "" ∧ ∀ word, l.token = .word word → isWord false word.toList = true
    := by
  induction h with
  | nil => nofun
  | blank _ _ ih => exact ih
  | token hne hword _ ih =>
    exact List.forall_mem_cons.mpr ⟨⟨hne, fun word hw => (hword word hw).1⟩, ih⟩

theorem le_offset (h : LexesAt offset cs ls) : ∀ l ∈ ls, offset ≤ l.offset := by
  induction h with
  | nil => nofun
  | blank _ _ ih =>
    intro l hl
    exact Nat.le_of_add_right_le (ih l hl)
  | token hne _ _ ih =>
    rw [List.forall_mem_cons]
    refine ⟨Nat.le_refl _, ?_⟩
    intro m hm
    exact Nat.le_trans (Nat.le_add_right _ _) (ih m hm)

theorem pairwise (h : LexesAt offset cs ls)
    : ls.Pairwise fun l m => l.offset < m.offset ∧ l.finish ≤ m.offset := by
  induction h with
  | nil => exact .nil
  | blank _ _ ih => exact ih
  | token hne _ h ih =>
    refine .cons ?_ ih
    intro m hm
    have hle := h.le_offset m hm
    exact ⟨Nat.lt_of_lt_of_le (Lexeme.offset_lt_finish hne) hle, hle⟩

theorem exists_append (h : LexesAt offset cs ls)
    : ∀ l ∈ ls, ∃ before after,
        cs = before ++ l.token.text.toList ++ after
          ∧ offset + Text.utf8Size before = l.offset
          ∧ ∀ word, l.token = .word word → Delimited after := by
  induction h with
  | nil => nofun
  | @blank offset c cs ls _ _ ih =>
    intro l hl
    obtain ⟨before, after, rfl, hoffset, hend⟩ := ih l hl
    refine ⟨c :: before, after, rfl, ?_, hend⟩
    rw [Text.utf8Size_cons, ← hoffset]
    omega
  | @token l cs ls _ hword _ ih =>
    rw [List.forall_mem_cons]
    refine ⟨⟨[], cs, rfl, rfl, fun word hw => (hword word hw).2⟩, ?_⟩
    intro m hm
    obtain ⟨before, after, rfl, hoffset, hend⟩ := ih m hm
    refine ⟨l.token.text.toList ++ before, after, by simp, ?_, hend⟩
    rw [Text.utf8Size_append, Text.utf8Size_toList, ← hoffset, Lexeme.finish]
    omega

theorem isBlank_outside (h : LexesAt offset cs ls) {before after : List Char} {c : Char}
    (hcs : cs = before ++ c :: after)
    (houtside : ∀ l ∈ ls,
      offset + Text.utf8Size before < l.offset ∨ l.finish ≤ offset + Text.utf8Size before)
    : Text.isBlank c = true := by
  induction h generalizing before with
  | nil => simp at hcs
  | @blank offset d cs ls hd _ ih =>
    cases before with
    | nil =>
      cases hcs
      exact hd
    | cons e before =>
      cases hcs
      apply ih rfl
      intro l hl
      have hl := houtside l hl
      rw [Text.utf8Size_cons] at hl
      omega
  | @token l cs ls _ _ _ ih =>
    rw [List.forall_mem_cons] at houtside
    obtain ⟨hl, houtside⟩ := houtside
    -- The character stands behind the token, for its place is not in it.
    have hfinish : l.finish = l.offset + Text.utf8Size l.token.text.toList := by
      rw [Text.utf8Size_toList, Lexeme.finish]
    rcases List.append_eq_append_iff.mp hcs with ⟨before, rfl, hrest⟩ | ⟨inner, hinner, hrest⟩
    . apply ih hrest
      intro m hm
      have hm := houtside m hm
      rw [Text.utf8Size_append] at hm
      omega
    . rw [hinner, Text.utf8Size_append] at hfinish
      cases inner with
      | nil =>
        have hnil : cs = [] ++ c :: after := hrest.symm
        apply ih hnil
        intro m hm
        have hm := houtside m hm
        rw [Text.utf8Size_nil] at hfinish ⊢
        omega
      | cons d inner =>
        have := d.utf8Size_pos
        rw [Text.utf8Size_cons] at hfinish
        omega

end LexesAt

/-! ### Quotes -/

/-- The number of quotes that are open in the word that is being read. -/
def openQuotes : Option OpenWord → Nat
  | none => 0
  | some w => if w.quoted then 1 else 0

theorem count_push (w : OpenWord) (c : Char) (cs : List Char)
    : ((c :: cs).count '\'' + openQuotes (some w)) % 2
        = (cs.count '\'' + openQuotes (some (w.push c))) % 2 := by
  obtain ⟨offset, reversed, quoted⟩ := w
  by_cases hquote : c = '\''
  . subst hquote
    rw [List.count_cons_self]
    cases quoted with
    | true =>
      change (cs.count '\'' + 1 + 1) % 2 = cs.count '\'' % 2
      omega
    | false => rfl
  . rw [List.count_cons_of_ne hquote]
    simp [openQuotes, OpenWord.push, hquote]

theorem count_delimiter {c : Char} (cs : List Char) (h : isDelimiter c = true)
    : (c :: cs).count '\'' = cs.count '\'' := by
  apply List.count_cons_of_ne
  rintro rfl
  cases h

theorem exists_go_eq_ok_iff {read : List Lexeme} {offset : Nat} {word : Option OpenWord}
    {cs : List Char}
    : (∃ ls, tokens.go read offset word cs = .ok ls)
        ↔ (cs.count '\'' + openQuotes word) % 2 = 0 := by
  fun_induction tokens.go read offset word cs with
  | case1 => simp [openQuotes]
  | case2 read offset w hquoted => simp [openQuotes, hquoted]
  | case3 read offset w hquoted => simp [openQuotes, hquoted]
  | case4 read offset c cs next w hquoted ih => rw [ih, count_push]
  | case5 read offset c cs next w hquoted hblank ih =>
    rw [ih, count_delimiter cs (by simp [isDelimiter, hblank])]
    simp [openQuotes, hquoted]
  | case6 read offset c cs next w hquoted hblank t hmark ih =>
    rw [ih, count_delimiter cs (by simp [isDelimiter, hmark])]
    simp [openQuotes, hquoted]
  | case7 read offset c cs next w hquoted hblank hmark ih => rw [ih, count_push]
  | case8 read offset c cs next hblank ih =>
    rw [ih, count_delimiter cs (by simp [isDelimiter, hblank])]
  | case9 read offset c cs next hblank t hmark ih =>
    rw [ih, count_delimiter cs (by simp [isDelimiter, hmark])]
  | case10 read offset c cs next hblank hmark ih =>
    rw [ih, ← count_push]
    rfl

/-! ### Texts and their tokens -/

theorem exists_append_of_tokens {text : String} {ls : List Lexeme} (h : tokens text = .ok ls)
    {l : Lexeme} (hl : l ∈ ls)
    : ∃ before after : String,
        text = before ++ l.token.text ++ after
          ∧ before.utf8ByteSize = l.offset
          ∧ ∀ word, l.token = .word word → Delimited after.toList := by
  obtain ⟨before, after, happend, hoffset, hend⟩ := (lexesAt_of_tokens h).exists_append l hl
  refine ⟨.ofList before, .ofList after, ?_, ?_, by rwa [String.toList_ofList]⟩
  . apply String.toList_inj.mp
    simpa using happend
  . rw [← Text.utf8Size_toList, String.toList_ofList, ← hoffset, Nat.zero_add]

theorem standsAt_of_tokens {text : String} {ls : List Lexeme} (h : tokens text = .ok ls)
    {l : Lexeme} (hl : l ∈ ls) : StandsAt text l.token.text l.offset := by
  obtain ⟨before, after, htext, hoffset, _⟩ := exists_append_of_tokens h hl
  exact ⟨before, after, htext, hoffset⟩

/--
Reading the tokens of a text fails exactly if the number of its quotes is odd. Otherwise the tokens
are slices of the text, one behind the other, and all that stands outside of them is white space.
-/
theorem tokens_lossless (text : String)
    : ((∃ fault, tokens text = .error fault) ↔ text.toList.count '\'' % 2 = 1)
        ∧
      ∀ ls, tokens text = .ok ls → Lossless text ls := by
  refine ⟨?_, ?_⟩
  . have hok : (∃ ls, tokens text = .ok ls) ↔ text.toList.count '\'' % 2 = 0 := exists_go_eq_ok_iff
    have herror : (∃ fault, tokens text = .error fault) ↔ ¬ ∃ ls, tokens text = .ok ls := by
      cases tokens text with
      | ok ls => simp
      | error fault => simp
    rw [herror, hok]
    omega
  intro ls h
  have hlexes := lexesAt_of_tokens h
  constructor
  case stands =>
    intro l hl
    exact standsAt_of_tokens h hl
  case ended =>
    intro l hl word hword
    obtain ⟨before, after, htext, hoffset, hend⟩ := exists_append_of_tokens h hl
    rw [hword] at htext
    exact ⟨before, after, htext, hoffset, hend word hword⟩
  case ne_empty =>
    intro l hl
    exact (hlexes.isWord_of_mem l hl).1
  case ordered => exact hlexes.pairwise
  case blank =>
    intro before after c htext houtside
    have hchars : text.toList = before.toList ++ c :: after.toList := by simp [htext]
    apply hlexes.isBlank_outside hchars
    intro l hl
    rw [Text.utf8Size_toList, Nat.zero_add]
    exact houtside l hl
  case sectioned =>
    intro l hl word hword
    exact sectioned_of_isWord ((hlexes.isWord_of_mem l hl).2 word hword)

/-- A word of two bytes, and another one with a blank, a parenthesis and a comma in its quotes. -/
theorem tokens_lossless_quotes
    : ∃ ls,
        tokens "(é eq 'a, (b''c')" = .ok ls
          ∧
        ls
            = [⟨.opening, 0⟩, ⟨.word "é", 1⟩, ⟨.word "eq", 4⟩, ⟨.word "'a, (b''c'", 7⟩,
              ⟨.closing, 17⟩]
          ∧
        Lossless "(é eq 'a, (b''c')" ls :=
  ⟨_, rfl, rfl, (tokens_lossless _).2 _ rfl⟩

end Expr

end Edm
