import Edm.Expr.Parser
import Edm.Proofs.Outcome
import Edm.Proofs.Spans

/-!
This module contains the places that are told with what is unexpected. In an expression it is the
number of bytes before the token, which stands there. In an ordering it is only the number of the
part that holds the word.
-/

namespace Edm

open Edm.Expr (Lexeme SyntaxFault)

namespace Expr

/-! ### Tokens that are left -/

/-- The faults in which nothing else than one of the tokens is unexpected. -/
inductive Located (ls : List Lexeme) : SyntaxFault → Prop where
  | unexpected {l : Lexeme} (h : l ∈ ls) : Located ls (.ofLexeme l)
  | unexpectedEnd : Located ls .unexpectedEnd
  | unknownFunction (name : String) : Located ls (.unknownFunction name)
  | literal (fault : Literal.Fault) : Located ls (.literal fault)

theorem Located.mono {ls ls' : List Lexeme} {fault : SyntaxFault} (h : Located ls fault)
    (hls : ls <:+ ls') : Located ls' fault := by
  cases h with
  | unexpected h => exact .unexpected (hls.mem h)
  | unexpectedEnd => exact .unexpectedEnd
  | unknownFunction name => exact .unknownFunction name
  | literal fault => exact .literal fault

/-- What is read is the beginning of the tokens, and what is unexpected is one of them. -/
structure Within {α : Type} {n : Nat} (ls : List Lexeme) (x : Shorter α n) : Prop where
  suffix : ∀ {a rest h}, x = .ok (a, ⟨rest, h⟩) → rest <:+ ls
  located : FailsWith (Located ls) x

namespace Within

variable {α β : Type} {m n : Nat} {ls ts : List Lexeme} {x : Shorter α m}

theorem ok {a : α} {rest : List Lexeme} {h : rest.length < n} (hrest : rest <:+ ls)
    : Within ls (.ok (a, ⟨rest, h⟩) : Shorter α n) := by
  constructor
  . rintro _ _ _ ⟨⟩
    exact hrest
  . exact failsWith_ok _

theorem error {fault : SyntaxFault} (h : Located ls fault)
    : Within ls (.error fault : Shorter α n) :=
  ⟨nofun, failsWith_error.mpr h⟩

theorem failed (h : Within ts x) (hts : ts <:+ ls) {fault : SyntaxFault} (hx : x = .error fault)
    : Within ls (.error fault : Shorter β n) :=
  error ((h.located fault hx).mono hts)

theorem passed (h : Within ts x) (hts : ts <:+ ls) {a : α} {rest : List Lexeme}
    {hrest : rest.length < m} (hx : x = .ok (a, ⟨rest, hrest⟩)) : rest <:+ ls :=
  (h.suffix hx).trans hts

end Within

theorem within_closing (ls : List Lexeme) : Within ls (closing ls) := by
  unfold closing
  split
  . exact .error .unexpectedEnd
  . split
    . exact .ok (List.suffix_cons _ _)
    . exact .error (.unexpected List.mem_cons_self)

theorem within_separator (ls : List Lexeme) : Within ls (separator ls) := by
  unfold separator
  split
  . exact .error .unexpectedEnd
  . split
    . exact .ok (List.suffix_cons _ _)
    . exact .ok (List.suffix_cons _ _)
    . exact .error (.unexpected List.mem_cons_self)

theorem ofWord_failsWith (word : String) (offset : Nat) (ls : List Lexeme)
    : FailsWith (Located (⟨.word word, offset⟩ :: ls)) (ofWord word offset) := by
  unfold ofWord
  split
  . have hmem : ⟨.word word, offset⟩ ∈ Lexeme.mk (.word word) offset :: ls := List.mem_cons_self
    exact failsWith_error.mpr (.unexpected hmem)
  . split
    . split
      . apply failsWith_ok
      . exact failsWith_error.mpr (.literal _)
    . apply failsWith_ok

mutual

theorem within_operand (ls : List Lexeme) : Within ls (operand ls) := by
  rw [operand.eq_def]
  split
  . exact .error .unexpectedEnd
  . split
    . next hread => exact (within_operand _).failed (List.suffix_cons _ _) hread
    . next hread => exact .ok ((within_operand _).passed (List.suffix_cons _ _) hread)
  . split
    . next hread => exact (within_operand _).failed (List.suffix_cons _ _) hread
    . next hread => exact .ok ((within_operand _).passed (List.suffix_cons _ _) hread)
  . next offset ts =>
    have hts := List.suffix_cons ⟨.opening, offset⟩ ts
    split
    . next hread => exact (within_operation 0 _).failed hts hread
    . next hread =>
      have hrest := (within_operation 0 _).passed hts hread
      split
      . next hclosing => exact (within_closing _).failed hrest hclosing
      . next hclosing => exact .ok ((within_closing _).passed hrest hclosing)
  . next word offset offset' ts hnot hneg =>
    have hts : ts <:+ ⟨.word word, offset⟩ :: ⟨.opening, offset'⟩ :: ts :=
      (List.suffix_cons _ _).trans (List.suffix_cons _ _)
    split
    . exact .error (.unknownFunction _)
    . split
      . exact .error .unexpectedEnd
      . exact .ok ((List.suffix_cons _ _).trans hts)
      . split
        . next hargs => exact (within_arguments _).failed hts hargs
        . next hargs => exact .ok ((within_arguments _).passed hts hargs)
  . split
    . next hword => exact .error (ofWord_failsWith _ _ _ _ hword)
    . exact .ok (List.suffix_cons _ _)
  . exact .error (.unexpected List.mem_cons_self)
termination_by (ls.length, 0)

theorem within_operation (level : Nat) (ls : List Lexeme) : Within ls (operation level ls) := by
  rw [operation.eq_def]
  split
  . next hlhs => exact (within_operand _).failed (List.suffix_refl _) hlhs
  . next hlhs =>
    have hrest := (within_operand _).suffix hlhs
    split
    . next hread => exact (within_operators level _ _).failed hrest hread
    . next hread => exact .ok ((within_operators level _ _).passed hrest hread)
termination_by (ls.length, 1)

theorem within_operators (level : Nat) (lhs : Expr) (ls : List Lexeme)
    : Within ls (operators level lhs ls) := by
  rw [operators.eq_def]
  split
  . next word offset ts =>
    have hts := List.suffix_cons ⟨.word word, offset⟩ ts
    split
    . exact .ok (List.suffix_refl _)
    . split
      . next hrhs => exact (within_operation _ _).failed hts hrhs
      . next rhs rest hlt hrhs =>
        have hshorter : rest.length < _ := Nat.lt_succ_of_lt hlt
        have hrest := (within_operation _ _).passed hts hrhs
        split
        . next hread => exact (within_operators level _ _).failed hrest hread
        . next hread => exact .ok ((within_operators level _ _).passed hrest hread)
  . exact .ok (List.suffix_refl _)
termination_by (ls.length, 2)

theorem within_arguments (ls : List Lexeme) : Within ls (arguments ls) := by
  rw [arguments.eq_def]
  split
  . next hread => exact (within_operation 0 _).failed (List.suffix_refl _) hread
  . next hread =>
    have hrest := (within_operation 0 _).suffix hread
    split
    . next hseparator => exact (within_separator _).failed hrest hseparator
    . next hseparator => exact .ok ((within_separator _).passed hrest hseparator)
    . next hseparator =>
      have hnext := (within_separator _).passed hrest hseparator
      split
      . next hargs => exact (within_arguments _).failed hnext hargs
      . next hargs => exact .ok ((within_arguments _).passed hnext hargs)
termination_by (ls.length, 3)

end

/-! ### Expressions -/

theorem go_failsWith (read : List Lexeme) (offset : Nat) (word : Option OpenWord) (cs : List Char)
    : FailsWith (fun fault => ∃ cause, fault = .literal cause) (tokens.go read offset word cs) := by
  fun_induction tokens.go read offset word cs
  case case1 => apply failsWith_ok
  case case2 => exact failsWith_error.mpr ⟨_, rfl⟩
  case case3 => apply failsWith_ok
  all_goals assumption

theorem located_of_parse {text : String} {fault : SyntaxFault} (h : parse text = .error fault)
    : (∃ cause, fault = .literal cause) ∨ ∃ ls, tokens text = .ok ls ∧ Located ls fault := by
  unfold parse at h
  cases htokens : tokens text with
  | error fault' =>
    rw [htokens] at h
    cases h
    exact .inl (go_failsWith _ _ _ _ _ htokens)
  | ok ls =>
    rw [htokens, ok_bind] at h
    refine .inr ⟨ls, rfl, ?_⟩
    split at h
    . next hread =>
      cases h
      exact (within_operation 0 ls).located _ hread
    . cases h
    . next hread =>
      cases h
      apply Located.unexpected
      exact ((within_operation 0 ls).suffix hread).mem List.mem_cons_self

theorem standsAt_of_parse {text found : String} {offset : Nat}
    (h : parse text = .error (.unexpected found offset)) : Text.StandsAt text found offset := by
  rcases located_of_parse h with ⟨_, ⟨⟩⟩ | ⟨ls, hls, hlocated⟩
  cases hlocated with
  | unexpected hl => exact standsAt_of_tokens hls hl

end Expr

/-! ### Orderings -/

namespace Text

theorem exists_append_of_splitOnP {p : Char → Bool} {cs piece : List Char} {i : Nat}
    (h : (cs.splitOnP p)[i]? = some piece)
    : ∃ before after,
        cs = before ++ piece ++ after
          ∧ before.countP p = i
          ∧ piece.countP p = 0
          ∧ (i = 0 → before = []) := by
  induction cs generalizing i piece with
  | nil =>
    cases i with
    | zero =>
      cases h
      exact ⟨[], [], rfl, rfl, rfl, fun _ => rfl⟩
    | succ i => cases h
  | cons c cs ih =>
    rw [List.splitOnP_cons_eq_if_modifyHead] at h
    split at h
    . next hc =>
      cases i with
      | zero =>
        cases h
        exact ⟨[], c :: cs, rfl, rfl, rfl, fun _ => rfl⟩
      | succ i =>
        obtain ⟨before, after, rfl, hbefore, hpiece, _⟩ := ih h
        exact ⟨c :: before, after, rfl, by rw [List.countP_cons_of_pos hc, hbefore], hpiece, nofun⟩
    . next hc =>
      obtain ⟨first, pieces, hsplit⟩ := List.exists_cons_of_ne_nil (List.splitOnP_ne_nil p cs)
      rw [hsplit, List.modifyHead_cons] at h
      rw [hsplit] at ih
      cases i with
      | zero =>
        cases h
        obtain ⟨before, after, rfl, _, hpiece, hnil⟩ := ih (i := 0) rfl
        rw [hnil rfl]
        exact ⟨[], after, rfl, rfl, by rw [List.countP_cons_of_neg hc, hpiece], fun _ => rfl⟩
      | succ i =>
        obtain ⟨before, after, rfl, hbefore, hpiece, _⟩ := ih (i := i + 1) h
        exact ⟨c :: before, after, rfl, by rw [List.countP_cons_of_neg hc, hbefore], hpiece, nofun⟩

end Text

namespace OrderKey

theorem exists_append_of_mem_tail {part : List Char} {word : String} (h : word ∈ (words part).tail)
    : ∃ before after, part = before ++ word.toList ++ after ∧ before ≠ [] := by
  obtain ⟨first, pieces, hsplit⟩ := List.exists_cons_of_ne_nil (List.splitOnP_ne_nil _ part)
  have hmem : word.toList ∈ pieces := by
    rw [words, hsplit, ← List.map_tail] at h
    obtain ⟨piece, hpiece, rfl⟩ := List.mem_map.mp h
    rw [String.toList_ofList]
    rw [List.filter_cons] at hpiece
    split at hpiece
    . exact List.mem_of_mem_filter hpiece
    . exact List.mem_of_mem_filter (List.mem_of_mem_tail hpiece)
  obtain ⟨i, hi⟩ := List.mem_iff_getElem?.mp hmem
  have hnext : (part.splitOnP Text.isBlank)[i + 1]? = some word.toList := by
    rw [hsplit, List.getElem?_cons_succ, hi]
  obtain ⟨before, after, hpart, hblanks, _⟩ := Text.exists_append_of_splitOnP hnext
  refine ⟨before, after, hpart, ?_⟩
  rintro rfl
  cases hblanks

theorem ofPart_failsWith (part : List Char) (index : Nat)
    : FailsWith
        (fun fault => ∀ found offset, fault = .unexpected found offset →
          found ∈ (words part).tail ∧ offset = index)
        (ofPart part index) := by
  unfold ofPart
  split
  . exact failsWith_error.mpr nofun
  . apply failsWith_ok
  . next path word rest hwords =>
    rw [hwords]
    dsimp only
    split
    . rw [failsWith_error]
      rintro _ _ ⟨⟩
      simp
    . rw [failsWith_error]
      rintro _ _ ⟨⟩
      simp
    . apply failsWith_ok

/--
What is unexpected stands in the text, behind as many commas as the place tells; so it is always
farther on than the place.
-/
theorem exists_append_of_parse {text found : String} {offset : Nat}
    (h : parse text = .error (.unexpected found offset))
    : ∃ before after : String,
        text = before ++ found ++ after
          ∧ before.toList.count ',' = offset
          ∧ offset < before.utf8ByteSize := by
  have hparse : FailsWith
      (fun fault => ∀ found offset, fault = .unexpected found offset →
        ∃ part, (text.toList.splitOn ',')[offset]? = some part ∧ found ∈ (words part).tail)
      (parse text) := by
    apply failsWith_mapM
    rintro ⟨part, index⟩ hpart fault hfault found offset hfound
    obtain ⟨hmem, rfl⟩ := ofPart_failsWith part index fault hfault found offset hfound
    exact ⟨part, List.mem_zipIdx_iff_getElem?.mp hpart, hmem⟩
  obtain ⟨part, hpart, hmem⟩ := hparse _ h found offset rfl
  obtain ⟨before, after, htext, hbefore, hnone, _⟩ := Text.exists_append_of_splitOnP hpart
  obtain ⟨before', after', rfl, hne⟩ := exists_append_of_mem_tail hmem
  simp only [List.countP_append, Nat.add_eq_zero_iff] at hnone
  refine ⟨.ofList (before ++ before'), .ofList (after' ++ after), ?_, ?_, ?_⟩
  . apply String.toList_inj.mp
    rw [htext]
    simp only [String.toList_append, String.toList_ofList, List.append_assoc]
  . rw [String.toList_ofList, List.count, List.countP_append, hbefore, hnone.1.1, Nat.add_zero]
  . have hle : offset ≤ Text.utf8Size before := by
      rw [← hbefore]
      exact Nat.le_trans List.countP_le_length (Text.length_le_utf8Size before)
    have hlt := Text.length_le_utf8Size before'
    have hpos := List.length_pos_iff.mpr hne
    rw [← Text.utf8Size_toList, String.toList_ofList, Text.utf8Size_append]
    omega

end OrderKey

/--
In an expression, what is unexpected stands at the place that is told with it. In an ordering, the
place is the number of the commas before it, which are fewer than the bytes before it.
-/
theorem unexpected_located (text : String)
    : (∀ found offset, Expr.parse text = .error (.unexpected found offset) →
        Text.StandsAt text found offset)
          ∧
      (∀ found offset, OrderKey.parse text = .error (.unexpected found offset) →
        ∃ before after : String,
          text = before ++ found ++ after
            ∧ before.toList.count ',' = offset
            ∧ offset < before.utf8ByteSize) := by
  constructor
  . intro found offset h
    exact Expr.standsAt_of_parse h
  . intro found offset h
    exact OrderKey.exists_append_of_parse h

/-- A word among the arguments of a call, behind a letter of two bytes, and one behind a comma. -/
theorem unexpected_located_call
    : (Expr.parse "trim(é B)" = .error (.unexpected "B" 8) ∧ Text.StandsAt "trim(é B)" "B" 8)
        ∧
      (OrderKey.parse "A desc,B up" = .error (.unexpected "up" 1)
        ∧ ∃ before after : String,
            "A desc,B up" = before ++ "up" ++ after
              ∧ before.toList.count ',' = 1
              ∧ 1 < before.utf8ByteSize) := by
  have hcall : Expr.parse "trim(é B)" = .error (.unexpected "B" 8) := by
    have htokens : Expr.tokens "trim(é B)"
        = .ok [⟨.word "trim", 0⟩, ⟨.opening, 4⟩, ⟨.word "é", 5⟩, ⟨.word "B", 8⟩, ⟨.closing, 9⟩] :=
      rfl
    have hfunction : Builtin.ofName? "trim" = some .trim := rfl
    have hpath : Expr.ofWord "é" 5 = .ok (.property ["é"]) := rfl
    have hstop : BinaryOp.ofKeyword? "B" = none := rfl
    simp [Expr.parse, Expr.operation, Expr.operand, Expr.operators, Expr.arguments, Expr.separator,
      SyntaxFault.ofLexeme, Expr.Token.text, ok_bind, htokens, hfunction, hpath, hstop]
  have hordering : OrderKey.parse "A desc,B up" = .error (.unexpected "up" 1) := rfl
  constructor
  . exact ⟨hcall, (unexpected_located _).1 _ _ hcall⟩
  . exact ⟨hordering, (unexpected_located _).2 _ _ hordering⟩

/-- The place that an ordering tells is not the one of the word. -/
theorem unlocated_direction
    : OrderKey.parse "A sideways" = .error (.unexpected "sideways" 0)
        ∧ ¬ Text.StandsAt "A sideways" "sideways" 0 := by
  refine ⟨rfl, ?_⟩
  rintro ⟨before, after, htext, hsize⟩
  obtain rfl := String.utf8ByteSize_eq_zero_iff.mp hsize
  have hchars := String.toList_inj.mpr htext
  simp only [String.toList_append] at hchars
  cases hchars

end Edm
