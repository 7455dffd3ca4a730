import Edm.Proofs.Outcome
import Edm.Proofs.Parsing

/-!
This module contains the grammar of expressions. The parser reads a text exactly if the grammar
derives its tokens, so what is read from a text does not depend on what follows behind a
parenthesis: filters can be put together in parentheses.
-/

namespace Edm.Expr

/-- What the parts of the parser read: operands, operands joined by operators, what follows a left
operand, and the arguments of a call. -/
inductive Phrase where
  | operand (e : Expr)
  | operation (level : Nat) (e : Expr)
  | operators (level : Nat) (lhs e : Expr)
  | arguments (args : List Expr)

/-- Whether no operator that binds at least as tightly as `level` stands at the start. -/
def NoOperator (level : Nat) (ts : List Token) : Prop :=
  ∀ op : BinaryOp, level ≤ op.level → ts.head? ≠ some (.word op.keyword)

/-- The phrase is read from the first tokens, and the last ones are left. -/
inductive Derives : Phrase → List Token → List Token → Prop where
  | not {ts left : List Token} {e : Expr} (h : Derives (.operand e) ts left)
      : Derives (.operand (.not e)) (.word "not" :: ts) left
  | neg {ts left : List Token} {e : Expr} (h : Derives (.operand e) ts left)
      : Derives (.operand (.neg e)) (.word "-" :: ts) left
  | parentheses {ts left : List Token} {e : Expr}
      (h : Derives (.operation 0 e) ts (.closing :: left))
      : Derives (.operand e) (.opening :: ts) left
  | word {word : String} {left : List Token} {e : Expr} (hnot : word ≠ "not") (hneg : word ≠ "-")
      (hword : ∀ offset, ofWord word offset = .ok e) (hleft : left.head? ≠ some .opening)
      : Derives (.operand e) (.word word :: left) left
  | call_nil (f : Builtin) (left : List Token)
      : Derives (.operand (.call f [])) (.word f.name :: .opening :: .closing :: left) left
  | call (f : Builtin) {t : Token} {ts left : List Token} {args : List Expr} (ht : t ≠ .closing)
      (h : Derives (.arguments args) (t :: ts) left)
      : Derives (.operand (.call f args)) (.word f.name :: .opening :: t :: ts) left
  | operation {level : Nat} {ts mid left : List Token} {lhs e : Expr}
      (hlhs : Derives (.operand lhs) ts mid) (h : Derives (.operators level lhs e) mid left)
      : Derives (.operation level e) ts left
  | stop {level : Nat} {left : List Token} (e : Expr) (h : NoOperator level left)
      : Derives (.operators level e e) left left
  | step {level : Nat} {op : BinaryOp} {ts mid left : List Token} {lhs rhs e : Expr}
      (hop : level ≤ op.level) (hrhs : Derives (.operation (op.level + 1) rhs) ts mid)
      (h : Derives (.operators level (.binary op lhs rhs) e) mid left)
      : Derives (.operators level lhs e) (.word op.keyword :: ts) left
  | last {ts left : List Token} {e : Expr} (h : Derives (.operation 0 e) ts (.closing :: left))
      : Derives (.arguments [e]) ts left
  | cons {ts mid left : List Token} {e : Expr} {args : List Expr}
      (h : Derives (.operation 0 e) ts (.comma :: mid)) (hargs : Derives (.arguments args) mid left)
      : Derives (.arguments (e :: args)) ts left

/-! ### What is derived is read -/

def Phrase.Read : Phrase → List Token → List Token → Prop
  | .operand e, ts, left => OperandReads ts e left
  | .operation level e, ts, left => OperationReads level ts e left
  | .operators level lhs e, ts, left => OperatorsRead level lhs ts e left
  | .arguments args, ts, left => ArgumentsRead ts args left

theorem keyword_of_ofKeyword? {word : String} {op : BinaryOp}
    (h : BinaryOp.ofKeyword? word = some op) : op.keyword = word :=
  eq_of_beq (List.find?_some h :)

theorem name_of_ofName? {word : String} {f : Builtin} (h : Builtin.ofName? word = some f)
    : f.name = word :=
  eq_of_beq (List.find?_some h :)

theorem operatorsRead_end {level : Nat} {left : List Token} (e : Expr) (h : NoOperator level left)
    : OperatorsRead level e left e left := by
  intro ls hls
  refine ⟨ls, Nat.lt_succ_self _, ?_, hls⟩
  rw [operators.eq_def]
  split
  . next word offset rest =>
    have hnone : (BinaryOp.ofKeyword? word).filter (fun op => level ≤ op.level) = none := by
      rw [Option.filter_eq_none_iff]
      intro op hop
      rw [decide_eq_true_eq]
      intro hlevel
      apply h op hlevel
      rw [← hls, keyword_of_ofKeyword? hop]
      rfl
    rw [hnone]
  . rfl

theorem Derives.read {p : Phrase} {ts left : List Token} (h : Derives p ts left)
    : p.Read ts left := by
  induction h with
  | not _ ih => exact operandReads_not ih
  | neg _ ih => exact operandReads_neg ih
  | parentheses _ ih => exact operandReads_parentheses ih
  | word hnot hneg hword hleft => exact operandReads_word hnot hneg hword hleft
  | call_nil f left => exact operandReads_call_nil f left
  | call f ht _ ih => exact operandReads_call f (by simpa using ht) ih
  | operation _ _ ihl ih => exact operationReads ihl ih
  | stop e h => exact operatorsRead_end e h
  | step hop _ _ ihr ih => exact operatorsRead_step hop ihr ih
  | last _ ih => exact argumentsRead_last ih
  | cons _ _ ih ihargs => exact argumentsRead_cons ih ihargs

/-! ### What is read is derived -/

def Sound {α : Type} {n : Nat} (phrase : α → Phrase) (ls : List Lexeme) (x : Shorter α n) : Prop :=
  ∀ a rest h, x = .ok (a, ⟨rest, h⟩) → Derives (phrase a) (ls.map (·.token)) (rest.map (·.token))

theorem Sound.error {α : Type} {n : Nat} (phrase : α → Phrase) (ls : List Lexeme)
    (fault : SyntaxFault) : Sound phrase ls (.error fault : Shorter α n) := by
  intro a rest h heq
  cases heq

theorem Sound.ok {α : Type} {n : Nat} {phrase : α → Phrase} {ls rest : List Lexeme} {a : α}
    {h : rest.length < n} (hderives : Derives (phrase a) (ls.map (·.token)) (rest.map (·.token)))
    : Sound phrase ls (.ok (a, ⟨rest, h⟩) : Shorter α n) := by
  intro a' rest' h' heq
  cases heq
  exact hderives

theorem token_of_closing {ls rest : List Lexeme} {u : Unit} {h : rest.length < ls.length}
    (hclosing : closing ls = .ok (u, ⟨rest, h⟩))
    : ls.map (·.token) = .closing :: rest.map (·.token) := by
  unfold closing at hclosing
  split at hclosing
  . cases hclosing
  . split at hclosing
    . next ht =>
      cases hclosing
      rw [List.map_cons, ht]
    . cases hclosing

theorem token_of_separator {ls rest : List Lexeme} {more : Bool} {h : rest.length < ls.length}
    (hseparator : separator ls = .ok (more, ⟨rest, h⟩))
    : ls.map (·.token) = (if more then .comma else .closing) :: rest.map (·.token) := by
  unfold separator at hseparator
  split at hseparator
  . cases hseparator
  . split at hseparator
    . next ht =>
      cases hseparator
      rw [List.map_cons, ht]
      rfl
    . next ht =>
      cases hseparator
      rw [List.map_cons, ht]
      rfl
    . cases hseparator

theorem ofWord_offset {word : String} {offset : Nat} {e : Expr} (h : ofWord word offset = .ok e)
    (offset' : Nat) : ofWord word offset' = .ok e := by
  unfold ofWord at h ⊢
  split at h
  . cases h
  . next hkeyword =>
    rw [if_neg hkeyword]
    exact h

theorem head?_tokens_ne {ls : List Lexeme} {t : Token}
    (h : ∀ offset rest, ls ≠ ⟨t, offset⟩ :: rest) : (ls.map (·.token)).head? ≠ some t := by
  cases ls with
  | nil => simp
  | cons l ls =>
    rintro heq
    cases heq
    exact h l.offset ls rfl

mutual

theorem sound_operand (ls : List Lexeme) : Sound .operand ls (operand ls) := by
  rw [operand.eq_def]
  split
  . exact .error _ _ _
  . split
    . exact .error _ _ _
    . next hread => exact .ok (.not (sound_operand _ _ _ _ hread))
  . split
    . exact .error _ _ _
    . next hread => exact .ok (.neg (sound_operand _ _ _ _ hread))
  . split
    . exact .error _ _ _
    . next hread =>
      split
      . exact .error _ _ _
      . next hclosing =>
        have hts := sound_operation 0 _ _ _ _ hread
        rw [token_of_closing hclosing] at hts
        exact .ok (.parentheses hts)
  . split
    . exact .error _ _ _
    . next hf =>
      obtain rfl := name_of_ofName? hf
      split
      . exact .error _ _ _
      . exact .ok (.call_nil _ _)
      . next t ts ht =>
        split
        . exact .error _ _ _
        . next hargs =>
          refine .ok (.call _ ?_ (sound_arguments _ _ _ _ hargs))
          intro heq
          exact ht t.offset (by rw [← heq])
  . next hnot hneg hopening =>
    split
    . exact .error _ _ _
    . next hword =>
      exact .ok (.word hnot hneg (ofWord_offset hword) (head?_tokens_ne hopening))
  . exact .error _ _ _
termination_by (ls.length, 0)

theorem sound_operation (level : Nat) (ls : List Lexeme)
    : Sound (.operation level) ls (operation level ls) := by
  rw [operation.eq_def]
  split
  . exact .error _ _ _
  . next hlhs =>
    split
    . exact .error _ _ _
    . next hread =>
      exact .ok (.operation (sound_operand _ _ _ _ hlhs) (sound_operators level _ _ _ _ _ hread))
termination_by (ls.length, 1)

theorem sound_operators (level : Nat) (lhs : Expr) (ls : List Lexeme)
    : Sound (.operators level lhs) ls (operators level lhs ls) := by
  rw [operators.eq_def]
  split
  . split
    . next hnone =>
      refine .ok (.stop lhs ?_)
      rw [Option.filter_eq_none_iff] at hnone
      intro op hlevel hhead
      cases hhead
      exact hnone op (BinaryOp.ofKeyword?_keyword op) (decide_eq_true hlevel)
    . next hsome =>
      split
      . exact .error _ _ _
      . next rhs rest hlt hrhs =>
        have hshorter : rest.length < _ := Nat.lt_succ_of_lt hlt
        split
        . exact .error _ _ _
        . next hread =>
          obtain ⟨hop, hlevel⟩ := Option.filter_eq_some_iff.mp hsome
          rw [decide_eq_true_eq] at hlevel
          obtain rfl := keyword_of_ofKeyword? hop
          exact .ok (.step hlevel (sound_operation _ _ _ _ _ hrhs)
            (sound_operators level _ _ _ _ _ hread))
  . next hword =>
    refine .ok (.stop lhs ?_)
    intro op _
    exact head?_tokens_ne fun offset rest => hword _ offset rest
termination_by (ls.length, 2)

theorem sound_arguments (ls : List Lexeme) : Sound .arguments ls (arguments ls) := by
  rw [arguments.eq_def]
  split
  . exact .error _ _ _
  . next hread =>
    have hts := sound_operation 0 _ _ _ _ hread
    split
    . exact .error _ _ _
    . next hseparator =>
      rw [token_of_separator hseparator] at hts
      exact .ok (.last hts)
    . next hseparator =>
      rw [token_of_separator hseparator] at hts
      split
      . exact .error _ _ _
      . next hargs => exact .ok (.cons hts (sound_arguments _ _ _ _ hargs))
termination_by (ls.length, 3)

end

theorem parse_eq_ok_iff {text : String} {e : Expr}
    : parse text = .ok e ↔ ∃ ts, Lexes text.toList ts ∧ Derives (.operation 0 e) ts [] := by
  constructor
  . intro h
    obtain ⟨ls, htokens, h⟩ := bind_eq_ok.mp h
    refine ⟨ls.map (·.token), lexes_of_tokens htokens, ?_⟩
    split at h
    . cases h
    . next hread =>
      cases h
      exact sound_operation 0 ls _ _ _ hread
    . cases h
  . rintro ⟨ts, hts, h⟩
    obtain ⟨ls, htokens, hls⟩ := tokens_of_lexes hts
    obtain ⟨rest, _, hread, hrest⟩ := h.read ls hls
    obtain rfl : rest = [] := List.map_eq_nil_iff.mp hrest
    unfold parse
    rw [htokens]
    dsimp only [bind, Except.bind]
    rw [hread]

/-! ### What follows -/

/-- Whether a phrase that ends in front of these tokens does not go on with them. -/
def Phrase.StopsAt : Phrase → List Token → Prop
  | .operand _, tail => tail.head? ≠ some .opening
  | .operation level _, tail | .operators level _ _, tail =>
    tail.head? ≠ some .opening ∧ NoOperator level tail
  | .arguments _, _ => True

theorem eq_nil_of_derives_operators {level : Nat} {lhs e : Expr} {left : List Token}
    (h : Derives (.operators level lhs e) [] left) : left = [] := by
  cases h with
  | stop => rfl

theorem NoOperator.mono {level level' : Nat} {ts : List Token} (h : NoOperator level ts)
    (hlevel : level ≤ level') : NoOperator level' ts :=
  fun op hop => h op (Nat.le_trans hlevel hop)

theorem Derives.append {p : Phrase} {ts left tail : List Token} (h : Derives p ts left)
    (htail : left = [] → p.StopsAt tail) : Derives p (ts ++ tail) (left ++ tail) := by
  induction h with
  | not _ ih => exact .not (ih htail)
  | neg _ ih => exact .neg (ih htail)
  | parentheses _ ih => exact .parentheses (ih (fun hnil => nomatch hnil))
  | @word word left e hnot hneg hword hleft =>
    refine .word hnot hneg hword ?_
    cases left with
    | nil => exact htail rfl
    | cons t left => exact hleft
  | call_nil f left => exact .call_nil f (left ++ tail)
  | call f ht _ ih => exact .call f ht (ih (fun _ => trivial))
  | operation _ hoperators ihl ih =>
    refine .operation (ihl ?_) (ih htail)
    rintro rfl
    exact (htail (eq_nil_of_derives_operators hoperators)).1
  | @stop level left e h =>
    refine .stop e ?_
    cases left with
    | nil => exact (htail rfl).2
    | cons t left => exact h
  | step hop _ hoperators ihr ih =>
    refine .step hop (ihr ?_) (ih htail)
    rintro rfl
    obtain ⟨hopening, hnone⟩ := htail (eq_nil_of_derives_operators hoperators)
    exact ⟨hopening, hnone.mono (Nat.le_succ_of_le hop)⟩
  | last _ ih => exact .last (ih (fun hnil => nomatch hnil))
  | cons _ _ ih ihargs => exact .cons (ih (fun hnil => nomatch hnil)) (ihargs (fun _ => trivial))

/-! ### Filters in parentheses -/

theorem noOperator_nil (level : Nat) : NoOperator level [] :=
  fun _ _ h => nomatch h

theorem noOperator_closing (level : Nat) (left : List Token)
    : NoOperator level (.closing :: left) :=
  fun _ _ h => nomatch h

theorem derives_parentheses {ts : List Token} {e : Expr} (h : Derives (.operation 0 e) ts [])
    (left : List Token) : Derives (.operand e) (.opening :: (ts ++ .closing :: left)) left := by
  apply Derives.parentheses
  exact h.append fun _ => ⟨nofun, noOperator_closing 0 left⟩

theorem derives_binary {ts us : List Token} {e f : Expr} (he : Derives (.operation 0 e) ts [])
    (hf : Derives (.operation 0 f) us []) (op : BinaryOp)
    : Derives (.operation 0 (.binary op e f))
        (.opening :: (ts ++ .closing :: .word op.keyword :: .opening :: (us ++ [.closing]))) []
    := by
  apply Derives.operation (derives_parentheses he _)
  have hrhs := (derives_parentheses hf []).operation (.stop f (noOperator_nil (op.level + 1)))
  exact .step (Nat.zero_le _) hrhs (.stop _ (noOperator_nil 0))

theorem derives_not {ts : List Token} {e : Expr} (h : Derives (.operation 0 e) ts [])
    : Derives (.operation 0 (.not e)) (.word "not" :: .opening :: (ts ++ [.closing])) [] :=
  .operation (.not (derives_parentheses h [])) (.stop _ (noOperator_nil 0))

theorem lexes_parentheses {cs rest : List Char} {ts us : List Token} (h : Lexes cs ts)
    (hus : Lexes rest us)
    : Lexes ('(' :: (cs ++ ')' :: rest)) (.opening :: (ts ++ .closing :: us)) :=
  lexes_opening (h.append (delimited_cons rest rfl) (lexes_closing hus))

/--
Accepted texts can be put in parentheses and joined by any operator, or negated: none gets out of
its parentheses or changes how the other one is read.
-/
theorem parse_parentheses {s t : String} {e f : Expr} (hs : parse s = .ok e) (ht : parse t = .ok f)
    : (∀ op : BinaryOp,
        parse ("(" ++ s ++ ") " ++ op.keyword ++ " (" ++ t ++ ")") = .ok (.binary op e f))
        ∧
      parse ("not (" ++ s ++ ")") = .ok (.not e) := by
  obtain ⟨ts, hts, he⟩ := parse_eq_ok_iff.mp hs
  obtain ⟨us, hus, hf⟩ := parse_eq_ok_iff.mp ht
  refine ⟨?_, ?_⟩
  . intro op
    refine parse_eq_ok_iff.mpr ⟨_, ?_, derives_binary he hf op⟩
    have hrhs := lexes_operator op (lexes_parentheses hus .nil)
    simpa [String.toList_append] using lexes_parentheses hts hrhs
  . refine parse_eq_ok_iff.mpr ⟨_, ?_, derives_not he⟩
    have hnot : isWord false "not".toList = true ∧ "not".toList ≠ [] := by decide
    have hparentheses := Lexes.blank (c := ' ') rfl (lexes_parentheses hts .nil)
    simpa [String.toList_append] using
      lexes_text "not" hnot.1 hnot.2 (delimited_cons _ rfl) hparentheses

/-- Parentheses and an operator in quotes, and operators that bind less tightly. -/
theorem parse_parentheses_quotes
    : let e : Expr :=
        .binary (.comparison .eq) (.property ["A"]) (.literal (.string ") or ("))
      let f : Expr := .binary .or (.property ["C"]) (.not (.property ["D"]))
      parse "A eq ') or ('" = .ok e
        ∧
      parse "C or not D" = .ok f
        ∧
      parse "(A eq ') or (') mul (C or not D)" = .ok (.binary (.arithmetic .mul) e f) := by
  intro e f
  have hs : parse "A eq ') or ('" = .ok e := by
    have htokens : tokens "A eq ') or ('"
        = .ok [⟨.word "A", 0⟩, ⟨.word "eq", 2⟩, ⟨.word "') or ('", 5⟩] := rfl
    refine parse_eq_ok_iff.mpr ⟨_, lexes_of_tokens htokens, ?_⟩
    apply Derives.operation (.word (by decide) (by decide) (fun _ => rfl) (by decide))
    have hrhs : Derives (.operand (.literal (.string ") or ("))) [.word "') or ('"] [] :=
      .word (by decide) (by decide) (fun _ => rfl) nofun
    exact .step (Nat.zero_le (BinaryOp.comparison .eq).level)
      (.operation hrhs (.stop _ (noOperator_nil _))) (.stop _ (noOperator_nil _))
  have ht : parse "C or not D" = .ok f := by
    have htokens : tokens "C or not D"
        = .ok [⟨.word "C", 0⟩, ⟨.word "or", 2⟩, ⟨.word "not", 5⟩, ⟨.word "D", 9⟩] := rfl
    refine parse_eq_ok_iff.mpr ⟨_, lexes_of_tokens htokens, ?_⟩
    apply Derives.operation (.word (by decide) (by decide) (fun _ => rfl) (by decide))
    have hrhs : Derives (.operand (.not (.property ["D"]))) [.word "not", .word "D"] [] :=
      .not (.word (by decide) (by decide) (fun _ => rfl) nofun)
    exact .step (Nat.zero_le BinaryOp.or.level)
      (.operation hrhs (.stop _ (noOperator_nil _))) (.stop _ (noOperator_nil _))
  exact ⟨hs, ht, (parse_parentheses hs ht).1 (.arithmetic .mul)⟩

end Edm.Expr
