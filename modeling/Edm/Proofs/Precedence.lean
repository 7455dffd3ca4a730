import Edm.Proofs.Grammar
import Mathlib

/-!
This module contains the laws of precedence. Operands that are joined by operators are read as the
tree that is got by splitting at the rightmost operator of the lowest precedence, and both sides in
the same way.
-/

namespace Edm

def BinaryOp.keywordsByPrecedence : List (List String) := [
  ["or"], ["and"], ["eq", "ne", "lt", "le", "gt", "ge"], ["add", "sub"], ["mul", "div", "mod"]]

def BinaryOp.precedence (op : BinaryOp) : Nat :=
  keywordsByPrecedence.findIdx fun keywords => keywords.contains op.keyword

theorem BinaryOp.level_eq_precedence (op : BinaryOp) : op.level = op.precedence := by
  cases op with
  | or | and => rfl
  | comparison c => cases c <;> rfl
  | arithmetic op => cases op <;> rfl

namespace Expr

/-! ### Operands -/

def IsFilterTokens (ts : List Token) : Prop := ∃ text e, Lexes text.toList ts ∧ parse text = .ok e

/-- The tokens of the arguments of a call, up to the closing parenthesis. -/
inductive IsArguments : List Token → Prop where
  | last {ts : List Token} (h : IsFilterTokens ts) : IsArguments (ts ++ [.closing])
  | cons {ts us : List Token} (h : IsFilterTokens ts) (hus : IsArguments us)
      : IsArguments (ts ++ .comma :: us)

/-- The tokens of a word, a call or a filter in parentheses, behind any number of prefixes. -/
inductive IsOperand : List Token → Prop where
  | word (word : String) : IsOperand [.word word]
  | call_nil (f : Builtin) : IsOperand [.word f.name, .opening, .closing]
  | call (f : Builtin) {ts : List Token} (h : IsArguments ts)
      : IsOperand (.word f.name :: .opening :: ts)
  | parentheses {ts : List Token} (h : IsFilterTokens ts)
      : IsOperand (.opening :: (ts ++ [.closing]))
  | behind {word : String} {ts : List Token} (hword : word = "not" ∨ word = "-")
      (h : IsOperand ts) : IsOperand (.word word :: ts)

structure Operand where
  text : String
  tree : Expr
  tokens : List Token
  lexes : Lexes text.toList tokens
  isOperand : IsOperand tokens
  parse_text : parse text = .ok tree

def chain (x : Operand) : List (BinaryOp × Operand) → String
  | [] => x.text
  | (op, y) :: rest => x.text ++ " " ++ op.keyword ++ " " ++ chain y rest

/-- Trees that are got by splitting at the rightmost operator of the lowest precedence. -/
inductive Splits : Operand → List (BinaryOp × Operand) → Expr → Prop where
  | operand (x : Operand) : Splits x [] x.tree
  | binary {x y : Operand} {op : BinaryOp} {front back : List (BinaryOp × Operand)} {lhs rhs : Expr}
      (hfront : ∀ p ∈ front, op.precedence ≤ p.1.precedence)
      (hback : ∀ p ∈ back, op.precedence < p.1.precedence)
      (hlhs : Splits x front lhs) (hrhs : Splits y back rhs)
      : Splits x (front ++ (op, y) :: back) (.binary op lhs rhs)

/-! ### Operands are read as such -/

theorem Lexes.unique {cs : List Char} {ts us : List Token} (hts : Lexes cs ts) (hus : Lexes cs us)
    : ts = us := by
  rw [← String.toList_ofList (l := cs)] at hts hus
  obtain ⟨ls, hls, rfl⟩ := tokens_of_lexes hts
  obtain ⟨ls', hls', rfl⟩ := tokens_of_lexes hus
  rw [hls] at hls'
  cases hls'
  rfl

theorem derives_of_parse {text : String} {ts : List Token} {e : Expr} (hts : Lexes text.toList ts)
    (h : parse text = .ok e) : Derives (.operation 0 e) ts [] := by
  obtain ⟨us, hus, hderives⟩ := parse_eq_ok_iff.mp h
  rwa [hts.unique hus]

theorem Derives.left_unique {e e' : Expr} {ts left left' : List Token}
    (h : Derives (.operand e) ts left) (h' : Derives (.operand e') ts left') : left = left' := by
  have htokens : (ts.map fun t => Lexeme.mk t 0).map (·.token) = ts := by
    rw [List.map_map]
    exact List.map_id ts
  obtain ⟨rest, _, hread, rfl⟩ := h.read _ htokens
  obtain ⟨rest', _, hread', rfl⟩ := h'.read _ htokens
  rw [hread] at hread'
  cases hread'
  rfl

theorem IsFilterTokens.exists_derives {ts : List Token} (h : IsFilterTokens ts) {t : Token}
    (us : List Token) (ht : t = .closing ∨ t = .comma)
    : ∃ e, Derives (.operation 0 e) (ts ++ t :: us) (t :: us) := by
  obtain ⟨text, e, hts, hparse⟩ := h
  refine ⟨e, (derives_of_parse hts hparse).append fun _ => ?_⟩
  rcases ht with rfl | rfl
  . exact ⟨nofun, fun _ _ => nofun⟩
  . exact ⟨nofun, fun _ _ => nofun⟩

theorem IsArguments.exists_derives {ts : List Token} (h : IsArguments ts)
    : ∃ args, Derives (.arguments args) ts [] := by
  induction h with
  | last h =>
    obtain ⟨e, he⟩ := h.exists_derives [] (.inl rfl)
    exact ⟨_, .last he⟩
  | @cons ts us h _ ih =>
    obtain ⟨e, he⟩ := h.exists_derives us (.inr rfl)
    obtain ⟨args, hargs⟩ := ih
    exact ⟨_, .cons he hargs⟩

theorem exists_cons_of_derives_arguments {ts left : List Token} {args : List Expr}
    (h : Derives (.arguments args) ts left) : ∃ t us, ts = t :: us ∧ t ≠ .closing := by
  have hoperation : ∀ {e mid}, Derives (.operation 0 e) ts mid →
      ∃ t us, ts = t :: us ∧ t ≠ .closing := by
    intro e mid h
    cases h with
    | operation hlhs _ => cases hlhs <;> exact ⟨_, _, rfl, nofun⟩
  cases h with
  | last h => exact hoperation h
  | cons h _ => exact hoperation h

theorem exists_of_derives_behind {word : String} {ts left : List Token} {e : Expr}
    (hword : word = "not" ∨ word = "-") (h : Derives (.operand e) (.word word :: ts) left)
    : ∃ e', Derives (.operand e') ts left := by
  cases h with
  | not h => exact ⟨_, h⟩
  | neg h => exact ⟨_, h⟩
  | word hnot hneg => exact absurd hword (not_or.mpr ⟨hnot, hneg⟩)
  | call_nil f => exact absurd hword (not_or.mpr (name_ne f))
  | call f => exact absurd hword (not_or.mpr (name_ne f))

theorem IsOperand.left_eq_nil {ts left : List Token} {e : Expr} (h : IsOperand ts)
    (he : Derives (.operand e) ts left) : left = [] := by
  induction h generalizing e with
  | word word =>
    cases he with
    | not h => cases h
    | neg h => cases h
    | word => rfl
  | call_nil f => exact he.left_unique (.call_nil f [])
  | call f h =>
    obtain ⟨args, hargs⟩ := h.exists_derives
    obtain ⟨t, us, rfl, ht⟩ := exists_cons_of_derives_arguments hargs
    exact he.left_unique (.call f ht hargs)
  | parentheses h =>
    obtain ⟨e', he'⟩ := h.exists_derives [] (.inl rfl)
    exact he.left_unique (.parentheses he')
  | behind hword _ ih =>
    obtain ⟨e', he'⟩ := exists_of_derives_behind hword he
    exact ih he'

namespace Operand

theorem derives (x : Operand) : Derives (.operand x.tree) x.tokens [] := by
  cases derives_of_parse x.lexes x.parse_text with
  | operation hoperand hoperators =>
    obtain rfl := x.isOperand.left_eq_nil hoperand
    cases hoperators with
    | stop => exact hoperand

theorem derives_append (x : Operand) {tail : List Token} (htail : tail.head? ≠ some .opening)
    : Derives (.operand x.tree) (x.tokens ++ tail) tail :=
  x.derives.append fun _ => htail

end Operand

/-! ### Chains of operands -/

/-- The tokens of the operators of a chain and of the operands behind them. -/
def linkTokens (rest : List (BinaryOp × Operand)) : List Token :=
  rest.flatMap fun (op, y) => .word op.keyword :: y.tokens

theorem linkTokens_append (front back : List (BinaryOp × Operand)) (op : BinaryOp) (y : Operand)
    : linkTokens (front ++ (op, y) :: back)
        = linkTokens front ++ .word op.keyword :: (y.tokens ++ linkTokens back) := by
  unfold linkTokens
  rw [List.flatMap_append, List.flatMap_cons, List.cons_append]

theorem lexes_chain (x : Operand) (rest : List (BinaryOp × Operand))
    : Lexes (chain x rest).toList (x.tokens ++ linkTokens rest) := by
  induction rest generalizing x with
  | nil =>
    rw [chain, linkTokens, List.flatMap_nil, List.append_nil]
    exact x.lexes
  | cons link rest ih =>
    have hlink := lexes_operator link.1 (ih link.2)
    simpa [chain, linkTokens, String.toList_append] using
      x.lexes.append (delimited_cons _ rfl) hlink

/--
A chain is read at each level up to its own, if it is not followed by an operator that binds more
tightly than one of its operators.
-/
theorem Splits.derives {x : Operand} {rest : List (BinaryOp × Operand)} {tree : Expr}
    (h : Splits x rest tree) {level : Nat} {e : Expr} {tail left : List Token}
    (hlevel : ∀ p ∈ rest, level ≤ p.1.level)
    (htail : ∀ p ∈ rest, NoOperator (p.1.level + 1) tail) (hopening : tail.head? ≠ some .opening)
    (he : Derives (.operators level tree e) tail left)
    : Derives (.operation level e) (x.tokens ++ (linkTokens rest ++ tail)) left := by
  induction h generalizing level e tail left with
  | operand x => exact .operation (x.derives_append hopening) he
  | @binary x y op front back lhs rhs hfront hback _ _ ihl ihr =>
    simp only [← BinaryOp.level_eq_precedence] at hfront hback
    rw [List.forall_mem_append, List.forall_mem_cons] at hlevel htail
    -- The right side ends where the chain ends, and the operators go on behind it.
    have hrhs : Derives (.operation (op.level + 1) rhs) (y.tokens ++ (linkTokens back ++ tail)) tail
        := ihr hback htail.2.2 hopening (.stop rhs htail.2.1)
    have hoperators := Derives.step hlevel.2.1 hrhs he
    rw [linkTokens_append, List.append_assoc, List.cons_append, List.append_assoc]
    refine ihl hlevel.1 ?_ nofun hoperators
    intro p hp op' hop' heq
    have hkeyword : op.keyword = op'.keyword := by simpa using heq
    obtain rfl : op = op' := by
      have hsome := congrArg BinaryOp.ofKeyword? hkeyword
      rwa [BinaryOp.ofKeyword?_keyword, BinaryOp.ofKeyword?_keyword, Option.some.injEq] at hsome
    have := hfront p hp
    omega

theorem Splits.parse_eq_ok {x : Operand} {rest : List (BinaryOp × Operand)} {e : Expr}
    (h : Splits x rest e) : parse (chain x rest) = .ok e := by
  refine parse_eq_ok_iff.mpr ⟨_, lexes_chain x rest, ?_⟩
  rw [← List.append_nil (linkTokens rest)]
  exact h.derives (fun _ _ => Nat.zero_le _) (fun _ _ => noOperator_nil _) nofun
    (.stop e (noOperator_nil 0))

theorem exists_loosest {rest : List (BinaryOp × Operand)} (h : rest ≠ [])
    : ∃ (front : List (BinaryOp × Operand)) (op : BinaryOp) (y : Operand)
        (back : List (BinaryOp × Operand)),
        rest = front ++ (op, y) :: back
          ∧
        (∀ p ∈ front, op.precedence ≤ p.1.precedence)
          ∧
        ∀ p ∈ back, op.precedence < p.1.precedence := by
  induction rest with
  | nil => exact absurd rfl h
  | cons link rest ih =>
    by_cases hlowest : ∀ p ∈ rest, link.1.precedence < p.1.precedence
    . exact ⟨[], link.1, link.2, rest, rfl, List.forall_mem_nil _, hlowest⟩
    . have hne : rest ≠ [] := by
        rintro rfl
        exact hlowest (List.forall_mem_nil _)
      obtain ⟨front, op, y, back, rfl, hfront, hback⟩ := ih hne
      refine ⟨link :: front, op, y, back, rfl, ?_, hback⟩
      rw [List.forall_mem_cons]
      refine ⟨?_, hfront⟩
      by_contra hlt
      apply hlowest
      intro p hp
      rw [List.mem_append, List.mem_cons] at hp
      rcases hp with hp | rfl | hp
      . have := hfront p hp
        omega
      . dsimp only
        omega
      . have := hback p hp
        omega

theorem exists_splits (x : Operand) (rest : List (BinaryOp × Operand)) : ∃ e, Splits x rest e := by
  by_cases h : rest = []
  . subst h
    exact ⟨x.tree, .operand x⟩
  . obtain ⟨front, op, y, back, rfl, hfront, hback⟩ := exists_loosest h
    obtain ⟨lhs, hlhs⟩ := exists_splits x front
    obtain ⟨rhs, hrhs⟩ := exists_splits y back
    exact ⟨.binary op lhs rhs, .binary hfront hback hlhs hrhs⟩
termination_by rest.length

/--
Operands that are joined by operators are accepted, and read as the one tree that splits them at the
rightmost operator of the lowest precedence, and both sides in the same way.
-/
theorem parse_chain (x : Operand) (rest : List (BinaryOp × Operand))
    : ∃ e, parse (chain x rest) = .ok e ∧ ∀ e', Splits x rest e' ↔ e' = e := by
  obtain ⟨e, he⟩ := exists_splits x rest
  refine ⟨e, he.parse_eq_ok, ?_⟩
  intro e'
  constructor
  . intro he'
    have hparse := he'.parse_eq_ok
    rw [he.parse_eq_ok] at hparse
    exact (Except.ok.inj hparse).symm
  . rintro rfl
    exact he

/-! ### Operands of every kind -/

namespace Mixed

def notA : Operand where
  text := "not A"
  tree := .not (.property ["A"])
  tokens := [.word "not", .word "A"]
  lexes := lexes_of_tokens
    (show tokens "not A" = .ok [⟨.word "not", 0⟩, ⟨.word "A", 4⟩] from rfl)
  isOperand := .behind (.inl rfl) (.word "A")
  parse_text := by cbv

theorem isFilterTokens_word : IsFilterTokens [.word "B"] :=
  ⟨"B", .property ["B"], lexes_of_tokens (show tokens "B" = .ok [⟨.word "B", 0⟩] from rfl),
    by cbv⟩

def minusLength : Operand where
  text := "- length(B)"
  tree := .neg (.call .length [.property ["B"]])
  tokens := [.word "-", .word "length", .opening, .word "B", .closing]
  lexes := lexes_of_tokens
    (show tokens "- length(B)" = .ok [⟨.word "-", 0⟩, ⟨.word "length", 2⟩, ⟨.opening, 8⟩,
      ⟨.word "B", 9⟩, ⟨.closing, 10⟩] from rfl)
  isOperand := .behind (.inr rfl) (.call .length (.last isFilterTokens_word))
  parse_text := by cbv

theorem isFilterTokens_or : IsFilterTokens [.word "C", .word "or", .word "D"] :=
  ⟨"C or D", .binary .or (.property ["C"]) (.property ["D"]),
    lexes_of_tokens
      (show tokens "C or D" = .ok [⟨.word "C", 0⟩, ⟨.word "or", 2⟩, ⟨.word "D", 5⟩] from rfl),
    by cbv⟩

def either : Operand where
  text := "(C or D)"
  tree := .binary .or (.property ["C"]) (.property ["D"])
  tokens := [.opening, .word "C", .word "or", .word "D", .closing]
  lexes := lexes_of_tokens
    (show tokens "(C or D)" = .ok [⟨.opening, 0⟩, ⟨.word "C", 1⟩, ⟨.word "or", 3⟩,
      ⟨.word "D", 6⟩, ⟨.closing, 7⟩] from rfl)
  isOperand := .parentheses isFilterTokens_or
  parse_text := by cbv

theorem lexes_quoted : Lexes "' or '".toList [.word "' or '"] :=
  lexes_of_tokens (show tokens "' or '" = .ok [⟨.word "' or '", 0⟩] from rfl)

theorem derives_quoted : Derives (.operand (.literal (.string " or "))) [.word "' or '"] [] :=
  .word (by decide) (by decide) (fun _ => rfl) nofun

def quoted : Operand where
  text := "' or '"
  tree := .literal (.string " or ")
  tokens := [.word "' or '"]
  lexes := lexes_quoted
  isOperand := .word "' or '"
  parse_text := parse_eq_ok_iff.mpr
    ⟨_, lexes_quoted, .operation derives_quoted (.stop _ (noOperator_nil 0))⟩

theorem parse_mixed
    : parse "not A or - length(B) sub (C or D) sub ' or ' mul ' or ' gt ' or '"
        = .ok (.binary .or notA.tree
          (.binary (.comparison .gt)
            (.binary (.arithmetic .sub)
              (.binary (.arithmetic .sub) minusLength.tree either.tree)
              (.binary (.arithmetic .mul) quoted.tree quoted.tree))
            quoted.tree)) := by
  obtain ⟨e, he, hsplits⟩ := parse_chain notA [(.or, minusLength), (.arithmetic .sub, either),
    (.arithmetic .sub, quoted), (.arithmetic .mul, quoted), (.comparison .gt, quoted)]
  have hleft : Splits minusLength ([] ++ (.arithmetic .sub, either) :: []) _ :=
    .binary (List.forall_mem_nil _) (List.forall_mem_nil _) (.operand minusLength) (.operand either)
  have hproduct : Splits quoted ([] ++ (.arithmetic .mul, quoted) :: []) _ :=
    .binary (List.forall_mem_nil _) (List.forall_mem_nil _) (.operand quoted) (.operand quoted)
  have hdifference : Splits minusLength ([(.arithmetic .sub, either)] ++ (.arithmetic .sub, quoted)
      :: [(.arithmetic .mul, quoted)]) _ :=
    .binary (by decide) (by decide) hleft hproduct
  have hcomparison : Splits minusLength ([(.arithmetic .sub, either), (.arithmetic .sub, quoted),
      (.arithmetic .mul, quoted)] ++ (.comparison .gt, quoted) :: []) _ :=
    .binary (by decide) (List.forall_mem_nil _) hdifference (.operand quoted)
  have htree : Splits notA ([] ++ (.or, minusLength) :: [(.arithmetic .sub, either),
      (.arithmetic .sub, quoted), (.arithmetic .mul, quoted), (.comparison .gt, quoted)]) _ :=
    .binary (List.forall_mem_nil _) (by decide) (.operand notA) hcomparison
  rw [(hsplits _).mp htree]
  exact he

end Mixed

end Expr

end Edm
