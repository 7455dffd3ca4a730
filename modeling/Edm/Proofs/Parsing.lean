import Edm.Expr.Parser
import Edm.Proofs.Tokens

/-!
This module contains the laws of the parser of expressions: it takes back what the printer writes.
-/

namespace Edm

open Edm.Expr (Lexeme Token)

namespace Expr

/-! ### Steps of the parser -/

def Reads {α : Type} {n : Nat} (x : Shorter α n) (a : α) (left : List Token) : Prop :=
  ∃ rest h, x = .ok (a, ⟨rest, h⟩) ∧ rest.map (·.token) = left

def OperandReads (ts : List Token) (e : Expr) (left : List Token) : Prop :=
  ∀ ls : List Lexeme, ls.map (·.token) = ts → Reads (operand ls) e left

def OperationReads (level : Nat) (ts : List Token) (e : Expr) (left : List Token) : Prop :=
  ∀ ls : List Lexeme, ls.map (·.token) = ts → Reads (operation level ls) e left

def OperatorsRead (level : Nat) (lhs : Expr) (ts : List Token) (e : Expr) (left : List Token)
    : Prop :=
  ∀ ls : List Lexeme, ls.map (·.token) = ts → Reads (operators level lhs ls) e left

def ArgumentsRead (ts : List Token) (args : List Expr) (left : List Token) : Prop :=
  ∀ ls : List Lexeme, ls.map (·.token) = ts → Reads (arguments ls) args left

theorem exists_of_map_eq_cons {ls : List Lexeme} {t : Token} {ts : List Token}
    (h : ls.map (·.token) = t :: ts)
    : ∃ offset rest, ls = ⟨t, offset⟩ :: rest ∧ rest.map (·.token) = ts := by
  obtain ⟨⟨_, offset⟩, rest, rfl, rfl, hrest⟩ := List.map_eq_cons_iff.mp h
  exact ⟨offset, rest, rfl, hrest⟩

section

variable {ts mid left : List Token} {e lhs rhs : Expr} {args : List Expr} {level : Nat}

theorem operandReads_not (h : OperandReads ts e left)
    : OperandReads (.word "not" :: ts) (.not e) left := by
  intro ls hls
  obtain ⟨offset, ls', rfl, hts⟩ := exists_of_map_eq_cons hls
  obtain ⟨rest, hlt, hread, hleft⟩ := h ls' hts
  refine ⟨rest, Nat.lt_succ_of_lt hlt, ?_, hleft⟩
  rw [operand, hread]

theorem operandReads_neg (h : OperandReads ts e left)
    : OperandReads (.word "-" :: ts) (.neg e) left := by
  intro ls hls
  obtain ⟨offset, ls', rfl, hts⟩ := exists_of_map_eq_cons hls
  obtain ⟨rest, hlt, hread, hleft⟩ := h ls' hts
  refine ⟨rest, Nat.lt_succ_of_lt hlt, ?_, hleft⟩
  rw [operand, hread]

theorem operandReads_parentheses (h : OperationReads 0 ts e (.closing :: left))
    : OperandReads (.opening :: ts) e left := by
  intro ls hls
  obtain ⟨offset, ls', rfl, hts⟩ := exists_of_map_eq_cons hls
  obtain ⟨rest, hlt, hread, hrest⟩ := h ls' hts
  obtain ⟨offset', rest', rfl, hleft⟩ := exists_of_map_eq_cons hrest
  refine ⟨rest', by simp only [List.length_cons] at hlt ⊢; omega, ?_, hleft⟩
  rw [operand, hread]
  rfl

theorem operandReads_word {word : String} (hnot : word ≠ "not") (hneg : word ≠ "-")
    (hword : ∀ offset, ofWord word offset = .ok e) (hleft : left.head? ≠ some .opening)
    : OperandReads (.word word :: left) e left := by
  intro ls hls
  obtain ⟨offset, ls', rfl, hts⟩ := exists_of_map_eq_cons hls
  refine ⟨ls', Nat.lt_succ_self _, ?_, hts⟩
  rw [operand, hword]
  . exact hnot
  . exact hneg
  . rintro offset rest rfl
    rw [← hts] at hleft
    exact hleft rfl

theorem name_ne (f : Builtin) : f.name ≠ "not" ∧ f.name ≠ "-" := by
  cases f <;> decide

theorem operandReads_call_nil (f : Builtin) (left : List Token)
    : OperandReads (.word f.name :: .opening :: .closing :: left) (.call f []) left := by
  intro ls hls
  obtain ⟨_, ls', rfl, hopening⟩ := exists_of_map_eq_cons hls
  obtain ⟨_, ls', rfl, hclosing⟩ := exists_of_map_eq_cons hopening
  obtain ⟨_, ls', rfl, hleft⟩ := exists_of_map_eq_cons hclosing
  refine ⟨ls', by simp only [List.length_cons]; omega, ?_, hleft⟩
  rw [operand, Builtin.ofName?_name]
  . exact (name_ne f).1
  . exact (name_ne f).2

theorem operandReads_call (f : Builtin) (hts : ts.head? ≠ some .closing)
    (h : ArgumentsRead ts args left)
    : OperandReads (.word f.name :: .opening :: ts) (.call f args) left := by
  intro ls hls
  obtain ⟨_, ls', rfl, hopening⟩ := exists_of_map_eq_cons hls
  obtain ⟨_, ls', rfl, hargs⟩ := exists_of_map_eq_cons hopening
  obtain ⟨rest, hlt, hread, hleft⟩ := h ls' hargs
  refine ⟨rest, by simp only [List.length_cons]; omega, ?_, hleft⟩
  rw [operand, Builtin.ofName?_name]
  . dsimp only
    split
    . cases hlt
    . rw [← hargs] at hts
      exact absurd rfl hts
    . rw [hread]
  . exact (name_ne f).1
  . exact (name_ne f).2

theorem operatorsRead_stop (h : ∀ word, left.head? ≠ some (.word word))
    : OperatorsRead level e left e left := by
  intro ls hls
  refine ⟨ls, Nat.lt_succ_self _, ?_, hls⟩
  rw [operators]
  rintro word offset rest rfl
  rw [← hls] at h
  exact h word rfl

theorem operatorsRead_step {op : BinaryOp} (hop : level ≤ op.level)
    (hrhs : OperationReads (op.level + 1) ts rhs mid)
    (h : OperatorsRead level (.binary op lhs rhs) mid e left)
    : OperatorsRead level lhs (.word op.keyword :: ts) e left := by
  intro ls hls
  obtain ⟨offset, ls', rfl, hts⟩ := exists_of_map_eq_cons hls
  obtain ⟨rest, hlt, hread, hmid⟩ := hrhs ls' hts
  obtain ⟨rest', hlt', hread', hleft⟩ := h rest hmid
  have hfilter : (BinaryOp.ofKeyword? op.keyword).filter (fun op => level ≤ op.level)
      = some op := by
    rw [BinaryOp.ofKeyword?_keyword, Option.filter_some, decide_eq_true hop]
    rfl
  refine ⟨rest', by simp only [List.length_cons]; omega, ?_, hleft⟩
  rw [operators, hfilter]
  dsimp only
  rw [hread]
  dsimp only
  rw [hread']

theorem operationReads (hlhs : OperandReads ts lhs mid) (h : OperatorsRead level lhs mid e left)
    : OperationReads level ts e left := by
  intro ls hls
  obtain ⟨rest, hlt, hread, hmid⟩ := hlhs ls hls
  obtain ⟨rest', hlt', hread', hleft⟩ := h rest hmid
  refine ⟨rest', by omega, ?_, hleft⟩
  rw [operation, hread]
  dsimp only
  rw [hread']

theorem argumentsRead_last (h : OperationReads 0 ts e (.closing :: left))
    : ArgumentsRead ts [e] left := by
  intro ls hls
  obtain ⟨rest, hlt, hread, hrest⟩ := h ls hls
  obtain ⟨offset, rest', rfl, hleft⟩ := exists_of_map_eq_cons hrest
  refine ⟨rest', Nat.lt_of_succ_lt hlt, ?_, hleft⟩
  rw [arguments, hread]
  rfl

theorem argumentsRead_cons (h : OperationReads 0 ts e (.comma :: mid))
    (hargs : ArgumentsRead mid args left) : ArgumentsRead ts (e :: args) left := by
  intro ls hls
  obtain ⟨rest, hlt, hread, hrest⟩ := h ls hls
  obtain ⟨offset, rest', rfl, hmid⟩ := exists_of_map_eq_cons hrest
  obtain ⟨rest'', hlt'', hread'', hleft⟩ := hargs rest' hmid
  refine ⟨rest'', by simp only [List.length_cons] at hlt; omega, ?_, hleft⟩
  rw [arguments, hread]
  dsimp only [separator]
  rw [hread'']

end

/-! ### Words -/

theorem ofKeyword?_eq_none {word : String} (h : ∀ op : BinaryOp, word ≠ op.keyword)
    : BinaryOp.ofKeyword? word = none := by
  unfold BinaryOp.ofKeyword?
  rw [List.find?_eq_none]
  intro op _ heq
  exact h op (eq_of_beq heq).symm

theorem isConstant_of_quote {cs : List Char} (h : '\'' ∈ cs) : isConstant (.ofList cs) = true := by
  unfold isConstant
  rw [String.toList_ofList, List.contains_iff_mem.mpr h]
  simp

theorem isConstant_signed {negative : Bool} {ds : List Char} (rest : List Char)
    (h : ∃ c cs, ds = c :: cs ∧ c.isDigit = true)
    : isConstant (.ofList (Ieee.signed negative ds ++ rest)) = true := by
  obtain ⟨c, cs, rfl, hc⟩ := h
  have hstart : (Ieee.signed negative (c :: cs) ++ rest).head?.any
      (fun c => c.isDigit || c == '-') = true := by
    cases negative with
    | true => rfl
    | false => simp [Ieee.signed, hc]
  unfold isConstant
  rw [String.toList_ofList, hstart]
  simp

theorem isConstant_form {v : Value} {cs : List Char} (h : Literal.Form v cs)
    : isConstant (.ofList cs) = true := by
  cases h with
  | nullWord => decide
  | trueWord => decide
  | falseWord => decide
  | @narrow v n hv =>
    rw [← List.append_nil (Ieee.signed _ _)]
    exact isConstant_signed [] (exists_decimalDigits _)
  | wide n => exact isConstant_signed _ (exists_decimalDigits _)
  | decimal d => exact isConstant_signed _ d.exists_unsignedText
  | string s => exact isConstant_of_quote List.mem_cons_self
  | guid g => exact isConstant_of_quote (by simp [Literal.guidWord])
  | binary bytes => exact isConstant_of_quote (by simp)

theorem isConstant_keyword (op : BinaryOp) : isConstant op.keyword = false := by
  cases op with
  | or | and => decide
  | comparison c => cases c <;> decide
  | arithmetic op => cases op <;> decide

theorem ofWord_form {v : Value} {cs : List Char} (h : Literal.Form v cs) (offset : Nat)
    : ofWord (.ofList cs) offset = .ok (.literal v.widened.unsignedZero) := by
  have hconstant := isConstant_form h
  have hkeyword : BinaryOp.ofKeyword? (.ofList cs) = none := by
    apply ofKeyword?_eq_none
    intro op heq
    rw [heq, isConstant_keyword] at hconstant
    cases hconstant
  unfold ofWord
  rw [hkeyword, hconstant, h.decode_eq]
  rfl

theorem form_ne {v : Value} {cs : List Char} (h : Literal.Form v cs)
    : String.ofList cs ≠ "not" ∧ String.ofList cs ≠ "-" := by
  constructor
  . intro heq
    have hconstant := isConstant_form h
    rw [heq] at hconstant
    contradiction
  . intro heq
    have hread := h.decode_eq
    rw [heq] at hread
    have hminus : Literal.decode "-" = .error (.outOfRange "-") := rfl
    rw [hminus] at hread
    cases hread

theorem widened_of_isLegible {v : Value} (h : isLegible v = true) : v.widened = v := by
  cases v with
  | byte | sbyte | int16 | single | double | dateTime | dateTimeOffset | time => cases h
  | int32 n =>
    rw [Value.widened_of_narrow? (n := n.toInt) rfl, Int32.ofInt_toInt]
  | _ => rfl

namespace LegiblePath

variable {path : Path}

theorem trim_toList (h : LegiblePath path) {name : String} (hname : name ∈ path)
    : Text.trim name.toList = name.toList := by
  have hblank := h.not_blank name hname
  cases hchars : name.toList with
  | nil => rfl
  | cons c cs =>
    rw [hchars] at hblank
    exact Text.trim_eq_self (hblank c List.mem_cons_self)
      fun d hd => hblank d (List.mem_of_getLast? hd)

theorem parse_eq_self (h : LegiblePath path) : Path.parse path.toText = path := by
  have hslash : ∀ cs ∈ path.map String.toList, '/' ∉ cs := by
    intro cs hcs hmem
    obtain ⟨name, hname, rfl⟩ := List.mem_map.mp hcs
    exact h.not_mark name hname '/' hmem (by simp)
  have hne : path.map String.toList ≠ [] := by
    rw [Ne, List.map_eq_nil_iff]
    exact h.ne_nil
  have htrim : (path.map String.toList).map Text.trim = path.map String.toList := by
    rw [List.map_map]
    exact List.map_congr_left fun name hname => h.trim_toList hname
  have hfilter : (path.map String.toList).filter (fun name => !name.isEmpty)
      = path.map String.toList := by
    rw [List.filter_eq_self]
    intro cs hcs
    obtain ⟨name, hname, rfl⟩ := List.mem_map.mp hcs
    simpa [List.isEmpty_iff] using h.name_ne_empty name hname
  unfold Path.parse
  rw [toList_toText, List.splitOn_intercalate '/' hslash hne, htrim, hfilter, List.map_map]
  simp [Function.comp_def]

theorem isConstant_toText (h : LegiblePath path) : isConstant path.toText = false := by
  have hreserved := h.ne_reserved
  simp only [List.mem_cons, List.not_mem_nil, or_false, not_or] at hreserved
  have hquote : '\'' ∉ path.toText.toList := by
    intro hmem
    have hplain := h.isPlain_of_mem hmem
    contradiction
  have hstart : (path.toText.toList.head?.any fun c => c.isDigit || c == '-') = false := by
    cases hhead : path.toText.toList.head? with
    | none => rfl
    | some c => simpa using h.not_number c hhead
  unfold isConstant
  rw [hstart]
  simp [hreserved, hquote]

theorem ofWord_toText (h : LegiblePath path) (offset : Nat)
    : ofWord path.toText offset = .ok (.property path) := by
  unfold ofWord
  rw [ofKeyword?_eq_none h.ne_keyword, h.isConstant_toText, h.parse_eq_self]
  rfl

theorem toText_ne (h : LegiblePath path) : path.toText ≠ "not" ∧ path.toText ≠ "-" := by
  have hreserved := h.ne_reserved
  simp only [List.mem_cons, List.not_mem_nil, or_false, not_or] at hreserved
  refine ⟨hreserved.1, ?_⟩
  intro heq
  have hstart := h.not_number '-'
  rw [heq] at hstart
  exact (hstart rfl).2 rfl

end LegiblePath

/-! ### Equality of expressions -/

mutual

/-- Equality of expressions; literals are compared as values of the same type. -/
def equals : Expr → Expr → Bool
  | .literal v, .literal w => v.equals w
  | .property path, .property path' => path == path'
  | .not e, .not e' => e.equals e'
  | .neg e, .neg e' => e.equals e'
  | .binary op lhs rhs, .binary op' lhs' rhs' => op == op' && lhs.equals lhs' && rhs.equals rhs'
  | .call f args, .call f' args' => f == f' && argsEqual args args'
  | _, _ => false

def argsEqual : List Expr → List Expr → Bool
  | [], [] => true
  | arg :: args, arg' :: args' => arg.equals arg' && argsEqual args args'
  | _, _ => false

end

mutual

def unsignedZeros : Expr → Expr
  | .literal v => .literal v.unsignedZero
  | .property path => .property path
  | .not e => .not e.unsignedZeros
  | .neg e => .neg e.unsignedZeros
  | .binary op lhs rhs => .binary op lhs.unsignedZeros rhs.unsignedZeros
  | .call f args => .call f (argsUnsignedZeros args)

def argsUnsignedZeros : List Expr → List Expr
  | [] => []
  | arg :: args => arg.unsignedZeros :: argsUnsignedZeros args

end

mutual

def decimals : Expr → List Decimal
  | .literal (.decimal d) => [d]
  | .literal _ | .property _ => []
  | .not e | .neg e => e.decimals
  | .binary _ lhs rhs => lhs.decimals ++ rhs.decimals
  | .call _ args => argsDecimals args

def argsDecimals : List Expr → List Decimal
  | [] => []
  | arg :: args => arg.decimals ++ argsDecimals args

end

theorem argsEqual_argsUnsignedZeros {args : List Expr}
    (h : ∀ arg ∈ args, arg.unsignedZeros.equals arg = true)
    : argsEqual (argsUnsignedZeros args) args = true := by
  induction args with
  | nil => rfl
  | cons arg args ih =>
    rw [List.forall_mem_cons] at h
    rw [argsUnsignedZeros, argsEqual, h.1, ih h.2]
    rfl

theorem equals_unsignedZeros {e : Expr} (h : Legible e) : e.unsignedZeros.equals e = true := by
  induction h with
  | literal hv =>
    rw [unsignedZeros, equals]
    exact Value.equals_unsignedZero (isExact_of_isLegible hv)
  | property =>
    rw [unsignedZeros, equals]
    exact BEq.rfl
  | not _ ih =>
    rw [unsignedZeros, equals, ih]
  | neg _ ih =>
    rw [unsignedZeros, equals, ih]
  | binary op _ _ ihl ihr =>
    rw [unsignedZeros, equals, ihl, ihr, beq_self_eq_true]
    rfl
  | call f _ ih =>
    rw [unsignedZeros, equals, argsEqual_argsUnsignedZeros ih, beq_self_eq_true]
    rfl

def NoNegativeZero (e : Expr) : Prop := ∀ d ∈ e.decimals, d.negative = true → d.mantissa ≠ 0

theorem argsUnsignedZeros_eq_self {args : List Expr}
    (h : ∀ arg ∈ args, NoNegativeZero arg → arg.unsignedZeros = arg)
    (hargs : ∀ d ∈ argsDecimals args, d.negative = true → d.mantissa ≠ 0)
    : argsUnsignedZeros args = args := by
  induction args with
  | nil => rfl
  | cons arg args ih =>
    rw [List.forall_mem_cons] at h
    rw [argsDecimals, List.forall_mem_append] at hargs
    rw [argsUnsignedZeros, h.1 hargs.1, ih h.2 hargs.2]

theorem unsignedZeros_eq_self {e : Expr} (h : Legible e) (hzero : NoNegativeZero e)
    : e.unsignedZeros = e := by
  unfold NoNegativeZero at hzero
  induction h with
  | @literal v hv =>
    rw [unsignedZeros, ← widened_of_isLegible hv, Value.unsignedZero_widened]
    rintro d rfl
    exact hzero d (by rw [decimals]; exact List.mem_singleton_self d)
  | property => rfl
  | not _ ih =>
    rw [decimals] at hzero
    rw [unsignedZeros, ih hzero]
  | neg _ ih =>
    rw [decimals] at hzero
    rw [unsignedZeros, ih hzero]
  | binary op _ _ ihl ihr =>
    rw [decimals, List.forall_mem_append] at hzero
    rw [unsignedZeros, ihl hzero.1, ihr hzero.2]
  | call f _ ih =>
    rw [decimals] at hzero
    rw [unsignedZeros, argsUnsignedZeros_eq_self ih hzero]

/-! ### Written expressions are read back -/

/-- What is written in front of some tokens is read, and these tokens are left. -/
def ReadsBack (e : Expr) : Prop :=
  ∀ left : List Token, left.head? ≠ some .opening →
    OperandReads (tokensOnto left e) e.unsignedZeros left

theorem ReadsBack.operation {e : Expr} (h : ReadsBack e) (level : Nat) {t : Token}
    (left : List Token) (hopening : t ≠ .opening) (hword : ∀ word, t ≠ .word word)
    : OperationReads level (tokensOnto (t :: left) e) e.unsignedZeros (t :: left) := by
  apply operationReads (h (t :: left) (by simpa using hopening))
  apply operatorsRead_stop
  simpa using hword

theorem head?_tokensOnto (e : Expr) (left : List Token)
    : (tokensOnto left e).head? ≠ some .closing := by
  cases e with
  | call f args =>
    cases args with
    | nil => simp [tokensOnto]
    | cons arg args => simp [tokensOnto]
  | _ => simp [tokensOnto]

theorem argumentsRead_tokensOnto {arg : Expr} {args : List Expr} (harg : ReadsBack arg)
    (hargs : ∀ arg ∈ args, ReadsBack arg) (left : List Token)
    : ArgumentsRead (tokensOnto (argTokens (.closing :: left) args) arg)
        (argsUnsignedZeros (arg :: args)) left := by
  induction args generalizing arg with
  | nil =>
    rw [argTokens, argsUnsignedZeros, argsUnsignedZeros]
    exact argumentsRead_last (harg.operation 0 left (by simp) (by simp))
  | cons next args ih =>
    rw [List.forall_mem_cons] at hargs
    rw [argTokens, argsUnsignedZeros]
    exact argumentsRead_cons (harg.operation 0 _ (by simp) (by simp)) (ih hargs.1 hargs.2)

theorem readsBack {e : Expr} (h : Legible e) : ReadsBack e := by
  induction h with
  | literal hv =>
    intro left hleft
    have hform := form_literalText hv
    rw [tokensOnto, unsignedZeros]
    apply operandReads_word (form_ne hform).1 (form_ne hform).2 _ hleft
    intro offset
    rw [ofWord_form hform, widened_of_isLegible hv]
  | property hpath =>
    intro left hleft
    rw [tokensOnto, unsignedZeros]
    exact operandReads_word hpath.toText_ne.1 hpath.toText_ne.2 hpath.ofWord_toText hleft
  | not _ ih =>
    intro left _
    rw [tokensOnto, unsignedZeros]
    exact operandReads_not (operandReads_parentheses (ih.operation 0 left (by simp) (by simp)))
  | neg _ ih =>
    intro left _
    rw [tokensOnto, unsignedZeros]
    exact operandReads_neg (operandReads_parentheses (ih.operation 0 left (by simp) (by simp)))
  | binary op _ _ ihl ihr =>
    intro left _
    rw [tokensOnto, unsignedZeros]
    -- The right operand is read at the level above, and the closing parenthesis ends both levels.
    apply operandReads_parentheses
    apply operationReads (ihl _ (by simp))
    apply operatorsRead_step (Nat.zero_le _) (ihr.operation _ left (by simp) (by simp))
    exact operatorsRead_stop (by simp)
  | @call f args _ ih =>
    intro left _
    rw [unsignedZeros]
    cases args with
    | nil => exact operandReads_call_nil f left
    | cons arg args =>
      rw [List.forall_mem_cons] at ih
      rw [tokensOnto]
      exact operandReads_call f (head?_tokensOnto arg _)
        (argumentsRead_tokensOnto ih.1 ih.2 left)

theorem parse_toText_eq {e : Expr} (h : Legible e) : parse e.toText = .ok e.unsignedZeros := by
  obtain ⟨ls, htokens, hls⟩ := tokens_toText h
  have hoperation : OperationReads 0 (tokensOnto [] e) e.unsignedZeros [] :=
    operationReads (readsBack h [] (by simp)) (operatorsRead_stop (by simp))
  obtain ⟨rest, _, hread, hrest⟩ := hoperation ls hls
  obtain rfl : rest = [] := List.map_eq_nil_iff.mp hrest
  unfold parse
  rw [htokens]
  dsimp only [bind, Except.bind]
  rw [hread]

/--
Every legible expression is read back from its text, but for the sign of a zero decimal, which
comparisons do not see.
-/
theorem parse_toText {e : Expr} (h : Legible e)
    : parse e.toText = .ok e.unsignedZeros
        ∧
      e.unsignedZeros.equals e = true
        ∧
      (NoNegativeZero e → parse e.toText = .ok e) := by
  refine ⟨parse_toText_eq h, equals_unsignedZeros h, ?_⟩
  intro hzero
  rw [parse_toText_eq h, unsignedZeros_eq_self h hzero]

/-- Parentheses, commas and quotes in a literal, and two minuses in a row. -/
theorem parse_toText_nested
    : let path : Path := ["Owner", "Name"]
      let e : Expr :=
        .not (.binary .or
          (.binary (.comparison .eq) (.property path) (.literal (.string "it's (a, b)")))
          (.call .substring [.neg (.literal (.int32 (-3))), .call .trim []]))
      Legible e
        ∧
      e.toText = "not (((Owner/Name eq 'it''s (a, b)') or substring(-(-3), trim())))"
        ∧
      parse "not (((Owner/Name eq 'it''s (a, b)') or substring(-(-3), trim())))" = .ok e := by
  intro path e
  have hblank : (path.all fun name => name.toList.all fun c => !Text.isBlank c) = true := by decide
  have hmark : (path.all fun name => name.toList.all fun c =>
      c ∉ ['\'', '(', ')', ',', '/']) = true := by decide
  have hstart : path.toText.toList.head? = some 'O' := by decide
  have hpath : LegiblePath path := by
    refine ⟨List.cons_ne_nil _ _, by decide, by simpa using hblank, by simpa using hmark, ?_,
      by decide, ?_⟩
    . intro op
      cases op with
      | or | and => decide
      | comparison c => cases c <;> decide
      | arithmetic op => cases op <;> decide
    . rw [hstart]
      intro c hc
      cases hc
      decide
  have htrim : Legible (.call .trim []) := .call .trim (by simp)
  have hneg : Legible (.neg (.literal (.int32 (-3)))) := .neg (.literal rfl)
  have hcall : Legible (.call .substring [.neg (.literal (.int32 (-3))), .call .trim []]) := by
    apply Legible.call
    simp [hneg, htrim]
  have he : Legible e := .not (.binary _ (.binary _ (.property hpath) (.literal rfl)) hcall)
  have htext : e.toText = "not (((Owner/Name eq 'it''s (a, b)') or substring(-(-3), trim())))" := by
    decide +kernel
  refine ⟨he, htext, ?_⟩
  rw [← htext]
  exact (parse_toText he).2.2 (by simp [NoNegativeZero, e, decimals, argsDecimals])

end Expr

end Edm
