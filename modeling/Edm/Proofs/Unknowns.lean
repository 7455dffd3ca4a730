import Edm.Bag
import Edm.Proofs.Outcome
import Edm.Proofs.Truth

/-!
This module contains what nulls mean in filters: they stand for values that are not known. The main
statement is that an answer that is given in spite of nulls is the answer for all records in which
these values are known.
-/

namespace Edm

def Comparison.isStrict : Comparison → Bool
  | .eq | .ne => false
  | .lt | .le | .gt | .ge => true

namespace Expr

/-- Expressions that have no value as soon as one of the properties in them has none. -/
inductive IsTerm : Expr → Prop where
  | literal (v : Value) : IsTerm (.literal v)
  | property (path : Path) : IsTerm (.property path)
  | neg {e : Expr} (h : IsTerm e) : IsTerm (.neg e)
  | arithmetic (op : ArithmeticOp) {lhs rhs : Expr} (hl : IsTerm lhs) (hr : IsTerm rhs)
      : IsTerm (.binary (.arithmetic op) lhs rhs)
  | comparison {c : Comparison} (hc : c.isStrict) {lhs rhs : Expr} (hl : IsTerm lhs)
      (hr : IsTerm rhs) : IsTerm (.binary (.comparison c) lhs rhs)
  | call (f : Builtin) {args : List Expr} (h : ∀ arg ∈ args, IsTerm arg) : IsTerm (.call f args)

inductive IsFilter : Expr → Prop where
  | term {e : Expr} (h : IsTerm e) : IsFilter e
  | not {e : Expr} (h : IsFilter e) : IsFilter (.not e)
  | and {lhs rhs : Expr} (hl : IsFilter lhs) (hr : IsFilter rhs) : IsFilter (.binary .and lhs rhs)
  | or {lhs rhs : Expr} (hl : IsFilter lhs) (hr : IsFilter rhs) : IsFilter (.binary .or lhs rhs)

inductive Mentions : Expr → Path → Prop where
  | property (path : Path) : Mentions (.property path) path
  | not {e : Expr} {path : Path} (h : Mentions e path) : Mentions (.not e) path
  | neg {e : Expr} {path : Path} (h : Mentions e path) : Mentions (.neg e) path
  | lhs {op : BinaryOp} {lhs rhs : Expr} {path : Path} (h : Mentions lhs path)
      : Mentions (.binary op lhs rhs) path
  | rhs {op : BinaryOp} {lhs rhs : Expr} {path : Path} (h : Mentions rhs path)
      : Mentions (.binary op lhs rhs) path
  | arg {f : Builtin} {args : List Expr} {arg : Expr} {path : Path} (harg : arg ∈ args)
      (h : Mentions arg path) : Mentions (.call f args) path

variable {α : Type} {resolve : Shape → Option (Accessor α)} {r r' : Record α}

/--
The second record has the values of the first one for all properties in the expression that are not
null in the first one.
-/
def Reveals (resolve : Shape → Option (Accessor α)) (r r' : Record α) (e : Expr) : Prop :=
  ∀ path v, e.Mentions path → v.isNull = false → evaluate resolve r (.property path) = .ok v →
    evaluate resolve r' (.property path) = .ok v

theorem Reveals.mono {e inner : Expr} (h : e.Reveals resolve r r')
    (hinner : ∀ path, inner.Mentions path → e.Mentions path) : inner.Reveals resolve r r' := by
  intro path v hpath
  apply h path v (hinner path hpath)

/-! ### Terms -/

theorem evaluateAll_of_forall {es : List Expr} {vs : List Value}
    (h : ∀ e ∈ es, ∀ v, v.isNull = false → evaluate resolve r e = .ok v →
      evaluate resolve r' e = .ok v)
    (hvs : evaluateAll resolve r es = .ok vs) (hnull : vs.any (·.isNull) = false)
    : evaluateAll resolve r' es = .ok vs := by
  induction es generalizing vs with
  | nil => exact hvs
  | cons e es ih =>
    rw [evaluateAll] at hvs
    obtain ⟨v, hv, hvs⟩ := bind_eq_ok.mp hvs
    obtain ⟨vs', hvs', hvs⟩ := bind_eq_ok.mp hvs
    cases hvs
    rw [List.any_cons, Bool.or_eq_false_iff] at hnull
    rw [evaluateAll, h e (by simp) v hnull.1 hv, ok_bind,
      ih (fun e he => h e (by simp [he])) hvs' hnull.2]
    rfl

theorem bind_operands_eq {f : Value → Value → Except Failure Value} {lhs rhs : Expr} {v : Value}
    (hf : ∀ a b, f a b = .ok v → a.isNull = false ∧ b.isNull = false)
    (hl : ∀ a, a.isNull = false → evaluate resolve r lhs = .ok a → evaluate resolve r' lhs = .ok a)
    (hr : ∀ b, b.isNull = false → evaluate resolve r rhs = .ok b → evaluate resolve r' rhs = .ok b)
    (hv : (evaluate resolve r lhs >>= fun a => evaluate resolve r rhs >>= f a) = .ok v)
    : (evaluate resolve r' lhs >>= fun a => evaluate resolve r' rhs >>= f a) = .ok v := by
  obtain ⟨a, ha, hv⟩ := bind_eq_ok.mp hv
  obtain ⟨b, hb, hv⟩ := bind_eq_ok.mp hv
  obtain ⟨hanull, hbnull⟩ := hf a b hv
  rw [hl a hanull ha, ok_bind, hr b hbnull hb]
  exact hv

theorem comparison_of_isStrict {c : Comparison} (hc : c.isStrict) (a b : Value)
    : comparison c a b
        = if a.isNull || b.isNull then .ok .null
          else do return .boolean (holds c (← compareValues a b)) := by
  cases c with
  | eq | ne => cases hc
  | lt | le | gt | ge => rfl

theorem isNull_of_ite {x : Except Failure Value} {a b v : Value} (hnull : v.isNull = false)
    (h : (if a.isNull || b.isNull then .ok .null else x) = .ok v)
    : a.isNull = false ∧ b.isNull = false := by
  split at h
  . cases h
    cases hnull
  . next hoperands => simpa using hoperands

theorem IsTerm.evaluate_eq {e : Expr} (he : e.IsTerm) (h : e.Reveals resolve r r') {v : Value}
    (hnull : v.isNull = false) (hv : evaluate resolve r e = .ok v)
    : evaluate resolve r' e = .ok v := by
  induction he generalizing v with
  | literal w => exact hv
  | property path => exact h path v (.property path) hnull hv
  | neg _ ih =>
    rw [evaluate] at hv
    obtain ⟨w, hw, hv⟩ := bind_eq_ok.mp hv
    split at hv
    . cases hv
      cases hnull
    . next hw' =>
      rw [evaluate, ih (h.mono fun _ => .neg) (by simpa using hw') hw, ok_bind, if_neg hw']
      exact hv
  | arithmetic op _ _ ihl ihr =>
    rw [evaluate] at hv ⊢
    apply bind_operands_eq ?_ (fun _ => ihl (h.mono fun _ => .lhs))
      (fun _ => ihr (h.mono fun _ => .rhs)) hv
    intro a b hab
    apply isNull_of_ite hnull hab
  | comparison hc _ _ ihl ihr =>
    rw [evaluate] at hv ⊢
    apply bind_operands_eq ?_ (fun _ => ihl (h.mono fun _ => .lhs))
      (fun _ => ihr (h.mono fun _ => .rhs)) hv
    intro a b hab
    rw [comparison_of_isStrict hc] at hab
    apply isNull_of_ite hnull hab
  | call f _ ih =>
    rw [evaluate] at hv ⊢
    dsimp only at hv ⊢
    split at hv
    . cases hv
    . next harity =>
      obtain ⟨vs, hvs, hv⟩ := bind_eq_ok.mp hv
      split at hv
      . cases hv
        cases hnull
      . next hvs' =>
        have hargs := evaluateAll_of_forall
          (fun arg harg w => ih arg harg (h.mono fun _ => .arg harg)) hvs (by simpa using hvs')
        rw [if_neg harity, hargs, ok_bind, if_neg hvs']
        exact hv

/-! ### Filters -/

/-- A truth value that is known in the first case is the same in the second one, unless missing. -/
def Settled (x x' : Option (Option Bool)) : Prop :=
  ∀ b, x = some (some b) → x'.isSome → x' = some (some b)

theorem Settled.negation {x x' : Option (Option Bool)} (h : Settled x x')
    : Settled (negation x) (negation x') := by
  intro b hb hsome
  rcases x with _ | _ | a
  . cases hb
  . cases hb
  . cases hb
    rw [h a rfl (by simpa [Expr.negation] using hsome)]
    rfl

theorem isSome_left_of_conjunction {x y : Option (Option Bool)} (h : (conjunction x y).isSome)
    : x.isSome := by
  cases x with
  | none => cases h
  | some a => rfl

theorem isSome_right_of_conjunction {x y : Option (Option Bool)} (h : (conjunction x y).isSome)
    (hx : x ≠ some (some false)) : y.isSome := by
  rcases x with _ | _ | _ | _
  . cases h
  . simpa [conjunction] using h
  . exact absurd rfl hx
  . simpa [conjunction] using h

theorem conjunction_eq_true_iff {x y : Option (Option Bool)}
    : conjunction x y = some (some true) ↔ x = some (some true) ∧ y = some (some true) := by
  rcases x with _ | _ | _ | _ <;> rcases y with _ | _ | _ | _ <;> decide

theorem conjunction_eq_false_iff {x y : Option (Option Bool)}
    : conjunction x y = some (some false)
        ↔ x = some (some false) ∨ (x.isSome ∧ y = some (some false)) := by
  rcases x with _ | _ | _ | _ <;> rcases y with _ | _ | _ | _ <;> decide

theorem Settled.conjunction {x x' y y' : Option (Option Bool)} (hx : Settled x x')
    (hy : Settled y y') : Settled (conjunction x y) (conjunction x' y') := by
  intro b hb hsome
  have hx' : x'.isSome := isSome_left_of_conjunction hsome
  cases b with
  | true =>
    rw [conjunction_eq_true_iff] at hb ⊢
    have htrue : x' = some (some true) := hx true hb.1 hx'
    have hy' : y'.isSome := isSome_right_of_conjunction hsome (by simp [htrue])
    exact ⟨htrue, hy true hb.2 hy'⟩
  | false =>
    rw [conjunction_eq_false_iff] at hb ⊢
    by_cases hfalse : x' = some (some false)
    . exact .inl hfalse
    . -- The first operand does not decide, so the second one is evaluated for both records.
      have hy' : y'.isSome := isSome_right_of_conjunction hsome hfalse
      rcases hb with hb | ⟨_, hb⟩
      . exact absurd (hx false hb hx') hfalse
      . exact .inr ⟨hx', hy false hb hy'⟩

theorem Settled.disjunction {x x' y y' : Option (Option Bool)} (hx : Settled x x')
    (hy : Settled y y') : Settled (disjunction x y) (disjunction x' y') := by
  have h := (hx.negation.conjunction hy.negation).negation
  simpa only [negation_conjunction, negation_negation] using h

theorem IsTerm.settled {e : Expr} (he : e.IsTerm) (h : e.Reveals resolve r r')
    : Settled (truth? (evaluate resolve r e)) (truth? (evaluate resolve r' e)) := by
  intro b hb _
  rw [truth?_eq_some_iff] at hb ⊢
  exact he.evaluate_eq h rfl hb

theorem IsFilter.settled {e : Expr} (he : e.IsFilter) (h : e.Reveals resolve r r')
    : Settled (truth? (evaluate resolve r e)) (truth? (evaluate resolve r' e)) := by
  induction he with
  | term he => exact he.settled h
  | not _ ih =>
    rw [truth?_not, truth?_not]
    apply (ih (h.mono fun _ => .not)).negation
  | and _ _ ihl ihr =>
    rw [truth?_and, truth?_and]
    apply (ihl (h.mono fun _ => .lhs)).conjunction (ihr (h.mono fun _ => .rhs))
  | or _ _ ihl ihr =>
    rw [truth?_or, truth?_or]
    apply (ihl (h.mono fun _ => .lhs)).disjunction (ihr (h.mono fun _ => .rhs))

/--
An answer that a filter gives in spite of nulls is right: if it is known for a record, it is the
same for each record in which more values are known, unless the filter fails there.
-/
theorem eq_of_reveals {e : Expr} (he : e.IsFilter) (h : e.Reveals resolve r r') {b : Bool}
    (hb : evaluate resolve r e = .ok (.boolean b)) {v : Value}
    (hv : evaluate resolve r' e = .ok v) : v = .boolean b := by
  have hsome : (truth? (.ok v)).isSome := by
    cases he with
    | term he =>
      rw [← hv, he.evaluate_eq h rfl hb]
      rfl
    | not => apply isSome_truth?_of_not hv
    | and => apply isSome_truth?_of_connect (evaluate_and .. ▸ hv)
    | or => apply isSome_truth?_of_connect (evaluate_or .. ▸ hv)
  have htruth : truth? (.ok v) = some (some b) :=
    hv ▸ he.settled h b (truth?_eq_some_iff.mpr hb) (hv ▸ hsome)
  rw [truth?_eq_some_iff] at htruth
  cases htruth
  rfl

end Expr

/-! ### Boxes of an unknown size -/

namespace Boxes

def fields : List Field := [
  ⟨"Name", .simple .string, false, false⟩,
  ⟨"Size", .simple .int32, false, true⟩,
  ⟨"Level", .simple .int32, false, false⟩]

def resolve (_ : Shape) : Option (Accessor (Dynamic Empty)) := some (Bag.rawAccessor fields)

def box (size : Value) : Record (Dynamic Empty) :=
  ⟨⟨"box"⟩, .bag [
    ("Name", .single (.simple (.string "abc"))),
    ("Size", .single (.ofValue size)),
    ("Level", .single (.simple (.int32 5)))]⟩

def name : Expr := .property ["Name"]

def size : Expr := .property ["Size"]

def level : Expr := .property ["Level"]

def filter : Expr :=
  .binary .and
    (.not (.binary (.comparison .lt) size (.call .length [name])))
    (.binary (.comparison .lt) level (.literal (.int32 1)))

theorem isFilter : filter.IsFilter := by
  have hlength : (Expr.call .length [name]).IsTerm := .call _ (by simp [Expr.IsTerm.property, name])
  exact .and (.not (.term (.comparison rfl (.property _) hlength)))
    (.term (.comparison rfl (.property _) (.literal _)))

theorem eq_of_mentions {path : Path} (h : filter.Mentions path)
    : path = ["Size"] ∨ path = ["Name"] ∨ path = ["Level"] := by
  unfold filter size name level at h
  cases h with
  | lhs h =>
    cases h with
    | not h =>
      cases h with
      | lhs h =>
        cases h
        simp
      | rhs h =>
        cases h with
        | arg harg h =>
          rw [List.mem_singleton] at harg
          subst harg
          cases h
          simp
  | rhs h =>
    cases h with
    | lhs h =>
      cases h
      simp
    | rhs h => cases h

theorem reveals (n : Value) : filter.Reveals resolve (box .null) (box n) := by
  intro path v hpath hnull hv
  rcases eq_of_mentions hpath with rfl | rfl | rfl
  . cases hv
    cases hnull
  . exact hv
  . exact hv

/--
The level of the box decides as long as its size is not known. Once it is, the first operand is
false and the level is not looked at.
-/
theorem eq_of_reveals_two
    : filter.IsFilter
        ∧
      filter.Reveals resolve (box .null) (box (.int32 2))
        ∧
      filter.evaluate resolve (box .null) = .ok (.boolean false)
        ∧
      filter.evaluate resolve (box (.int32 2)) = .ok (.boolean false) := by
  have hnull : filter.evaluate resolve (box .null) = .ok (.boolean false) := rfl
  obtain ⟨v, hv⟩ : ∃ v, filter.evaluate resolve (box (.int32 2)) = .ok v := ⟨_, rfl⟩
  refine ⟨isFilter, reveals _, hnull, ?_⟩
  rw [hv, Expr.eq_of_reveals isFilter (reveals _) hnull hv]

end Boxes

end Edm
