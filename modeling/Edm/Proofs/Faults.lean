import Edm.Proofs.Paging
import Edm.Proofs.Sorting
import Edm.Proofs.Truth

/-!
This module contains the failures of evaluation. Records that cannot be read, values of the wrong
type and functions with the wrong number of arguments are all told as failures of the expression.
The main statement is that there are no others for records with typed accessors, and that this is
how filters and orderings that cannot be evaluated make a query fail.
-/

namespace Edm

variable {α β : Type}

/-- What was to be read is not there or cannot be read. -/
inductive Failure.IsRead : Failure → Prop where
  | notFound (what : Missing) : IsRead (.notFound what)
  | invalidRecord (cause : BadRecord) : IsRead (.invalidRecord cause)

namespace Accessor

/-- A typed accessor, or one that is made from it by any number of others. -/
inductive Layered : Accessor α → Prop where
  | typed {τ : Type} (k : Kind α τ) (empty : τ) (members : List (Member α τ))
      : Layered (.typed k empty members)
  | enumsAsText {a : Accessor α} (h : Layered a) : Layered a.enumsAsText
  | withComputedKey {τ : Type} {a : Accessor α} (h : Layered a) (type : SimpleType)
      (k : Kind α τ) (key : τ → Value) : Layered (a.withComputedKey type (keyOf k key))

theorem findMember_failsWith {τ : Type} (k : Kind α τ) (members : List (Member α τ))
    (name : String) : FailsWith Failure.IsRead (findMember k members name) := by
  unfold findMember
  split
  . apply failsWith_ok
  . exact failsWith_error.mpr (.notFound _)

theorem projectOrFail_failsWith {τ : Type} (k : Kind α τ) (data : α)
    : FailsWith Failure.IsRead (projectOrFail k data) := by
  unfold projectOrFail
  split
  . apply failsWith_ok
  . exact failsWith_error.mpr (.invalidRecord _)

theorem keyOf_failsWith {τ : Type} (k : Kind α τ) (key : τ → Value) (data : α)
    : FailsWith Failure.IsRead (keyOf k key data) := by
  unfold keyOf
  split
  . apply failsWith_ok
  . exact failsWith_error.mpr (.invalidRecord _)

theorem Layered.get_failsWith {a : Accessor α} (h : a.Layered) (data : α) (name : String)
    : FailsWith Failure.IsRead (a.get data name) := by
  induction h with
  | typed k empty members =>
    apply (projectOrFail_failsWith k data).bind
    intro t
    apply (findMember_failsWith k members name).bind
    intro slot
    cases slot with
    | single get set => apply failsWith_pure
    | many get set => exact failsWith_error.mpr (.invalidRecord _)
  | enumsAsText _ ih =>
    apply ih.bind
    intro v
    apply failsWith_pure
  | withComputedKey _ type k key ih =>
    unfold Accessor.withComputedKey
    dsimp
    split
    . apply (keyOf_failsWith k key data).map
    . exact ih

end Accessor

namespace Expr

/-! ### Parts of expressions -/

inductive Occurs (x : Expr) : Expr → Prop where
  | self : Occurs x x
  | not {e : Expr} (h : Occurs x e) : Occurs x (.not e)
  | neg {e : Expr} (h : Occurs x e) : Occurs x (.neg e)
  | left {op : BinaryOp} {lhs rhs : Expr} (h : Occurs x lhs) : Occurs x (.binary op lhs rhs)
  | right {op : BinaryOp} {lhs rhs : Expr} (h : Occurs x rhs) : Occurs x (.binary op lhs rhs)
  | argument {f : Builtin} {args : List Expr} {e : Expr} (he : e ∈ args) (h : Occurs x e)
      : Occurs x (.call f args)

theorem Occurs.trans {x y z : Expr} (hxy : Occurs x y) (hyz : Occurs y z) : Occurs x z := by
  induction hyz with
  | self => exact hxy
  | not _ ih => exact .not ih
  | neg _ ih => exact .neg ih
  | left _ ih => exact .left ih
  | right _ ih => exact .right ih
  | argument he _ ih => exact .argument he ih

def readsCalendar (f : Builtin) : Bool :=
  f ∈ [Builtin.year, .month, .day, .hour, .minute, .second]

/--
How the evaluation of an expression fails. Only a part of a date that the clocks show and that the
calendar does not have ends it in another way.
-/
inductive Fault (resolve : Shape → Option (Accessor α)) (r : Record α) (e : Expr)
    : Failure → Prop where
  | evaluation (cause : BadExpression) : Fault resolve r e (.evaluation cause)
  | localTime {f : Builtin} {arg : Expr} {t : OffsetDateTime} (hpart : Occurs (.call f [arg]) e)
      (hcalendar : readsCalendar f = true) (harg : evaluate resolve r arg = .ok (.dateTimeOffset t))
      (hrange : t.atOffset.date.isInRange = false)
      : Fault resolve r e (.panicked .localTimeOutOfRange)

theorem Fault.mono {resolve : Shape → Option (Accessor α)} {r : Record α} {x e : Expr}
    {failure : Failure} (h : Fault resolve r x failure) (hx : Occurs x e)
    : Fault resolve r e failure := by
  cases h with
  | evaluation cause => exact .evaluation cause
  | localTime hpart hcalendar harg hrange =>
    exact .localTime (hpart.trans hx) hcalendar harg hrange

section

variable {p : Failure → Prop} (hp : ∀ cause, p (.evaluation cause))

include hp

theorem failsWith_failing (cause : BadExpression)
    : FailsWith p (failing cause : Except Failure β) := by
  exact failsWith_error.mpr (hp cause)

/-! ### Operators and functions -/

theorem compareValues_failsWith (a b : Value) : FailsWith p (compareValues a b) := by
  unfold compareValues
  split
  . apply failsWith_ok
  . apply failsWith_failing hp

theorem comparison_failsWith (c : Comparison) (a b : Value)
    : FailsWith p (comparison c a b) := by
  have hholds : FailsWith p (do return Value.boolean (holds c (← compareValues a b))) := by
    apply (compareValues_failsWith hp a b).bind
    intro o
    apply failsWith_pure
  unfold comparison
  split
  . split
    . exact hholds
    . apply failsWith_ok
  . split
    . exact hholds
    . apply failsWith_ok
  . split
    . apply failsWith_ok
    . exact hholds

theorem truth_failsWith (op : BinaryOp) (v : Value) : FailsWith p (truth op v) := by
  unfold truth
  split
  . apply failsWith_ok
  . apply failsWith_ok
  . apply failsWith_failing hp

theorem negateTruth_failsWith (v : Value) : FailsWith p (negateTruth v) := by
  unfold negateTruth
  split
  . apply failsWith_ok
  . apply failsWith_ok
  . apply failsWith_failing hp

theorem number_failsWith (v : Value) : FailsWith p (number v) := by
  unfold number
  split
  . apply failsWith_ok
  . apply failsWith_failing hp

theorem arithmetic_failsWith (op : ArithmeticOp) (a b : Value)
    : FailsWith p (arithmetic op a b) := by
  apply (number_failsWith hp a).bind
  intro m
  apply (number_failsWith hp b).bind
  intro n
  split
  . apply failsWith_ok
  . apply failsWith_failing hp

theorem negate_failsWith (v : Value) : FailsWith p (negate v) := by
  apply (number_failsWith hp v).bind
  intro n
  split
  . apply failsWith_ok
  . apply failsWith_failing hp

theorem text_failsWith (f : Builtin) (v : Value) : FailsWith p (text f v) := by
  unfold text
  split
  . apply failsWith_ok
  . apply failsWith_failing hp

theorem index_failsWith (f : Builtin) (v : Value) : FailsWith p (index f v) := by
  unfold index
  split
  . split
    . apply failsWith_ok
    . apply failsWith_failing hp
  . apply failsWith_failing hp

theorem rounded_failsWith (f : Builtin) (decimal : Decimal → Decimal)
    (float : Ieee.Datum → Ieee.Datum) (v : Value)
    : FailsWith p (rounded f decimal float v) := by
  unfold rounded
  split
  . apply failsWith_ok
  . apply failsWith_ok
  . apply failsWith_ok
  . split
    . apply failsWith_ok
    . apply failsWith_failing hp

/-- The date that the clocks show at a moment may be none of the calendar. -/
def CalendarFault (v : Value) (failure : Failure) : Prop :=
  failure = .panicked .localTimeOutOfRange
    ∧ ∃ t, v = .dateTimeOffset t ∧ t.atOffset.date.isInRange = false

theorem calendarParts_failsWith {v : Value} (hv : ∀ failure, CalendarFault v failure → p failure)
    (f : Builtin) : FailsWith p (calendarParts f v) := by
  unfold calendarParts
  split
  . apply failsWith_ok
  . next t =>
    split
    . apply failsWith_ok
    . next hrange => exact failsWith_error.mpr (hv _ ⟨rfl, t, rfl, Bool.eq_false_iff.mpr hrange⟩)
  . apply failsWith_ok
  . apply failsWith_failing hp

theorem datePart_failsWith {v : Value} (hv : ∀ failure, CalendarFault v failure → p failure)
    (f : Builtin) (part : Date → Int) : FailsWith p (datePart f part v) := by
  apply (calendarParts_failsWith hp hv f).bind
  intro parts
  split
  . apply failsWith_ok
  . apply failsWith_failing hp

theorem timePart_failsWith {v : Value} (hv : ∀ failure, CalendarFault v failure → p failure)
    (f : Builtin) (part : TimeOfDay → Nat) : FailsWith p (timePart f part v) := by
  apply (calendarParts_failsWith hp hv f).bind
  intro parts
  apply failsWith_pure

theorem callFunction_failsWith {f : Builtin} {args : List Value}
    (hargs : ∀ v failure, args = [v] → readsCalendar f = true → CalendarFault v failure → p failure)
    : FailsWith p (callFunction f args) := by
  unfold callFunction
  split
  case h_13 | h_14 | h_15 => exact datePart_failsWith hp (fun _ => hargs _ _ rfl rfl) _ _
  case h_16 | h_17 | h_18 => exact timePart_failsWith hp (fun _ => hargs _ _ rfl rfl) _ _
  all_goals simp only [failsWith_bind, text_failsWith hp, index_failsWith hp, rounded_failsWith hp,
    failsWith_failing hp, failsWith_pure, true_and, implies_true]
  . intro _ _ _ _
    split <;> apply failsWith_pure

/-! ### Expressions -/

variable {resolve : Shape → Option (Accessor α)}

def ReadsTyped (resolve : Shape → Option (Accessor α)) : Prop :=
  ∀ shape a, resolve shape = some a → a.Layered

theorem readField_failsWith (hresolve : ReadsTyped resolve) (path : Path) (r : Record α)
    (field : String) : FailsWith p (readField resolve path r field) := by
  unfold readField
  split
  . apply failsWith_failing hp
  . next accessor haccessor =>
    split
    . apply failsWith_ok
    . apply failsWith_failing hp
    . apply failsWith_failing hp
    . next failure hmissing hbad hget =>
      cases (hresolve r.shape accessor haccessor).get_failsWith r.data field failure hget with
      | notFound what => exact (hmissing what rfl).elim
      | invalidRecord cause => exact (hbad cause rfl).elim

theorem followPath_failsWith (hresolve : ReadsTyped resolve) (path : Path) (r : Record α)
    (rest : Path) : FailsWith p (followPath resolve path r rest) := by
  fun_induction followPath resolve path r rest with
  | case1 => apply failsWith_failing hp
  | case2 r last =>
    apply (readField_failsWith hp hresolve path r last).bind
    intro v
    cases v with
    | null | simple v | enum member => apply failsWith_ok
    | record next => apply failsWith_failing hp
  | case3 r segment rest _ ih =>
    apply (readField_failsWith hp hresolve path r segment).bind
    intro v
    cases v with
    | null => apply failsWith_ok
    | record next => exact ih next
    | simple v | enum member => apply failsWith_failing hp

theorem connect_failsWith {x y : Except Failure Value} (op : BinaryOp) (decisive : Bool)
    (combine : Option Bool → Option Bool → Option Bool) (hx : FailsWith p x)
    (hy : FailsWith p y)
    : FailsWith p (connect op decisive combine x y) := by
  apply hx.bind
  intro v
  apply (truth_failsWith hp op v).bind
  intro a
  split
  . apply failsWith_pure
  . apply hy.bind
    intro w
    apply (truth_failsWith hp op w).bind
    intro b
    apply failsWith_pure

end

section

variable {resolve : Shape → Option (Accessor α)}

theorem exists_of_evaluateAll_singleton {r : Record α} {es : List Expr} {v : Value}
    (h : evaluateAll resolve r es = .ok [v]) : ∃ e, es = [e] ∧ evaluate resolve r e = .ok v := by
  cases es with
  | nil => cases h
  | cons e es =>
    rw [evaluateAll] at h
    obtain ⟨w, hw, h⟩ := bind_eq_ok.mp h
    obtain ⟨vs, hvs, h⟩ := bind_eq_ok.mp h
    cases h
    cases es with
    | nil => exact ⟨e, rfl, hw⟩
    | cons e' es =>
      rw [evaluateAll] at hvs
      obtain ⟨w', _, hvs⟩ := bind_eq_ok.mp hvs
      obtain ⟨vs', _, hvs⟩ := bind_eq_ok.mp hvs
      cases hvs

theorem operands_failsWith {p : Failure → Prop} {x y : Except Failure Value}
    {f : Value → Value → Except Failure Value} (hx : FailsWith p x) (hy : FailsWith p y)
    (hf : ∀ a b, FailsWith p (f a b))
    : FailsWith p (x >>= fun a => y >>= f a) := by
  apply hx.bind
  intro a
  apply hy.bind
  intro b
  apply hf

mutual

theorem evaluate_failsWith (hresolve : ReadsTyped resolve) (r : Record α)
    : ∀ e, FailsWith (Fault resolve r e) (evaluate resolve r e)
  | .literal v => by
    rw [evaluate]
    apply failsWith_ok
  | .property path => by
    rw [evaluate]
    exact followPath_failsWith .evaluation hresolve path r path
  | .not e => by
    rw [evaluate]
    apply ((evaluate_failsWith hresolve r e).mono fun _ h => h.mono (.not .self)).bind
    exact negateTruth_failsWith .evaluation
  | .neg e => by
    rw [evaluate]
    apply ((evaluate_failsWith hresolve r e).mono fun _ h => h.mono (.neg .self)).bind
    intro v
    split
    . apply failsWith_pure
    . exact negate_failsWith .evaluation v
  | .binary op lhs rhs => by
    have hlhs : FailsWith (Fault resolve r (.binary op lhs rhs)) (evaluate resolve r lhs) :=
      (evaluate_failsWith hresolve r lhs).mono fun _ h => h.mono (.left .self)
    have hrhs : FailsWith (Fault resolve r (.binary op lhs rhs)) (evaluate resolve r rhs) :=
      (evaluate_failsWith hresolve r rhs).mono fun _ h => h.mono (.right .self)
    cases op with
    | and =>
      rw [evaluate_and]
      exact connect_failsWith .evaluation _ _ _ hlhs hrhs
    | or =>
      rw [evaluate_or]
      exact connect_failsWith .evaluation _ _ _ hlhs hrhs
    | comparison c =>
      rw [evaluate]
      apply operands_failsWith hlhs hrhs
      exact comparison_failsWith .evaluation c
    | arithmetic op =>
      rw [evaluate]
      apply operands_failsWith hlhs hrhs
      intro a b
      split
      . apply failsWith_pure
      . exact arithmetic_failsWith .evaluation op a b
  | .call f args => by
    rw [evaluate]
    dsimp
    split
    . exact failsWith_failing .evaluation _
    . refine failsWith_bind.mpr ⟨?_, ?_⟩
      . refine (evaluateAll_failsWith hresolve r args).mono ?_
        rintro failure ⟨e, he, h⟩
        exact h.mono (.argument he .self)
      . intro values hvalues
        split
        . apply failsWith_pure
        . refine callFunction_failsWith .evaluation ?_
          rintro _ _ rfl hcalendar ⟨rfl, t, rfl, hrange⟩
          obtain ⟨arg, rfl, harg⟩ := exists_of_evaluateAll_singleton hvalues
          exact .localTime .self hcalendar harg hrange

theorem evaluateAll_failsWith (hresolve : ReadsTyped resolve) (r : Record α)
    : ∀ es, FailsWith (fun failure => ∃ e ∈ es, Fault resolve r e failure)
        (evaluateAll resolve r es)
  | [] => by
    rw [evaluateAll]
    apply failsWith_ok
  | e :: es => by
    rw [evaluateAll]
    refine FailsWith.bind ?_ fun v => FailsWith.bind ?_ fun vs => failsWith_pure _
    . exact (evaluate_failsWith hresolve r e).mono fun _ h => ⟨e, List.mem_cons_self, h⟩
    . refine (evaluateAll_failsWith hresolve r es).mono ?_
      rintro failure ⟨e', he', h⟩
      exact ⟨e', List.mem_cons_of_mem e he', h⟩

end

/-- In the east the clocks are past the last day of the calendar already. -/
example (r : Record α) : evaluate (fun _ => none) r (.call .year [.literal (.dateTimeOffset
    ⟨⟨⟨262142, 12, 31⟩, ⟨86399, 0⟩⟩, 3600⟩)]) = .error (.panicked .localTimeOutOfRange) := by
  cbv

theorem evaluatePredicate_failsWith (hresolve : ReadsTyped resolve) (e : Expr) (r : Record α)
    : FailsWith (Fault resolve r e) (evaluatePredicate resolve e r) := by
  apply (evaluate_failsWith hresolve r e).bind
  intro v
  split
  . apply failsWith_ok
  . apply failsWith_ok
  . exact failsWith_failing .evaluation _

end

end Expr

/-! ### Queries -/

section

variable {resolve : Shape → Option (Accessor α)} {keys : List OrderKey} {rs : List (Record α)}

/-- How an ordering fails: as its keys do, or since their values cannot be compared. -/
inductive OrderingFault (resolve : Shape → Option (Accessor α)) (keys : List OrderKey)
    (rs : List (Record α)) : Failure → Prop where
  | key {r : Record α} {key : OrderKey} {failure : Failure} (hr : r ∈ rs) (hkey : key ∈ keys)
      (h : key.expr.Fault resolve r failure) : OrderingFault resolve keys rs failure
  | comparison (cause : BadExpression) : OrderingFault resolve keys rs (.evaluation cause)
  | inconsistent (hmany : Sorter.insertionLimit < rs.length)
      : OrderingFault resolve keys rs (.panicked .inconsistentOrder)

theorem compareKeys_failsWith {p : Failure → Prop} (hp : ∀ cause, p (.evaluation cause))
    (a b : Value) : FailsWith p (compareKeys a b) := by
  unfold compareKeys
  split
  . apply failsWith_ok
  . apply failsWith_ok
  . apply failsWith_ok
  . exact Expr.compareValues_failsWith hp a b

theorem orderRecords_failsWith (hresolve : Expr.ReadsTyped resolve) (keys : List OrderKey)
    (rs : List (Record α))
    : FailsWith (OrderingFault resolve keys rs) (orderRecords resolve keys rs) := by
  unfold orderRecords orderRecordsBy
  split
  . apply failsWith_pure
  . refine failsWith_bind.mpr ⟨?_, ?_⟩
    . apply failsWith_mapM
      intro r hr
      refine FailsWith.bind ?_ fun values => failsWith_pure _
      apply failsWith_mapM
      intro key hkey
      exact (Expr.evaluate_failsWith hresolve r key.expr).mono fun _ h => .key hr hkey h
    . intro keyed hkeyed failure h
      have hlength : keyed.length = rs.length := by
        rw [← records_of_keyValues hkeyed, List.length_map]
      rcases orderedRecords_error (Sorter.within_sort keyed) h with ⟨rfl, hmany⟩ | ⟨a, b, hfail⟩
      . exact .inconsistent (hlength ▸ hmany)
      . exact compareKeys_failsWith .comparison a b failure hfail

theorem exists_of_orderRecords {ordered : List (Record α)}
    (h : orderRecords resolve keys rs = .ok ordered)
    : ∀ r ∈ rs, ∀ key ∈ keys, ∃ v, key.expr.evaluate resolve r = .ok v := by
  intro r hr key hkey
  rw [orderRecords, orderRecordsBy, if_neg (by simpa using List.ne_nil_of_mem hkey)] at h
  obtain ⟨keyed, hkeyed, _⟩ := bind_eq_ok.mp h
  obtain ⟨_, _, hr⟩ := exists_of_forall₂ (mapM_eq_ok.mp hkeyed) hr
  obtain ⟨values, hvalues, _⟩ := bind_eq_ok.mp hr
  obtain ⟨v, _, hv⟩ := exists_of_forall₂ (mapM_eq_ok.mp hvalues) hkey
  exact ⟨v, hv⟩

end

namespace Registry

structure Layered (r : Registry α) : Prop where
  sets : ∀ e ∈ r.sets, e.accessor.Layered
  complexTypes : ∀ e ∈ r.complexTypes, e.accessor.Layered

theorem Layered.reads {r : Registry α} (h : r.Layered) : Expr.ReadsTyped r.accessor? := by
  intro shape a ha
  unfold accessor? at ha
  split at ha
  . next e he =>
    cases ha
    exact h.sets e (mem_of_setOfShape? he).1
  . obtain ⟨e, he, rfl⟩ := Option.map_eq_some_iff.mp ha
    exact h.complexTypes e (mem_of_complexOfShape? he).1

end Registry

namespace Snapshot

variable {s : Snapshot α} {name : String} {q : Query} {set : EntitySet} {e : SetEntry α}
  {matching : List (Record α)} {failure : Failure}

theorem filtered_failsWith (h : s.registry.Layered) (filter : Expr) (rs : List (Record α))
    : FailsWith (fun failure => ∃ r ∈ rs, filter.Fault s.registry.accessor? r failure)
        (s.filtered (some filter) rs) := by
  apply failsWith_filterM
  intro r hr
  exact (Expr.evaluatePredicate_failsWith h.reads filter r).mono fun _ h => ⟨r, hr, h⟩

theorem exists_filter_fault (h : s.registry.Layered) {filter : Expr} {rs : List (Record α)}
    (hfail : ∃ r ∈ rs, ∀ keep, filter.evaluatePredicate s.registry.accessor? r ≠ .ok keep)
    : ∃ failure,
        (∃ r ∈ rs, filter.Fault s.registry.accessor? r failure)
          ∧
        s.filtered (some filter) rs = .error failure := by
  obtain ⟨r, hr, hfail⟩ := hfail
  cases hfiltered : s.filtered (some filter) rs with
  | ok matching =>
    obtain ⟨keep, hkeep⟩ := exists_of_filterM hfiltered r hr
    exact absurd hkeep (hfail keep)
  | error failure => exact ⟨failure, filtered_failsWith h filter rs failure hfiltered, rfl⟩

theorem exists_ordering_fault (h : s.registry.Layered) {orderBy : List OrderKey}
    (hfail : (∃ r ∈ matching, ∃ key ∈ orderBy, ∀ v,
        key.expr.evaluate s.registry.accessor? r ≠ .ok v)
      ∨ ∀ ordered, orderRecords s.registry.accessor? orderBy matching ≠ .ok ordered)
    : ∃ failure,
        OrderingFault s.registry.accessor? orderBy matching failure
          ∧
        orderRecords s.registry.accessor? orderBy matching = .error failure := by
  cases hordered : orderRecords s.registry.accessor? orderBy matching with
  | ok ordered =>
    rcases hfail with ⟨r, hr, key, hkey, hfail⟩ | hfail
    . obtain ⟨v, hv⟩ := exists_of_orderRecords hordered r hr key hkey
      exact absurd hv (hfail v)
    . exact absurd hordered (hfail ordered)
  | error failure => exact ⟨failure, orderRecords_failsWith h.reads _ _ failure hordered, rfl⟩

theorem page_of_filtered_error (hfind : s.find name = .ok (set, e))
    (h : s.filtered q.filter? e.records = .error failure) : s.page name q = .error failure := by
  unfold page
  rw [hfind, ok_bind]
  dsimp
  rw [h]
  rfl

theorem count_of_filtered_error (hfind : s.find name = .ok (set, e))
    (h : s.filtered q.filter? e.records = .error failure) (hinline : q.inlineCount = false)
    (htoken : q.skipToken? = none) : s.count name q = .error failure := by
  unfold count
  rw [hinline, htoken, hfind, ok_bind]
  dsimp
  rw [h]
  rfl

theorem page_of_ordered_error (hfind : s.find name = .ok (set, e))
    (hfiltered : s.filtered q.filter? e.records = .ok matching)
    (h : orderRecords s.registry.accessor? q.orderBy matching = .error failure)
    : s.page name q = .error failure := by
  have hordered : s.ordered set e q matching = .error failure := by
    unfold ordered
    rw [h]
    rfl
  unfold page
  rw [hfind, ok_bind]
  dsimp
  rw [hfiltered, ok_bind, hordered]
  rfl

end Snapshot

namespace Service

/--
Expressions fail with failures of their own only, whatever the records are and whichever fields are
read. A filter that has no value for one of the records makes the page fail with such a failure, and
the count as well. So does an ordering for a page, and one by values that cannot be compared. A
count does not read the ordering.
-/
theorem failures_of_expressions {r : Registry α} (hr : r.Layered)
    : (∀ (e : Expr) (record : Record α),
        FailsWith (e.Fault r.accessor? record) (e.evaluate r.accessor? record)
          ∧
        FailsWith (e.Fault r.accessor? record) (e.evaluatePredicate r.accessor? record))
        ∧
      ∀ (s s' : Service α) current name q set e,
        s.registry = r →
        snapshot.run.run s = (.ok current, s') →
        current.find name = .ok (set, e) →
          (∀ filter, q.filter? = some filter →
            (∃ record ∈ e.records, ∀ keep,
              filter.evaluatePredicate r.accessor? record ≠ .ok keep) →
              ∃ failure,
                (∃ record ∈ e.records, filter.Fault r.accessor? record failure)
                  ∧
                (page name q).run.run s = (.error failure, s')
                  ∧
                (q.inlineCount = false → q.skipToken? = none →
                  (count name q).run.run s = (.error failure, s')))
            ∧
          (∀ matching, current.filtered q.filter? e.records = .ok matching →
            ((∃ record ∈ matching, ∃ key ∈ q.orderBy, ∀ v,
                key.expr.evaluate r.accessor? record ≠ .ok v)
              ∨
            ∀ ordered, orderRecords r.accessor? q.orderBy matching ≠ .ok ordered) →
              ∃ failure,
                OrderingFault r.accessor? q.orderBy matching failure
                  ∧
                (page name q).run.run s = (.error failure, s'))
            ∧
          ∀ orderBy, (count name { q with orderBy }).run.run s = (count name q).run.run s := by
  refine ⟨?_, ?_⟩
  . intro e record
    exact ⟨Expr.evaluate_failsWith hr.reads record e,
      Expr.evaluatePredicate_failsWith hr.reads e record⟩
  . rintro s s' current name q set e rfl hcurrent hfind
    have hregistry : current.registry = s.registry := registry_of_snapshot hcurrent
    rw [← hregistry] at hr ⊢
    refine ⟨?_, ?_, fun _ => rfl⟩
    all_goals unfold page
    all_goals rw [ask_run_of_snapshot hcurrent]
    . intro filter hfilter hfail
      obtain ⟨failure, hfault, hfiltered⟩ := Snapshot.exists_filter_fault hr hfail
      rw [← hfilter] at hfiltered
      refine ⟨failure, hfault, ?_, ?_⟩
      . rw [Snapshot.page_of_filtered_error hfind hfiltered]
      . intro hinline htoken
        rw [count, ask_run_of_snapshot hcurrent,
          Snapshot.count_of_filtered_error hfind hfiltered hinline htoken]
    . intro matching hmatching hfail
      obtain ⟨failure, hfault, hordered⟩ := Snapshot.exists_ordering_fault hr hfail
      refine ⟨failure, hfault, ?_⟩
      rw [Snapshot.page_of_ordered_error hfind hmatching hordered]

end Service

namespace Numbers

theorem layered : service.registry.Layered where
  sets := by
    intro e he
    obtain rfl : e = entry := List.mem_singleton.mp he
    exact .typed ..
  complexTypes := nofun

def mistyped : Query where
  filter? := some (.binary (.comparison .gt) (.property ["Id"]) (.literal (.string "2")))

def unordered : Query where
  orderBy := [⟨.call .length [.property ["Id"]], .descending⟩]

/-- The first query has no page and no count, and the second one has no page. -/
theorem failures_of_mistyped
    : service.registry.Layered
        ∧
      (∃ cause s',
        (Service.page "Numbers" mistyped).run.run service = (.error (.evaluation cause), s')
          ∧
        (Service.count "Numbers" mistyped).run.run service = (.error (.evaluation cause), s'))
        ∧
      ∃ cause s',
        (Service.page "Numbers" unordered).run.run service = (.error (.evaluation cause), s') := by
  obtain ⟨_, hqueries⟩ := Service.failures_of_expressions layered
  refine ⟨layered, ?_, ?_⟩
  . obtain ⟨hfilter, _⟩ :=
      hqueries service _ snapshot "Numbers" mistyped set entry rfl snapshot_run pageable.find
    obtain ⟨failure, ⟨record, _, hfault⟩, hpage, hcount⟩ := hfilter _ rfl
      ⟨⟨shape, 3⟩, by simp [entry], by
        intro keep h
        cases h⟩
    cases hfault with
    | evaluation cause => exact ⟨cause, _, hpage, hcount rfl rfl⟩
    | localTime hpart => rcases hpart with _ | _ | _ | ⟨⟨⟩⟩ | ⟨⟨⟩⟩
  . obtain ⟨_, hordering, _⟩ :=
      hqueries service _ snapshot "Numbers" unordered set entry rfl snapshot_run pageable.find
    obtain ⟨failure, hfault, hpage⟩ := hordering entry.records rfl
      (.inl ⟨⟨shape, 3⟩, by simp [entry], _, List.mem_singleton_self _, by
        intro v h
        cases h⟩)
    cases hfault with
    | comparison cause => exact ⟨cause, _, hpage⟩
    | inconsistent hmany => exact absurd hmany (by decide)
    | key _ hkey hfault =>
      obtain rfl := List.mem_singleton.mp hkey
      cases hfault with
      | evaluation cause => exact ⟨cause, _, hpage⟩
      | localTime hpart hcalendar =>
        cases hpart with
        | self => cases hcalendar
        | argument he hpart =>
          obtain rfl := List.mem_singleton.mp he
          cases hpart

/-- The second query has a count, since the numbers do not have to be ordered for it. -/
theorem count_unordered
    : (∃ cause s',
        (Service.page "Numbers" unordered).run.run service = (.error (.evaluation cause), s'))
        ∧
      ∃ s', (Service.count "Numbers" unordered).run.run service = (.ok 4, s') := by
  unfold Service.page Service.count
  rw [Service.ask_run_of_snapshot snapshot_run, Service.ask_run_of_snapshot snapshot_run]
  exact ⟨⟨.notText "length" "Edm.Int32", _, by cbv⟩, _, by cbv⟩

end Numbers

end Edm
