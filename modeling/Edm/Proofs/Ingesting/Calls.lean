import Mathlib.Data.List.Forall2
import Edm.Proofs.Ingesting.Steps

/-!
This module contains the calls of hooks while records are made. The records form a tree, as each is
made together with those in its fields, and the calls for a record enclose the calls for these. A
failure interrupts the calls; then the records around it have been called for only before they were
filled.
-/

namespace Edm

variable {α β γ : Type}

/-- What is known of a call without the contents of the record. -/
def HookCall.head (call : HookCall α) : String × Stage × Source α :=
  (call.label, call.stage, call.source)

/-- The calls for a record at some stage. There is none if nothing is to be done at the stage. -/
def callsFor (hooks? : Option (Hooks α)) (stage : Stage) (source : Source α) :
    List (String × Stage × Source α) :=
  match hooks? with
  | none => []
  | some hooks => if (hooks.hook? stage).isSome then [(hooks.label, stage, source)] else []

def FailedCall (failure : Failure) (hooks? : Option (Hooks α)) (stage : Stage) (source : Source α)
    (made : List (HookCall α)) : Prop :=
  ∃ hooks hook data,
    hooks? = some hooks
      ∧
    hooks.hook? stage = some hook
      ∧
    hook source data = .error failure
      ∧
    made = [⟨hooks.label, stage, source, data⟩]

theorem callsFor_of_hook {hooks : Hooks α} {stage : Stage} {source : Source α}
    {hook : Source α → α → Except Failure α} (hhook : hooks.hook? stage = some hook)
    : callsFor (some hooks) stage source = [(hooks.label, stage, source)] := by
  rw [callsFor, hhook, Option.isSome_some, if_pos rfl]

theorem FailedCall.map_head {failure : Failure} {hooks? : Option (Hooks α)} {stage : Stage}
    {source : Source α} {made : List (HookCall α)}
    (h : FailedCall failure hooks? stage source made)
    : made.map (·.head) = callsFor hooks? stage source := by
  obtain ⟨hooks, hook, data, rfl, hhook, _, rfl⟩ := h
  rw [callsFor_of_hook hhook]
  rfl

/-- A record that is made, with its hooks, what it is filled from, and the records in its fields. -/
inductive Rebuilt (α : Type) where
  | record (hooks? : Option (Hooks α)) (source : Source α) (nested : List (Rebuilt α))

namespace Rebuilt

mutual

/-- The calls for a record and for all records in its fields. -/
def calls : Rebuilt α → List (String × Stage × Source α)
  | .record hooks? source nested =>
    callsFor hooks? .before source ++ callsOfAll nested ++ callsFor hooks? .after source

def callsOfAll : List (Rebuilt α) → List (String × Stage × Source α)
  | [] => []
  | r :: rs => r.calls ++ callsOfAll rs

end

mutual

/-- A record and all records in its fields, each with its hooks and what it is filled from. -/
def sources : Rebuilt α → List (Option (Hooks α) × Source α)
  | .record hooks? source nested => (hooks?, source) :: sourcesOfAll nested

def sourcesOfAll : List (Rebuilt α) → List (Option (Hooks α) × Source α)
  | [] => []
  | r :: rs => r.sources ++ sourcesOfAll rs

end

def callsAround : Option (Hooks α) × Source α → List (String × Stage × Source α)
  | (hooks?, source) => callsFor hooks? .before source ++ callsFor hooks? .after source

mutual

theorem perm_calls : ∀ r : Rebuilt α, r.calls.Perm (r.sources.flatMap callsAround)
  | .record hooks? source nested => by
    rw [calls, sources, List.flatMap_cons, callsAround, List.append_assoc, List.append_assoc]
    apply List.Perm.append_left
    calc
      List.Perm (callsOfAll nested ++ callsFor hooks? .after source)
          (callsFor hooks? .after source ++ callsOfAll nested) := List.perm_append_comm
      List.Perm _ (callsFor hooks? .after source ++ (sourcesOfAll nested).flatMap callsAround) :=
        (perm_callsOfAll nested).append_left _

theorem perm_callsOfAll
    : ∀ rs : List (Rebuilt α), (callsOfAll rs).Perm ((sourcesOfAll rs).flatMap callsAround)
  | [] => .refl _
  | r :: rs => by
    rw [callsOfAll, sourcesOfAll, List.flatMap_append]
    exact (perm_calls r).append (perm_callsOfAll rs)

end

end Rebuilt

/-! ### Failures -/

mutual

/--
The calls that have been made when a record fails. All of them are for records that were complete,
except that the records around the failure have been called for before they were filled. A record
that is not complete has been called for after it was filled only if just this call has failed.
-/
inductive Interrupted (failure : Failure) : Rebuilt α → List (HookCall α) → Prop where
  | unmade (r : Rebuilt α) : Interrupted failure r []
  | before {hooks? : Option (Hooks α)} {source : Source α} {nested : List (Rebuilt α)}
      {opening : List (HookCall α)} (hfailed : FailedCall failure hooks? .before source opening)
      : Interrupted failure (.record hooks? source nested) opening
  | filling {hooks? : Option (Hooks α)} {source : Source α} {nested : List (Rebuilt α)}
      {opening made : List (HookCall α)}
      (hopening : opening.map (·.head) = callsFor hooks? .before source)
      (h : InterruptedAmong failure nested made)
      : Interrupted failure (.record hooks? source nested) (opening ++ made)
  | after {hooks? : Option (Hooks α)} {source : Source α} {nested : List (Rebuilt α)}
      {opening made closing : List (HookCall α)}
      (hopening : opening.map (·.head) = callsFor hooks? .before source)
      (hmade : made.map (·.head) = Rebuilt.callsOfAll nested)
      (hfailed : FailedCall failure hooks? .after source closing)
      : Interrupted failure (.record hooks? source nested) (opening ++ (made ++ closing))

/-- The calls that have been made when one of several records fails, or what comes after it. -/
inductive InterruptedAmong (failure : Failure) : List (Rebuilt α) → List (HookCall α) → Prop where
  | stopped (rs : List (Rebuilt α)) : InterruptedAmong failure rs []
  | first {r : Rebuilt α} {rs : List (Rebuilt α)} {made : List (HookCall α)}
      (h : Interrupted failure r made) : InterruptedAmong failure (r :: rs) made
  | later {r : Rebuilt α} {rs : List (Rebuilt α)} {complete made : List (HookCall α)}
      (hcomplete : complete.map (·.head) = r.calls) (h : InterruptedAmong failure rs made)
      : InterruptedAmong failure (r :: rs) (complete ++ made)

end

section

variable {failure : Failure}

mutual

theorem Interrupted.isPrefix {r : Rebuilt α} {made : List (HookCall α)}
    (h : Interrupted failure r made) : made.map (·.head) <+: r.calls :=
  match h with
  | .unmade _ => List.nil_prefix
  | .before hfailed => by
    rw [hfailed.map_head, Rebuilt.calls, List.append_assoc]
    apply List.prefix_append
  | .filling hopening h => by
    rw [List.map_append, hopening, Rebuilt.calls, List.append_assoc, List.prefix_append_right_inj]
    exact h.isPrefix.trans (List.prefix_append _ _)
  | .after hopening hmade hfailed => by
    simp only [List.map_append, hopening, hmade, hfailed.map_head, Rebuilt.calls,
      List.append_assoc, List.prefix_rfl]

theorem InterruptedAmong.isPrefix {rs : List (Rebuilt α)} {made : List (HookCall α)}
    (h : InterruptedAmong failure rs made) : made.map (·.head) <+: Rebuilt.callsOfAll rs :=
  match h with
  | .stopped _ => List.nil_prefix
  | .first h => by
    rw [Rebuilt.callsOfAll]
    exact h.isPrefix.trans (List.prefix_append _ _)
  | .later hcomplete h => by
    rw [List.map_append, hcomplete, Rebuilt.callsOfAll, List.prefix_append_right_inj]
    exact h.isPrefix

end

theorem InterruptedAmong.append_right {rs : List (Rebuilt α)} {made : List (HookCall α)}
    (h : InterruptedAmong failure rs made) (rs' : List (Rebuilt α))
    : InterruptedAmong failure (rs ++ rs') made := by
  induction rs generalizing made with
  | nil =>
    cases h
    apply InterruptedAmong.stopped
  | cons r rs ih =>
    cases h with
    | stopped => apply InterruptedAmong.stopped
    | first h => exact .first h
    | later hcomplete h => exact .later hcomplete (ih h)

theorem InterruptedAmong.append_left {rs rs' : List (Rebuilt α)} {made made' : List (HookCall α)}
    (hmade : made.map (·.head) = Rebuilt.callsOfAll rs) (h : InterruptedAmong failure rs' made')
    : InterruptedAmong failure (rs ++ rs') (made ++ made') := by
  induction rs generalizing made with
  | nil =>
    rw [Rebuilt.callsOfAll, List.map_eq_nil_iff] at hmade
    rw [hmade]
    exact h
  | cons r rs ih =>
    obtain ⟨complete, rest, rfl, hcomplete, hrest⟩ := List.map_eq_append_iff.mp hmade
    rw [List.append_assoc]
    exact .later hcomplete (ih hrest)

theorem callsOfAll_append (rs rs' : List (Rebuilt α))
    : Rebuilt.callsOfAll (rs ++ rs') = Rebuilt.callsOfAll rs ++ Rebuilt.callsOfAll rs' := by
  induction rs with
  | nil => rfl
  | cons r rs ih =>
    rw [List.cons_append, Rebuilt.callsOfAll, ih, Rebuilt.callsOfAll, List.append_assoc]

end

/-! ### Calls of computations -/

/-- A computation takes no call back; its result and the calls that it adds are as stated. -/
def Leaves (x : Ingest α β) (Q : Except Failure β → List (HookCall α) → Prop) : Prop :=
  ∀ calls, ∃ result made, x.run.run calls = (result, calls ++ made) ∧ Q result made

section

variable {P : Except Failure β → List (HookCall α) → Prop}
  {Q : Except Failure γ → List (HookCall α) → Prop}

theorem Leaves.imp {x : Ingest α γ} {Q' : Except Failure γ → List (HookCall α) → Prop}
    (hx : Leaves x Q) (h : ∀ result made, Q result made → Q' result made) : Leaves x Q' := by
  intro calls
  obtain ⟨result, made, hrun, hQ⟩ := hx calls
  exact ⟨result, made, hrun, h result made hQ⟩

theorem Leaves.bind {x : Ingest α β} {f : β → Ingest α γ} (hx : Leaves x P)
    (herror : ∀ failure made, P (.error failure) made → Q (.error failure) made)
    (hok : ∀ b made, P (.ok b) made → Leaves (f b) fun result made' => Q result (made ++ made'))
    : Leaves (x >>= f) Q := by
  intro calls
  obtain ⟨result, made, hrun, h⟩ := hx calls
  rw [ExceptT.run_bind, StateT.run_bind, hrun]
  cases result with
  | error failure => exact ⟨.error failure, made, rfl, herror failure made h⟩
  | ok b =>
    obtain ⟨result, made', hrun', h'⟩ := hok b made h (calls ++ made)
    refine ⟨result, made ++ made', ?_, h'⟩
    rw [← List.append_assoc]
    exact hrun'

end

def MakesAll (x : Ingest α β) (rs : List (Rebuilt α)) : Prop :=
  Leaves x fun result made =>
    match result with
    | .ok _ => made.map (·.head) = Rebuilt.callsOfAll rs
    | .error failure => InterruptedAmong failure rs made

section

variable {x : Ingest α β} {f : β → Ingest α γ} {r : Rebuilt α} {rs rs' : List (Rebuilt α)}

theorem MakesAll.bind (hx : MakesAll x rs) (hf : ∀ b, MakesAll (f b) rs')
    : MakesAll (x >>= f) (rs ++ rs') := by
  apply Leaves.bind hx
  . intro failure made h
    exact h.append_right rs'
  . intro b made hmade
    apply (hf b).imp
    intro result made' h
    cases result with
    | error failure => exact .append_left hmade h
    | ok c =>
      dsimp at hmade h ⊢
      rw [List.map_append, hmade, h, callsOfAll_append]

end

end Edm
