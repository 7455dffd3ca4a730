import Edm.Snapshot.Ingest

/-!
This module contains the steps in which a new record is filled, and what is known of them if the
record is made in the end.
-/

namespace Edm

variable {α β γ : Type}

/-- A computation has a value after some calls of hooks. -/
def Gives (x : Ingest α β) (b : β) : Prop := ∃ calls, (x.run.run calls).1 = .ok b

theorem gives_bind {x : Ingest α β} {f : β → Ingest α γ} {c : γ} (h : Gives (x >>= f) c)
    : ∃ b, Gives x b ∧ Gives (f b) c := by
  obtain ⟨calls, h⟩ := h
  rw [ExceptT.run_bind, StateT.run_bind] at h
  cases hx : x.run.run calls with
  | mk result calls' =>
    rw [hx] at h
    cases result with
    | error failure => cases h
    | ok b => exact ⟨b, ⟨calls, by rw [hx]⟩, calls', h⟩

theorem gives_pure {b c : β} (h : Gives (pure b : Ingest α β) c) : b = c := by
  obtain ⟨calls, h⟩ := h
  cases h
  rfl

theorem gives_lift {x : Except Failure β} {b : β} (h : Gives (liftM x : Ingest α β) b)
    : x = .ok b := by
  obtain ⟨calls, h⟩ := h
  cases x with
  | error failure => cases h
  | ok c =>
    cases h
    rfl

theorem not_gives_throw {failure : Failure} {b : β} : ¬ Gives (throw failure : Ingest α β) b := by
  rintro ⟨calls, h⟩
  cases h

namespace Snapshot

variable (s : Snapshot α) (a : Accessor α)

/-- Set the field of a property by the value that was found for it. -/
def setFound (p : Property) (v? : Option NamedValue) (data : α) : Ingest α α :=
  match v? with
  | none => if p.nullable then pure data else throw (.missingProperty p.name)
  | some v => s.setProperty a p v.content data

/-- Set the field of a navigation by the link that was found for it. -/
def followFound (name : String) (l? : Option (Link α)) (data : α) : Ingest α α :=
  match l? with
  | none => pure data
  | some l => s.setNavigation a name l.target data

theorem fill_cons_eq (values : List NamedValue) (p : Property) (declared : List Property) (data : α)
    : s.fill a values (p :: declared) data
        = s.setFound a p (NamedValue.find? values p.name) data >>= fun data' =>
            s.fill a values declared data' := by
  rw [fill]
  split
  . next hnone =>
    rw [hnone, setFound]
    split
    . rw [pure_bind]
    . rfl
  . next v hv =>
    dsimp only
    rw [hv, setFound]

theorem followLinks_cons_eq (en : Entity α) (n : Navigation) (navigations : List Navigation)
    (data : α)
    : s.followLinks a en (n :: navigations) data
        = s.followFound a n.name (en.link? n.name) data >>= fun data' =>
            s.followLinks a en navigations data' := by
  rw [followLinks]
  split
  . next hnone => rw [hnone, followFound, pure_bind]
  . next l hl =>
    dsimp only
    rw [hl, followFound]

end Snapshot

end Edm
