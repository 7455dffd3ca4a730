import Edm.Proofs.Outcome
import Edm.Service

/-!
This module contains what each operation of a service gives and what it leaves behind.
-/

namespace Edm.Service

variable {α β : Type}

theorem answer_run (result : Except Failure β) (s : Service α)
    : (match result with
        | .ok answer => (pure answer : ServiceM α β)
        | .error failure => throw failure).run.run s = (result, s) := by
  cases result <;> rfl

theorem liftExcept_run (result : Except Failure Numbered) (s : Service α)
    : (throughCache.liftExcept result).run.run s = (result, s) := by
  cases result <;> rfl

theorem discard_run (x : ServiceM α β) (s : Service α)
    : (Functor.discard x).run.run s = ((x.run.run s).1.map fun _ => (), (x.run.run s).2) := by
  unfold Functor.discard
  rw [map_const, Function.comp, ExceptT.run_map, StateT.run_map]
  rfl

/-! ### Registrations -/

theorem registerSet_run (e : SetEntry α) (s : Service α)
    : (registerSet e).run.run s =
        match s.registry.addSet? (e.mapAccessor (adapt s.config)) with
        | none => (.error (.invalidMetadata (.taken e.name)), s)
        | some registry => (.ok (), { s with registry, cache := s.cache.invalidate }) := by
  unfold registerSet
  rw [ExceptT.run_bind, StateT.run_bind]
  change StateT.run (ExceptT.run (match s.registry.addSet? (e.mapAccessor (adapt s.config)) with
    | none => (throw _ : ServiceM α Unit)
    | some _ => _)) s = _
  cases s.registry.addSet? (e.mapAccessor (adapt s.config)) with
  | none => rfl
  | some registry => rfl

theorem registerComplexType_run (e : ComplexEntry α) (s : Service α)
    : (registerComplexType e).run.run s =
        (.ok (), { s with
          registry := s.registry.addComplexType (e.mapAccessor (adapt s.config))
          cache := s.cache.invalidate }) := by
  rfl

theorem setRecords_run (name : String) (records : List (Record α)) (s : Service α)
    : (setRecords name records).run.run s =
        (.ok (), { s with registry := s.registry.setRecords name records }) := by
  rfl

/-! ### Models and requests -/

theorem throughCache_run (f : Cache → Except Failure Model → Except Failure Numbered × Cache)
    (s : Service α)
    : (throughCache f).run.run s =
        ((f s.cache (s.registry.generate s.config)).1,
          { s with cache := (f s.cache (s.registry.generate s.config)).2 }) := by
  apply liftExcept_run

theorem model_run (s : Service α)
    : model.run.run s =
        ((s.cache.getOrBuild (s.registry.generate s.config)).1,
          { s with cache := (s.cache.getOrBuild (s.registry.generate s.config)).2 }) := by
  apply throughCache_run

theorem rebuildModel_run (s : Service α)
    : rebuildModel.run.run s =
        ((s.cache.build (s.registry.generate s.config)).1,
          { s with cache := (s.cache.build (s.registry.generate s.config)).2 }) := by
  apply throughCache_run

theorem snapshot_run (s : Service α)
    : snapshot.run.run s =
        ((s.cache.getOrBuild (s.registry.generate s.config)).1.map fun numbered =>
            ⟨s.registry, numbered.model, s.config⟩,
          { s with cache := (s.cache.getOrBuild (s.registry.generate s.config)).2 }) := by
  unfold snapshot
  rw [ExceptT.run_bind, StateT.run_bind, model_run]
  cases (s.cache.getOrBuild (s.registry.generate s.config)).1 <;> rfl

theorem ask_run (request : Snapshot α → Except Failure β) (s : Service α)
    : (ask request).run.run s =
        ((snapshot.run.run s).1.bind request, (snapshot.run.run s).2) := by
  unfold ask
  rw [ExceptT.run_bind, StateT.run_bind]
  cases snapshot.run.run s with
  | mk result s' =>
    cases result with
    | error failure => rfl
    | ok current => exact answer_run (request current) s'

theorem ask_run_of_snapshot {request : Snapshot α → Except Failure β} {s s' : Service α}
    {current : Snapshot α} (h : snapshot.run.run s = (.ok current, s'))
    : (ask request).run.run s = (request current, s') := by
  rw [ask_run, h]
  rfl

theorem exists_of_ask_run {request : Snapshot α → Except Failure β} {s s' : Service α} {answer : β}
    (h : (ask request).run.run s = (.ok answer, s'))
    : ∃ current, snapshot.run.run s = (.ok current, s') ∧ request current = .ok answer := by
  rw [ask_run, Prod.mk.injEq] at h
  obtain ⟨current, hcurrent, hanswer⟩ := bind_eq_ok.mp h.1
  exact ⟨current, Prod.ext hcurrent h.2, hanswer⟩

theorem exists_of_snapshot {s s' : Service α} {current : Snapshot α}
    (h : snapshot.run.run s = (.ok current, s')) : ∃ m, current = ⟨s.registry, m, s.config⟩ := by
  rw [snapshot_run, Prod.mk.injEq] at h
  cases hmodel : (s.cache.getOrBuild (s.registry.generate s.config)).1 with
  | error failure =>
    rw [hmodel] at h
    cases h.1
  | ok numbered =>
    rw [hmodel] at h
    exact ⟨numbered.model, (Except.ok.inj h.1).symm⟩

theorem config_of_snapshot {s s' : Service α} {current : Snapshot α}
    (h : snapshot.run.run s = (.ok current, s')) : current.config = s.config := by
  obtain ⟨m, rfl⟩ := exists_of_snapshot h
  rfl

theorem registry_of_snapshot {s s' : Service α} {current : Snapshot α}
    (h : snapshot.run.run s = (.ok current, s')) : current.registry = s.registry := by
  obtain ⟨m, rfl⟩ := exists_of_snapshot h
  rfl

theorem ingest_run (request : Snapshot α → Ingest α β) (s : Service α)
    : (ingest request).run.run s =
        match (snapshot.run.run s).1 with
        | .error failure => (.error failure, (snapshot.run.run s).2)
        | .ok current =>
          (((request current).run.run []).1,
            { (snapshot.run.run s).2 with
              calls := (snapshot.run.run s).2.calls ++ ((request current).run.run []).2 }) := by
  unfold ingest
  rw [ExceptT.run_bind, StateT.run_bind]
  cases snapshot.run.run s with
  | mk result s' =>
    cases result with
    | error failure => rfl
    | ok current =>
      exact answer_run ((request current).run.run []).1
        { s' with calls := s'.calls ++ ((request current).run.run []).2 }

end Edm.Service
