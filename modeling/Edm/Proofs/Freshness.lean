import Edm.Proofs.Generation
import Edm.Proofs.Requests

/-!
This module contains the laws of the model that a service keeps. After any calls, whether they
succeed or fail, it is the one that follows from the registrations.
-/

namespace Edm

variable {α β : Type}

namespace Cache

/-- The model that is kept, if there is one, is the given one. -/
def Holds (c : Cache) (model : Except Failure Model) : Prop :=
  ∀ numbered, c.current? = some numbered → model = .ok numbered.model

variable {c : Cache} {model : Except Failure Model}

theorem holds_invalidate : c.invalidate.Holds model := by
  intro numbered h
  cases h

theorem Holds.build (hc : c.Holds model) : (c.build model).2.Holds model := by
  cases model with
  | error failure => exact hc
  | ok model =>
    intro numbered h
    cases h
    rfl

theorem Holds.getOrBuild (hc : c.Holds model) : (c.getOrBuild model).2.Holds model := by
  unfold Cache.getOrBuild
  split
  . exact hc
  . exact hc.build

theorem build_error {failure : Failure} (h : (c.build model).1 = .error failure)
    : (c.build model).2 = c := by
  cases model with
  | error failure => rfl
  | ok model => cases h

theorem getOrBuild_error {failure : Failure} (h : (c.getOrBuild model).1 = .error failure)
    : (c.getOrBuild model).2 = c := by
  unfold Cache.getOrBuild at h ⊢
  split
  . rfl
  . next hnone =>
    rw [hnone] at h
    exact build_error h

theorem Holds.getOrBuild_model (hc : c.Holds model)
    : (c.getOrBuild model).1.map (·.model) = model := by
  unfold Cache.getOrBuild
  split
  . next numbered h => exact (hc numbered h).symm
  . cases model <;> rfl

end Cache

/-- A call of a service. The records of a set can be others at any time. -/
inductive Call (α : Type) where
  | registerSet (e : SetEntry α)
  | registerComplexType (e : ComplexEntry α)
  | setRecords (name : String) (records : List (Record α))
  | model
  | rebuildModel
  | page (set : String) (q : Query)
  | pages (set : String) (q : Query) (n : Nat)
  | count (set : String) (q : Query)
  | entity (set : String) (key : Key) (q : Query)
  | follow (set : String) (key : Key) (property : String) (q : Query)
  | toRecord (en : Entity α) (shape : Shape)
  | toComplexRecord (values : List NamedValue) (shape : Shape)
  | refuse (action : ReadOnlyAction) (set : String)
  | countFollowed (set : String)
  | callFunction (name : String)

namespace Call

def perform : Call α → ServiceM α Unit
  | registerSet e => Service.registerSet e
  | registerComplexType e => Service.registerComplexType e
  | setRecords name records => Service.setRecords name records
  | model => Functor.discard Service.model
  | rebuildModel => Functor.discard Service.rebuildModel
  | page set q => Functor.discard (Service.page set q)
  | pages set q n => Functor.discard (Service.pages set q n)
  | count set q => Functor.discard (Service.count set q)
  | entity set key q => Functor.discard (Service.entity set key q)
  | follow set key property q => Functor.discard (Service.follow set key property q)
  | toRecord en shape => Functor.discard (Service.toRecord en shape)
  | toComplexRecord values shape => Functor.discard (Service.toComplexRecord values shape)
  | refuse action set => Service.refuse action set
  | countFollowed set => Functor.discard (Service.countFollowed set)
  | callFunction name => Functor.discard (Service.callFunction name)

def isMaintenance : Call α → Bool
  | registerSet _ | registerComplexType _ | model | rebuildModel => true
  | _ => false

def isQuery : Call α → Bool
  | registerSet _ | registerComplexType _ | setRecords .. | model | rebuildModel => false
  | _ => true

end Call

namespace Service

def after (config : Config) (calls : List (Call α)) : Service α :=
  calls.foldl (fun s c => (c.perform.run.run s).2) { config }

/-- Registrations are told apart, and the model that is kept is theirs. -/
structure Fresh (s : Service α) : Prop where
  distinct : s.registry.Distinct
  holds : s.cache.Holds (s.registry.generate s.config)

theorem ask_leaves (request : Snapshot α → Except Failure β) (s : Service α)
    : ((ask request).run.run s).2
        = { s with cache := (s.cache.getOrBuild (s.registry.generate s.config)).2 } := by
  rw [ask_run, snapshot_run]

theorem ingest_leaves (request : Snapshot α → Ingest α β) (s : Service α)
    : ∃ calls, ((ingest request).run.run s).2
        = { s with cache := (s.cache.getOrBuild (s.registry.generate s.config)).2, calls } := by
  rw [ingest_run, snapshot_run]
  split
  . exact ⟨s.calls, rfl⟩
  . exact ⟨_, rfl⟩

theorem perform_of_isQuery {c : Call α} (hc : c.isQuery = true) (s : Service α)
    : ∃ cache calls,
        (c.perform.run.run s).2 = { s with cache, calls }
          ∧
        (cache = s.cache ∨ cache = (s.cache.getOrBuild (s.registry.generate s.config)).2) := by
  have hask : ∀ {β : Type} (request : Snapshot α → Except Failure β),
      ∃ cache calls,
        ((Functor.discard (ask request)).run.run s).2 = { s with cache, calls }
          ∧
        (cache = s.cache ∨ cache = (s.cache.getOrBuild (s.registry.generate s.config)).2) := by
    intro β request
    rw [discard_run]
    exact ⟨_, s.calls, ask_leaves request s, .inr rfl⟩
  have hingest : ∀ {β : Type} (request : Snapshot α → Ingest α β),
      ∃ cache calls,
        ((Functor.discard (ingest request)).run.run s).2 = { s with cache, calls }
          ∧
        (cache = s.cache ∨ cache = (s.cache.getOrBuild (s.registry.generate s.config)).2) := by
    intro β request
    obtain ⟨calls, h⟩ := ingest_leaves request s
    rw [discard_run]
    exact ⟨_, calls, h, .inr rfl⟩
  cases c with
  | registerSet e => cases hc
  | registerComplexType e => cases hc
  | setRecords name records => cases hc
  | model => cases hc
  | rebuildModel => cases hc
  | page set q => exact hask _
  | pages set q n => exact hask _
  | count set q => exact hask _
  | entity set key q => exact hask _
  | follow set key property q => exact hask _
  | toRecord en shape => exact hingest _
  | toComplexRecord values shape => exact hingest _
  | refuse action set => exact ⟨s.cache, s.calls, rfl, .inl rfl⟩
  | countFollowed set => exact ⟨s.cache, s.calls, rfl, .inl rfl⟩
  | callFunction name => exact ⟨s.cache, s.calls, rfl, .inl rfl⟩

theorem perform_config (c : Call α) (s : Service α)
    : (c.perform.run.run s).2.config = s.config := by
  cases hc : c.isQuery with
  | true =>
    obtain ⟨cache, calls, h, _⟩ := perform_of_isQuery hc s
    rw [h]
  | false =>
    cases c with
    | registerSet e =>
      rw [Call.perform, registerSet_run]
      split
      . rfl
      . rfl
    | registerComplexType e => rfl
    | setRecords name records => rfl
    | model => rw [Call.perform, discard_run, model_run]
    | rebuildModel => rw [Call.perform, discard_run, rebuildModel_run]
    | _ => cases hc

theorem Fresh.perform {s : Service α} (hs : s.Fresh) (c : Call α)
    : (c.perform.run.run s).2.Fresh := by
  cases hc : c.isQuery with
  | true =>
    obtain ⟨cache, calls, h, hcache⟩ := perform_of_isQuery hc s
    rw [h]
    refine ⟨hs.distinct, ?_⟩
    cases hcache with
    | inl hcache => exact hcache ▸ hs.holds
    | inr hcache => exact hcache ▸ hs.holds.getOrBuild
  | false =>
    cases c with
    | registerSet e =>
      rw [Call.perform, registerSet_run]
      split
      . exact hs
      . -- Nothing is kept for the registrations that are there now.
        next h => exact ⟨hs.distinct.addSet? h, Cache.holds_invalidate⟩
    | registerComplexType e =>
      rw [Call.perform, registerComplexType_run]
      exact ⟨hs.distinct.addComplexType _, Cache.holds_invalidate⟩
    | setRecords name records =>
      -- The records have changed but not what the model is made from.
      rw [Call.perform, setRecords_run]
      refine ⟨hs.distinct.setRecords name records, ?_⟩
      dsimp
      rw [Registry.generate_setRecords]
      exact hs.holds
    | model =>
      rw [Call.perform, discard_run, model_run]
      exact ⟨hs.distinct, hs.holds.getOrBuild⟩
    | rebuildModel =>
      rw [Call.perform, discard_run, rebuildModel_run]
      exact ⟨hs.distinct, hs.holds.build⟩
    | _ => cases hc

theorem perform_error {c : Call α} {s : Service α} {failure : Failure}
    (hc : c.isMaintenance = true) (h : (c.perform.run.run s).1 = .error failure)
    : (c.perform.run.run s).2 = s := by
  cases c with
  | registerSet e =>
    rw [Call.perform, registerSet_run] at h ⊢
    split at h
    . rfl
    . cases h
  | registerComplexType e => cases h
  | model =>
    rw [Call.perform, discard_run, model_run] at h ⊢
    dsimp at h ⊢
    cases hmodel : (s.cache.getOrBuild (s.registry.generate s.config)).1 with
    | error failure => rw [Cache.getOrBuild_error hmodel]
    | ok numbered =>
      rw [hmodel] at h
      cases h
  | rebuildModel =>
    rw [Call.perform, discard_run, rebuildModel_run] at h ⊢
    dsimp at h ⊢
    cases hmodel : (s.cache.build (s.registry.generate s.config)).1 with
    | error failure => rw [Cache.build_error hmodel]
    | ok numbered =>
      rw [hmodel] at h
      cases h
  | _ => cases hc

theorem Fresh.foldl {s : Service α} (hs : s.Fresh) (calls : List (Call α))
    : (calls.foldl (fun s c => (c.perform.run.run s).2) s).Fresh := by
  induction calls generalizing s with
  | nil => exact hs
  | cons c calls ih => exact ih (hs.perform c)

theorem fresh_after (config : Config) (calls : List (Call α)) : (after config calls).Fresh := by
  apply Fresh.foldl
  refine ⟨Registry.distinct_empty, ?_⟩
  intro numbered h
  cases h

theorem config_after (config : Config) (calls : List (Call α))
    : (after config calls).config = config := by
  have hfoldl : ∀ s : Service α,
      (calls.foldl (fun s c => (c.perform.run.run s).2) s).config = s.config := by
    induction calls with
    | nil =>
      intro s
      rfl
    | cons c calls ih =>
      intro s
      rw [List.foldl_cons, ih, perform_config]
  exact hfoldl { config }

/--
Whatever calls came before: names and shapes are taken once; the model that is kept is the one that
is made from the registrations, and so is the one that is given next; a call about registrations or
the model changes nothing if it fails; and a query never changes the registrations.
-/
theorem model_after (config : Config) (calls : List (Call α))
    : let s := after config calls
      s.registry.Distinct
        ∧
      (∀ numbered, s.cache.current? = some numbered →
        s.registry.generate config = .ok numbered.model)
        ∧
      (∀ c : Call α, c.isMaintenance = true →
        ∀ failure, (c.perform.run.run s).1 = .error failure → (c.perform.run.run s).2 = s)
        ∧
      (∀ c : Call α, c.isQuery = true → (c.perform.run.run s).2.registry = s.registry)
        ∧
      (model.run.run s).1.map (·.model) = s.registry.generate config := by
  intro s
  have hs : s.Fresh := fresh_after config calls
  have hconfig : s.config = config := config_after config calls
  refine ⟨hs.distinct, ?_, ?_, ?_, ?_⟩
  . intro numbered h
    rw [← hconfig]
    exact hs.holds numbered h
  . intro c hc failure h
    exact perform_error hc h
  . intro c hc
    obtain ⟨cache, calls', h, _⟩ := perform_of_isQuery hc s
    rw [h]
  . rw [model_run, ← hconfig]
    exact hs.holds.getOrBuild_model

end Service

end Edm
