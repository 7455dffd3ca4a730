import Edm.Proofs.Paging

/-!
This module contains the laws of single pages. A page is a slice of the records that pass the
filter, and its mark and its count are told by these records alone: what is shown of the entities
changes neither.
-/

namespace Edm

variable {α : Type}

namespace Snapshot

/-- The records that pass a filter, in the order in which they are given. -/
def passing (s : Snapshot α) (filter? : Option Expr) (rs : List (Record α)) : List (Record α) :=
  rs.filter fun r =>
    filter?.all fun e => (e.evaluatePredicate s.registry.accessor? r).toOption == some true

def isMarked (set : EntitySet) (a : Accessor α) (token : String) (r : Record α) : Bool :=
  (keyText set a r).toOption == some token

/-- What stands behind the first record that a mark is the key of; everything, without a mark. -/
def behindMark (set : EntitySet) (a : Accessor α) (token? : Option String) (rs : List (Record α))
    : List (Record α) :=
  match token? with
  | none => rs
  | some token => (rs.dropWhile fun r => !isMarked set a token r).tail

variable {s : Snapshot α} {name : String} {q : Query} {set : EntitySet} {e : SetEntry α}
  {a : Accessor α} {rs matching rest : List (Record α)} {es : List (Entity α)}

theorem filtered_eq_ok {filter? : Option Expr} (h : s.filtered filter? rs = .ok matching)
    : matching = s.passing filter? rs := by
  cases filter? with
  | none =>
    cases h
    exact (List.filter_eq_self.mpr fun _ _ => rfl).symm
  | some e => exact filterM_eq_ok h

theorem behind_eq_ok {token : String} (h : behind set a token rs = .ok rest)
    : rest = behindMark set a (some token) rs := by
  induction rs with
  | nil =>
    cases h
    rfl
  | cons r rs ih =>
    obtain ⟨key, hkey, h⟩ := bind_eq_ok.mp h
    obtain ⟨text, htext, h⟩ := bind_eq_ok.mp h
    have hmarked : isMarked set a token r = (text == token) := by
      unfold isMarked keyText
      rw [hkey, ok_bind, htext]
      rfl
    unfold behindMark
    dsimp only
    rw [List.dropWhile_cons, hmarked]
    by_cases heq : text = token
    . rw [if_pos heq, pure_eq_ok] at h
      rw [beq_iff_eq.mpr heq, ← h]
      rfl
    . rw [if_neg heq] at h
      rw [beq_eq_false_iff_ne.mpr heq]
      exact ih h

theorem ordered_eq_ok (h : s.ordered set e q matching = .ok rest)
    : ∃ sorted,
        orderRecords s.registry.accessor? q.orderBy matching = .ok sorted
          ∧
        rest = behindMark set e.accessor q.skipToken? sorted := by
  obtain ⟨sorted, hsorted, h⟩ := bind_eq_ok.mp h
  refine ⟨sorted, hsorted, ?_⟩
  cases htoken : q.skipToken? with
  | none =>
    rw [htoken] at h
    cases h
    rfl
  | some token =>
    rw [htoken] at h
    exact behind_eq_ok h

theorem mark_eq_ok {limit : Nat} {token? : Option String} (h : mark limit es = .ok token?)
    : (token?.isSome = true ↔ 1 ≤ limit ∧ limit < es.length)
        ∧
      ∀ token ∈ token?, ∃ last ∈ (es.take limit).getLast?, last.key.text = .ok token := by
  have hempty : (es.take limit).getLast? = none ↔ limit = 0 ∨ es = [] := by
    rw [List.getLast?_eq_none_iff, List.take_eq_nil_iff]
  unfold mark at h
  split at h
  . next last hlast =>
    have hlimit : 1 ≤ limit := by
      by_contra hzero
      rw [hempty.mpr (.inl (by omega))] at hlast
      cases hlast
    split at h
    . next hmore =>
      obtain ⟨token, htoken, rfl⟩ := map_eq_ok.mp h
      refine ⟨by simp [hlimit, hmore], ?_⟩
      rintro token ⟨⟩
      exact ⟨last, hlast, htoken⟩
    . next hmore =>
      cases h
      exact ⟨by simp [hmore], nofun⟩
  . next hlast =>
    cases h
    refine ⟨?_, nofun⟩
    rcases hempty.mp hlast with rfl | rfl
    . simp
    . simp

theorem key_of_toEntity {r : Record α} {selection : Selection} {en : Entity α}
    (hfind : s.find name = .ok (set, e)) (h : s.toEntity set r selection = .ok en)
    : key set e.accessor r.data = .ok en.key ∧ en.record? = some r := by
  obtain ⟨rfl, _, he⟩ := find_eq_ok hfind
  obtain ⟨e', _, he', hkey, _, _, _, _, hrecord⟩ := exists_of_toEntity h
  rw [he] at he'
  cases he'
  exact ⟨hkey, hrecord⟩

/-- What a page has, told by the records that it is a slice of. -/
structure IsSlice (set : EntitySet) (e : SetEntry α) (limit : Nat) (rest : List (Record α))
    (p : Page α) : Prop where
  keys : (rest.take limit).mapM (fun r => key set e.accessor r.data)
    = .ok (p.entities.map (·.key))
  records : p.entities.map (·.record?) = (rest.take limit).map some
  marked : p.skipToken?.isSome = true ↔ 1 ≤ limit ∧ limit < rest.length
  mark : ∀ token ∈ p.skipToken?, ∃ last ∈ p.entities.getLast?, last.key.text = .ok token

theorem isSlice_of_shows {limit : Nat} {p : Page α} (hfind : s.find name = .ok (set, e))
    (hes : s.Shows set q (rest.take (limit + 1)) es) (hentities : p.entities = es.take limit)
    (hmark : Snapshot.mark limit es = .ok p.skipToken?) : IsSlice set e limit rest p := by
  have hlength := hes.length_eq
  rw [List.length_take] at hlength
  -- The entity that is only made to see whether there are more is cut off again.
  have hcut : (rest.take (limit + 1)).take limit = rest.take limit := by
    rw [List.take_take]
    congr 1
    omega
  have hshown : s.Shows set q (rest.take limit) (es.take limit) := by
    rw [← hcut]
    exact List.forall₂_take limit hes
  obtain ⟨hmarked, htoken⟩ := mark_eq_ok hmark
  refine ⟨?_, ?_, ?_, ?_⟩
  . rw [hentities, mapM_eq_ok, List.forall₂_map_right_iff]
    exact hshown.imp fun r en hen => (key_of_toEntity hfind hen).1
  . rw [hentities]
    exact map_eq_map_of_mapM (fun r en hen => (key_of_toEntity hfind hen).2) (mapM_eq_ok.mpr hshown)
  . rw [hmarked]
    omega
  . rw [hentities]
    exact htoken

theorem IsSlice.eq {limit : Nat} {p p' : Page α} (h : IsSlice set e limit rest p)
    (h' : IsSlice set e limit rest p')
    : p'.entities.map (·.key) = p.entities.map (·.key) ∧ p'.skipToken? = p.skipToken? := by
  have hkeys : p'.entities.map (·.key) = p.entities.map (·.key) := by
    have hok := h'.keys
    rw [h.keys] at hok
    exact (Except.ok.inj hok).symm
  refine ⟨hkeys, ?_⟩
  have hlast := congrArg List.getLast? hkeys
  rw [List.getLast?_map, List.getLast?_map] at hlast
  have hsome : p'.skipToken?.isSome = p.skipToken?.isSome := by
    rw [Bool.eq_iff_iff, h.marked, h'.marked]
  cases hp : p.skipToken? with
  | none =>
    rw [hp, Option.isSome_none, Option.isSome_eq_false_iff, Option.isNone_iff_eq_none] at hsome
    exact hsome
  | some token =>
    rw [hp, Option.isSome_some, Option.isSome_iff_exists] at hsome
    obtain ⟨token', hp'⟩ := hsome
    obtain ⟨last, hmem, htext⟩ := h.mark token hp
    obtain ⟨last', hmem', htext'⟩ := h'.mark token' hp'
    rw [hmem, hmem'] at hlast
    have hkey : last'.key = last.key := Option.some.inj hlast
    rw [hkey, htext] at htext'
    cases htext'
    exact hp'

theorem exists_isSlice {p : Page α} (h : s.page name q = .ok p)
    : ∃ set e sorted,
        s.find name = .ok (set, e)
          ∧
        orderRecords s.registry.accessor? q.orderBy (s.passing q.filter? e.records) = .ok sorted
          ∧
        IsSlice set e (q.limit s.config.maxResults)
          ((behindMark set e.accessor q.skipToken? sorted).drop (q.skip?.getD 0)) p
          ∧
        p.inlineCount?
          = if q.inlineCount then some (s.passing q.filter? e.records).length else none := by
  obtain ⟨set, e, matching, rest, es, hfind, hfiltered, hrest, hes, hentities, hcount, hmark⟩ :=
    exists_of_page h
  obtain rfl := filtered_eq_ok hfiltered
  obtain ⟨sorted, hsorted, rfl⟩ := ordered_eq_ok hrest
  exact ⟨set, e, sorted, hfind, hsorted, isSlice_of_shows hfind hes hentities hmark, hcount⟩

end Snapshot

namespace Service

/--
A page has the first records, as many as fit on it, that are left of the ordering of the records
that pass the filter, behind the mark that it is asked for with and after those that are passed
over. It has a mark of its own if and only if it has entities and more of them are left, and then
the text of its last key; beside it stands how many records pass the filter. None of this depends on
what is selected and expanded.
-/
theorem page_isSlice {s s' : Service α} {name : String} {q : Query} {p : Page α}
    (hp : (page name q).run.run s = (.ok p, s'))
    : ∃ current set e ordered,
        snapshot.run.run s = (.ok current, s')
          ∧
        current.find name = .ok (set, e)
          ∧
        orderRecords current.registry.accessor? q.orderBy (current.passing q.filter? e.records)
          = .ok ordered
          ∧
        Snapshot.IsSlice set e (q.limit s.config.maxResults)
          ((Snapshot.behindMark set e.accessor q.skipToken? ordered).drop (q.skip?.getD 0)) p
          ∧
        p.inlineCount?
          = (if q.inlineCount then some (current.passing q.filter? e.records).length else none)
          ∧
        ∀ select expand p' t', ∀ t ∈ [s, s'],
          (page name { q with select, expand }).run.run t = (.ok p', t') →
            p'.entities.map (·.key) = p.entities.map (·.key)
              ∧
            p'.skipToken? = p.skipToken?
              ∧
            p'.inlineCount? = p.inlineCount? := by
  obtain ⟨current, hcurrent, hpage⟩ := exists_of_ask_run hp
  obtain ⟨set, e, ordered, hfind, hordered, hslice, hcount⟩ := Snapshot.exists_isSlice hpage
  rw [config_of_snapshot hcurrent] at hslice
  refine ⟨current, set, e, ordered, hcurrent, hfind, hordered, hslice, hcount, ?_⟩
  intro select expand p' t' t ht hp'
  have hcurrent' : snapshot.run.run t = (.ok current, s') := by
    simp only [List.mem_cons, List.not_mem_nil, or_false] at ht
    rcases ht with rfl | rfl
    . exact hcurrent
    . exact snapshot_again hcurrent
  unfold page at hp'
  rw [ask_run_of_snapshot hcurrent', Prod.mk.injEq] at hp'
  obtain ⟨set', e', ordered', hfind', hordered', hslice', hcount'⟩ := Snapshot.exists_isSlice hp'.1
  rw [hfind] at hfind'
  cases hfind'
  rw [hordered] at hordered'
  cases hordered'
  rw [config_of_snapshot hcurrent] at hslice'
  obtain ⟨hkeys, hmark⟩ := hslice.eq hslice'
  exact ⟨hkeys, hmark, hcount'.trans hcount.symm⟩

end Service

namespace Numbers

def behindFirst : Query :=
  { byId with top? := some 1, skipToken? := some "1", inlineCount := true }

theorem page_behindFirst
    : (Service.page "Numbers" behindFirst).run.run service
        = (.ok ⟨"Numbers", [entity 2], some 3, some "2"⟩,
            { service with cache := ⟨some ⟨0, model⟩, 1⟩ }) := by
  unfold Service.page
  rw [Service.ask_run_of_snapshot snapshot_run]
  cbv

theorem isSlice_behindFirst
    : ∃ ordered,
        orderRecords snapshot.registry.accessor? byId.orderBy matching = .ok ordered
          ∧
        Snapshot.IsSlice set entry 1 (Snapshot.behindMark set entry.accessor (some "1") ordered)
          ⟨"Numbers", [entity 2], some 3, some "2"⟩ := by
  obtain ⟨current, set', e, ordered, hcurrent, hfind, hordered, hslice, _, _⟩ :=
    Service.page_isSlice page_behindFirst
  rw [snapshot_run] at hcurrent
  cases hcurrent
  rw [pageable.find] at hfind
  cases hfind
  have hmatching : snapshot.passing byId.filter? entry.records = matching :=
    (Snapshot.filtered_eq_ok pageable.filtered).symm
  refine ⟨ordered, ?_, hslice⟩
  rw [← hmatching]
  exact hordered

end Numbers

end Edm
