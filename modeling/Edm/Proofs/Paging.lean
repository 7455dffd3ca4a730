import Mathlib
import Edm.Accessor.Typed
import Edm.Proofs.Ordering
import Edm.Proofs.Projection
import Edm.Proofs.Requests

/-!
This module contains the laws of paging. Asking again with the mark of the page before, until a page
has no mark, gives every entity that the query asks for once and in its order.
-/

namespace Edm

variable {α β : Type}

namespace Snapshot

def keyText (set : EntitySet) (a : Accessor α) (r : Record α) : Except Failure String := do
  (← key set a r.data).text

/-- The records that pass a filter can be put in order and shown, and their keys tell them apart. -/
structure Pageable (s : Snapshot α) (name : String) (q : Query) (set : EntitySet) (e : SetEntry α)
    (matching ordered : List (Record α)) : Prop where
  find : s.find name = .ok (set, e)
  filtered : s.filtered q.filter? e.records = .ok matching
  ordered : orderRecords s.registry.accessor? q.orderBy matching = .ok ordered
  shown : ∀ r ∈ matching, ∃ en, s.toEntity set r q.selection = .ok en
  keyed : ∀ r ∈ matching, ∃ text, keyText set e.accessor r = .ok text
  distinct : matching.Pairwise fun r r' => keyText set e.accessor r ≠ keyText set e.accessor r'

/-- The pages that are got by asking again behind the mark of the page before. -/
inductive Paged (s : Snapshot α) (name : String) : Query → List (Page α) → Prop where
  | last {q : Query} {p : Page α} (hp : s.page name q = .ok p) (hlast : p.skipToken? = none)
      : Paged s name q [p]
  | next {q : Query} {p : Page α} {token : String} {ps : List (Page α)}
      (hp : s.page name q = .ok p) (hnext : p.skipToken? = some token)
      (hps : Paged s name { q with skipToken? := some token } ps)
      : Paged s name q (p :: ps)

theorem behind_append {set : EntitySet} {a : Accessor α} {token : String}
    {passed rest : List (Record α)} {r : Record α}
    (hpassed : ∀ r' ∈ passed, ∃ text, keyText set a r' = .ok text ∧ text ≠ token)
    (hr : keyText set a r = .ok token)
    : behind set a token (passed ++ r :: rest) = .ok rest := by
  induction passed with
  | nil =>
    obtain ⟨key, hkey, htext⟩ := bind_eq_ok.mp hr
    rw [List.nil_append, behind, hkey, ok_bind, htext, ok_bind]
    simp [pure, Except.pure]
  | cons r' passed ih =>
    obtain ⟨text, hr', hne⟩ := hpassed r' (by simp)
    obtain ⟨key, hkey, htext⟩ := bind_eq_ok.mp hr'
    rw [List.cons_append, behind, hkey, ok_bind, htext, ok_bind]
    simp only [hne, if_false]
    apply ih
    intro other hother
    exact hpassed other (by simp [hother])

theorem find_eq_ok {s : Snapshot α} {name : String} {set : EntitySet} {e : SetEntry α}
    (h : s.find name = .ok (set, e))
    : set.name = name ∧ s.model.entitySet name = .ok set ∧ s.entry name = .ok e := by
  obtain ⟨set', hset, h⟩ := bind_eq_ok.mp h
  obtain ⟨e', he, h⟩ := bind_eq_ok.mp h
  cases h
  refine ⟨?_, hset, he⟩
  unfold Model.entitySet Model.entitySet? at hset
  split at hset
  . next hfind =>
    cases hset
    simpa using List.find?_some hfind
  . cases hset

theorem keyText_of_toEntity {s : Snapshot α} {name : String} {set : EntitySet} {e : SetEntry α}
    {r : Record α} {selection : Selection} {en : Entity α} (hfind : s.find name = .ok (set, e))
    (h : s.toEntity set r selection = .ok en)
    : keyText set e.accessor r = en.key.text := by
  obtain ⟨rfl, _, he⟩ := find_eq_ok hfind
  obtain ⟨e', _, he', hkey, _⟩ := exists_of_toEntity h
  rw [he] at he'
  cases he'
  rw [keyText, hkey, ok_bind]

section

variable {s : Snapshot α} {name : String} {q : Query} {set : EntitySet} {e : SetEntry α}
  {matching ordered rest : List (Record α)} {es : List (Entity α)}

abbrev Shows (s : Snapshot α) (set : EntitySet) (q : Query) :
    List (Record α) → List (Entity α) → Prop :=
  List.Forall₂ fun r en => s.toEntity set r q.selection = .ok en

/-- The mark of a page that starts with the first of the given entities. -/
def mark (limit : Nat) (es : List (Entity α)) : Except Failure (Option String) :=
  match (es.take limit).getLast? with
  | some last => if limit < es.length then some <$> last.key.text else pure none
  | none => pure none

theorem mark_of_length_le {limit : Nat} {es : List (Entity α)} (h : es.length ≤ limit)
    : mark limit es = .ok none := by
  have hno : ¬ limit < es.length := by omega
  unfold mark
  split
  . rw [if_neg hno]
    rfl
  . rfl

theorem take_append_cons {front back : List β} {last : β}
    : (front ++ last :: back).take (front.length + 1) = front ++ [last] := by
  rw [List.take_append, List.take_of_length_le (by omega), Nat.add_sub_cancel_left]
  rfl

theorem mark_append {front back : List (Entity α)} {last : Entity α} {token : String}
    (hback : back ≠ []) (htoken : last.key.text = .ok token)
    : mark (front.length + 1) (front ++ last :: back) = .ok (some token) := by
  have hmore : front.length + 1 < (front ++ last :: back).length := by
    have := List.length_pos_iff.mpr hback
    simp only [List.length_append, List.length_cons]
    omega
  unfold mark
  rw [take_append_cons, List.getLast?_concat]
  dsimp
  rw [if_pos hmore, htoken]
  rfl

theorem page_eq (hfind : s.find name = .ok (set, e))
    (hfiltered : s.filtered q.filter? e.records = .ok matching)
    (hrest : s.ordered set e q matching = .ok rest) (hskip : q.skip? = none)
    (hes : s.Shows set q rest es)
    : s.page name q = do
        let token? ← mark (q.limit s.config.maxResults) es
        return ⟨set.name, es.take (q.limit s.config.maxResults),
          if q.inlineCount then some matching.length else none, token?⟩ := by
  -- One entity more than a page can have is made, only to see whether there are more.
  have hmade : (rest.take (q.limit s.config.maxResults + 1)).mapM
      (fun r => s.toEntity set r q.selection)
        = .ok (es.take (q.limit s.config.maxResults + 1)) := by
    rw [mapM_eq_ok]
    exact List.forall₂_take _ hes
  have htake : (es.take (q.limit s.config.maxResults + 1)).take (q.limit s.config.maxResults)
      = es.take (q.limit s.config.maxResults) := by
    rw [List.take_take]
    congr 1
    omega
  have hmore : q.limit s.config.maxResults < (es.take (q.limit s.config.maxResults + 1)).length
      ↔ q.limit s.config.maxResults < es.length := by
    rw [List.length_take]
    omega
  unfold page mark
  simp only [hfind, hfiltered, hrest, hskip, ok_bind, Option.getD_none, List.drop_zero, hmade,
    htake, hmore]
  cases (es.take (q.limit s.config.maxResults)).getLast? with
  | none => rfl
  | some last =>
    dsimp
    split
    . rfl
    . rfl

theorem exists_of_page {p : Page α} (h : s.page name q = .ok p)
    : ∃ set e matching rest es,
        s.find name = .ok (set, e)
          ∧
        s.filtered q.filter? e.records = .ok matching
          ∧
        s.ordered set e q matching = .ok rest
          ∧
        s.Shows set q ((rest.drop (q.skip?.getD 0)).take (q.limit s.config.maxResults + 1)) es
          ∧
        p.entities = es.take (q.limit s.config.maxResults)
          ∧
        p.inlineCount? = (if q.inlineCount then some matching.length else none)
          ∧
        mark (q.limit s.config.maxResults) es = .ok p.skipToken? := by
  obtain ⟨⟨set, e⟩, hfind, h⟩ := bind_eq_ok.mp h
  obtain ⟨matching, hmatching, h⟩ := bind_eq_ok.mp h
  obtain ⟨rest, hrest, h⟩ := bind_eq_ok.mp h
  obtain ⟨es, hes, h⟩ := bind_eq_ok.mp h
  have hmade : (do
      let token? ← mark (q.limit s.config.maxResults) es
      return (⟨set.name, es.take (q.limit s.config.maxResults),
        if q.inlineCount then some matching.length else none, token?⟩ : Page α)) = .ok p := by
    rw [← h]
    unfold mark
    dsimp only
    cases (es.take (q.limit s.config.maxResults)).getLast? with
    | none => rfl
    | some last =>
      dsimp only
      split
      . rfl
      . rfl
  obtain ⟨token?, htoken, hmade⟩ := bind_eq_ok.mp hmade
  cases hmade
  exact ⟨set, e, matching, rest, es, hfind, hmatching, hrest, mapM_eq_ok.mp hes, rfl, rfl, htoken⟩

theorem page_last (hfind : s.find name = .ok (set, e))
    (hfiltered : s.filtered q.filter? e.records = .ok matching)
    (hrest : s.ordered set e q matching = .ok rest) (hskip : q.skip? = none)
    (hes : s.Shows set q rest es) (hlen : es.length ≤ q.limit s.config.maxResults)
    : ∃ p, s.page name q = .ok p ∧ p.entities = es ∧ p.skipToken? = none := by
  rw [page_eq hfind hfiltered hrest hskip hes, mark_of_length_le hlen,
    List.take_of_length_le hlen]
  exact ⟨_, rfl, rfl, rfl⟩

theorem page_next {front back : List (Entity α)} {last : Entity α} {token : String}
    (hfind : s.find name = .ok (set, e))
    (hfiltered : s.filtered q.filter? e.records = .ok matching)
    (hrest : s.ordered set e q matching = .ok rest) (hskip : q.skip? = none)
    (hes : s.Shows set q rest (front ++ last :: back)) (hback : back ≠ [])
    (hlen : q.limit s.config.maxResults = front.length + 1) (htoken : last.key.text = .ok token)
    : ∃ p, s.page name q = .ok p ∧ p.entities = front ++ [last] ∧ p.skipToken? = some token := by
  rw [page_eq hfind hfiltered hrest hskip hes, hlen, mark_append hback htoken,
    take_append_cons]
  exact ⟨_, rfl, rfl, rfl⟩

theorem Pageable.pairwise (h : s.Pageable name q set e matching ordered)
    : ordered.Pairwise fun r r' => keyText set e.accessor r ≠ keyText set e.accessor r' := by
  rw [(orderRecords_perm h.ordered).pairwise_iff]
  . exact h.distinct
  . intro r r' hne
    exact hne.symm

theorem Pageable.ordered_behind (h : s.Pageable name q set e matching ordered)
    {passed back : List (Record α)} {r : Record α} {token : String}
    (hordered : ordered = passed ++ r :: back) (hr : keyText set e.accessor r = .ok token)
    : s.ordered set e { q with skipToken? := some token } matching = .ok back := by
  unfold Snapshot.ordered
  rw [h.ordered, ok_bind, hordered]
  apply behind_append _ hr
  intro r' hr'
  have hmem : r' ∈ matching := by
    rw [← (orderRecords_perm h.ordered).mem_iff, hordered]
    simp [hr']
  obtain ⟨text, htext⟩ := h.keyed r' hmem
  refine ⟨text, htext, ?_⟩
  have hpairwise := h.pairwise
  rw [hordered, List.pairwise_append] at hpairwise
  have hne := hpairwise.2.2 r' hr' r (by simp)
  rw [htext, hr] at hne
  intro heq
  exact hne (by rw [heq])

theorem Shows.exists_split (hes : s.Shows set q rest es) {k : Nat} (hk : k < es.length)
    : ∃ r en,
        rest = rest.take k ++ r :: rest.drop (k + 1)
          ∧
        es = es.take k ++ en :: es.drop (k + 1)
          ∧
        s.toEntity set r q.selection = .ok en
          ∧
        s.Shows set q (rest.drop (k + 1)) (es.drop (k + 1)) := by
  have hdrop := List.forall₂_drop k hes
  rw [List.drop_eq_getElem_cons hk, List.forall₂_cons_right_iff] at hdrop
  obtain ⟨r, back, hr, _, hrest⟩ := hdrop
  have hback : back = rest.drop (k + 1) := by
    rw [← List.tail_drop, hrest, List.tail_cons]
  refine ⟨r, es[k], ?_, ?_, hr, List.forall₂_drop (k + 1) hes⟩
  . rw [← hback, ← hrest, List.take_append_drop]
  . rw [← List.drop_eq_getElem_cons hk, List.take_append_drop]

/-- From any place in the order on, the pages give the entities that are left. -/
theorem Pageable.exists_paged (h : s.Pageable name q set e matching ordered)
    (hskip : q.skip? = none) (hlimit : 1 ≤ q.limit s.config.maxResults)
    {passed rest : List (Record α)} {es : List (Entity α)} {token? : Option String}
    (hordered : ordered = passed ++ rest)
    (hrest : s.ordered set e { q with skipToken? := token? } matching = .ok rest)
    (hes : s.Shows set q rest es)
    : ∃ ps, s.Paged name { q with skipToken? := token? } ps
        ∧ ps.flatMap (·.entities) = es
        ∧ (∀ p ∈ ps.dropLast, p.entities.length = q.limit s.config.maxResults)
        ∧ ∀ p ∈ ps, p.entities.length ≤ q.limit s.config.maxResults := by
  by_cases hlen : es.length ≤ q.limit s.config.maxResults
  . obtain ⟨p, hp, hentities, hmark⟩ := page_last (q := { q with skipToken? := token? })
      h.find h.filtered hrest hskip hes hlen
    refine ⟨[p], Paged.last hp hmark, by simpa using hentities, by simp, ?_⟩
    intro p' hp'
    rw [List.mem_singleton] at hp'
    rw [hp', hentities]
    exact hlen
  . -- The page ends with the record before which there are `limit - 1` others.
    obtain ⟨k, hk⟩ : ∃ k, q.limit s.config.maxResults = k + 1 :=
      ⟨_, (Nat.sub_add_cancel hlimit).symm⟩
    obtain ⟨r, en, hsplitRest, hsplit, hr, hback⟩ := hes.exists_split (k := k) (by omega)
    have hsplitOrdered : ordered = (passed ++ rest.take k) ++ r :: rest.drop (k + 1) := by
      rw [List.append_assoc, ← hsplitRest, hordered]
    have hmem : r ∈ matching := by
      rw [← (orderRecords_perm h.ordered).mem_iff, hsplitOrdered]
      simp
    obtain ⟨token, htoken⟩ := h.keyed r hmem
    have hkey : en.key.text = .ok token := by
      rw [← keyText_of_toEntity h.find hr, htoken]
    have hmore : es.drop (k + 1) ≠ [] := by
      rw [ne_eq, List.drop_eq_nil_iff]
      omega
    have hlimit' : q.limit s.config.maxResults = (es.take k).length + 1 := by
      rw [List.length_take]
      omega
    obtain ⟨p, hp, hentities, hmark⟩ := page_next (q := { q with skipToken? := token? })
      h.find h.filtered hrest hskip (hsplit ▸ hes) hmore hlimit' hkey
    obtain ⟨ps, hps, hconcat, hfull, hle⟩ := h.exists_paged hskip hlimit
      (hsplitOrdered.trans (List.append_cons ..)) (h.ordered_behind hsplitOrdered htoken) hback
    have hlength : p.entities.length = q.limit s.config.maxResults := by
      rw [hentities, hlimit', List.length_append, List.length_singleton]
    refine ⟨p :: ps, Paged.next hp hmark hps, ?_, ?_, ?_⟩
    . rw [List.flatMap_cons, hentities, hconcat, ← List.append_cons, ← hsplit]
    . intro p' hp'
      cases ps with
      | nil => simp at hp'
      | cons p'' ps =>
        rw [List.dropLast_cons_cons, List.mem_cons] at hp'
        rcases hp' with rfl | hp'
        . exact hlength
        . exact hfull p' hp'
    . intro p' hp'
      rcases List.mem_cons.mp hp' with rfl | hp'
      . exact Nat.le_of_eq hlength
      . exact hle p' hp'
-- Fewer entities are left behind a page that is full.
termination_by es.length

end

end Snapshot

namespace Service

/-- The pages that are got by requests to a service, which may change at each of them. -/
inductive Paged (name : String) : Query → Service α → List (Page α) → Service α → Prop where
  | last {q : Query} {s s' : Service α} {p : Page α}
      (hp : (page name q).run.run s = (.ok p, s')) (hlast : p.skipToken? = none)
      : Paged name q s [p] s'
  | next {q : Query} {s s' s'' : Service α} {p : Page α} {token : String} {ps : List (Page α)}
      (hp : (page name q).run.run s = (.ok p, s')) (hnext : p.skipToken? = some token)
      (hps : Paged name { q with skipToken? := some token } s' ps s'')
      : Paged name q s (p :: ps) s''

theorem snapshot_again {s s' : Service α} {current : Snapshot α}
    (h : snapshot.run.run s = (.ok current, s')) : snapshot.run.run s' = (.ok current, s') := by
  rw [snapshot_run] at h ⊢
  cases hcache : s.cache.current? with
  | some numbered =>
    simp only [Cache.getOrBuild, hcache] at h
    cases h
    simp only [Cache.getOrBuild, hcache]
    rfl
  | none =>
    simp only [Cache.getOrBuild, hcache, Cache.build] at h
    cases hmodel : s.registry.generate s.config with
    | error failure =>
      rw [hmodel] at h
      cases h
    | ok model =>
      rw [hmodel] at h
      cases h
      rfl

theorem paged_of_snapshot {s s' : Service α} {current : Snapshot α} {name : String} {q : Query}
    {ps : List (Page α)} (hcurrent : snapshot.run.run s = (.ok current, s'))
    (h : current.Paged name q ps) : Paged name q s ps s' := by
  have hrun : ∀ {q : Query} {p : Page α} {s : Service α},
      snapshot.run.run s = (.ok current, s') → current.page name q = .ok p
        → (page name q).run.run s = (.ok p, s') := by
    intro q p s hs hp
    unfold page
    rw [ask_run, hs]
    dsimp [Except.bind]
    rw [hp]
  induction h generalizing s with
  | last hp hlast => exact Paged.last (hrun hcurrent hp) hlast
  | next hp hnext _ ih =>
    exact Paged.next (hrun hcurrent hp) hnext (ih (snapshot_again hcurrent))

end Service

/--
Following the marks of the pages gives all entities that a query asks for: each record that passes
the filter is shown once, in the order of the query, and only the last page can be shorter than the
others.
-/
theorem Service.pages_complete {s s' : Service α} {current : Snapshot α} {name : String}
    {q : Query} {set : EntitySet} {e : SetEntry α} {matching ordered : List (Record α)}
    (hcurrent : Service.snapshot.run.run s = (.ok current, s'))
    (hpageable : current.Pageable name q set e matching ordered)
    (hskip : q.skip? = none) (htoken : q.skipToken? = none)
    (hlimit : 1 ≤ q.limit s.config.maxResults)
    : ∃ ps,
        Service.Paged name q s ps s'
          ∧
        (∀ p ∈ ps.dropLast, p.entities.length = q.limit s.config.maxResults)
          ∧
        (∀ p ∈ ps, p.entities.length ≤ q.limit s.config.maxResults)
          ∧
        ordered.mapM (fun r => current.toEntity set r q.selection)
          = .ok (ps.flatMap (·.entities))
          ∧
        (ps.flatMap (·.entities)).map (·.record?) = ordered.map some
          ∧
        ordered.Perm matching := by
  have hconfig : current.config = s.config := by
    rw [Service.snapshot_run] at hcurrent
    cases hmodel : (s.cache.getOrBuild (s.registry.generate s.config)).1 with
    | error failure =>
      rw [hmodel] at hcurrent
      cases hcurrent
    | ok numbered =>
      rw [hmodel] at hcurrent
      cases hcurrent
      rfl
  have hperm := orderRecords_perm hpageable.ordered
  obtain ⟨es, hes⟩ := exists_mapM_eq_ok
    (fun r hr => hpageable.shown r (hperm.mem_iff.mp hr))
  have hfirst : current.ordered set e { q with skipToken? := none } matching = .ok ordered := by
    unfold Snapshot.ordered
    rw [hpageable.ordered]
    rfl
  rw [← hconfig] at hlimit ⊢
  obtain ⟨ps, hps, hconcat, hfull, hle⟩ := hpageable.exists_paged hskip hlimit
    (List.nil_append ordered).symm hfirst (mapM_eq_ok.mp hes)
  have hq : { q with skipToken? := none } = q := by
    rw [← htoken]
  rw [hq] at hps
  refine ⟨ps, Service.paged_of_snapshot hcurrent hps, hfull, hle, ?_, ?_, hperm⟩
  . rw [hconcat]
    exact hes
  . rw [hconcat]
    apply map_eq_map_of_mapM _ hes
    intro r en hen
    obtain ⟨_, _, _, _, _, _, _, _, hrecord⟩ := Snapshot.exists_of_toEntity hen
    exact hrecord

/-! ### Numbers on pages of two -/

namespace Numbers

def kind : Kind Int32 Int32 := ⟨"Number", id, some, fun _ => rfl⟩

def shape : Shape := ⟨"number"⟩

def entry : SetEntry Int32 where
  name := "Numbers"
  typeName := "Number"
  shape := shape
  accessor := .typed kind 0 [(Member.simple "Id" .int32 .int32 id fun _ n => n).notNull]
  keys := ["Id"]
  records := [⟨shape, 3⟩, ⟨shape, 0⟩, ⟨shape, 1⟩, ⟨shape, 2⟩]
  hooks? := none

def service : Service Int32 where
  config := { maxResults := 2 }
  registry := { sets := [entry] }

def set : EntitySet :=
  ⟨"Numbers", "InMemory", "Number", ["Id"], [⟨"Id", .simple .int32, false⟩], []⟩

def model : Model := ⟨"InMemory", "Container", [set], [], by decide, by decide, by decide⟩

def snapshot : Snapshot Int32 := ⟨service.registry, model, service.config⟩

def byId : Query where
  filter? := some (.binary (.comparison .ge) (.property ["Id"]) (.literal (.int32 1)))
  orderBy := [⟨.property ["Id"], .ascending⟩]

def entity (n : Int32) : Entity Int32 :=
  ⟨"Numbers", set.type, .single (.int32 n), [⟨"Id", .simple .int32, .simple (.int32 n)⟩], [],
    some ⟨shape, n⟩⟩

theorem generate_eq : service.registry.generate service.config = .ok model := by cbv

theorem snapshot_run
    : Service.snapshot.run.run service
        = (.ok snapshot, { service with cache := ⟨some ⟨0, model⟩, 1⟩ }) := by
  rw [Service.snapshot_run, generate_eq]
  rfl

theorem toEntity_eq (n : Int32)
    : snapshot.toEntity set ⟨shape, n⟩ byId.selection = .ok (entity n) := by
  cbv

def matching : List (Record Int32) := [⟨shape, 3⟩, ⟨shape, 1⟩, ⟨shape, 2⟩]

theorem keyTexts_eq
    : matching.map (Snapshot.keyText set entry.accessor) = [.ok "3", .ok "1", .ok "2"] := by
  cbv

theorem pageable
    : snapshot.Pageable "Numbers" byId set entry matching
        [⟨shape, 1⟩, ⟨shape, 2⟩, ⟨shape, 3⟩] where
  find := by cbv
  filtered := by cbv
  ordered := by cbv
  shown := by
    intro r hr
    simp only [matching, List.mem_cons, List.not_mem_nil, or_false] at hr
    rcases hr with rfl | rfl | rfl
    . exact ⟨_, toEntity_eq 3⟩
    . exact ⟨_, toEntity_eq 1⟩
    . exact ⟨_, toEntity_eq 2⟩
  keyed := by
    intro r hr
    have hmem := List.mem_map_of_mem (f := Snapshot.keyText set entry.accessor) hr
    rw [keyTexts_eq] at hmem
    simp only [List.mem_cons, List.not_mem_nil, or_false] at hmem
    rcases hmem with h | h | h
    . exact ⟨_, h⟩
    . exact ⟨_, h⟩
    . exact ⟨_, h⟩
  distinct := by
    rw [← List.pairwise_map, keyTexts_eq]
    simp

theorem pages_eq
    : ∃ ps s',
        Service.Paged "Numbers" byId service ps s'
          ∧
        (∀ p ∈ ps.dropLast, p.entities.length = 2)
          ∧
        ps.flatMap (·.entities) = [entity 1, entity 2, entity 3] := by
  obtain ⟨ps, hps, hfull, _, hshown, _⟩ := Service.pages_complete snapshot_run pageable rfl rfl
    (by decide)
  refine ⟨ps, _, hps, hfull, ?_⟩
  simp only [List.mapM_cons, List.mapM_nil, toEntity_eq, ok_bind] at hshown
  exact (Except.ok.inj hshown).symm

end Numbers

end Edm
