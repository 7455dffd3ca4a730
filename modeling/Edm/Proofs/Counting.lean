import Edm.Proofs.Paging

/-!
This module contains the laws of counts. A count is what the pages of the same query have together,
and a page has as many of the counted entities as fit on it.
-/

namespace Edm

variable {α : Type}

/-- How many of the records that pass the filter a query asks for. -/
def Query.asked (q : Query) (matching : Nat) : Nat :=
  match q.top? with
  | none => matching - q.skip?.getD 0
  | some top => min (matching - q.skip?.getD 0) top

theorem Query.min_limit (q : Query) (matching maxResults : Nat)
    : min (q.limit maxResults) (matching - q.skip?.getD 0)
        = min (q.asked matching) maxResults := by
  unfold limit asked
  cases q.top? with
  | none => exact Nat.min_comm _ _
  | some top =>
    dsimp only
    omega

namespace Snapshot

variable {s : Snapshot α} {name : String} {q : Query} {set : EntitySet} {e : SetEntry α}
  {matching ordered : List (Record α)}

theorem count_eq (hfind : s.find name = .ok (set, e))
    (hfiltered : s.filtered q.filter? e.records = .ok matching) (hinline : q.inlineCount = false)
    (htoken : q.skipToken? = none) : s.count name q = .ok (q.asked matching.length) := by
  unfold count Query.asked
  rw [hinline, htoken, hfind, ok_bind]
  dsimp
  rw [hfiltered, ok_bind]
  rfl

theorem ordered_perm {rest : List (Record α)} (htoken : q.skipToken? = none)
    (h : s.ordered set e q matching = .ok rest) : rest.Perm matching := by
  obtain ⟨sorted, hsorted, h⟩ := bind_eq_ok.mp h
  rw [htoken] at h
  cases h
  exact orderRecords_perm hsorted

theorem exists_count_of_page {p : Page α} (htoken : q.skipToken? = none)
    (h : s.page name q = .ok p)
    : ∃ set e matching,
        s.find name = .ok (set, e)
          ∧
        s.filtered q.filter? e.records = .ok matching
          ∧
        p.entities.length = min (q.asked matching.length) s.config.maxResults
          ∧
        p.inlineCount? = if q.inlineCount then some matching.length else none := by
  obtain ⟨set, e, matching, rest, es, hfind, hfiltered, hrest, hes, hentities, hinline, _⟩ :=
    exists_of_page h
  refine ⟨set, e, matching, hfind, hfiltered, ?_, hinline⟩
  have hlength : rest.length = matching.length := (ordered_perm htoken hrest).length_eq
  have hmade := hes.length_eq
  rw [List.length_take, List.length_drop, hlength] at hmade
  rw [← Query.min_limit, hentities, List.length_take, ← hmade]
  -- The entity that is only made to see whether there are more does not count.
  omega

theorem Pageable.exists_paged_all (h : s.Pageable name q set e matching ordered)
    (htoken : q.skipToken? = none) (hmax : 1 ≤ s.config.maxResults)
    : ∃ ps,
        s.Paged name { q with top? := none, skip? := none } ps
          ∧
        (ps.flatMap (·.entities)).length = matching.length := by
  have hperm := orderRecords_perm h.ordered
  have hall : s.Pageable name { q with top? := none, skip? := none } set e matching ordered :=
    ⟨h.find, h.filtered, h.ordered, h.shown, h.keyed, h.distinct⟩
  obtain ⟨es, hes⟩ := exists_mapM_eq_ok fun r hr => h.shown r (hperm.mem_iff.mp hr)
  have hshows := mapM_eq_ok.mp hes
  have hfirst : s.ordered set e { q with top? := none, skip? := none, skipToken? := none } matching
      = .ok ordered := by
    unfold Snapshot.ordered
    rw [h.ordered]
    rfl
  obtain ⟨ps, hps, hconcat, _⟩ := hall.exists_paged rfl hmax (List.nil_append ordered).symm hfirst
    hshows
  refine ⟨ps, ?_, ?_⟩
  . rw [← htoken] at hps
    exact hps
  . rw [hconcat, ← hshows.length_eq, hperm.length_eq]

end Snapshot

namespace Service

/--
Counts agree with pages. The query of a page that can be shown can be counted; the page has as many
of the counted entities as fit on it, and the count beside a page is the one of the query without
limits, which is also how many entities the pages of that query have together.
-/
theorem count_of_page {s s' : Service α} {name : String} {q : Query} {p : Page α}
    (htoken : q.skipToken? = none) (hp : (page name q).run.run s = (.ok p, s'))
    : ∃ n total,
        (count name { q with inlineCount := false }).run.run s = (.ok n, s')
          ∧
        p.entities.length = min n s.config.maxResults
          ∧
        (count name { q with inlineCount := false, top? := none, skip? := none }).run.run s
          = (.ok total, s')
          ∧
        p.inlineCount? = (if q.inlineCount then some total else none)
          ∧
        ∀ current set e matching ordered,
          snapshot.run.run s = (.ok current, s') →
          current.Pageable name q set e matching ordered →
          1 ≤ s.config.maxResults →
            ∃ ps,
              Paged name { q with top? := none, skip? := none } s ps s'
                ∧
              (ps.flatMap (·.entities)).length = total := by
  obtain ⟨current, hcurrent, hpage⟩ := exists_of_ask_run hp
  obtain ⟨set, e, matching, hfind, hfiltered, hlength, hinline⟩ :=
    Snapshot.exists_count_of_page htoken hpage
  rw [config_of_snapshot hcurrent] at hlength
  refine ⟨_, matching.length, ?_, hlength, ?_, hinline, ?_⟩
  . unfold count
    rw [ask_run_of_snapshot hcurrent]
    exact congrArg (·, s') (Snapshot.count_eq hfind hfiltered rfl htoken)
  . unfold count
    rw [ask_run_of_snapshot hcurrent]
    exact congrArg (·, s') (Snapshot.count_eq hfind hfiltered rfl htoken)
  . intro current' set' e' matching' ordered hcurrent' hpageable hmax
    rw [hcurrent] at hcurrent'
    cases hcurrent'
    have hfind' := hpageable.find
    rw [hfind] at hfind'
    cases hfind'
    have hfiltered' := hpageable.filtered
    rw [hfiltered] at hfiltered'
    cases hfiltered'
    rw [← config_of_snapshot hcurrent] at hmax
    obtain ⟨ps, hps, htotal⟩ := hpageable.exists_paged_all htoken hmax
    exact ⟨ps, paged_of_snapshot hcurrent hps, htotal⟩

end Service

namespace Numbers

def afterFirst : Query :=
  { byId with top? := some 18446744073709551615, skip? := some 1, inlineCount := true }

theorem page_run
    : (Service.page "Numbers" afterFirst).run.run service
        = (.ok ⟨"Numbers", [entity 2, entity 3], some 3, none⟩,
            { service with cache := ⟨some ⟨0, model⟩, 1⟩ }) := by
  unfold Service.page
  rw [Service.ask_run_of_snapshot snapshot_run]
  cbv

theorem count_run
    : ∃ n ps s',
        (Service.count "Numbers" { afterFirst with inlineCount := false }).run.run service
          = (.ok n, s')
          ∧
        2 = min n 2
          ∧
        Service.Paged "Numbers" { afterFirst with top? := none, skip? := none } service ps s'
          ∧
        (ps.flatMap (·.entities)).length = 3 := by
  obtain ⟨n, total, hn, hlength, _, htotal, hpages⟩ := Service.count_of_page rfl page_run
  cases htotal
  obtain ⟨ps, hps, hall⟩ := hpages _ _ _ _ _ snapshot_run
    ⟨pageable.find, pageable.filtered, pageable.ordered, pageable.shown, pageable.keyed,
      pageable.distinct⟩ (by decide)
  exact ⟨n, ps, _, hn, hlength, hps, hall⟩

end Numbers

end Edm
