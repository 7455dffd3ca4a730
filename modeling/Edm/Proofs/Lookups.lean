import Edm.Proofs.Comparing
import Edm.Proofs.Following
import Edm.Proofs.Keys

/-!
This module contains the laws of looking up entities by their keys. The key of an entity that is
shown finds a record with such a key, and the way in which a key is written does not matter: neither
the order of its parts nor the case of their names nor the width of integers.
-/

namespace Edm

variable {α : Type}

namespace Value

def Respelled (v w : Value) : Prop :=
  v = w ∨ v.integer?.isSome = true ∧ w.integer?.isSome = true ∧ v.looselyEquals w = true

theorem numeric?_of_integer? {v : Value} {n : Int64} (h : v.integer? = some n)
    : v.numeric? = some (.integer n) := by
  cases v <;> cases h <;> rfl

theorem comparand_of_respelled {v w : Value} (h : v.Respelled w) : v.comparand = w.comparand := by
  rcases h with rfl | ⟨hv, hw, heq⟩
  . rfl
  . obtain ⟨m, hm⟩ := Option.isSome_iff_exists.mp hv
    obtain ⟨n, hn⟩ := Option.isSome_iff_exists.mp hw
    rw [looselyEquals_iff, order?_of_numeric? (numeric?_of_integer? hm) (numeric?_of_integer? hn),
      Option.some.injEq] at heq
    have hmn : m = n := Int64.toInt_inj.mp (Int.compare_eq_eq.mp heq)
    rw [comparand_of_numeric? (numeric?_of_integer? hm),
      comparand_of_numeric? (numeric?_of_integer? hn), hmn]

theorem looselyEquals_respelled {v w : Value} (h : v.Respelled w) (u : Value)
    : u.looselyEquals v = u.looselyEquals w := by
  unfold looselyEquals
  rw [order?_eq, order?_eq, comparand_of_respelled h]

theorem looselyEquals_refl (v : Value) : v.looselyEquals v = true := by
  exact looselyEquals_iff.mpr (order?_self v)

theorem looselyEquals_comm (v w : Value) : v.looselyEquals w = w.looselyEquals v := by
  rw [Bool.eq_iff_iff, looselyEquals_iff, looselyEquals_iff, order?_swap]
  cases w.order? v with
  | none => simp
  | some o => cases o <;> simp

end Value

namespace Key

/-! ### Names and their values -/

def folded (name : String) : List Char := name.toList.map Char.toLower

theorem distinctNames_iff {names : List String}
    : DistinctNames names ↔ (names.map folded).Nodup := by
  unfold DistinctNames List.Nodup
  rw [List.pairwise_map]
  simp only [Text.equalsIgnoringAsciiCase, folded, beq_eq_false_iff_ne]

def given? (parts : List (String × Value)) (name : String) : Option Value :=
  (parts.find? fun part => folded part.1 == folded name).map (·.2)

theorem isMatch_composite (own wanted : List (String × Value))
    : (composite own).isMatch (composite wanted)
        = own.all fun part => (given? wanted part.1).any part.2.looselyEquals := by
  unfold isMatch given?
  simp only [Option.any_map]
  rfl

section

variable {parts wanted wanted' : List (String × Value)} {names : List String}

theorem given?_of_mem (hnames : DistinctNames (parts.map (·.1))) {name : String} {v : Value}
    (h : (name, v) ∈ parts) : given? parts name = some v := by
  rw [distinctNames_iff, List.map_map] at hnames
  exact congrArg (Option.map (·.2)) (find?_eq_some_of_nodup hnames h)

theorem getElem_mem_zip {γ δ : Type} {cs : List γ} {ds : List δ} {i : Nat} (hc : i < cs.length)
    (hd : i < ds.length) : (cs[i], ds[i]) ∈ cs.zip ds := by
  have hi : i < (cs.zip ds).length := by
    rw [List.length_zip]
    exact lt_min hc hd
  rw [← List.getElem_zip (h := hi)]
  exact List.getElem_mem hi

theorem isMatch_zip {vs ws : List Value} (hnames : DistinctNames names)
    (hvs : names.length = vs.length) (hws : names.length = ws.length)
    : (composite (names.zip vs)).isMatch (composite (names.zip ws)) = true
        ↔
      List.Forall₂ (fun v w => v.looselyEquals w = true) vs ws := by
  have hgiven : ∀ i (hi : i < names.length) (hi' : i < ws.length),
      given? (names.zip ws) names[i] = some ws[i] := by
    intro i hi hi'
    rw [← List.map_fst_zip (Nat.le_of_eq hws)] at hnames
    exact given?_of_mem hnames (getElem_mem_zip hi hi')
  rw [isMatch_composite, List.all_eq_true, List.forall₂_iff_get]
  constructor
  . intro hall
    refine ⟨hvs.symm.trans hws, ?_⟩
    intro i hi hi'
    have hname : i < names.length := hvs ▸ hi
    have hpart := hall _ (getElem_mem_zip hname hi)
    rw [hgiven i hname hi'] at hpart
    exact hpart
  . rintro ⟨_, hall⟩ part hpart
    obtain ⟨i, hi, rfl⟩ := List.mem_iff_getElem.mp hpart
    rw [List.length_zip, lt_min_iff] at hi
    have hi' : i < ws.length := hws ▸ hi.1
    rw [List.getElem_zip, hgiven i hi.1 hi']
    exact hall i hi.2 hi'

theorem isMatch_self {values : List Value} {k : Key} (hnames : DistinctNames names)
    (h : create names values = .ok k) : k.isMatch k = true := by
  obtain ⟨hlength, h⟩ := create_eq_ok h
  rcases h with ⟨v, _, rfl⟩ | ⟨_, rfl⟩
  . exact Value.looselyEquals_refl v
  . rw [isMatch_zip hnames hlength hlength, List.forall₂_same]
    intro v _
    exact Value.looselyEquals_refl v

theorem isMatch_comm {vs ws : List Value} {j k : Key} (hnames : DistinctNames names)
    (hj : create names vs = .ok j) (hk : create names ws = .ok k)
    : j.isMatch k = k.isMatch j := by
  obtain ⟨hvs, hj⟩ := create_eq_ok hj
  obtain ⟨hws, hk⟩ := create_eq_ok hk
  rcases hj with ⟨v, _, rfl⟩ | ⟨_, rfl⟩
  . rcases hk with ⟨w, _, rfl⟩ | ⟨_, rfl⟩
    . exact Value.looselyEquals_comm v w
    . rfl
  . rcases hk with ⟨w, _, rfl⟩ | ⟨_, rfl⟩
    . rfl
    . rw [Bool.eq_iff_iff, isMatch_zip hnames hvs hws, isMatch_zip hnames hws hvs]
      constructor
      . intro h
        exact (h.imp fun v w hvw => (Value.looselyEquals_comm w v).trans hvw).flip
      . intro h
        exact (h.imp fun w v hwv => (Value.looselyEquals_comm v w).trans hwv).flip

/-! ### Spellings of lookups -/

/-- The same name in any case, with the same value or the same integer in another width. -/
def PartRespelled (p q : String × Value) : Prop :=
  Text.equalsIgnoringAsciiCase p.1 q.1 = true ∧ p.2.Respelled q.2

/-- The same parts in any order, each of which may be written in another way. -/
def SameLookup (wanted wanted' : List (String × Value)) : Prop :=
  ∃ parts, wanted.Perm parts ∧ List.Forall₂ PartRespelled parts wanted'

theorem given?_of_perm (hnames : DistinctNames (wanted.map (·.1))) (h : wanted.Perm parts)
    (name : String) : given? wanted name = given? parts name := by
  rw [distinctNames_iff, List.map_map] at hnames
  exact congrArg (Option.map (·.2)) (find?_eq_of_perm hnames h (folded name))

theorem any_given?_of_respelled (h : List.Forall₂ PartRespelled parts wanted') (name : String)
    (v : Value)
    : (given? parts name).any v.looselyEquals = (given? wanted' name).any v.looselyEquals := by
  unfold given?
  induction h with
  | nil => rfl
  | @cons p q parts wanted' hpart _ ih =>
    have hfolded : folded p.1 = folded q.1 := beq_iff_eq.mp hpart.1
    rw [List.find?_cons, List.find?_cons, hfolded]
    split
    . exact Value.looselyEquals_respelled hpart.2 v
    . exact ih

theorem isMatch_of_sameLookup (hnames : DistinctNames (wanted.map (·.1)))
    (h : SameLookup wanted wanted') (own : Key)
    : own.isMatch (.composite wanted) = own.isMatch (.composite wanted') := by
  obtain ⟨parts, hperm, hrespelled⟩ := h
  cases own with
  | single v => rfl
  | composite own =>
    rw [isMatch_composite, isMatch_composite]
    congr 1
    funext part
    rw [given?_of_perm hnames hperm, any_given?_of_respelled hrespelled]

end

end Key

namespace Snapshot

/-! ### Records that are found -/

theorem findRecord_cases (set : EntitySet) (a : Accessor α) (rs : List (Record α)) {wanted : Key}
    {wanteds : List Key} (h : ∀ k ∈ wanteds, ∀ own : Key, own.isMatch k = own.isMatch wanted)
    : (∃ r ∈ rs, ∀ k ∈ wanteds, findRecord set a k rs = .ok r)
        ∨
      ((∀ r ∈ rs, ∀ own, key set a r.data = .ok own → own.isMatch wanted = false)
        ∧ ∀ k ∈ wanteds, findRecord set a k rs = .error (.notFound (.entity set.name k.display)))
        ∨
      ∃ r ∈ rs, ∃ failure,
        key set a r.data = .error failure
          ∧
        ∀ k ∈ wanteds, findRecord set a k rs = .error failure := by
  induction rs with
  | nil =>
    refine .inr (.inl ⟨?_, fun k _ => rfl⟩)
    intro r hr
    cases hr
  | cons r rs ih =>
    cases hkey : key set a r.data with
    | error failure =>
      refine .inr (.inr ⟨r, List.mem_cons_self, failure, hkey, ?_⟩)
      intro k _
      rw [findRecord, hkey]
      rfl
    | ok own =>
      cases hmatch : own.isMatch wanted with
      | true =>
        refine .inl ⟨r, List.mem_cons_self, ?_⟩
        intro k hk
        rw [findRecord, hkey, ok_bind, if_pos ((h k hk own).trans hmatch)]
        rfl
      | false =>
        have hskip : ∀ k ∈ wanteds, findRecord set a k (r :: rs) = findRecord set a k rs := by
          intro k hk
          rw [findRecord, hkey, ok_bind, h k hk own, hmatch]
          rfl
        rcases ih with ⟨r', hr', hfound⟩ | ⟨hnone, hmissing⟩ | ⟨r', hr', failure, hfails, hfailed⟩
        . exact .inl ⟨r', List.mem_cons_of_mem r hr', fun k hk => (hskip k hk).trans (hfound k hk)⟩
        . refine .inr (.inl ⟨?_, fun k hk => (hskip k hk).trans (hmissing k hk)⟩)
          intro r' hr' own' hown'
          rcases List.mem_cons.mp hr' with rfl | hr'
          . rw [hkey] at hown'
            cases hown'
            exact hmatch
          . exact hnone r' hr' own' hown'
        . exact .inr (.inr ⟨r', List.mem_cons_of_mem r hr', failure, hfails,
            fun k hk => (hskip k hk).trans (hfailed k hk)⟩)

theorem exists_findRecord {set : EntitySet} {a : Accessor α} {wanted own : Key}
    {rs : List (Record α)} {r : Record α} (hkeys : ∀ r ∈ rs, ∃ own, key set a r.data = .ok own)
    (hr : r ∈ rs) (hown : key set a r.data = .ok own) (hmatch : own.isMatch wanted = true)
    : ∃ found, findRecord set a wanted rs = .ok found := by
  have hself : ∀ k ∈ [wanted], ∀ own : Key, own.isMatch k = own.isMatch wanted := by simp
  rcases findRecord_cases set a rs hself
    with ⟨found, _, hfound⟩ | ⟨hnone, _⟩ | ⟨r', hr', failure, hfails, _⟩
  . exact ⟨found, hfound wanted List.mem_cons_self⟩
  . rw [hnone r hr own hown] at hmatch
    cases hmatch
  . obtain ⟨own', hown'⟩ := hkeys r' hr'
    rw [hfails] at hown'
    cases hown'

/-! ### Records that are listed -/

theorem behind_suffix {set : EntitySet} {a : Accessor α} {token : String}
    {rs rest : List (Record α)} (h : behind set a token rs = .ok rest) : rest <:+ rs := by
  induction rs with
  | nil =>
    cases h
    exact List.suffix_refl []
  | cons r rs ih =>
    unfold behind at h
    obtain ⟨own, _, h⟩ := bind_eq_ok.mp h
    obtain ⟨text, _, h⟩ := bind_eq_ok.mp h
    split at h
    . cases h
      exact List.suffix_cons r rest
    . exact (ih h).trans (List.suffix_cons r rs)

theorem mem_of_ordered {s : Snapshot α} {set : EntitySet} {e : SetEntry α} {q : Query}
    {matching rest : List (Record α)} (h : s.ordered set e q matching = .ok rest) {r : Record α}
    (hr : r ∈ rest) : r ∈ matching := by
  obtain ⟨sorted, hsorted, h⟩ := bind_eq_ok.mp h
  rw [← (orderRecords_perm hsorted).mem_iff]
  cases htoken : q.skipToken? with
  | none =>
    rw [htoken] at h
    cases h
    exact hr
  | some token =>
    rw [htoken] at h
    exact (behind_suffix h).subset hr

theorem mem_of_filtered {s : Snapshot α} {filter? : Option Expr} {rs matching : List (Record α)}
    (h : s.filtered filter? rs = .ok matching) {r : Record α} (hr : r ∈ matching) : r ∈ rs := by
  cases filter? with
  | none =>
    cases h
    exact hr
  | some filter => exact (sublist_of_filterM h).subset hr

theorem exists_of_mem_page {s : Snapshot α} {name : String} {q : Query} {set : EntitySet}
    {e : SetEntry α} {p : Page α} {en : Entity α} (hfind : s.find name = .ok (set, e))
    (hp : s.page name q = .ok p) (hen : en ∈ p.entities)
    : ∃ r ∈ e.records,
        s.toEntity set r q.selection = .ok en
          ∧
        key set e.accessor r.data = .ok en.key
          ∧
        en.record? = some r := by
  obtain ⟨set', e', matching, rest, es, hfind', hfiltered, hrest, hes, hentities, _⟩ :=
    exists_of_page hp
  rw [hfind] at hfind'
  cases hfind'
  rw [hentities] at hen
  obtain ⟨r, hr, hshown⟩ := exists_of_mapM (mapM_eq_ok.mpr hes) (List.mem_of_mem_take hen)
  have hmem := mem_of_filtered hfiltered
    (mem_of_ordered hrest (List.mem_of_mem_drop (List.mem_of_mem_take hr)))
  obtain ⟨hname, _, hentry⟩ := find_eq_ok hfind
  obtain ⟨e', _, hentry', hkey, _, _, _, _, hrecord⟩ := exists_of_toEntity hshown
  rw [hname, hentry] at hentry'
  cases hentry'
  exact ⟨r, hmem, hshown, hkey, hrecord⟩

def KeysApart (set : EntitySet) (e : SetEntry α) : Prop :=
  e.records.Pairwise fun r r' => ∀ own own',
    key set e.accessor r.data = .ok own → key set e.accessor r'.data = .ok own' →
      ¬(own.isMatch own' = true ∧ own'.isMatch own = true)

theorem exists_values_of_key {set : EntitySet} {a : Accessor α} {data : α} {own : Key}
    (h : key set a data = .ok own) : ∃ values, Key.create set.type.keys values = .ok own := by
  obtain ⟨values, _, h⟩ := bind_eq_ok.mp h
  exact ⟨values, h⟩

theorem KeysApart.eq {set : EntitySet} {e : SetEntry α} {r r' : Record α} {own own' : Key}
    (h : KeysApart set e) (hnames : Key.DistinctNames set.type.keys) (hr : r ∈ e.records)
    (hr' : r' ∈ e.records) (hown : key set e.accessor r.data = .ok own)
    (hown' : key set e.accessor r'.data = .ok own') (hmatch : own.isMatch own' = true)
    : r = r' := by
  have hsymm : Std.Symm fun r r' : Record α => ∀ own own',
      key set e.accessor r.data = .ok own → key set e.accessor r'.data = .ok own' →
        ¬(own.isMatch own' = true ∧ own'.isMatch own = true) := by
    constructor
    intro r r' happart own own' hown hown' hmatch
    exact happart own' own hown' hown hmatch.symm
  obtain ⟨vs, hvs⟩ := exists_values_of_key hown
  obtain ⟨ws, hws⟩ := exists_values_of_key hown'
  by_contra hne
  exact List.Pairwise.forall h hr hr' hne own own' hown hown'
    ⟨hmatch, (Key.isMatch_comm hnames hws hvs).trans hmatch⟩

end Snapshot

namespace Service

/--
What is listed can be fetched. The key of an entity on a page finds a record with a key that matches
it, which is the record that the entity shows if the keys of no two records match each other. A
lookup that is spelled in another way finds the same record, or none as well.
-/
theorem listed_is_found {s s' : Service α} {current : Snapshot α} {name : String}
    {set : EntitySet} {e : SetEntry α} (hcurrent : snapshot.run.run s = (.ok current, s'))
    (hfind : current.find name = .ok (set, e))
    : (Key.DistinctNames set.type.keys →
        (∀ r ∈ e.records, ∃ own, Snapshot.key set e.accessor r.data = .ok own) →
          ∀ q p, (page name q).run.run s = (.ok p, s') →
            ∀ en ∈ p.entities, ∃ r ∈ e.records, ∃ own,
              Snapshot.findRecord set e.accessor en.key e.records = .ok r
                ∧
              (∀ q', (entity name en.key q').run.run s'
                = (current.toEntity set r q'.selection, s'))
                ∧
              Snapshot.key set e.accessor r.data = .ok own
                ∧
              own.isMatch en.key = true
                ∧
              (Snapshot.KeysApart set e →
                en.record? = some r ∧ current.toEntity set r q.selection = .ok en))
        ∧
      ∀ wanted wanted', Key.DistinctNames (wanted.map (·.1)) → Key.SameLookup wanted wanted' →
        (∃ r ∈ e.records, ∀ k ∈ [Key.composite wanted, .composite wanted'],
          Snapshot.findRecord set e.accessor k e.records = .ok r
            ∧
          ∀ q, (entity name k q).run.run s = (current.toEntity set r q.selection, s'))
          ∨
        (∀ k ∈ [Key.composite wanted, .composite wanted'], ∀ q,
          (entity name k q).run.run s = (.error (.notFound (.entity set.name k.display)), s'))
          ∨
        ∃ r ∈ e.records, ∃ failure,
          Snapshot.key set e.accessor r.data = .error failure
            ∧
          ∀ k ∈ [Key.composite wanted, .composite wanted'], ∀ q,
            (entity name k q).run.run s = (.error failure, s') := by
  have hrun : ∀ {s : Service α} (k : Key) (q : Query), snapshot.run.run s = (.ok current, s') →
      (entity name k q).run.run s
        = (Snapshot.findRecord set e.accessor k e.records >>= fun r =>
            current.toEntity set r q.selection, s') := by
    intro s k q hs
    unfold entity
    rw [ask_run_of_snapshot hs, Snapshot.entity, hfind]
    rfl
  constructor
  . intro hnames hkeys q p hp en hen
    unfold page at hp
    rw [ask_run_of_snapshot hcurrent, Prod.mk.injEq] at hp
    obtain ⟨origin, horigin, hshown, hkey, hrecord⟩ :=
      Snapshot.exists_of_mem_page hfind hp.1 hen
    obtain ⟨values, hvalues⟩ := Snapshot.exists_values_of_key hkey
    obtain ⟨r, hfound⟩ := Snapshot.exists_findRecord hkeys horigin hkey
      (Key.isMatch_self hnames hvalues)
    obtain ⟨hr, own, hown, hmatch⟩ := Snapshot.exists_of_findRecord hfound
    refine ⟨r, hr, own, hfound, ?_, hown, hmatch, ?_⟩
    . intro q'
      rw [hrun en.key q' (snapshot_again hcurrent), hfound]
      rfl
    . intro hapart
      obtain rfl := hapart.eq hnames hr horigin hown hkey hmatch
      exact ⟨hrecord, hshown⟩
  . intro wanted wanted' hnames hsame
    have hmatches : ∀ k ∈ [Key.composite wanted, .composite wanted'], ∀ own : Key,
        own.isMatch k = own.isMatch (.composite wanted) := by
      intro k hk own
      simp only [List.mem_cons, List.not_mem_nil, or_false] at hk
      rcases hk with rfl | rfl
      . rfl
      . exact (Key.isMatch_of_sameLookup hnames hsame own).symm
    rcases Snapshot.findRecord_cases set e.accessor e.records hmatches
      with ⟨r, hr, hfound⟩ | ⟨_, hmissing⟩ | ⟨r, hr, failure, hfails, hfailed⟩
    . refine .inl ⟨r, hr, ?_⟩
      intro k hk
      refine ⟨hfound k hk, ?_⟩
      intro q
      rw [hrun k q hcurrent, hfound k hk]
      rfl
    . refine .inr (.inl ?_)
      intro k hk q
      rw [hrun k q hcurrent, hmissing k hk]
      rfl
    . refine .inr (.inr ⟨r, hr, failure, hfails, ?_⟩)
      intro k hk q
      rw [hrun k q hcurrent, hfailed k hk]
      rfl

end Service

/-! ### Seats with two numbers as their keys -/

namespace Seats

structure Seat where
  row : Int32
  number : Int64

def kind : Kind Seat Seat := ⟨"Seat", id, some, fun _ => rfl⟩

def shape : Shape := ⟨"seat"⟩

def seat (row : Int32) (number : Int64) : Record Seat := ⟨shape, row, number⟩

def entry : SetEntry Seat where
  name := "Seats"
  typeName := "Seat"
  shape := shape
  accessor := .typed kind ⟨0, 0⟩ [
    (Member.simple "Row" .int32 .int32 (·.row) fun seat row => { seat with row }).notNull,
    (Member.simple "Number" .int64 .int64 (·.number) fun seat number =>
      { seat with number }).notNull]
  keys := ["Row", "Number"]
  records := [seat 1 1, seat 1 2, seat 2 1]
  hooks? := none

def service : Service Seat where
  config := {}
  registry := { sets := [entry] }

def set : EntitySet :=
  ⟨"Seats", "InMemory", "Seat", ["Row", "Number"],
    [⟨"Row", .simple .int32, false⟩, ⟨"Number", .simple .int64, false⟩], []⟩

def model : Model where
  namespace_ := "InMemory"
  containerName := "Container"
  sets := [set]
  complexTypes := []
  setNames_nodup := List.nodup_singleton _
  typeNames_nodup := List.nodup_singleton _
  complexNames_nodup := List.nodup_nil

def snapshot : Snapshot Seat := ⟨service.registry, model, service.config⟩

def parts (seat : Seat) : List (String × Value) :=
  [("Row", .int32 seat.row), ("Number", .int64 seat.number)]

def entity (r : Record Seat) : Entity Seat :=
  ⟨"Seats", set.type, .composite (parts r.data),
    [⟨"Row", .simple .int32, .simple (.int32 r.data.row)⟩,
      ⟨"Number", .simple .int64, .simple (.int64 r.data.number)⟩], [], some r⟩

theorem generate_eq : service.registry.generate service.config = .ok model := by cbv

theorem snapshot_run
    : Service.snapshot.run.run service
        = (.ok snapshot, { service with cache := ⟨some ⟨0, model⟩, 1⟩ }) := by
  rw [Service.snapshot_run, generate_eq]
  rfl

theorem find_eq : snapshot.find "Seats" = .ok (set, entry) := by cbv

theorem key_eq (r : Record Seat)
    : Snapshot.key set entry.accessor r.data = .ok (.composite (parts r.data)) := by
  cbv

theorem page_run
    : (Service.page "Seats" {}).run.run service
        = (.ok ⟨"Seats", entry.records.map entity, none, none⟩,
            { service with cache := ⟨some ⟨0, model⟩, 1⟩ }) := by
  unfold Service.page
  rw [Service.ask_run_of_snapshot snapshot_run]
  cbv

theorem keysApart : Snapshot.KeysApart set entry := by
  have hparts : entry.records.Pairwise fun r r' =>
      (Key.composite (parts r.data)).isMatch (.composite (parts r'.data)) = false := by
    decide
  apply hparts.imp
  intro r r' hdiffer own own' hown hown' hmatch
  rw [key_eq] at hown hown'
  cases hown
  cases hown'
  rw [hdiffer] at hmatch
  cases hmatch.1

/-- The second seat of the first row, with its numbers in another order and in other widths. -/
def respelled : List (String × Value) := [("NUMBER", .byte 2), ("row", .int64 1)]

theorem findRecord_seat
    : Snapshot.findRecord set entry.accessor (entity (seat 1 2)).key entry.records
        = .ok (seat 1 2)
        ∧
      Snapshot.findRecord set entry.accessor (.composite respelled) entry.records
        = .ok (seat 1 2) := by
  have hnames : Key.DistinctNames set.type.keys := by
    unfold Key.DistinctNames
    decide
  have hparts : Key.DistinctNames ((parts ⟨1, 2⟩).map (·.1)) := hnames
  have hsame : Key.SameLookup (parts ⟨1, 2⟩) respelled := by
    refine ⟨[("Number", .int64 2), ("Row", .int32 1)], List.Perm.swap .., ?_⟩
    have hnumber : Key.PartRespelled ("Number", .int64 2) ("NUMBER", .byte 2) :=
      ⟨by decide, .inr (by decide)⟩
    have hrow : Key.PartRespelled ("Row", .int32 1) ("row", .int64 1) :=
      ⟨by decide, .inr (by decide)⟩
    exact .cons hnumber (.cons hrow .nil)
  obtain ⟨hlisted, _⟩ := Service.listed_is_found snapshot_run find_eq
  obtain ⟨r, _, own, hfound, hentity, _, _, horigin⟩ :=
    hlisted hnames (fun r _ => ⟨_, key_eq r⟩) _ _ page_run (entity (seat 1 2)) (by simp [entry])
  obtain ⟨hrecord, hshown⟩ := horigin keysApart
  obtain rfl : seat 1 2 = r := Option.some.inj hrecord
  have hkey : (entity (seat 1 2)).key = .composite (parts ⟨1, 2⟩) := rfl
  rw [hkey] at hfound hentity ⊢
  obtain ⟨_, hspelled⟩ := Service.listed_is_found (Service.snapshot_again snapshot_run) find_eq
  rcases hspelled _ _ hparts hsame with ⟨r, _, hsame⟩ | hmissing | ⟨r, _, failure, hfails, _⟩
  . have hown := (hsame (.composite (parts ⟨1, 2⟩)) (by simp)).1
    rw [hfound] at hown
    cases hown
    exact ⟨hfound, (hsame (.composite respelled) (by simp)).1⟩
  . have hno := hmissing (.composite (parts ⟨1, 2⟩)) (by simp) {}
    rw [hentity, hshown] at hno
    cases hno
  . rw [key_eq] at hfails
    cases hfails

end Seats

end Edm
