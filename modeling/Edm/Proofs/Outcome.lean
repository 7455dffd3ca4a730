import Mathlib.Data.List.Forall2

/-!
This module contains the laws of computations that can fail: what is known of their parts once the
whole has succeeded.
-/

namespace Edm

variable {ε β γ δ : Type}

theorem bind_eq_ok {x : Except ε β} {f : β → Except ε γ} {c : γ}
    : x >>= f = .ok c ↔ ∃ b, x = .ok b ∧ f b = .ok c := by
  cases x with
  | error failure => simp [bind, Except.bind]
  | ok b => simp [bind, Except.bind]

theorem map_eq_ok {x : Except ε β} {f : β → γ} {c : γ}
    : f <$> x = .ok c ↔ ∃ b, x = .ok b ∧ f b = c := by
  cases x with
  | error failure => simp [Functor.map, Except.map]
  | ok b => simp [Functor.map, Except.map]

theorem pure_eq_ok {b c : β} : (pure b : Except ε β) = .ok c ↔ b = c := by
  simp [pure, Except.pure]

@[simp]
theorem ok_bind {b : β} {f : β → Except ε γ} : (Except.ok b >>= f) = f b := rfl

theorem map_ok {b : β} {f : β → γ} : f <$> (Except.ok b : Except ε β) = .ok (f b) := rfl

theorem mapM_eq_ok {f : β → Except ε γ} {bs : List β} {cs : List γ}
    : bs.mapM f = .ok cs ↔ List.Forall₂ (fun b c => f b = .ok c) bs cs := by
  induction bs generalizing cs with
  | nil =>
    rw [List.mapM_nil, pure_eq_ok, List.forall₂_nil_left_iff]
    exact eq_comm
  | cons b bs ih =>
    rw [List.mapM_cons, bind_eq_ok, List.forall₂_cons_left_iff]
    constructor
    . rintro ⟨c, hc, h⟩
      obtain ⟨cs', hcs, h⟩ := bind_eq_ok.mp h
      exact ⟨c, cs', hc, ih.mp hcs, (pure_eq_ok.mp h).symm⟩
    . rintro ⟨c, cs', hc, hcs, rfl⟩
      exact ⟨c, hc, bind_eq_ok.mpr ⟨cs', ih.mpr hcs, rfl⟩⟩

theorem exists_mapM_eq_ok {f : β → Except ε γ} {bs : List β} (h : ∀ b ∈ bs, ∃ c, f b = .ok c)
    : ∃ cs, bs.mapM f = .ok cs := by
  induction bs with
  | nil => exact ⟨[], rfl⟩
  | cons b bs ih =>
    obtain ⟨c, hc⟩ := h b (by simp)
    obtain ⟨cs, hcs⟩ := ih (fun b' hb' => h b' (by simp [hb']))
    exact ⟨c :: cs, mapM_eq_ok.mpr (.cons hc (mapM_eq_ok.mp hcs))⟩

theorem map_eq_map_of_mapM {f : β → Except ε γ} {g : γ → δ} {k : β → δ} {bs : List β} {cs : List γ}
    (hf : ∀ b c, f b = .ok c → g c = k b) (h : bs.mapM f = .ok cs) : cs.map g = bs.map k := by
  rw [mapM_eq_ok] at h
  induction h with
  | nil => rfl
  | cons hb _ ih => rw [List.map_cons, List.map_cons, hf _ _ hb, ih]

theorem exists_of_forall₂ {R : β → γ → Prop} {bs : List β} {cs : List γ} {b : β}
    (h : List.Forall₂ R bs cs) (hb : b ∈ bs) : ∃ c ∈ cs, R b c := by
  induction h with
  | nil => cases hb
  | @cons b' c bs cs hc _ ih =>
    rcases List.mem_cons.mp hb with rfl | hb
    . exact ⟨c, by simp, hc⟩
    . obtain ⟨c', hc', hb⟩ := ih hb
      exact ⟨c', by simp [hc'], hb⟩

theorem exists_of_mapM {f : β → Except ε γ} {bs : List β} {cs : List γ} {c : γ}
    (h : bs.mapM f = .ok cs) (hc : c ∈ cs) : ∃ b ∈ bs, f b = .ok c := by
  rw [mapM_eq_ok] at h
  obtain ⟨b, hb, hfb⟩ := exists_of_forall₂ (List.Forall₂.flip (R := flip _) h) hc
  exact ⟨b, hb, hfb⟩

theorem mapM_congr {f g : β → Except ε γ} {bs : List β} (h : ∀ b ∈ bs, f b = g b)
    : bs.mapM f = bs.mapM g := by
  induction bs with
  | nil => rfl
  | cons b bs ih =>
    rw [List.mapM_cons, List.mapM_cons, h b (by simp), ih fun b' hb' => h b' (by simp [hb'])]

theorem map_mapM {f : β → Except ε γ} {g : β → Except ε δ} {k : γ → δ} {bs : List β}
    (h : ∀ b ∈ bs, g b = k <$> f b) : bs.mapM g = List.map k <$> bs.mapM f := by
  induction bs with
  | nil => rfl
  | cons b bs ih =>
    rw [List.mapM_cons, List.mapM_cons, h b (by simp), ih fun b' hb' => h b' (by simp [hb'])]
    cases f b with
    | error failure => rfl
    | ok c => cases bs.mapM f <;> rfl

theorem filterAuxM_eq_ok {p : β → Except ε Bool} {bs kept cs : List β}
    (h : bs.filterAuxM p kept = .ok cs)
    : cs.reverse = kept.reverse ++ bs.filter fun b => (p b).toOption == some true := by
  induction bs generalizing kept with
  | nil =>
    cases h
    rw [List.filter_nil, List.append_nil]
  | cons b bs ih =>
    rw [List.filterAuxM] at h
    obtain ⟨keep, hkeep, h⟩ := bind_eq_ok.mp h
    rw [List.filter_cons, hkeep]
    cases keep with
    | true =>
      rw [ih h, cond_true, List.reverse_cons, List.append_assoc]
      rfl
    | false => exact ih h

theorem filterM_eq_ok {p : β → Except ε Bool} {bs cs : List β} (h : bs.filterM p = .ok cs)
    : cs = bs.filter fun b => (p b).toOption == some true := by
  obtain ⟨reversed, hreversed, h⟩ := bind_eq_ok.mp h
  cases h
  exact filterAuxM_eq_ok hreversed

theorem sublist_of_filterM {p : β → Except ε Bool} {bs cs : List β} (h : bs.filterM p = .ok cs)
    : cs.Sublist bs := by
  rw [filterM_eq_ok h]
  exact List.filter_sublist

theorem exists_of_filterAuxM {p : β → Except ε Bool} {bs kept cs : List β}
    (h : bs.filterAuxM p kept = .ok cs) : ∀ b ∈ bs, ∃ keep, p b = .ok keep := by
  induction bs generalizing kept with
  | nil => exact nofun
  | cons b bs ih =>
    rw [List.filterAuxM] at h
    obtain ⟨keep, hkeep, h⟩ := bind_eq_ok.mp h
    exact List.forall_mem_cons.mpr ⟨⟨keep, hkeep⟩, ih h⟩

theorem exists_of_filterM {p : β → Except ε Bool} {bs cs : List β} (h : bs.filterM p = .ok cs)
    : ∀ b ∈ bs, ∃ keep, p b = .ok keep := by
  obtain ⟨reversed, hreversed, _⟩ := bind_eq_ok.mp h
  exact exists_of_filterAuxM hreversed

/-! ### Failures -/

def FailsWith (p : ε → Prop) (x : Except ε β) : Prop := ∀ failure, x = .error failure → p failure

section

variable {p : ε → Prop}

@[simp]
theorem failsWith_ok (b : β) : FailsWith p (.ok b) := nofun

@[simp]
theorem failsWith_pure (b : β) : FailsWith p (pure b) := nofun

@[simp]
theorem failsWith_error {failure : ε} : FailsWith p (.error failure : Except ε β) ↔ p failure := by
  constructor
  . intro h
    exact h failure rfl
  . rintro h _ ⟨⟩
    exact h

theorem failsWith_bind {x : Except ε β} {f : β → Except ε γ}
    : FailsWith p (x >>= f) ↔ FailsWith p x ∧ ∀ b, x = .ok b → FailsWith p (f b) := by
  cases x with
  | error failure =>
    rw [failsWith_error]
    constructor
    . intro h
      exact ⟨h failure rfl, nofun⟩
    . rintro ⟨h, _⟩ _ ⟨⟩
      exact h
  | ok b => simp

theorem FailsWith.bind {x : Except ε β} {f : β → Except ε γ} (hx : FailsWith p x)
    (hf : ∀ b, FailsWith p (f b)) : FailsWith p (x >>= f) := by
  exact failsWith_bind.mpr ⟨hx, fun b _ => hf b⟩

theorem FailsWith.mono {q : ε → Prop} {x : Except ε β} (hx : FailsWith p x)
    (hpq : ∀ failure, p failure → q failure) : FailsWith q x :=
  fun failure h => hpq failure (hx failure h)

theorem FailsWith.map {x : Except ε β} (hx : FailsWith p x) (f : β → γ) : FailsWith p (x.map f) := by
  cases x with
  | error failure => exact failsWith_error.mpr (hx failure rfl)
  | ok b => apply failsWith_ok

theorem failsWith_mapM {f : β → Except ε γ} {bs : List β} (hf : ∀ b ∈ bs, FailsWith p (f b))
    : FailsWith p (bs.mapM f) := by
  induction bs with
  | nil => exact failsWith_pure []
  | cons b bs ih =>
    rw [List.mapM_cons]
    apply (hf b (by simp)).bind
    intro c
    apply (ih fun b' hb' => hf b' (by simp [hb'])).bind
    intro cs
    apply failsWith_pure

theorem failsWith_filterAuxM {f : β → Except ε Bool} {bs kept : List β}
    (hf : ∀ b ∈ bs, FailsWith p (f b)) : FailsWith p (bs.filterAuxM f kept) := by
  induction bs generalizing kept with
  | nil => apply failsWith_pure
  | cons b bs ih =>
    rw [List.filterAuxM]
    apply (hf b (by simp)).bind
    intro keep
    apply ih fun b' hb' => hf b' (by simp [hb'])

theorem failsWith_filterM {f : β → Except ε Bool} {bs : List β} (hf : ∀ b ∈ bs, FailsWith p (f b))
    : FailsWith p (bs.filterM f) := by
  apply (failsWith_filterAuxM hf).bind
  intro cs
  apply failsWith_pure

end

section

variable [DecidableEq δ] {f : β → Except ε (Option γ)} {g : γ → δ} {k : β → δ} {bs : List β}
  {cs : List (Option γ)}

theorem find?_eq_none_of_mapM {d : δ} (hname : ∀ b c, f b = .ok (some c) → g c = k b)
    (h : bs.mapM f = .ok cs) (hd : d ∉ bs.map k)
    : (cs.filterMap id).find? (fun c => g c == d) = none := by
  rw [List.find?_eq_none]
  intro c hc hfound
  obtain ⟨c?, hmem, rfl⟩ := List.mem_filterMap.mp hc
  obtain ⟨b, hb, hfb⟩ := exists_of_mapM h hmem
  apply hd
  rw [← beq_iff_eq.mp hfound, hname b c hfb]
  exact List.mem_map_of_mem hb

theorem find?_of_mapM {b : β} {c? : Option γ} (hname : ∀ b c, f b = .ok (some c) → g c = k b)
    (hnodup : (bs.map k).Nodup) (h : bs.mapM f = .ok cs) (hb : b ∈ bs) (hfb : f b = .ok c?)
    : (cs.filterMap id).find? (fun c => g c == k b) = c? := by
  induction bs generalizing cs with
  | nil => cases hb
  | cons b' bs ih =>
    rw [mapM_eq_ok, List.forall₂_cons_left_iff] at h
    obtain ⟨c'?, cs', hfb', h, rfl⟩ := h
    rw [← mapM_eq_ok] at h
    rw [List.map_cons, List.nodup_cons] at hnodup
    rcases List.mem_cons.mp hb with rfl | hb
    . obtain rfl : c? = c'? := by simpa [hfb] using hfb'
      cases c? with
      | none =>
        rw [List.filterMap_cons_none rfl]
        exact find?_eq_none_of_mapM hname h hnodup.1
      | some c => simp [hname b c hfb]
    . have hne : k b ≠ k b' := by
        intro heq
        apply hnodup.1
        rw [← heq]
        exact List.mem_map_of_mem hb
      cases c'? with
      | none =>
        rw [List.filterMap_cons_none rfl]
        exact ih hnodup.2 h hb
      | some c =>
        have hskip : (g c == k b) = false := by
          rw [beq_eq_false_iff_ne, hname b' c hfb']
          exact hne.symm
        rw [List.filterMap_cons]
        dsimp
        rw [List.find?_cons, hskip]
        exact ih hnodup.2 h hb

end

end Edm
