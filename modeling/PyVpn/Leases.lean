import Mathlib.Data.Set.Insert
import Mathlib.Logic.Function.Basic

/-! Leases: every holder has at most one resource, every resource at most one holder,
and the two tables that say so agree. What is held is not free. -/
namespace PyVpn.Leases
variable {κ ρ : Type*}

structure Consistent (held : κ → Option ρ) (owner : ρ → Option κ) (free : Set ρ) : Prop where
  owner_iff : ∀ k r, owner r = some k ↔ held k = some r
  held_not_free : ∀ k r, held k = some r → r ∉ free

variable {held : κ → Option ρ} {owner : ρ → Option κ} {free free' : Set ρ}

theorem Consistent.empty : Consistent (fun _ : κ => none) (fun _ : ρ => none) free :=
  ⟨fun _ _ => by simp, fun _ _ h => by cases h⟩

theorem Consistent.holder_unique (h : Consistent held owner free) {j k : κ} {r : ρ}
    (hj : held j = some r) (hk : held k = some r) : j = k := by
  have hj := (h.owner_iff j r).mpr hj
  have hk := (h.owner_iff k r).mpr hk
  exact Option.some.inj (hj.symm.trans hk)

/-- A consistent record of a range in which nothing is lost. -/
structure Complete (held : κ → Option ρ) (owner : ρ → Option κ) (free range : Set ρ) : Prop
    extends Consistent held owner free where
  covers : ∀ r, r ∈ range ↔ r ∈ free ∨ ∃ k, held k = some r

variable {range : Set ρ}

theorem Complete.start : Complete (fun _ : κ => none) (fun _ : ρ => none) range range where
  toConsistent := Consistent.empty
  covers := fun _ => by simp

theorem Complete.all_free (h : Complete held owner free range) (hnone : ∀ k, held k = none) :
    free = range := by
  ext r
  rw [h.covers r]
  simp [hnone]

variable [DecidableEq κ] [DecidableEq ρ]

theorem Consistent.grant (h : Consistent held owner free) {k : κ} {r : ρ} (hk : held k = none)
    (hr : r ∈ free) (hfree : free' ⊆ free \ {r}) :
    Consistent (Function.update held k (some r)) (Function.update owner r (some k)) free' := by
  have hnotheld (j : κ) : held j ≠ some r := fun hj => h.held_not_free j r hj hr
  constructor
  · intro j q
    by_cases hj : j = k
    · subst hj
      by_cases hq : q = r
      · subst hq
        simp
      · have hown : owner q ≠ some j := by simp [h.owner_iff, hk]
        simpa [hq, hown] using Ne.symm hq
    · by_cases hq : q = r
      · subst hq
        simpa [hj, hnotheld j] using Ne.symm hj
      · simpa [hj, hq] using h.owner_iff j q
  · intro j q hjq hq
    obtain ⟨hqfree, hqr⟩ := hfree hq
    by_cases hj : j = k
    · subst hj
      rw [Function.update_self] at hjq
      exact hqr (Option.some.inj hjq).symm
    · rw [Function.update_of_ne hj] at hjq
      exact h.held_not_free j q hjq hqfree

theorem Consistent.revoke (h : Consistent held owner free) {k : κ} {r : ρ} (hk : held k = some r)
    (hfree : free' ⊆ insert r free) :
    Consistent (Function.update held k none) (Function.update owner r none) free' := by
  have hother {j : κ} (hj : j ≠ k) : held j ≠ some r := fun hjr => hj (h.holder_unique hjr hk)
  constructor
  · intro j q
    by_cases hj : j = k
    · subst hj
      by_cases hq : q = r
      · subst hq
        simp
      · have hown : owner q ≠ some j := by
          rw [Ne, h.owner_iff, hk]
          exact fun hqr => hq (Option.some.inj hqr).symm
        simpa [hq] using hown
    · by_cases hq : q = r
      · subst hq
        simpa [hj] using hother hj
      · simpa [hj, hq] using h.owner_iff j q
  · intro j q hjq hq
    by_cases hj : j = k
    · subst hj
      rw [Function.update_self] at hjq
      cases hjq
    · rw [Function.update_of_ne hj] at hjq
      cases hfree hq with
      | inl hqr => exact hother hj (hqr ▸ hjq)
      | inr hqfree => exact h.held_not_free j q hjq hqfree

theorem Complete.grant (h : Complete held owner free range) {k : κ} {r : ρ} (hk : held k = none)
    (hr : r ∈ free) : Complete (Function.update held k (some r)) (Function.update owner r (some k))
      (free \ {r}) range where
  toConsistent := h.toConsistent.grant hk hr (Set.Subset.refl _)
  covers := by
    intro q
    rw [h.covers q]
    constructor
    · intro hq
      by_cases hqr : q = r
      · exact .inr ⟨k, by rw [Function.update_self, hqr]⟩
      · cases hq with
        | inl hfree => exact .inl ⟨hfree, hqr⟩
        | inr hheld =>
          obtain ⟨j, hj⟩ := hheld
          have hjk : j ≠ k := by
            intro hjk
            rw [hjk, hk] at hj
            cases hj
          exact .inr ⟨j, by rw [Function.update_of_ne hjk, hj]⟩
    · intro hq
      cases hq with
      | inl hfree => exact .inl hfree.1
      | inr hheld =>
        obtain ⟨j, hj⟩ := hheld
        by_cases hjk : j = k
        · subst hjk
          rw [Function.update_self] at hj
          exact .inl (Option.some.inj hj ▸ hr)
        · rw [Function.update_of_ne hjk] at hj
          exact .inr ⟨j, hj⟩

theorem Complete.revoke (h : Complete held owner free range) {k : κ} {r : ρ}
    (hk : held k = some r) : Complete (Function.update held k none) (Function.update owner r none)
      (insert r free) range where
  toConsistent := h.toConsistent.revoke hk (Set.Subset.refl _)
  covers := by
    intro q
    rw [h.covers q]
    constructor
    · intro hq
      by_cases hqr : q = r
      · exact .inl (.inl hqr)
      · cases hq with
        | inl hfree => exact .inl (.inr hfree)
        | inr hheld =>
          obtain ⟨j, hj⟩ := hheld
          have hjk : j ≠ k := by
            intro hjk
            rw [hjk, hk] at hj
            exact hqr (Option.some.inj hj).symm
          exact .inr ⟨j, by rw [Function.update_of_ne hjk, hj]⟩
    · intro hq
      cases hq with
      | inl hfree =>
        cases hfree with
        | inl hqr => exact .inr ⟨k, hqr ▸ hk⟩
        | inr hfree => exact .inl hfree
      | inr hheld =>
        obtain ⟨j, hj⟩ := hheld
        by_cases hjk : j = k
        · subst hjk
          rw [Function.update_self] at hj
          cases hj
        · rw [Function.update_of_ne hjk] at hj
          exact .inr ⟨j, hj⟩

end PyVpn.Leases
