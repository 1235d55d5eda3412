import Mathlib.Algebra.Order.Group.Defs
import Mathlib.Algebra.Order.Monoid.Defs
import Mathlib.Data.List.Basic
import Mathlib.Order.Bounds.Basic
import PyVpn.EventRun

/-! Sliding-window anti-replay over any ordered group of packet numbers: an arrival
is admitted when it is new and less than the window's size below every number
admitted so far. -/
namespace PyVpn.AntiReplay
variable {α : Type*} [AddCommGroup α] [LinearOrder α] {size p q H : α} {accepted : List α}

def Admits (size : α) (accepted : List α) (p : α) : Prop :=
  0 ≤ p ∧ p ∉ accepted ∧ ∀ q ∈ accepted, q - size < p

instance : Decidable (Admits size accepted p) := by
  unfold Admits
  infer_instance

def record (size : α) (accepted : List α) (p : α) : List α :=
  if Admits size accepted p then p :: accepted else accepted

theorem record_of_admits (h : Admits size accepted p) :
    record size accepted p = p :: accepted := if_pos h

theorem record_of_not_admits (h : ¬ Admits size accepted p) :
    record size accepted p = accepted := if_neg h

theorem record_nodup (h : accepted.Nodup) : (record size accepted p).Nodup := by
  unfold record
  split
  · rename_i hp
    exact List.nodup_cons.mpr ⟨hp.2.1, h⟩
  · exact h

theorem admits_iff_highest [IsOrderedAddMonoid α] (hH : IsGreatest (fun q => q ∈ accepted) H) :
    Admits size accepted p ↔ 0 ≤ p ∧ p ∉ accepted ∧ H - size < p := by
  constructor
  · intro h
    exact ⟨h.1, h.2.1, h.2.2 H hH.1⟩
  · intro h
    refine ⟨h.1, h.2.1, ?_⟩
    intro q hq
    exact lt_of_le_of_lt (sub_le_sub_right (hH.2 hq) size) h.2.2

/-- The rule read off the accepted numbers alone: there are none, or their largest decides. -/
theorem admits_iff_largest [IsOrderedAddMonoid α] (hbounds : ∀ q ∈ accepted, q ≤ H)
    (htop : accepted ≠ [] → H ∈ accepted) :
    Admits size accepted p ↔ 0 ≤ p ∧ p ∉ accepted ∧
      (accepted = [] ∨ ∃ top, IsGreatest { q | q ∈ accepted } top ∧ top - size < p) := by
  by_cases hempty : accepted = []
  · simp [Admits, hempty]
  · have hgreatest : IsGreatest (fun q => q ∈ accepted) H := ⟨htop hempty, hbounds⟩
    rw [admits_iff_highest hgreatest]
    constructor
    · intro ⟨hpos, hnew, hwin⟩
      exact ⟨hpos, hnew, .inr ⟨H, hgreatest, hwin⟩⟩
    · intro ⟨hpos, hnew, hwin⟩
      obtain ⟨top, htop', hlt⟩ := hwin.resolve_left hempty
      rw [hgreatest.unique htop']
      exact ⟨hpos, hnew, hlt⟩

/-- The numbers admitted so far, and those of them that came since the last jump. -/
structure Arrivals (α : Type*) where
  accepted : List α
  since : List α

/-- An arrival at least the window's size above every number admitted before it is a jump. -/
def arrive (size : α) (a : Arrivals α) (p : α) : Arrivals α :=
  if Admits size a.accepted p then
    ⟨p :: a.accepted, if ∀ q ∈ a.accepted, q + size ≤ p then [p] else p :: a.since⟩
  else a

end PyVpn.AntiReplay
