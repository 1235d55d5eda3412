import Mathlib.Data.Finset.Basic

/-! A log of acquisitions and releases, replayed strictly: nothing is acquired that is
held, nothing released that is not. -/
namespace PyVpn.Ledger
variable {α : Type*} [DecidableEq α]

inductive Op (α : Type*) where
  | acquire (a : α)
  | release (a : α)
  deriving DecidableEq

def apply (held : Finset α) : Op α → Option (Finset α)
  | .acquire a => if a ∈ held then none else some (insert a held)
  | .release a => if a ∈ held then some (held.erase a) else none

def replay : List (Op α) → Finset α → Option (Finset α)
  | [], held => some held
  | op :: ops, held => (apply held op).bind (replay ops)

variable {held held' : Finset α} {a : α}

@[simp] theorem replay_nil (held : Finset α) : replay [] held = some held := rfl

theorem replay_append (ops ops' : List (Op α)) (held : Finset α) :
    replay (ops ++ ops') held = (replay ops held).bind (replay ops') := by
  induction ops generalizing held with
  | nil => rfl
  | cons op ops ih =>
    rw [List.cons_append, replay, replay]
    cases apply held op with
    | none => rfl
    | some next => exact ih next

theorem replay_acquire {ops : List (Op α)} (hops : replay ops held = some held') (ha : a ∉ held') :
    replay (ops ++ [.acquire a]) held = some (insert a held') := by
  rw [replay_append, hops]
  simp [replay, apply, ha]

theorem replay_release {ops : List (Op α)} (hops : replay ops held = some held') (ha : a ∈ held') :
    replay (ops ++ [.release a]) held = some (held'.erase a) := by
  rw [replay_append, hops]
  simp [replay, apply, ha]

theorem replay_releases {as : List α} (hnodup : as.Nodup) (hheld : ∀ a ∈ as, a ∈ held) :
    replay (as.map .release) held = some (held \ as.toFinset) := by
  induction as generalizing held with
  | nil => simp
  | cons a as ih =>
    obtain ⟨hfresh, hnodup⟩ := List.nodup_cons.mp hnodup
    have hfirst : a ∈ held := hheld a List.mem_cons_self
    have hrest : ∀ b ∈ as, b ∈ held.erase a := by
      intro b hb
      refine Finset.mem_erase.mpr ⟨?_, hheld b (List.mem_cons_of_mem a hb)⟩
      intro heq
      exact hfresh (heq ▸ hb)
    rw [List.map_cons, replay, apply, if_pos hfirst, Option.bind_some, ih hnodup hrest]
    congr 1
    ext b
    simp only [Finset.mem_sdiff, Finset.mem_erase, List.mem_toFinset, List.mem_cons, not_or]
    tauto

theorem replay_insert {ops : List (Op α)} (hops : replay ops held = some held')
    (hother : ∀ op ∈ ops, op ≠ .acquire a ∧ op ≠ .release a) :
    replay ops (insert a held) = some (insert a held') := by
  induction ops generalizing held with
  | nil =>
    cases hops
    rfl
  | cons op ops ih =>
    obtain ⟨hne, hrest⟩ := List.forall_mem_cons.mp hother
    obtain ⟨next, hnext, hops⟩ := Option.bind_eq_some_iff.mp hops
    have hinserted : apply (insert a held) op = some (insert a next) := by
      cases op with
      | acquire b =>
        have hb : b ≠ a := fun heq => hne.1 (congrArg Op.acquire heq)
        by_cases hmem : b ∈ held
        · simp [apply, hmem] at hnext
        · simp only [apply, if_neg hmem, Option.some.injEq] at hnext
          simp [apply, hmem, hb, ← hnext, Finset.insert_comm]
      | release b =>
        have hb : b ≠ a := fun heq => hne.2 (congrArg Op.release heq)
        by_cases hmem : b ∈ held
        · simp only [apply, if_pos hmem, Option.some.injEq] at hnext
          simp [apply, hmem, ← hnext, Finset.erase_insert_of_ne (Ne.symm hb)]
        · simp [apply, hmem] at hnext
    rw [replay, hinserted]
    exact ih hops hrest

end PyVpn.Ledger
