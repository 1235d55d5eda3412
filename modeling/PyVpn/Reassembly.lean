import PyVpn.EventRun
import Mathlib.Data.Finset.Card
import Mathlib.Logic.Function.Basic

/-! Reassembly of messages that travel in numbered parts. A receiver accepts each
number at most once, holds the parts of unfinished messages, delivers a message with
its last part, and may drop what it holds of any message at any time. -/
namespace PyVpn.Reassembly
open EventRun
variable {κ ι : Type*}

/-- Which numbers carry which message. -/
structure Layout (κ ι : Type*) where
  parts : κ → Finset ι
  disjoint : ∀ j k n, n ∈ parts j → n ∈ parts k → j = k

structure State (κ ι : Type*) where
  accepted : Finset ι
  held : κ → Finset ι

inductive Event (κ ι : Type*) where
  | arrive (k : κ) (n : ι)
  | evict (gone : κ → Bool)

def empty : State κ ι := ⟨∅, fun _ => ∅⟩

/-- What is held was accepted and is part of its message. -/
def Sound (L : Layout κ ι) (s : State κ ι) : Prop :=
  ∀ k, s.held k ⊆ s.accepted ∧ s.held k ⊆ L.parts k

variable {L : Layout κ ι} {s : State κ ι} {k : κ} {n : ι}

theorem sound_empty : Sound L empty :=
  fun _ => ⟨Finset.empty_subset _, Finset.empty_subset _⟩

variable [DecidableEq κ] [DecidableEq ι]

def act (L : Layout κ ι) : Event κ ι → State κ ι → Option κ × State κ ι
  | .arrive k n, s =>
    if n ∈ L.parts k ∧ n ∉ s.accepted then
      let group := insert n (s.held k)
      if group = L.parts k then
        (some k, ⟨insert n s.accepted, Function.update s.held k ∅⟩)
      else (none, ⟨insert n s.accepted, Function.update s.held k group⟩)
    else (none, s)
  | .evict gone, s => (none, ⟨s.accepted, fun k => if gone k then ∅ else s.held k⟩)

/-- The step function of the receiver, its deliveries left out. -/
def step (L : Layout κ ι) (s : State κ ι) (e : Event κ ι) : State κ ι := (act L e s).2

theorem accepted_step (e : Event κ ι) : s.accepted ⊆ (step L s e).accepted := by
  cases e with
  | arrive k n =>
    unfold step act
    simp only
    split
    · split
      · exact Finset.subset_insert n _
      · exact Finset.subset_insert n _
    · exact Finset.Subset.refl _
  | evict gone => exact Finset.Subset.refl _

theorem accepted_run (es : List (Event κ ι)) : s.accepted ⊆ (run (step L) es s).accepted :=
  inv_run_always (I := fun t : State κ ι => s.accepted ⊆ t.accepted)
    (fun _ e h => h.trans (accepted_step e)) es s (Finset.Subset.refl _)

theorem sound_step (h : Sound L s) (e : Event κ ι) : Sound L (step L s e) := by
  cases e with
  | arrive k n =>
    unfold step act
    simp only
    split
    · rename_i hn
      have hinsert : insert n (s.held k) ⊆ L.parts k :=
        Finset.insert_subset hn.1 (h k).2
      have hkeep (j : κ) : s.held j ⊆ insert n s.accepted :=
        (h j).1.trans (Finset.subset_insert n _)
      split
      · intro j
        by_cases hj : j = k
        · subst hj
          simp only [Function.update_self]
          exact ⟨Finset.empty_subset _, Finset.empty_subset _⟩
        · simp only [Function.update_of_ne hj]
          exact ⟨hkeep j, (h j).2⟩
      · intro j
        by_cases hj : j = k
        · subst hj
          simp only [Function.update_self]
          exact ⟨Finset.insert_subset_insert n (h j).1, hinsert⟩
        · simp only [Function.update_of_ne hj]
          exact ⟨hkeep j, (h j).2⟩
    · exact h
  | evict gone =>
    intro j
    simp only [step, act]
    split
    · exact ⟨Finset.empty_subset _, Finset.empty_subset _⟩
    · exact h j

theorem delivers (h : Sound L s) {e : Event κ ι} (hk : (act L e s).1 = some k) :
    ¬ L.parts k ⊆ s.accepted ∧ L.parts k ⊆ (step L s e).accepted := by
  cases e with
  | evict gone => cases hk
  | arrive j n =>
    by_cases hn : n ∈ L.parts j ∧ n ∉ s.accepted
    · by_cases hfull : insert n (s.held j) = L.parts j
      · simp only [act, hn, hfull, not_false_eq_true, and_self, if_true] at hk
        cases hk
        refine ⟨fun hall => hn.2 (hall hn.1), ?_⟩
        simp only [step, act, hn, hfull, not_false_eq_true, and_self, if_true]
        rw [← hfull]
        exact Finset.insert_subset_insert n (h k).1
      · simp [act, hn, hfull] at hk
    · simp only [act, hn, if_false] at hk
      cases hk

theorem arrive_delivers (L : Layout κ ι) (s : State κ ι) (k : κ) (n : ι) :
    (act L (.arrive k n) s).1 = none ∨ (act L (.arrive k n) s).1 = some k := by
  by_cases hn : n ∈ L.parts k ∧ n ∉ s.accepted
  · by_cases hfull : insert n (s.held k) = L.parts k
    · exact .inr (by simp only [act, if_pos hn, if_pos hfull])
    · exact .inl (by simp only [act, if_pos hn, if_neg hfull])
  · exact .inl (by simp only [act, if_neg hn])

theorem accepted_arrive (hn : n ∈ L.parts k) : n ∈ (step L s (.arrive k n)).accepted := by
  by_cases hold : n ∈ s.accepted
  · exact accepted_step (.arrive k n) hold
  · unfold step act
    simp only [if_pos (And.intro hn hold)]
    split
    · exact Finset.mem_insert_self n _
    · exact Finset.mem_insert_self n _

/-- How often a run delivers one message. -/
def deliveries (L : Layout κ ι) (k : κ) (es : List (Event κ ι)) (s : State κ ι) : Nat :=
  (outputs (act L) es s).countP fun r => r.2 = some k

theorem deliveries_le (h : Sound L s) (es : List (Event κ ι)) :
    deliveries L k es s ≤ if L.parts k ⊆ s.accepted then 0 else 1 := by
  unfold deliveries
  induction es generalizing s with
  | nil => exact Nat.zero_le _
  | cons e es ih =>
    have hrest := ih (sound_step h e)
    simp only [outputs, List.countP_cons]
    by_cases hk : (act L e s).1 = some k
    · obtain ⟨hbefore, hafter⟩ := delivers h hk
      rw [if_pos hafter] at hrest
      rw [if_neg hbefore]
      simp only [hk, decide_true, if_true]
      exact Nat.succ_le_succ hrest
    · simp only [hk, decide_false, Bool.false_eq_true, if_false, Nat.add_zero]
      refine Nat.le_trans hrest ?_
      by_cases hbefore : L.parts k ⊆ s.accepted
      · rw [if_pos hbefore, if_pos (hbefore.trans (accepted_step e))]
      · rw [if_neg hbefore]
        split
        · exact Nat.zero_le 1
        · exact Nat.le_refl 1

theorem at_most_once (es : List (Event κ ι)) : deliveries L k es empty ≤ 1 := by
  refine Nat.le_trans (deliveries_le sound_empty es) ?_
  split
  · exact Nat.zero_le 1
  · exact Nat.le_refl 1

/-- Nothing held of message `k` is dropped at this step. -/
def Spares (k : κ) (s : State κ ι) : Event κ ι → Prop
  | .arrive _ _ => True
  | .evict gone => gone k = true → s.held k = ∅

/-- As long as message `k` is unfinished, all its accepted parts are held. -/
def Holds (L : Layout κ ι) (k : κ) (s : State κ ι) : Prop :=
  ∀ n ∈ L.parts k, n ∈ s.accepted → n ∈ s.held k

theorem holds_or_delivers (h : Holds L k s) {e : Event κ ι} (he : Spares k s e)
    (hk : (act L e s).1 ≠ some k) : Holds L k (step L s e) := by
  intro n hn hacc
  cases e with
  | evict gone =>
    have hheld := h n hn hacc
    simp only [step, act]
    split
    · rename_i hgone
      rw [he hgone] at hheld
      exact hheld
    · exact hheld
  | arrive j m =>
    by_cases hm : m ∈ L.parts j ∧ m ∉ s.accepted
    · by_cases hj : k = j
      · subst hj
        by_cases hfull : insert m (s.held k) = L.parts k
        · simp [act, hm, hfull] at hk
        · simp only [step, act, if_pos hm, if_neg hfull, Finset.mem_insert] at hacc ⊢
          rw [Function.update_self, Finset.mem_insert]
          exact hacc.imp_right (h n hn)
      · have hnm : n ≠ m := fun heq => hj (L.disjoint k j n hn (heq ▸ hm.1))
        have hold (t : Finset ι) : n ∈ Function.update s.held j t k ↔ n ∈ s.held k := by
          rw [Function.update_of_ne hj]
        have hbefore : n ∈ s.accepted := by
          simp only [step, act, if_pos hm] at hacc
          split at hacc
          · exact Finset.mem_of_mem_insert_of_ne hacc hnm
          · exact Finset.mem_of_mem_insert_of_ne hacc hnm
        simp only [step, act, if_pos hm]
        split
        · exact (hold _).mpr (h n hn hbefore)
        · exact (hold _).mpr (h n hn hbefore)
    · simp only [step, act, if_neg hm] at hacc ⊢
      exact h n hn hacc

/-- The last missing part of a message whose parts are held delivers it. -/
theorem open_or_delivers (hs : Sound L s) (h : Holds L k s) (hopen : ¬ L.parts k ⊆ s.accepted)
    {e : Event κ ι} (hk : (act L e s).1 ≠ some k) : ¬ L.parts k ⊆ (step L s e).accepted := by
  intro hall
  cases e with
  | evict gone => exact hopen hall
  | arrive j m =>
    by_cases hm : m ∈ L.parts j ∧ m ∉ s.accepted
    · have hinsert : L.parts k ⊆ insert m s.accepted := by
        refine hall.trans ?_
        simp only [step, act, if_pos hm]
        split
        · exact Finset.Subset.refl _
        · exact Finset.Subset.refl _
      by_cases hj : k = j
      · subst hj
        have hfull : insert m (s.held k) = L.parts k := by
          apply Finset.Subset.antisymm (Finset.insert_subset hm.1 (hs k).2)
          intro n hn
          exact Finset.mem_insert.mpr ((Finset.mem_insert.mp (hinsert hn)).imp_right (h n hn))
        simp [act, hm, hfull] at hk
      · apply hopen
        intro n hn
        have hnm : n ≠ m := fun heq => hj (L.disjoint k j n hn (heq ▸ hm.1))
        exact Finset.mem_of_mem_insert_of_ne (hinsert hn) hnm
    · simp only [step, act, if_neg hm] at hall
      exact hopen hall

/-- A message all of whose parts get accepted while none is dropped is delivered once. -/
theorem exactly_once (hs : Sound L s) (hk : Holds L k s) (hopen : ¬ L.parts k ⊆ s.accepted)
    (es : List (Event κ ι)) (hspares : Meets (step L) (Spares k) es s)
    (hall : L.parts k ⊆ (run (step L) es s).accepted) : deliveries L k es s = 1 := by
  induction es generalizing s with
  | nil => exact absurd hall hopen
  | cons e es ih =>
    by_cases hnow : (act L e s).1 = some k
    · have hrest := deliveries_le (k := k) (sound_step hs e) es
      rw [if_pos (delivers hs hnow).2] at hrest
      have hcount : deliveries L k (e :: es) s = deliveries L k es (step L s e) + 1 := by
        simp [deliveries, outputs, hnow, step]
      omega
    · have hcount : deliveries L k (e :: es) s = deliveries L k es (step L s e) := by
        simp [deliveries, outputs, hnow, step]
      rw [hcount]
      exact ih (sound_step hs e) (holds_or_delivers hk hspares.1 hnow)
        (open_or_delivers hs hk hopen hnow) hspares.2 hall

end PyVpn.Reassembly
