import PyVpn.AntiReplay
import Mathlib.Algebra.Order.Ring.Int
import Mathlib.Data.Int.Order.Basic
import Mathlib.Data.Nat.Bitwise

/-! The sliding bitmap of `protocol/replay.py`, and that it decides the abstract
anti-replay rule: bit `d` of `_seen` says that `_highest - d` was accepted. -/
namespace PyVpn
open AntiReplay

def maxWindow : Nat := 64

abbrev WindowSize := { n : Nat // 1 ≤ n ∧ n ≤ maxWindow }

structure ReplayWindow where
  windowSize : WindowSize
  highest : Int
  seen : Nat

namespace ReplayWindow

def new (windowSize : WindowSize) : ReplayWindow where
  windowSize := windowSize
  highest := -1
  seen := 0

def check (w : ReplayWindow) (packetId : Int) : Bool × ReplayWindow :=
  if packetId < 0 then (false, w)
  else if w.highest = -1 then
    (true, { w with highest := packetId, seen := 1 })
  else if packetId > w.highest then
    let delta := packetId - w.highest
    let seen := if delta ≥ w.windowSize.val then 0 else w.seen <<< delta.toNat
    (true, { w with seen := seen ||| 1, highest := packetId })
  else
    let delta := w.highest - packetId
    if delta ≥ w.windowSize.val then (false, w)
    else if w.seen &&& (1 <<< delta.toNat) ≠ 0 then (false, w)
    else (true, { w with seen := w.seen ||| (1 <<< delta.toNat) })

def reset (w : ReplayWindow) : ReplayWindow := { w with highest := -1, seen := 0 }

/-- What `check` refuses: a negative number, one below the window, one already marked. -/
def Stale (w : ReplayWindow) (packetId : Int) : Prop :=
  packetId < 0 ∨ w.highest ≠ -1 ∧ packetId ≤ w.highest ∧
    (w.windowSize.val ≤ w.highest - packetId ∨ w.seen.testBit (w.highest - packetId).toNat)

instance (w : ReplayWindow) (packetId : Int) : Decidable (w.Stale packetId) := by
  unfold Stale
  infer_instance

theorem and_shiftLeft_ne_zero (seen d : Nat) : seen &&& (1 <<< d) ≠ 0 ↔ seen.testBit d := by
  rw [Nat.one_shiftLeft, Nat.and_two_pow]
  cases h : seen.testBit d with
  | false => simp
  | true => simp

theorem check_false_iff (w : ReplayWindow) (packetId : Int) :
    (w.check packetId).1 = false ↔ w.Stale packetId := by
  unfold check Stale
  by_cases hneg : packetId < 0
  · simp [hneg]
  by_cases hfirst : w.highest = -1
  · simp [hneg, hfirst]
  by_cases hnew : packetId > w.highest
  · have hle : ¬ packetId ≤ w.highest := Int.not_le.mpr hnew
    simp [hneg, hfirst, hnew, hle]
  · have hle : packetId ≤ w.highest := Int.not_lt.mp hnew
    simp only [hneg, hfirst, hnew, hle, if_false, and_shiftLeft_ne_zero, ge_iff_le, ne_eq,
      not_false_eq_true, true_and, false_or]
    split
    · simp [*]
    · split
      · simp [*]
      · simp [*]

@[simp] theorem check_windowSize (w : ReplayWindow) (packetId : Int) :
    (w.check packetId).2.windowSize = w.windowSize := by
  unfold check
  grind

theorem check_unchanged {w : ReplayWindow} {packetId : Int}
    (h : (w.check packetId).1 = false) : (w.check packetId).2 = w := by
  unfold check at h ⊢
  grind

theorem check_changed {w : ReplayWindow} {packetId : Int}
    (h : (w.check packetId).1 = true) : (w.check packetId).2 ≠ w := by
  have hfresh : ¬ w.Stale packetId := by
    rw [← check_false_iff, h]
    exact Bool.noConfusion
  intro heq
  unfold check at h heq
  unfold Stale at hfresh
  push Not at hfresh
  obtain ⟨hpos, hwin⟩ := hfresh
  rw [if_neg (Int.not_lt.mpr hpos)] at h heq
  split at heq
  · rename_i hfirst
    have hh := congrArg ReplayWindow.highest heq
    simp only [hfirst] at hh
    omega
  · rename_i hfirst
    split at heq
    · rename_i hnew
      have hh : packetId = w.highest := congrArg ReplayWindow.highest heq
      omega
    · rename_i hnew
      obtain ⟨hin, hbit⟩ := hwin hfirst (Int.not_lt.mp hnew)
      rw [if_neg (Int.not_le.mpr hin), if_neg (by rwa [and_shiftLeft_ne_zero])] at heq
      have hs : w.seen ||| (1 <<< (w.highest - packetId).toNat) = w.seen :=
        congrArg ReplayWindow.seen heq
      apply hbit
      rw [← hs, Nat.testBit_or]
      simp

theorem check_above {w : ReplayWindow} {packetId : Int} (hpos : 0 ≤ packetId)
    (hnew : w.highest < packetId) :
    (w.check packetId).1 = true ∧ (w.check packetId).2.highest = packetId := by
  have hneg : ¬ packetId < 0 := Int.not_lt.mpr hpos
  unfold check
  by_cases hfirst : w.highest = -1
  · simp only [if_neg hneg, if_pos hfirst, and_self]
  · simp only [if_neg hneg, if_neg hfirst, if_pos hnew, gt_iff_lt, and_self]

/-- The accepted numbers the two fields stand for. -/
structure Tracks (w : ReplayWindow) (accepted : List Int) : Prop where
  start : w.highest = -1 → accepted = []
  top : w.highest ≠ -1 → w.highest ∈ accepted
  bounds : ∀ q ∈ accepted, 0 ≤ q ∧ q ≤ w.highest
  bits : w.highest ≠ -1 → ∀ d < w.windowSize.val,
    w.seen.testBit d = true ↔ w.highest - (d : Int) ∈ accepted

theorem tracks_new (windowSize : WindowSize) : (new windowSize).Tracks [] where
  start := fun _ => rfl
  top := fun hne => absurd rfl hne
  bounds := fun _ hq => absurd hq List.not_mem_nil
  bits := fun hne => absurd rfl hne

/-- `check` answers the abstract rule on the numbers accepted so far. -/
theorem check_admits {w : ReplayWindow} {accepted : List Int} (h : w.Tracks accepted)
    (packetId : Int) :
    (w.check packetId).1 = true ↔ Admits (w.windowSize.val : Int) accepted packetId := by
  have hrefuse : (w.check packetId).1 = true ↔ ¬ w.Stale packetId := by
    rw [← check_false_iff, Bool.not_eq_false]
  rw [hrefuse]
  by_cases hfirst : w.highest = -1
  · simp [Stale, Admits, hfirst, h.start hfirst]
  · have hgreatest : IsGreatest (fun q => q ∈ accepted) w.highest :=
      ⟨h.top hfirst, fun q hq => (h.bounds q hq).2⟩
    rw [admits_iff_highest hgreatest]
    by_cases hpos : packetId < 0
    · simp [Stale, hpos]
    by_cases hnew : packetId ≤ w.highest
    · by_cases hin : w.highest - packetId < w.windowSize.val
      · have hd : (w.highest - packetId).toNat < w.windowSize.val := by omega
        have hback : w.highest - ((w.highest - packetId).toNat : Int) = packetId := by omega
        have hbit := h.bits hfirst _ hd
        rw [hback] at hbit
        have hsub : w.highest - (w.windowSize.val : Int) < packetId := by omega
        have hin' : ¬ (w.windowSize.val : Int) ≤ w.highest - packetId := by omega
        simp [Stale, hfirst, hnew, hbit, hsub, hin']
      · have hsub : ¬ w.highest - (w.windowSize.val : Int) < packetId := by omega
        have hin' : (w.windowSize.val : Int) ≤ w.highest - packetId := by omega
        simp [Stale, hfirst, hnew, hsub, hin']
    · have hmem : packetId ∉ accepted := fun hm => hnew (h.bounds packetId hm).2
      have hsize : w.highest - (w.windowSize.val : Int) < packetId := by omega
      simp [Stale, hpos, hnew, hmem, hsize, Int.not_lt.mp hpos]

theorem tracks_first {w : ReplayWindow} {packetId : Int} (hpos : 0 ≤ packetId) :
    Tracks { w with highest := packetId, seen := 1 } [packetId] where
  start := fun h => by simp only at h; omega
  top := fun _ => List.mem_singleton_self packetId
  bounds := fun q hq => by
    have hq' : q = packetId := List.mem_singleton.mp hq
    exact ⟨by omega, by simp [hq']⟩
  bits := fun _ d _ => by
    simp only [List.mem_singleton, Nat.testBit_one_eq_true_iff_self_eq_zero]
    omega

/-- A number past the highest shifts the marks; those shifted out are out of the window. -/
theorem tracks_advance {w : ReplayWindow} {accepted : List Int} (h : w.Tracks accepted)
    {packetId : Int} (hpos : 0 ≤ packetId) (hfirst : w.highest ≠ -1)
    (hnew : w.highest < packetId) :
    Tracks { w with
      seen := (if packetId - w.highest ≥ w.windowSize.val then 0
        else w.seen <<< (packetId - w.highest).toNat) ||| 1
      highest := packetId } (packetId :: accepted) where
  start := fun h => by simp only at h; omega
  top := fun _ => List.mem_cons_self
  bounds := fun q hq => by
    cases List.mem_cons.mp hq with
    | inl heq => exact ⟨by omega, by simp [heq]⟩
    | inr hmem =>
      have hb := h.bounds q hmem
      exact ⟨hb.1, by simp only; omega⟩
  bits := fun _ d hd => by
    simp only [Nat.testBit_or, Bool.or_eq_true, List.mem_cons,
      Nat.testBit_one_eq_true_iff_self_eq_zero]
    by_cases hzero : d = 0
    · simp [hzero]
    have hhead : ¬ packetId - (d : Int) = packetId := by omega
    simp only [hzero, hhead, or_false, false_or]
    split
    · rename_i hfar
      have hout : packetId - (d : Int) ∉ accepted := by
        intro hm
        have hb := h.bounds _ hm
        simp only at hd
        omega
      simp [hout]
    · rename_i hnear
      simp only [Nat.testBit_shiftLeft, ge_iff_le, Bool.and_eq_true, decide_eq_true_eq]
      by_cases hshift : (packetId - w.highest).toNat ≤ d
      · have hback : w.highest - ((d - (packetId - w.highest).toNat : Nat) : Int) =
            packetId - (d : Int) := by omega
        have hlt : d - (packetId - w.highest).toNat < w.windowSize.val := by
          simp only at hd
          omega
        rw [h.bits hfirst _ hlt, hback]
        simp [hshift]
      · have hout : packetId - (d : Int) ∉ accepted := by
          intro hm
          have hb := h.bounds _ hm
          omega
        simp [hshift, hout]

theorem tracks_late {w : ReplayWindow} {accepted : List Int} (h : w.Tracks accepted)
    {packetId : Int} (hpos : 0 ≤ packetId) (hfirst : w.highest ≠ -1)
    (hold : packetId ≤ w.highest) :
    Tracks { w with seen := w.seen ||| (1 <<< (w.highest - packetId).toNat) }
      (packetId :: accepted) where
  start := fun h => absurd h hfirst
  top := fun _ => List.mem_cons_of_mem packetId (h.top hfirst)
  bounds := fun q hq => by
    cases List.mem_cons.mp hq with
    | inl heq => exact ⟨by omega, by simp only; omega⟩
    | inr hmem => exact h.bounds q hmem
  bits := fun _ d hd => by
    have hself : w.highest - (d : Int) = packetId ↔ (w.highest - packetId).toNat = d := by omega
    simp only [Nat.testBit_or, Nat.one_shiftLeft, Nat.testBit_two_pow, Bool.or_eq_true,
      decide_eq_true_eq, List.mem_cons, h.bits hfirst d hd, hself]
    exact or_comm

theorem check_tracks {w : ReplayWindow} {accepted : List Int} (h : w.Tracks accepted)
    (packetId : Int) :
    (w.check packetId).2.Tracks (record (w.windowSize.val : Int) accepted packetId) := by
  cases hok : (w.check packetId).1 with
  | false =>
    have hrefused : ¬ Admits (w.windowSize.val : Int) accepted packetId := by
      rw [← check_admits h, hok]
      exact Bool.noConfusion
    rwa [record_of_not_admits hrefused, check_unchanged hok]
  | true =>
    have hadmits := (check_admits h packetId).mp hok
    have hneg : ¬ packetId < 0 := Int.not_lt.mpr hadmits.1
    rw [record_of_admits hadmits]
    unfold check at hok ⊢
    rw [if_neg hneg] at hok ⊢
    by_cases hfirst : w.highest = -1
    · rw [if_pos hfirst, h.start hfirst]
      exact tracks_first hadmits.1
    · rw [if_neg hfirst] at hok ⊢
      by_cases hnew : packetId > w.highest
      · rw [if_pos hnew]
        exact tracks_advance h hadmits.1 hfirst hnew
      · rw [if_neg hnew] at hok ⊢
        by_cases hfar : w.highest - packetId ≥ w.windowSize.val
        · rw [if_pos hfar] at hok
          cases hok
        rw [if_neg hfar] at hok ⊢
        by_cases hseen : w.seen &&& (1 <<< (w.highest - packetId).toNat) ≠ 0
        · rw [if_pos hseen] at hok
          cases hok
        · rw [if_neg hseen]
          exact tracks_late h hadmits.1 hfirst (Int.not_lt.mp hnew)

inductive Call where
  | check (packetId : Int)
  | reset

/-- A call, next to the numbers accepted since construction or the last reset. -/
def watch (s : ReplayWindow × List Int) : Call → ReplayWindow × List Int
  | .check packetId =>
    ((s.1.check packetId).2, if (s.1.check packetId).1 then packetId :: s.2 else s.2)
  | .reset => (s.1.reset, [])

/-- The fields stand for the accepted numbers, and none was accepted twice. -/
structure Exact (windowSize : WindowSize) (s : ReplayWindow × List Int) : Prop where
  size : s.1.windowSize = windowSize
  tracks : s.1.Tracks s.2
  once : s.2.Nodup

theorem watch_check {s : ReplayWindow × List Int} (h : s.1.Tracks s.2) (packetId : Int) :
    watch s (.check packetId) =
      ((s.1.check packetId).2, record (s.1.windowSize.val : Int) s.2 packetId) := by
  have hadmits := check_admits h packetId
  by_cases hok : (s.1.check packetId).1 = true
  · simp only [watch, hok, if_true, record_of_admits (hadmits.mp hok)]
  · simp only [watch, hok, record_of_not_admits (mt hadmits.mpr hok)]
    rfl

theorem exact_step {windowSize : WindowSize} (s : ReplayWindow × List Int) (call : Call)
    (h : Exact windowSize s) : Exact windowSize (watch s call) := by
  cases call with
  | check packetId =>
    rw [watch_check h.tracks]
    exact ⟨(check_windowSize s.1 packetId).trans h.size, check_tracks h.tracks packetId,
      record_nodup h.once⟩
  | reset => exact ⟨h.size, tracks_new s.1.windowSize, List.nodup_nil⟩

theorem exact_run (windowSize : WindowSize) (calls : List Call) :
    Exact windowSize (EventRun.run watch calls (new windowSize, [])) :=
  EventRun.inv_run_always exact_step calls _
    ⟨rfl, tracks_new windowSize, List.nodup_nil⟩

/-- After any calls `check` accepts exactly the numbers that are not negative, not
accepted before, and less than the window below the largest accepted one. -/
theorem check_exact (windowSize : WindowSize) (calls : List Call) :
    let s := EventRun.run watch calls (new windowSize, [])
    s.2.Nodup ∧ ∀ packetId, (s.1.check packetId).1 = true ↔
      0 ≤ packetId ∧ packetId ∉ s.2 ∧
        (s.2 = [] ∨ ∃ H, IsGreatest { q | q ∈ s.2 } H ∧ H - (windowSize.val : Int) < packetId) := by
  intro s
  have h : Exact windowSize s := exact_run windowSize calls
  refine ⟨h.once, fun packetId => ?_⟩
  have htop (hne : s.2 ≠ []) : s.1.highest ∈ s.2 :=
    h.tracks.top fun hfirst => hne (h.tracks.start hfirst)
  rw [check_admits h.tracks, h.size]
  exact admits_iff_largest (fun q hq => (h.tracks.bounds q hq).2) htop

end ReplayWindow
end PyVpn
