import PyVpn.ReplayWindow

/-! How far the bitmap of `protocol/replay.py` grows. Moving the window on shifts old marks
up and drops none of them before the next jump, so `_seen` is bounded by the window exactly
while the numbers accepted since the last jump are. -/
namespace PyVpn.ReplayWindow
open AntiReplay EventRun

def call (w : ReplayWindow) : Call → ReplayWindow
  | .check packetId => (w.check packetId).2
  | .reset => w.reset

/-- What the anti-replay rule makes of the arguments of the calls. -/
def arrivals (windowSize : WindowSize) (a : Arrivals Int) : Call → Arrivals Int
  | .check packetId => arrive (windowSize.val : Int) a packetId
  | .reset => ⟨[], []⟩

/-- Every bit of `_seen`, inside the window or above it, stands for a number since the last
jump. -/
structure Marks (windowSize : WindowSize) (a : Arrivals Int) (w : ReplayWindow) : Prop where
  size : w.windowSize = windowSize
  tracks : w.Tracks a.accepted
  start : w.highest = -1 → a.since = []
  top : w.highest ≠ -1 → w.highest ∈ a.since
  below : ∀ q ∈ a.since, q ≤ w.highest
  bits : ∀ d : Nat, w.seen.testBit d = true ↔ w.highest - (d : Int) ∈ a.since

section
variable {windowSize : WindowSize} {a : Arrivals Int} {w : ReplayWindow} {packetId : Int}

theorem marks_new (windowSize : WindowSize) : Marks windowSize ⟨[], []⟩ (new windowSize) where
  size := rfl
  tracks := tracks_new windowSize
  start := fun _ => rfl
  top := fun hne => absurd rfl hne
  below := fun _ hq => absurd hq List.not_mem_nil
  bits := fun d => by simp [new]

theorem marks_jump {accepted : List Int} {w' : ReplayWindow} (hsize : w'.windowSize = windowSize)
    (htracks : w'.Tracks (packetId :: accepted)) (hhighest : w'.highest = packetId)
    (hseen : w'.seen = 1) : Marks windowSize ⟨packetId :: accepted, [packetId]⟩ w' where
  size := hsize
  tracks := htracks
  start := fun h => by
    have hmem := htracks.start h
    cases hmem
  top := fun _ => List.mem_singleton.mpr hhighest
  below := fun q hq => le_of_eq ((List.mem_singleton.mp hq).trans hhighest.symm)
  bits := fun d => by
    rw [hseen, hhighest]
    simp only [Nat.testBit_one_eq_true_iff_self_eq_zero, List.mem_singleton]
    omega

theorem Marks.jump_iff (h : Marks windowSize a w) (hfirst : w.highest ≠ -1) :
    (∀ q ∈ a.accepted, q + (windowSize.val : Int) ≤ packetId) ↔
      (windowSize.val : Int) ≤ packetId - w.highest := by
  constructor
  · intro hall
    have htop := hall w.highest (h.tracks.top hfirst)
    omega
  · intro hfar q hq
    have hbound := (h.tracks.bounds q hq).2
    omega

theorem Marks.bits_advance (h : Marks windowSize a w) (hnew : w.highest < packetId) (d : Nat) :
    ((w.seen <<< (packetId - w.highest).toNat) ||| 1).testBit d = true ↔
      packetId - (d : Int) ∈ packetId :: a.since := by
  have hself : packetId - (d : Int) = packetId ↔ d = 0 := by omega
  simp only [Nat.testBit_or, Nat.testBit_shiftLeft, Bool.or_eq_true, Bool.and_eq_true,
    decide_eq_true_eq, Nat.testBit_one_eq_true_iff_self_eq_zero, List.mem_cons, hself, ge_iff_le]
  by_cases hshift : (packetId - w.highest).toNat ≤ d
  · have hback : w.highest - ((d - (packetId - w.highest).toNat : Nat) : Int) =
        packetId - (d : Int) := by omega
    rw [h.bits, hback]
    simp only [hshift, true_and]
    exact or_comm
  · have hout : packetId - (d : Int) ∉ a.since := by
      intro hmem
      have hbelow := h.below _ hmem
      omega
    simp only [hshift, hout, false_and, or_false, false_or]

theorem Marks.bits_late (h : Marks windowSize a w) (hold : packetId ≤ w.highest) (d : Nat) :
    (w.seen ||| (1 <<< (w.highest - packetId).toNat)).testBit d = true ↔
      w.highest - (d : Int) ∈ packetId :: a.since := by
  have hself : w.highest - (d : Int) = packetId ↔ (w.highest - packetId).toNat = d := by omega
  simp only [Nat.testBit_or, Nat.one_shiftLeft, Nat.testBit_two_pow, Bool.or_eq_true,
    decide_eq_true_eq, List.mem_cons, h.bits, hself]
  exact or_comm

theorem Marks.advance (h : Marks windowSize a w) (hpos : 0 ≤ packetId) (hnew : w.highest < packetId)
    (htracks : Tracks { w with
      seen := (w.seen <<< (packetId - w.highest).toNat) ||| 1
      highest := packetId } (packetId :: a.accepted)) :
    Marks windowSize ⟨packetId :: a.accepted, packetId :: a.since⟩ { w with
      seen := (w.seen <<< (packetId - w.highest).toNat) ||| 1
      highest := packetId } where
  size := h.size
  tracks := htracks
  start := fun hhighest => by simp only at hhighest; omega
  top := fun _ => List.mem_cons_self
  below := fun q hq => by
    cases List.mem_cons.mp hq with
    | inl heq => exact le_of_eq heq
    | inr hmem => exact le_of_lt (lt_of_le_of_lt (h.below q hmem) hnew)
  bits := h.bits_advance hnew

theorem Marks.late (h : Marks windowSize a w) (hfirst : w.highest ≠ -1)
    (hold : packetId ≤ w.highest)
    (htracks : Tracks { w with seen := w.seen ||| (1 <<< (w.highest - packetId).toNat) }
      (packetId :: a.accepted)) :
    Marks windowSize ⟨packetId :: a.accepted, packetId :: a.since⟩
      { w with seen := w.seen ||| (1 <<< (w.highest - packetId).toNat) } where
  size := h.size
  tracks := htracks
  start := fun hhighest => absurd hhighest hfirst
  top := fun hhighest => List.mem_cons_of_mem packetId (h.top hhighest)
  below := fun q hq => by
    cases List.mem_cons.mp hq with
    | inl heq => exact heq ▸ hold
    | inr hmem => exact h.below q hmem
  bits := h.bits_late hold

theorem Marks.check (h : Marks windowSize a w) (packetId : Int) :
    Marks windowSize (arrive (windowSize.val : Int) a packetId) (w.check packetId).2 := by
  have hadmits := check_admits h.tracks packetId
  have htracks := check_tracks h.tracks packetId
  rw [h.size] at hadmits htracks
  unfold arrive
  by_cases hok : Admits (windowSize.val : Int) a.accepted packetId
  · rw [record_of_admits hok] at htracks
    have hneg : ¬ packetId < 0 := Int.not_lt.mpr hok.1
    have haccepted := hadmits.mpr hok
    rw [if_pos hok]
    unfold ReplayWindow.check at htracks haccepted ⊢
    rw [if_neg hneg] at htracks haccepted ⊢
    by_cases hfirst : w.highest = -1
    · have hnone : a.accepted = [] := h.tracks.start hfirst
      rw [if_pos hfirst] at htracks ⊢
      simp only [hnone, List.not_mem_nil, false_implies, implies_true, if_true] at htracks ⊢
      exact marks_jump h.size htracks rfl rfl
    · simp only [h.jump_iff hfirst]
      rw [if_neg hfirst] at htracks haccepted ⊢
      by_cases hnew : packetId > w.highest
      · rw [if_pos hnew] at htracks ⊢
        by_cases hfar : (windowSize.val : Int) ≤ packetId - w.highest
        · simp only [h.size, ge_iff_le, hfar, if_true] at htracks ⊢
          exact marks_jump rfl htracks rfl (by simp)
        · simp only [h.size, ge_iff_le, hfar, if_false] at htracks ⊢
          obtain rfl := h.size
          exact h.advance hok.1 hnew htracks
      · have hold : packetId ≤ w.highest := Int.not_lt.mp hnew
        have hnear : ¬ (windowSize.val : Int) ≤ packetId - w.highest := by
          have hpos := windowSize.property.1
          omega
        rw [if_neg hnew] at htracks haccepted ⊢
        rw [if_neg hnear]
        by_cases hfar : w.highest - packetId ≥ w.windowSize.val
        · rw [if_pos hfar] at haccepted
          cases haccepted
        rw [if_neg hfar] at htracks haccepted ⊢
        by_cases hseen : w.seen &&& (1 <<< (w.highest - packetId).toNat) ≠ 0
        · rw [if_pos hseen] at haccepted
          cases haccepted
        rw [if_neg hseen] at htracks ⊢
        exact h.late hfirst hold htracks
  · have hrefused : (w.check packetId).1 = false := by
      rw [← Bool.not_eq_true]
      exact mt hadmits.mp hok
    rw [if_neg hok, check_unchanged hrefused]
    exact h

theorem Marks.call (h : Marks windowSize a w) (c : Call) :
    Marks windowSize (arrivals windowSize a c) (w.call c) := by
  cases c with
  | check packetId => exact h.check packetId
  | reset =>
    obtain rfl := h.size
    exact marks_new w.windowSize

theorem marks_run (windowSize : WindowSize) (calls : List Call) :
    Marks windowSize (run (arrivals windowSize) calls ⟨[], []⟩)
      (run ReplayWindow.call calls (new windowSize)) := by
  refine history_run_always (I := fun calls w =>
    Marks windowSize (run (arrivals windowSize) calls ⟨[], []⟩) w) (marks_new windowSize) ?_ calls
  intro before c h
  rw [run_concat]
  exact h.call c

/-- The bits lie in the window exactly when the numbers they stand for do. -/
theorem Marks.bounded_iff (h : Marks windowSize a w) :
    w.seen < 2 ^ windowSize.val ↔
      ∀ p ∈ a.since, ∀ q ∈ a.since, p - q < (windowSize.val : Int) := by
  constructor
  · intro hbounded p hp q hq
    have hbit : w.seen.testBit (w.highest - q).toNat = true := by
      have hbelow := h.below q hq
      have hback : w.highest - ((w.highest - q).toNat : Int) = q := by omega
      rw [h.bits, hback]
      exact hq
    have hlt : (w.highest - q).toNat < windowSize.val := by
      by_contra hge
      have hpow := Nat.pow_le_pow_right Nat.two_pos (Nat.le_of_not_lt hge)
      rw [Nat.testBit_lt_two_pow (Nat.lt_of_lt_of_le hbounded hpow)] at hbit
      cases hbit
    have hbelow := h.below p hp
    omega
  · intro hspan
    apply Nat.lt_pow_two_of_testBit
    intro d hd
    by_contra hbit
    have hmem := (h.bits d).mp (Bool.eq_true_of_not_eq_false hbit)
    have hfirst : w.highest ≠ -1 := by
      intro hfirst
      rw [h.start hfirst] at hmem
      cases hmem
    have hlt := hspan w.highest (h.top hfirst) _ hmem
    omega

end

/-- After any calls the bitmap is below two to the window's size exactly when the numbers
admitted since the last jump lie less than that size apart. -/
theorem bitmap_bounded_iff (windowSize : WindowSize) (calls : List Call) :
    (run ReplayWindow.call calls (new windowSize)).seen < 2 ^ windowSize.val ↔
      ∀ p ∈ (run (arrivals windowSize) calls ⟨[], []⟩).since,
        ∀ q ∈ (run (arrivals windowSize) calls ⟨[], []⟩).since,
          p - q < (windowSize.val : Int) :=
  (marks_run windowSize calls).bounded_iff

/-- Three packets in order overrun a window of two. -/
theorem bitmap_grows :
    (run ReplayWindow.call [.check 1, .check 2, .check 3]
      (new ⟨2, by decide, by decide⟩)).seen = 7 ∧
    ¬ (run ReplayWindow.call [.check 1, .check 2, .check 3]
      (new ⟨2, by decide, by decide⟩)).seen < 2 ^ 2 := by
  decide

end PyVpn.ReplayWindow
