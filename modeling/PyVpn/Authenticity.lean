import PyVpn.EventRun
import PyVpn.Opening
import PyVpn.Transparent
import Mathlib.Logic.Function.Basic

/-! Two data channels with one key and swapped ids, and a network that delivers to
either side any wire either side ever emitted, any number of times, in any order.
Both directions share the key, the associated data and the counter range, so the
replay window is all that stands between a side and its own wires. -/
namespace PyVpn
open EventRun AntiReplay

inductive Side where
  | a | b
  deriving DecidableEq, Repr

def Side.other : Side → Side
  | .a => .b
  | .b => .a

structure Net where
  channel : Side → DataChannel
  /-- Every wire emitted so far and by whom, oldest first. -/
  emitted : List (Side × Bytes)
  /-- Positions in `emitted` of the wires that passed the AEAD check of a side. -/
  accepted : Side → List Nat

inductive NetEvent where
  | encrypt (side : Side) (nonces : Nat → Nonce) (plaintext : Bytes)
  | deliver (side : Side) (now : Time) (k : Nat)

def Net.step (P : Primitives) (net : Net) : NetEvent → Net
  | .encrypt side nonces plaintext =>
    let r := PyVpn.encrypt P nonces plaintext (net.channel side)
    { net with
      channel := Function.update net.channel side r.2
      emitted := net.emitted ++ (returned r.1).map (side, ·) }
  | .deliver side now k =>
    match net.emitted[k]? with
    | none => net
    | some (_, wire) =>
      { net with
        channel := Function.update net.channel side (decrypt P now wire (net.channel side)).2
        accepted := if passes P wire (net.channel side)
          then Function.update net.accepted side (k :: net.accepted side) else net.accepted }

def Net.start (P : Primitives) (c : Cipher) (idA idB : SessionId) (compLzo : Side → Bool)
    (window : Side → WindowSize) : Net where
  channel
    | .a => .new P idA idB.val (some c) (compLzo .a) (window .a)
    | .b => .new P idB idA.val (some c) (compLzo .b) (window .b)
  emitted := []
  accepted _ := []

def Net.wireAt (net : Net) (k : Nat) : Bytes := (net.emitted[k]?).elim [] Prod.snd

def Net.counterAt (net : Net) (k : Nat) : Int := wireCounter (net.wireAt k)

section
variable {P : Primitives} {c : Cipher} {shared : SharedId} {net : Net}

/-- Both channels share key and id, every emitted wire is sealed, and each window
stands for the counters its side accepted. -/
structure Net.Inv (P : Primitives) (c : Cipher) (shared : SharedId) (net : Net) : Prop where
  cipher : ∀ side, (net.channel side).cipher = some c
  ids : ∀ side, (net.channel side).sharedId = shared
  sealed : ∀ e ∈ net.emitted, Sealed P c shared e.2
  known : ∀ side, ∀ k ∈ net.accepted side, k < net.emitted.length
  tracked : ∀ side, (net.channel side).replay.Tracks ((net.accepted side).map net.counterAt)
  once : ∀ side, ((net.accepted side).map net.counterAt).Nodup

theorem Net.start_inv (idA idB : SessionId) (compLzo : Side → Bool) (window : Side → WindowSize) :
    (Net.start P c idA idB compLzo window).Inv P c (deriveSessionId idA idB.val) where
  cipher := by
    intro side
    cases side with
    | a => rfl
    | b => rfl
  ids := by
    intro side
    cases side with
    | a => rfl
    | b => exact (deriveSessionId_comm idA idB).symm
  sealed := fun _ he => absurd he List.not_mem_nil
  known := fun _ _ hk => absurd hk List.not_mem_nil
  tracked := by
    intro side
    cases side
    · exact ReplayWindow.tracks_new (window .a)
    · exact ReplayWindow.tracks_new (window .b)
  once := fun _ => List.nodup_nil

theorem encrypt_returned {ch : DataChannel} (hc : ch.cipher = some c) (nonces : Nat → Nonce)
    (plaintext : Bytes) :
    (∃ n, (encrypt P nonces plaintext ch).2 = { ch with packetCounter := n }) ∧
      ∀ wire ∈ returned (encrypt P nonces plaintext ch).1, Sealed P c ch.sharedId wire := by
  obtain ⟨n, -, hframe⟩ := encrypt_frame P nonces plaintext ch
  refine ⟨⟨_, hframe⟩, ?_⟩
  intro wire hwire
  cases hrun : (encrypt P nonces plaintext ch).1 with
  | error e =>
    rw [hrun] at hwire
    cases hwire
  | ok wires =>
    obtain ⟨c', hok, rfl⟩ := encrypt_eq_ok hrun
    cases hc.symm.trans hok.cipher
    rw [hrun] at hwire
    obtain ⟨i, hi, rfl⟩ := List.mem_map.mp hwire
    exact (wireAt_sealed nonces hok (List.mem_range.mp hi)).1

theorem wireAt_append {more : List (Side × Bytes)} {channel : Side → DataChannel} {k : Nat}
    (hk : k < net.emitted.length) :
    Net.wireAt { net with channel := channel, emitted := net.emitted ++ more } k = net.wireAt k := by
  simp only [Net.wireAt, List.getElem?_append_left hk]

theorem Net.Inv.encrypt (h : net.Inv P c shared) (side : Side) (nonces : Nat → Nonce)
    (plaintext : Bytes) : (net.step P (.encrypt side nonces plaintext)).Inv P c shared := by
  obtain ⟨⟨n, hch⟩, hsealed⟩ :=
    encrypt_returned (P := P) (h.cipher side) nonces plaintext
  have hcounters (s : Side) : (net.accepted s).map
      (net.step P (.encrypt side nonces plaintext)).counterAt =
        (net.accepted s).map net.counterAt := by
    apply List.map_congr_left
    intro k hk
    rw [Net.counterAt, Net.counterAt, Net.step, wireAt_append (h.known s k hk)]
  have hsame (s : Side) : ∃ m, (net.step P (.encrypt side nonces plaintext)).channel s =
      { net.channel s with packetCounter := m } := by
    by_cases hs : s = side
    · subst hs
      exact ⟨n, (Function.update_self ..).trans hch⟩
    · exact ⟨_, Function.update_of_ne hs ..⟩
  constructor
  · intro s
    obtain ⟨m, hm⟩ := hsame s
    rw [hm]
    exact h.cipher s
  · intro s
    obtain ⟨m, hm⟩ := hsame s
    rw [hm]
    exact h.ids s
  · intro e he
    cases List.mem_append.mp he with
    | inl hold => exact h.sealed e hold
    | inr hnew =>
      obtain ⟨wire, hwire, rfl⟩ := List.mem_map.mp hnew
      rw [← h.ids side]
      exact hsealed wire hwire
  · intro s k hk
    have hlt := h.known s k hk
    simp only [Net.step, List.length_append]
    omega
  · intro s
    obtain ⟨m, hm⟩ := hsame s
    rw [hm]
    change (net.channel s).replay.Tracks ((net.accepted s).map _)
    rw [hcounters s]
    exact h.tracked s
  · intro s
    change ((net.accepted s).map _).Nodup
    rw [hcounters s]
    exact h.once s

theorem map_record (side : Side) (k : Nat) (fresh : Bool)
    (hfresh : fresh = true ↔ Admits ((net.channel side).replay.windowSize.val : Int)
      ((net.accepted side).map net.counterAt) (net.counterAt k)) (s : Side) :
    ((if fresh then Function.update net.accepted side (k :: net.accepted side)
      else net.accepted) s).map net.counterAt =
      if s = side then record ((net.channel side).replay.windowSize.val : Int)
          ((net.accepted side).map net.counterAt) (net.counterAt k)
      else (net.accepted s).map net.counterAt := by
  by_cases hs : s = side
  · subst hs
    cases hf : fresh with
    | false =>
      have hrefused := mt hfresh.mpr (by rw [hf]; exact Bool.noConfusion)
      simp [record_of_not_admits hrefused]
    | true => simp [record_of_admits (hfresh.mp hf)]
  · cases fresh with
    | false => simp [hs]
    | true => simp [hs]

theorem Net.step_missing {k : Nat} (he : net.emitted[k]? = none) (side : Side) (now : Time) :
    net.step P (.deliver side now k) = net := by
  simp only [Net.step, he]

theorem Net.step_deliver {k : Nat} {e : Side × Bytes} (he : net.emitted[k]? = some e)
    (side : Side) (now : Time) :
    net.step P (.deliver side now k) = { net with
      channel := Function.update net.channel side (decrypt P now e.2 (net.channel side)).2
      accepted := if passes P e.2 (net.channel side)
        then Function.update net.accepted side (k :: net.accepted side)
        else net.accepted } := by
  simp only [Net.step, he]

theorem Net.Inv.deliver (ideal : IdealAead P) (h : net.Inv P c shared) (side : Side) (now : Time)
    (k : Nat) : (net.step P (.deliver side now k)).Inv P c shared := by
  cases he : net.emitted[k]? with
  | none => rwa [Net.step_missing he]
  | some e =>
    obtain ⟨origin, wire⟩ := e
    have hwire : net.counterAt k = wireCounter wire := by
      simp only [Net.counterAt, Net.wireAt, he, Option.elim_some]
    have hsealed : Sealed P c (net.channel side).sharedId wire := by
      rw [h.ids side]
      exact h.sealed _ (List.mem_of_getElem? he)
    have hpass := passes_sealed ideal (h.cipher side) hsealed
    obtain ⟨table, hframe⟩ := decrypt_frame P now wire (net.channel side)
    rw [windowAfter_sealed ideal hsealed] at hframe
    have hadmits := ReplayWindow.check_admits (h.tracked side) (net.counterAt k)
    have htracks := ReplayWindow.check_tracks (h.tracked side) (net.counterAt k)
    rw [hwire] at hadmits htracks
    have haccepted := map_record side k (passes P wire (net.channel side))
      (by rw [hwire, hpass]; exact hadmits)
    rw [hwire] at haccepted
    have hchannel (s : Side) : (Function.update net.channel side
        (decrypt P now wire (net.channel side)).2) s =
        if s = side then { net.channel side with
          fragments := table, replay := ((net.channel side).replay.check (wireCounter wire)).2 }
        else net.channel s := by
      rw [Function.update_apply, hframe]
    rw [Net.step_deliver he]
    constructor
    · intro s
      simp only [hchannel s]
      split
      · exact h.cipher side
      · exact h.cipher s
    · intro s
      simp only [hchannel s]
      split
      · exact h.ids side
      · exact h.ids s
    · exact h.sealed
    · intro s j hj
      simp only at hj
      split at hj
      · rw [Function.update_apply] at hj
        split at hj
        · cases List.mem_cons.mp hj with
          | inl heq =>
            rw [heq]
            exact (List.getElem?_eq_some_iff.mp he).1
          | inr hmem => exact h.known side j hmem
        · exact h.known s j hj
      · exact h.known s j hj
    · intro s
      simp only [hchannel s]
      change (if s = side then _ else _ : DataChannel).replay.Tracks (List.map net.counterAt _)
      rw [haccepted s]
      split
      · exact htracks
      · exact h.tracked s
    · intro s
      change (List.map net.counterAt _).Nodup
      rw [haccepted s]
      split
      · exact record_nodup (h.once side)
      · exact h.once s

theorem Net.Inv.step (ideal : IdealAead P) (h : net.Inv P c shared) (e : NetEvent) :
    (net.step P e).Inv P c shared := by
  cases e with
  | encrypt side nonces plaintext => exact h.encrypt side nonces plaintext
  | deliver side now k => exact h.deliver ideal side now k

theorem emitted_step {k : Nat} {e : Side × Bytes} (he : net.emitted[k]? = some e) (ev : NetEvent) :
    (net.step P ev).emitted[k]? = some e := by
  cases ev with
  | encrypt side nonces plaintext =>
    simp only [Net.step]
    rw [List.getElem?_append_left (List.getElem?_eq_some_iff.mp he).1]
    exact he
  | deliver side now j =>
    cases hj : net.emitted[j]? with
    | none => rwa [Net.step_missing hj]
    | some e' => rwa [Net.step_deliver hj]

theorem mem_recorded (accepted : Side → List Nat) (fresh : Bool) (s side : Side) (j k : Nat) :
    k ∈ (if fresh then Function.update accepted s (j :: accepted s) else accepted) side ↔
      k ∈ accepted side ∨ fresh = true ∧ s = side ∧ j = k := by
  cases fresh with
  | false => simp
  | true =>
    by_cases hs : side = s
    · subst hs
      simp [or_comm, eq_comm]
    · simp [hs, Ne.symm hs]

/-- A position enters the accepted ones of a side only by a delivery that passes there. -/
theorem mem_accepted_step (ev : NetEvent) (side : Side) (k : Nat) :
    k ∈ (net.step P ev).accepted side ↔ k ∈ net.accepted side ∨
      ∃ now e, ev = .deliver side now k ∧ net.emitted[k]? = some e ∧
        passes P e.2 (net.channel side) = true := by
  cases ev with
  | encrypt s nonces plaintext => simp [Net.step]
  | deliver s now j =>
    cases hj : net.emitted[j]? with
    | none =>
      rw [Net.step_missing hj]
      refine (or_iff_left ?_).symm
      intro hnew
      obtain ⟨_, e, heq, he, -⟩ := hnew
      cases heq
      rw [hj] at he
      cases he
    | some e =>
      rw [Net.step_deliver hj, mem_recorded]
      refine or_congr_right ?_
      constructor
      · intro hnew
        obtain ⟨hpass, rfl, rfl⟩ := hnew
        exact ⟨now, e, rfl, hj, hpass⟩
      · intro hnew
        obtain ⟨_, e', heq, he, hpass⟩ := hnew
        cases heq
        rw [hj] at he
        cases he
        exact ⟨hpass, rfl, rfl⟩

theorem Net.Inv.passes_iff (ideal : IdealAead P) (h : net.Inv P c shared) {k : Nat}
    {origin : Side} {wire : Bytes} (hwire : net.emitted[k]? = some (origin, wire)) (side : Side) :
    passes P wire (net.channel side) = true ↔
      ¬ (net.channel side).replay.Stale (wireCounter wire) := by
  have hsealed : Sealed P c (net.channel side).sharedId wire := by
    rw [h.ids side]
    exact h.sealed _ (List.mem_of_getElem? hwire)
  rw [passes_sealed ideal (h.cipher side) hsealed, ← ReplayWindow.check_false_iff,
    Bool.not_eq_false]

theorem Net.accepted_stays (P : Primitives) {k : Nat} {e : Side × Bytes} {side : Side}
    (hk : k ∈ net.accepted side) (he : net.emitted[k]? = some e) (es : List NetEvent) :
    k ∈ (run (Net.step P) es net).accepted side ∧ (run (Net.step P) es net).emitted[k]? = some e :=
  inv_run_always (I := fun net : Net => k ∈ net.accepted side ∧ net.emitted[k]? = some e)
    (fun _ ev h => ⟨(mem_accepted_step ev side k).mpr (.inl h.1), emitted_step h.2 ev⟩) es net
    ⟨hk, he⟩

theorem Side.eq_other {origin side : Side} (h : origin ≠ side) : origin = side.other := by
  cases origin with
  | a => cases side with
    | a => exact absurd rfl h
    | b => rfl
  | b => cases side with
    | a => rfl
    | b => exact absurd rfl h

theorem Side.other_ne (side : Side) : side.other ≠ side := by
  cases side with
  | a => exact nofun
  | b => exact nofun

/-- A wire of a side's own that comes back to it has a counter its window refuses. -/
def OwnRefused (side : Side) (net : Net) : NetEvent → Prop
  | .encrypt .. => True
  | .deliver dst _ k => dst = side → ∀ wire, net.emitted[k]? = some (side, wire) →
      (net.channel side).replay.Stale (wireCounter wire)

/-- Every wire a side accepted is the peer's. -/
def PeersOnly (side : Side) (net : Net) : Prop :=
  ∀ k ∈ net.accepted side, ∃ wire, net.emitted[k]? = some (side.other, wire)

theorem PeersOnly.step (ideal : IdealAead P) {side : Side} (hinv : net.Inv P c shared)
    (h : PeersOnly side net) {ev : NetEvent} (hok : OwnRefused side net ev) :
    PeersOnly side (net.step P ev) := by
  intro k hk
  cases (mem_accepted_step ev side k).mp hk with
  | inl hold =>
    obtain ⟨wire, hwire⟩ := h k hold
    exact ⟨wire, emitted_step hwire ev⟩
  | inr hnew =>
    obtain ⟨now, ⟨origin, wire⟩, rfl, hwire, hpass⟩ := hnew
    have hother : origin = side.other := by
      apply Side.eq_other
      intro howner
      subst howner
      exact (hinv.passes_iff ideal hwire origin).mp hpass (hok rfl wire hwire)
    exact ⟨wire, emitted_step (hother ▸ hwire) _⟩

/-- In every run no wire is accepted twice, and all accepted wires are the peer's
exactly when the replay window refuses every own wire that comes back. -/
theorem accepted_from_peer_iff (ideal : IdealAead P) (c : Cipher) (idA idB : SessionId)
    (compLzo : Side → Bool) (window : Side → WindowSize) (side : Side) (es : List NetEvent) :
    let start := Net.start P c idA idB compLzo window
    let net := run (Net.step P) es start
    ((net.accepted side).map net.wireAt).Nodup ∧
      ((∀ k ∈ net.accepted side, ∃ wire, net.emitted[k]? = some (side.other, wire)) ↔
        Meets (Net.step P) (OwnRefused side) es start) := by
  intro start net
  have hinv (u : List NetEvent) : (run (Net.step P) u start).Inv P c _ :=
    inv_run_always (fun _ e h => h.step ideal e) u start
      (Net.start_inv idA idB compLzo window)
  refine ⟨?_, ?_, ?_⟩
  · have honce := (hinv es).once side
    have hmap : (net.accepted side).map net.counterAt =
        ((net.accepted side).map net.wireAt).map (fun wire => (wireCounter wire : Int)) := by
      rw [List.map_map]
      rfl
    rw [hmap] at honce
    exact List.Nodup.of_map _ honce
  · intro hpeer
    rw [meets_iff_split]
    intro u ev v hsplit
    cases ev with
    | encrypt s nonces plaintext => trivial
    | deliver dst now k =>
      intro hside wire hwire
      subst hside
      by_contra hfresh
      -- an own wire that passes is accepted for the rest of the run
      have hpass := ((hinv u).passes_iff ideal hwire dst).mpr hfresh
      have hlast := Net.accepted_stays P ((mem_accepted_step _ dst k).mpr
        (.inr ⟨now, _, rfl, hwire, hpass⟩)) (emitted_step hwire _) v
      have hnet : net = run (Net.step P) v
          ((run (Net.step P) u start).step P (.deliver dst now k)) := by
        rw [show net = run (Net.step P) es start from rfl, hsplit, run_append, run_cons]
      rw [← hnet] at hlast
      obtain ⟨wire', hother⟩ := hpeer k hlast.1
      rw [hlast.2] at hother
      exact dst.other_ne (Prod.mk.inj (Option.some.inj hother)).1.symm
  · intro hmeets
    exact (inv_run (I := fun net => net.Inv P c (deriveSessionId idA idB.val) ∧ PeersOnly side net)
      (fun _ ev h hok => ⟨h.1.step ideal ev, h.2.step ideal h.1 hok⟩) es start
      ⟨Net.start_inv idA idB compLzo window, fun _ hk => absurd hk List.not_mem_nil⟩ hmeets).2

end

namespace Transparent

def pair : Net := .start primitives (cipherOf 9) (sidOf 5) (sidOf 7) (fun _ => false)
  (fun _ => defaultReplayWindow)

def oneWay : List NetEvent :=
  [.encrypt .b (fun _ => nonceOf 0) [0x45], .deliver .a 0 0, .deliver .a 0 0,
    .encrypt .a (fun _ => nonceOf 0) [0x45], .deliver .a 0 1]

theorem accepted_from_peer_one_way :
    (((run (Net.step primitives) oneWay pair).accepted .a).map
      (run (Net.step primitives) oneWay pair).wireAt).Nodup ∧
    ∀ k ∈ (run (Net.step primitives) oneWay pair).accepted .a,
      ∃ wire, (run (Net.step primitives) oneWay pair).emitted[k]? = some (Side.b, wire) := by
  have hiff := accepted_from_peer_iff ideal (cipherOf 9) (sidOf 5) (sidOf 7) (fun _ => false)
    (fun _ => ⟨64, by decide, by decide⟩) .a oneWay
  refine ⟨hiff.1, hiff.2.mpr ⟨trivial, ?_, ?_, trivial, ?_, trivial⟩⟩
  · intro _ wire hwire
    cases hwire
  · intro _ wire hwire
    cases hwire
  · -- its counter is the one the window has taken from the peer
    intro _ wire hwire
    have hall : ((run (Net.step primitives) (oneWay.take 4) pair).emitted[1]?).all fun sent =>
        decide (((run (Net.step primitives) (oneWay.take 4) pair).channel .a).replay.Stale
          (wireCounter sent.2)) := by
      decide +kernel
    have hsent : (run (Net.step primitives) (oneWay.take 4) pair).emitted[1]? = some (.a, wire) :=
      hwire
    rw [hsent, Option.all_some] at hall
    exact of_decide_eq_true hall

/-- A side's own first packet, sent back to it, passes its AEAD check. -/
theorem reflected_wire_accepted :
    (run (Net.step primitives) [.encrypt .a (fun _ => nonceOf 0) [0x45], .deliver .a 0 0]
      pair).accepted .a = [0] ∧
    ((run (Net.step primitives) [.encrypt .a (fun _ => nonceOf 0) [0x45], .deliver .a 0 0]
      pair).emitted[0]?).map Prod.fst = some Side.a := by
  decide

end Transparent
end PyVpn
