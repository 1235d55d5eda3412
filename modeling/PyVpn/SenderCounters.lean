import PyVpn.EventRun
import PyVpn.Fragments
import PyVpn.Transparent

/-! The counters of everything one channel ever sends. A call that raises consumes one
counter and returns no wire; all other calls number their wires without a gap. -/
namespace PyVpn
open BigEndian EventRun

/-- One call of `encrypt`: the nonces it draws, and its argument. -/
abbrev SealCall := (Nat → Nonce) × Bytes

def sealAct (P : Primitives) (call : SealCall) (ch : DataChannel) :
    Except PyError (List Bytes) × DataChannel := encrypt P call.1 call.2 ch

def sentCounters (results : List (SealCall × Except PyError (List Bytes))) : List Nat :=
  results.flatMap fun r => (returned r.2).map wireCounter

def raisedCalls (results : List (SealCall × Except PyError (List Bytes))) : Nat :=
  results.countP fun r => !r.2.toBool

/-- Counters that are never used twice. A call that does not raise returns all its wires. -/
structure CountersKept (results : List (SealCall × Except PyError (List Bytes))) : Prop where
  whole : ∀ r ∈ results, ∀ wires, r.2 = .ok wires → wires.length = wireCount r.1.2
  increasing : (sentCounters results).Pairwise (· < ·)
  bounds : ∀ counter ∈ sentCounters results, 1 ≤ counter ∧ counter < 2 ^ 32
  contiguous : ∀ before block after, results = before ++ (block ++ after) →
    raisedCalls block = 0 → sentCounters block =
      List.range' (1 + (sentCounters before).length + raisedCalls before)
        (sentCounters block).length
  short : ∀ r ∈ results, ∀ wire ∈ returned r.2, wire.length ≤ 1445

section
variable {P : Primitives} {ch : DataChannel} {c : Cipher} {plaintext : Bytes}

theorem wiresOf_counters (nonces : Nat → Nonce) (h : Encryptable ch c plaintext) :
    (wiresOf P c nonces ch plaintext).map wireCounter =
      List.range' (ch.packetCounter + 1) (wireCount plaintext) := by
  rw [wiresOf, List.map_map, List.range'_eq_map_range]
  refine List.map_congr_left fun i hi => ?_
  exact (wireAt_sealed nonces h (List.mem_range.mp hi)).2

/-- One call: its wires have the next counters, or it raises and skips one. -/
theorem sealAct_cases (P : Primitives) (call : SealCall) (ch : DataChannel) :
    (∃ n wires, sealAct P call ch =
        (.ok wires, { ch with packetCounter := ch.packetCounter + n }) ∧
      wires.map wireCounter = List.range' (ch.packetCounter + 1) n ∧
      ch.packetCounter + n < 2 ^ 32) ∨
    (∃ e, sealAct P call ch =
      (.error e, { ch with packetCounter := ch.packetCounter + 1 })) := by
  by_cases hcan : ∃ c, Encryptable ch c call.2
  · obtain ⟨c, hc⟩ := hcan
    exact .inl ⟨wireCount call.2, wiresOf P c call.1 ch call.2, encrypt_run call.1 hc,
      wiresOf_counters call.1 hc, hc.counters⟩
  · exact .inr (encrypt_raises (P := P) call.1 (not_exists.mp hcan))

/-- The wires of a run that starts at some counter: above it, increasing, and as many as
counters were consumed by calls that did not raise. -/
theorem sealRun_counters (P : Primitives) (calls : List SealCall) (ch : DataChannel) :
    let results := outputs (sealAct P) calls ch
    (∀ counter ∈ sentCounters results, ch.packetCounter < counter ∧ counter < 2 ^ 32) ∧
      (sentCounters results).Pairwise (· < ·) ∧
      (run (fun ch call => (sealAct P call ch).2) calls ch).packetCounter =
        ch.packetCounter + (sentCounters results).length + raisedCalls results := by
  induction calls generalizing ch with
  | nil => simp [outputs, sentCounters, raisedCalls]
  | cons call calls ih =>
    obtain ⟨hbounds, hincreasing, hcounter⟩ := ih (sealAct P call ch).2
    simp only [outputs, run_cons, sentCounters, List.flatMap_cons, raisedCalls, List.countP_cons]
      at hbounds hincreasing hcounter ⊢
    obtain ⟨n, wires, hrun, hwires, hlimit⟩ | ⟨e, hrun⟩ := sealAct_cases P call ch
    · rw [hrun] at hbounds hincreasing hcounter ⊢
      simp only [returned, hwires, Except.toBool] at hbounds hincreasing hcounter ⊢
      refine ⟨?_, ?_, ?_⟩
      · intro counter hmem
        cases List.mem_append.mp hmem with
        | inl hown =>
          have hrange := List.mem_range'_1.mp hown
          omega
        | inr hlater =>
          have hafter := hbounds counter hlater
          omega
      · rw [List.pairwise_append]
        refine ⟨List.pairwise_lt_range', hincreasing, ?_⟩
        intro first hfirst later hlater
        have hrange := List.mem_range'_1.mp hfirst
        have hafter := hbounds later hlater
        omega
      · rw [hcounter, List.length_append, List.length_range']
        simp only [Bool.not_true, Bool.false_eq_true, if_false]
        omega
    · rw [hrun] at hbounds hincreasing hcounter ⊢
      simp only [returned, List.map_nil, List.nil_append, Except.toBool]
        at hbounds hincreasing hcounter ⊢
      refine ⟨?_, hincreasing, ?_⟩
      · intro counter hmem
        have hafter := hbounds counter hmem
        omega
      · rw [hcounter]
        simp only [Bool.not_false, if_true]
        omega

theorem sealRun_contiguous (P : Primitives) (calls : List SealCall) (ch : DataChannel)
    (h : raisedCalls (outputs (sealAct P) calls ch) = 0) :
    sentCounters (outputs (sealAct P) calls ch) =
      List.range' (ch.packetCounter + 1) (sentCounters (outputs (sealAct P) calls ch)).length := by
  induction calls generalizing ch with
  | nil => rfl
  | cons call calls ih =>
    simp only [outputs, sentCounters, List.flatMap_cons, raisedCalls, List.countP_cons] at h ih ⊢
    obtain ⟨n, wires, hrun, hwires, -⟩ | ⟨e, hrun⟩ := sealAct_cases P call ch
    · rw [hrun] at h ⊢
      have hrest := ih _ (Nat.eq_zero_of_add_eq_zero_right h)
      have hstart : ch.packetCounter + n + 1 = ch.packetCounter + 1 + n := by omega
      rw [returned, hwires, hrest, List.length_append, List.length_range', List.length_range']
      simp only [hstart, List.range'_append_1]
    · rw [hrun] at h
      simp [Except.toBool] at h

theorem pieceAt_length (plaintext : Bytes) (i : Nat) : (pieceAt plaintext i).length ≤ 1403 := by
  unfold pieceAt
  split
  · rename_i hwhole
    exact Nat.le_trans hwhole (by decide)
  · simp only [List.length_cons, chunkAt_length, maxPayload]
    omega

theorem compressInner_length (P : Primitives) (ch : DataChannel) (plaintext : Bytes) :
    (compressInner P ch plaintext).length ≤ plaintext.length + 1 := by
  unfold compressInner
  split
  · dsimp only
    split
    · rename_i hshorter
      simp only [List.length_cons]
      omega
    · simp
  · simp

theorem wireAt_length (htag : ∀ key nonce plaintext aad,
      (P.aesgcmEncrypt key nonce plaintext aad).length = plaintext.length + 16)
    (nonces : Nat → Nonce) (plaintext : Bytes) (i : Nat) :
    (wireAt P c nonces ch plaintext i).length ≤ 1445 := by
  have hinner := compressInner_length P ch (pieceAt plaintext i)
  have hpiece := pieceAt_length plaintext i
  simp only [wireAt, sealWire, encodePacket, Cipher.encrypt, List.length_cons, List.length_append,
    be_length, htag, (nonces i).property]
  omega

theorem sealRun_wires {calls : List SealCall} {r : SealCall × Except PyError (List Bytes)}
    (hr : r ∈ outputs (sealAct P) calls ch) {wires : List Bytes} (hwires : r.2 = .ok wires) :
    ∃ c ch', wires = wiresOf P c r.1.1 ch' r.1.2 := by
  obtain ⟨before, after, hresults⟩ := List.append_of_mem hr
  obtain ⟨u, rest, -, hrest⟩ := outputs_split hresults
  cases rest with
  | nil => cases hrest
  | cons call rest =>
    obtain ⟨rfl, -⟩ := List.cons.inj hrest
    obtain ⟨c, -, rfl⟩ := encrypt_eq_ok hwires
    exact ⟨c, _, rfl⟩

end

/-- Whatever is encrypted on a channel, and whichever calls raise, the wires carry increasing
counters from 1 on that fit in four bytes and miss only those of calls that raised; no wire
is longer than 1445 bytes. -/
theorem counters_never_reused (P : Primitives)
    (htag : ∀ key nonce plaintext aad,
      (P.aesgcmEncrypt key nonce plaintext aad).length = plaintext.length + 16)
    (ourId : SessionId) (peerId : Bytes) (cipher : Option Cipher) (compLzo : Bool)
    (replayWindow : WindowSize) (calls : List SealCall) :
    CountersKept (outputs (sealAct P) calls
      (.new P ourId peerId cipher compLzo replayWindow)) := by
  generalize hch : DataChannel.new P ourId peerId cipher compLzo replayWindow = ch
  have hzero : ch.packetCounter = 0 := hch ▸ rfl
  obtain ⟨hbounds, hincreasing, -⟩ := sealRun_counters P calls ch
  refine ⟨?_, hincreasing, ?_, ?_, ?_⟩
  · intro r hr wires hwires
    obtain ⟨c, ch', rfl⟩ := sealRun_wires hr hwires
    exact wiresOf_length P c r.1.1 ch' r.1.2
  · intro counter hmem
    have hcounter := hbounds counter hmem
    omega
  · intro before block after hresults hnone
    obtain ⟨u, rest, rfl, hrest⟩ := outputs_split hresults
    obtain ⟨v, _, rfl, -⟩ := outputs_split hrest
    have hcounter := (sealRun_counters P u ch).2.2
    have hblock := sealRun_contiguous P v _ hnone
    rw [hcounter, hzero] at hblock
    rwa [show 1 + (sentCounters (outputs (sealAct P) u ch)).length +
      raisedCalls (outputs (sealAct P) u ch) = 0 + (sentCounters (outputs (sealAct P) u ch)).length +
      raisedCalls (outputs (sealAct P) u ch) + 1 by omega]
  · intro r hr wire hwire
    cases hrun : r.2 with
    | error e =>
      rw [hrun] at hwire
      cases hwire
    | ok wires =>
      obtain ⟨c, ch', rfl⟩ := sealRun_wires hr hrun
      rw [hrun] at hwire
      obtain ⟨i, -, rfl⟩ := List.mem_map.mp hwire
      exact wireAt_length htag r.1.1 r.1.2 i

namespace Transparent

/-- A packet of two fragments, one that fits in no 255, and a short one. -/
theorem counters_never_reused_mixed :
    CountersKept (outputs (sealAct primitives)
      [(fun _ => nonceOf 1, List.replicate 1500 0), (fun _ => nonceOf 2, List.replicate 400000 0),
        (fun _ => nonceOf 3, [1, 2, 3])]
      (.new primitives (sidOf 5) (sidOf 7).val (some (cipherOf 9)) true)) :=
  counters_never_reused primitives sealBytes_length (sidOf 5) (sidOf 7).val (some (cipherOf 9)) true
    defaultReplayWindow _

end Transparent
end PyVpn
