import PyVpn.EventRun
import PyVpn.Opening
import PyVpn.Transparent

/-! Forged data packets. `decrypt` moves the replay window on the counter field
before the AEAD has seen the packet, so a forged wire is without effect exactly when
the window refuses its counter, or when nothing reaches the window at all. -/
namespace PyVpn
open EventRun
section
variable {P : Primitives} {ch : DataChannel} {wire : Bytes}

/-- No plaintext sealed under the channel's key and associated data ends this wire. -/
def Forged (P : Primitives) (ch : DataChannel) (wire : Bytes) : Prop :=
  ∀ payload, dataPayload wire = some payload → ∀ c, ch.cipher = some c →
    ∀ (nonce : Nonce) (plaintext : Bytes),
      payload.drop 4 ≠ c.encrypt P nonce plaintext (ch.sharedId.val ++ payload.take 4)

/-- The wire is undecodable or too short, or the replay window refuses its counter. -/
def Refused (ch : DataChannel) (wire : Bytes) : Prop :=
  ∀ payload, dataPayload wire = some payload → ch.replay.Stale (counterOf payload)

theorem decrypt_of_refused (h : Refused ch wire) (now : Time) :
    decrypt P now wire ch = (.ok none, ch) := by
  rw [decrypt_run, authenticate_run]
  cases hpayload : dataPayload wire with
  | none => rfl
  | some payload =>
    have hstale := (ReplayWindow.check_false_iff _ _).mpr (h payload hpayload)
    simp only [hstale, ReplayWindow.check_unchanged hstale]
    rfl

theorem openSealed_forged (ideal : IdealAead P) (h : Forged P ch wire) {payload : Bytes}
    (hpayload : dataPayload wire = some payload) :
    (openSealed P ch (payload.drop 4) (ch.sharedId.val ++ payload.take 4)).toOption = none := by
  unfold openSealed
  cases hc : ch.cipher with
  | none => rfl
  | some c =>
    simp only
    cases hopen : c.decrypt P (payload.drop 4) (ch.sharedId.val ++ payload.take 4) with
    | error e => rfl
    | ok plaintext =>
      have hlong : 12 ≤ (payload.drop 4).length := by
        have hlen := dataPayload_length hpayload
        rw [List.length_drop]
        omega
      have hnonce : ((payload.drop 4).take 12).length = 12 := by
        rw [List.length_take, Nat.min_eq_left hlong]
      rw [Cipher.decrypt, if_neg (Nat.not_lt.mpr hlong), ideal.decrypt_iff] at hopen
      have hsealed := h payload hpayload c hc ⟨(payload.drop 4).take 12, hnonce⟩ plaintext
      refine absurd ?_ hsealed
      rw [Cipher.encrypt, ← hopen, List.take_append_drop]

theorem forged_of_rejected (ideal : IdealAead P)
    (h : ∀ payload, dataPayload wire = some payload →
      (openSealed P ch (payload.drop 4) (ch.sharedId.val ++ payload.take 4)).toOption = none) :
    Forged P ch wire := by
  intro payload hpayload c hc nonce plaintext hsealed
  have hnone := h payload hpayload
  simp [openSealed, hc, hsealed, Cipher.decrypt_encrypt ideal, Except.toOption] at hnone

/-- A forged wire returns nothing and touches the replay window only. -/
theorem decrypt_forged (ideal : IdealAead P) (h : Forged P ch wire) (now : Time) :
    decrypt P now wire ch = (.ok none, { ch with replay := windowAfter ch wire }) := by
  rw [decrypt_run, authenticate_run, windowAfter]
  cases hpayload : dataPayload wire with
  | none => rfl
  | some payload =>
    simp only [openSealed_forged ideal h hpayload, Option.map_none, ite_self]

theorem refused_of_window_unchanged (ideal : IdealAead P) (h : Forged P ch wire) (now : Time)
    (hsame : (decrypt P now wire ch).2.replay = ch.replay) : Refused ch wire := by
  intro payload hpayload
  rw [decrypt_forged ideal h now, windowAfter, hpayload] at hsame
  rw [← ReplayWindow.check_false_iff]
  cases hcheck : (ch.replay.check (counterOf payload)).1 with
  | false => rfl
  | true => exact absurd hsame (ReplayWindow.check_changed hcheck)

def receive (P : Primitives) (w : Time × Bytes) (ch : DataChannel) :
    Except PyError (Option Bytes) × DataChannel := decrypt P w.1 w.2 ch

open Classical in
/-- Forged wires are without effect on one call exactly when they are refused, and a
run whose forged wires are all refused returns for its genuine wires what the run
without the forged ones returns. -/
theorem forged_without_effect_iff (ideal : IdealAead P) (ch : DataChannel) :
    (∀ now wire, Forged P ch wire →
      ((decrypt P now wire ch).1 = .ok none ∧ (decrypt P now wire ch).2.replay = ch.replay ∧
        (decrypt P now wire ch).2.fragments = ch.fragments ↔ Refused ch wire)) ∧
    ∀ wires : List (Time × Bytes),
      Meets (fun ch' w => (receive P w ch').2)
        (fun ch' w => Forged P ch w.2 → Refused ch' w.2) wires ch →
      (outputs (receive P) wires ch).filter (fun r => ¬ Forged P ch r.1.2) =
        outputs (receive P) (wires.filter (fun w => ¬ Forged P ch w.2)) ch := by
  constructor
  · intro now wire h
    constructor
    · intro heffect
      exact refused_of_window_unchanged ideal h now heffect.2.1
    · intro hrefused
      rw [decrypt_of_refused hrefused now]
      exact ⟨rfl, rfl, rfl⟩
  · intro wires hmeets
    apply outputs_filter (receive P) (fun w => decide (¬ Forged P ch w.2)) wires ch
    rw [meets_iff_split] at hmeets ⊢
    intro u w v hsplit hkeep
    have hforged : Forged P ch w.2 := by simpa using hkeep
    exact congrArg Prod.snd (decrypt_of_refused (hmeets u w v hsplit hforged) w.1)

end

namespace Transparent

/-- A data packet with the given counter and thirty zero bytes where the sealed part belongs. -/
def zeroWire (counter : Nat) : Bytes :=
  encodePacket .data 0 (BigEndian.be 4 counter ++ List.replicate 30 0)

def firstWire : Bytes :=
  sealWire primitives (cipherOf 9) receiver.sharedId (nonceOf 0) 1 [compNone, 0x45]

open Classical in
/-- A forged packet with counter 1 after the genuine one is refused; it changes nothing. -/
theorem forged_without_effect_duplicate :
    ((decrypt primitives 0 (zeroWire 1) (decrypt primitives 0 firstWire receiver).2).1 = .ok none ∧
      (decrypt primitives 0 (zeroWire 1) (decrypt primitives 0 firstWire receiver).2).2.replay =
        (decrypt primitives 0 firstWire receiver).2.replay ∧
      (decrypt primitives 0 (zeroWire 1) (decrypt primitives 0 firstWire receiver).2).2.fragments =
        (decrypt primitives 0 firstWire receiver).2.fragments) ∧
    (outputs (receive primitives) [(0, firstWire), (0, zeroWire 1)] receiver).filter
        (fun r => ¬ Forged primitives receiver r.1.2) =
      outputs (receive primitives)
        ([(0, firstWire), (0, zeroWire 1)].filter fun w => ¬ Forged primitives receiver w.2)
        receiver := by
  have hforged : Forged primitives (decrypt primitives 0 firstWire receiver).2 (zeroWire 1) :=
    forged_of_rejected ideal (by decide)
  have hrefused : Refused (decrypt primitives 0 firstWire receiver).2 (zeroWire 1) := by
    unfold Refused
    decide
  have hgenuine : ¬ Forged primitives receiver firstWire := fun h =>
    h _ rfl (cipherOf 9) rfl (nonceOf 0) [compNone, 0x45] rfl
  constructor
  · exact ((forged_without_effect_iff ideal _).1 0 (zeroWire 1) hforged).mpr hrefused
  · exact (forged_without_effect_iff ideal receiver).2 [(0, firstWire), (0, zeroWire 1)]
      ⟨fun h => absurd h hgenuine, fun _ => hrefused, trivial⟩

/-- A forged packet with the largest counter moves the window, and the genuine packet
that would have been delivered is dropped. -/
theorem forged_wire_moves_window :
    Forged primitives receiver (zeroWire 4294967295) ∧
    (decrypt primitives 0 (zeroWire 4294967295) receiver).2.replay ≠ receiver.replay ∧
    (decrypt primitives 0 firstWire receiver).1 = .ok (some [0x45]) ∧
    (decrypt primitives 0 firstWire
      (decrypt primitives 0 (zeroWire 4294967295) receiver).2).1 = .ok none := by
  refine ⟨forged_of_rejected ideal (by decide), ?_, by decide, by decide⟩
  intro h
  have hhighest := congrArg ReplayWindow.highest h
  exact absurd hhighest (by decide)

end Transparent
end PyVpn
