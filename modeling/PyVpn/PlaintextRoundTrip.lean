import PyVpn.Forgery
import PyVpn.RoundTrip

/-! The round trip of one `encrypt` call for every plaintext. `decrypt` looks for the fragment
mark in the first byte of the payload itself, where a plaintext that is sent whole has its
own first byte. -/
namespace PyVpn
open EventRun
section
variable {P : Primitives} {c : Cipher} {sender receiver ch : DataChannel} {plaintext : Bytes}
  {i k : Nat}

/-- `encrypt` does not raise, and its wires, received in order at any times, return nothing
but the plaintext with the last one. -/
def RoundTrips (P : Primitives) (sender receiver : DataChannel) (plaintext : Bytes) : Prop :=
  ∀ nonces, ∃ wires, (encrypt P nonces plaintext sender).1 = .ok wires ∧
    ∀ times : List Time, times.length = wires.length →
      (outputs (receive P) (times.zip wires) receiver).map Prod.snd =
        List.replicate (wires.length - 1) (.ok none) ++ [.ok (some plaintext)]

theorem Taken.outputs (ideal : IdealAead P)
    (hround : ∀ b, P.lz4Decompress (P.lz4Compress b) = .ok b)
    (hlz4 : sender.compLzo = true → P.hasLz4 = true) (hzero : sender.packetCounter = 0)
    (henc : Encryptable sender c plaintext) (hhead : Unmarked plaintext)
    (h : Taken c sender.sharedId plaintext i ch) (hk : i + (k + 1) = wireCount plaintext)
    (nonces : Nat → Nonce) (times : List Time) (htimes : times.length = k + 1) :
    (EventRun.outputs (receive P)
      (times.zip ((List.range' i (k + 1)).map (wireAt P c nonces sender plaintext))) ch).map
        Prod.snd = List.replicate k (.ok none) ++ [.ok (some plaintext)] := by
  induction k generalizing i ch times with
  | zero =>
    obtain ⟨now, rfl⟩ := List.length_eq_one_iff.mp htimes
    have hlast := (h.next ideal hround hlz4 hzero henc hhead (by omega) now nonces).1 hk
    simp only [List.range'_succ, List.range'_zero, List.map_cons, List.map_nil, List.zip_cons_cons,
      List.zip_nil_right, EventRun.outputs, receive, hlast, List.replicate_zero, List.nil_append]
  | succ k ih =>
    cases times with
    | nil => cases htimes
    | cons now times =>
      obtain ⟨hnone, hnext⟩ :=
        (h.next ideal hround hlz4 hzero henc hhead (by omega) now nonces).2 (by omega)
      have hrest := ih hnext (by omega) times (Nat.succ.inj htimes)
      rw [List.range'_succ, List.map_cons, List.zip_cons_cons, EventRun.outputs, List.map_cons,
        List.replicate_succ, List.cons_append]
      exact congrArg₂ List.cons hnone hrest

theorem roundTrips_of_unmarked (ideal : IdealAead P)
    (hround : ∀ b, P.lz4Decompress (P.lz4Compress b) = .ok b)
    (hlz4 : sender.compLzo = true → P.hasLz4 = true) (hzero : sender.packetCounter = 0)
    (henc : Encryptable sender c plaintext) (hhead : Unmarked plaintext)
    (h : Taken c sender.sharedId plaintext 0 receiver) :
    RoundTrips P sender receiver plaintext := by
  intro nonces
  refine ⟨wiresOf P c nonces sender plaintext, by rw [encrypt_run nonces henc], ?_⟩
  intro times htimes
  obtain ⟨k, hk⟩ := Nat.exists_eq_add_of_le' (wireCount_pos plaintext)
  rw [wiresOf_length, hk] at htimes
  rw [wiresOf_length, wiresOf, hk, List.range_eq_range']
  exact h.outputs ideal hround hlz4 hzero henc hhead (by omega) nonces times htimes

theorem and_fragMask_ne_zero {b : UInt8} (h : ¬ b < 0x80) : b &&& fragMask ≠ 0 := by
  have hlow : 128 ≤ b.toNat := Nat.le_of_not_lt h
  have hhigh : b.toNat < 256 := b.toNat_lt
  have hbit : b.toNat.testBit 7 = true := by
    rw [Nat.testBit_eq_decide_div_mod_eq]
    simp only [decide_eq_true_eq]
    omega
  intro hzero
  have hnat : (b &&& fragMask).toNat = 0 := congrArg UInt8.toNat hzero
  have hmask : fragMask.toNat = 2 ^ 7 := rfl
  rw [UInt8.toNat_and, hmask, Nat.and_two_pow, hbit] at hnat
  cases hnat

theorem joinFragments_alone {total index : UInt8} {raw data : Bytes} {now : Time}
    (hone : total.toNat = 1)
    (h : joinFragments ⟨total, AList.insert index raw ∅, now⟩ = .ok data) : data = raw := by
  unfold joinFragments at h
  simp only [hone, List.range_one, List.mapM_cons, List.mapM_nil, fragmentAt] at h
  by_cases hindex : index = UInt8.ofNat 0
  · subst hindex
    rw [AList.lookup_insert] at h
    have hdata : [raw].flatten = data := Except.ok.inj h
    rw [← hdata, List.flatten_singleton]
  · rw [AList.lookup_insert_ne (Ne.symm hindex)] at h
    cases h

theorem reassemble_alone (hempty : ch.fragments = ∅) (now : Time) (counter : Nat) (plain : Bytes) :
    (reassemble now counter plain ch).1 ≠ .ok (some plain) := by
  match plain with
  | [] => exact fun h => by cases h
  | [_] => exact fun h => by cases h
  | [_, _] => exact fun h => by cases h
  | [_, _, _] => exact fun h => by cases h
  | mark :: total :: index :: b :: rest =>
    have hrun := reassemble_run now counter mark total index (b :: rest)
      (List.cons_ne_nil b rest) ch
    simp only at hrun
    rw [hrun]
    have hbuf : withFragment ch now (counter - index.toNat) total index (b :: rest) =
        ⟨total, AList.insert index (b :: rest) ∅, now⟩ := by
      rw [withFragment, hempty]
      rfl
    rw [hbuf]
    simp only [ne_eq, not_true_eq_false, if_false]
    intro h
    split at h
    · rename_i hfull
      have hone : total.toNat = 1 := by
        rw [← hfull]
        rfl
      cases hjoin : joinFragments ⟨total, AList.insert index (b :: rest) ∅, now⟩ with
      | error e =>
        rw [hjoin] at h
        cases h
      | ok data =>
        rw [hjoin] at h
        have hdata : data = mark :: total :: index :: b :: rest :=
          Option.some.inj (Except.ok.inj h)
        have hlength := congrArg List.length ((joinFragments_alone hone hjoin).symm.trans hdata)
        simp only [List.length_cons] at hlength
        omega
    · cases h

/-- A marked plaintext that is sent whole is taken for a fragment. -/
theorem not_roundTrips_of_marked (ideal : IdealAead P)
    (hround : ∀ b, P.lz4Decompress (P.lz4Compress b) = .ok b)
    (hlz4 : sender.compLzo = true → P.hasLz4 = true) (hzero : sender.packetCounter = 0)
    (henc : Encryptable sender c plaintext) (hhead : ¬ Unmarked plaintext)
    (h : Taken c sender.sharedId plaintext 0 receiver) (hempty : receiver.fragments = ∅) :
    ¬ RoundTrips P sender receiver plaintext := by
  intro hall
  have hwhole : plaintext.length ≤ maxPayload := by
    by_contra hlong
    exact hhead fun hwhole => absurd hwhole hlong
  have hone : wireCount plaintext = 1 := if_pos hwhole
  have hpiece : pieceAt plaintext 0 = plaintext := if_pos hwhole
  obtain ⟨wires, hwires, htrip⟩ := hall fun _ => ⟨List.replicate 12 0, rfl⟩
  rw [encrypt_run _ henc] at hwires
  have hwires' := Except.ok.inj hwires
  subst hwires'
  have hresult := htrip [0] (by rw [wiresOf_length, hone]; rfl)
  obtain ⟨replay, -, hrun⟩ := h.decrypt ideal (by decide) 0 ⟨List.replicate 12 0, rfl⟩
    (compressInner_ne_nil P sender plaintext)
  rw [wiresOf_length, wiresOf, hone] at hresult
  simp only [List.range_one, List.map_cons, List.map_nil, List.zip_cons_cons, List.zip_nil_right,
    outputs, receive, wireAt, hzero, hpiece, Nat.add_zero, Nat.zero_add, hrun, Nat.sub_self,
    List.replicate_zero, List.nil_append, List.cons.injEq, and_true] at hresult
  cases plaintext with
  | nil => exact hhead fun _ b hb => by cases hb
  | cons b rest =>
    have hmark : ¬ b < 0x80 := by
      intro hlow
      apply hhead
      intro _ b' hb'
      cases hb'
      exact hlow
    have hinner : ¬ (compressInner P sender (b :: rest)).length < 1 := by
      have hpos := List.length_pos_iff.mpr (compressInner_ne_nil P sender (b :: rest))
      omega
    have hbranch : (b :: rest).headD 0 &&& fragMask ≠ 0 := and_fragMask_ne_zero hmark
    rw [deliver, if_neg hinner, decompress_compressInner hround sender hlz4] at hresult
    simp only [if_neg (show ¬ (b :: rest).length < 1 by simp), if_pos hbranch] at hresult
    have hmoved : ({ receiver with replay := replay }).fragments = ∅ := hempty
    exact reassemble_alone hmoved 0 1 (b :: rest) hresult

theorem encryptable_fresh (hcipher : sender.cipher = some c) (hzero : sender.packetCounter = 0)
    (hlength : plaintext.length ≤ 255 * maxPayload) : Encryptable sender c plaintext := by
  have hcount : wireCount plaintext ≤ 255 := by
    unfold wireCount fragmentTotal maxPayload at *
    split
    · decide
    · omega
  exact ⟨hcipher, hcount, by omega⟩

end

/-- A fresh pair of channels carries a plaintext of at most 255 fragments exactly when it is
fragmented or does not start with the fragment mark. -/
theorem round_trip_iff {P : Primitives} (ideal : IdealAead P)
    (hround : ∀ b, P.lz4Decompress (P.lz4Compress b) = .ok b) (idS idR : SessionId) (c : Cipher)
    (lzoS lzoR : Bool) (windowS windowR : WindowSize) (plaintext : Bytes)
    (hlength : plaintext.length ≤ 255 * 1400) :
    RoundTrips P (.new P idS idR.val (some c) lzoS windowS)
        (.new P idR idS.val (some c) lzoR windowR) plaintext ↔ Unmarked plaintext := by
  have htaken := taken_new (P := P) idS idR c lzoS lzoR windowS windowR plaintext
  have hlz4 := new_compLzo (P := P) idS idR (some c) lzoS windowS
  have henc : Encryptable (.new P idS idR.val (some c) lzoS windowS) c plaintext :=
    encryptable_fresh rfl rfl hlength
  constructor
  · intro htrip
    by_contra hhead
    exact not_roundTrips_of_marked ideal hround hlz4 rfl henc hhead htaken rfl htrip
  · intro hhead
    exact roundTrips_of_unmarked ideal hround hlz4 rfl henc hhead htaken

namespace Transparent

/-- An IPv4 header's first byte has no mark. -/
theorem round_trip_packet :
    RoundTrips primitives (.new primitives (sidOf 5) (sidOf 7).val (some (cipherOf 9)) true)
      (.new primitives (sidOf 7) (sidOf 5).val (some (cipherOf 9)) false) [0x45, 0, 0, 20] := by
  refine (round_trip_iff ideal (fun _ => rfl) (sidOf 5) (sidOf 7) (cipherOf 9) true false
    defaultReplayWindow defaultReplayWindow [0x45, 0, 0, 20] (by decide)).mpr ?_
  intro _ b hb
  cases hb
  decide

/-- The wire of a payload of four bytes, which comes back as its last one. -/
theorem marked_payload_cut :
    (encrypt primitives (fun _ => nonceOf 1) [0x80, 1, 0, 42] sender).1.toOption.map
        (fun wires => wires.map fun wire => (decrypt primitives 0 wire receiver).1) =
          some [.ok (some [42])] ∧
      ¬ RoundTrips primitives sender receiver [0x80, 1, 0, 42] := by
  have hcut : (encrypt primitives (fun _ => nonceOf 1) [0x80, 1, 0, 42] sender).1.toOption.map
      (fun wires => wires.map fun wire => (decrypt primitives 0 wire receiver).1) =
        some [.ok (some [42])] := by
    decide +kernel
  refine ⟨hcut, ?_⟩
  intro htrip
  obtain ⟨wires, hwires, hall⟩ := htrip fun _ => nonceOf 1
  rw [hwires] at hcut
  have hresults : wires.map (fun wire => (decrypt primitives 0 wire receiver).1) =
      [.ok (some [42])] := Option.some.inj hcut
  obtain ⟨wire, rfl, hwire⟩ := List.map_eq_singleton_iff.mp hresults
  have hback := hall [0] rfl
  simp only [List.zip_cons_cons, List.zip_nil_right, outputs, receive, hwire] at hback
  cases hback

end Transparent
end PyVpn
