import PyVpn.Sealing

/-! What one `decrypt` call can do: the outcomes of `authenticate` on any wire and on
a sealed one, and which fields it writes. -/
namespace PyVpn
open BigEndian
section
variable {P : Primitives} {ch : DataChannel} {c : Cipher} {plaintext wire payload inner : Bytes}

/-- The payload `decrypt` goes on with: the packet decodes and is long enough. -/
def dataPayload (wire : Bytes) : Option Bytes :=
  match decodePacket wire with
  | .error _ => none
  | .ok (_, _, payload) => if payload.length < 4 + 12 + 16 + 1 then none else some payload

def counterOf (payload : Bytes) : Nat := ofBe (payload.take 4)

/-- The replay window after a wire, whether or not the AEAD then accepts it. -/
def windowAfter (ch : DataChannel) (wire : Bytes) : ReplayWindow :=
  match dataPayload wire with
  | none => ch.replay
  | some payload => (ch.replay.check (counterOf payload)).2

theorem windowAfter_payload (h : dataPayload wire = some payload) :
    windowAfter ch wire = (ch.replay.check (counterOf payload)).2 := by
  unfold windowAfter
  rw [h]

theorem dataPayload_length (h : dataPayload wire = some payload) :
    33 ≤ payload.length := by
  unfold dataPayload at h
  split at h
  · cases h
  · split at h
    · cases h
    · cases h
      omega

/-- `authenticate` never raises; it writes the replay window only, and writes it
before the AEAD is asked. -/
theorem authenticate_run (P : Primitives) (ch : DataChannel) (wire : Bytes) :
    authenticate P wire ch =
      match dataPayload wire with
      | none => (.ok none, ch)
      | some payload =>
        (.ok (if (ch.replay.check (counterOf payload)).1 then
            (openSealed P ch (payload.drop 4) (ch.sharedId.val ++ payload.take 4)).toOption.map
              fun inner => (counterOf payload, inner)
          else none),
        { ch with replay := (ch.replay.check (counterOf payload)).2 }) := by
  unfold authenticate dataPayload
  cases hdecode : decodePacket wire with
  | error e => rfl
  | ok packet =>
    obtain ⟨op, sid, payload⟩ := packet
    by_cases hshort : payload.length < 4 + 12 + 16 + 1
    · simp only [hshort, if_true, Py.pure_run]
    · have hfour : (payload.take 4).length = 4 := by
        rw [List.length_take]
        omega
      have hunpack : unpack 4 (payload.take 4) = .ok (counterOf payload) := if_pos hfour
      simp only [hshort, if_false, hunpack, Py.bind_run, Py.ofExcept_run, Py.self_run,
        Py.assign_run]
      cases hfresh : (ch.replay.check (counterOf payload)).1 with
      | false => rfl
      | true =>
        cases hopen : openSealed P ch (payload.drop 4) (ch.sharedId.val ++ payload.take 4) with
        | error e => rfl
        | ok inner => rfl

theorem dataPayload_sealWire (ideal : IdealAead P) (sharedId : SharedId) (nonce : Nonce)
    (counter : Nat) (hinner : inner ≠ []) :
    dataPayload (sealWire P c sharedId nonce counter inner) =
      some (be 4 counter ++ c.encrypt P nonce inner (sharedId.val ++ be 4 counter)) := by
  have hpos : 1 ≤ inner.length := List.length_pos_iff.mpr hinner
  have hlong : ¬ (be 4 counter ++ c.encrypt P nonce inner (sharedId.val ++ be 4 counter)).length <
      4 + 12 + 16 + 1 := by
    simp only [List.length_append, be_length, Cipher.encrypt, nonce.property, ideal.encrypt_length]
    omega
  rw [dataPayload, sealWire, decodePacket_encodePacket]
  exact if_neg hlong

theorem counterOf_be {counter : Nat} (h : counter < 256 ^ 4) (rest : Bytes) :
    counterOf (be 4 counter ++ rest) = counter := by
  rw [counterOf, List.take_append_of_le_length (Nat.le_of_eq (be_length 4 counter).symm),
    List.take_of_length_le (Nat.le_of_eq (be_length 4 counter)), ofBe_be_of_lt h]

/-- A wire sealed under the channel's key and id passes exactly when its counter does. -/
theorem authenticate_sealWire (ideal : IdealAead P) (hc : ch.cipher = some c) (nonce : Nonce)
    {counter : Nat} (hcounter : counter < 256 ^ 4) (hinner : inner ≠ []) :
    authenticate P (sealWire P c ch.sharedId nonce counter inner) ch =
      (.ok (if (ch.replay.check counter).1 then some (counter, inner) else none),
        { ch with replay := (ch.replay.check counter).2 }) := by
  have htake (rest : Bytes) : (be 4 counter ++ rest).take 4 = be 4 counter := by
    rw [List.take_append_of_le_length (Nat.le_of_eq (be_length 4 counter).symm),
      List.take_of_length_le (Nat.le_of_eq (be_length 4 counter))]
  have hdrop (rest : Bytes) : (be 4 counter ++ rest).drop 4 = rest := by
    rw [List.drop_append_of_le_length (Nat.le_of_eq (be_length 4 counter).symm),
      List.drop_of_length_le (Nat.le_of_eq (be_length 4 counter)), List.nil_append]
  rw [authenticate_run, dataPayload_sealWire ideal ch.sharedId nonce counter hinner]
  simp only [counterOf_be hcounter, htake, hdrop, openSealed, hc, Cipher.decrypt_encrypt ideal,
    Except.toOption, Option.map_some]

theorem compressInner_ne_nil (P : Primitives) (ch : DataChannel) (plaintext : Bytes) :
    compressInner P ch plaintext ≠ [] := by
  unfold compressInner
  grind

/-- The group a fragment belongs to, with that fragment in it. -/
def withFragment (ch : DataChannel) (now : Time) (groupId : Int) (total index : UInt8)
    (raw : Bytes) : FragmentBuffer :=
  let buf := (ch.fragments.lookup groupId).getD ⟨total, ∅, now⟩
  { buf with fragments := buf.fragments.insert index raw }

theorem reassemble_run (now : Time) (pktCounter : Nat) (mark total index : UInt8) (raw : Bytes)
    (hraw : raw ≠ []) (ch : DataChannel) :
    let groupId : Int := pktCounter - index.toNat
    let buf := withFragment ch now groupId total index raw
    let filled := { ch with fragments := ch.fragments.insert groupId buf }
    reassemble now pktCounter (mark :: total :: index :: raw) ch =
      if buf.total ≠ total then
        (.ok none, { ch with fragments := ch.fragments.erase groupId })
      else if buf.fragments.keys.length = total.toNat then
        match joinFragments buf with
        | .error e => (.error e, filled)
        | .ok data => (.ok (some data), { filled with fragments := filled.fragments.erase groupId })
      else (.ok none, filled) := by
  have hlen : ¬ (mark :: total :: index :: raw).length < 4 := by
    have hpos := List.length_pos_iff.mpr hraw
    simp only [List.length_cons]
    omega
  intro groupId buf filled
  unfold reassemble
  rw [if_neg hlen]
  simp only [Py.bind_run, Py.self_run]
  change (if buf.total ≠ total then _ else _ : Py DataChannel (Option Bytes)) ch = _
  split
  · rfl
  · simp only [Py.bind_run, Py.assign_run]
    change (if buf.fragments.keys.length = total.toNat then _ else _ :
      Py DataChannel (Option Bytes)) filled = _
    split
    · cases hjoin : joinFragments buf with
      | error e =>
        change Py.bind (Py.ofExcept (joinFragments buf)) _ filled = _
        simp only [Py.bind, Py.ofExcept_run, hjoin]
      | ok data =>
        change Py.bind (Py.ofExcept (joinFragments buf)) _ filled = _
        simp only [Py.bind, Py.ofExcept_run, hjoin]
        rfl
    · rfl

theorem reassemble_frame (now : Time) (pktCounter : Nat) (plain : Bytes) (ch : DataChannel) :
    ∃ table, (reassemble now pktCounter plain ch).2 = { ch with fragments := table } := by
  match plain with
  | [] => exact ⟨ch.fragments, rfl⟩
  | [_] => exact ⟨ch.fragments, rfl⟩
  | [_, _] => exact ⟨ch.fragments, rfl⟩
  | [_, _, _] => exact ⟨ch.fragments, rfl⟩
  | mark :: total :: index :: b :: rest =>
    have hrun := reassemble_run now pktCounter mark total index (b :: rest)
      (List.cons_ne_nil b rest) ch
    simp only at hrun
    rw [hrun]
    split
    · exact ⟨_, rfl⟩
    · split
      · split
        · exact ⟨_, rfl⟩
        · exact ⟨_, rfl⟩
      · exact ⟨_, rfl⟩

theorem deliver_frame (P : Primitives) (now : Time) (pktCounter : Nat) (inner : Bytes)
    (ch : DataChannel) : ∃ table,
      (deliver P now pktCounter inner ch).2 = { ch with fragments := table } := by
  unfold deliver
  split
  · exact ⟨ch.fragments, rfl⟩
  · cases decompress P inner with
    | none => exact ⟨ch.fragments, rfl⟩
    | some plain =>
      simp only
      split
      · exact ⟨ch.fragments, rfl⟩
      · split
        · exact reassemble_frame now pktCounter plain ch
        · exact ⟨ch.fragments, rfl⟩

theorem decrypt_run (P : Primitives) (now : Time) (wire : Bytes) (ch : DataChannel) :
    decrypt P now wire ch = match authenticate P wire ch with
      | (.error e, ch') => (.error e, ch')
      | (.ok none, ch') => (.ok none, ch')
      | (.ok (some (counter, inner)), ch') => deliver P now counter inner ch' := by
  unfold decrypt
  rw [Py.bind_run]
  cases authenticate P wire ch with
  | mk r ch' =>
    cases r with
    | error e => rfl
    | ok opened =>
      cases opened with
      | none => rfl
      | some counted => rfl

theorem decrypt_frame (P : Primitives) (now : Time) (wire : Bytes) (ch : DataChannel) :
    ∃ table, (decrypt P now wire ch).2 =
      { ch with fragments := table, replay := windowAfter ch wire } := by
  rw [decrypt_run, authenticate_run, windowAfter]
  cases dataPayload wire with
  | none => exact ⟨ch.fragments, rfl⟩
  | some payload =>
    simp only
    split
    · rename_i h
      cases h
    · rename_i h
      obtain ⟨_, rfl⟩ := Prod.mk.inj h
      exact ⟨ch.fragments, rfl⟩
    · rename_i counter inner _ h
      obtain ⟨_, rfl⟩ := Prod.mk.inj h
      obtain ⟨table, htable⟩ := deliver_frame P now counter inner
        { ch with replay := (ch.replay.check (counterOf payload)).2 }
      exact ⟨table, htable⟩

theorem lookup_cleanup (now : Time) (ch : DataChannel) (groupId : Int) :
    (cleanupFragments now ch).fragments.lookup groupId = none ∨
      (cleanupFragments now ch).fragments.lookup groupId = ch.fragments.lookup groupId := by
  unfold cleanupFragments
  rw [Dict.lookup_popAll]
  split
  · exact .inl rfl
  · exact .inr rfl

/-- The counter field of a data packet, behind the header. -/
def wireCounter (wire : Bytes) : Nat := counterOf (wire.drop headerSize)

/-- A wire some plaintext was sealed into under this key and id. -/
def Sealed (P : Primitives) (c : Cipher) (sharedId : SharedId) (wire : Bytes) : Prop :=
  ∃ nonce counter inner, counter < 256 ^ 4 ∧ inner ≠ [] ∧
    wire = sealWire P c sharedId nonce counter inner

theorem drop_sealWire (c : Cipher) (sharedId : SharedId) (nonce : Nonce) (counter : Nat) :
    (sealWire P c sharedId nonce counter inner).drop headerSize =
      be 4 counter ++ c.encrypt P nonce inner (sharedId.val ++ be 4 counter) := by
  have hdecode := decodePacket_encodePacket .data (intOfBytes sharedId.val)
    (be 4 counter ++ c.encrypt P nonce inner (sharedId.val ++ be 4 counter))
  exact (decodePacket_eq_ok hdecode).2.2.2.symm

theorem wireCounter_sealWire (c : Cipher) (sharedId : SharedId) (nonce : Nonce) {counter : Nat}
    (hcounter : counter < 256 ^ 4) :
    wireCounter (sealWire P c sharedId nonce counter inner) = counter := by
  rw [wireCounter, drop_sealWire, counterOf_be hcounter]

/-- The wire passes the AEAD check of `decrypt`. -/
def passes (P : Primitives) (wire : Bytes) (ch : DataChannel) : Bool :=
  match (authenticate P wire ch).1 with
  | .ok (some _) => true
  | _ => false

theorem passes_sealed (ideal : IdealAead P) (hc : ch.cipher = some c)
    (h : Sealed P c ch.sharedId wire) :
    passes P wire ch = (ch.replay.check (wireCounter wire)).1 := by
  obtain ⟨nonce, counter, inner, hcounter, hinner, rfl⟩ := h
  rw [wireCounter_sealWire c ch.sharedId nonce hcounter, passes,
    authenticate_sealWire ideal hc nonce hcounter hinner]
  cases (ch.replay.check counter).1 with
  | false => rfl
  | true => rfl

theorem windowAfter_sealed (ideal : IdealAead P) (h : Sealed P c ch.sharedId wire) :
    windowAfter ch wire = (ch.replay.check (wireCounter wire)).2 := by
  obtain ⟨nonce, counter, inner, hcounter, hinner, rfl⟩ := h
  rw [wireCounter_sealWire c ch.sharedId nonce hcounter,
    windowAfter_payload (dataPayload_sealWire ideal ch.sharedId nonce counter hinner),
    counterOf_be hcounter]

theorem wireAt_sealed (nonces : Nat → Nonce) {i : Nat} (h : Encryptable ch c plaintext)
    (hi : i < wireCount plaintext) :
    Sealed P c ch.sharedId (wireAt P c nonces ch plaintext i) ∧
      wireCounter (wireAt P c nonces ch plaintext i) = ch.packetCounter + 1 + i := by
  have hcounter : ch.packetCounter + 1 + i < 256 ^ 4 := by
    have hbound := h.counters
    omega
  exact ⟨⟨nonces i, _, _, hcounter, compressInner_ne_nil P ch _, rfl⟩,
    wireCounter_sealWire c ch.sharedId (nonces i) hcounter⟩

end
end PyVpn
