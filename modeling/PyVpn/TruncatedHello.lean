import PyVpn.Transparent
import PyVpn.Handlers

/-! Handshake payloads that break off. A cut length, and a cut certificate, make the next
`struct.unpack` raise; nothing looks at the length of the last field, so a cut key and a
cut signature are read as shorter ones. -/
namespace PyVpn
open BigEndian

def declaredLength (payload : Bytes) (offset : Nat) : Nat :=
  ofBe (slice payload offset (offset + 2))

/-- The field whose length stands at `offset` is in the payload with all its bytes. -/
def FieldPresent (payload : Bytes) (offset : Nat) : Prop :=
  offset + 2 + declaredLength payload offset ≤ payload.length

instance (payload : Bytes) (offset : Nat) : Decidable (FieldPresent payload offset) :=
  Nat.decLe _ _

/-- The payload ends behind the length of the field at `offset` and inside its bytes. -/
def CutInField (payload : Bytes) (offset : Nat) : Prop :=
  offset + 2 ≤ payload.length ∧ payload.length < offset + 2 + declaredLength payload offset

def keyOffset (payload : Bytes) : Nat := 2 + declaredLength payload 0

/-- Where the two fields of a hello end, and the signature of a `SERVER_HELLO` starts. -/
def helloEnd (payload : Bytes) : Nat :=
  keyOffset payload + 2 + declaredLength payload (keyOffset payload)

section Fields
variable {payload : Bytes} {i j k offset : Nat}

theorem slice_append (hij : i ≤ j) (hjk : j ≤ k) :
    slice payload i j ++ slice payload j k = slice payload i k := by
  have hstart : payload.drop j = (payload.drop i).drop (j - i) := by
    rw [List.drop_drop, Nat.add_sub_cancel' hij]
  have hlength : k - i = (j - i) + (k - j) := by omega
  rw [slice, slice, slice, List.drop_take, List.drop_take, List.drop_take, hstart, hlength,
    List.take_add]

theorem declaredLength_lt (payload : Bytes) (offset : Nat) :
    declaredLength payload offset < 256 ^ 2 := by
  have hlength : (slice payload offset (offset + 2)).length ≤ 2 := by
    rw [slice_length]
    omega
  exact Nat.lt_of_lt_of_le (ofBe_lt _) (Nat.pow_le_pow_right (by decide) hlength)

theorem unpack_field (payload : Bytes) (offset : Nat) :
    unpack 2 (slice payload offset (offset + 2)) =
      if offset + 2 ≤ payload.length then .ok (declaredLength payload offset)
      else .error .structError := by
  have hboth : (slice payload offset (offset + 2)).length = 2 ↔ offset + 2 ≤ payload.length := by
    rw [slice_length]
    omega
  simp only [unpack, hboth, declaredLength]

theorem pack_declared (h : offset + 2 ≤ payload.length) :
    pack 2 (declaredLength payload offset) = .ok (slice payload offset (offset + 2)) := by
  have hlength : (slice payload offset (offset + 2)).length = 2 := by
    rw [slice_length]
    omega
  have hbytes := be_ofBe (slice payload offset (offset + 2))
  rw [hlength] at hbytes
  rw [pack_ok (declaredLength_lt payload offset), declaredLength, hbytes]

theorem FieldPresent.not_cut (h : FieldPresent payload offset) : ¬ CutInField payload offset :=
  fun hcut => Nat.not_le.mpr hcut.2 h

theorem not_cut_iff (hlength : offset + 2 ≤ payload.length) :
    ¬ CutInField payload offset ↔ FieldPresent payload offset := by
  constructor
  · intro hwhole
    by_contra hshort
    exact hwhole ⟨hlength, Nat.lt_of_not_le hshort⟩
  · exact FieldPresent.not_cut

/-- `_unpack_hello` asks for both lengths, and for no byte behind the second one. -/
theorem unpackHello_run (payload : Bytes) :
    unpackHello payload 0 =
      if keyOffset payload + 2 ≤ payload.length then
        .ok (slice payload 2 (keyOffset payload),
          slice payload (keyOffset payload + 2) (helloEnd payload), helloEnd payload)
      else .error .structError := by
  have hcert := unpack_field payload 0
  have hkey := unpack_field payload (keyOffset payload)
  by_cases hlengths : keyOffset payload + 2 ≤ payload.length
  · have hfirst : 0 + 2 ≤ payload.length := by
      unfold keyOffset at hlengths
      omega
    rw [if_pos hfirst] at hcert
    rw [if_pos hlengths] at hkey
    rw [if_pos hlengths, unpackHello, hcert]
    simp only [bind, Except.bind]
    rw [Nat.zero_add]
    change (unpack 2 (slice payload (keyOffset payload) (keyOffset payload + 2))).bind _ = _
    rw [hkey]
    rfl
  · rw [if_neg hlengths, unpackHello, hcert]
    by_cases hfirst : 0 + 2 ≤ payload.length
    · rw [if_neg hlengths] at hkey
      rw [if_pos hfirst]
      simp only [bind, Except.bind]
      rw [Nat.zero_add]
      change (unpack 2 (slice payload (keyOffset payload) (keyOffset payload + 2))).bind _ = _
      rw [hkey]
      rfl
    · rw [if_neg hfirst]
      rfl

theorem signatureAt_run (payload : Bytes) (offset : Nat) :
    signatureAt payload offset =
      if offset + 2 ≤ payload.length then
        .ok (slice payload (offset + 2) (offset + 2 + declaredLength payload offset))
      else .error .structError := by
  rw [signatureAt, unpack_field]
  by_cases h : offset + 2 ≤ payload.length
  · rw [if_pos h, if_pos h]
    rfl
  · rw [if_neg h, if_neg h]
    rfl

end Fields

section Hello
variable {payload : Bytes}

/-- Whatever `_unpack_hello` returns is packed at the front of the payload. -/
def HelloComplete (payload : Bytes) : Prop :=
  ∀ cert pub offset, unpackHello payload 0 = .ok (cert, pub, offset) →
    offset ≤ payload.length ∧ packCertAndPubkey cert pub = .ok (payload.take offset)

theorem packCertAndPubkey_read (h : helloEnd payload ≤ payload.length) :
    packCertAndPubkey (slice payload 2 (keyOffset payload))
        (slice payload (keyOffset payload + 2) (helloEnd payload)) =
      .ok (payload.take (helloEnd payload)) := by
  have hkey : keyOffset payload + 2 ≤ helloEnd payload := Nat.le_add_right _ _
  have hcert : 0 + 2 ≤ keyOffset payload := by
    unfold keyOffset
    omega
  have hcertLength : (slice payload 2 (keyOffset payload)).length = declaredLength payload 0 := by
    rw [slice_length]
    unfold keyOffset at hkey ⊢
    omega
  have hkeyLength : (slice payload (keyOffset payload + 2) (helloEnd payload)).length =
      declaredLength payload (keyOffset payload) := by
    rw [slice_length, Nat.min_eq_left h]
    exact Nat.add_sub_cancel_left _ _
  have hjoined : slice payload 0 2 ++ slice payload 2 (keyOffset payload) ++
      slice payload (keyOffset payload) (keyOffset payload + 2) ++
        slice payload (keyOffset payload + 2) (helloEnd payload) = payload.take (helloEnd payload) := by
    rw [slice_append (by omega) (by omega), slice_append (by omega) (by omega),
      slice_append (by omega) hkey]
    rfl
  rw [packCertAndPubkey, hcertLength, hkeyLength, pack_declared (by omega),
    pack_declared (Nat.le_trans hkey h)]
  exact congrArg Except.ok hjoined

theorem helloComplete_iff (payload : Bytes) :
    HelloComplete payload ↔ ¬ CutInField payload (keyOffset payload) := by
  by_cases hlengths : keyOffset payload + 2 ≤ payload.length
  · have hrun := unpackHello_run payload
    rw [if_pos hlengths] at hrun
    rw [not_cut_iff hlengths]
    constructor
    · intro hcomplete
      exact (hcomplete _ _ _ hrun).1
    · intro hpresent cert pub offset hok
      rw [hrun] at hok
      cases hok
      exact ⟨hpresent, packCertAndPubkey_read hpresent⟩
  · constructor
    · intro _ hcut
      exact hlengths hcut.1
    · intro _ cert pub offset hok
      rw [unpackHello_run, if_neg hlengths] at hok
      cases hok

end Hello

section Signature
variable {P : Primitives} {α : Type} {payload : Bytes} {s : Session P}

def serverHelloHead (payload : Bytes) : Py (Session P) (Bytes × Bytes × Bytes) := do
  let (certData, pubData, offset) ← Py.ofExcept (unpackHello payload 0)
  Py.assign fun s => { s with peerPubEph := some pubData }
  let sig ← Py.ofExcept (signatureAt payload offset)
  return (certData, pubData, sig)

def serverHelloRest (coins certData pubData sig : Bytes) : Py (Session P) (List Bytes) := do
  if !(← acceptPeer certData pubData) then
    setState .error
    return []
  let s ← Py.self
  if signatureFails s.peerCert (s.publicEph ++ pubData) sig then
    setState .error
    return []
  clientFinishedReply coins pubData

def finishedHead (payload : Bytes) : Py (Session P) Bytes := Py.ofExcept (signatureAt payload 0)

def finishedRest (sig : Bytes) : Py (Session P) (List Bytes) := do
  let s ← Py.self
  if signatureFails s.peerCert (orEmpty s.peerPubEph ++ s.publicEph) sig then
    setState .error
    return []
  setState .established
  return []

theorem clientHandleServerHello_split (coins payload : Bytes) :
    clientHandleServerHello (P := P) coins payload =
      Py.tryExcept (serverHelloHead payload >>= fun fields =>
        serverHelloRest coins fields.1 fields.2.1 fields.2.2) failHandshake := by
  funext s
  unfold clientHandleServerHello serverHelloHead serverHelloRest
  cases hhello : unpackHello payload 0 with
  | error e => simp
  | ok fields =>
    cases hsig : signatureAt payload fields.2.2 with
    | error e => simp [hsig]
    | ok sig => simp [hsig]

theorem serverHandleClientFinished_split (payload : Bytes) :
    serverHandleClientFinished (P := P) payload =
      Py.tryExcept (finishedHead payload >>= finishedRest) failHandshake := rfl

/-- The statements before the rest of a handler did not raise. -/
def GoesOn (head : Py (Session P) α) (s : Session P) : Prop := ∃ a, (head s).1 = .ok a

/-- A handler goes on past the signature field only if all of it is there, and a payload that
misses part of it ends the handshake in `ERROR`. -/
def SignatureComplete (head : Py (Session P) α) (handler : Py (Session P) (List Bytes))
    (payload : Bytes) (offset : Nat) (s : Session P) : Prop :=
  (GoesOn head s → FieldPresent payload offset) ∧
    (¬ FieldPresent payload offset → ∃ s', handler s = (.ok [], s') ∧ s'.state = .error)

theorem stops_in_error {head : Py (Session P) α} {rest : α → Py (Session P) (List Bytes)}
    (h : ¬ GoesOn head s) :
    ∃ s', Py.tryExcept (head >>= rest) failHandshake s = (.ok [], s') ∧ s'.state = .error := by
  cases hrun : head s with
  | mk r s' =>
    cases r with
    | ok a => exact absurd ⟨a, congrArg Prod.fst hrun⟩ h
    | error e => exact ⟨{ s' with state := .error }, by simp [hrun, failHandshake, setState], rfl⟩

/-- A handler that goes on when the length of the signature is there. -/
theorem signatureComplete_iff {head : Py (Session P) α}
    {rest : α → Py (Session P) (List Bytes)} {offset : Nat}
    (hhead : GoesOn head s ↔ offset + 2 ≤ payload.length) :
    SignatureComplete head (Py.tryExcept (head >>= rest) failHandshake) payload offset s ↔
      ¬ CutInField payload offset := by
  constructor
  · intro hcomplete hcut
    exact FieldPresent.not_cut (hcomplete.1 (hhead.mpr hcut.1)) hcut
  · intro hwhole
    have hpresent : GoesOn head s → FieldPresent payload offset :=
      fun hgoes => (not_cut_iff (hhead.mp hgoes)).mp hwhole
    exact ⟨hpresent, fun hmissing => stops_in_error fun hgoes => hmissing (hpresent hgoes)⟩

theorem serverHelloHead_goesOn (payload : Bytes) (s : Session P) :
    GoesOn (serverHelloHead payload) s ↔ helloEnd payload + 2 ≤ payload.length := by
  have hle : keyOffset payload + 2 ≤ helloEnd payload + 2 := by
    unfold helloEnd
    omega
  unfold GoesOn serverHelloHead
  rw [Py.bind_run, unpackHello_run]
  by_cases hlengths : keyOffset payload + 2 ≤ payload.length
  · by_cases hsig : helloEnd payload + 2 ≤ payload.length
    · simp [hlengths, signatureAt_run, hsig]
    · simp [hlengths, signatureAt_run, hsig]
  · have hshort : ¬ helloEnd payload + 2 ≤ payload.length :=
      fun hsig => hlengths (Nat.le_trans hle hsig)
    simp [hlengths, hshort]

theorem finishedHead_goesOn (payload : Bytes) (s : Session P) :
    GoesOn (finishedHead payload) s ↔ 0 + 2 ≤ payload.length := by
  unfold GoesOn finishedHead
  rw [Py.ofExcept_run, signatureAt_run]
  by_cases hsig : 0 + 2 ≤ payload.length
  · simp [hsig]
  · simp only [hsig, iff_false]
    intro hok
    obtain ⟨sig, hok⟩ := hok
    cases hok

end Signature

/-- Each of the three readers takes complete fields only, exactly on the payloads that do not
end inside its last field. -/
theorem complete_messages_iff {P : Primitives} (s : Session P) (coins payload : Bytes) :
    (HelloComplete payload ↔ ¬ CutInField payload (keyOffset payload)) ∧
    (SignatureComplete (serverHelloHead payload) (clientHandleServerHello coins payload) payload
        (helloEnd payload) s ↔ ¬ CutInField payload (helloEnd payload)) ∧
    (SignatureComplete (finishedHead payload) (serverHandleClientFinished payload) payload 0 s ↔
      ¬ CutInField payload 0) := by
  refine ⟨helloComplete_iff payload, ?_, ?_⟩
  · rw [clientHandleServerHello_split]
    exact signatureComplete_iff (serverHelloHead_goesOn payload s)
  · rw [serverHandleClientFinished_split]
    exact signatureComplete_iff (finishedHead_goesOn payload s)

namespace Transparent

/-- A key of five bytes with two of them there is read as a key of two, and a signature of
64 bytes with none of them there establishes the session. -/
theorem truncated_fields_accepted :
    (unpackHello [0, 0, 0, 5, 97, 98] 0 = .ok ([], [97, 98], 9) ∧
      ¬ HelloComplete [0, 0, 0, 5, 97, 98]) ∧
    (serverHandleClientFinished [0, 64] devServer).2.state = .established ∧
      ¬ SignatureComplete (finishedHead [0, 64]) (serverHandleClientFinished [0, 64]) [0, 64] 0
        devServer := by
  have hread : unpackHello [0, 0, 0, 5, 97, 98] 0 = .ok ([], [97, 98], 9) := by decide
  refine ⟨⟨hread, ?_⟩, rfl, ?_⟩
  · intro hcomplete
    exact absurd (hcomplete _ _ _ hread).1 (by decide)
  · intro hcomplete
    exact absurd (hcomplete.1 ⟨[], rfl⟩) (by decide)

end Transparent
end PyVpn
