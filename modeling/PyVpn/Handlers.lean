import PyVpn.Control

/-! One inversion lemma for each handshake handler: every outcome it can have, with
what it wrote. Later invariants cite these and never unfold a handler again. -/
namespace PyVpn
variable {P : Primitives}

/-- The checks a hello has passed when a session key was derived from it. -/
structure HelloKeyed (s : Session P) (payload certData pubData : Bytes) (offset : Nat)
    (cert : Option P.Certificate) (cipher : Cipher) : Prop where
  unpacked : unpackHello payload 0 = .ok (certData, pubData, offset)
  loaded : loadPeerCert certData = .ok cert
  verified : verifyPeerCert { s with peerCert := cert } = .ok true
  derived : deriveCipher s.privateEph pubData (handshakeSalt s) = .ok cipher

def recordSigned (s : Session P) (data : Bytes) : List Bytes :=
  if truthy s.localKeyPath then data :: s.signed else s.signed

theorem signAs_run (coins data : Bytes) (s : Session P) :
    signAs coins data s =
      (sign (P := P) s.localKeyPath coins data, { s with signed := recordSigned s data }) := by
  unfold signAs recordSigned
  cases h : truthy s.localKeyPath <;> simp [h]

theorem acceptPeer_cases (certData pubData : Bytes) (s : Session P) :
    (∃ r cert, r ≠ .ok true ∧
      acceptPeer certData pubData s = (r, { s with peerCert := cert })) ∨
    (∃ cert cipher, loadPeerCert certData = .ok cert ∧
      verifyPeerCert { s with peerCert := cert } = .ok true ∧
      deriveCipher s.privateEph pubData (handshakeSalt s) = .ok cipher ∧
      acceptPeer certData pubData s =
        (.ok true, { s with peerCert := cert, cipher := some cipher })) := by
  unfold acceptPeer
  cases hc : loadPeerCert (P := P) certData with
  | error e => exact .inl ⟨.error e, s.peerCert, by simp, by simp⟩
  | ok cert =>
    cases hv : verifyPeerCert { s with peerCert := cert } with
    | error e => exact .inl ⟨.error e, cert, by simp, by simp [hv]⟩
    | ok accepted =>
      cases accepted with
      | false => exact .inl ⟨.ok false, cert, by simp, by simp [hv]⟩
      | true =>
        have hsalt : handshakeSalt { s with peerCert := cert } = handshakeSalt s := rfl
        cases hd : deriveCipher s.privateEph pubData (handshakeSalt s) with
        | error e => exact .inl ⟨.error e, cert, by simp, by simp [hv, hsalt, hd]⟩
        | ok cipher => exact .inr ⟨cert, cipher, rfl, hv, rfl, by simp [hv, hsalt, hd]⟩

theorem serverHelloReply_cases (coins pubData : Bytes) (s : Session P) :
    (∃ e, serverHelloReply coins pubData s =
      (.error e, { s with signed := recordSigned s (pubData ++ s.publicEph) })) ∨
    (∃ sig hello sigLen, sign (P := P) s.localKeyPath coins (pubData ++ s.publicEph) = .ok sig ∧
      packCertAndPubkey (orEmpty s.localCertBytes) s.publicEph = .ok hello ∧
      pack 2 sig.length = .ok sigLen ∧
      serverHelloReply coins pubData s =
        (.ok [encodeHandshakeMessage .serverHello s.sid (hello ++ sigLen ++ sig)],
          { s with state := .helloSent, signed := recordSigned s (pubData ++ s.publicEph) })) := by
  unfold serverHelloReply setState
  cases hs : sign (P := P) s.localKeyPath coins (pubData ++ s.publicEph) with
  | error e => exact .inl ⟨e, by simp [signAs_run, hs]⟩
  | ok sig =>
    cases hp : packCertAndPubkey (orEmpty s.localCertBytes) s.publicEph with
    | error e => exact .inl ⟨e, by simp [signAs_run, hs, hp]⟩
    | ok hello =>
      cases hl : pack 2 sig.length with
      | error e => exact .inl ⟨e, by simp [signAs_run, hs, hp, hl]⟩
      | ok sigLen => exact .inr ⟨sig, hello, sigLen, rfl, rfl, hl, by simp [signAs_run, hs, hp, hl]⟩

theorem clientFinishedReply_run {coins pubData sig sigLen : Bytes} {s : Session P}
    (hsign : sign (P := P) s.localKeyPath coins (s.publicEph ++ pubData) = .ok sig)
    (hpack : pack 2 sig.length = .ok sigLen) :
    clientFinishedReply coins pubData s =
      (.ok [encodeHandshakeMessage .clientFinished s.sid (sigLen ++ sig)],
        { s with state := .established, signed := recordSigned s (s.publicEph ++ pubData) }) := by
  have hpub : Session.publicEph { s with state := .established } = s.publicEph := rfl
  simp only [clientFinishedReply, setState, Py.bind_run, Py.assign_run, Py.self_run, signAs_run,
    hpub, hsign, Py.ofExcept_run, hpack, Py.pure_run]
  rfl

theorem clientFinishedReply_cases (coins pubData : Bytes) (s : Session P) :
    (∃ e, clientFinishedReply coins pubData s = (.error e,
      { s with state := .established, signed := recordSigned s (s.publicEph ++ pubData) })) ∨
    (∃ sig sigLen, sign (P := P) s.localKeyPath coins (s.publicEph ++ pubData) = .ok sig ∧
      pack 2 sig.length = .ok sigLen ∧
      clientFinishedReply coins pubData s =
        (.ok [encodeHandshakeMessage .clientFinished s.sid (sigLen ++ sig)],
          { s with state := .established, signed := recordSigned s (s.publicEph ++ pubData) })) := by
  unfold clientFinishedReply setState
  have hpub : Session.publicEph { s with state := .established } = s.publicEph := rfl
  cases hs : sign (P := P) s.localKeyPath coins (s.publicEph ++ pubData) with
  | error e => exact .inl ⟨e, by simp [signAs_run, hpub, hs]; rfl⟩
  | ok sig =>
    cases hl : pack 2 sig.length with
    | error e => exact .inl ⟨e, by simp [signAs_run, hpub, hs, hl]; rfl⟩
    | ok sigLen => exact .inr ⟨sig, sigLen, rfl, hl, clientFinishedReply_run hs hl⟩

theorem clientStartHandshake_run (s : Session P) :
    clientStartHandshake s =
      (.ok [encodePacket .hardResetClient s.sid []], { s with state := .resetSent }) := by
  simp only [clientStartHandshake, setState, Py.bind_run, Py.assign_run, Py.self_run, Py.pure_run]
  rfl

theorem serverHandleReset_cases (now : Time) (raw : Bytes) (s : Session P) :
    ((∀ sid payload, decodePacket raw ≠ .ok (.hardResetClient, sid, payload)) ∧
      ∃ r, serverHandleReset now raw s = (r, s) ∧ ∀ packets, r = .ok packets → packets = []) ∨
    (∃ sid payload, decodePacket raw = .ok (.hardResetClient, sid, payload) ∧
      serverHandleReset now raw s = (.ok [encodePacket .hardResetServer s.sid []],
        { s with peerSessionId := some (packQ sid), state := .resetRcvd, lastRx := now })) := by
  unfold serverHandleReset
  cases hd : decodePacket raw with
  | error e => exact .inl ⟨by simp, .error e, by simp, by simp⟩
  | ok r =>
    obtain ⟨opcode, sid, payload⟩ := r
    by_cases ho : opcode = .hardResetClient
    · subst ho
      refine .inr ⟨sid, payload, rfl, ?_⟩
      simp only [Py.bind_run, Py.ofExcept_run, ne_eq, not_true_eq_false, ite_false, Py.assign_run,
        Py.self_run, Py.pure_run]
      rfl
    · exact .inl ⟨by simp [ho], .ok [], by simp [ho], by simp⟩

theorem clientHandleResetAck_cases (raw : Bytes) (s : Session P) :
    ((∀ sid payload, decodePacket raw ≠ .ok (.hardResetServer, sid, payload)) ∧
      ∃ r, clientHandleResetAck raw s = (r, s) ∧ ∀ packets, r = .ok packets → packets = []) ∨
    (∃ sid payload r, decodePacket raw = .ok (.hardResetServer, sid, payload) ∧
      clientHandleResetAck raw s =
        (r, { s with peerSessionId := some (packQ sid), state := .resetRcvd }) ∧
      ∀ packets, r = .ok packets → ∃ inner,
        packCertAndPubkey (orEmpty s.localCertBytes) s.publicEph = .ok inner ∧
        packets = [encodeHandshakeMessage .clientHello s.sid inner]) := by
  unfold clientHandleResetAck
  cases hd : decodePacket raw with
  | error e => exact .inl ⟨by simp, .error e, by simp, by simp⟩
  | ok r =>
    obtain ⟨opcode, sid, payload⟩ := r
    by_cases ho : opcode = .hardResetServer
    · subst ho
      refine .inr ⟨sid, payload, ?_⟩
      have hpub : Session.publicEph { s with peerSessionId := some (packQ sid), state := .resetRcvd } =
        s.publicEph := rfl
      cases hp : packCertAndPubkey (orEmpty s.localCertBytes) s.publicEph with
      | error e => exact ⟨.error e, rfl, by simp [hpub, hp], by simp⟩
      | ok inner =>
        exact ⟨.ok [encodeHandshakeMessage .clientHello s.sid inner], rfl,
          by simp [hpub, hp]; rfl, by simp⟩
    · exact .inl ⟨by simp [ho], .ok [], by simp [ho], by simp⟩

/-- A `CLIENT_HELLO` ends in `ERROR` or is answered. When the answer was already
signed, the hello had passed every check. -/
theorem serverHandleClientHello_cases (coins payload : Bytes) (s : Session P) :
    (∃ pub cert cipher signed,
      serverHandleClientHello coins payload s = (.ok [], { s with
        peerPubEph := pub, peerCert := cert, cipher := cipher, state := .error
        signed := signed }) ∧
      (signed = s.signed ∨ ∃ certData pubData offset cert cipher,
        HelloKeyed s payload certData pubData offset cert cipher ∧
        signed = recordSigned s (pubData ++ s.publicEph)) ∧
      (cipher = s.cipher ∨ ∃ certData pubData offset cert derived,
        HelloKeyed s payload certData pubData offset cert derived ∧ cipher = some derived)) ∨
    (∃ certData pubData offset cert cipher sig hello sigLen,
      HelloKeyed s payload certData pubData offset cert cipher ∧
      sign (P := P) s.localKeyPath coins (pubData ++ s.publicEph) = .ok sig ∧
      packCertAndPubkey (orEmpty s.localCertBytes) s.publicEph = .ok hello ∧
      pack 2 sig.length = .ok sigLen ∧
      serverHandleClientHello coins payload s =
        (.ok [encodeHandshakeMessage .serverHello s.sid (hello ++ sigLen ++ sig)], { s with
          peerPubEph := some pubData, peerCert := cert, cipher := some cipher, state := .helloSent
          signed := recordSigned s (pubData ++ s.publicEph) })) := by
  unfold serverHandleClientHello failHandshake setState
  cases hu : unpackHello payload 0 with
  | error e =>
    exact .inl ⟨s.peerPubEph, s.peerCert, s.cipher, s.signed, by simp, .inl rfl, .inl rfl⟩
  | ok r =>
    obtain ⟨certData, pubData, offset⟩ := r
    obtain ⟨r, cert, hr, ha⟩ | ⟨cert, cipher, hc, hv, hd, ha⟩ :=
      acceptPeer_cases certData pubData { s with peerPubEph := some pubData }
    · refine .inl ⟨some pubData, cert, s.cipher, s.signed, ?_, .inl rfl, .inl rfl⟩
      cases r with
      | error e => simp [ha]
      | ok accepted => cases accepted <;> simp_all
    · have hk : HelloKeyed s payload certData pubData offset cert cipher := ⟨hu, hc, hv, hd⟩
      obtain ⟨e, hr⟩ | ⟨sig, hello, sigLen, hs, hp, hl, hr⟩ := serverHelloReply_cases coins pubData
        { s with peerPubEph := some pubData, peerCert := cert, cipher := some cipher }
      · exact .inl ⟨some pubData, cert, some cipher, recordSigned s (pubData ++ s.publicEph),
          by simp [ha, hr]; rfl, .inr ⟨certData, pubData, offset, cert, cipher, hk, rfl⟩,
          .inr ⟨certData, pubData, offset, cert, cipher, hk, rfl⟩⟩
      · exact .inr ⟨certData, pubData, offset, cert, cipher, sig, hello, sigLen, hk, hs, hp, hl,
          by simp [ha, hr]; exact ⟨rfl, rfl⟩⟩

/-- A `SERVER_HELLO` ends in `ERROR`, or its signature field was checked and the
client is established. -/
theorem clientHandleServerHello_cases (coins payload : Bytes) (s : Session P) :
    (∃ pub cert cipher signed,
      clientHandleServerHello coins payload s = (.ok [], { s with
        peerPubEph := pub, peerCert := cert, cipher := cipher, state := .error
        signed := signed }) ∧
      (signed = s.signed ∨ ∃ certData pubData offset cert cipher,
        HelloKeyed s payload certData pubData offset cert cipher ∧
        signed = recordSigned s (s.publicEph ++ pubData)) ∧
      (cipher = s.cipher ∨ ∃ certData pubData offset cert derived,
        HelloKeyed s payload certData pubData offset cert derived ∧ cipher = some derived)) ∨
    (∃ certData pubData offset cert cipher sig finishSig sigLen,
      HelloKeyed s payload certData pubData offset cert cipher ∧
      signatureAt payload offset = .ok sig ∧
      signatureFails cert (s.publicEph ++ pubData) sig = false ∧
      sign (P := P) s.localKeyPath coins (s.publicEph ++ pubData) = .ok finishSig ∧
      pack 2 finishSig.length = .ok sigLen ∧
      clientHandleServerHello coins payload s =
        (.ok [encodeHandshakeMessage .clientFinished s.sid (sigLen ++ finishSig)], { s with
          peerPubEph := some pubData, peerCert := cert, cipher := some cipher, state := .established
          signed := recordSigned s (s.publicEph ++ pubData) })) := by
  unfold clientHandleServerHello failHandshake setState
  cases hu : unpackHello payload 0 with
  | error e =>
    exact .inl ⟨s.peerPubEph, s.peerCert, s.cipher, s.signed, by simp, .inl rfl, .inl rfl⟩
  | ok r =>
    obtain ⟨certData, pubData, offset⟩ := r
    cases hsig : signatureAt payload offset with
    | error e =>
      exact .inl ⟨some pubData, s.peerCert, s.cipher, s.signed, by simp [hsig], .inl rfl, .inl rfl⟩
    | ok sig =>
      obtain ⟨r, cert, hr, ha⟩ | ⟨cert, cipher, hc, hv, hd, ha⟩ :=
        acceptPeer_cases certData pubData { s with peerPubEph := some pubData }
      · refine .inl ⟨some pubData, cert, s.cipher, s.signed, ?_, .inl rfl, .inl rfl⟩
        cases r with
        | error e => simp [hsig, ha]
        | ok accepted => cases accepted <;> simp_all
      · have hk : HelloKeyed s payload certData pubData offset cert cipher := ⟨hu, hc, hv, hd⟩
        have hpub : Session.publicEph
            { s with peerPubEph := some pubData, peerCert := cert, cipher := some cipher } =
          s.publicEph := rfl
        cases hf : signatureFails cert (s.publicEph ++ pubData) sig with
        | true =>
          exact .inl ⟨some pubData, cert, some cipher, s.signed,
            by simp [hsig, ha, hpub, hf], .inl rfl,
            .inr ⟨certData, pubData, offset, cert, cipher, hk, rfl⟩⟩
        | false =>
          obtain ⟨e, hr⟩ | ⟨finishSig, sigLen, hs, hl, hr⟩ := clientFinishedReply_cases coins pubData
            { s with peerPubEph := some pubData, peerCert := cert, cipher := some cipher }
          · exact .inl ⟨some pubData, cert, some cipher, recordSigned s (s.publicEph ++ pubData),
              by simp [hsig, ha, hpub, hf, hr]; rfl,
              .inr ⟨certData, pubData, offset, cert, cipher, hk, rfl⟩,
              .inr ⟨certData, pubData, offset, cert, cipher, hk, rfl⟩⟩
          · exact .inr ⟨certData, pubData, offset, cert, cipher, sig, finishSig, sigLen, hk, hsig,
              hf, hs, hl, by simp [hsig, ha, hpub, hf, hr]; exact ⟨rfl, rfl⟩⟩

theorem clientHandleServerHello_run {coins payload certData pubData sig finishSig sigLen : Bytes}
    {offset : Nat} {cert : Option P.Certificate} {cipher : Cipher} {s : Session P}
    (hkeyed : HelloKeyed s payload certData pubData offset cert cipher)
    (hsig : signatureAt payload offset = .ok sig)
    (hpass : signatureFails cert (s.publicEph ++ pubData) sig = false)
    (hsign : sign (P := P) s.localKeyPath coins (s.publicEph ++ pubData) = .ok finishSig)
    (hpack : pack 2 finishSig.length = .ok sigLen) :
    clientHandleServerHello coins payload s =
      (.ok [encodeHandshakeMessage .clientFinished s.sid (sigLen ++ finishSig)], { s with
        peerPubEph := some pubData, peerCert := cert, cipher := some cipher, state := .established
        signed := recordSigned s (s.publicEph ++ pubData) }) := by
  have haccept : acceptPeer certData pubData { s with peerPubEph := some pubData } =
      (.ok true, { s with
        peerPubEph := some pubData, peerCert := cert, cipher := some cipher }) := by
    have hverified : verifyPeerCert { s with peerPubEph := some pubData, peerCert := cert } =
      .ok true := hkeyed.verified
    have hderived : deriveCipher s.privateEph pubData
        (handshakeSalt { s with peerPubEph := some pubData, peerCert := cert }) = .ok cipher :=
      hkeyed.derived
    simp [acceptPeer, hkeyed.loaded, hverified, hderived]
  have hpub : Session.publicEph
      { s with peerPubEph := some pubData, peerCert := cert, cipher := some cipher } =
    s.publicEph := rfl
  have hreply : clientFinishedReply coins pubData { s with
      peerPubEph := some pubData, peerCert := cert, cipher := some cipher } =
      (.ok [encodeHandshakeMessage .clientFinished s.sid (sigLen ++ finishSig)], { s with
        peerPubEph := some pubData, peerCert := cert, cipher := some cipher, state := .established
        signed := recordSigned s (s.publicEph ++ pubData) }) :=
    clientFinishedReply_run hsign hpack
  unfold clientHandleServerHello
  simp [hkeyed.unpacked, hsig, haccept, hpub, hpass, hreply]

/-- The signature of a `CLIENT_FINISHED` is missing, cut short, or fails under the
certificate the session holds. -/
def FinishedRefused (s : Session P) (payload : Bytes) : Prop :=
  ∀ sig, signatureAt payload 0 = .ok sig →
    signatureFails s.peerCert (orEmpty s.peerPubEph ++ s.publicEph) sig = true

theorem serverHandleClientFinished_cases (payload : Bytes) (s : Session P) :
    (FinishedRefused s payload ∧
      serverHandleClientFinished payload s = (.ok [], { s with state := .error })) ∨
    (∃ sig, signatureAt payload 0 = .ok sig ∧
      signatureFails s.peerCert (orEmpty s.peerPubEph ++ s.publicEph) sig = false ∧
      serverHandleClientFinished payload s = (.ok [], { s with state := .established })) := by
  unfold serverHandleClientFinished failHandshake setState FinishedRefused
  cases hsig : signatureAt payload 0 with
  | error e => exact .inl ⟨by simp, by simp⟩
  | ok sig =>
    cases hf : signatureFails s.peerCert (orEmpty s.peerPubEph ++ s.publicEph) sig with
    | true => exact .inl ⟨by simpa using hf, by simp [hf]⟩
    | false => exact .inr ⟨sig, rfl, hf, by simp [hf]⟩

end PyVpn
