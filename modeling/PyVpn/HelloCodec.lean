import PyVpn.ClientSteps
import PyVpn.ServerSteps

/-! The nested fields of the handshake messages: header, type byte, two length-prefixed
fields, signature. Whatever the fields hold and whatever follows the packet, the receiver
reads what was written. -/
namespace PyVpn
open BigEndian

theorem slice_field (front body rest : Bytes) :
    let payload := front ++ (be 2 body.length ++ (body ++ rest))
    slice payload front.length (front.length + 2) = be 2 body.length ∧
      slice payload (front.length + 2) (front.length + 2 + body.length) = body := by
  have hlength : (front ++ be 2 body.length).length = front.length + 2 := by
    rw [List.length_append, be_length]
  have hlen := slice_middle front (be 2 body.length) (body ++ rest)
  have hbody := slice_middle (front ++ be 2 body.length) body rest
  rw [be_length] at hlen
  rw [hlength, List.append_assoc] at hbody
  exact ⟨hlen, hbody⟩

theorem unpackHello_packed {cert pub inner : Bytes} (h : packCertAndPubkey cert pub = .ok inner)
    (rest : Bytes) : unpackHello (inner ++ rest) 0 = .ok (cert, pub, inner.length) := by
  obtain ⟨certLen, hcert, h⟩ := bind_eq_ok.mp h
  obtain ⟨pubLen, hpub, h⟩ := bind_eq_ok.mp h
  obtain ⟨hcertLt, rfl⟩ := pack_eq_ok hcert
  obtain ⟨hpubLt, rfl⟩ := pack_eq_ok hpub
  cases h
  have hfront : (be 2 cert.length ++ cert).length = 2 + cert.length := by
    rw [List.length_append, be_length]
  obtain ⟨hcertLen, hcertBody⟩ := slice_field [] cert (be 2 pub.length ++ (pub ++ rest))
  obtain ⟨hpubLen, hpubBody⟩ := slice_field (be 2 cert.length ++ cert) pub rest
  simp only [List.nil_append, List.length_nil, Nat.zero_add] at hcertLen hcertBody
  simp only [hfront, List.append_assoc] at hpubLen hpubBody
  simp only [unpackHello, List.append_assoc, Nat.zero_add, hcertLen, hcertBody, hpubLen, hpubBody,
    unpack_be hcertLt, unpack_be hpubLt, bind, Except.bind, pure, Except.pure, List.length_append,
    be_length]
  have hoffset : 2 + cert.length + 2 + pub.length = 2 + (cert.length + (2 + pub.length)) := by omega
  rw [hoffset]

theorem packCertAndPubkey_run {cert pub : Bytes} (hcert : cert.length ≤ 65535)
    (hpub : pub.length ≤ 65535) : ∃ inner, packCertAndPubkey cert pub = .ok inner := by
  have hcertLt : cert.length < 256 ^ 2 := by omega
  have hpubLt : pub.length < 256 ^ 2 := by omega
  rw [packCertAndPubkey, pack_ok hcertLt, pack_ok hpubLt]
  exact ⟨_, rfl⟩

theorem signatureAt_packed {sig sigLen : Bytes} (h : pack 2 sig.length = .ok sigLen)
    (front rest : Bytes) :
    signatureAt (front ++ (sigLen ++ (sig ++ rest))) front.length = .ok sig := by
  obtain ⟨hlt, rfl⟩ := pack_eq_ok h
  obtain ⟨hlength, hbody⟩ := slice_field front sig rest
  rw [signatureAt, hlength, unpack_be hlt]
  exact congrArg Except.ok hbody

section Dispatch

/-- Bytes behind a handshake message are bytes behind its content. -/
theorem encodeHandshakeMessage_append (msgType : MessageType) (sid : UInt64) (body rest : Bytes) :
    encodeHandshakeMessage msgType sid body ++ rest =
      encodeHandshakeMessage msgType sid (body ++ rest) := by
  simp [encodeHandshakeMessage, encodePacket]

theorem serverCallOf_message (now : Time) (coins : Bytes) (msgType : MessageType) (sid : UInt64)
    (body : Bytes) :
    serverCallOf now coins (encodeHandshakeMessage msgType sid body) =
      match msgType with
      | .clientHello => some (.clientHello coins body)
      | .clientFinished => some (.clientFinished body)
      | _ => none := by
  have hreset : (encodeHandshakeMessage msgType sid body).headD 0 ≠
      Opcode.hardResetClient.value := (by decide : Opcode.control.value ≠ _)
  have hcontrol : (encodeHandshakeMessage msgType sid body).headD 0 = Opcode.control.value := rfl
  rw [serverCallOf, if_neg hreset, if_pos hcontrol, controlCall, encodeHandshakeMessage,
    decodePacket_encodePacket]
  simp only [List.headD_cons, messageType_ofValue_value, List.drop_one, List.tail_cons]
  cases msgType <;> rfl

theorem clientCallOf_serverHello (coins : Bytes) (sid : UInt64) (body : Bytes) :
    clientCallOf coins (encodeHandshakeMessage .serverHello sid body) =
      some (.serverHello coins body) := by
  have hreset : (encodeHandshakeMessage .serverHello sid body).headD 0 ≠
      Opcode.hardResetServer.value := (by decide : Opcode.control.value ≠ _)
  have hcontrol : (encodeHandshakeMessage .serverHello sid body).headD 0 =
      Opcode.control.value := rfl
  rw [clientCallOf, if_neg hreset, if_pos hcontrol, encodeHandshakeMessage,
    decodePacket_encodePacket]
  simp only [List.headD_cons, messageType_ofValue_value, List.drop_one, List.tail_cons]

end Dispatch

/-- The handshake messages as they are built decode to the same session id, message type,
certificate, key and signature, whatever bytes follow the packet. -/
theorem handshake_messages_decode (sid : SessionId) (cert pub sig : Bytes)
    (hcert : cert.length ≤ 65535) (hpub : pub.length ≤ 65535) (hsig : sig.length ≤ 65535) :
    ∃ hello sigLen, packCertAndPubkey cert pub = .ok hello ∧ pack 2 sig.length = .ok sigLen ∧
      ∀ rest now coins,
        (∀ msgType body,
          decodePacket (encodeHandshakeMessage msgType (intOfBytes sid.val) body ++ rest) =
              .ok (.control, intOfBytes sid.val, msgType.value :: (body ++ rest)) ∧
            packQ (intOfBytes sid.val) = sid ∧ MessageType.ofValue msgType.value = .ok msgType) ∧
        (∃ payload, serverCallOf now coins
            (encodeHandshakeMessage .clientHello (intOfBytes sid.val) hello ++ rest) =
              some (.clientHello coins payload) ∧
          unpackHello payload 0 = .ok (cert, pub, hello.length)) ∧
        (∃ payload, clientCallOf coins
            (encodeHandshakeMessage .serverHello (intOfBytes sid.val) (hello ++ sigLen ++ sig) ++
              rest) = some (.serverHello coins payload) ∧
          unpackHello payload 0 = .ok (cert, pub, hello.length) ∧
          signatureAt payload hello.length = .ok sig) ∧
        (∃ payload, serverCallOf now coins
            (encodeHandshakeMessage .clientFinished (intOfBytes sid.val) (sigLen ++ sig) ++ rest) =
              some (.clientFinished payload) ∧
          signatureAt payload 0 = .ok sig) := by
  obtain ⟨hello, hhello⟩ := packCertAndPubkey_run hcert hpub
  have hsigLen : pack 2 sig.length = .ok (be 2 sig.length) := pack_ok (by omega)
  refine ⟨hello, be 2 sig.length, hhello, hsigLen, ?_⟩
  intro rest now coins
  refine ⟨?_, ?_, ?_, ?_⟩
  · intro msgType body
    rw [encodeHandshakeMessage_append]
    exact ⟨decodePacket_encodePacket _ _ _, packQ_intOfBytes sid, messageType_ofValue_value msgType⟩
  · refine ⟨hello ++ rest, ?_, unpackHello_packed hhello rest⟩
    rw [encodeHandshakeMessage_append, serverCallOf_message]
  · refine ⟨hello ++ (be 2 sig.length ++ (sig ++ rest)), ?_, unpackHello_packed hhello _,
      signatureAt_packed hsigLen hello rest⟩
    rw [encodeHandshakeMessage_append, clientCallOf_serverHello]
    simp
  · refine ⟨be 2 sig.length ++ (sig ++ rest), ?_, signatureAt_packed hsigLen [] rest⟩
    rw [encodeHandshakeMessage_append, serverCallOf_message]
    simp

/-- Fields that look like lengths, behind them more of the same. -/
theorem handshake_messages_decode_imitated :
    ∃ hello sigLen, packCertAndPubkey [0, 2] [0, 1] = .ok hello ∧ pack 2 1 = .ok sigLen ∧
      unpackHello (hello ++ (sigLen ++ ([0] ++ [0, 5]))) 0 = .ok ([0, 2], [0, 1], hello.length) ∧
      signatureAt (hello ++ (sigLen ++ ([0] ++ [0, 5]))) hello.length = .ok [0] := by
  obtain ⟨hello, sigLen, hhello, hsigLen, hdecode⟩ :=
    handshake_messages_decode ⟨List.replicate 8 0, rfl⟩ [0, 2] [0, 1] [0]
      (by decide) (by decide) (by decide)
  obtain ⟨-, -, ⟨payload, hcall, hunpack, hsignature⟩, -⟩ := hdecode [0, 5] 0 []
  rw [encodeHandshakeMessage_append, clientCallOf_serverHello] at hcall
  cases hcall
  refine ⟨hello, sigLen, hhello, hsigLen, ?_, ?_⟩
  · simpa using hunpack
  · simpa using hsignature

end PyVpn
