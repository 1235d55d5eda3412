import PyVpn.ChannelMatch
import PyVpn.ServerAuth

/-! The client's side of authentication. `client_handle_server_hello` writes key,
certificate and cipher before it checks the signature, but it leaves only in `ERROR`
or with every check passed. -/
namespace PyVpn
open EventRun
variable {P : Primitives}

def ClientCall.isServerHello : ClientCall → Bool
  | .serverHello _ _ => true
  | _ => false

/-- The server is authenticated: its certificate is one of the CA's, the last
`SERVER_HELLO` carried a signature under it over both ephemeral keys, and the cipher
comes from the ephemeral key that was signed. -/
structure ServerAuthenticated (caPath : String) (calls : List ClientCall) (s : Session P) :
    Prop where
  keyed : KeyCoherent s
  signed : ∃ cert pubData, s.peerCert = some cert ∧ CertifiedBy caPath cert ∧
    s.peerPubEph = some pubData ∧
    ∃ before coins payload after certData offset sig,
      calls = before ++ .serverHello coins payload :: after ∧
      (∀ c ∈ after, c.isServerHello = false) ∧
      unpackHello payload 0 = .ok (certData, pubData, offset) ∧
      signatureAt payload offset = .ok sig ∧ verify cert (s.publicEph ++ pubData) sig = true

theorem HelloKeyed.certified {s : Session P} {payload certData pubData : Bytes} {offset : Nat}
    {cert : Option P.Certificate} {cipher : Cipher} {caPath : String} (hca : s.caPath = some caPath)
    (hne : caPath ≠ "") (h : HelloKeyed s payload certData pubData offset cert cipher) :
    ∃ c, cert = some c ∧ CertifiedBy caPath c := by
  have hauth : Session.caPath { s with peerCert := cert } = some caPath := hca
  exact (verifyPeerCert_auth hauth hne).mp h.verified

theorem clientCall_established {s : Session P} {c : ClientCall} (hc : c.isServerHello = false)
    (hest : (clientCall s c).state = .established) : clientCall s c = s := by
  have houtcome := clientCall_outcome s c
  generalize clientCall s c = t at hest houtcome ⊢
  cases houtcome with
  | start => cases hest
  | ackIgnored => rfl
  | ack => cases hest
  | helloFailed => cases hc
  | helloAccepted => cases hc

theorem serverAuthenticated_later {caPath : String} {calls : List ClientCall} {s : Session P}
    (h : ServerAuthenticated caPath calls s) {c : ClientCall} (hc : c.isServerHello = false) :
    ServerAuthenticated caPath (calls ++ [c]) s := by
  obtain ⟨cert, pubData, hcert, hby, hpub, before, coins, payload, after, certData, offset, sig,
    hsplit, hafter, hcheck⟩ := h.signed
  refine ⟨h.keyed, cert, pubData, hcert, hby, hpub, before, coins, payload, after ++ [c], certData,
    offset, sig, by simp [hsplit], ?_, hcheck⟩
  intro d hd
  cases List.mem_append.mp hd with
  | inl hold => exact hafter d hold
  | inr hnew => exact List.mem_singleton.mp hnew ▸ hc

theorem serverAuthenticated_step {caPath : String} (hne : caPath ≠ "") (calls : List ClientCall)
    (c : ClientCall) (s : Session P) (hca : s.caPath = some caPath)
    (ih : s.state = .established → ServerAuthenticated caPath calls s)
    (hest : (clientCall s c).state = .established) :
    ServerAuthenticated caPath (calls ++ [c]) (clientCall s c) := by
  cases hc : c.isServerHello with
  | false =>
    have hsame := clientCall_established hc hest
    rw [hsame] at hest ⊢
    exact serverAuthenticated_later (ih hest) hc
  | true =>
    have houtcome := clientCall_outcome s c
    generalize clientCall s c = t at hest houtcome ⊢
    cases houtcome with
    | start => cases hc
    | ackIgnored => cases hc
    | ack => cases hc
    | helloFailed => cases hest
    | helloAccepted coins payload certData pubData sig _ _ offset _ cipher hkeyed hsig hpass =>
      obtain ⟨found, rfl, hby⟩ := hkeyed.certified hca hne
      have hverify := signatureFails_some.mp hpass
      constructor
      · exact ⟨pubData, cipher, rfl, rfl, hkeyed.derived⟩
      · exact ⟨found, pubData, rfl, hby, rfl, calls, coins, payload, [], certData, offset, sig,
          rfl, by simp, hkeyed.unpacked, hsig, hverify⟩

/-- A `SERVER_HELLO` that raises somewhere, or fails a check, ends in `ERROR` unanswered. -/
theorem serverHello_not_accepted {s : Session P} {coins payload : Bytes}
    (h : ∀ pubData, ¬ HelloAccepted s coins payload pubData) :
    (clientHandleServerHello coins payload s).1 = .ok [] ∧
      (clientHandleServerHello coins payload s).2.state = .error := by
  obtain ⟨_, _, _, _, hrun, -⟩ |
    ⟨certData, pubData, offset, cert, cipher, sig, finishSig, sigLen, hkeyed, hsig, hpass, hsign,
      hpack, -⟩ := clientHandleServerHello_cases coins payload s
  · simp only [hrun, and_self]
  · exact absurd ⟨certData, offset, cert, cipher, sig, finishSig, sigLen, hkeyed, hsig, hpass,
      hsign, hpack⟩ (h pubData)

/-- An established client session with a CA has authenticated the server it derived
its key with, whatever calls were made; a `SERVER_HELLO` it does not accept leaves
`ERROR` and nothing to send. -/
theorem client_authenticates_server (caPath : String) (s₀ : Session P)
    (h₀ : AuthPrepared false caPath s₀) (calls : List ClientCall) :
    let s := run clientCall calls s₀
    (s.state = .established → ServerAuthenticated caPath calls s) ∧
      ∀ coins payload, (∀ pubData, ¬ HelloAccepted s coins payload pubData) →
        (clientHandleServerHello coins payload s).1 = .ok [] ∧
          (clientHandleServerHello coins payload s).2.state = .error := by
  refine ⟨?_, fun coins payload h => serverHello_not_accepted h⟩
  have hca (before : List ClientCall) : (run clientCall before s₀).caPath = some caPath :=
    (clientRun_setup before s₀).caPath.trans h₀.caPath
  have hall : Meets clientCall (fun _ _ => True) calls s₀ := by
    rw [meets_iff_split]
    exact fun _ _ _ _ => trivial
  refine history_run (I := fun calls s => s.state = .established →
    ServerAuthenticated caPath calls s) ?_ ?_ calls hall
  · intro hest
    simp [h₀.prepared.idle] at hest
  · intro u c ih _
    exact serverAuthenticated_step h₀.1 u c _ (hca u) ih

namespace Transparent

theorem authClient_prepared : AuthPrepared false "ca.crt" authClient :=
  ⟨by decide, draw 7, "client.crt", "client.key", rfl⟩

def authClientCalls : List ClientCall :=
  [.start, .resetAck (resetAckPacket 5),
    .serverHello [] (hello [1, 100] 5 ++ signatureField 1 7 5)]

/-- The client of an honest handshake, which then rejects a hello without certificate. -/
theorem client_authenticates_server_handshake :
    let s := run clientCall authClientCalls authClient
    ServerAuthenticated "ca.crt" authClientCalls s ∧
      (clientHandleServerHello [] (hello [] 5 ++ [0, 0]) s).1 = .ok [] := by
  have h := client_authenticates_server "ca.crt" authClient authClient_prepared authClientCalls
  refine ⟨h.1 (by decide), (h.2 [] _ ?_).1⟩
  intro pubData haccepted
  obtain ⟨certData, offset, cert, cipher, sig, finishSig, sigLen, hkeyed, -⟩ := haccepted
  have hunpacked : unpackHello (hello [] 5 ++ [0, 0]) 0 = .ok ([], (keyOf 5).val, 36) := by
    decide
  cases hunpacked.symm.trans hkeyed.unpacked
  have hloaded : loadPeerCert (P := primitives) [] = .ok none := rfl
  cases hloaded.symm.trans hkeyed.loaded
  have hverified := hkeyed.verified
  cases hverified

end Transparent
end PyVpn
