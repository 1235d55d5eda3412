import PyVpn.KeyAgreement
import PyVpn.RoleSeparation

/-! The handshake of two honest sessions whose packets arrive, with certificates or without:
each handler accepts what the other side sent. -/
namespace PyVpn
open BigEndian EventRun
variable {P : Primitives}

/-- What an endpoint with this configuration makes of a fresh session. -/
def Configured (config : Config) (isServer : Bool) (draw : SessionDraw P) (s : Session P) : Prop :=
  match config.authPaths with
  | none => s = Session.new draw isServer
  | some (ca, cert, key) => configure ca cert key (Session.new draw isServer) = (.ok (), s)

/-- The certificate of `sender` is accepted by `verifier`, and so is every signature made with
the key of `sender` over two public keys. -/
structure Presents (sender verifier : Session P) : Prop where
  certLength : (orEmpty sender.localCertBytes).length ≤ 65535
  accepted : ∃ cert, loadPeerCert (orEmpty sender.localCertBytes) = .ok cert ∧
    verifyPeerCert { verifier with peerCert := cert } = .ok true ∧
    ∀ coins data, data.length = 64 → ∃ sig,
      sign (P := P) sender.localKeyPath coins data = .ok sig ∧ sig.length ≤ 65535 ∧
        signatureFails cert data sig = false

structure MutualTrust (P : Primitives) (serverConfig clientConfig : Config) : Prop where
  server : ∀ draw : SessionDraw P, ∃ s, Configured serverConfig true draw s
  client : ∀ draw : SessionDraw P, ∃ c, Configured clientConfig false draw c
  presents : ∀ {draw draw' : SessionDraw P} {s c : Session P}, Configured serverConfig true draw s →
    Configured clientConfig false draw' c → Presents c s ∧ Presents s c

/-- X25519 and HKDF give a key for every pair of generated keys. -/
structure HonestExchange (P : Primitives) : Prop where
  derives : ∀ (a b : P.X25519PrivateKey) (salt : Bytes),
    ∃ key, deriveCipher a (P.publicBytes (P.publicKey b)) salt = .ok key

section Sessions
variable {config : Config} {isServer : Bool} {draw : SessionDraw P} {c s t u : Session P}

theorem Configured.prepared (h : Configured config isServer draw s) : Prepared isServer s := by
  unfold Configured at h
  cases hpaths : config.authPaths with
  | none =>
    rw [hpaths] at h
    exact ⟨draw, .inl h⟩
  | some paths =>
    rw [hpaths] at h
    exact ⟨draw, .inr ⟨paths.1, paths.2.1, paths.2.2, (congrArg Prod.snd h).symm⟩⟩

theorem mutualTrust_dev {serverConfig clientConfig : Config} (hserver : serverConfig.authPaths = none)
    (hclient : clientConfig.authPaths = none) : MutualTrust P serverConfig clientConfig := by
  have hfresh {config : Config} (hpaths : config.authPaths = none) (isServer : Bool)
      (draw : SessionDraw P) (s : Session P) :
      Configured config isServer draw s ↔ s = Session.new draw isServer := by
    unfold Configured
    rw [hpaths]
  have hpresents (draw draw' : SessionDraw P) (a b : Bool) :
      Presents (Session.new draw a) (Session.new draw' b) := by
    refine ⟨Nat.zero_le _, none, rfl, rfl, fun coins data _ => ⟨[], rfl, Nat.zero_le _, rfl⟩⟩
  refine ⟨fun draw => ⟨_, (hfresh hserver true draw _).mpr rfl⟩,
    fun draw => ⟨_, (hfresh hclient false draw _).mpr rfl⟩, ?_⟩
  intro draw draw' s c hs hc
  rw [(hfresh hserver true draw s).mp hs, (hfresh hclient false draw' c).mp hc]
  exact ⟨hpresents _ _ _ _, hpresents _ _ _ _⟩

theorem agreedKey_exists (honest : HonestExchange P) (c s : Session P) :
    ∃ key, agreedKey c s = .ok key :=
  honest.derives _ _ _

theorem serverHandleClientHello_run {coins payload certData pubData sig hello sigLen : Bytes}
    {offset : Nat} {cert : Option P.Certificate} {key : Cipher}
    (hkeyed : HelloKeyed t payload certData pubData offset cert key)
    (hsign : sign (P := P) t.localKeyPath coins (pubData ++ t.publicEph) = .ok sig)
    (hhello : packCertAndPubkey (orEmpty t.localCertBytes) t.publicEph = .ok hello)
    (hpack : pack 2 sig.length = .ok sigLen) :
    serverHandleClientHello coins payload t =
      (.ok [encodeHandshakeMessage .serverHello t.sid (hello ++ sigLen ++ sig)], { t with
        peerPubEph := some pubData, peerCert := cert, cipher := some key, state := .helloSent
        signed := recordSigned t (pubData ++ t.publicEph) }) := by
  have haccept : acceptPeer certData pubData { t with peerPubEph := some pubData } =
      (.ok true, { t with
        peerPubEph := some pubData, peerCert := cert, cipher := some key }) := by
    have hverified : verifyPeerCert { t with peerPubEph := some pubData, peerCert := cert } =
      .ok true := hkeyed.verified
    have hderived : deriveCipher t.privateEph pubData
        (handshakeSalt { t with peerPubEph := some pubData, peerCert := cert }) = .ok key :=
      hkeyed.derived
    simp [acceptPeer, hkeyed.loaded, hverified, hderived]
  have hreply : serverHelloReply coins pubData { t with
      peerPubEph := some pubData, peerCert := cert, cipher := some key } =
      (.ok [encodeHandshakeMessage .serverHello t.sid (hello ++ sigLen ++ sig)], { t with
        peerPubEph := some pubData, peerCert := cert, cipher := some key, state := .helloSent
        signed := recordSigned t (pubData ++ t.publicEph) }) := by
    have hpub : Session.publicEph
        { t with peerPubEph := some pubData, peerCert := cert, cipher := some key } =
      t.publicEph := rfl
    unfold serverHelloReply setState
    simp [signAs_run, hpub, hsign, hhello, hpack]
    exact ⟨rfl, rfl⟩
  unfold serverHandleClientHello
  simp [hkeyed.unpacked, haccept, hreply]

end Sessions

section Calls
variable {c s t u : Session P} {key : Cipher} {data : Bytes}

structure KnowsClient (c s t : Session P) : Prop where
  setup : SameSetup s t
  peer : t.peerSessionId = some c.sessionId
  waits : t.isEstablished = false

structure KnowsServer (c s u : Session P) : Prop where
  setup : SameSetup c u
  peer : u.peerSessionId = some s.sessionId
  waits : u.isEstablished = false

/-- The server has derived the key and keeps what it checks `CLIENT_FINISHED` with. -/
structure HasAnswered (c s : Session P) (key : Cipher) (t : Session P) : Prop where
  knows : KnowsClient c s t
  cipher : t.cipher = some key
  pub : t.peerPubEph = some c.publicEph
  cert : loadPeerCert (orEmpty c.localCertBytes) = .ok t.peerCert

/-- The certificate of `signer` passes this signature over both ephemeral keys. -/
def SignedBy (signer c s : Session P) (sig : Bytes) : Prop :=
  ∀ cert : Option P.Certificate, loadPeerCert (orEmpty signer.localCertBytes) = .ok cert →
    signatureFails cert (c.publicEph ++ s.publicEph) sig = false

def ClientHelloOf (c : Session P) (data : Bytes) : Prop :=
  ∃ inner, packCertAndPubkey (orEmpty c.localCertBytes) c.publicEph = .ok inner ∧
    data = encodeHandshakeMessage .clientHello c.sid inner

def ServerHelloOf (c s : Session P) (data : Bytes) : Prop :=
  ∃ hello sig sigLen, packCertAndPubkey (orEmpty s.localCertBytes) s.publicEph = .ok hello ∧
    pack 2 sig.length = .ok sigLen ∧ SignedBy s c s sig ∧
    data = encodeHandshakeMessage .serverHello s.sid (hello ++ sigLen ++ sig)

def FinishedOf (c s : Session P) (data : Bytes) : Prop :=
  ∃ sig sigLen, pack 2 sig.length = .ok sigLen ∧ SignedBy c c s sig ∧
    data = encodeHandshakeMessage .clientFinished c.sid (sigLen ++ sig)

theorem packs_hello (sizes : X25519Sizes P) (hlength : (orEmpty s.localCertBytes).length ≤ 65535) :
    ∃ hello, packCertAndPubkey (orEmpty s.localCertBytes) s.publicEph = .ok hello :=
  packCertAndPubkey_run hlength (by rw [Session.publicEph, sizes.publicBytes_length]; decide)

theorem Presents.signs (sizes : X25519Sizes P) (h : Presents s t) (coins : Bytes) (c r : Session P) :
    ∃ sig sigLen, sign (P := P) s.localKeyPath coins (c.publicEph ++ r.publicEph) = .ok sig ∧
      pack 2 sig.length = .ok sigLen ∧ SignedBy s c r sig := by
  obtain ⟨cert, hload, -, hsigns⟩ := h.accepted
  have hboth : (c.publicEph ++ r.publicEph).length = 64 := by
    rw [List.length_append, Session.publicEph, Session.publicEph, sizes.publicBytes_length,
      sizes.publicBytes_length]
  obtain ⟨sig, hsign, hlength, hpass⟩ := hsigns coins (c.publicEph ++ r.publicEph) hboth
  refine ⟨sig, _, hsign, pack_ok (by omega), ?_⟩
  intro cert' hload'
  rw [hload] at hload'
  exact Except.ok.inj hload' ▸ hpass

theorem Presents.verified (h : Presents s t) (hsetup : SameSetup t u) :
    ∃ cert, loadPeerCert (orEmpty s.localCertBytes) = .ok cert ∧
      verifyPeerCert { u with peerCert := cert } = .ok true := by
  obtain ⟨cert, hload, hverified, -⟩ := h.accepted
  refine ⟨cert, hload, ?_⟩
  unfold verifyPeerCert at hverified ⊢
  simp only [hsetup.caPath] at hverified ⊢
  exact hverified

theorem reset_answered (now : Time) (hsetup : SameSetup s t) :
    ∃ t', serverHandleReset now (encodePacket .hardResetClient c.sid []) t =
        (.ok [encodePacket .hardResetServer s.sid []], t') ∧ KnowsClient c s t' :=
  ⟨{ t with peerSessionId := some c.sessionId, state := .resetRcvd, lastRx := now },
    hsetup.sid ▸ serverHandleReset_genuine now c t,
    hsetup.trans ⟨rfl, rfl, rfl, rfl, rfl, rfl, rfl, rfl⟩, rfl, rfl⟩

theorem resetAck_answered (sizes : X25519Sizes P) (hpresents : Presents c s) (hsetup : SameSetup c u) :
    ∃ hello u', clientHandleResetAck (encodePacket .hardResetServer s.sid []) u = (.ok [hello], u') ∧
      ClientHelloOf c hello ∧ KnowsServer c s u' := by
  obtain ⟨inner, hinner⟩ := packs_hello sizes hpresents.certLength
  refine ⟨_, { u with peerSessionId := some s.sessionId, state := .resetRcvd }, ?_,
    ⟨inner, hinner, rfl⟩,
    hsetup.trans ⟨rfl, rfl, rfl, rfl, rfl, rfl, rfl, rfl⟩, rfl, rfl⟩
  have hpacked : packCertAndPubkey (orEmpty u.localCertBytes) (Session.publicEph
      { u with peerSessionId := some s.sessionId, state := .resetRcvd }) = .ok inner := by
    rw [hsetup.localCertBytes]
    exact hsetup.publicEph ▸ hinner
  have hsid : Session.sid { u with peerSessionId := some s.sessionId, state := .resetRcvd } = c.sid :=
    hsetup.sid
  unfold clientHandleResetAck
  simp only [decodePacket_encodePacket, Py.bind_run, Py.ofExcept_run, ne_eq, not_true_eq_false,
    ite_false, Py.assign_run, Py.self_run, packQ_sid, hpacked, hsid, Py.pure_run]

theorem clientHello_answered (sizes : X25519Sizes P) (hx : X25519Agreement P)
    (hkey : agreedKey c s = .ok key) (hclient : Presents c s) (hserver : Presents s c)
    (hknows : KnowsClient c s t) (coins : Bytes) {inner : Bytes}
    (hinner : packCertAndPubkey (orEmpty c.localCertBytes) c.publicEph = .ok inner) :
    ∃ hello t', serverHandleClientHello coins inner t = (.ok [hello], t') ∧
      ServerHelloOf c s hello ∧ HasAnswered c s key t' := by
  have hsetup := hknows.setup
  obtain ⟨cert, hload, hverified⟩ := hclient.verified hsetup
  obtain ⟨sig, sigLen, hsign, hpack, hsigned⟩ := hserver.signs sizes coins c s
  obtain ⟨hello, hhello⟩ := packs_hello sizes hserver.certLength
  have hunpacked := unpackHello_packed hinner []
  rw [List.append_nil] at hunpacked
  have hderived : deriveCipher t.privateEph c.publicEph (handshakeSalt t) = .ok key := by
    have hsalt : handshakeSalt t = orderedConcat c.sessionId.val s.sessionId.val := by
      rw [handshakeSalt, hknows.peer, hsetup.sessionId, orderedConcat_comm]
      rfl
    rw [hsalt, hsetup.privateEph]
    exact (deriveCipher_comm hx s.privateEph c.privateEph _).trans hkey
  rw [← hsetup.publicEph, ← hsetup.localKeyPath] at hsign
  have hhello' := hhello
  rw [← hsetup.publicEph, ← hsetup.localCertBytes] at hhello'
  have hrun := serverHandleClientHello_run ⟨hunpacked, hload, hverified, hderived⟩ hsign hhello' hpack
  rw [hsetup.sid] at hrun
  exact ⟨_, _, hrun, ⟨hello, sig, sigLen, hhello, hpack, hsigned, rfl⟩,
    ⟨hsetup.trans ⟨rfl, rfl, rfl, rfl, rfl, rfl, rfl, rfl⟩, hknows.peer, rfl⟩, rfl, rfl, hload⟩

theorem serverHello_answered (sizes : X25519Sizes P) (hkey : agreedKey c s = .ok key)
    (hclient : Presents c s) (hserver : Presents s c) (hknows : KnowsServer c s u) (coins : Bytes) {hello sig sigLen : Bytes}
    (hhello : packCertAndPubkey (orEmpty s.localCertBytes) s.publicEph = .ok hello)
    (hpack : pack 2 sig.length = .ok sigLen) (hsigned : SignedBy s c s sig) :
    ∃ finished u', clientHandleServerHello coins (hello ++ sigLen ++ sig) u = (.ok [finished], u') ∧
      FinishedOf c s finished ∧ SameSetup c u' ∧ u'.isEstablished = true ∧ u'.cipher = some key := by
  have hsetup := hknows.setup
  obtain ⟨cert, hload, hverified⟩ := hserver.verified hsetup
  obtain ⟨finishSig, finishLen, hsign, hfinishPack, hfinishSigned⟩ := hclient.signs sizes coins c s
  have hunpacked := unpackHello_packed hhello (sigLen ++ sig)
  have hsigAt := signatureAt_packed hpack hello []
  rw [List.append_nil] at hsigAt
  rw [← List.append_assoc] at hunpacked hsigAt
  have hderived : deriveCipher u.privateEph s.publicEph (handshakeSalt u) = .ok key := by
    have hsalt : handshakeSalt u = orderedConcat c.sessionId.val s.sessionId.val := by
      rw [handshakeSalt, hknows.peer, hsetup.sessionId]
      rfl
    rwa [hsalt, hsetup.privateEph]
  have hpass := hsigned cert hload
  rw [← hsetup.publicEph] at hpass
  rw [← hsetup.publicEph, ← hsetup.localKeyPath] at hsign
  have hrun := clientHandleServerHello_run ⟨hunpacked, hload, hverified, hderived⟩ hsigAt hpass hsign
    hfinishPack
  rw [hsetup.sid] at hrun
  exact ⟨_, _, hrun, ⟨finishSig, finishLen, hfinishPack, hfinishSigned, rfl⟩,
    hsetup.trans ⟨rfl, rfl, rfl, rfl, rfl, rfl, rfl, rfl⟩, rfl, rfl⟩

theorem finished_accepted (hanswered : HasAnswered c s key t) {sig sigLen : Bytes}
    (hpack : pack 2 sig.length = .ok sigLen) (hsigned : SignedBy c c s sig) :
    serverHandleClientFinished (sigLen ++ sig) t = (.ok [], { t with state := .established }) := by
  have hsigAt := signatureAt_packed hpack [] []
  rw [List.append_nil, List.nil_append, List.length_nil] at hsigAt
  have hpass := hsigned t.peerCert hanswered.cert
  obtain ⟨hrefused, -⟩ | ⟨-, -, -, hrun⟩ := serverHandleClientFinished_cases (sigLen ++ sig) t
  · have hfails := hrefused sig hsigAt
    rw [hanswered.pub, hanswered.knows.setup.publicEph] at hfails
    rw [show orEmpty (some c.publicEph) = c.publicEph from rfl, hpass] at hfails
    cases hfails
  · exact hrun

end Calls
end PyVpn
