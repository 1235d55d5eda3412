import PyVpn.EventRun
import PyVpn.Handlers

/-! Runs of one session: any handler of its role, any payload, in any order. What a
call raises goes to the caller; the session keeps what was written. -/
namespace PyVpn
open EventRun
variable {P : Primitives}

inductive ServerCall where
  | reset (now : Time) (raw : Bytes)
  | clientHello (coins payload : Bytes)
  | clientFinished (payload : Bytes)

inductive ClientCall where
  | start
  | resetAck (raw : Bytes)
  | serverHello (coins payload : Bytes)

def serverCall (s : Session P) : ServerCall → Session P
  | .reset now raw => (serverHandleReset now raw s).2
  | .clientHello coins payload => (serverHandleClientHello coins payload s).2
  | .clientFinished payload => (serverHandleClientFinished payload s).2

def clientCall (s : Session P) : ClientCall → Session P
  | .start => (clientStartHandshake s).2
  | .resetAck raw => (clientHandleResetAck raw s).2
  | .serverHello coins payload => (clientHandleServerHello coins payload s).2

def serverHandler : ServerCall → Py (Session P) (List Bytes)
  | .reset now raw => serverHandleReset now raw
  | .clientHello coins payload => serverHandleClientHello coins payload
  | .clientFinished payload => serverHandleClientFinished payload

def clientHandler : ClientCall → Py (Session P) (List Bytes)
  | .start => clientStartHandshake
  | .resetAck raw => clientHandleResetAck raw
  | .serverHello coins payload => clientHandleServerHello coins payload

theorem serverHandler_session (call : ServerCall) (s : Session P) :
    (serverHandler call s).2 = serverCall s call := by
  cases call <;> rfl

/-- The fields no handler writes. -/
structure SameSetup (s t : Session P) : Prop where
  sessionId : t.sessionId = s.sessionId
  isServer : t.isServer = s.isServer
  privateEph : t.privateEph = s.privateEph
  localKeyPath : t.localKeyPath = s.localKeyPath
  caPath : t.caPath = s.caPath
  localCertBytes : t.localCertBytes = s.localCertBytes
  createdAt : t.createdAt = s.createdAt
  assignedIp : t.assignedIp = s.assignedIp

theorem SameSetup.refl (s : Session P) : SameSetup s s :=
  ⟨rfl, rfl, rfl, rfl, rfl, rfl, rfl, rfl⟩

theorem SameSetup.trans {s t u : Session P} (h : SameSetup s t) (k : SameSetup t u) :
    SameSetup s u :=
  ⟨k.1.trans h.1, k.2.trans h.2, k.3.trans h.3, k.4.trans h.4, k.5.trans h.5, k.6.trans h.6,
    k.7.trans h.7, k.8.trans h.8⟩

theorem SameSetup.publicEph {s t : Session P} (h : SameSetup s t) : t.publicEph = s.publicEph := by
  rw [Session.publicEph, h.privateEph, Session.publicEph]

/-- What a server handler can make of its session. -/
inductive ServerOutcome (s : Session P) : ServerCall → Session P → Prop
  | resetIgnored (now : Time) (raw : Bytes)
      (hother : ∀ sid payload, decodePacket raw ≠ .ok (.hardResetClient, sid, payload)) :
      ServerOutcome s (.reset now raw) s
  | reset (now : Time) (raw : Bytes) (sid : UInt64) (payload : Bytes)
      (hdecode : decodePacket raw = .ok (.hardResetClient, sid, payload)) :
      ServerOutcome s (.reset now raw)
        { s with peerSessionId := some (packQ sid), state := .resetRcvd, lastRx := now }
  | helloFailed (coins payload : Bytes) (pub : Option Bytes) (cert : Option P.Certificate)
      (cipher : Option Cipher) (signed : List Bytes)
      (hsigned : signed = s.signed ∨ ∃ pubData, signed = recordSigned s (pubData ++ s.publicEph)) :
      ServerOutcome s (.clientHello coins payload) { s with
        peerPubEph := pub, peerCert := cert, cipher := cipher, state := .error, signed := signed }
  | helloAnswered (coins payload certData pubData : Bytes) (offset : Nat)
      (cert : Option P.Certificate) (cipher : Cipher)
      (hkeyed : HelloKeyed s payload certData pubData offset cert cipher) :
      ServerOutcome s (.clientHello coins payload) { s with
        peerPubEph := some pubData, peerCert := cert, cipher := some cipher, state := .helloSent
        signed := recordSigned s (pubData ++ s.publicEph) }
  | finishedRefused (payload : Bytes) (hrefused : FinishedRefused s payload) :
      ServerOutcome s (.clientFinished payload) { s with state := .error }
  | finished (payload sig : Bytes) (hsig : signatureAt payload 0 = .ok sig)
      (hpass : signatureFails s.peerCert (orEmpty s.peerPubEph ++ s.publicEph) sig = false) :
      ServerOutcome s (.clientFinished payload) { s with state := .established }

/-- What a client handler can make of its session. -/
inductive ClientOutcome (s : Session P) : ClientCall → Session P → Prop
  | start : ClientOutcome s .start { s with state := .resetSent }
  | ackIgnored (raw : Bytes)
      (hother : ∀ sid payload, decodePacket raw ≠ .ok (.hardResetServer, sid, payload)) :
      ClientOutcome s (.resetAck raw) s
  | ack (raw : Bytes) (sid : UInt64) (payload : Bytes)
      (hdecode : decodePacket raw = .ok (.hardResetServer, sid, payload)) :
      ClientOutcome s (.resetAck raw)
        { s with peerSessionId := some (packQ sid), state := .resetRcvd }
  | helloFailed (coins payload : Bytes) (pub : Option Bytes) (cert : Option P.Certificate)
      (cipher : Option Cipher) (signed : List Bytes)
      (hsigned : signed = s.signed ∨ ∃ certData pubData offset cert cipher,
        HelloKeyed s payload certData pubData offset cert cipher ∧
          signed = recordSigned s (s.publicEph ++ pubData)) :
      ClientOutcome s (.serverHello coins payload) { s with
        peerPubEph := pub, peerCert := cert, cipher := cipher, state := .error, signed := signed }
  | helloAccepted (coins payload certData pubData sig finishSig sigLen : Bytes) (offset : Nat)
      (cert : Option P.Certificate) (cipher : Cipher)
      (hkeyed : HelloKeyed s payload certData pubData offset cert cipher)
      (hsig : signatureAt payload offset = .ok sig)
      (hpass : signatureFails cert (s.publicEph ++ pubData) sig = false)
      (hsign : sign (P := P) s.localKeyPath coins (s.publicEph ++ pubData) = .ok finishSig)
      (hpack : pack 2 finishSig.length = .ok sigLen) :
      ClientOutcome s (.serverHello coins payload) { s with
        peerPubEph := some pubData, peerCert := cert, cipher := some cipher, state := .established
        signed := recordSigned s (s.publicEph ++ pubData) }

theorem serverCall_outcome (s : Session P) (call : ServerCall) :
    ServerOutcome s call (serverCall s call) := by
  cases call with
  | reset now raw =>
    obtain ⟨hother, r, h, -⟩ | ⟨sid, payload, hdecode, h⟩ := serverHandleReset_cases now raw s
    · simp only [serverCall, h]
      exact .resetIgnored now raw hother
    · simp only [serverCall, h]
      exact .reset now raw sid payload hdecode
  | clientHello coins payload =>
    obtain ⟨pub, cert, cipher, signed, h, hsigned, -⟩ |
      ⟨certData, pubData, offset, cert, cipher, _, _, _, hkeyed, -, -, -, h⟩ :=
      serverHandleClientHello_cases coins payload s
    · simp only [serverCall, h]
      refine .helloFailed coins payload pub cert cipher signed ?_
      obtain hsame | ⟨_, pubData, _, _, _, -, hnew⟩ := hsigned
      · exact .inl hsame
      · exact .inr ⟨pubData, hnew⟩
    · simp only [serverCall, h]
      exact .helloAnswered coins payload certData pubData offset cert cipher hkeyed
  | clientFinished payload =>
    obtain ⟨hrefused, h⟩ | ⟨sig, hsig, hpass, h⟩ := serverHandleClientFinished_cases payload s
    · simp only [serverCall, h]
      exact .finishedRefused payload hrefused
    · simp only [serverCall, h]
      exact .finished payload sig hsig hpass

theorem clientCall_outcome (s : Session P) (call : ClientCall) :
    ClientOutcome s call (clientCall s call) := by
  cases call with
  | start =>
    simp only [clientCall, clientStartHandshake_run]
    exact .start
  | resetAck raw =>
    obtain ⟨hother, r, h, -⟩ | ⟨sid, payload, _, hdecode, h, -⟩ := clientHandleResetAck_cases raw s
    · simp only [clientCall, h]
      exact .ackIgnored raw hother
    · simp only [clientCall, h]
      exact .ack raw sid payload hdecode
  | serverHello coins payload =>
    obtain ⟨pub, cert, cipher, signed, h, hsigned, -⟩ |
      ⟨certData, pubData, offset, cert, cipher, sig, finishSig, sigLen, hkeyed, hsig, hpass, hsign,
        hpack, h⟩ := clientHandleServerHello_cases coins payload s
    · simp only [clientCall, h]
      exact .helloFailed coins payload pub cert cipher signed hsigned
    · simp only [clientCall, h]
      exact .helloAccepted coins payload certData pubData sig finishSig sigLen offset cert cipher
        hkeyed hsig hpass hsign hpack

theorem ServerOutcome.setup {s t : Session P} {call : ServerCall} (h : ServerOutcome s call t) :
    SameSetup s t := by
  cases h <;> exact ⟨rfl, rfl, rfl, rfl, rfl, rfl, rfl, rfl⟩

theorem ClientOutcome.setup {s t : Session P} {call : ClientCall} (h : ClientOutcome s call t) :
    SameSetup s t := by
  cases h <;> exact ⟨rfl, rfl, rfl, rfl, rfl, rfl, rfl, rfl⟩

theorem serverCall_setup (s : Session P) (c : ServerCall) : SameSetup s (serverCall s c) :=
  (serverCall_outcome s c).setup

theorem clientCall_setup (s : Session P) (c : ClientCall) : SameSetup s (clientCall s c) :=
  (clientCall_outcome s c).setup

theorem serverRun_setup (calls : List ServerCall) (s : Session P) :
    SameSetup s (run serverCall calls s) :=
  inv_run_always (fun t c h => h.trans (serverCall_setup t c)) calls s (SameSetup.refl s)

theorem clientRun_setup (calls : List ClientCall) (s : Session P) :
    SameSetup s (run clientCall calls s) :=
  inv_run_always (fun t c h => h.trans (clientCall_setup t c)) calls s (SameSetup.refl s)

/-- A session as its owner hands it to the handlers: fresh, then perhaps configured. -/
def Prepared (isServer : Bool) (s : Session P) : Prop :=
  ∃ draw, s = Session.new draw isServer ∨
    ∃ caPath certPath keyPath, s = (configure caPath certPath keyPath (Session.new draw isServer)).2

/-- A session on which `configure` set a CA path. -/
def AuthPrepared (isServer : Bool) (caPath : String) (s : Session P) : Prop :=
  caPath ≠ "" ∧ ∃ draw certPath keyPath,
    s = (configure caPath certPath keyPath (Session.new draw isServer)).2

theorem configure_frame (caPath certPath keyPath : String) (s : Session P) :
    ∃ certBytes, (configure caPath certPath keyPath s).2 =
      { s with caPath := some caPath, localKeyPath := some keyPath, localCertBytes := certBytes } := by
  unfold configure
  by_cases hc : certPath = ""
  · exact ⟨s.localCertBytes, by simp [hc]⟩
  · cases hr : P.readFile certPath with
    | error e => exact ⟨s.localCertBytes, by simp [hc]⟩
    | ok certBytes => exact ⟨some certBytes, by simp [hc]⟩

theorem AuthPrepared.prepared {isServer : Bool} {caPath : String} {s : Session P}
    (h : AuthPrepared isServer caPath s) : Prepared isServer s := by
  obtain ⟨-, draw, certPath, keyPath, rfl⟩ := h
  exact ⟨draw, .inr ⟨caPath, certPath, keyPath, rfl⟩⟩

theorem Prepared.idle {isServer : Bool} {s : Session P} (h : Prepared isServer s) :
    s.state = .idle := by
  obtain ⟨draw, rfl | ⟨caPath, certPath, keyPath, rfl⟩⟩ := h
  · rfl
  · obtain ⟨certBytes, he⟩ := configure_frame caPath certPath keyPath (Session.new draw isServer)
    rw [he]; rfl

theorem AuthPrepared.caPath {isServer : Bool} {caPath : String} {s : Session P}
    (h : AuthPrepared isServer caPath s) : s.caPath = some caPath := by
  obtain ⟨-, draw, certPath, keyPath, rfl⟩ := h
  obtain ⟨certBytes, he⟩ := configure_frame caPath certPath keyPath (Session.new draw isServer)
  rw [he]

end PyVpn
