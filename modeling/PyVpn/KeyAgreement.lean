import PyVpn.HelloCodec
import PyVpn.RoundTrip
import PyVpn.Transparent

/-! One client session and one server session over a network that loses, repeats and
reorders packets. The handlers look at no order, so each may run at any time; what
holds is that no packet is there before the facts it rests on. -/
namespace PyVpn
open BigEndian EventRun
variable {P : Primitives}

/-- X25519 as the handshake uses it: both sides compute one secret, and a public key
survives the wire. -/
structure X25519Agreement (P : Primitives) : Prop where
  exchange_comm : ∀ a b, P.exchange a (P.publicKey b) = P.exchange b (P.publicKey a)
  fromPublicBytes_publicBytes : ∀ key, P.fromPublicBytes (P.publicBytes key) = .ok key

/-- The two sessions, and every packet each of them has sent so far. -/
structure Exchange (P : Primitives) where
  client : Session P
  server : Session P
  toServer : List Bytes
  toClient : List Bytes

/-- A packet that was sent may arrive at any time, any number of times, or never. -/
inductive ExchangeEvent where
  | start
  | toServer (i : Nat) (now : Time) (coins : Bytes)
  | toClient (i : Nat) (coins : Bytes)

/-- What a handler call sends where it does not raise. -/
def Exchange.serverRuns (net : Exchange P) (call : ServerCall) : Exchange P :=
  let result := serverHandler call net.server
  { net with server := result.2, toClient := net.toClient ++ returned result.1 }

def Exchange.clientRuns (net : Exchange P) (call : ClientCall) : Exchange P :=
  let result := clientHandler call net.client
  { net with client := result.2, toServer := net.toServer ++ returned result.1 }

def exchangeStep (net : Exchange P) : ExchangeEvent → Exchange P
  | .start => net.clientRuns .start
  | .toServer i now coins =>
    match (net.toServer[i]?).bind (serverCallOf now coins) with
    | none => net
    | some call => net.serverRuns call
  | .toClient i coins =>
    match (net.toClient[i]?).bind (clientCallOf coins) with
    | none => net
    | some call => net.clientRuns call

section Algebra

theorem orderedConcat_comm (a b : Bytes) : orderedConcat a b = orderedConcat b a := by
  unfold orderedConcat
  by_cases hab : a < b
  · have hba : ¬ b < a := List.lt_asymm hab
    rw [if_pos hab, if_neg hba]
  · by_cases hba : b < a
    · rw [if_neg hab, if_pos hba]
    · rw [if_neg hab, if_neg hba, List.le_antisymm (List.not_lt.mp hba) (List.not_lt.mp hab)]

theorem deriveCipher_comm (h : X25519Agreement P) (a b : P.X25519PrivateKey) (salt : Bytes) :
    deriveCipher a (P.publicBytes (P.publicKey b)) salt =
      deriveCipher b (P.publicBytes (P.publicKey a)) salt := by
  unfold deriveCipher deriveSharedKey
  rw [h.fromPublicBytes_publicBytes, h.fromPublicBytes_publicBytes]
  simp only [bind, Except.bind, h.exchange_comm a b]

end Algebra

section Agreement
variable {c s : Session P} {net net' : Exchange P}

/-- The key that both ends derive from each other's ephemeral key and both ids. -/
def agreedKey (c s : Session P) : Except PyError Cipher :=
  deriveCipher c.privateEph s.publicEph (orderedConcat c.sessionId.val s.sessionId.val)

/-- The server has handled a reset of this client. -/
def ServerKnows (c : Session P) (net : Exchange P) : Prop :=
  net.server.peerSessionId = some c.sessionId

def ClientKnows (s : Session P) (net : Exchange P) : Prop :=
  net.client.peerSessionId = some s.sessionId

/-- Both ends know the other's id, and the server has derived its key. -/
structure Keyed (c s : Session P) (net : Exchange P) : Prop where
  server : ServerKnows c net
  client : ClientKnows s net
  cipher : net.server.cipher.isSome = true

/-- The packets a client sends, with what has happened before each. -/
inductive ClientPacket (c s : Session P) (net : Exchange P) : Bytes → Prop
  | reset : ClientPacket c s net (encodePacket .hardResetClient c.sid [])
  | hello (inner : Bytes)
      (hinner : packCertAndPubkey (orEmpty c.localCertBytes) c.publicEph = .ok inner)
      (hserver : ServerKnows c net) (hclient : ClientKnows s net) :
      ClientPacket c s net (encodeHandshakeMessage .clientHello c.sid inner)
  | finished (body : Bytes) (hkeyed : Keyed c s net) :
      ClientPacket c s net (encodeHandshakeMessage .clientFinished c.sid body)

/-- The packets a server sends, with what has happened before each. -/
inductive ServerPacket (c s : Session P) (net : Exchange P) : Bytes → Prop
  | resetAck (hserver : ServerKnows c net) :
      ServerPacket c s net (encodePacket .hardResetServer s.sid [])
  | hello (inner body : Bytes)
      (hinner : packCertAndPubkey (orEmpty s.localCertBytes) s.publicEph = .ok inner)
      (hkeyed : Keyed c s net) :
      ServerPacket c s net (encodeHandshakeMessage .serverHello s.sid (inner ++ body))

/-- No event takes back an id or the server's key. -/
structure Later (c s : Session P) (net net' : Exchange P) : Prop where
  server : ServerKnows c net → ServerKnows c net'
  client : ClientKnows s net → ClientKnows s net'
  cipher : net.server.cipher.isSome = true → net'.server.cipher.isSome = true

theorem Keyed.later (h : Keyed c s net) (hlater : Later c s net net') : Keyed c s net' :=
  ⟨hlater.server h.server, hlater.client h.client, hlater.cipher h.cipher⟩

theorem ClientPacket.later {data : Bytes} (h : ClientPacket c s net data)
    (hlater : Later c s net net') : ClientPacket c s net' data := by
  cases h with
  | reset => exact .reset
  | hello inner hinner hserver hclient =>
    exact .hello inner hinner (hlater.server hserver) (hlater.client hclient)
  | finished body hkeyed => exact .finished body (hkeyed.later hlater)

theorem ServerPacket.later {data : Bytes} (h : ServerPacket c s net data)
    (hlater : Later c s net net') : ServerPacket c s net' data := by
  cases h with
  | resetAck hserver => exact .resetAck (hlater.server hserver)
  | hello inner body hinner hkeyed => exact .hello inner body hinner (hkeyed.later hlater)

/-- What holds of the two sessions and all packets, `c` and `s` being the sessions
before the first call. -/
structure Agreed (c s : Session P) (net : Exchange P) : Prop where
  clientSetup : SameSetup c net.client
  serverSetup : SameSetup s net.server
  clientPeer : net.client.peerSessionId = none ∨ ClientKnows s net
  serverPeer : net.server.peerSessionId = none ∨ ServerKnows c net
  clientKey : ∀ key, net.client.cipher = some key → agreedKey c s = .ok key
  serverKey : ∀ key, net.server.cipher = some key → agreedKey c s = .ok key
  toServer : ∀ data ∈ net.toServer, ClientPacket c s net data
  toClient : ∀ data ∈ net.toClient, ServerPacket c s net data
  clientEstablished : net.client.state = .established →
    Keyed c s net ∧ net.client.cipher.isSome = true
  serverEstablished : net.server.state = .established → Keyed c s net

theorem Agreed.serverStep (h : Agreed c s net) (t : Session P) (sent : List Bytes)
    (hsetup : SameSetup net.server t)
    (hpeer : t.peerSessionId = net.server.peerSessionId ∨ t.peerSessionId = some c.sessionId)
    (hkey : ∀ key, t.cipher = some key → agreedKey c s = .ok key)
    (hcipher : net.server.cipher.isSome = true → t.cipher.isSome = true)
    (hnet : net' = { net with server := t, toClient := net.toClient ++ sent })
    (hsent : ∀ data ∈ sent, ServerPacket c s net' data)
    (hest : t.state = .established → Keyed c s net') : Agreed c s net' := by
  subst hnet
  have hlater : Later c s net { net with server := t, toClient := net.toClient ++ sent } := by
    refine ⟨fun hknows => ?_, id, hcipher⟩
    obtain hsame | hknown := hpeer
    · exact hsame.trans hknows
    · exact hknown
  refine ⟨h.clientSetup, h.serverSetup.trans hsetup, h.clientPeer, ?_, h.clientKey, hkey, ?_, ?_, ?_,
    hest⟩
  · obtain hsame | hknown := hpeer
    · obtain hnone | hknows := h.serverPeer
      · exact .inl (hsame.trans hnone)
      · exact .inr (hsame.trans hknows)
    · exact .inr hknown
  · exact fun data hdata => (h.toServer data hdata).later hlater
  · intro data hdata
    cases List.mem_append.mp hdata with
    | inl hold => exact (h.toClient data hold).later hlater
    | inr hnew => exact hsent data hnew
  · intro hclient
    obtain ⟨hkeyed, hsome⟩ := h.clientEstablished hclient
    exact ⟨hkeyed.later hlater, hsome⟩

theorem Agreed.clientStep (h : Agreed c s net) (t : Session P) (sent : List Bytes)
    (hsetup : SameSetup net.client t)
    (hpeer : t.peerSessionId = net.client.peerSessionId ∨ t.peerSessionId = some s.sessionId)
    (hkey : ∀ key, t.cipher = some key → agreedKey c s = .ok key)
    (hnet : net' = { net with client := t, toServer := net.toServer ++ sent })
    (hsent : ∀ data ∈ sent, ClientPacket c s net' data)
    (hest : t.state = .established → Keyed c s net' ∧ t.cipher.isSome = true) :
    Agreed c s net' := by
  subst hnet
  have hlater : Later c s net { net with client := t, toServer := net.toServer ++ sent } := by
    refine ⟨id, fun hknows => ?_, id⟩
    obtain hsame | hknown := hpeer
    · exact hsame.trans hknows
    · exact hknown
  refine ⟨h.clientSetup.trans hsetup, h.serverSetup, ?_, h.serverPeer, hkey, h.serverKey, ?_, ?_,
    hest, ?_⟩
  · obtain hsame | hknown := hpeer
    · obtain hnone | hknows := h.clientPeer
      · exact .inl (hsame.trans hnone)
      · exact .inr (hsame.trans hknows)
    · exact .inr hknown
  · intro data hdata
    cases List.mem_append.mp hdata with
    | inl hold => exact (h.toServer data hold).later hlater
    | inr hnew => exact hsent data hnew
  · exact fun data hdata => (h.toClient data hdata).later hlater
  · exact fun hserver => (h.serverEstablished hserver).later hlater

theorem SameSetup.sid {t u : Session P} (h : SameSetup t u) : u.sid = t.sid := by
  rw [Session.sid, h.sessionId, Session.sid]

theorem packQ_sid (t : Session P) : packQ t.sid = t.sessionId := packQ_intOfBytes t.sessionId

theorem serverHandleReset_genuine (now : Time) (c t : Session P) :
    serverHandleReset now (encodePacket .hardResetClient c.sid []) t =
      (.ok [encodePacket .hardResetServer t.sid []],
        { t with peerSessionId := some c.sessionId, state := .resetRcvd, lastRx := now }) := by
  have hdecode := decodePacket_encodePacket .hardResetClient c.sid []
  obtain ⟨hother, -⟩ | ⟨sid, payload, hdecode', hrun⟩ :=
    serverHandleReset_cases now (encodePacket .hardResetClient c.sid []) t
  · exact absurd hdecode (hother c.sid [])
  · cases hdecode.symm.trans hdecode'
    rw [hrun, packQ_sid]

theorem HelloKeyed.agreed_server (hx : X25519Agreement P) {t : Session P} (hsetup : SameSetup s t)
    (hknows : t.peerSessionId = some c.sessionId) {inner certData pubData : Bytes} {offset : Nat}
    {cert : Option P.Certificate} {key : Cipher}
    (hinner : packCertAndPubkey (orEmpty c.localCertBytes) c.publicEph = .ok inner)
    (hkeyed : HelloKeyed t inner certData pubData offset cert key) : agreedKey c s = .ok key := by
  have hunpack := unpackHello_packed hinner []
  rw [List.append_nil] at hunpack
  cases hunpack.symm.trans hkeyed.unpacked
  have hsalt : handshakeSalt t = orderedConcat c.sessionId.val s.sessionId.val := by
    rw [handshakeSalt, hknows, hsetup.sessionId, orderedConcat_comm]
    rfl
  have hderived := hkeyed.derived
  rw [hsalt, hsetup.privateEph] at hderived
  exact (deriveCipher_comm hx c.privateEph s.privateEph _).trans hderived

theorem HelloKeyed.agreed_client {t : Session P} (hsetup : SameSetup c t)
    (hknows : t.peerSessionId = some s.sessionId) {inner body certData pubData : Bytes}
    {offset : Nat} {cert : Option P.Certificate} {key : Cipher}
    (hinner : packCertAndPubkey (orEmpty s.localCertBytes) s.publicEph = .ok inner)
    (hkeyed : HelloKeyed t (inner ++ body) certData pubData offset cert key) :
    agreedKey c s = .ok key := by
  cases (unpackHello_packed hinner body).symm.trans hkeyed.unpacked
  have hsalt : handshakeSalt t = orderedConcat c.sessionId.val s.sessionId.val := by
    rw [handshakeSalt, hknows, hsetup.sessionId]
    rfl
  have hderived := hkeyed.derived
  rwa [hsalt, hsetup.privateEph] at hderived

theorem Agreed.reset (h : Agreed c s net) (now : Time) :
    Agreed c s (net.serverRuns (.reset now (encodePacket .hardResetClient c.sid []))) := by
  have hrun := serverHandleReset_genuine now c net.server
  refine h.serverStep { net.server with
    peerSessionId := some c.sessionId, state := .resetRcvd, lastRx := now }
    [encodePacket .hardResetServer net.server.sid []] ⟨rfl, rfl, rfl, rfl, rfl, rfl, rfl, rfl⟩
    (.inr rfl) h.serverKey id ?_ ?_ ?_
  · simp only [Exchange.serverRuns, serverHandler, hrun]
    rfl
  · intro data hdata
    rw [List.mem_singleton.mp hdata, h.serverSetup.sid]
    refine .resetAck ?_
    simp only [ServerKnows, Exchange.serverRuns, serverHandler, hrun]
  · intro hest
    cases hest

theorem Agreed.clientHello (hx : X25519Agreement P) (h : Agreed c s net) {inner : Bytes}
    (hinner : packCertAndPubkey (orEmpty c.localCertBytes) c.publicEph = .ok inner)
    (hserver : ServerKnows c net) (hclient : ClientKnows s net) (coins : Bytes) :
    Agreed c s (net.serverRuns (.clientHello coins inner)) := by
  have hsetup := serverCall_setup net.server (.clientHello coins inner)
  have hagreed {certData pubData : Bytes} {offset : Nat} {cert : Option P.Certificate}
      {key : Cipher} (hkeyed : HelloKeyed net.server inner certData pubData offset cert key) :
      agreedKey c s = .ok key := hkeyed.agreed_server hx h.serverSetup hserver hinner
  obtain ⟨pub, cert, cipher, signed, hrun, -, hcipher⟩ |
    ⟨certData, pubData, offset, cert, key, sig, hello, sigLen, hkeyed, -, hhello, -, hrun⟩ :=
    serverHandleClientHello_cases coins inner net.server
  · simp only [serverCall, hrun] at hsetup
    refine h.serverStep _ [] hsetup (.inl rfl) ?_ ?_
      (by simp only [Exchange.serverRuns, serverHandler, hrun]; rfl) ?_ ?_
    · intro key hkey
      have hkey' : cipher = some key := hkey
      obtain rfl | ⟨_, _, _, _, derived, hkeyed, rfl⟩ := hcipher
      · exact h.serverKey key hkey'
      · cases hkey'
        exact hagreed hkeyed
    · intro hsome
      obtain rfl | ⟨_, _, _, _, derived, -, rfl⟩ := hcipher
      · exact hsome
      · rfl
    · intro data hdata
      cases hdata
    · intro hest
      cases hest
  · simp only [serverCall, hrun] at hsetup
    refine h.serverStep _ [encodeHandshakeMessage .serverHello net.server.sid
      (hello ++ sigLen ++ sig)] hsetup (.inl rfl) ?_ (fun _ => rfl)
      (by simp only [Exchange.serverRuns, serverHandler, hrun]; rfl) ?_ ?_
    · intro key' hkey'
      cases hkey'
      exact hagreed hkeyed
    · intro data hdata
      rw [List.mem_singleton.mp hdata, h.serverSetup.sid, List.append_assoc]
      refine .hello hello (sigLen ++ sig) ?_ ⟨?_, hclient, ?_⟩
      · rwa [h.serverSetup.localCertBytes, h.serverSetup.publicEph] at hhello
      · simp only [ServerKnows, Exchange.serverRuns, serverHandler, hrun]
        exact hserver
      · simp only [Exchange.serverRuns, serverHandler, hrun]
        rfl
    · intro hest
      cases hest

theorem Agreed.clientFinished (h : Agreed c s net) (hkeyed : Keyed c s net) (payload : Bytes) :
    Agreed c s (net.serverRuns (.clientFinished payload)) := by
  have hsetup := serverCall_setup net.server (.clientFinished payload)
  obtain ⟨-, hrun⟩ | ⟨sig, -, -, hrun⟩ := serverHandleClientFinished_cases payload net.server
  · simp only [serverCall, hrun] at hsetup
    refine h.serverStep _ [] hsetup (.inl rfl) h.serverKey id
      (by simp only [Exchange.serverRuns, serverHandler, hrun]; rfl) ?_ ?_
    · intro data hdata
      cases hdata
    · intro hest
      cases hest
  · simp only [serverCall, hrun] at hsetup
    refine h.serverStep _ [] hsetup (.inl rfl) h.serverKey id
      (by simp only [Exchange.serverRuns, serverHandler, hrun]; rfl) ?_ ?_
    · intro data hdata
      cases hdata
    · intro _
      simp only [Exchange.serverRuns, serverHandler, hrun]
      exact ⟨hkeyed.server, hkeyed.client, hkeyed.cipher⟩

theorem Agreed.start (h : Agreed c s net) : Agreed c s (net.clientRuns .start) := by
  have hrun := clientStartHandshake_run net.client
  refine h.clientStep { net.client with state := .resetSent }
    [encodePacket .hardResetClient net.client.sid []] ⟨rfl, rfl, rfl, rfl, rfl, rfl, rfl, rfl⟩
    (.inl rfl) h.clientKey ?_ ?_ ?_
  · simp only [Exchange.clientRuns, clientHandler, hrun]
    rfl
  · intro data hdata
    rw [List.mem_singleton.mp hdata, h.clientSetup.sid]
    exact .reset
  · intro hest
    cases hest

theorem clientHandleResetAck_genuine (s t : Session P) :
    ∃ r, clientHandleResetAck (encodePacket .hardResetServer s.sid []) t =
        (r, { t with peerSessionId := some s.sessionId, state := .resetRcvd }) ∧
      ∀ packets, r = .ok packets → ∃ inner,
        packCertAndPubkey (orEmpty t.localCertBytes) t.publicEph = .ok inner ∧
        packets = [encodeHandshakeMessage .clientHello t.sid inner] := by
  have hdecode := decodePacket_encodePacket .hardResetServer s.sid []
  obtain ⟨hother, -⟩ | ⟨sid, payload, r, hdecode', hrun, hsent⟩ :=
    clientHandleResetAck_cases (encodePacket .hardResetServer s.sid []) t
  · exact absurd hdecode (hother s.sid [])
  · cases hdecode.symm.trans hdecode'
    rw [packQ_sid] at hrun
    exact ⟨r, hrun, hsent⟩

theorem Agreed.resetAck (h : Agreed c s net) (hserver : ServerKnows c net) :
    Agreed c s (net.clientRuns (.resetAck (encodePacket .hardResetServer s.sid []))) := by
  obtain ⟨r, hrun, hsent⟩ := clientHandleResetAck_genuine s net.client
  refine h.clientStep { net.client with peerSessionId := some s.sessionId, state := .resetRcvd }
    (returned r) ⟨rfl, rfl, rfl, rfl, rfl, rfl, rfl, rfl⟩ (.inr rfl) h.clientKey ?_ ?_ ?_
  · simp only [Exchange.clientRuns, clientHandler, hrun]
  · intro data hdata
    cases r with
    | error e => cases hdata
    | ok packets =>
      obtain ⟨inner, hinner, rfl⟩ := hsent packets rfl
      rw [h.clientSetup.localCertBytes, h.clientSetup.publicEph] at hinner
      rw [List.mem_singleton.mp hdata, h.clientSetup.sid]
      refine .hello inner hinner hserver ?_
      simp only [ClientKnows, Exchange.clientRuns, clientHandler, hrun]
  · intro hest
    cases hest

theorem Agreed.serverHello (h : Agreed c s net) {inner body : Bytes}
    (hinner : packCertAndPubkey (orEmpty s.localCertBytes) s.publicEph = .ok inner)
    (hkeyed : Keyed c s net) (coins : Bytes) :
    Agreed c s (net.clientRuns (.serverHello coins (inner ++ body))) := by
  have hsetup := clientCall_setup net.client (.serverHello coins (inner ++ body))
  have hagreed {certData pubData : Bytes} {offset : Nat} {cert : Option P.Certificate}
      {key : Cipher}
      (hhello : HelloKeyed net.client (inner ++ body) certData pubData offset cert key) :
      agreedKey c s = .ok key := hhello.agreed_client h.clientSetup hkeyed.client hinner
  obtain ⟨pub, cert, cipher, signed, hrun, -, hcipher⟩ |
    ⟨certData, pubData, offset, cert, key, sig, finishSig, sigLen, hhello, -, -, -, -, hrun⟩ :=
    clientHandleServerHello_cases coins (inner ++ body) net.client
  · simp only [clientCall, hrun] at hsetup
    refine h.clientStep _ [] hsetup (.inl rfl) ?_
      (by simp only [Exchange.clientRuns, clientHandler, hrun]; rfl) ?_ ?_
    · intro key hkey
      have hkey' : cipher = some key := hkey
      obtain rfl | ⟨_, _, _, _, derived, hhello, rfl⟩ := hcipher
      · exact h.clientKey key hkey'
      · cases hkey'
        exact hagreed hhello
    · intro data hdata
      cases hdata
    · intro hest
      cases hest
  · simp only [clientCall, hrun] at hsetup
    have hnext : Keyed c s (net.clientRuns (.serverHello coins (inner ++ body))) := by
      refine ⟨hkeyed.server, ?_, hkeyed.cipher⟩
      simp only [ClientKnows, Exchange.clientRuns, clientHandler, hrun]
      exact hkeyed.client
    refine h.clientStep _ [encodeHandshakeMessage .clientFinished net.client.sid
      (sigLen ++ finishSig)] hsetup (.inl rfl) ?_
      (by simp only [Exchange.clientRuns, clientHandler, hrun]; rfl) ?_ ?_
    · intro key' hkey'
      cases hkey'
      exact hagreed hhello
    · intro data hdata
      rw [List.mem_singleton.mp hdata, h.clientSetup.sid]
      exact .finished _ hnext
    · intro _
      exact ⟨hnext, rfl⟩

theorem serverCallOf_reset (now : Time) (coins : Bytes) (sid : UInt64) :
    serverCallOf now coins (encodePacket .hardResetClient sid []) =
      some (.reset now (encodePacket .hardResetClient sid [])) := by
  rw [serverCallOf, if_pos]
  rfl

theorem clientCallOf_resetAck (coins : Bytes) (sid : UInt64) :
    clientCallOf coins (encodePacket .hardResetServer sid []) =
      some (.resetAck (encodePacket .hardResetServer sid [])) := by
  rw [clientCallOf, if_pos]
  rfl

theorem Agreed.deliveredToServer (hx : X25519Agreement P) (h : Agreed c s net) {data : Bytes}
    (hpacket : ClientPacket c s net data) {now : Time} {coins : Bytes} {call : ServerCall}
    (hcall : serverCallOf now coins data = some call) : Agreed c s (net.serverRuns call) := by
  cases hpacket with
  | reset =>
    cases (serverCallOf_reset now coins c.sid).symm.trans hcall
    exact h.reset now
  | hello inner hinner hserver hclient =>
    cases (serverCallOf_message now coins .clientHello c.sid inner).symm.trans hcall
    exact h.clientHello hx hinner hserver hclient coins
  | finished body hkeyed =>
    cases (serverCallOf_message now coins .clientFinished c.sid body).symm.trans hcall
    exact h.clientFinished hkeyed body

theorem Agreed.deliveredToClient (h : Agreed c s net) {data : Bytes}
    (hpacket : ServerPacket c s net data) {coins : Bytes} {call : ClientCall}
    (hcall : clientCallOf coins data = some call) : Agreed c s (net.clientRuns call) := by
  cases hpacket with
  | resetAck hserver =>
    cases (clientCallOf_resetAck coins s.sid).symm.trans hcall
    exact h.resetAck hserver
  | hello inner body hinner hkeyed =>
    cases (clientCallOf_serverHello coins s.sid (inner ++ body)).symm.trans hcall
    exact h.serverHello hinner hkeyed coins

/-- One step: whatever arrives, from whenever it was sent. -/
theorem agreed_step (hx : X25519Agreement P) (net : Exchange P) (e : ExchangeEvent)
    (h : Agreed c s net) : Agreed c s (exchangeStep net e) := by
  cases e with
  | start => exact h.start
  | toServer i now coins =>
    simp only [exchangeStep]
    cases hcall : (net.toServer[i]?).bind (serverCallOf now coins) with
    | none => exact h
    | some call =>
      obtain ⟨data, hdata, hcall⟩ := Option.bind_eq_some_iff.mp hcall
      exact h.deliveredToServer hx (h.toServer data (List.mem_of_getElem? hdata)) hcall
  | toClient i coins =>
    simp only [exchangeStep]
    cases hcall : (net.toClient[i]?).bind (clientCallOf coins) with
    | none => exact h
    | some call =>
      obtain ⟨data, hdata, hcall⟩ := Option.bind_eq_some_iff.mp hcall
      exact h.deliveredToClient (h.toClient data (List.mem_of_getElem? hdata)) hcall

theorem Prepared.blank {isServer : Bool} {t : Session P} (h : Prepared isServer t) :
    t.peerSessionId = none ∧ t.cipher = none := by
  obtain ⟨draw, rfl | ⟨caPath, certPath, keyPath, rfl⟩⟩ := h
  · exact ⟨rfl, rfl⟩
  · obtain ⟨certBytes, he⟩ := configure_frame caPath certPath keyPath (Session.new draw isServer)
    rw [he]
    exact ⟨rfl, rfl⟩

theorem agreed_start (hc : Prepared false c) (hs : Prepared true s) :
    Agreed c s ⟨c, s, [], []⟩ where
  clientSetup := SameSetup.refl c
  serverSetup := SameSetup.refl s
  clientPeer := .inl hc.blank.1
  serverPeer := .inl hs.blank.1
  clientKey key hkey := by cases hc.blank.2.symm.trans hkey
  serverKey key hkey := by cases hs.blank.2.symm.trans hkey
  toServer data hdata := by cases hdata
  toClient data hdata := by cases hdata
  clientEstablished hest := by cases hc.idle.symm.trans hest
  serverEstablished hest := by cases hs.idle.symm.trans hest

def Session.channel (t : Session P) (compLzo : Bool) (window : WindowSize) : DataChannel :=
  .new P t.sessionId (orEmpty (t.peerSessionId.map Subtype.val)) t.cipher compLzo window

structure Paired (c s : Session P) : Prop where
  key : ∃ key : Cipher, key.key.length = 32 ∧ c.cipher = some key ∧ s.cipher = some key
  clientPeer : c.peerSessionId = some s.sessionId
  serverPeer : s.peerSessionId = some c.sessionId

/-- An established client suffices: it answered a hello of a server with the key. -/
theorem Agreed.paired (h : Agreed c s net) (hclient : net.client.isEstablished = true) :
    Paired net.client net.server := by
  obtain ⟨hkeyed, hsome⟩ := h.clientEstablished (eq_of_beq hclient)
  obtain ⟨clientKey, hclientKey⟩ := Option.isSome_iff_exists.mp hsome
  obtain ⟨serverKey, hserverKey⟩ := Option.isSome_iff_exists.mp hkeyed.cipher
  have hsame : clientKey = serverKey := Except.ok.inj
    ((h.clientKey clientKey hclientKey).symm.trans (h.serverKey serverKey hserverKey))
  refine ⟨⟨clientKey, clientKey.keyLength, hclientKey, hsame ▸ hserverKey⟩, ?_, ?_⟩
  · rw [h.serverSetup.sessionId]
    exact hkeyed.client
  · rw [h.clientSetup.sessionId]
    exact hkeyed.server

theorem Paired.channels (h : Paired c s) (lzoC lzoS : Bool) (windowC windowS : WindowSize) :
    ∃ key, c.channel lzoC windowC = .new P c.sessionId s.sessionId.val (some key) lzoC windowC ∧
      s.channel lzoS windowS = .new P s.sessionId c.sessionId.val (some key) lzoS windowS := by
  obtain ⟨key, -, hclient, hserver⟩ := h.key
  refine ⟨key, ?_, ?_⟩
  · rw [Session.channel, h.clientPeer, hclient]
    rfl
  · rw [Session.channel, h.serverPeer, hserver]
    rfl

/-- Whatever the network loses, repeats, delays or reorders: two sessions that are both
established hold one key, know each other's id, and their channels read each other. -/
theorem key_agreement (hx : X25519Agreement P) (ideal : IdealAead P)
    (hround : ∀ b, P.lz4Decompress (P.lz4Compress b) = .ok b) (hc : Prepared false c)
    (hs : Prepared true s) (es : List ExchangeEvent) :
    let net := run exchangeStep es ⟨c, s, [], []⟩
    net.client.isEstablished = true → net.server.isEstablished = true →
      Paired net.client net.server ∧
      ∀ lzoC lzoS windowC windowS,
        let clientChannel := net.client.channel lzoC windowC
        let serverChannel := net.server.channel lzoS windowS
        clientChannel.sharedId = serverChannel.sharedId ∧
        (Opens P clientChannel serverChannel ∧ Decrypts P clientChannel serverChannel) ∧
        (Opens P serverChannel clientChannel ∧ Decrypts P serverChannel clientChannel) := by
  intro net hclient _
  have hagreed : Agreed c s net :=
    inv_run_always (agreed_step hx) es _ (agreed_start hc hs)
  have hpaired := hagreed.paired hclient
  refine ⟨hpaired, ?_⟩
  intro lzoC lzoS windowC windowS clientChannel serverChannel
  obtain ⟨key, hclientChannel, hserverChannel⟩ := hpaired.channels lzoC lzoS windowC windowS
  simp only [clientChannel, serverChannel, hclientChannel, hserverChannel]
  exact ⟨deriveSessionId_comm _ _,
    ⟨opens_fresh ideal hround _ _ key lzoC lzoS windowC windowS,
      decrypts_fresh ideal hround _ _ key lzoC lzoS windowC windowS⟩,
    opens_fresh ideal hround _ _ key lzoS lzoC windowS windowC,
    decrypts_fresh ideal hround _ _ key lzoS lzoC windowS windowC⟩

end Agreement
namespace Transparent

theorem x25519Agreement : X25519Agreement primitives where
  exchange_comm a b := by
    refine congrArg Except.ok (List.zipWith_comm_of_comm ?_)
    exact UInt8.xor_comm
  fromPublicBytes_publicBytes key := dif_pos key.property

/-- A handshake with certificates in which the client starts twice, a reset comes twice and
late, and the server's last reset answer and the second hello are lost. -/
def lossyHandshake : List ExchangeEvent :=
  [.start, .start, .toServer 1 0 [], .toServer 0 0 [], .toClient 0 [], .toServer 2 0 [],
    .toServer 2 0 [], .toClient 2 [], .toServer 3 0 []]

theorem key_agreement_lossy :
    let net := run exchangeStep lossyHandshake ⟨authClient, authServer, [], []⟩
    Paired net.client net.server :=
  (key_agreement x25519Agreement ideal (fun _ => rfl)
    ⟨draw 7, .inr ⟨"ca.crt", "client.crt", "client.key", rfl⟩⟩
    ⟨draw 5, .inr ⟨"ca.crt", "server.crt", "server.key", rfl⟩⟩ lossyHandshake
    (by decide +kernel) (by decide +kernel)).1

end Transparent
end PyVpn
