import PyVpn.Crypto
import PyVpn.Packet

/-! The handshake of `protocol/control.py`: one `Session` object and the handlers
that mutate it. A handler that raises keeps what it wrote before. -/
namespace PyVpn

inductive HandshakeState where
  | idle | resetSent | resetRcvd | helloSent | established | error
  deriving DecidableEq, Repr

def handshakeTimeout : Time := 30

structure Session (P : Primitives) where
  sessionId : SessionId
  peerSessionId : Option SessionId
  state : HandshakeState
  isServer : Bool
  cipher : Option Cipher
  peerCert : Option P.Certificate
  privateEph : P.X25519PrivateKey
  peerPubEph : Option Bytes
  localKeyPath : Option String
  caPath : Option String
  localCertBytes : Option Bytes
  lastRx : Time
  createdAt : Time
  assignedIp : Option String
  /-- History variable: the messages `_sign` was run on with this session's key path. -/
  signed : List Bytes

/-- What `Session.__init__` draws from its environment. -/
structure SessionDraw (P : Primitives) where
  sessionId : SessionId
  privateEph : P.X25519PrivateKey
  now : Time

section
variable {P : Primitives}

def Session.new (draw : SessionDraw P) (isServer : Bool) : Session P where
  sessionId := draw.sessionId
  peerSessionId := none
  state := .idle
  isServer := isServer
  cipher := none
  peerCert := none
  privateEph := draw.privateEph
  peerPubEph := none
  localKeyPath := none
  caPath := none
  localCertBytes := none
  lastRx := draw.now
  createdAt := draw.now
  assignedIp := none
  signed := []

def Session.publicEph (s : Session P) : Bytes := P.publicBytes (P.publicKey s.privateEph)

def Session.sid (s : Session P) : UInt64 := intOfBytes s.sessionId.val

def configure (caPath certPath keyPath : String) : Py (Session P) Unit := do
  Py.assign fun s => { s with caPath := some caPath, localKeyPath := some keyPath }
  if certPath ≠ "" then
    let certBytes ← Py.ofExcept (P.readFile certPath)
    Py.assign fun s => { s with localCertBytes := some certBytes }

def Session.isEstablished (s : Session P) : Bool := s.state == .established

def Session.isExpired (s : Session P) (now : Time) : Bool :=
  s.state != .established && s.state != .idle && decide (now - s.createdAt > handshakeTimeout)

/-- The key `_sign` uses: nothing without a key path, else the loaded key. -/
def signingKey (keyPath : Option String) : Except PyError (Option P.SigningKey) :=
  match keyPath with
  | none => .ok none
  | some path => if path = "" then .ok none else (loadPrivateKey P path).map some

def sign (keyPath : Option String) (coins data : Bytes) : Except PyError Bytes := do
  match ← signingKey (P := P) keyPath with
  | none => return []
  | some key =>
    match P.signingKeyKind key with
    | .ec => P.sign key (.ecdsa P.sha256) coins data
    | .rsa => P.sign key (.pkcs1v15 P.sha256) coins data
    | .other => return []

def verify (cert : P.Certificate) (data sig : Bytes) : Bool :=
  let attempt : Except PyError Bool := do
    let pk ← P.certificateKey cert
    match P.certificateKeyKind pk with
    | .ec => P.verify pk (.ecdsa P.sha256) sig data; return true
    | .rsa => P.verify pk (.pkcs1v15 P.sha256) sig data; return true
    | .other => return false
  match attempt with
  | .ok ok => ok
  | .error _ => false

def verifyPeerCert (s : Session P) : Except PyError Bool :=
  match s.caPath with
  | none => .ok true
  | some caPath =>
    if caPath = "" then .ok true
    else
      match s.peerCert with
      | none => .ok false
      | some cert => do
        let ca ← loadCertificate P caPath
        return verifyCertificate P cert ca

def packCertAndPubkey (certBytes pubBytes : Bytes) : Except PyError Bytes := do
  let certLen ← pack 2 certBytes.length
  let pubLen ← pack 2 pubBytes.length
  return certLen ++ certBytes ++ pubLen ++ pubBytes

/-- `_unpack_hello`: certificate, public key, and the offset after them. -/
def unpackHello (payload : Bytes) (offset : Nat) : Except PyError (Bytes × Bytes × Nat) := do
  let certLen ← unpack 2 (slice payload offset (offset + 2))
  let offset := offset + 2
  let certData := slice payload offset (offset + certLen)
  let offset := offset + certLen
  let pubLen ← unpack 2 (slice payload offset (offset + 2))
  let offset := offset + 2
  let pubData := slice payload offset (offset + pubLen)
  let offset := offset + pubLen
  return (certData, pubData, offset)

/-- `load_pem_x509_certificate(cert_data) if cert_data else None`. -/
def loadPeerCert (certData : Bytes) : Except PyError (Option P.Certificate) :=
  if certData = [] then .ok none else (P.loadPemCertificate certData).map some

/-- `a + b if a < b else b + a`. -/
def orderedConcat (a b : Bytes) : Bytes := if a < b then a ++ b else b ++ a

/-- `_handshake_salt`: both session ids, the smaller one first. -/
def handshakeSalt (s : Session P) : Bytes :=
  orderedConcat s.sessionId.val (orEmpty (s.peerSessionId.map Subtype.val))

/-- The cipher of the handshake: `Cipher(derive_shared_key(private, peer_pub, salt))`. -/
def deriveCipher (privateEph : P.X25519PrivateKey) (pubData salt : Bytes) :
    Except PyError Cipher := do
  let peerPub ← P.fromPublicBytes pubData
  let shared ← deriveSharedKey P privateEph peerPub salt
  Cipher.new shared

/-- The block both hello handlers share: take the peer certificate, check it, and
derive the session key from the bytes the peer sent as its ephemeral key. -/
def acceptPeer (certData pubData : Bytes) : Py (Session P) Bool := do
  let cert ← Py.ofExcept (loadPeerCert certData)
  Py.assign fun s => { s with peerCert := cert }
  if !(← Py.ofExcept (verifyPeerCert (← Py.self))) then
    return false
  let s ← Py.self
  let cipher ← Py.ofExcept (deriveCipher s.privateEph pubData (handshakeSalt s))
  Py.assign fun s => { s with cipher := some cipher }
  return true

/-- `_sign(session._local_key_path, data)`, recorded when there is a key path. -/
def signAs (coins data : Bytes) : Py (Session P) Bytes := do
  let s ← Py.self
  if truthy s.localKeyPath then
    Py.assign fun s => { s with signed := data :: s.signed }
  Py.ofExcept (sign (P := P) s.localKeyPath coins data)

def setState (state : HandshakeState) : Py (Session P) Unit :=
  Py.assign fun s => { s with state := state }

/-- The `except Exception` clause of the three `try` handlers. -/
def failHandshake : Py (Session P) (List Bytes) := do
  setState .error
  return []

def clientStartHandshake : Py (Session P) (List Bytes) := do
  setState .resetSent
  let s ← Py.self
  return [encodePacket .hardResetClient s.sid []]

def serverHandleReset (now : Time) (raw : Bytes) : Py (Session P) (List Bytes) := do
  let (opcode, sid, _) ← Py.ofExcept (decodePacket raw)
  if opcode ≠ .hardResetClient then
    return []
  Py.assign fun s =>
    { s with peerSessionId := some (packQ sid), state := .resetRcvd, lastRx := now }
  let s ← Py.self
  return [encodePacket .hardResetServer s.sid []]

def clientHandleResetAck (raw : Bytes) : Py (Session P) (List Bytes) := do
  let (opcode, sid, _) ← Py.ofExcept (decodePacket raw)
  if opcode ≠ .hardResetServer then
    return []
  Py.assign fun s => { s with peerSessionId := some (packQ sid), state := .resetRcvd }
  let s ← Py.self
  let inner ← Py.ofExcept (packCertAndPubkey (orEmpty s.localCertBytes) s.publicEph)
  return [encodeHandshakeMessage .clientHello s.sid inner]

/-- The last block of `server_handle_client_hello`: sign and build the `SERVER_HELLO`. -/
def serverHelloReply (coins pubData : Bytes) : Py (Session P) (List Bytes) := do
  let s ← Py.self
  let myPub := s.publicEph
  let sig ← signAs coins (pubData ++ myPub)
  let hello ← Py.ofExcept (packCertAndPubkey (orEmpty s.localCertBytes) myPub)
  let sigLen ← Py.ofExcept (pack 2 sig.length)
  setState .helloSent
  return [encodeHandshakeMessage .serverHello s.sid (hello ++ sigLen ++ sig)]

def serverHandleClientHello (coins payload : Bytes) : Py (Session P) (List Bytes) :=
  Py.tryExcept (do
    let (certData, pubData, _) ← Py.ofExcept (unpackHello payload 0)
    Py.assign fun s => { s with peerPubEph := some pubData }
    if !(← acceptPeer certData pubData) then
      setState .error
      return []
    serverHelloReply coins pubData)
  failHandshake

/-- The length-prefixed signature that starts at `offset`. -/
def signatureAt (payload : Bytes) (offset : Nat) : Except PyError Bytes := do
  let sigLen ← unpack 2 (slice payload offset (offset + 2))
  let offset := offset + 2
  return slice payload offset (offset + sigLen)

/-- A peer that showed a certificate has to have signed; without one nothing is checked. -/
def signatureFails (cert : Option P.Certificate) (checkData sig : Bytes) : Bool :=
  cert.any fun cert => !verify cert checkData sig

/-- The last block of `client_handle_server_hello`: sign and build the `CLIENT_FINISHED`. -/
def clientFinishedReply (coins pubData : Bytes) : Py (Session P) (List Bytes) := do
  setState .established
  let s ← Py.self
  let finishSig ← signAs coins (s.publicEph ++ pubData)
  let sigLen ← Py.ofExcept (pack 2 finishSig.length)
  return [encodeHandshakeMessage .clientFinished s.sid (sigLen ++ finishSig)]

def clientHandleServerHello (coins payload : Bytes) : Py (Session P) (List Bytes) :=
  Py.tryExcept (do
    let (certData, pubData, offset) ← Py.ofExcept (unpackHello payload 0)
    Py.assign fun s => { s with peerPubEph := some pubData }
    let sig ← Py.ofExcept (signatureAt payload offset)
    if !(← acceptPeer certData pubData) then
      setState .error
      return []
    let s ← Py.self
    if signatureFails s.peerCert (s.publicEph ++ pubData) sig then
      setState .error
      return []
    clientFinishedReply coins pubData)
  failHandshake

def serverHandleClientFinished (payload : Bytes) : Py (Session P) (List Bytes) :=
  Py.tryExcept (do
    let sig ← Py.ofExcept (signatureAt payload 0)
    let s ← Py.self
    if signatureFails s.peerCert (orEmpty s.peerPubEph ++ s.publicEph) sig then
      setState .error
      return []
    setState .established
    return [])
  failHandshake

end
end PyVpn
