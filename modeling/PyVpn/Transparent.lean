import PyVpn.Server

/-! Computable stand-ins for the third-party primitives, so that runs of the model
can be evaluated. Certificates and signatures show who made them, a derived key
shows its salt and secret, a tag shows what it covers; the laws the results assume
of the real primitives hold here too. -/
namespace PyVpn.Transparent

/-- `[subject key, issuer key]`. -/
structure Certificate where
  subject : UInt8
  issuer : UInt8
  deriving DecidableEq

def loadPem : Bytes → Except PyError Certificate
  | [subject, issuer] => .ok ⟨subject, issuer⟩
  | _ => .error .valueError

def loadKey : Bytes → Except PyError UInt8
  | [key] => .ok key
  | _ => .error .valueError

/-- A signature is the key followed by the message. -/
def checkSignature (key : UInt8) (sig data : Bytes) : Except PyError Unit :=
  if sig = key :: data then .ok () else .error .cryptoError

def readFile (path : String) : Except PyError Bytes :=
  if path = "ca.crt" then .ok [100, 100]
  else if path = "server.crt" then .ok [1, 100]
  else if path = "server.key" then .ok [1]
  else if path = "client.crt" then .ok [2, 100]
  else if path = "client.key" then .ok [2]
  else .error .osError

def total (b : Bytes) : UInt8 := b.foldl (· + ·) 0

def tag (key nonce data aad : Bytes) : Bytes :=
  [total key, total nonce, total data, total aad] ++ List.replicate 12 0

def sealBytes (key nonce data aad : Bytes) : Bytes := data ++ tag key nonce data aad

def openSealed (key nonce data aad : Bytes) : Except PyError Bytes :=
  let plaintext := data.take (data.length - 16)
  if data = sealBytes key nonce plaintext aad then .ok plaintext else .error .cryptoError

abbrev Key := { b : Bytes // b.length = 32 }

def primitives : Primitives where
  X25519PrivateKey := Key
  X25519PublicKey := Key
  publicKey := id
  publicBytes := Subtype.val
  fromPublicBytes b := if h : b.length = 32 then .ok ⟨b, h⟩ else .error .valueError
  exchange a b := .ok (List.zipWith (· ^^^ ·) a.val b.val)
  hkdf length salt _ secret := (salt ++ secret ++ List.replicate length 0).take length
  aesgcmEncrypt := sealBytes
  aesgcmDecrypt := openSealed
  Certificate := Certificate
  CertificateKey := UInt8
  SigningKey := UInt8
  Hash := Unit
  sha256 := ()
  loadPemCertificate := loadPem
  loadPemPrivateKey := loadKey
  certificateKey cert := .ok cert.subject
  certificateKeyKind _ := .rsa
  verify key _ sig data := checkSignature key sig data
  certificateSignature cert := [cert.issuer, cert.subject]
  tbsCertificateBytes cert := [cert.subject]
  signatureHashAlgorithm _ := ()
  signingKeyKind _ := .rsa
  sign key _ _ data := .ok (key :: data)
  signingPublicKey := id
  readFile := readFile
  lz4Compress := id
  lz4Decompress := .ok
  hasLz4 := true

theorem sealBytes_length (key nonce data aad : Bytes) :
    (sealBytes key nonce data aad).length = data.length + 16 := by
  simp [sealBytes, tag]

theorem ideal : IdealAead primitives where
  encrypt_length := sealBytes_length
  decrypt_iff := by
    intro key nonce data aad plaintext
    change openSealed key nonce data aad = .ok plaintext ↔ data = sealBytes key nonce plaintext aad
    unfold openSealed
    constructor
    · intro h
      dsimp only at h
      split at h
      · rename_i hdata
        cases h
        exact hdata
      · cases h
    · intro hdata
      subst hdata
      have htake : (sealBytes key nonce plaintext aad).take
          ((sealBytes key nonce plaintext aad).length - 16) = plaintext := by
        rw [sealBytes_length, Nat.add_sub_cancel]
        simp [sealBytes]
      simp only [htake, ite_true]

def keyOf (b : UInt8) : Key := ⟨List.replicate 32 b, by simp⟩

def sidOf (b : UInt8) : SessionId := ⟨List.replicate 8 b, by simp⟩

def draw (b : UInt8) : SessionDraw primitives := ⟨sidOf b, keyOf b, 0⟩

def resetPacket (b : UInt8) : Bytes := encodePacket .hardResetClient (intOfBytes (sidOf b).val) []

def resetAckPacket (b : UInt8) : Bytes :=
  encodePacket .hardResetServer (intOfBytes (sidOf b).val) []

def hello (cert : Bytes) (eph : UInt8) : Bytes :=
  [0, UInt8.ofNat cert.length] ++ cert ++ [0, 32] ++ (keyOf eph).val

/-- The signature field: what `key` signs over the client's and the server's ephemeral key. -/
def signatureField (key clientEph serverEph : UInt8) : Bytes :=
  [0, 65] ++ key :: ((keyOf clientEph).val ++ (keyOf serverEph).val)

def devServer : Session primitives := Session.new (draw 5) true

def devClient : Session primitives := Session.new (draw 7) false

def authServer : Session primitives :=
  (configure "ca.crt" "server.crt" "server.key" (Session.new (draw 5) true)).2

def authClient : Session primitives :=
  (configure "ca.crt" "client.crt" "client.key" (Session.new (draw 7) false)).2

def nonceOf (b : UInt8) : Nonce := ⟨List.replicate 12 b, by simp⟩

def cipherOf (b : UInt8) : Cipher := ⟨(keyOf b).val, (keyOf b).property⟩

def sender : DataChannel := .new primitives (sidOf 5) (sidOf 7).val (some (cipherOf 9)) false

def receiver : DataChannel := .new primitives (sidOf 7) (sidOf 5).val (some (cipherOf 9)) false

def poolConfig : Config :=
  { server := some "10.8.0.0/24", ifconfigPool := some "10.8.0.2-10.8.0.3" }

def started : VpnServer primitives :=
  match VpnServer.start poolConfig with
  | .ok self => self
  | .error _ => ⟨poolConfig, true, ∅, ∅, none, []⟩

def peer : Addr := ⟨⟨[192, 168, 1, 7], rfl⟩, 40000⟩

def helloPacket (cert : Bytes) (eph : UInt8) : Bytes :=
  encodeHandshakeMessage .clientHello (intOfBytes (sidOf eph).val) (hello cert eph)

def finishedPacket (signature : Bytes) (eph : UInt8) : Bytes :=
  encodeHandshakeMessage .clientFinished (intOfBytes (sidOf eph).val) signature

/-- The datagrams of one dev-mode handshake of the peer that draws `b`, all at time 0. -/
def handshake (b : UInt8) : List (ServerEvent primitives) :=
  [.datagram ⟨draw 5, []⟩ (resetPacket b) peer, .datagram ⟨draw 5, []⟩ (helloPacket [] b) peer,
    .datagram ⟨draw 5, []⟩ (finishedPacket [0, 0] b) peer]

/-- The server after the handshake: `peer` is ready and has 10.8.0.2. -/
def served : VpnServer primitives := EventRun.run serverStep (handshake 7) started

theorem started_reachable : ServerReachable started :=
  ⟨started, [], ⟨poolConfig, rfl⟩, rfl⟩

theorem served_reachable : ServerReachable served :=
  ⟨started, handshake 7, ⟨poolConfig, rfl⟩, rfl⟩

end PyVpn.Transparent
