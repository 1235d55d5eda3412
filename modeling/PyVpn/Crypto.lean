import PyVpn.Python

/-! What the repository uses of the `cryptography` and `lz4` packages and of the
file system, as parameters; over them its own `crypto` modules. -/
namespace PyVpn

/-- `isinstance` of a certificate or private key. -/
inductive KeyKind where
  | rsa | ec | other
  deriving DecidableEq, Repr

/-- Padding or curve scheme, with the hash it was given. -/
inductive Scheme (Hash : Type) where
  | pkcs1v15 (h : Hash)
  | ecdsa (h : Hash)

/-- The third-party operations. A call that raises returns `.error`; random
nonces and signature coins are arguments. -/
structure Primitives where
  X25519PrivateKey : Type
  X25519PublicKey : Type
  publicKey : X25519PrivateKey → X25519PublicKey
  publicBytes : X25519PublicKey → Bytes
  fromPublicBytes : Bytes → Except PyError X25519PublicKey
  exchange : X25519PrivateKey → X25519PublicKey → Except PyError Bytes
  hkdf : (length : Nat) → (salt info secret : Bytes) → Bytes
  aesgcmEncrypt : (key nonce data aad : Bytes) → Bytes
  aesgcmDecrypt : (key nonce data aad : Bytes) → Except PyError Bytes
  Certificate : Type
  CertificateKey : Type
  SigningKey : Type
  Hash : Type
  sha256 : Hash
  loadPemCertificate : Bytes → Except PyError Certificate
  loadPemPrivateKey : Bytes → Except PyError SigningKey
  certificateKey : Certificate → Except PyError CertificateKey
  certificateKeyKind : CertificateKey → KeyKind
  verify : CertificateKey → Scheme Hash → (sig data : Bytes) → Except PyError Unit
  certificateSignature : Certificate → Bytes
  tbsCertificateBytes : Certificate → Bytes
  signatureHashAlgorithm : Certificate → Hash
  signingKeyKind : SigningKey → KeyKind
  sign : SigningKey → Scheme Hash → (coins data : Bytes) → Except PyError Bytes
  /-- The public key that belongs to a private key. -/
  signingPublicKey : SigningKey → CertificateKey
  readFile : String → Except PyError Bytes
  lz4Compress : Bytes → Bytes
  lz4Decompress : Bytes → Except PyError Bytes
  hasLz4 : Bool

section
variable (P : Primitives)

def loadCertificate (path : String) : Except PyError P.Certificate := do
  P.loadPemCertificate (← P.readFile path)

def loadPrivateKey (path : String) : Except PyError P.SigningKey := do
  P.loadPemPrivateKey (← P.readFile path)

/-- `verify_certificate`: the signature of the CA key over the certificate, nothing else. -/
def verifyCertificate (cert caCert : P.Certificate) : Bool :=
  let attempt : Except PyError Bool := do
    let caPublicKey ← P.certificateKey caCert
    match P.certificateKeyKind caPublicKey with
    | .rsa =>
      P.verify caPublicKey (.pkcs1v15 (P.signatureHashAlgorithm cert))
        (P.certificateSignature cert) (P.tbsCertificateBytes cert)
      return true
    | .ec =>
      P.verify caPublicKey (.ecdsa (P.signatureHashAlgorithm cert))
        (P.certificateSignature cert) (P.tbsCertificateBytes cert)
      return true
    | .other => return false
  match attempt with
  | .ok ok => ok
  | .error _ => false

def dataChannelInfo : Bytes := "pyvpn-data-channel".toUTF8.toList

/-- `derive_shared_key` with its default info and length. -/
def deriveSharedKey (privateKey : P.X25519PrivateKey) (peerPublicKey : P.X25519PublicKey)
    (salt : Bytes) : Except PyError Bytes := do
  let shared ← P.exchange privateKey peerPublicKey
  return P.hkdf 32 salt dataChannelInfo shared

end

/-- An AES-256-GCM cipher object: a 32-byte key. -/
structure Cipher where
  key : Bytes
  keyLength : key.length = 32
  deriving DecidableEq

def Cipher.new (key : Bytes) : Except PyError Cipher :=
  if h : key.length = 32 then .ok ⟨key, h⟩ else .error .valueError

/-- `os.urandom(12)`. -/
abbrev Nonce := { b : Bytes // b.length = 12 }

def Cipher.encrypt (P : Primitives) (c : Cipher) (nonce : Nonce) (plaintext aad : Bytes) : Bytes :=
  nonce.val ++ P.aesgcmEncrypt c.key nonce.val plaintext aad

def Cipher.decrypt (P : Primitives) (c : Cipher) (data aad : Bytes) : Except PyError Bytes :=
  if data.length < 12 then .error .valueError
  else P.aesgcmDecrypt c.key (data.take 12) (data.drop 12) aad

/-- AES-GCM as an ideal AEAD: it opens exactly what was sealed under the same
key, nonce and associated data, and appends a 16-byte tag. -/
structure IdealAead (P : Primitives) : Prop where
  encrypt_length : ∀ key nonce plaintext aad,
    (P.aesgcmEncrypt key nonce plaintext aad).length = plaintext.length + 16
  decrypt_iff : ∀ key nonce data aad plaintext,
    P.aesgcmDecrypt key nonce data aad = .ok plaintext ↔
      data = P.aesgcmEncrypt key nonce plaintext aad

theorem Cipher.decrypt_encrypt {P : Primitives} (ideal : IdealAead P) (c : Cipher)
    (nonce : Nonce) (plaintext aad : Bytes) :
    c.decrypt P (c.encrypt P nonce plaintext aad) aad = .ok plaintext := by
  have hlen : ¬ (c.encrypt P nonce plaintext aad).length < 12 := by
    simp [Cipher.encrypt, nonce.property]
  have htake : (c.encrypt P nonce plaintext aad).take 12 = nonce.val := by
    rw [Cipher.encrypt, List.take_append_of_le_length (Nat.le_of_eq nonce.property.symm),
      List.take_of_length_le (Nat.le_of_eq nonce.property)]
  have hdrop : (c.encrypt P nonce plaintext aad).drop 12 =
      P.aesgcmEncrypt c.key nonce.val plaintext aad := by
    rw [Cipher.encrypt, List.drop_append_of_le_length (Nat.le_of_eq nonce.property.symm),
      List.drop_of_length_le (Nat.le_of_eq nonce.property), List.nil_append]
  rw [Cipher.decrypt, if_neg hlen, htake, hdrop]
  exact (ideal.decrypt_iff _ _ _ _ _).mpr rfl

end PyVpn
