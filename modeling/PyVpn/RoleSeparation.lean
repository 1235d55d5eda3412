import PyVpn.HelloCodec
import PyVpn.ServerAuth

/-! Any number of sessions and an attacker without private keys. Client and server
sign the same string, the client's ephemeral key followed by the server's, so what a
`CLIENT_FINISHED` signature proves depends on whose key the client's certificate names. -/
namespace PyVpn
open EventRun
variable {P : Primitives}

inductive HandlerCall where
  | server (c : ServerCall)
  | client (c : ClientCall)

/-- A session runs the handlers of its role; the attacker chooses every payload. -/
def handlerCall (s : Session P) : HandlerCall → Session P
  | .server c => if s.isServer then serverCall s c else s
  | .client c => if s.isServer then s else clientCall s c

abbrev World (P : Primitives) := Nat → Session P

def worldStep (w : World P) (e : Nat × HandlerCall) : World P := familyStep handlerCall w e

/-- The session signs with the private key of this certificate. -/
def OwnsKey (s : Session P) (cert : P.Certificate) : Prop :=
  ∃ key, signingKey (P := P) s.localKeyPath = .ok (some key) ∧
    P.certificateKey cert = .ok (P.signingPublicKey key)

/-- Ideal signatures: one that verifies at a `CLIENT_FINISHED` was made by a session
that owns the certificate's key and ran `_sign` on the message. -/
def Unforged (w : World P) : Nat × HandlerCall → Prop
  | (b, .server (.clientFinished payload)) => ∀ sig cert, signatureAt payload 0 = .ok sig →
      (w b).peerCert = some cert →
      verify cert (orEmpty (w b).peerPubEph ++ (w b).publicEph) sig = true →
      ∃ i, OwnsKey (w i) cert ∧ orEmpty (w b).peerPubEph ++ (w b).publicEph ∈ (w i).signed
  | _ => True

/-- X25519 public keys are 32 bytes. -/
structure X25519Sizes (P : Primitives) : Prop where
  publicBytes_length : ∀ key, (P.publicBytes key).length = 32
  fromPublicBytes_length : ∀ b key, P.fromPublicBytes b = .ok key → b.length = 32

/-- The message the accepted signature of session `b` is over was signed under `cert`
by a client with that same pair of ephemeral keys, and by no server. -/
def RoleSeparated (w : World P) (b : Nat) (cert : P.Certificate) : Prop :=
  (∃ i, (w i).isServer = false ∧ OwnsKey (w i) cert ∧
    some (w i).publicEph = (w b).peerPubEph ∧
    (w i).publicEph ++ (w b).publicEph ∈ (w i).signed) ∧
  ¬ ∃ i, (w i).isServer = true ∧ OwnsKey (w i) cert ∧
    orEmpty (w b).peerPubEph ++ (w b).publicEph ∈ (w i).signed

/-- What is signed with a key verifies under its public half. -/
structure HonestSignatures (P : Primitives) : Prop where
  kind : ∀ key, P.certificateKeyKind (P.signingPublicKey key) = P.signingKeyKind key
  verifies : ∀ key scheme coins data sig, P.sign key scheme coins data = .ok sig →
    P.verify (P.signingPublicKey key) scheme sig data = .ok ()

/-- The signature of the `SERVER_HELLO` that this hello gets, sent back as the
`CLIENT_FINISHED`, establishes the session. -/
def Reflects (s : Session P) (coins hello : Bytes) : Prop :=
  ∃ body sigLen sig, packCertAndPubkey (orEmpty s.localCertBytes) s.publicEph = .ok body ∧
    pack 2 sig.length = .ok sigLen ∧
    (serverHandleClientHello coins hello s).1 =
      .ok [encodeHandshakeMessage .serverHello s.sid (body ++ sigLen ++ sig)] ∧
    (run serverCall [.clientHello coins hello, .clientFinished (sigLen ++ sig)] s).state =
      .established

/-- What a session has signed so far: always client key then server key. -/
def SignedTranscripts (s : Session P) : Prop :=
  ∀ m ∈ s.signed, ∃ pubData,
    if s.isServer then m = pubData ++ s.publicEph
    else m = s.publicEph ++ pubData ∧ pubData.length = 32

theorem deriveCipher_length (sizes : X25519Sizes P) {privateEph : P.X25519PrivateKey}
    {pubData salt : Bytes} {cipher : Cipher}
    (h : deriveCipher privateEph pubData salt = .ok cipher) : pubData.length = 32 := by
  unfold deriveCipher at h
  cases hpub : P.fromPublicBytes pubData with
  | error e =>
    rw [hpub] at h
    cases h
  | ok key => exact sizes.fromPublicBytes_length pubData key hpub

theorem mem_recordSigned {s : Session P} {data m : Bytes} (h : m ∈ recordSigned s data) :
    m = data ∨ m ∈ s.signed := by
  unfold recordSigned at h
  split at h
  · exact List.mem_cons.mp h
  · exact .inr h

theorem signed_subset_recordSigned (s : Session P) (data : Bytes) :
    s.signed ⊆ recordSigned s data := by
  unfold recordSigned
  split
  · exact List.subset_cons_self data s.signed
  · exact List.Subset.refl _

theorem ServerOutcome.signed {s t : Session P} {c : ServerCall} (h : ServerOutcome s c t) :
    s.signed ⊆ t.signed ∧
      ∀ m ∈ t.signed, m ∈ s.signed ∨ ∃ pubData, m = pubData ++ s.publicEph := by
  have hkept : s.signed ⊆ s.signed ∧
      ∀ m ∈ s.signed, m ∈ s.signed ∨ ∃ pubData, m = pubData ++ s.publicEph :=
    ⟨List.Subset.refl _, fun _ hm => .inl hm⟩
  have hnew (pubData : Bytes) : s.signed ⊆ recordSigned s (pubData ++ s.publicEph) ∧
      ∀ m ∈ recordSigned s (pubData ++ s.publicEph),
        m ∈ s.signed ∨ ∃ pubData, m = pubData ++ s.publicEph := by
    refine ⟨signed_subset_recordSigned s _, ?_⟩
    intro m hm
    cases mem_recordSigned hm with
    | inl heq => exact .inr ⟨pubData, heq⟩
    | inr hold => exact .inl hold
  cases h with
  | helloFailed _ _ _ _ _ _ hsigned =>
    obtain rfl | ⟨pubData, rfl⟩ := hsigned
    · exact hkept
    · exact hnew pubData
  | helloAnswered _ _ _ pubData => exact hnew pubData
  | _ => exact hkept

theorem ClientOutcome.signed {s t : Session P} {c : ClientCall} (sizes : X25519Sizes P)
    (h : ClientOutcome s c t) : s.signed ⊆ t.signed ∧
      ∀ m ∈ t.signed, m ∈ s.signed ∨
        ∃ pubData, m = s.publicEph ++ pubData ∧ pubData.length = 32 := by
  have hkept : s.signed ⊆ s.signed ∧ ∀ m ∈ s.signed, m ∈ s.signed ∨
      ∃ pubData, m = s.publicEph ++ pubData ∧ pubData.length = 32 :=
    ⟨List.Subset.refl _, fun _ hm => .inl hm⟩
  have hnew {payload certData pubData : Bytes} {offset : Nat} {cert : Option P.Certificate}
      {cipher : Cipher} (hkeyed : HelloKeyed s payload certData pubData offset cert cipher) :
      s.signed ⊆ recordSigned s (s.publicEph ++ pubData) ∧
        ∀ m ∈ recordSigned s (s.publicEph ++ pubData), m ∈ s.signed ∨
          ∃ pubData, m = s.publicEph ++ pubData ∧ pubData.length = 32 := by
    refine ⟨signed_subset_recordSigned s _, ?_⟩
    intro m hm
    cases mem_recordSigned hm with
    | inl heq => exact .inr ⟨pubData, heq, deriveCipher_length sizes hkeyed.derived⟩
    | inr hold => exact .inl hold
  cases h with
  | helloFailed _ _ _ _ _ _ hsigned =>
    obtain rfl | ⟨_, pubData, _, _, _, hkeyed, rfl⟩ := hsigned
    · exact hkept
    · exact hnew hkeyed
  | helloAccepted _ _ _ _ _ _ _ _ _ _ hkeyed => exact hnew hkeyed
  | _ => exact hkept

theorem handlerCall_server {s : Session P} (hrole : s.isServer = true) (d : ServerCall) :
    handlerCall s (.server d) = serverCall s d := if_pos hrole

theorem handlerCall_client {s : Session P} (hrole : s.isServer = false) (d : ClientCall) :
    handlerCall s (.client d) = clientCall s d := if_neg (Bool.eq_false_iff.mp hrole)

theorem handlerCall_cases (s : Session P) (c : HandlerCall) :
    handlerCall s c = s ∨
      (s.isServer = true ∧ ∃ d, c = .server d ∧ handlerCall s c = serverCall s d) ∨
      (s.isServer = false ∧ ∃ d, c = .client d ∧ handlerCall s c = clientCall s d) := by
  cases hrole : s.isServer with
  | false =>
    cases c with
    | server d => exact .inl (if_neg (Bool.eq_false_iff.mp hrole))
    | client d => exact .inr (.inr ⟨rfl, d, rfl, handlerCall_client hrole d⟩)
  | true =>
    cases c with
    | server d => exact .inr (.inl ⟨rfl, d, rfl, handlerCall_server hrole d⟩)
    | client d => exact .inl (if_pos hrole)

theorem handlerCall_setup (s : Session P) (c : HandlerCall) : SameSetup s (handlerCall s c) := by
  obtain h | ⟨-, d, -, h⟩ | ⟨-, d, -, h⟩ := handlerCall_cases s c
  · rw [h]
    exact SameSetup.refl s
  · rw [h]
    exact serverCall_setup s d
  · rw [h]
    exact clientCall_setup s d

theorem handlerCall_signed_subset (sizes : X25519Sizes P) (s : Session P) (c : HandlerCall) :
    s.signed ⊆ (handlerCall s c).signed := by
  obtain h | ⟨-, d, -, h⟩ | ⟨-, d, -, h⟩ := handlerCall_cases s c
  · rw [h]
    exact List.Subset.refl _
  · rw [h]
    exact (serverCall_outcome s d).signed.1
  · rw [h]
    exact ((clientCall_outcome s d).signed sizes).1

theorem signedTranscripts_step (sizes : X25519Sizes P) (s : Session P) (c : HandlerCall)
    (h : SignedTranscripts s) : SignedTranscripts (handlerCall s c) := by
  intro m hm
  have hsetup := handlerCall_setup s c
  rw [hsetup.isServer, hsetup.publicEph]
  obtain hsame | ⟨hrole, d, -, hcall⟩ | ⟨hrole, d, -, hcall⟩ := handlerCall_cases s c
  · rw [hsame] at hm
    exact h m hm
  · rw [hcall] at hm
    cases (serverCall_outcome s d).signed.2 m hm with
    | inl hold => exact h m hold
    | inr hnew => simpa only [hrole, if_true] using hnew
  · rw [hcall] at hm
    cases ((clientCall_outcome s d).signed sizes).2 m hm with
    | inl hold => exact h m hold
    | inr hnew => simpa only [hrole, Bool.false_eq_true, if_false] using hnew

theorem Prepared.signed {isServer : Bool} {s : Session P} (h : Prepared isServer s) :
    s.signed = [] := by
  obtain ⟨draw, rfl | ⟨caPath, certPath, keyPath, rfl⟩⟩ := h
  · rfl
  · obtain ⟨certBytes, he⟩ := configure_frame caPath certPath keyPath (Session.new draw isServer)
    rw [he]
    rfl

theorem world_transcripts (sizes : X25519Sizes P) {w₀ : World P}
    (h₀ : ∀ i, Prepared (w₀ i).isServer (w₀ i)) (es : List (Nat × HandlerCall)) (i : Nat) :
    SignedTranscripts (run worldStep es w₀ i) := by
  refine family_inv (fun _ s c => signedTranscripts_step sizes s c) es ?_ i
  intro j m hm
  rw [(h₀ j).signed] at hm
  cases hm

theorem world_setup (es : List (Nat × HandlerCall)) (w : World P) (i : Nat) :
    SameSetup (w i) (run worldStep es w i) :=
  family_inv (I := fun j s => SameSetup (w j) s) (fun _ s c h => h.trans (handlerCall_setup s c)) es
    (fun j => SameSetup.refl (w j)) i

theorem world_signed (sizes : X25519Sizes P) (es : List (Nat × HandlerCall)) (w : World P)
    (i : Nat) : (w i).signed ⊆ (run worldStep es w i).signed :=
  family_inv (I := fun j (s : Session P) => (w j).signed ⊆ s.signed)
    (fun _ s c h => List.Subset.trans h (handlerCall_signed_subset sizes s c)) es
    (fun _ => List.Subset.refl _) i

theorem OwnsKey.of_setup {s t : Session P} {cert : P.Certificate} (h : SameSetup s t) :
    OwnsKey t cert ↔ OwnsKey s cert := by
  unfold OwnsKey
  rw [h.localKeyPath]

theorem answered_hello {s : Session P} {coins hello : Bytes}
    (h : (serverCall s (.clientHello coins hello)).state = .helloSent) :
    ∃ pubData, (serverCall s (.clientHello coins hello)).peerPubEph = some pubData := by
  have houtcome := serverCall_outcome s (.clientHello coins hello)
  generalize serverCall s (.clientHello coins hello) = t at h houtcome ⊢
  cases houtcome with
  | helloFailed => cases h
  | helloAnswered _ _ _ pubData => exact ⟨pubData, rfl⟩

theorem finished_established {s : Session P} {payload : Bytes}
    (h : (serverCall s (.clientFinished payload)).state = .established) :
    serverCall s (.clientFinished payload) = { s with state := .established } ∧
      ∃ sig, signatureAt payload 0 = .ok sig ∧
        signatureFails s.peerCert (orEmpty s.peerPubEph ++ s.publicEph) sig = false := by
  have houtcome := serverCall_outcome s (.clientFinished payload)
  generalize serverCall s (.clientFinished payload) = t at h houtcome ⊢
  cases houtcome with
  | finishedRefused => cases h
  | finished _ sig hsig hpass => exact ⟨rfl, sig, hsig, hpass⟩

/-- An auth-mode server session that processed a reset, one accepted hello and one
`CLIENT_FINISHED` and is established with peer certificate `cert`. -/
structure Victim (w₀ : World P) (b : Nat) (es : List (Nat × HandlerCall)) (cert : P.Certificate) :
    Prop where
  auth : ∃ caPath, AuthPrepared true caPath (w₀ b)
  calls : ∃ now raw coins hello finished, eventsOf b es =
    [.reset now raw, .clientHello coins hello, .clientFinished finished].map .server ∧
    (run serverCall [.reset now raw, .clientHello coins hello] (w₀ b)).state = .helloSent
  established : (run worldStep es w₀ b).state = .established
  certificate : (run worldStep es w₀ b).peerCert = some cert

theorem run_server (calls : List ServerCall) (s : Session P) (hrole : s.isServer = true) :
    run handlerCall (calls.map .server) s = run serverCall calls s := by
  induction calls generalizing s with
  | nil => rfl
  | cons c calls ih =>
    rw [List.map_cons, run_cons, run_cons, handlerCall_server hrole]
    exact ih _ ((serverCall_setup s c).isServer.trans hrole)

theorem Prepared.isServer {isServer : Bool} {s : Session P} (h : Prepared isServer s) :
    s.isServer = isServer := by
  obtain ⟨draw, rfl | ⟨caPath, certPath, keyPath, rfl⟩⟩ := h
  · rfl
  · obtain ⟨certBytes, he⟩ := configure_frame caPath certPath keyPath (Session.new draw isServer)
    rw [he]
    rfl

/-- What the world makes of the victim is what its three calls make of it. -/
theorem Victim.run_calls {w₀ : World P} {b : Nat} {es : List (Nat × HandlerCall)}
    {cert : P.Certificate} (h : Victim w₀ b es cert) {calls : List ServerCall}
    (hcalls : eventsOf b es = calls.map .server) :
    run worldStep es w₀ b = run serverCall calls (w₀ b) := by
  obtain ⟨caPath, hauth⟩ := h.auth
  rw [← run_server _ _ hauth.prepared.isServer]
  exact (family_run es w₀ b).trans (by rw [hcalls])

theorem Victim.answered {w₀ : World P} {b : Nat} {es : List (Nat × HandlerCall)}
    {cert : P.Certificate} (h : Victim w₀ b es cert) {now : Time} {raw coins hello finished : Bytes}
    (hcalls : eventsOf b es =
      [.reset now raw, .clientHello coins hello, .clientFinished finished].map .server) :
    (serverCall (serverCall (w₀ b) (.reset now raw)) (.clientHello coins hello)).state = .helloSent ∧
      (serverCall (serverCall (w₀ b) (.reset now raw)) (.clientHello coins hello)).peerCert =
        some cert := by
  obtain ⟨now', raw', coins', hello', finished', hcalls', hstate⟩ := h.calls
  have hest := h.established
  have hcert := h.certificate
  rw [h.run_calls hcalls] at hest hcert
  rw [hcalls] at hcalls'
  cases hcalls'
  have hwrote := (finished_established hest).1
  refine ⟨hstate, ?_⟩
  rw [run_cons, run_cons, run_cons, run_nil, hwrote] at hcert
  exact hcert

theorem Victim.finished {w₀ : World P} {b : Nat} {es : List (Nat × HandlerCall)}
    {cert : P.Certificate} (h : Victim w₀ b es cert) :
    ∃ u payload v sig pubData, es = u ++ (b, .server (.clientFinished payload)) :: v ∧
      (run worldStep u w₀ b).peerCert = some cert ∧
      (run worldStep u w₀ b).peerPubEph = some pubData ∧
      (run worldStep es w₀ b).peerPubEph = some pubData ∧
      signatureAt payload 0 = .ok sig ∧
      verify cert (pubData ++ (w₀ b).publicEph) sig = true := by
  obtain ⟨caPath, hauth⟩ := h.auth
  obtain ⟨now, raw, coins, hello, finished, hcalls, hstate⟩ := h.calls
  have hlast : eventsOf b es = [.reset now raw, .clientHello coins hello].map HandlerCall.server ++
      HandlerCall.server (.clientFinished finished) :: [] := hcalls
  obtain ⟨u, v, hsplit, hu, -⟩ := eventsOf_split hlast
  have hbefore : run worldStep u w₀ b =
      run serverCall [.reset now raw, .clientHello coins hello] (w₀ b) := by
    rw [← run_server _ _ hauth.prepared.isServer]
    exact (family_run u w₀ b).trans (by rw [hu])
  have hafter : run worldStep es w₀ b =
      serverCall (run worldStep u w₀ b) (.clientFinished finished) := by
    rw [h.run_calls hcalls, hbefore]
    rfl
  have hsetup : (run worldStep u w₀ b).publicEph = (w₀ b).publicEph :=
    (world_setup u w₀ b).publicEph
  obtain ⟨pubData, hpub⟩ := answered_hello (s := serverCall (w₀ b) (.reset now raw)) hstate
  change (run serverCall [.reset now raw, .clientHello coins hello] (w₀ b)).peerPubEph = _ at hpub
  rw [← hbefore] at hpub
  have hest := h.established
  have hcert := h.certificate
  rw [hafter] at hest hcert
  obtain ⟨hwrote, sig, hsig, hverifies⟩ := finished_established hest
  rw [hwrote] at hafter hcert
  have hfound : (run worldStep u w₀ b).peerCert = some cert := hcert
  rw [hfound, hpub, hsetup] at hverifies
  exact ⟨u, finished, v, sig, pubData, hsplit, hfound, hpub, by rw [hafter]; exact hpub, hsig,
    signatureFails_some.mp hverifies⟩

theorem OwnsKey.verifies (honest : HonestSignatures P) {s : Session P} {cert : P.Certificate}
    (h : OwnsKey s cert) {data' sig' : Bytes} (hkind : verify cert data' sig' = true)
    {coins data sig : Bytes} (hsign : sign (P := P) s.localKeyPath coins data = .ok sig) :
    verify cert data sig = true := by
  obtain ⟨key, hkey, hcert⟩ := h
  simp only [sign, hkey, bind, Except.bind] at hsign
  simp only [verify, hcert, honest.kind, bind, Except.bind] at hkind ⊢
  cases hother : P.signingKeyKind key with
  | other =>
    rw [hother] at hkind
    cases hkind
  | ec =>
    rw [hother] at hsign
    simp only [honest.verifies key _ coins data sig hsign]
    rfl
  | rsa =>
    rw [hother] at hsign
    simp only [honest.verifies key _ coins data sig hsign]
    rfl

/-- A hello under the session's own certificate gets an answer that establishes it. -/
theorem reflects_own (honest : HonestSignatures P) {s : Session P} {cert : P.Certificate}
    (howns : OwnsKey s cert) {coins hello data' sig' : Bytes}
    (hstate : (serverCall s (.clientHello coins hello)).state = .helloSent)
    (hcert : (serverCall s (.clientHello coins hello)).peerCert = some cert)
    (hkind : verify cert data' sig' = true) : Reflects s coins hello := by
  obtain ⟨pub, found, cipher, signed, hrun, -⟩ |
    ⟨certData, pubData, offset, found, cipher, sig, body, sigLen, -, hsign, hbody, hpack, hrun⟩ :=
    serverHandleClientHello_cases coins hello s
  · simp only [serverCall, hrun] at hstate
    cases hstate
  simp only [serverCall, hrun] at hcert
  subst hcert
  refine ⟨body, sigLen, sig, hbody, hpack, by rw [hrun], ?_⟩
  have hsig : signatureAt (sigLen ++ sig) 0 = .ok sig := by
    have hpacked := signatureAt_packed hpack [] []
    rwa [List.append_nil, List.nil_append] at hpacked
  have hpass : signatureFails (some cert) (pubData ++ s.publicEph) sig = false :=
    signatureFails_some.mpr (howns.verifies honest hkind hsign)
  rw [run_cons, run_cons, run_nil]
  simp only [serverCall, hrun]
  obtain ⟨hrefused, -⟩ | ⟨-, -, -, hfinished⟩ := serverHandleClientFinished_cases (sigLen ++ sig)
    { s with
      peerPubEph := some pubData, peerCert := some cert, cipher := some cipher, state := .helloSent
      signed := recordSigned s (pubData ++ s.publicEph) }
  · exact absurd (hrefused sig hsig) (by rw [Bool.not_eq_true]; exact hpass)
  · rw [hfinished]

/-- The accepted signature is a client's, on the same pair of ephemeral keys, and no
server's, unless the certificate names the key of a server session with the victim's
own ephemeral key. Where it names the victim's own, the signature of the victim's
`SERVER_HELLO` would have been accepted. -/
theorem signature_role_separated (sizes : X25519Sizes P) (w₀ : World P)
    (h₀ : ∀ i, Prepared (w₀ i).isServer (w₀ i)) (b : Nat) (es : List (Nat × HandlerCall))
    (hreal : Meets worldStep Unforged es w₀) (cert : P.Certificate) (hb : Victim w₀ b es cert) :
    ((∀ i, (w₀ i).isServer = true → (w₀ i).publicEph = (w₀ b).publicEph → ¬ OwnsKey (w₀ i) cert) →
      RoleSeparated (run worldStep es w₀) b cert) ∧
    (HonestSignatures P → OwnsKey (w₀ b) cert → ∀ now raw coins hello finished,
      eventsOf b es = [.reset now raw, .clientHello coins hello, .clientFinished finished].map
        .server → Reflects (serverCall (w₀ b) (.reset now raw)) coins hello) := by
  obtain ⟨u, payload, v, sig, pubData, hsplit, hcert, hpub, hpub', hsig, hverify⟩ :=
    hb.finished
  have heph (es : List (Nat × HandlerCall)) (i : Nat) :
      (run worldStep es w₀ i).publicEph = (w₀ i).publicEph := (world_setup es w₀ i).publicEph
  have hrole (es : List (Nat × HandlerCall)) (i : Nat) :
      (run worldStep es w₀ i).isServer = (w₀ i).isServer := (world_setup es w₀ i).isServer
  have howner (es : List (Nat × HandlerCall)) (i : Nat) :
      OwnsKey (run worldStep es w₀ i) cert ↔ OwnsKey (w₀ i) cert :=
    OwnsKey.of_setup (world_setup es w₀ i)
  have hlen (i : Nat) : (w₀ i).publicEph.length = 32 := sizes.publicBytes_length _
  constructor
  · intro hforeign
    -- no server signs this message: its own ephemeral key would be the victim's
    have hnoserver (es : List (Nat × HandlerCall)) (i : Nat) (hserver : (w₀ i).isServer = true)
        (howns : OwnsKey (w₀ i) cert) :
        pubData ++ (w₀ b).publicEph ∉ (run worldStep es w₀ i).signed := by
      intro hm
      obtain ⟨pub, htranscript⟩ := world_transcripts sizes h₀ es i _ hm
      rw [hrole, hserver, if_pos rfl, heph] at htranscript
      obtain ⟨-, hsame⟩ := List.append_inj' htranscript (by rw [hlen, hlen])
      exact hforeign i hserver hsame.symm howns
    rw [meets_iff_split] at hreal
    have hstep := hreal u _ v hsplit sig cert hsig hcert
    rw [hpub, heph] at hstep
    obtain ⟨i, howns, hm⟩ := hstep hverify
    rw [howner] at howns
    cases hserver : (w₀ i).isServer with
    | true => exact absurd hm (hnoserver u i hserver howns)
    | false =>
      constructor
      · obtain ⟨pub, htranscript⟩ := world_transcripts sizes h₀ u i _ hm
        rw [hrole, hserver, if_neg Bool.false_ne_true, heph] at htranscript
        obtain ⟨hclient, hpeer⟩ := List.append_inj' htranscript.1 (by rw [hlen, htranscript.2])
        refine ⟨i, (hrole es i).trans hserver, (howner es i).mpr howns, ?_, ?_⟩
        · rw [heph, hpub']
          exact congrArg some hclient.symm
        · rw [heph, heph, ← hclient, hsplit, run_append]
          exact world_signed sizes _ _ i hm
      · intro hserver
        obtain ⟨j, hj, hjowns, hjm⟩ := hserver
        rw [hrole] at hj
        rw [howner] at hjowns
        rw [hpub', heph] at hjm
        exact hnoserver es j hj hjowns hjm
  · intro honest howns now raw coins hello finished hcalls
    obtain ⟨hstate, hfound⟩ := hb.answered hcalls
    exact reflects_own honest ((OwnsKey.of_setup (serverCall_setup (w₀ b) _)).mpr howns) hstate
      hfound hverify

namespace Transparent

theorem sizes : X25519Sizes primitives where
  publicBytes_length := fun key => key.property
  fromPublicBytes_length := by
    intro b key h
    by_cases hlen : b.length = 32
    · exact hlen
    · change (if h : b.length = 32 then _ else _ : Except PyError Key) = _ at h
      rw [dif_neg hlen] at h
      cases h

def twoSessions : World primitives
  | 0 => authServer
  | 1 => authClient
  | _ => devClient

theorem twoSessions_prepared (i : Nat) : Prepared (twoSessions i).isServer (twoSessions i) := by
  match i with
  | 0 => exact authServer_prepared.prepared
  | 1 => exact ⟨draw 7, .inr ⟨"ca.crt", "client.crt", "client.key", rfl⟩⟩
  | _ + 2 => exact ⟨draw 7, .inl rfl⟩

def honestRun : List (Nat × HandlerCall) :=
  [(1, .client .start), (0, .server (.reset 0 (resetPacket 7))),
    (1, .client (.resetAck (resetAckPacket 5))), (0, .server (.clientHello [] (hello [2, 100] 7))),
    (1, .client (.serverHello [] (hello [1, 100] 5 ++ signatureField 1 7 5))),
    (0, .server (.clientFinished (signatureField 2 7 5)))]

theorem honestRun_unforged : Meets worldStep Unforged honestRun twoSessions := by
  refine ⟨trivial, trivial, trivial, trivial, trivial, ?_, trivial⟩
  intro sig cert _ hcert _
  have hclient : cert = ⟨2, 100⟩ := (Option.some.inj hcert).symm
  subst hclient
  exact ⟨1, ⟨(2 : UInt8), rfl, rfl⟩, by decide⟩

theorem honestSignatures : HonestSignatures primitives where
  kind := fun _ => rfl
  verifies := by
    intro key scheme coins data sig h
    cases h
    exact if_pos rfl

/-- The attacker shows the server's own certificate and sends back the signature of the
`SERVER_HELLO` it gets. -/
def reflection : List (Nat × HandlerCall) :=
  [(0, .server (.reset 0 (resetPacket 7))), (0, .server (.clientHello [] (hello [1, 100] 7))),
    (0, .server (.clientFinished (signatureField 1 7 5)))]

theorem reflection_victim : Victim twoSessions 0 reflection (⟨1, 100⟩ : Certificate) :=
  ⟨⟨"ca.crt", authServer_prepared⟩, ⟨_, _, _, _, _, rfl, by decide⟩, by decide, rfl⟩

theorem reflection_unforged : Meets worldStep Unforged reflection twoSessions := by
  refine ⟨trivial, trivial, ?_, trivial⟩
  intro sig cert _ hcert _
  have hserver : cert = ⟨1, 100⟩ := (Option.some.inj hcert).symm
  subst hserver
  exact ⟨0, ⟨(1 : UInt8), rfl, rfl⟩, by decide⟩

/-- The honest handshake is role separated; under its own certificate the server would have
taken its own signature. -/
theorem signature_role_separated_handshake :
    RoleSeparated (run worldStep honestRun twoSessions) 0 (⟨2, 100⟩ : Certificate) ∧
    Reflects (serverCall authServer (.reset 0 (resetPacket 7))) [] (hello [1, 100] 7) := by
  constructor
  · refine (signature_role_separated sizes twoSessions twoSessions_prepared 0 honestRun
      honestRun_unforged ⟨2, 100⟩ ⟨⟨"ca.crt", authServer_prepared⟩,
        ⟨_, _, _, _, _, rfl, by decide⟩, by decide, rfl⟩).1 ?_
    intro i hserver _ howns
    match i with
    | 0 =>
      obtain ⟨key, hkey, hcert⟩ := howns
      cases hkey
      cases hcert
    | 1 => cases hserver
    | _ + 2 => cases hserver
  · exact (signature_role_separated sizes twoSessions twoSessions_prepared 0 reflection
      reflection_unforged ⟨1, 100⟩ reflection_victim).2 honestSignatures
        ⟨(1 : UInt8), rfl, rfl⟩ 0 (resetPacket 7) [] (hello [1, 100] 7) _ rfl

/-- The reflected `SERVER_HELLO` signature is accepted as a `CLIENT_FINISHED`. -/
theorem server_signature_reflected :
    Victim twoSessions 0 reflection (⟨1, 100⟩ : Certificate) ∧
    Meets worldStep Unforged reflection twoSessions ∧
    (serverHandleClientHello [] (hello [1, 100] 7)
      (serverCall authServer (.reset 0 (resetPacket 7)))).1 = .ok [encodeHandshakeMessage
        .serverHello authServer.sid (hello [1, 100] 5 ++ signatureField 1 7 5)] ∧
    ¬ RoleSeparated (run worldStep reflection twoSessions) 0 (⟨1, 100⟩ : Certificate) := by
  refine ⟨reflection_victim, reflection_unforged, by decide, ?_⟩
  -- no client has signed anything
  intro ⟨⟨i, hclient, _, _, hm⟩, _⟩
  match i with
  | 0 => cases hclient
  | 1 => exact absurd hm List.not_mem_nil
  | _ + 2 => exact absurd hm List.not_mem_nil

end Transparent
end PyVpn
