import PyVpn.KeyAgreement
import PyVpn.KeyCoherence
import PyVpn.RoleSeparation

/-! What the signatures of a handshake bind. Both ends sign the two ephemeral keys and
nothing else: an attacker cannot make the two sides hold different ephemeral keys, but it
can alter the session ids of the resets and leave both sides established. -/
namespace PyVpn
open EventRun
section
variable {P : Primitives} {w₀ w : World P} {s c : Session P} {cert : P.Certificate}
  {message : Bytes}

/-- A signature check that a call makes and that succeeds: certificate and message. -/
inductive Checks (s : Session P) : HandlerCall → P.Certificate → Bytes → Prop
  | finished (payload sig : Bytes) (cert : P.Certificate) (hsig : signatureAt payload 0 = .ok sig)
      (hcert : s.peerCert = some cert)
      (hverify : verify cert (orEmpty s.peerPubEph ++ s.publicEph) sig = true) :
      Checks s (.server (.clientFinished payload)) cert (orEmpty s.peerPubEph ++ s.publicEph)
  | hello (coins payload certData pubData sig : Bytes) (offset : Nat) (cert : P.Certificate)
      (hunpack : unpackHello payload 0 = .ok (certData, pubData, offset))
      (hload : loadPeerCert certData = .ok (some cert))
      (hsig : signatureAt payload offset = .ok sig)
      (hverify : verify cert (s.publicEph ++ pubData) sig = true) :
      Checks s (.client (.serverHello coins payload)) cert (s.publicEph ++ pubData)

/-- Where any session has the certificate's key, one that has it signed the message. -/
def SignedByOwner (w : World P) (cert : P.Certificate) (message : Bytes) : Prop :=
  (∃ k, OwnsKey (w k) cert) → ∃ k, OwnsKey (w k) cert ∧ message ∈ (w k).signed

/-- Ideal signatures: the attacker has no session's private key. -/
def IdealSignatures (w : World P) (e : Nat × HandlerCall) : Prop :=
  ∀ cert message, Checks (w e.1) e.2 cert message → SignedByOwner w cert message

def Session.transcript (s : Session P) : Bytes :=
  if s.isServer then orEmpty s.peerPubEph ++ s.publicEph else s.publicEph ++ orEmpty s.peerPubEph

/-- The owner of the certificate a session is established with signed its transcript. -/
def TranscriptSigned (w : World P) (b : Nat) : Prop :=
  (w b).state = .established → ∀ cert, (w b).peerCert = some cert →
    SignedByOwner w cert (w b).transcript

/-- Session `b` is established and verified the signature of session `a`: the
certificate it holds names a signing key that only `a` has. -/
structure HasVerified (w : World P) (b a : Nat) : Prop where
  established : (w b).isEstablished = true
  certificate : ∃ cert, (w b).peerCert = some cert ∧ OwnsKey (w a) cert ∧
    ∀ k, OwnsKey (w k) cert → k = a

/-- The call is no reset of the peer with another id than the peer's. -/
def NamesPeer (peer : SessionId) : HandlerCall → Prop
  | .server (.reset _ raw) =>
      ∀ sid payload, decodePacket raw = .ok (.hardResetClient, sid, payload) → packQ sid = peer
  | .client (.resetAck raw) =>
      ∀ sid payload, decodePacket raw = .ok (.hardResetServer, sid, payload) → packQ sid = peer
  | _ => True

structure SwappedKeys (c s : Session P) : Prop where
  clientPub : c.peerPubEph = some s.publicEph
  serverPub : s.peerPubEph = some c.publicEph

/-- Each key comes from the common secret, under the salt of the two ids that its
session holds. -/
structure ExchangedKeys (c s : Session P) : Prop where
  clientKey : ∃ key, c.cipher = some key ∧
    deriveCipher c.privateEph s.publicEph (handshakeSalt c) = .ok key
  serverKey : ∃ key, s.cipher = some key ∧
    deriveCipher c.privateEph s.publicEph (handshakeSalt s) = .ok key

theorem ServerOutcome.checked {s t : Session P} {call : ServerCall} (h : ServerOutcome s call t)
    (hrole : s.isServer = true) (hest : t.state = .established) :
    t = s ∨ ∀ cert, t.peerCert = some cert → Checks s (.server call) cert t.transcript := by
  cases h with
  | resetIgnored => exact .inl rfl
  | reset => cases hest
  | helloFailed => cases hest
  | helloAnswered => cases hest
  | finishedRefused => cases hest
  | finished payload sig hsig hpass =>
    right
    intro cert hcert
    have hfound : s.peerCert = some cert := hcert
    rw [hfound] at hpass
    have hmessage : Session.transcript { s with state := .established } =
        orEmpty s.peerPubEph ++ s.publicEph := if_pos hrole
    rw [hmessage]
    exact .finished payload sig cert hsig hfound (signatureFails_some.mp hpass)

theorem ClientOutcome.checked {s t : Session P} {call : ClientCall} (h : ClientOutcome s call t)
    (hrole : s.isServer = false) (hest : t.state = .established) :
    t = s ∨ ∀ cert, t.peerCert = some cert → Checks s (.client call) cert t.transcript := by
  cases h with
  | start => cases hest
  | ackIgnored => exact .inl rfl
  | ack => cases hest
  | helloFailed => cases hest
  | helloAccepted coins payload certData pubData sig _ _ offset found cipher hkeyed hsig hpass =>
    right
    intro cert hcert
    have hfound : found = some cert := hcert
    subst hfound
    have hmessage : Session.transcript { s with
        peerPubEph := some pubData, peerCert := some cert, cipher := some cipher
        state := .established, signed := recordSigned s (s.publicEph ++ pubData) } =
        s.publicEph ++ pubData := if_neg (Bool.eq_false_iff.mp hrole)
    rw [hmessage]
    exact .hello coins payload certData pubData sig offset cert hkeyed.unpacked hkeyed.loaded hsig
      (signatureFails_some.mp hpass)

/-- A call that leaves its session established changed nothing, or verified a signature
over the transcript under the certificate it leaves. -/
theorem handlerCall_checked (s : Session P) (call : HandlerCall)
    (hest : (handlerCall s call).state = .established) :
    handlerCall s call = s ∨ ∀ cert, (handlerCall s call).peerCert = some cert →
      Checks s call cert (handlerCall s call).transcript := by
  obtain hsame | ⟨hrole, d, rfl, hcall⟩ | ⟨hrole, d, rfl, hcall⟩ := handlerCall_cases s call
  · exact .inl hsame
  · rw [hcall] at hest ⊢
    exact (serverCall_outcome s d).checked hrole hest
  · rw [hcall] at hest ⊢
    exact (clientCall_outcome s d).checked hrole hest

theorem SignedByOwner.later (sizes : X25519Sizes P) (h : SignedByOwner w cert message)
    (e : Nat × HandlerCall) : SignedByOwner (worldStep w e) cert message := by
  have howner (k : Nat) : OwnsKey (worldStep w e k) cert ↔ OwnsKey (w k) cert :=
    OwnsKey.of_setup (world_setup [e] w k)
  intro hany
  obtain ⟨k, howns⟩ := hany
  obtain ⟨k', howns', hsigned⟩ := h ⟨k, (howner k).mp howns⟩
  exact ⟨k', (howner k').mpr howns', world_signed sizes [e] w k' hsigned⟩

theorem transcriptSigned_step (sizes : X25519Sizes P) (w : World P) (e : Nat × HandlerCall)
    (h : ∀ b, TranscriptSigned w b) (hideal : IdealSignatures w e) :
    ∀ b, TranscriptSigned (worldStep w e) b := by
  intro b hest cert hcert
  suffices hnow : SignedByOwner w cert (worldStep w e b).transcript from hnow.later sizes e
  by_cases hb : b = e.1
  · subst hb
    have hstep : worldStep w e e.1 = handlerCall (w e.1) e.2 := Function.update_self ..
    rw [hstep] at hest hcert ⊢
    obtain hsame | hchecked := handlerCall_checked (w e.1) e.2 hest
    · rw [hsame] at hest hcert ⊢
      exact h e.1 hest cert hcert
    · exact hideal cert _ (hchecked cert hcert)
  · have hother : worldStep w e b = w b := Function.update_of_ne hb ..
    rw [hother] at hest hcert ⊢
    exact h b hest cert hcert

theorem transcriptSigned_run (sizes : X25519Sizes P)
    (h₀ : ∀ k, Prepared (w₀ k).isServer (w₀ k)) (es : List (Nat × HandlerCall))
    (hideal : Meets worldStep IdealSignatures es w₀) (b : Nat) :
    TranscriptSigned (run worldStep es w₀) b := by
  refine inv_run (transcriptSigned_step sizes) es w₀ ?_ hideal b
  intro k hest
  cases (h₀ k).idle.symm.trans hest

theorem HasVerified.signed {a b : Nat} (h : HasVerified w b a) (hsigned : TranscriptSigned w b) :
    (w b).transcript ∈ (w a).signed := by
  obtain ⟨cert, hcert, howns, honly⟩ := h.certificate
  obtain ⟨k, hk, hmem⟩ := hsigned (eq_of_beq h.established) cert hcert ⟨a, howns⟩
  rwa [honly k hk] at hmem

theorem HasVerified.clientPub {a b : Nat} (sizes : X25519Sizes P) (h : HasVerified w b a)
    (hsigned : TranscriptSigned w b) (hb : (w b).isServer = false) (ha : (w a).isServer = true)
    (htranscripts : SignedTranscripts (w a)) (hkey : KeyCoherent (w b)) :
    (w b).peerPubEph = some (w a).publicEph := by
  obtain ⟨pub, cipher, hpub, -, hderived⟩ := hkey
  have hmem := h.signed hsigned
  rw [Session.transcript, hb, if_neg Bool.false_ne_true, hpub] at hmem
  obtain ⟨pubData, hmessage⟩ := htranscripts _ hmem
  rw [ha, if_pos rfl] at hmessage
  have hlength : pub.length = (w a).publicEph.length :=
    (deriveCipher_length sizes hderived).trans (sizes.publicBytes_length _).symm
  obtain ⟨-, hsame⟩ := List.append_inj' hmessage hlength
  rw [hpub]
  exact congrArg some hsame

theorem HasVerified.serverPub {a b : Nat} (sizes : X25519Sizes P) (h : HasVerified w b a)
    (hsigned : TranscriptSigned w b) (hb : (w b).isServer = true) (ha : (w a).isServer = false)
    (htranscripts : SignedTranscripts (w a)) : (w b).peerPubEph = some (w a).publicEph := by
  have hmem := h.signed hsigned
  rw [Session.transcript, hb, if_pos rfl] at hmem
  obtain ⟨pubData, hmessage⟩ := htranscripts _ hmem
  rw [ha, if_neg Bool.false_ne_true] at hmessage
  have hlength : (w b).publicEph.length = pubData.length :=
    (sizes.publicBytes_length _).trans hmessage.2.symm
  obtain ⟨hsame, -⟩ := List.append_inj' hmessage.1 hlength
  cases hpub : (w b).peerPubEph with
  | none =>
    rw [hpub] at hsame
    have hempty : (w a).publicEph.length = 0 := congrArg List.length hsame.symm
    cases hempty.symm.trans (sizes.publicBytes_length _)
  | some pub =>
    rw [hpub] at hsame
    exact congrArg some hsame

/-- A `CLIENT_FINISHED` for a server comes after an answered hello, or is refused. -/
def InTurn (s : Session P) : HandlerCall → Prop
  | .server call => s.isServer = true → FinishedInTurn s call
  | .client _ => True

/-- The states in which the session's key is in use, or about to be. -/
def Settled (s : Session P) : Prop :=
  s.state = .established ∨ s.isServer = true ∧ s.state = .helloSent

theorem handlerCall_coherent (s : Session P) (call : HandlerCall) (h : Settled s → KeyCoherent s)
    (hturn : InTurn s call) : Settled (handlerCall s call) → KeyCoherent (handlerCall s call) := by
  have hsetup := handlerCall_setup s call
  obtain hsame | ⟨hrole, d, rfl, hcall⟩ | ⟨hrole, d, rfl, hcall⟩ := handlerCall_cases s call
  · rwa [hsame]
  · rw [hcall]
    have hbefore : s.state = .helloSent ∨ s.state = .established → KeyCoherent s := by
      intro hstate
      obtain hsent | hest := hstate
      · exact h (.inr ⟨hrole, hsent⟩)
      · exact h (.inl hest)
    have hafter := (serverCall_outcome s d).coherent hbefore (hturn hrole)
    intro hstate
    obtain hest | ⟨-, hsent⟩ := hstate
    · exact hafter (.inr hest)
    · exact hafter (.inl hsent)
  · rw [hcall] at hsetup ⊢
    intro hstate
    obtain hest | ⟨hserver, -⟩ := hstate
    · exact (clientCall_outcome s d).coherent (fun hstate => h (.inl hstate)) hest
    · cases hrole.symm.trans (hsetup.isServer.symm.trans hserver)

theorem inTurn_client (h : s.isServer = false) (calls : List HandlerCall) :
    Meets handlerCall InTurn calls s := by
  induction calls generalizing s with
  | nil => trivial
  | cons call calls ih =>
    refine ⟨?_, ih ((handlerCall_setup s call).isServer.trans h)⟩
    cases call with
    | server d =>
      intro hserver
      cases h.symm.trans hserver
    | client d => trivial

theorem world_coherent {b : Nat} (h₀ : Prepared (w₀ b).isServer (w₀ b))
    (es : List (Nat × HandlerCall)) (hturn : Meets handlerCall InTurn (eventsOf b es) (w₀ b))
    (hest : (run worldStep es w₀ b).state = .established) : KeyCoherent (run worldStep es w₀ b) := by
  have hfamily : run worldStep es w₀ b = run handlerCall (eventsOf b es) (w₀ b) :=
    family_run es w₀ b
  rw [hfamily] at hest ⊢
  refine inv_run (I := fun s => Settled s → KeyCoherent s)
    (fun s call h hok => handlerCall_coherent s call h hok) _ _ ?_ hturn (.inl hest)
  intro hsettled
  obtain hstate | ⟨-, hstate⟩ := hsettled
  · cases h₀.idle.symm.trans hstate
  · cases h₀.idle.symm.trans hstate

theorem ServerOutcome.peer {s t : Session P} {peer : SessionId} {call : ServerCall}
    (h : ServerOutcome s call t) (hnames : NamesPeer peer (.server call)) :
    t.peerSessionId = s.peerSessionId ∨ t.peerSessionId = some peer := by
  cases h with
  | reset _ _ sid payload hdecode => exact .inr (congrArg some (hnames sid payload hdecode))
  | _ => exact .inl rfl

theorem ClientOutcome.peer {s t : Session P} {peer : SessionId} {call : ClientCall}
    (h : ClientOutcome s call t) (hnames : NamesPeer peer (.client call)) :
    t.peerSessionId = s.peerSessionId ∨ t.peerSessionId = some peer := by
  cases h with
  | ack _ sid payload hdecode => exact .inr (congrArg some (hnames sid payload hdecode))
  | _ => exact .inl rfl

theorem handlerCall_peer (s : Session P) {peer : SessionId} {call : HandlerCall}
    (hnames : NamesPeer peer call) :
    (handlerCall s call).peerSessionId = s.peerSessionId ∨
      (handlerCall s call).peerSessionId = some peer := by
  obtain hsame | ⟨-, d, rfl, hcall⟩ | ⟨-, d, rfl, hcall⟩ := handlerCall_cases s call
  · rw [hsame]
    exact .inl rfl
  · rw [hcall]
    exact (serverCall_outcome s d).peer hnames
  · rw [hcall]
    exact (clientCall_outcome s d).peer hnames

theorem run_peer {peer : SessionId} (calls : List HandlerCall)
    (hnames : ∀ call ∈ calls, NamesPeer peer call)
    (h : s.peerSessionId = none ∨ s.peerSessionId = some peer) :
    (run handlerCall calls s).peerSessionId = none ∨
      (run handlerCall calls s).peerSessionId = some peer := by
  induction calls generalizing s with
  | nil => exact h
  | cons call calls ih =>
    refine ih (fun d hd => hnames d (List.mem_cons_of_mem call hd)) ?_
    obtain hsame | hnamed := handlerCall_peer s (hnames call List.mem_cons_self)
    · exact h.imp hsame.trans hsame.trans
    · exact .inr hnamed

theorem world_peer {b : Nat} {peer : SessionId} (h₀ : Prepared (w₀ b).isServer (w₀ b))
    (es : List (Nat × HandlerCall)) (hnames : ∀ call ∈ eventsOf b es, NamesPeer peer call)
    (hsome : (run worldStep es w₀ b).peerSessionId ≠ none) :
    (run worldStep es w₀ b).peerSessionId = some peer := by
  have hfamily : run worldStep es w₀ b = run handlerCall (eventsOf b es) (w₀ b) :=
    family_run es w₀ b
  rw [hfamily] at hsome ⊢
  exact (run_peer (eventsOf b es) hnames (.inl h₀.blank.1)).resolve_left hsome

/-- Both ends of one exchange that know each other's id hold one key. -/
theorem ExchangedKeys.paired (h : ExchangedKeys c s) (hc : c.peerSessionId = some s.sessionId)
    (hs : s.peerSessionId = some c.sessionId) : Paired c s := by
  obtain ⟨clientKey, hclient, hclientKey⟩ := h.clientKey
  obtain ⟨serverKey, hserver, hserverKey⟩ := h.serverKey
  have hsalt : handshakeSalt c = handshakeSalt s := by
    rw [handshakeSalt, handshakeSalt, hc, hs]
    exact orderedConcat_comm _ _
  rw [hsalt, hserverKey] at hclientKey
  have hsame : serverKey = clientKey := Except.ok.inj hclientKey
  subst hsame
  exact ⟨⟨serverKey, serverKey.keyLength, hclient, hserver⟩, hc, hs⟩

theorem SwappedKeys.exchanged (hx : X25519Agreement P) (h : SwappedKeys c s)
    (hc : KeyCoherent c) (hs : KeyCoherent s) : ExchangedKeys c s := by
  obtain ⟨clientPub, clientKey, hclientPub, hclientKey, hclientDerived⟩ := hc
  obtain ⟨serverPub, serverKey, hserverPub, hserverKey, hserverDerived⟩ := hs
  cases h.clientPub.symm.trans hclientPub
  cases h.serverPub.symm.trans hserverPub
  exact ⟨⟨clientKey, hclientKey, hclientDerived⟩, serverKey, hserverKey,
    (deriveCipher_comm hx _ _ _).trans hserverDerived⟩

/-- Whatever an attacker without private keys sends, in whatever order: two sessions that
verified each other's signature hold each other's ephemeral key. Where each
`CLIENT_FINISHED` of the server came in turn, their keys differ in the salt at most, and
resets that name the senders' own ids make it one key. -/
theorem transcript_binding (hx : X25519Agreement P) (sizes : X25519Sizes P) (w₀ : World P)
    (h₀ : ∀ k, Prepared (w₀ k).isServer (w₀ k)) (i j : Nat) (hi : (w₀ i).isServer = false)
    (hj : (w₀ j).isServer = true) (es : List (Nat × HandlerCall))
    (hideal : Meets worldStep IdealSignatures es w₀) :
    let w := run worldStep es w₀
    HasVerified w i j → HasVerified w j i → SwappedKeys (w i) (w j) ∧
      (Meets handlerCall InTurn (eventsOf j es) (w₀ j) → ExchangedKeys (w i) (w j) ∧
        ((∀ call ∈ eventsOf i es, NamesPeer (w₀ j).sessionId call) →
          (∀ call ∈ eventsOf j es, NamesPeer (w₀ i).sessionId call) →
          (w i).peerSessionId ≠ none → (w j).peerSessionId ≠ none → Paired (w i) (w j))) := by
  intro w hclient hserver
  have hroleI : (w i).isServer = false := (world_setup es w₀ i).isServer.trans hi
  have hroleJ : (w j).isServer = true := (world_setup es w₀ j).isServer.trans hj
  have hkeyI : KeyCoherent (w i) :=
    world_coherent (h₀ i) es (inTurn_client hi _) (eq_of_beq hclient.established)
  have hswapped : SwappedKeys (w i) (w j) := by
    constructor
    · exact hclient.clientPub sizes (transcriptSigned_run sizes h₀ es hideal i) hroleI hroleJ
        (world_transcripts sizes h₀ es j) hkeyI
    · exact hserver.serverPub sizes (transcriptSigned_run sizes h₀ es hideal j) hroleJ hroleI
        (world_transcripts sizes h₀ es i)
  refine ⟨hswapped, ?_⟩
  intro hturn
  have hkeyJ : KeyCoherent (w j) := world_coherent (h₀ j) es hturn (eq_of_beq hserver.established)
  have hexchanged := hswapped.exchanged hx hkeyI hkeyJ
  refine ⟨hexchanged, ?_⟩
  intro hnamesI hnamesJ hsomeI hsomeJ
  refine hexchanged.paired ?_ ?_
  · rw [(world_setup es w₀ j).sessionId]
    exact world_peer (h₀ i) es hnamesI hsomeI
  · rw [(world_setup es w₀ i).sessionId]
    exact world_peer (h₀ j) es hnamesJ hsomeJ

end
namespace Transparent

/-- A handshake of the two sessions in which the client is given this session id. -/
def handshakeRun (b : UInt8) : List (Nat × HandlerCall) :=
  [(1, .client .start), (0, .server (.reset 0 (resetPacket 7))),
    (1, .client (.resetAck (resetAckPacket b))), (0, .server (.clientHello [] (hello [2, 100] 7))),
    (1, .client (.serverHello [] (hello [1, 100] 5 ++ signatureField 1 7 5))),
    (0, .server (.clientFinished (signatureField 2 7 5)))]

/-- The attacker gives the client another session id in the `HARD_RESET_SERVER`, and
alters nothing else. -/
def alteredReset : List (Nat × HandlerCall) := handshakeRun 6

theorem onlyServer (k : Nat) (h : OwnsKey (twoSessions k) (⟨1, 100⟩ : Certificate)) : k = 0 := by
  obtain ⟨key, hkey, hcert⟩ := h
  match k with
  | 0 => rfl
  | 1 =>
    cases hkey
    cases hcert
  | _ + 2 => cases hkey

theorem onlyClient (k : Nat) (h : OwnsKey (twoSessions k) (⟨2, 100⟩ : Certificate)) : k = 1 := by
  obtain ⟨key, hkey, hcert⟩ := h
  match k with
  | 0 =>
    cases hkey
    cases hcert
  | 1 => rfl
  | _ + 2 => cases hkey

theorem client_hasVerified {es : List (Nat × HandlerCall)}
    (hest : (run worldStep es twoSessions 1).isEstablished = true)
    (hcert : (run worldStep es twoSessions 1).peerCert = some (⟨1, 100⟩ : Certificate)) :
    HasVerified (run worldStep es twoSessions) 1 0 := by
  have howner (k : Nat) : OwnsKey (run worldStep es twoSessions k) (⟨1, 100⟩ : Certificate) ↔
      OwnsKey (twoSessions k) (⟨1, 100⟩ : Certificate) :=
    OwnsKey.of_setup (world_setup es twoSessions k)
  exact ⟨hest, _, hcert, (howner 0).mpr ⟨(1 : UInt8), rfl, rfl⟩,
    fun k hk => onlyServer k ((howner k).mp hk)⟩

theorem server_hasVerified {es : List (Nat × HandlerCall)}
    (hest : (run worldStep es twoSessions 0).isEstablished = true)
    (hcert : (run worldStep es twoSessions 0).peerCert = some (⟨2, 100⟩ : Certificate)) :
    HasVerified (run worldStep es twoSessions) 0 1 := by
  have howner (k : Nat) : OwnsKey (run worldStep es twoSessions k) (⟨2, 100⟩ : Certificate) ↔
      OwnsKey (twoSessions k) (⟨2, 100⟩ : Certificate) :=
    OwnsKey.of_setup (world_setup es twoSessions k)
  exact ⟨hest, _, hcert, (howner 1).mpr ⟨(2 : UInt8), rfl, rfl⟩,
    fun k hk => onlyClient k ((howner k).mp hk)⟩

theorem checks_hello {s : Session primitives} {cert : primitives.Certificate} {message : Bytes}
    (h : Checks s (.client (.serverHello [] (hello [1, 100] 5 ++ signatureField 1 7 5)))
      cert message) : cert = ⟨1, 100⟩ ∧ message = s.publicEph ++ (keyOf 5).val := by
  have hunpacked : unpackHello (hello [1, 100] 5 ++ signatureField 1 7 5) 0 =
    .ok ([1, 100], (keyOf 5).val, 38) := by decide
  cases h with
  | hello _ _ certData pubData sig offset _ hunpack hload hsig hverify =>
    cases hunpacked.symm.trans hunpack
    cases hload
    exact ⟨rfl, rfl⟩

theorem finished_ideal {w : World primitives} {payload : Bytes}
    (hcert : (w 0).peerCert = some (⟨2, 100⟩ : Certificate))
    (howns : OwnsKey (w 1) (⟨2, 100⟩ : Certificate))
    (hsigned : orEmpty (w 0).peerPubEph ++ (w 0).publicEph ∈ (w 1).signed) :
    IdealSignatures w (0, .server (.clientFinished payload)) := by
  intro cert message hchecks _
  cases hchecks with
  | finished _ sig cert _ hfound _ =>
    cases hcert.symm.trans hfound
    exact ⟨1, howns, hsigned⟩

theorem handshakeRun_ideal {b : UInt8} (hb : b = 5 ∨ b = 6) :
    Meets worldStep IdealSignatures (handshakeRun b) twoSessions := by
  refine ⟨?_, ?_, ?_, ?_, ?_, ?_, trivial⟩
  · intro _ _ hchecks
    cases hchecks
  · intro _ _ hchecks
    cases hchecks
  · intro _ _ hchecks
    cases hchecks
  · intro _ _ hchecks
    cases hchecks
  · intro cert message hchecks _
    obtain ⟨rfl, rfl⟩ := checks_hello hchecks
    refine ⟨0, ⟨(1 : UInt8), rfl, rfl⟩, ?_⟩
    obtain rfl | rfl := hb
    · decide
    · decide
  · obtain rfl | rfl := hb
    · exact finished_ideal rfl ⟨(2 : UInt8), rfl, rfl⟩ (by decide)
    · exact finished_ideal rfl ⟨(2 : UInt8), rfl, rfl⟩ (by decide)

/-- In the honest handshake the two sessions agree. -/
theorem transcript_binding_honest :
    let w := run worldStep honestRun twoSessions
    SwappedKeys (w 1) (w 0) ∧ ExchangedKeys (w 1) (w 0) ∧ Paired (w 1) (w 0) := by
  intro w
  have hclient : HasVerified w 1 0 := client_hasVerified (by decide) rfl
  have hserver : HasVerified w 0 1 := server_hasVerified (by decide) rfl
  obtain ⟨hswapped, hkeys⟩ := transcript_binding x25519Agreement sizes twoSessions
    twoSessions_prepared 1 0 rfl rfl honestRun (handshakeRun_ideal (.inl rfl)) hclient hserver
  obtain ⟨hexchanged, hpaired⟩ := hkeys
    ⟨fun _ => trivial, fun _ => trivial, fun _ => .inl (by decide), trivial⟩
  refine ⟨hswapped, hexchanged, hpaired ?_ ?_ (by decide) (by decide)⟩
  · intro call hcall
    have hcalls : eventsOf 1 honestRun = [.client .start,
        .client (.resetAck (resetAckPacket 5)),
        .client (.serverHello [] (hello [1, 100] 5 ++ signatureField 1 7 5))] := rfl
    rw [hcalls] at hcall
    simp only [List.mem_cons, List.not_mem_nil, or_false] at hcall
    obtain rfl | rfl | rfl := hcall
    · trivial
    · intro sid payload hdecode
      rw [resetAckPacket, decodePacket_encodePacket] at hdecode
      cases hdecode
      exact packQ_intOfBytes _
    · trivial
  · intro call hcall
    have hcalls : eventsOf 0 honestRun = [.server (.reset 0 (resetPacket 7)),
        .server (.clientHello [] (hello [2, 100] 7)),
        .server (.clientFinished (signatureField 2 7 5))] := rfl
    rw [hcalls] at hcall
    simp only [List.mem_cons, List.not_mem_nil, or_false] at hcall
    obtain rfl | rfl | rfl := hcall
    · intro sid payload hdecode
      rw [resetPacket, decodePacket_encodePacket] at hdecode
      cases hdecode
      exact packQ_intOfBytes _
    · trivial
    · trivial

/-- With the altered reset both verify each other and hold each other's ephemeral key,
and neither key nor ids agree. -/
theorem altered_reset_unnoticed :
    let w := run worldStep alteredReset twoSessions
    Meets worldStep IdealSignatures alteredReset twoSessions ∧
    HasVerified w 1 0 ∧ HasVerified w 0 1 ∧ SwappedKeys (w 1) (w 0) ∧
    (w 1).cipher ≠ (w 0).cipher ∧ (w 1).peerSessionId ≠ some (w 0).sessionId :=
  ⟨handshakeRun_ideal (.inr rfl), client_hasVerified (by decide) rfl, server_hasVerified (by decide) rfl,
    ⟨rfl, rfl⟩, by decide, by decide⟩

end Transparent
end PyVpn
