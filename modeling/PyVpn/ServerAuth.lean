import PyVpn.KeyCoherence

/-! Authentication of the peer in auth mode. `server_handle_client_finished` looks at
neither the state nor the certificate's chain, so what an established server session
knows about its peer depends on which certificate the message happened to find. -/
namespace PyVpn
open EventRun
variable {P : Primitives}

def CertifiedBy (caPath : String) (cert : P.Certificate) : Prop :=
  ∃ ca, loadCertificate P caPath = .ok ca ∧ verifyCertificate P cert ca = true

theorem verifyPeerCert_auth {s : Session P} {caPath : String} (hca : s.caPath = some caPath)
    (hne : caPath ≠ "") :
    verifyPeerCert s = .ok true ↔ ∃ cert, s.peerCert = some cert ∧ CertifiedBy caPath cert := by
  unfold verifyPeerCert CertifiedBy
  simp only [hca, hne, if_false]
  cases hc : s.peerCert with
  | none => simp
  | some cert =>
    cases hl : loadCertificate P caPath with
    | error e => simp [bind, Except.bind]
    | ok ca => simp [bind, Except.bind, pure, Except.pure]

theorem signatureFails_some {cert : P.Certificate} {data sig : Bytes} :
    signatureFails (some cert) data sig = false ↔ verify cert data sig = true := by
  simp [signatureFails]

def ServerCall.isFinished : ServerCall → Bool
  | .clientFinished _ => true
  | _ => false

/-- The peer is authenticated: its certificate is one of the CA's, and the last
`CLIENT_FINISHED`, the one that established the session, carried a signature under
it over both ephemeral keys. -/
def PeerAuthenticated (caPath : String) (calls : List ServerCall) (s : Session P) : Prop :=
  ∃ cert, s.peerCert = some cert ∧ CertifiedBy caPath cert ∧
    ∃ before payload after sig, calls = before ++ .clientFinished payload :: after ∧
      (∀ c ∈ after, c.isFinished = false) ∧ signatureAt payload 0 = .ok sig ∧
      verify cert (orEmpty s.peerPubEph ++ s.publicEph) sig = true

/-- A `CLIENT_FINISHED` finds a certificate that `_verify_peer_cert` accepts, or it is
refused for its signature. -/
def FinishedVerified (s : Session P) : ServerCall → Prop
  | .clientFinished payload => verifyPeerCert s = .ok true ∨ FinishedRefused s payload
  | _ => True

/-- In order, every `CLIENT_FINISHED` finds a certificate that was checked. -/
theorem finishedVerified_of_inTurn {isServer : Bool} {s₀ : Session P} (h₀ : Prepared isServer s₀)
    {calls : List ServerCall} (hok : Meets serverCall FinishedInTurn calls s₀) :
    Meets serverCall FinishedVerified calls s₀ := by
  rw [meets_iff_split]
  intro before c after hsplit
  subst hsplit
  obtain ⟨hbefore, hturn, -⟩ := (meets_append serverCall FinishedInTurn before (c :: after) s₀).mp hok
  have hverified := inv_run
    (I := fun s : Session P => s.state = .helloSent ∨ s.state = .established →
      verifyPeerCert s = .ok true)
    (fun s c ih hturn => (serverCall_outcome s c).answered
      (I := fun s : Session P => verifyPeerCert s = .ok true)
      (fun _ _ _ _ _ _ _ hkeyed => hkeyed.verified) id ih hturn) before s₀ (by simp [h₀.idle]) hbefore
  cases c with
  | reset now raw => trivial
  | clientHello coins payload => trivial
  | clientFinished payload =>
    obtain hsent | hest | hrefused := hturn
    · exact .inl (hverified (.inl hsent))
    · exact .inl (hverified (.inr hest))
    · exact .inr hrefused

theorem peerAuthenticated_step {caPath : String} (hne : caPath ≠ "") (calls : List ServerCall)
    (c : ServerCall) (s : Session P) (hca : s.caPath = some caPath)
    (ih : s.state = .established → PeerAuthenticated caPath calls s) (hok : FinishedVerified s c)
    (hest : (serverCall s c).state = .established) :
    PeerAuthenticated caPath (calls ++ [c]) (serverCall s c) := by
  have houtcome := serverCall_outcome s c
  generalize serverCall s c = t at hest houtcome ⊢
  cases houtcome with
  | resetIgnored now raw =>
    -- an ignored reset only lengthens what follows the establishing call
    obtain ⟨cert, hcert, hby, before, payload, after, sig, hsplit, hafter, hsig, hv⟩ := ih hest
    refine ⟨cert, hcert, hby, before, payload, after ++ [.reset now raw], sig, ?_, ?_, hsig, hv⟩
    · simp [hsplit]
    · intro d hd
      cases List.mem_append.mp hd with
      | inl hold => exact hafter d hold
      | inr hnew =>
        rw [List.mem_singleton.mp hnew]
        rfl
  | reset => cases hest
  | helloFailed => cases hest
  | helloAnswered => cases hest
  | finishedRefused => cases hest
  | finished payload sig hsig hpass =>
    have hverified : verifyPeerCert s = .ok true := by
      obtain hverified | hrefused := hok
      · exact hverified
      · cases hpass.symm.trans (hrefused sig hsig)
    obtain ⟨cert, hcert, hby⟩ := (verifyPeerCert_auth hca hne).mp hverified
    rw [hcert] at hpass
    have hv := signatureFails_some.mp hpass
    exact ⟨cert, hcert, hby, calls, payload, [], sig, rfl, by simp, hsig, hv⟩

/-- A server session with a CA authenticates its peer in every state of a run exactly
when every `CLIENT_FINISHED` of the run finds a certificate of that CA or is refused. It
does where every one that is not refused comes after an answered hello. -/
theorem server_peer_authenticated_iff (caPath : String) (s₀ : Session P)
    (h₀ : AuthPrepared true caPath s₀) (calls : List ServerCall) :
    ((∀ before after, calls = before ++ after →
      (run serverCall before s₀).state = .established →
        PeerAuthenticated caPath before (run serverCall before s₀)) ↔
      Meets serverCall FinishedVerified calls s₀) ∧
    (Meets serverCall FinishedInTurn calls s₀ → Meets serverCall FinishedVerified calls s₀) := by
  have hca (before : List ServerCall) : (run serverCall before s₀).caPath = some caPath :=
    (serverRun_setup before s₀).caPath.trans h₀.caPath
  refine ⟨⟨?_, ?_⟩, finishedVerified_of_inTurn h₀.prepared⟩
  · intro h
    rw [meets_iff_split]
    intro before c after hsplit
    subst hsplit
    cases c with
    | reset now raw => trivial
    | clientHello coins payload => trivial
    | clientFinished payload =>
      obtain ⟨hr, -⟩ | ⟨sig, -, -, hrun⟩ :=
        serverHandleClientFinished_cases payload (run serverCall before s₀)
      · exact .inr hr
      · have hlast := h (before ++ [.clientFinished payload]) after (by simp)
        simp only [run_concat, serverCall, hrun] at hlast
        obtain ⟨cert, hcert, hby, -⟩ := hlast trivial
        exact .inl ((verifyPeerCert_auth (hca before) h₀.1).mpr ⟨cert, hcert, hby⟩)
  · intro hok before after hsplit
    subst hsplit
    have hbefore := ((meets_append serverCall FinishedVerified before after s₀).mp hok).1
    refine history_run (I := fun calls s => s.state = .established →
      PeerAuthenticated caPath calls s) ?_ ?_ before hbefore
    · intro hest; simp [h₀.prepared.idle] at hest
    · intro u c ih hc
      exact peerAuthenticated_step h₀.1 u c _ (hca u) ih hc

theorem Transparent.authServer_prepared : AuthPrepared true "ca.crt" authServer :=
  ⟨by decide, draw 5, "server.crt", "server.key", rfl⟩

def finishedFirst : List ServerCall :=
  [.reset 0 (Transparent.resetPacket 9), .clientFinished [0, 0]]

/-- A peer that never showed a certificate establishes a session with an auth server. -/
theorem server_established_without_certificate :
    (run serverCall finishedFirst Transparent.authServer).state = .established ∧
    ¬ PeerAuthenticated "ca.crt" finishedFirst
        (run serverCall finishedFirst Transparent.authServer) := by
  refine ⟨by decide, ?_⟩
  intro hauth
  obtain ⟨cert, hcert, -⟩ := hauth
  have hnone : (run serverCall finishedFirst Transparent.authServer).peerCert = none := rfl
  exact absurd (hnone.symm.trans hcert) (by simp)

def finishedLast : List ServerCall :=
  [.reset 0 (Transparent.resetPacket 9), .clientHello [] (Transparent.hello [2, 100] 7),
    .clientFinished (Transparent.signatureField 2 7 5)]

/-- The handshake of an honest client authenticates it. -/
theorem server_peer_authenticated_handshake :
    (run serverCall finishedLast Transparent.authServer).state = .established ∧
      PeerAuthenticated "ca.crt" finishedLast (run serverCall finishedLast Transparent.authServer) := by
  have hest : (run serverCall finishedLast Transparent.authServer).state = .established := by decide
  obtain ⟨hiff, hturn⟩ := server_peer_authenticated_iff "ca.crt" Transparent.authServer
    Transparent.authServer_prepared finishedLast
  have hinTurn : Meets serverCall FinishedInTurn finishedLast Transparent.authServer :=
    ⟨trivial, trivial, .inl (by decide), trivial⟩
  exact ⟨hest, hiff.mpr (hturn hinTurn) finishedLast [] rfl hest⟩

end PyVpn
