import PyVpn.ClientAuth
import PyVpn.ServerPool

/-! Whether a configured CA is enforced. `configure` is called only where certificate
and key are given too; without it `_verify_peer_cert` knows no CA and accepts anything. -/
namespace PyVpn
open EventRun
variable {P : Primitives}

def ShownCertificate (caPath : String) (s : Session P) : Prop :=
  ∃ cert, s.peerCert = some cert ∧ CertifiedBy caPath cert

def CertifiedPeer (caPath : String) (s : Session P) : Prop :=
  s.isEstablished = true → ShownCertificate caPath s

def ServerCertified (caPath : String) (self : VpnServer P) : Prop :=
  EverySession (CertifiedPeer caPath) self

/-- A `CLIENT_FINISHED` that is not refused finds a certificate of the CA. -/
def FinishedChecked (caPath : String) (self : VpnServer P) : ServerEvent P → Prop
  | .datagram draw data addr => ∀ cs payload, self.clients.lookup addr = some cs →
      data.headD 0 = Opcode.control.value →
      controlCall draw.coins data = some (.clientFinished payload) →
      ShownCertificate caPath cs.session ∨ FinishedRefused cs.session payload
  | _ => True

/-- A `CLIENT_FINISHED` that is not refused comes after a hello was answered. -/
def FinishedInOrder (self : VpnServer P) : ServerEvent P → Prop
  | .datagram draw data addr => ∀ cs payload, self.clients.lookup addr = some cs →
      data.headD 0 = Opcode.control.value →
      controlCall draw.coins data = some (.clientFinished payload) →
      cs.session.state = .helloSent ∨ cs.session.state = .established ∨
        FinishedRefused cs.session payload
  | _ => True

def helloCert (payload : Bytes) : Except PyError (Option P.Certificate) := do
  let (certData, _, _) ← unpackHello payload 0
  loadPeerCert certData

/-- A `SERVER_HELLO` that is answered carries a certificate of the CA. -/
def HelloChecked (caPath : String) (self : VpnClient P) : ClientEvent P → Prop
  | .datagram _ coins data => ∀ coins' payload pubData,
      clientCallOf coins data = some (.serverHello coins' payload) →
      HelloAccepted self.session coins' payload pubData →
      ∃ cert : P.Certificate, helloCert payload = .ok (some cert) ∧ CertifiedBy caPath cert
  | _ => True

theorem CertifiedPeer.of_not_established {caPath : String} {s : Session P}
    (h : s.isEstablished = false) : CertifiedPeer caPath s := by
  intro hest
  rw [h] at hest
  cases hest

theorem HelloKeyed.helloCert_eq {s : Session P} {payload certData pubData : Bytes} {offset : Nat}
    {cert : Option P.Certificate} {cipher : Cipher}
    (h : HelloKeyed s payload certData pubData offset cert cipher) :
    helloCert payload = .ok cert := by
  unfold helloCert
  rw [h.unpacked]
  exact h.loaded

section Server
variable {config : Config} {caPath : String} {self : VpnServer P} {addr : Addr}
  {cs : ClientSession P}

theorem FreshEntry.idle {draw : SessionDraw P} {writer : Option Nat}
    (h : FreshEntry config draw addr writer cs) : cs.session.state = .idle := by
  obtain ⟨session, rfl, hpaths⟩ := h
  cases hauth : config.authPaths with
  | none =>
    rw [hauth] at hpaths
    rw [hpaths]
    rfl
  | some paths =>
    obtain ⟨ca, cert, key⟩ := paths
    rw [hauth] at hpaths
    rw [hpaths]
    exact Prepared.idle ⟨draw, .inr ⟨ca, cert, key, rfl⟩⟩

theorem serverReset_established {now : Time} {data : Bytes} {s : Session P}
    (hest : (serverCall s (.reset now data)).isEstablished = true) :
    serverCall s (.reset now data) = s := by
  have houtcome := serverCall_outcome s (.reset now data)
  generalize serverCall s (.reset now data) = t at hest houtcome ⊢
  cases houtcome with
  | resetIgnored => rfl
  | reset => cases hest

theorem clientFinished_peerCert (payload : Bytes) (s : Session P) :
    (serverCall s (.clientFinished payload)).peerCert = s.peerCert := by
  have houtcome := serverCall_outcome s (.clientFinished payload)
  generalize serverCall s (.clientFinished payload) = t at houtcome ⊢
  cases houtcome with
  | finishedRefused => rfl
  | finished => rfl

theorem certifiedPeer_rule (config : Config) (caPath : String) :
    SessionRule (P := P) config (FinishedChecked caPath) (CertifiedPeer caPath) where
  fresh := by
    intro draw addr writer cs hfresh
    exact .of_not_established (by rw [Session.isEstablished, hfresh.idle]; rfl)
  assigned := fun s ip h => h
  reset := by
    intro s now data h hest
    have hsame := serverReset_established hest
    rw [hsame] at hest ⊢
    exact h hest
  control := by
    intro self draw data addr cs call hok hcs hopcode hcall _
    obtain ⟨payload, rfl⟩ | ⟨payload, rfl⟩ := controlCall_cases hcall
    · exact .of_not_established (clientHello_not_established draw.coins payload cs.session)
    · intro hest
      have hpassed := (clientFinished_established_iff payload cs.session).mp hest
      obtain ⟨cert, hcert, hby⟩ := (hok cs payload hcs hopcode hcall).resolve_right hpassed
      exact ⟨cert, (clientFinished_peerCert payload cs.session).trans hcert, hby⟩

theorem serverCertified_step (h : SessionsHave config (CertifiedPeer caPath) self)
    (e : ServerEvent P) :
    ServerCertified caPath (serverStep self e) ↔ FinishedChecked caPath self e := by
  constructor
  · intro hafter
    cases e with
    | datagram draw data addr =>
      intro cs payload hcs hopcode hcall
      by_cases hrefused : FinishedRefused cs.session payload
      · exact .inr hrefused
      · have hest := (clientFinished_established_iff payload cs.session).mpr hrefused
        obtain ⟨cs', ip, hcs', hsession⟩ :=
          handleUdpData_control_session (h.addressed addr cs hcs) hcs hopcode hcall
        have hcertified := hafter addr cs' hcs'
        rw [hsession] at hcertified
        obtain ⟨cert, hcert, hby⟩ := hcertified hest
        exact .inl ⟨cert, (clientFinished_peerCert payload cs.session).symm.trans hcert, hby⟩
    | _ => trivial
  · intro hok
    exact (h.step (certifiedPeer_rule config caPath) hok).sessions

/-- A configured session, with the certificate of a peer whose hello was answered. -/
def VerifiedPeer (caPath : String) (s : Session P) : Prop :=
  s.caPath = some caPath ∧
    (s.state = .helloSent ∨ s.state = .established → ShownCertificate caPath s)

theorem authPaths_eq_some {caPath' certPath keyPath : String} (hca : config.ca = some caPath)
    (hpaths : config.authPaths = some (caPath', certPath, keyPath)) : caPath' = caPath := by
  unfold Config.authPaths at hpaths
  split at hpaths
  · cases hpaths
    rw [hca]
    rfl
  · cases hpaths

theorem verifiedPeer_rule (hca : config.ca = some caPath) (hne : caPath ≠ "")
    (hauth : config.authPaths.isSome = true) :
    SessionRule (P := P) config FinishedInOrder (VerifiedPeer caPath) where
  fresh := by
    intro draw addr writer cs hfresh
    have hidle := hfresh.idle
    refine ⟨?_, fun hstate => ?_⟩
    · obtain ⟨⟨ca, certPath, keyPath⟩, hpaths⟩ := Option.isSome_iff_exists.mp hauth
      obtain ⟨session, rfl, hsession⟩ := hfresh
      rw [hpaths] at hsession
      obtain rfl := authPaths_eq_some hca hpaths
      obtain ⟨certBytes, hrun⟩ := configure_frame ca certPath keyPath (Session.new draw true)
      have hpath : session.caPath = some ca := by
        rw [hsession, hrun]
      exact hpath
    · rw [hidle] at hstate
      simp at hstate
  assigned := fun s ip h => h
  reset := by
    intro s now data h
    obtain ⟨hpath, hshown⟩ := h
    refine ⟨(serverCall_setup s _).caPath.trans hpath, ?_⟩
    have houtcome := serverCall_outcome s (.reset now data)
    generalize serverCall s (.reset now data) = t at houtcome ⊢
    cases houtcome with
    | resetIgnored => exact hshown
    | reset => simp
  control := by
    intro self draw data addr cs call hok hcs hopcode hcall h
    obtain ⟨hpath, hshown⟩ := h
    refine ⟨(serverCall_setup cs.session call).caPath.trans hpath, fun hstate => ?_⟩
    obtain ⟨payload, rfl⟩ | ⟨payload, rfl⟩ := controlCall_cases hcall
    · have houtcome := serverCall_outcome cs.session (.clientHello draw.coins payload)
      generalize serverCall cs.session (.clientHello draw.coins payload) = t at hstate houtcome ⊢
      cases houtcome with
      | helloFailed => simp at hstate
      | helloAnswered _ _ _ _ _ _ _ hkeyed =>
        obtain ⟨shown, rfl, hby⟩ := hkeyed.certified hpath hne
        exact ⟨shown, rfl, hby⟩
    · have hpassed : ¬ FinishedRefused cs.session payload := by
        intro hrefused
        have houtcome := serverCall_outcome cs.session (.clientFinished payload)
        generalize serverCall cs.session (.clientFinished payload) = t at hstate houtcome
        cases houtcome with
        | finishedRefused => simp at hstate
        | finished _ sig hsig hpass => cases hpass.symm.trans (hrefused sig hsig)
      obtain ⟨cert, hcert, hby⟩ : ShownCertificate caPath cs.session := by
        obtain hsent | hest | hrefused := hok cs payload hcs hopcode hcall
        · exact hshown (.inl hsent)
        · exact hshown (.inr hest)
        · exact absurd hrefused hpassed
      exact ⟨cert, (clientFinished_peerCert payload cs.session).trans hcert, hby⟩

/-- With certificate and key given, finishes in order find a certificate of the CA. -/
theorem finishedChecked_of_inOrder (hca : config.ca = some caPath) (hne : caPath ≠ "")
    (hauth : config.authPaths.isSome = true) (hstart : VpnServer.start config = .ok self)
    (events : List (ServerEvent P)) (hok : Meets serverStep FinishedInOrder events self) :
    Meets serverStep (FinishedChecked caPath) events self := by
  have hrule := verifiedPeer_rule (P := P) hca hne hauth
  rw [meets_iff_split]
  intro before e later hsplit
  subst hsplit
  obtain ⟨hbefore, he, -⟩ := (meets_append serverStep FinishedInOrder before _ self).mp hok
  have hhave := (SessionsHave.start hstart).run hrule before hbefore
  generalize run serverStep before self = server at he hhave
  cases e with
  | datagram draw data addr =>
    intro cs payload hcs hopcode hcall
    obtain ⟨-, hshown⟩ := hhave.sessions addr cs hcs
    obtain hsent | hest | hrefused := he cs payload hcs hopcode hcall
    · exact .inl (hshown (.inl hsent))
    · exact .inl (hshown (.inr hest))
    · exact .inr hrefused
  | _ => trivial

end Server

section Client
variable {caPath : String} {self : VpnClient P}

theorem clientCertified_step (h : CertifiedPeer caPath self.session) (e : ClientEvent P) :
    CertifiedPeer caPath (clientStep self e).session ↔ HelloChecked caPath self e := by
  cases e with
  | attempt draw => exact iff_of_true (.of_not_established (attempt_idle draw self)) trivial
  | connect opened =>
    refine iff_of_true ?_ trivial
    obtain hsession | hidle := (connect_tunnel opened self).1
    · rw [clientStep, hsession]
      exact h
    · exact .of_not_established hidle
  | tick now =>
    refine iff_of_true ?_ trivial
    rw [clientStep, (tick_tunnel now self).1]
    exact h
  | tunReadable nonces packet =>
    refine iff_of_true ?_ trivial
    rw [clientStep, (clientTun_tunnel nonces packet self).1]
    exact h
  | stop => exact iff_of_true h trivial
  | datagram now coins data =>
    constructor
    · intro hafter coins' payload pubData hcall haccepted
      obtain ⟨certData, offset, cert, cipher, sig, finishSig, sigLen, hkeyed, hsig, hpass, hsign,
        hpack⟩ := haccepted
      have hrun := clientHandleServerHello_run hkeyed hsig hpass hsign hpack
      rw [clientDatagram_called hcall, clientCall, hrun] at hafter
      obtain ⟨shown, hshown, hby⟩ := hafter rfl
      have hcert : cert = some shown := hshown
      exact ⟨shown, hcert ▸ hkeyed.helloCert_eq, hby⟩
    · intro hok
      have hstep := clientDatagram_step now coins data self
      generalize (clientStep self (.datagram now coins data)).session = s',
        (clientStep self (.datagram now coins data)).data = d' at hstep ⊢
      cases hstep with
      | kept => exact h
      | received ch _ _ => exact h
      | called call hcall =>
        obtain ⟨-, rfl⟩ | ⟨payload, rfl⟩ := clientCallOf_cases hcall
        · have houtcome := clientCall_outcome self.session (.resetAck data)
          generalize clientCall self.session (.resetAck data) = t at houtcome ⊢
          cases houtcome with
          | ackIgnored => exact h
          | ack => exact .of_not_established rfl
        · have houtcome := clientCall_outcome self.session (.serverHello coins payload)
          generalize clientCall self.session (.serverHello coins payload) = t at houtcome ⊢
          cases houtcome with
          | helloFailed => exact .of_not_established rfl
          | helloAccepted _ _ certData pubData sig finishSig sigLen offset cert cipher hkeyed hsig
              hpass hsign hpack =>
            obtain ⟨shown, hshown, hby⟩ := hok coins payload pubData hcall
              ⟨certData, offset, cert, cipher, sig, finishSig, sigLen, hkeyed, hsig, hpass, hsign,
                hpack⟩
            cases hkeyed.helloCert_eq.symm.trans hshown
            exact fun _ => ⟨shown, rfl, hby⟩

theorem connect_caPath (opened : Bool) (self : VpnClient P) :
    (VpnClient.connect opened self).2.session.caPath = self.session.caPath := by
  obtain ⟨_, _, _, session, _, hrun, rfl | rfl⟩ := connect_frame opened self
  · rw [hrun]
  · rw [hrun]

variable {config : Config}

/-- A client whose sessions are configured for the CA. -/
structure ConfiguredFor (config : Config) (caPath : String) (client : VpnClient P) : Prop where
  config : client.config = config
  caPath : client.session.caPath = some caPath

theorem ConfiguredFor.attempt (hca : config.ca = some caPath)
    (hauth : config.authPaths.isSome = true) (draw : SessionDraw P) (hconfig : self.config = config) :
    ConfiguredFor config caPath (clientStep self (.attempt draw)) := by
  refine ⟨(clientStep_config self _).trans hconfig, ?_⟩
  obtain ⟨⟨ca, certPath, keyPath⟩, hpaths⟩ := Option.isSome_iff_exists.mp hauth
  obtain rfl := authPaths_eq_some hca hpaths
  obtain ⟨certBytes, hrun⟩ := configure_frame ca certPath keyPath (Session.new draw false)
  have hpath : (configure ca certPath keyPath (Session.new draw false)).2.caPath = some ca := by
    rw [hrun]
  unfold clientStep VpnClient.attempt
  simp only [Py.bind_run, Py.assign_run, Py.self_run, hconfig, hpaths, Py.ofExcept_run]
  exact hpath

theorem ConfiguredFor.step (hca : config.ca = some caPath)
    (hauth : config.authPaths.isSome = true) (h : ConfiguredFor config caPath self)
    (e : ClientEvent P) : ConfiguredFor config caPath (clientStep self e) := by
  have hconfig := (clientStep_config self e).trans h.config
  cases e with
  | attempt draw => exact .attempt hca hauth draw h.config
  | connect opened => exact ⟨hconfig, (connect_caPath opened self).trans h.caPath⟩
  | tick now =>
    refine ⟨hconfig, ?_⟩
    rw [clientStep, (tick_tunnel now self).1]
    exact h.caPath
  | tunReadable nonces packet =>
    refine ⟨hconfig, ?_⟩
    rw [clientStep, (clientTun_tunnel nonces packet self).1]
    exact h.caPath
  | stop => exact ⟨hconfig, h.caPath⟩
  | datagram now coins data =>
    refine ⟨hconfig, ?_⟩
    have hstep := clientDatagram_step now coins data self
    generalize (clientStep self (.datagram now coins data)).session = s',
      (clientStep self (.datagram now coins data)).data = d' at hstep ⊢
    cases hstep with
    | kept => exact h.caPath
    | received ch _ _ => exact h.caPath
    | called call _ => exact (clientCall_setup self.session call).caPath.trans h.caPath

/-- A configured session answers only hellos with a certificate of its CA. -/
theorem ConfiguredFor.helloChecked (hne : caPath ≠ "") (h : ConfiguredFor config caPath self)
    (e : ClientEvent P) : HelloChecked caPath self e := by
  cases e with
  | datagram now coins data =>
    intro coins' payload pubData _ haccepted
    obtain ⟨certData, offset, cert, cipher, sig, finishSig, sigLen, hkeyed, -⟩ := haccepted
    obtain ⟨shown, rfl, hby⟩ := hkeyed.certified h.caPath hne
    exact ⟨shown, hkeyed.helloCert_eq, hby⟩
  | _ => trivial

theorem helloChecked_of_authPaths (hca : config.ca = some caPath) (hne : caPath ≠ "")
    (hauth : config.authPaths.isSome = true) (draw first : SessionDraw P)
    (events : List (ClientEvent P)) :
    Meets clientStep (HelloChecked caPath) (.attempt first :: events)
      (VpnClient.new config draw) := by
  refine ⟨trivial, (meets_iff_split _ _ _ _).mpr ?_⟩
  intro before e later hsplit
  subst hsplit
  have hattempted : ConfiguredFor config caPath
      (clientStep (VpnClient.new config draw) (.attempt first)) :=
    .attempt hca hauth first rfl
  have hconfigured := inv_run_always (I := ConfiguredFor config caPath)
    (fun _ e hs => hs.step hca hauth e) before _ hattempted
  exact hconfigured.helloChecked hne e

end Client

/-- A configured CA fails closed in a run exactly where every finish the server accepts,
and every hello the client answers, comes with a certificate of that CA. With certificate
and key given, the client always checks this, the server as long as finishes are in order. -/
theorem configured_ca_fails_closed_iff (config : Config) (caPath : String)
    (hca : config.ca = some caPath) (hne : caPath ≠ "") :
    (∀ (self : VpnServer P), VpnServer.start config = .ok self →
      ∀ events : List (ServerEvent P),
        ((∀ before later, events = before ++ later →
          ServerCertified caPath (run serverStep before self)) ↔
            Meets serverStep (FinishedChecked caPath) events self) ∧
        (config.authPaths.isSome = true → Meets serverStep FinishedInOrder events self →
          Meets serverStep (FinishedChecked caPath) events self)) ∧
    (∀ (draw : SessionDraw P) (events : List (ClientEvent P)),
      ((∀ before later, events = before ++ later →
        CertifiedPeer caPath (run clientStep before (VpnClient.new config draw)).session) ↔
          Meets clientStep (HelloChecked caPath) events (VpnClient.new config draw)) ∧
      (config.authPaths.isSome = true → ∀ first later, events = .attempt first :: later →
        Meets clientStep (HelloChecked caPath) events (VpnClient.new config draw))) := by
  refine ⟨fun self hstart events => ⟨?_, ?_⟩, fun draw events => ⟨?_, ?_⟩⟩
  · exact always_iff_meets (I := ServerCertified caPath) (J := Tables) (fun _ e ht => ht.step e)
      (fun _ e ht hs => serverCertified_step ⟨rfl, ht.addressed, hs⟩ e) events (.start hstart)
      (SessionsHave.start hstart).sessions
  · exact fun hauth hok => finishedChecked_of_inOrder hca hne hauth hstart events hok
  · exact always_iff_meets (I := fun client : VpnClient P => CertifiedPeer caPath client.session)
      (J := fun _ => True) (fun _ _ _ => trivial) (fun _ e _ h => clientCertified_step h e)
      events trivial (.of_not_established rfl)
  · intro hauth first later hsplit
    subst hsplit
    exact helloChecked_of_authPaths hca hne hauth draw first later
namespace Transparent

theorem notFinished {self : VpnServer primitives} {draw : Draw primitives} {data : Bytes}
    (h : ∀ payload, data.headD 0 = Opcode.control.value →
      controlCall draw.coins data ≠ some (.clientFinished payload)) :
    FinishedInOrder self (.datagram draw data peer) :=
  fun _ payload _ hopcode hcall => absurd hcall (h payload hopcode)

/-- Both ends of a handshake with certificates, all three options given. -/
theorem fails_closed_with_certificates :
    ServerCertified "ca.crt" authServed ∧ CertifiedPeer "ca.crt" authConnected.session ∧
      (authServed.clients.lookup peer).any (fun cs => cs.session.isEstablished) = true ∧
      authConnected.session.isEstablished = true := by
  obtain ⟨hserver, hchecked⟩ := (configured_ca_fails_closed_iff authConfig "ca.crt" rfl
    (by decide)).1 authStarted rfl certificateHandshake
  obtain ⟨hclient, halways⟩ := (configured_ca_fails_closed_iff authClientConfig "ca.crt" rfl
    (by decide)).2 (draw 7) [.attempt (draw 7), .connect true, .datagram 0 [] (resetAckPacket 5),
      .datagram 0 [] signedServerHello, .tick 0]
  have hinOrder : Meets serverStep FinishedInOrder certificateHandshake authStarted := by
    refine ⟨notFinished ?_, notFinished ?_, ?_, trivial⟩
    · intro payload hcall
      cases hcall
    · intro payload _ hcall
      cases hcall
    · intro cs payload hcs _ _
      have hsent : ((run serverStep (certificateHandshake.take 2) authStarted).clients.lookup
          peer).all (fun cs => decide (cs.session.state = .helloSent)) := by
        decide +kernel
      have hlookup : (run serverStep (certificateHandshake.take 2) authStarted).clients.lookup
          peer = some cs := hcs
      rw [hlookup, Option.all_some] at hsent
      exact .inl (of_decide_eq_true hsent)
  refine ⟨hserver.mpr (hchecked rfl hinOrder) certificateHandshake [] rfl,
    hclient.mpr (halways rfl _ _ rfl) _ [] rfl, by decide +kernel, by decide +kernel⟩

def caServerConfig : Config := { poolConfig with ca := some "ca.crt" }

def caClientConfig : Config := { clientConfig with ca := some "ca.crt" }

def caStarted : VpnServer primitives :=
  match VpnServer.start caServerConfig with
  | .ok self => self
  | .error _ => ⟨caServerConfig, true, ∅, ∅, none, []⟩

/-- With a CA alone both endpoints end established with a peer without certificate. -/
theorem ca_alone_not_enforced :
    ServerReachable caStarted ∧ caServerConfig.ca = some "ca.crt" ∧
      caClientConfig.ca = some "ca.crt" ∧
      ¬ ServerCertified "ca.crt" (run serverStep (handshake 7) caStarted) ∧
      ¬ CertifiedPeer "ca.crt"
        (run clientStep clientEvents (VpnClient.new caClientConfig (draw 7))).session := by
  refine ⟨⟨caStarted, [], ⟨caServerConfig, rfl⟩, rfl⟩, rfl, rfl, ?_, ?_⟩
  · intro h
    have hany : ((run serverStep (handshake 7) caStarted).clients.lookup peer).any fun cs =>
        cs.session.isEstablished && cs.session.peerCert.isNone := by
      decide +kernel
    obtain ⟨cs, hcs, hbare⟩ := (Option.any_eq_true _ _).mp hany
    obtain ⟨hest, hnone⟩ := Bool.and_eq_true_iff.mp hbare
    obtain ⟨cert, hcert, -⟩ := h peer cs hcs hest
    rw [hcert] at hnone
    cases hnone
  · intro h
    have hest : (run clientStep clientEvents
        (VpnClient.new caClientConfig (draw 7))).session.isEstablished = true := by
      decide +kernel
    have hnone : (run clientStep clientEvents
        (VpnClient.new caClientConfig (draw 7))).session.peerCert.isNone = true := by
      decide +kernel
    obtain ⟨cert, hcert, -⟩ := h hest
    rw [hcert] at hnone
    cases hnone

end Transparent
end PyVpn
