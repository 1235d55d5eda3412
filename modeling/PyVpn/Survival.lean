import PyVpn.ChannelMatch
import PyVpn.Forgery

/-! What an established tunnel survives. The control handshake answers anyone, so a
reset or a hello ends the session; every other datagram leaves session and entry as they are,
and the channel too where it does not move the replay window. Forged data moves nothing but
the window. -/
namespace PyVpn
open EventRun
variable {P : Primitives}

/-- An established session with this key and peer, over a live channel. -/
structure Tunnel (s : Session P) (channel : Option DataChannel) (cipher : Option Cipher)
    (peerId : Option SessionId) (ch : DataChannel) : Prop where
  established : s.isEstablished = true
  cipher : s.cipher = cipher
  peer : s.peerSessionId = peerId
  channel : channel = some ch

/-- The server has an entry for the address, with this tunnel. -/
def TunnelAt (self : VpnServer P) (addr : Addr) (cipher : Option Cipher)
    (peerId : Option SessionId) (ch : DataChannel) : Prop :=
  ∃ cs, self.clients.lookup addr = some cs ∧ Tunnel cs.session cs.data cipher peerId ch

/-- A datagram that is neither a whole `HARD_RESET_CLIENT` nor a `CLIENT_HELLO`, nor a
`CLIENT_FINISHED` the session refuses. -/
structure SparesSession (draw : Draw P) (data : Bytes) (cs : ClientSession P) : Prop where
  noReset : data.headD 0 = Opcode.hardResetClient.value → data.length < headerSize
  noHello : data.headD 0 = Opcode.control.value →
    ∀ payload, controlCall draw.coins data ≠ some (.clientHello draw.coins payload)
  finished : data.headD 0 = Opcode.control.value →
    ∀ payload, controlCall draw.coins data = some (.clientFinished payload) →
      ¬ FinishedRefused cs.session payload

/-- Nor data the replay window would take. -/
structure HarmlessTo (draw : Draw P) (data : Bytes) (cs : ClientSession P) : Prop
    extends SparesSession draw data cs where
  refused : data.headD 0 = Opcode.data.value → ∀ ch, cs.data = some ch → Refused ch data

/-- Data that was not sealed under the channel's key, whatever its counter. -/
structure ForgedTo (ch : DataChannel) (draw : Draw P) (data : Bytes) (cs : ClientSession P) : Prop
    extends SparesSession draw data cs where
  forged : data.headD 0 = Opcode.data.value → Forged P ch data

/-- Datagrams, harmless if they come from the address, and sweeps while its client is
not due. -/
def Gentle (harmless : Draw P → Bytes → ClientSession P → Prop) (addr : Addr)
    (self : VpnServer P) : ServerEvent P → Prop
  | .datagram draw data a => a = addr →
      ∀ cs, self.clients.lookup addr = some cs → harmless draw data cs
  | .cleanupStale now => ∀ cs, self.clients.lookup addr = some cs →
      now - cs.lastSeen ≤ self.config.keepaliveTimeout
  | _ => False

section Server
variable {self self' : VpnServer P} {addr : Addr} {cipher : Option Cipher}
  {peerId : Option SessionId} {ch : DataChannel}

theorem TunnelAt.stored (cs : ClientSession P)
    (h : Tunnel cs.session cs.data cipher peerId ch)
    (hclients : self'.clients = self.clients.insert addr cs) :
    TunnelAt self' addr cipher peerId ch :=
  ⟨cs, by rw [hclients]; exact AList.lookup_insert _, h⟩

theorem Tunnel.finished {s : Session P} {channel : Option DataChannel}
    (h : Tunnel s channel cipher peerId ch) {payload : Bytes}
    (hok : ¬ FinishedRefused s payload) :
    Tunnel (serverCall s (.clientFinished payload)) channel cipher peerId ch := by
  have houtcome := serverCall_outcome s (.clientFinished payload)
  generalize serverCall s (.clientFinished payload) = t at houtcome ⊢
  cases houtcome with
  | finishedRefused _ hrefused => exact absurd hrefused hok
  | finished => exact ⟨rfl, h.cipher, h.peer, h.channel⟩

theorem Tunnel.shortReset {s : Session P} {channel : Option DataChannel}
    (h : Tunnel s channel cipher peerId ch) {data : Bytes} (hshort : data.length < headerSize)
    (now : Time) : Tunnel (serverCall s (.reset now data)) channel cipher peerId ch := by
  have houtcome := serverCall_outcome s (.reset now data)
  generalize serverCall s (.reset now data) = t at houtcome ⊢
  cases houtcome with
  | resetIgnored => exact h
  | reset _ _ sid payload hdecode =>
    exact absurd (decodePacket_eq_ok hdecode).1 (Nat.not_le.mpr hshort)

theorem Tunnel.received {s : Session P} {channel : Option DataChannel}
    (h : Tunnel s channel cipher peerId ch) {ch' : DataChannel} (hch : channel = some ch')
    (data : Bytes) (now : Time) :
    Tunnel s (some (decrypt P now data ch').2) cipher peerId (decrypt P now data ch).2 := by
  cases h.channel.symm.trans hch
  exact ⟨h.established, h.cipher, h.peer, rfl⟩

theorem TunnelAt.datagram {draw : Draw P} {data : Bytes} (h : TunnelAt self addr cipher peerId ch)
    (hok : ∀ cs, self.clients.lookup addr = some cs → SparesSession draw data cs)
    (hstep : DatagramStep draw data addr self self') :
    TunnelAt self' addr cipher peerId ch ∨ data.headD 0 = Opcode.data.value ∧
      TunnelAt self' addr cipher peerId (decrypt P draw.now data ch).2 := by
  obtain ⟨cs, hcs, htunnel⟩ := h
  have hharmless := hok cs hcs
  cases hstep with
  | ignored => exact .inl ⟨cs, hcs, htunnel⟩
  | reset cs' effects hopcode hcs' =>
    obtain hcs' | ⟨hnone, -⟩ := hcs'
    · cases hcs.symm.trans hcs'
      exact .inl (.stored (cs.called (.reset draw.now data))
        (htunnel.shortReset (hharmless.noReset hopcode) draw.now) rfl)
    · cases hcs.symm.trans hnone
  | entry cs₀ cs' effects hcs₀ hstep =>
    cases hcs.symm.trans hcs₀
    cases hstep with
    | seen => exact .inl (.stored (cs.seen draw.now) htunnel rfl)
    | called call hopcode hcall =>
      obtain ⟨payload, rfl⟩ | ⟨payload, rfl⟩ := controlCall_cases hcall
      · exact absurd hcall (hharmless.noHello hopcode payload)
      · exact .inl (.stored ((cs.seen draw.now).called (.clientFinished payload))
          (htunnel.finished (hharmless.finished hopcode payload hcall)) rfl)
    | received ch' hopcode hdata _ =>
      exact .inr ⟨hopcode, .stored
        { cs.seen draw.now with data := some (decrypt P draw.now data ch').2 }
        (htunnel.received hdata data draw.now) rfl⟩
  | opened cs₀ call effects self' hcs₀ hdata _ _ _ _ =>
    cases hcs.symm.trans hcs₀
    cases hdata.symm.trans htunnel.channel

theorem DatagramStep.lookup_other {draw : Draw P} {data : Bytes} {a : Addr}
    (haddr : Addressed self) (hne : addr ≠ a) (hstep : DatagramStep draw data a self self') :
    self'.clients.lookup addr = self.clients.lookup addr := by
  cases hstep with
  | ignored => rfl
  | reset cs effects _ _ => exact AList.lookup_insert_ne hne
  | entry cs cs' effects _ _ => exact AList.lookup_insert_ne hne
  | opened cs call effects self' hcs _ _ _ _ hopening =>
    obtain rfl := haddr a cs hcs
    cases hopening with
    | unassigned => exact (AList.lookup_insert_ne hne).trans (AList.lookup_insert_ne hne)
    | assigned pool n effects' _ _ =>
      exact (AList.lookup_insert_ne hne).trans (AList.lookup_insert_ne hne)

theorem TunnelAt.cleanupStale {now : Time} (h : TunnelAt self addr cipher peerId ch)
    (hok : ∀ cs, self.clients.lookup addr = some cs →
      now - cs.lastSeen ≤ self.config.keepaliveTimeout) :
    TunnelAt (PyVpn.cleanupStale now self) addr cipher peerId ch := by
  obtain ⟨cs, hcs, htunnel⟩ := h
  have hfresh : cs.isStale now self.config.keepaliveTimeout = false := by
    rw [ClientSession.isStale, if_pos htunnel.established]
    exact decide_eq_false (not_lt.mpr (hok cs hcs))
  refine ⟨cs, ?_, htunnel⟩
  rw [cleanupStale_lookup, hcs]
  simp [hfresh]

theorem tunnelAt_step {harmless : Draw P → Bytes → ClientSession P → Prop}
    (hspares : ∀ {draw data cs}, harmless draw data cs → SparesSession draw data cs)
    {e : ServerEvent P} (htables : Tables self) (h : TunnelAt self addr cipher peerId ch)
    (hok : Gentle harmless addr self e) :
    TunnelAt (serverStep self e) addr cipher peerId ch ∨
      ∃ draw data cs, cs.data = some ch ∧ harmless draw data cs ∧
        data.headD 0 = Opcode.data.value ∧
        TunnelAt (serverStep self e) addr cipher peerId (decrypt P draw.now data ch).2 := by
  cases e with
  | datagram draw data a =>
    have hstep := handleUdpData_step draw data a htables.addressed
    by_cases ha : a = addr
    · subst ha
      obtain hsame | ⟨hopcode, hreceived⟩ := h.datagram (fun cs hcs => hspares (hok rfl cs hcs)) hstep
      · exact .inl hsame
      · obtain ⟨cs, hcs, htunnel⟩ := h
        exact .inr ⟨draw, data, cs, htunnel.channel, hok rfl cs hcs, hopcode, hreceived⟩
    · obtain ⟨cs, hcs, htunnel⟩ := h
      exact .inl ⟨cs, (hstep.lookup_other htables.addressed (Ne.symm ha)).trans hcs, htunnel⟩
  | cleanupStale now => exact .inl (h.cleanupStale hok)
  | tcpConnect draw a writer => exact hok.elim
  | tcpDisconnect a => exact hok.elim
  | tunReadable nonces packet => exact hok.elim
  | keepalive now a => exact hok.elim
  | cleanupFragments now => exact hok.elim

theorem Tables.step (h : Tables self) (e : ServerEvent P) : Tables (serverStep self e) :=
  h.run [e]

theorem tunnelAt_run (hself : ServerReachable self) (h : TunnelAt self addr cipher peerId ch)
    (events : List (ServerEvent P)) (hok : Meets serverStep (Gentle HarmlessTo addr) events self) :
    TunnelAt (run serverStep events self) addr cipher peerId ch := by
  refine (inv_run (I := fun s => Tables s ∧ TunnelAt s addr cipher peerId ch) ?_ events self
    ⟨hself.tables, h⟩ hok).2
  intro s e hinv hoke
  obtain ⟨htables, htunnel⟩ := hinv
  refine ⟨htables.step e, ?_⟩
  obtain hsame | ⟨draw, data, cs, hch, hharmless, hopcode, hreceived⟩ :=
    tunnelAt_step HarmlessTo.toSparesSession htables htunnel hoke
  · exact hsame
  · rwa [decrypt_of_refused (hharmless.refused hopcode ch hch) draw.now] at hreceived

theorem tunnelAt_forged_run (ideal : IdealAead P) (hself : ServerReachable self)
    (h : TunnelAt self addr cipher peerId ch) (events : List (ServerEvent P))
    (hok : Meets serverStep (Gentle (ForgedTo ch) addr) events self) :
    ∃ window, TunnelAt (run serverStep events self) addr cipher peerId
      { ch with replay := window } := by
  refine (inv_run (I := fun s => Tables s ∧ ∃ window, TunnelAt s addr cipher peerId
    { ch with replay := window }) ?_ events self ⟨hself.tables, ch.replay, h⟩ hok).2
  intro s e hinv hoke
  obtain ⟨htables, window, htunnel⟩ := hinv
  refine ⟨htables.step e, ?_⟩
  obtain hsame | ⟨draw, data, cs, -, hforged, hopcode, hreceived⟩ :=
    tunnelAt_step ForgedTo.toSparesSession htables htunnel hoke
  · exact ⟨window, hsame⟩
  · have hmoved : Forged P { ch with replay := window } data := hforged.forged hopcode
    rw [decrypt_forged ideal hmoved draw.now] at hreceived
    exact ⟨_, hreceived⟩

end Server

/-- A datagram that is neither a whole `HARD_RESET_SERVER`, nor a `SERVER_HELLO` other
than one that repeats the peer's key and passes every check. -/
structure SparesClient (client : VpnClient P) (coins data : Bytes) : Prop where
  noReset : data.headD 0 = Opcode.hardResetServer.value → data.length < headerSize
  hello : ∀ payload, clientCallOf coins data = some (.serverHello coins payload) →
    ∃ pubData, HelloAccepted client.session coins payload pubData ∧
      client.session.peerPubEph = some pubData

/-- Nor data the replay window would take. -/
structure HarmlessToClient (client : VpnClient P) (coins data : Bytes) : Prop
    extends SparesClient client coins data where
  refused : data.headD 0 = Opcode.data.value →
    ∀ ch, client.data = some ch → Refused ch data

/-- Data that was not sealed under the channel's key, whatever its counter. -/
structure ForgedToClient (ch : DataChannel) (client : VpnClient P) (coins data : Bytes) : Prop
    extends SparesClient client coins data where
  forged : data.headD 0 = Opcode.data.value → Forged P ch data

/-- Harmless datagrams and nothing else. -/
def GentleToClient (harmless : VpnClient P → Bytes → Bytes → Prop) (self : VpnClient P) :
    ClientEvent P → Prop
  | .datagram _ coins data => harmless self coins data
  | _ => False

section Client
variable {cipher : Option Cipher} {peerId : Option SessionId} {ch : DataChannel}

theorem Tunnel.shortResetAck {s : Session P} {channel : Option DataChannel}
    (h : Tunnel s channel cipher peerId ch) {data : Bytes} (hshort : data.length < headerSize) :
    Tunnel (clientCall s (.resetAck data)) channel cipher peerId ch := by
  have houtcome := clientCall_outcome s (.resetAck data)
  generalize clientCall s (.resetAck data) = t at houtcome ⊢
  cases houtcome with
  | ackIgnored => exact h
  | ack _ sid payload hdecode =>
    exact absurd (decodePacket_eq_ok hdecode).1 (Nat.not_le.mpr hshort)

/-- The peer's hello again: the client derives the key it has. -/
theorem Tunnel.serverHello {s : Session P} {channel : Option DataChannel}
    (h : Tunnel s channel cipher peerId ch) (hcoherent : Coherent s) {coins payload pubData : Bytes}
    (haccepted : HelloAccepted s coins payload pubData) (hpub : s.peerPubEph = some pubData) :
    Tunnel (clientCall s (.serverHello coins payload)) channel cipher peerId ch := by
  obtain ⟨certData, offset, cert, cipher', sig, finishSig, sigLen, hkeyed, hsig, hpass, hsign,
    hpack⟩ := haccepted
  obtain ⟨pub, old, hpub', hold, hderive⟩ := hcoherent h.established
  cases hpub.symm.trans hpub'
  have hsame : old = cipher' := Except.ok.inj (hderive.symm.trans hkeyed.derived)
  have hcipher : some cipher' = cipher := by rw [← hsame, ← hold, h.cipher]
  simp only [clientCall, clientHandleServerHello_run hkeyed hsig hpass hsign hpack]
  exact ⟨rfl, hcipher, h.peer, h.channel⟩

theorem tunnel_step {harmless : VpnClient P → Bytes → Bytes → Prop}
    (hspares : ∀ {client coins data}, harmless client coins data → SparesClient client coins data)
    {self : VpnClient P} (hcoherent : Coherent self.session)
    (h : Tunnel self.session self.data cipher peerId ch) {e : ClientEvent P}
    (hok : GentleToClient harmless self e) :
    Tunnel (clientStep self e).session (clientStep self e).data cipher peerId ch ∨
      ∃ now coins data, harmless self coins data ∧ data.headD 0 = Opcode.data.value ∧
        Tunnel (clientStep self e).session (clientStep self e).data cipher peerId
          (decrypt P now data ch).2 := by
  cases e with
  | datagram now coins data =>
    have hstep := clientDatagram_step now coins data self
    generalize (clientStep self (.datagram now coins data)).session = s',
      (clientStep self (.datagram now coins data)).data = d' at hstep ⊢
    have hok : harmless self coins data := hok
    cases hstep with
    | kept => exact .inl h
    | called call hcall =>
      obtain ⟨hopcode, rfl⟩ | ⟨payload, rfl⟩ := clientCallOf_cases hcall
      · exact .inl (h.shortResetAck ((hspares hok).noReset hopcode))
      · obtain ⟨pubData, haccepted, hpub⟩ := (hspares hok).hello payload hcall
        exact .inl (h.serverHello hcoherent haccepted hpub)
    | received ch' hopcode hdata =>
      exact .inr ⟨now, coins, data, hok, hopcode, h.received hdata data now⟩
  | attempt draw => exact hok.elim
  | connect opened => exact hok.elim
  | tick now => exact hok.elim
  | tunReadable nonces packet => exact hok.elim
  | stop => exact hok.elim

theorem tunnel_run {self : VpnClient P} (hself : ClientReachable self)
    (h : Tunnel self.session self.data cipher peerId ch) (events : List (ClientEvent P))
    (hok : Meets clientStep (GentleToClient HarmlessToClient) events self) :
    Tunnel (run clientStep events self).session (run clientStep events self).data cipher peerId
      ch := by
  refine (inv_run (I := fun client => Coherent client.session ∧
    Tunnel client.session client.data cipher peerId ch) ?_ events self ⟨hself.coherent, h⟩ hok).2
  intro client e hinv hoke
  obtain ⟨hcoherent, htunnel⟩ := hinv
  refine ⟨clientStep_coherent hcoherent e, ?_⟩
  obtain hsame | ⟨now, coins, data, hharmless, hopcode, hreceived⟩ :=
    tunnel_step HarmlessToClient.toSparesClient hcoherent htunnel hoke
  · exact hsame
  · rwa [decrypt_of_refused (hharmless.refused hopcode ch htunnel.channel) now] at hreceived

theorem tunnel_forged_run (ideal : IdealAead P) {self : VpnClient P} (hself : ClientReachable self)
    (h : Tunnel self.session self.data cipher peerId ch) (events : List (ClientEvent P))
    (hok : Meets clientStep (GentleToClient (ForgedToClient ch)) events self) :
    ∃ window, Tunnel (run clientStep events self).session (run clientStep events self).data cipher
      peerId { ch with replay := window } := by
  refine (inv_run (I := fun client => Coherent client.session ∧ ∃ window,
    Tunnel client.session client.data cipher peerId { ch with replay := window }) ?_ events self
    ⟨hself.coherent, ch.replay, h⟩ hok).2
  intro client e hinv hoke
  obtain ⟨hcoherent, window, htunnel⟩ := hinv
  refine ⟨clientStep_coherent hcoherent e, ?_⟩
  obtain hsame | ⟨now, coins, data, hforged, hopcode, hreceived⟩ :=
    tunnel_step ForgedToClient.toSparesClient hcoherent htunnel hoke
  · exact ⟨window, hsame⟩
  · have hmoved : Forged P { ch with replay := window } data := hforged.forged hopcode
    rw [decrypt_forged ideal hmoved now] at hreceived
    exact ⟨_, hreceived⟩

end Client

/-- A tunnel survives harmless datagrams: on the server with any datagrams from other
addresses and any sweeps before its client is due, on the client by themselves. Forged data
that the replay window takes moves the window, and nothing else. -/
theorem tunnel_survives_harmless :
    (∀ (self : VpnServer P), ServerReachable self → ∀ addr cipher peerId ch,
      TunnelAt self addr cipher peerId ch → ∀ events,
        (Meets serverStep (Gentle HarmlessTo addr) events self →
          TunnelAt (run serverStep events self) addr cipher peerId ch) ∧
        (IdealAead P → Meets serverStep (Gentle (ForgedTo ch) addr) events self →
          ∃ window, TunnelAt (run serverStep events self) addr cipher peerId
            { ch with replay := window })) ∧
    (∀ (self : VpnClient P), ClientReachable self → ∀ cipher peerId ch,
      Tunnel self.session self.data cipher peerId ch → ∀ events,
        let self' := run clientStep events self
        (Meets clientStep (GentleToClient HarmlessToClient) events self →
          Tunnel self'.session self'.data cipher peerId ch) ∧
        (IdealAead P → Meets clientStep (GentleToClient (ForgedToClient ch)) events self →
          ∃ window, Tunnel self'.session self'.data cipher peerId { ch with replay := window })) :=
  ⟨fun _ hself _ _ _ _ h events => ⟨tunnelAt_run hself h events,
      fun ideal => tunnelAt_forged_run ideal hself h events⟩,
    fun _ hself _ _ _ h events => ⟨tunnel_run hself h events,
      fun ideal => tunnel_forged_run ideal hself h events⟩⟩

namespace Transparent

def authConfig : Config :=
  { poolConfig with ca := some "ca.crt", cert := some "server.crt", key := some "server.key" }

def authStarted : VpnServer primitives :=
  match VpnServer.start authConfig with
  | .ok self => self
  | .error _ => ⟨authConfig, true, ∅, ∅, none, []⟩

def certificateHandshake : List (ServerEvent primitives) :=
  [.datagram ⟨draw 5, []⟩ (resetPacket 7) peer,
    .datagram ⟨draw 5, []⟩ (helloPacket [2, 100] 7) peer,
    .datagram ⟨draw 5, []⟩ (finishedPacket (signatureField 2 7 5) 7) peer]

def authServed : VpnServer primitives := run serverStep certificateHandshake authStarted

theorem authServed_reachable : ServerReachable authServed :=
  ⟨authStarted, certificateHandshake, ⟨authConfig, rfl⟩, rfl⟩

theorem authServed_tunnel : ∃ cs ch, authServed.clients.lookup peer = some cs ∧
    cs.session.caPath = some "ca.crt" ∧
    Tunnel cs.session cs.data cs.session.cipher cs.session.peerSessionId ch := by
  have hany : (authServed.clients.lookup peer).any fun cs => cs.isReady &&
      decide (cs.session.caPath = some "ca.crt") := by
    decide +kernel
  obtain ⟨cs, hcs, hready⟩ := (Option.any_eq_true _ _).mp hany
  obtain ⟨hready, hauth⟩ := Bool.and_eq_true_iff.mp hready
  obtain ⟨ch, hch⟩ := Option.isSome_iff_exists.mp (Bool.and_eq_true_iff.mp hready).2
  exact ⟨cs, ch, hcs, of_decide_eq_true hauth,
    ⟨(Bool.and_eq_true_iff.mp hready).1, rfl, rfl, hch⟩⟩

/-- One `HARD_RESET_CLIENT` ends an established auth-mode session, and the next sweep
drops its entry, with the client's last datagram no older than the timeout. -/
theorem reset_ends_tunnel : ServerReachable authServed ∧
    (∃ cs ch, authServed.clients.lookup peer = some cs ∧ cs.session.caPath = some "ca.crt" ∧
      Tunnel cs.session cs.data cs.session.cipher cs.session.peerSessionId ch) ∧
    (∀ cipher peerId ch, ¬ TunnelAt
      (serverStep authServed (.datagram ⟨draw 5, []⟩ (resetPacket 7) peer)) peer cipher peerId
        ch) ∧
    (run serverStep [.datagram ⟨draw 5, []⟩ (resetPacket 7) peer, .cleanupStale 31]
      authServed).clients.lookup peer = none := by
  refine ⟨authServed_reachable, authServed_tunnel, ?_, ?_⟩
  · intro cipher peerId ch htunnel
    obtain ⟨cs, hcs, htunnel⟩ := htunnel
    have hall : ((serverStep authServed
        (.datagram ⟨draw 5, []⟩ (resetPacket 7) peer)).clients.lookup peer).all
          fun cs => !cs.session.isEstablished := by
      decide +kernel
    rw [hcs, Option.all_some, htunnel.established] at hall
    cases hall
  · have hnone : ((run serverStep [.datagram ⟨draw 5, []⟩ (resetPacket 7) peer,
        .cleanupStale 31] authServed).clients.lookup peer).isNone := by
      decide +kernel
    exact Option.isNone_iff_eq_none.mp hnone

def authClientConfig : Config :=
  { remote := some "192.168.1.1", ca := some "ca.crt", cert := some "client.crt"
    key := some "client.key" }

def signedServerHello : Bytes :=
  encodeHandshakeMessage .serverHello (intOfBytes (sidOf 5).val)
    (hello [1, 100] 5 ++ signatureField 1 7 5)

def authConnected : VpnClient primitives :=
  run clientStep [.attempt (draw 7), .connect true, .datagram 0 [] (resetAckPacket 5),
    .datagram 0 [] signedServerHello, .tick 0] (VpnClient.new authClientConfig (draw 7))

def keepalivePacket (sid : UInt8) : Bytes :=
  encodePacket .control (intOfBytes (sidOf sid).val) [MessageType.keepalive.value]

theorem authConnected_reachable : ClientReachable authConnected :=
  ⟨_, _, ⟨authClientConfig, draw 7, rfl⟩, rfl⟩

theorem authConnected_tunnel : ∃ ch, Tunnel authConnected.session authConnected.data
    authConnected.session.cipher authConnected.session.peerSessionId ch := by
  have hready : (authConnected.session.isEstablished && authConnected.data.isSome) = true := by
    decide +kernel
  obtain ⟨hest, hdata⟩ := Bool.and_eq_true_iff.mp hready
  obtain ⟨ch, hch⟩ := Option.isSome_iff_exists.mp hdata
  exact ⟨ch, hest, rfl, rfl, hch⟩

def duplicate : Bytes := finishedPacket (signatureField 2 7 5) 7

theorem duplicate_spares {cs : ClientSession primitives}
    (hcs : authServed.clients.lookup peer = some cs) :
    SparesSession ⟨draw 5, []⟩ duplicate cs := by
  have hcall : controlCall [] duplicate = some (.clientFinished (signatureField 2 7 5)) := rfl
  have hall : (authServed.clients.lookup peer).all fun cs => decide
      (signatureFails cs.session.peerCert (orEmpty cs.session.peerPubEph ++ cs.session.publicEph)
        ((signatureField 2 7 5).drop 2) = false) := by
    decide +kernel
  rw [hcs, Option.all_some] at hall
  constructor
  · exact fun hopcode => absurd hopcode (by decide)
  · intro _ payload hhello
    cases hcall.symm.trans hhello
  · intro _ payload hfinished hrefused
    cases hcall.symm.trans hfinished
    have hsig : signatureAt (signatureField 2 7 5) 0 = .ok ((signatureField 2 7 5).drop 2) := by
      decide +kernel
    have hfails := hrefused _ hsig
    rw [of_decide_eq_true hall] at hfails
    cases hfails

theorem zeroWire_forged {cs : ClientSession primitives} {ch : DataChannel}
    (hcs : authServed.clients.lookup peer = some cs) (hch : cs.data = some ch) :
    Forged primitives ch (zeroWire 9) := by
  have hall : (authServed.clients.lookup peer).all fun cs => cs.data.all fun ch =>
      ((dataPayload (zeroWire 9)).all fun payload => (PyVpn.openSealed primitives ch (payload.drop 4)
        (ch.sharedId.val ++ payload.take 4)).toOption.isNone) := by
    decide +kernel
  rw [hcs, Option.all_some, hch, Option.all_some] at hall
  refine forged_of_rejected ideal fun payload hpayload => ?_
  rw [hpayload, Option.all_some] at hall
  exact Option.isNone_iff_eq_none.mp hall

theorem gentle_sweep {harmless : Draw primitives → Bytes → ClientSession primitives → Prop}
    {self : VpnServer primitives} {now : Time}
    (h : ((self.clients.lookup peer).all fun cs =>
      decide (now - cs.lastSeen ≤ self.config.keepaliveTimeout)) = true) :
    Gentle harmless peer self (.cleanupStale now) := by
  intro cs hcs
  rw [hcs, Option.all_some] at h
  exact of_decide_eq_true h

/-- The server's tunnel survives the duplicate and a sweep after 100 seconds, and zeros in
the place of sealed data; the client's survives a keepalive. -/
theorem tunnel_survives_harmless_duplicate :
    (∃ cipher peerId ch, TunnelAt (run serverStep
      [.datagram ⟨draw 5, []⟩ duplicate peer, .cleanupStale 100] authServed) peer cipher peerId
        ch) ∧
    (∃ cipher peerId ch, TunnelAt (run serverStep
      [.datagram ⟨draw 5, []⟩ (zeroWire 9) peer, .cleanupStale 100] authServed) peer cipher peerId
        ch) ∧
    ∃ cipher peerId ch, Tunnel
      (run clientStep [.datagram 1 [] (keepalivePacket 5)] authConnected).session
      (run clientStep [.datagram 1 [] (keepalivePacket 5)] authConnected).data
      cipher peerId ch := by
  obtain ⟨cs, ch, hcs, -, htunnel⟩ := authServed_tunnel
  have hserver := tunnel_survives_harmless.1 authServed authServed_reachable peer _ _ ch
    ⟨cs, hcs, htunnel⟩
  refine ⟨⟨_, _, ch, (hserver _).1 ⟨fun _ cs' hcs' => ?_, gentle_sweep (by decide +kernel), trivial⟩⟩,
    ?_, ?_⟩
  · exact ⟨duplicate_spares hcs', fun hopcode => absurd hopcode (by decide)⟩
  · have hzeros (cs' : ClientSession primitives) : ForgedTo ch ⟨draw 5, []⟩ (zeroWire 9) cs' :=
      ⟨⟨fun hopcode => absurd hopcode (by decide), fun hopcode => absurd hopcode (by decide),
        fun hopcode => absurd hopcode (by decide)⟩, fun _ => zeroWire_forged hcs htunnel.channel⟩
    obtain ⟨window, hforged⟩ := (hserver [.datagram ⟨draw 5, []⟩ (zeroWire 9) peer,
      .cleanupStale 100]).2 ideal
        ⟨fun _ cs' _ => hzeros cs', gentle_sweep (by decide +kernel), trivial⟩
    exact ⟨_, _, _, hforged⟩
  · obtain ⟨ch, htunnel⟩ := authConnected_tunnel
    refine ⟨_, _, ch, (tunnel_survives_harmless.2 authConnected authConnected_reachable _ _ ch
      htunnel _).1 ⟨?_, trivial⟩⟩
    have hcall : clientCallOf [] (keepalivePacket 5) = none := rfl
    refine ⟨⟨fun hopcode => absurd hopcode (by decide), ?_⟩, fun hopcode => absurd hopcode (by decide)⟩
    intro payload hhello
    cases hcall.symm.trans hhello

end Transparent
end PyVpn
