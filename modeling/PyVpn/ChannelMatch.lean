import PyVpn.ClientSteps
import PyVpn.KeyCoherence
import PyVpn.Opening
import PyVpn.ServerTables

/-! Whose keys a data channel has. A server makes the channel of an entry once, a
client once for each connection attempt; the session under it can be keyed again. -/
namespace PyVpn
open EventRun
variable {P : Primitives}

/-- The channel has the key and the shared id of the session. -/
def Belongs (ch : DataChannel) (s : Session P) : Prop :=
  ch.cipher = s.cipher ∧
    ch.sharedId = deriveSessionId s.sessionId (orEmpty (s.peerSessionId.map Subtype.val))

def Matched (s : Session P) (channel : Option DataChannel) : Prop :=
  s.isEstablished = true → ∀ ch, channel = some ch → Belongs ch s

def ServerMatched (self : VpnServer P) : Prop :=
  ∀ addr cs, self.clients.lookup addr = some cs → Matched cs.session cs.data

/-- No `CLIENT_FINISHED` is accepted for an entry that has a channel and whose session
is not established. -/
def NoSecondFinished (self : VpnServer P) : ServerEvent P → Prop
  | .datagram draw data addr => ∀ cs payload, self.clients.lookup addr = some cs →
      cs.data.isSome = true → cs.session.isEstablished = false →
      data.headD 0 = Opcode.control.value →
      controlCall draw.coins data = some (.clientFinished payload) →
      FinishedRefused cs.session payload
  | _ => True

/-- A `SERVER_HELLO` the client answers: every check passed, and it could sign. -/
def HelloAccepted (s : Session P) (coins payload pubData : Bytes) : Prop :=
  ∃ certData offset cert cipher sig finishSig sigLen,
    HelloKeyed s payload certData pubData offset cert cipher ∧
    signatureAt payload offset = .ok sig ∧
    signatureFails cert (s.publicEph ++ pubData) sig = false ∧
    sign (P := P) s.localKeyPath coins (s.publicEph ++ pubData) = .ok finishSig ∧
    pack 2 finishSig.length = .ok sigLen

/-- With a channel there, a `SERVER_HELLO` is answered only in `ESTABLISHED` and only
if it repeats the ephemeral key of the peer. -/
def NoSecondHello (self : VpnClient P) : ClientEvent P → Prop
  | .datagram _ coins data => ∀ coins' payload pubData, self.data.isSome = true →
      clientCallOf coins data = some (.serverHello coins' payload) →
      HelloAccepted self.session coins' payload pubData →
      self.session.isEstablished = true ∧ self.session.peerPubEph = some pubData
  | _ => True

theorem Matched.of_none {s : Session P} {channel : Option DataChannel} (h : channel = none) :
    Matched s channel := by
  intro _ ch hch
  rw [h] at hch
  cases hch

theorem Matched.of_not_established {s : Session P} {channel : Option DataChannel}
    (h : s.isEstablished = false) : Matched s channel := by
  intro hest
  rw [h] at hest
  cases hest

theorem Matched.rekeep {s : Session P} {ch ch' : DataChannel} (h : Matched s (some ch))
    (hcipher : ch'.cipher = ch.cipher) (hshared : ch'.sharedId = ch.sharedId) :
    Matched s (some ch') := by
  intro hest _ hdata
  obtain ⟨rfl⟩ := hdata
  obtain ⟨hc, hs⟩ := h hest ch rfl
  exact ⟨hcipher.trans hc, hshared.trans hs⟩

theorem Matched.decrypted {s : Session P} {ch : DataChannel} (h : Matched s (some ch))
    (now : Time) (wire : Bytes) : Matched s (some (decrypt P now wire ch).2) := by
  obtain ⟨table, hrun⟩ := decrypt_frame P now wire ch
  rw [hrun]
  exact h.rekeep rfl rfl

theorem Matched.encrypted {s : Session P} {ch : DataChannel} (h : Matched s (some ch))
    (nonces : Nat → Nonce) (packet : Bytes) : Matched s (some (encrypt P nonces packet ch).2) := by
  obtain ⟨n, -, hrun⟩ := encrypt_frame P nonces packet ch
  rw [hrun]
  exact h.rekeep rfl rfl

theorem Matched.swept {s : Session P} {channel : Option DataChannel} (h : Matched s channel)
    (now : Time) : Matched s (channel.map (cleanupFragments now)) := by
  cases channel with
  | none => exact .of_none rfl
  | some ch => exact h.rekeep rfl rfl

section Server
variable {self self' : VpnServer P} {addr : Addr} {cs : ClientSession P}

theorem ServerMatched.insert (h : ServerMatched self) (cs : ClientSession P)
    (hcs : Matched cs.session cs.data)
    (hclients : self'.clients = self.clients.insert addr cs) : ServerMatched self' := by
  unfold ServerMatched
  rw [hclients]
  exact Dict.forall_insert h hcs

theorem controlCall_cases {coins data : Bytes} {call : ServerCall}
    (h : controlCall coins data = some call) :
    (∃ payload, call = .clientHello coins payload) ∨ ∃ payload, call = .clientFinished payload := by
  unfold controlCall at h
  split at h
  · cases h
  · split at h
    · exact .inl ⟨_, (Option.some.inj h).symm⟩
    · exact .inr ⟨_, (Option.some.inj h).symm⟩
    · cases h

theorem clientHello_not_established (coins payload : Bytes) (s : Session P) :
    (serverCall s (.clientHello coins payload)).isEstablished = false := by
  have houtcome := serverCall_outcome s (.clientHello coins payload)
  generalize serverCall s (.clientHello coins payload) = t at houtcome ⊢
  cases houtcome with
  | helloFailed => rfl
  | helloAnswered => rfl

theorem clientFinished_established_iff (payload : Bytes) (s : Session P) :
    (serverCall s (.clientFinished payload)).isEstablished = true ↔
      ¬ FinishedRefused s payload := by
  have houtcome := serverCall_outcome s (.clientFinished payload)
  generalize serverCall s (.clientFinished payload) = t at houtcome ⊢
  cases houtcome with
  | finishedRefused _ hrefused => simp [Session.isEstablished, hrefused]
  | finished _ sig hsig hpass =>
    have hnot : ¬ FinishedRefused s payload := by
      intro hrefused
      cases hpass.symm.trans (hrefused sig hsig)
    simp [Session.isEstablished, hnot]

theorem Matched.called {draw : Draw P} {data : Bytes} (h : Matched cs.session cs.data)
    (hlookup : self.clients.lookup addr = some cs)
    (hok : NoSecondFinished self (.datagram draw data addr)) {call : ServerCall}
    (hopcode : data.headD 0 = Opcode.control.value)
    (hcall : controlCall draw.coins data = some call) :
    Matched (serverCall cs.session call) cs.data := by
  obtain ⟨payload, rfl⟩ | ⟨payload, rfl⟩ := controlCall_cases hcall
  · exact .of_not_established (clientHello_not_established draw.coins payload cs.session)
  · have houtcome := serverCall_outcome cs.session (.clientFinished payload)
    generalize serverCall cs.session (.clientFinished payload) = t at houtcome ⊢
    cases houtcome with
    | finishedRefused => exact .of_not_established rfl
    | finished _ sig hsig hpass =>
      intro _ ch hdata
      have hest : cs.session.isEstablished = true := by
        by_contra hnot
        have hrefused := hok cs payload hlookup (by rw [hdata]; rfl) (by simpa using hnot)
          hopcode hcall
        cases hpass.symm.trans (hrefused sig hsig)
      exact h hest ch hdata

theorem Matched.reset (h : Matched cs.session cs.data) (now : Time) (data : Bytes) :
    Matched (serverCall cs.session (.reset now data)) cs.data := by
  have houtcome := serverCall_outcome cs.session (.reset now data)
  generalize serverCall cs.session (.reset now data) = t at houtcome ⊢
  cases houtcome with
  | resetIgnored => exact h
  | reset => exact .of_not_established rfl

theorem ServerMatched.datagram {draw : Draw P} {data : Bytes} (h : ServerMatched self)
    (hok : NoSecondFinished self (.datagram draw data addr))
    (hstep : DatagramStep draw data addr self self') : ServerMatched self' := by
  cases hstep with
  | ignored => exact h
  | reset cs effects _ hcs =>
    have hbefore : Matched cs.session cs.data := by
      obtain hcs | ⟨-, hfresh⟩ := hcs
      · exact h addr cs hcs
      · exact .of_none hfresh.unopened.1
    exact h.insert (cs.called (.reset draw.now data)) (hbefore.reset draw.now data) rfl
  | entry cs cs' effects hcs hstep =>
    have hbefore := h addr cs hcs
    cases hstep with
    | seen => exact h.insert (cs.seen draw.now) hbefore rfl
    | called call hopcode hcall =>
      exact h.insert ((cs.seen draw.now).called call)
        (hbefore.called hcs hok hopcode hcall) rfl
    | received ch _ hdata _ =>
      rw [hdata] at hbefore
      exact h.insert { cs.seen draw.now with data := some (decrypt P draw.now data ch).2 }
        (hbefore.decrypted draw.now data) rfl
  | opened cs call effects self' hcs hdata _ _ _ hopening =>
    -- the channel is made from the very session the entry then holds
    have hcalled : ServerMatched { self with
        clients := self.clients.insert addr ((cs.seen draw.now).called call)
        effects := effects } :=
      h.insert ((cs.seen draw.now).called call) (.of_none hdata) rfl
    cases hopening with
    | unassigned =>
      refine hcalled.insert (((cs.seen draw.now).called call).opened self.config.compLzo) ?_ rfl
      intro _ _ hdata
      obtain ⟨rfl⟩ := hdata
      exact ⟨rfl, rfl⟩
    | assigned pool n effects' _ _ =>
      refine hcalled.insert ((((cs.seen draw.now).called call).opened
        self.config.compLzo).assigned (strIPv4 n)) ?_ rfl
      intro _ _ hdata
      obtain ⟨rfl⟩ := hdata
      exact ⟨rfl, rfl⟩

theorem ServerMatched.upkeep (h : ServerMatched self) (hstep : UpkeepStep self self') :
    ServerMatched self' := by
  cases hstep with
  | handedOver effects => exact h
  | joined draw addr writer cs _ hfresh => exact h.insert cs (.of_none hfresh.unopened.1) rfl
  | entry addr cs cs' effects hcs hstep =>
    have hbefore := h addr cs hcs
    cases hstep with
    | keepalive now => exact h.insert { cs with lastKeepalive := now } hbefore rfl
    | encrypted nonces packet ch hdata =>
      rw [hdata] at hbefore
      exact h.insert { cs with data := some (encrypt P nonces packet ch).2 }
        (hbefore.encrypted nonces packet) rfl
    | swept now =>
      exact h.insert { cs with data := cs.data.map (cleanupFragments now) }
        (hbefore.swept now) rfl
  | removed addr cs hcs =>
    intro a cs' hlookup
    exact h a cs' (lookup_of_erase (removeClient_clients hcs) hlookup)

theorem serverMatched_run {config : Config} (hstart : VpnServer.start config = .ok self)
    (events : List (ServerEvent P)) (hok : Meets serverStep NoSecondFinished events self) :
    ServerMatched (run serverStep events self) := by
  have hinv : Tables self ∧ ServerMatched self := by
    refine ⟨.start hstart, ?_⟩
    obtain ⟨ipPool, rfl, -⟩ := start_cases hstart
    intro addr cs hcs
    cases hcs
  exact (inv_run (fun s e hs hoke => serverStep_inv NoSecondFinished
    (I := fun s => Tables s ∧ ServerMatched s)
    (fun _ hs => hs.1.addressed)
    (fun _ _ _ _ _ hs hoke hstep => ⟨hs.1.datagram hstep, hs.2.datagram hoke hstep⟩)
    (fun _ _ hs hstep => ⟨hs.1.upkeep hstep, hs.2.upkeep hstep⟩) s e hs hoke)
    events self hinv hok).2

end Server

section Client

theorem isEstablished_iff {s : Session P} : s.isEstablished = true ↔ s.state = .established := by
  simp [Session.isEstablished]

def Coherent (s : Session P) : Prop := s.isEstablished = true → KeyCoherent s

theorem Coherent.of_not_established {s : Session P} (h : s.isEstablished = false) :
    Coherent s := by
  intro hest
  rw [h] at hest
  cases hest

theorem Coherent.called {s : Session P} (h : Coherent s) (call : ClientCall) :
    Coherent (clientCall s call) := by
  simp only [Coherent, isEstablished_iff] at h ⊢
  exact (clientCall_outcome s call).coherent h

theorem clientStep_coherent {self : VpnClient P} (h : Coherent self.session)
    (e : ClientEvent P) : Coherent (clientStep self e).session := by
  cases e with
  | attempt draw => exact .of_not_established (attempt_idle draw self)
  | connect opened =>
    obtain hsession | hidle := (connect_tunnel opened self).1
    · rw [clientStep, hsession]
      exact h
    · exact .of_not_established hidle
  | tick now =>
    rw [clientStep, (tick_tunnel now self).1]
    exact h
  | datagram now coins data =>
    have hstep := clientDatagram_step now coins data self
    generalize (clientStep self (.datagram now coins data)).session = s',
      (clientStep self (.datagram now coins data)).data = d' at hstep
    cases hstep with
    | kept => exact h
    | called call _ => exact h.called call
    | received ch _ _ => exact h
  | tunReadable nonces packet =>
    rw [clientStep, (clientTun_tunnel nonces packet self).1]
    exact h
  | stop => exact h

theorem ClientReachable.coherent {self : VpnClient P} (h : ClientReachable self) :
    Coherent self.session := by
  refine Reachable.inv (I := fun client => Coherent client.session) ?_
    (fun _ e hs => clientStep_coherent hs e) h
  intro _ hstart
  obtain ⟨config, draw, rfl⟩ := hstart
  exact .of_not_established rfl

/-- An answered hello that repeats the peer's ephemeral key derives the same cipher. -/
theorem Matched.serverHello {s : Session P} {channel : Option DataChannel}
    (h : Matched s channel) (hcoherent : Coherent s)
    {coins payload : Bytes}
    (hok : ∀ pubData, channel.isSome = true → HelloAccepted s coins payload pubData →
      s.isEstablished = true ∧ s.peerPubEph = some pubData) :
    Matched (clientCall s (.serverHello coins payload)) channel := by
  have houtcome := clientCall_outcome s (.serverHello coins payload)
  generalize clientCall s (.serverHello coins payload) = t at houtcome ⊢
  cases houtcome with
  | helloFailed => exact .of_not_established rfl
  | helloAccepted _ _ certData pubData sig finishSig sigLen offset cert cipher hkeyed hsig hpass
      hsign hpack =>
    intro _ ch hch
    obtain ⟨hest, hpub⟩ := hok pubData (by rw [hch]; rfl)
      ⟨certData, offset, cert, cipher, sig, finishSig, sigLen, hkeyed, hsig, hpass, hsign, hpack⟩
    obtain ⟨pub, old, hpub', hold, hderive⟩ := hcoherent hest
    cases hpub.symm.trans hpub'
    have hsame : old = cipher := Except.ok.inj (hderive.symm.trans hkeyed.derived)
    obtain ⟨hcipher, hshared⟩ := h hest ch hch
    exact ⟨hcipher.trans (hold.trans (congrArg some hsame)), hshared⟩

theorem clientCallOf_cases {coins data : Bytes} {call : ClientCall}
    (h : clientCallOf coins data = some call) :
    (data.headD 0 = Opcode.hardResetServer.value ∧ call = .resetAck data) ∨
      ∃ payload, call = .serverHello coins payload := by
  unfold clientCallOf at h
  split at h
  · exact .inl ⟨‹_›, (Option.some.inj h).symm⟩
  · split at h
    · split at h
      · cases h
      · split at h
        · exact .inr ⟨_, (Option.some.inj h).symm⟩
        · cases h
    · cases h

theorem Matched.resetAck {s : Session P} {channel : Option DataChannel} (h : Matched s channel)
    (data : Bytes) : Matched (clientCall s (.resetAck data)) channel := by
  have houtcome := clientCall_outcome s (.resetAck data)
  generalize clientCall s (.resetAck data) = t at houtcome ⊢
  cases houtcome with
  | ackIgnored => exact h
  | ack => exact .of_not_established rfl

theorem clientStep_matched {self : VpnClient P} (hcoherent : Coherent self.session)
    (h : Matched self.session self.data) {e : ClientEvent P} (hok : NoSecondHello self e) :
    Matched (clientStep self e).session (clientStep self e).data := by
  cases e with
  | attempt draw => exact .of_not_established (attempt_idle draw self)
  | connect opened =>
    obtain ⟨hsession | hidle, hdata⟩ := connect_tunnel opened self
    · rw [clientStep, hsession, hdata]
      exact h
    · exact .of_not_established hidle
  | tick now =>
    obtain ⟨hsession, hdata | ⟨compLzo, hdata⟩⟩ := tick_tunnel now self
    · rw [clientStep, hsession, hdata]
      exact h.swept now
    · rw [clientStep, hsession, hdata]
      intro _ _ hdata
      obtain ⟨rfl⟩ := hdata
      exact ⟨rfl, rfl⟩
  | datagram now coins data =>
    have hstep := clientDatagram_step now coins data self
    generalize (clientStep self (.datagram now coins data)).session = s',
      (clientStep self (.datagram now coins data)).data = d' at hstep ⊢
    cases hstep with
    | kept => exact h
    | called call hcall =>
      obtain ⟨-, rfl⟩ | ⟨payload, rfl⟩ := clientCallOf_cases hcall
      · exact h.resetAck data
      · exact h.serverHello hcoherent
          fun pubData hchannel haccepted => hok coins payload pubData hchannel hcall haccepted
    | received ch _ hdata =>
      rw [hdata] at h
      exact h.decrypted now data
  | tunReadable nonces packet =>
    obtain ⟨hsession, hdata | ⟨ch, hch, hdata⟩⟩ := clientTun_tunnel nonces packet self
    · rw [clientStep, hsession, hdata]
      exact h
    · rw [hch] at h
      rw [clientStep, hsession, hdata]
      exact h.encrypted nonces packet
  | stop => exact h

theorem clientMatched_run {config : Config} {draw : SessionDraw P}
    (events : List (ClientEvent P))
    (hok : Meets clientStep NoSecondHello events (VpnClient.new config draw)) :
    Matched (run clientStep events (VpnClient.new config draw)).session
      (run clientStep events (VpnClient.new config draw)).data := by
  refine (inv_run (I := fun client => Coherent client.session ∧
    Matched client.session client.data) ?_ events _ ?_ hok).2
  · intro client e hinv hoke
    obtain ⟨hcoherent, h⟩ := hinv
    exact ⟨clientStep_coherent hcoherent e, clientStep_matched hcoherent h hoke⟩
  · exact ⟨.of_not_established rfl, .of_none rfl⟩

end Client

/-- In every run of a server without a second `CLIENT_FINISHED`, and of a client
without a second `SERVER_HELLO`, the channel belongs to the established session. -/
theorem channel_belongs_to_session :
    (∀ (config : Config) (self : VpnServer P), VpnServer.start config = .ok self →
      ∀ events, Meets serverStep NoSecondFinished events self →
        ServerMatched (run serverStep events self)) ∧
    (∀ (config : Config) (draw : SessionDraw P) (events : List (ClientEvent P)),
      Meets clientStep NoSecondHello events (VpnClient.new config draw) →
        let self := run clientStep events (VpnClient.new config draw)
        Matched self.session self.data) :=
  ⟨fun _ _ hstart events hok => serverMatched_run hstart events hok,
    fun _ _ events hok => clientMatched_run events hok⟩

namespace Transparent

def rekeyed : VpnServer primitives := run serverStep (handshake 8) served

/-- The session is established again and the channel still has the first key. -/
theorem second_handshake_keeps_channel : ServerReachable rekeyed ∧ ¬ ServerMatched rekeyed := by
  refine ⟨⟨started, handshake 7 ++ handshake 8, ⟨poolConfig, rfl⟩, run_append ..⟩, ?_⟩
  intro hmatched
  have hany : (rekeyed.clients.lookup peer).any fun cs => cs.session.isEstablished &&
      cs.data.any fun ch => decide (ch.cipher ≠ cs.session.cipher) := by
    decide +kernel
  obtain ⟨cs, hcs, hstale⟩ := (Option.any_eq_true _ _).mp hany
  obtain ⟨hest, hdata⟩ := Bool.and_eq_true_iff.mp hstale
  obtain ⟨ch, hch, hne⟩ := (Option.any_eq_true _ _).mp hdata
  exact of_decide_eq_true hne (hmatched peer cs hcs hest ch hch).1

def clientConfig : Config := { remote := some "192.168.1.1" }

def serverHelloPacket (eph : UInt8) : Bytes :=
  encodeHandshakeMessage .serverHello (intOfBytes (sidOf eph).val) (hello [] eph ++ [0, 0])

def clientEvents : List (ClientEvent primitives) :=
  [.attempt (draw 7), .connect true, .datagram 0 [] (resetAckPacket 5),
    .datagram 0 [] (serverHelloPacket 5), .tick 0]

theorem noSecondFinished_of_no_channel {self : VpnServer primitives}
    (h : ((self.clients.lookup peer).all fun cs => cs.data.isNone) = true)
    (draw : Draw primitives) (data : Bytes) :
    NoSecondFinished self (.datagram draw data peer) := by
  intro cs payload hcs hdata
  rw [hcs, Option.all_some] at h
  cases hchannel : cs.data with
  | none =>
    rw [hchannel] at hdata
    cases hdata
  | some ch =>
    rw [hchannel] at h
    cases h

theorem noSecondHello_of_no_channel {self : VpnClient primitives} (h : self.data = none)
    (now : Time) (coins data : Bytes) : NoSecondHello self (.datagram now coins data) := by
  intro _ _ _ hdata
  rw [h] at hdata
  cases hdata

/-- A handshake, a second one that is given up before its end, and a third one when the
entry is gone. -/
def attempts : List (ServerEvent primitives) :=
  handshake 7 ++ (handshake 8).take 2 ++ .cleanupStale 100 :: handshake 8

/-- The client connects, loses the server and connects again. -/
def clientAttempts : List (ClientEvent primitives) :=
  clientEvents ++ .attempt (draw 8) :: clientEvents.drop 1

theorem helloPacket_not_finished (payload : Bytes) :
    controlCall [] (helloPacket [] 8) ≠ some (.clientFinished payload) := by
  have hcall : controlCall [] (helloPacket [] 8) = some (.clientHello [] (hello [] 8)) := rfl
  rw [hcall]
  exact fun hfinished => nomatch hfinished

/-- Both ends of several attempts. -/
theorem channel_belongs_to_session_handshake :
    ServerMatched (run serverStep attempts started) ∧
    let self := run clientStep clientAttempts (VpnClient.new clientConfig (draw 7))
    Matched self.session self.data := by
  refine ⟨channel_belongs_to_session.1 poolConfig started rfl attempts ?_,
    channel_belongs_to_session.2 clientConfig (draw 7) clientAttempts ?_⟩
  · exact ⟨noSecondFinished_of_no_channel (by decide +kernel) _ _,
      noSecondFinished_of_no_channel (by decide +kernel) _ _,
      noSecondFinished_of_no_channel (by decide +kernel) _ _,
      fun _ _ _ _ _ hopcode => absurd hopcode (by decide),
      fun _ payload _ _ _ _ hcall => absurd hcall (helloPacket_not_finished payload), trivial,
      noSecondFinished_of_no_channel (by decide +kernel) _ _,
      noSecondFinished_of_no_channel (by decide +kernel) _ _,
      noSecondFinished_of_no_channel (by decide +kernel) _ _, trivial⟩
  · exact ⟨trivial, trivial, noSecondHello_of_no_channel rfl _ _ _,
      noSecondHello_of_no_channel rfl _ _ _, trivial, trivial, trivial,
      noSecondHello_of_no_channel (Option.isNone_iff_eq_none.mp (by decide +kernel)) _ _ _,
      noSecondHello_of_no_channel (Option.isNone_iff_eq_none.mp (by decide +kernel)) _ _ _,
      trivial, trivial⟩

end Transparent
end PyVpn
