import PyVpn.HonestHandshake
import PyVpn.KeepaliveLine

/-! What a handshake makes each end send over UDP: what its handlers return, and at its end the
address of the client. -/
namespace PyVpn
open EventRun
variable {P : Primitives}

section ServerSends
variable {self : VpnServer P} {addr : Addr} {cs : ClientSession P} {config : Config} {draw : Draw P}
  {data : Bytes} {packets : List Bytes}

theorem serverHandler_blind (call : ServerCall) :
    (serverHandler (P := P) call).Blind Session.unassigned := by
  cases call with
  | reset now raw => exact serverHandleReset_blind now raw
  | clientHello coins payload => exact serverHandleClientHello_blind coins payload
  | clientFinished payload => exact serverHandleClientFinished_blind payload

theorem forM_syncSendTo (self : VpnServer P) (htcp : self.config.isTcp = false)
    (htransport : self.transport = true) (cs : ClientSession P) (packets : List Bytes) :
    packets.forM (syncSendTo cs) self =
      (.ok (), { self with effects := self.effects ++ packets.map (.sendto · cs.addr) }) := by
  induction packets generalizing self with
  | nil =>
    rw [List.map_nil, List.append_nil]
    rfl
  | cons data packets ih =>
    have hsend : syncSendTo cs data self =
        (.ok (), { self with effects := self.effects ++ [.sendto data cs.addr] }) := by
      simp only [syncSendTo, Py.bind_run, Py.self_run, htcp, htransport, if_true, emit,
        Py.assign_run]
    have hrest := ih { self with effects := self.effects ++ [.sendto data cs.addr] } htcp htransport
    change (syncSendTo cs data >>= fun _ => packets.forM (syncSendTo cs)) self = _
    rw [Py.bind_run, hsend]
    simp only
    rw [hrest, List.append_assoc]
    rfl

theorem callHandler_udp (self : VpnServer P) (cs : ClientSession P)
    (htcp : self.config.isTcp = false) (htransport : self.transport = true)
    {handler : Py (Session P) (List Bytes)} {session : Session P}
    (hrun : handler cs.session = (.ok packets, session)) :
    callHandler cs handler self = (.ok { cs with session := session }, { self with
      clients := self.clients.insert cs.addr { cs with session := session }
      effects := self.effects ++ packets.map (.sendto · cs.addr) }) := by
  have hsend := forM_syncSendTo
    { self with clients := self.clients.insert cs.addr { cs with session := session } }
    htcp htransport { cs with session := session } packets
  unfold callHandler
  simp only [hrun, Py.bind_run, storeClient, Py.assign_run, Py.ofExcept_run, hsend, Py.pure_run]

theorem sentTo_emitted (effects : List Effect) (packets : List Bytes) :
    (effects ++ packets.map (Effect.sendto · addr)).filterMap (Effect.sentTo addr) =
      effects.filterMap (Effect.sentTo addr) ++ packets := by
  have hown : (packets.map (Effect.sendto · addr)).filterMap (Effect.sentTo addr) = packets := by
    induction packets with
    | nil => rfl
    | cons data packets ih => simp [Effect.sentTo, ih]
  rw [List.filterMap_append, hown]

theorem freshClient_configured {s : Session P} (hs : Configured config true draw.session s)
    (addr : Addr) : freshClient config draw.session addr none =
      some (ClientSession.new addr s draw.session.now) := by
  unfold Configured at hs
  unfold freshClient
  cases hpaths : config.authPaths with
  | none =>
    rw [hpaths] at hs
    rw [hs]
    rfl
  | some paths =>
    rw [hpaths] at hs
    obtain ⟨ca, cert, key⟩ := paths
    simp only [hs]
    rfl

theorem first_reset (h : OnUdp config self) (hview : peerView self addr = none) {s t : Session P}
    (hs : Configured config true draw.session s)
    (hopcode : data.headD 0 = Opcode.hardResetClient.value)
    (hrun : serverHandleReset draw.now data s = (.ok packets, t)) :
    peerView (serverStep self (.datagram draw data addr)) addr =
        some { ClientSession.new addr s draw.now with session := t } ∧
      sentTo addr (serverStep self (.datagram draw data addr)) = sentTo addr self ++ packets := by
  have hne : ¬ data.length < 1 := by
    intro hshort
    have hnil : data = [] := List.eq_nil_of_length_eq_zero (by omega)
    rw [hnil] at hopcode
    cases hopcode
  have hfresh := freshClient_configured hs addr
  constructor
  · have hnext := serverStep_view h.tables.addressed (.datagram draw data addr) addr
    rw [peerEvent, if_pos rfl, Option.elim, hview, peerStep, peerDatagram, if_neg hne, if_pos hopcode,
      h.configured, hfresh] at hnext
    rw [hnext]
    have hcall : serverCall s (.reset draw.now data) = t := congrArg Prod.snd hrun
    exact congrArg (fun t => some { ClientSession.new addr s draw.now with session := t }) hcall
  · have hnone : self.clients.lookup addr = none := Option.map_eq_none_iff.mp hview
    obtain ⟨cs, hcs, -⟩ | ⟨e, -, hno, -⟩ | ⟨cs, -, hcs, haddr, hget⟩ :=
      getOrCreateSession_run draw.session addr none self
    · rw [hnone] at hcs
      cases hcs
    · rw [h.configured, hfresh] at hno
      cases hno
    · rw [h.configured, hfresh] at hcs
      cases hcs
      have htcp : self.config.isTcp = false := by rw [h.configured, h.udp]
      have hcalled := callHandler_udp
        { self with
          clients := self.clients.insert addr (ClientSession.new addr s draw.session.now) }
        (ClientSession.new addr s draw.session.now) htcp h.transport hrun
      rw [serverStep]
      unfold handleUdpData
      simp only [if_neg hne, if_pos hopcode, Py.bind_run, hget, hcalled, Py.pure_run]
      exact sentTo_emitted self.effects packets

/-- The entry behind a view runs the handler as the view does. -/
theorem found_runs {found : ClientSession P} (hbare : found.bare = cs) {call : ServerCall}
    {t : Session P} (hrun : serverHandler call cs.session = (.ok packets, t)) :
    ∃ t', serverHandler call found.session = (.ok packets, t') ∧
      t'.isEstablished = t.isEstablished := by
  subst hbare
  have hblind := serverHandler_blind call found.session
  rw [show found.bare.session = found.session.unassigned from rfl, hblind] at hrun
  obtain ⟨hpackets, ht⟩ := Prod.mk.inj hrun
  exact ⟨_, Prod.ext hpackets rfl, by rw [← ht]; rfl⟩

theorem found_data {found : ClientSession P} (hbare : found.bare = cs) (hdata : cs.data = none) :
    found.data = none := by
  subst hbare
  exact Option.map_eq_none_iff.mp hdata

theorem control_view (h : OnUdp config self) (hview : peerView self addr = some cs)
    (hopcode : data.headD 0 = Opcode.control.value) {call : ServerCall}
    (hcall : controlCall draw.coins data = some call) {t : Session P}
    (hrun : serverHandler call cs.session = (.ok packets, t)) (hdata : cs.data = none) :
    peerView (serverStep self (.datagram draw data addr)) addr =
      some (if t.isEstablished then
        ClientSession.opened { cs.seen draw.now with session := t } config.compLzo
      else { cs.seen draw.now with session := t }) := by
  obtain ⟨hne, hreset, hack⟩ := opcode_cases (.inl hopcode)
  have ht : serverCall cs.session call = t := by
    rw [← serverHandler_session, hrun]
  have hnext := serverStep_view h.tables.addressed (.datagram draw data addr) addr
  rw [peerEvent, if_pos rfl, Option.elim, hview] at hnext
  simp only [peerStep, peerDatagram, if_neg hne, if_neg hreset, if_neg hack, Option.map_some,
    if_pos hopcode, peerControl, hcall, h.configured] at hnext
  have hcalled : (cs.seen draw.now).called call = { cs.seen draw.now with session := t } :=
    congrArg (fun t => { cs.seen draw.now with session := t }) ht
  have hnone : (cs.seen draw.now).data.isNone = true := by
    rw [show (cs.seen draw.now).data = none from hdata]
    rfl
  rw [hcalled, hnone, Bool.and_true] at hnext
  exact hnext

theorem control_sent (h : OnUdp config self) (hview : peerView self addr = some cs)
    (hopcode : data.headD 0 = Opcode.control.value) {call : ServerCall}
    (hcall : controlCall draw.coins data = some call) {t : Session P}
    (hrun : serverHandler call cs.session = (.ok packets, t)) (hwaits : t.isEstablished = false) :
    sentTo addr (serverStep self (.datagram draw data addr)) = sentTo addr self ++ packets := by
  obtain ⟨found, hfound, hbare⟩ := lookup_of_view hview
  obtain ⟨t', hrun', ht'⟩ := found_runs hbare hrun
  have haddr : found.addr = addr := h.tables.addressed addr found hfound
  have htcp : self.config.isTcp = false := by rw [h.configured, h.udp]
  have hcalled := callHandler_udp
    { self with clients := self.clients.insert found.addr (found.seen draw.now) }
    (found.seen draw.now) htcp h.transport hrun'
  have hstays : ¬ (t'.isEstablished && found.data.isNone) = true := by
    rw [ht', hwaits]
    exact Bool.false_ne_true
  rw [serverStep, handleUdpData_control hfound hopcode hcall, Py.bind_run, hcalled]
  simp only
  rw [openDataChannel_waits hstays]
  exact haddr ▸ sentTo_emitted self.effects packets

def FreeAddress (self : VpnServer P) : Prop :=
  ∃ pool, self.ipPool = some pool ∧ pool.available ≠ ∅

instance (self : VpnServer P) : Decidable (FreeAddress self) :=
  decidable_of_iff (self.ipPool.any fun pool => decide (pool.available ≠ ∅)) (by
    simp [FreeAddress, Option.any_eq_true])

/-- An entry that gets its channel gets a free address too, and is told. -/
theorem openDataChannel_udp (self : VpnServer P) (cs : ClientSession P)
    (htcp : self.config.isTcp = false) (htransport : self.transport = true)
    (hopens : (cs.session.isEstablished && cs.data.isNone) = true) (hfree : FreeAddress self) :
    ∃ n, (openDataChannel cs self).2.effects = self.effects ++
      [.sendto (encodePacket .control cs.session.sid
        (MessageType.ipAssign.value :: (strIPv4 n).toUTF8.toList)) cs.addr, .addRoute (strIPv4 n)] := by
  obtain ⟨pool, hpool, havailable⟩ := hfree
  obtain ⟨hempty, -⟩ | ⟨n, -, hallocate⟩ := pool.allocate_cases cs.clientId
  · exact absurd hempty havailable
  · refine ⟨n, ?_⟩
    have hclient (ch : DataChannel) :
        ClientSession.clientId { cs with data := some ch } = cs.clientId := rfl
    simp only [openDataChannel, hopens, if_true, assignIpToClient, storeClient, syncSendTo, emit,
      Py.bind_run, Py.self_run, Py.assign_run, hpool, hclient, hallocate, htcp, htransport, Py.pure_run,
      List.append_assoc, List.singleton_append]
    rfl

theorem finished_sent (h : OnUdp config self) (hview : peerView self addr = some cs)
    (hopcode : data.headD 0 = Opcode.control.value) {call : ServerCall}
    (hcall : controlCall draw.coins data = some call) {t : Session P}
    (hrun : serverHandler call cs.session = (.ok packets, t)) (hest : t.isEstablished = true)
    (hdata : cs.data = none) (hfree : FreeAddress self) :
    ∃ ip assignment, ip ≠ "" ∧ IsAssignment ip assignment ∧
      sentTo addr (serverStep self (.datagram draw data addr)) =
        sentTo addr self ++ (packets ++ [assignment]) := by
  obtain ⟨found, hfound, hbare⟩ := lookup_of_view hview
  obtain ⟨t', hrun', ht'⟩ := found_runs hbare hrun
  have haddr : found.addr = addr := h.tables.addressed addr found hfound
  have htcp : self.config.isTcp = false := by rw [h.configured, h.udp]
  have hcalled := callHandler_udp
    { self with clients := self.clients.insert found.addr (found.seen draw.now) }
    (found.seen draw.now) htcp h.transport hrun'
  have hopens : (t'.isEstablished && found.data.isNone) = true := by
    rw [ht', hest, found_data hbare hdata]
    rfl
  rw [serverStep, handleUdpData_control hfound hopcode hcall, Py.bind_run, hcalled]
  simp only
  generalize hmid : ({ self with
    clients := (self.clients.insert found.addr (found.seen draw.now)).insert
      (found.seen draw.now).addr { found.seen draw.now with session := t' }
    effects := self.effects ++ packets.map (.sendto · (found.seen draw.now).addr) } :
      VpnServer P) = mid
  have hfreeMid : FreeAddress mid := hmid ▸ hfree
  obtain ⟨n, heffects⟩ := openDataChannel_udp mid { found.seen draw.now with session := t' }
    (hmid ▸ htcp) (hmid ▸ h.transport) hopens hfreeMid
  subst haddr
  have hassign (packet : Bytes) :
      [Effect.sendto packet found.addr, .addRoute (strIPv4 n)].filterMap (Effect.sentTo found.addr) =
        [packet] := by
    simp [Effect.sentTo]
  refine ⟨strIPv4 n, encodePacket .control t'.sid
    (MessageType.ipAssign.value :: (strIPv4 n).toUTF8.toList), strIPv4_ne_empty n, ⟨_, rfl⟩, ?_⟩
  rw [sentTo, heffects, ← hmid, List.filterMap_append, ← List.append_assoc]
  exact congr (congrArg _ (sentTo_emitted self.effects packets)) (hassign _)

end ServerSends

section ClientSends
variable {life : Life P} {config : Config} {coins data : Bytes} {call : ClientCall}

theorem ipAssigned_of_call (hcall : clientCallOf coins data = some call) : ipAssigned data = none := by
  unfold clientCallOf at hcall
  unfold ipAssigned
  by_cases hreset : data.headD 0 = Opcode.hardResetServer.value
  · have hcontrol : data.headD 0 ≠ Opcode.control.value := by
      rw [hreset]
      decide
    rw [if_neg hcontrol]
  · rw [if_neg hreset] at hcall
    by_cases hcontrol : data.headD 0 = Opcode.control.value
    · rw [if_pos hcontrol] at hcall ⊢
      cases hdecode : decodePacket data with
      | error e => rfl
      | ok r =>
        rw [hdecode] at hcall
        simp only at hcall ⊢
        cases htype : MessageType.ofValue (r.2.2.headD 0) with
        | error e => rfl
        | ok msgType =>
          rw [htype] at hcall
          cases msgType with
          | ipAssign => cases hcall
          | _ => rfl
    · rw [if_neg hcontrol]

theorem client_called (h : ClientOn config life) (faults : AssignFaults) (now : Time)
    (hcall : clientCallOf coins data = some call) {packets : List Bytes} {u : Session P}
    (hrun : clientHandler call life.client.session = (.ok packets, u)) :
    lifeStep life (.datagram faults now coins data) = { life with client := { life.client with
      lastSeen := now, session := u, effects := life.client.effects ++ packets.map .sendto } } := by
  have htcp : life.client.config.isTcp = false := by rw [h.configured, h.udp]
  have hsend := forM_syncSend { life.client with lastSeen := now, session := u } htcp h.transport
    packets
  have hhandler : VpnClient.callHandler (clientHandler call) { life.client with lastSeen := now } =
      (.ok (), { life.client with
        lastSeen := now, session := u, effects := life.client.effects ++ packets.map .sendto }) := by
    unfold VpnClient.callHandler
    simp only [Py.bind_run, Py.self_run, hrun, Py.assign_run, Py.ofExcept_run, hsend]
  have hdatagram : VpnClient.handleUdpDataWith faults now coins data life.client =
      VpnClient.callHandler (clientHandler call) { life.client with lastSeen := now } := by
    unfold VpnClient.handleUdpDataWith
    rw [ipAssigned_of_call hcall]
    exact clientUdpData_called now hcall life.client
  rw [lifeStep_datagram h.looping, hdatagram, hhandler]

end ClientSends
end PyVpn
