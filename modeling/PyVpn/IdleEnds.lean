import PyVpn.AssignFaults
import PyVpn.PeerIsolation

/-! The two ends of a tunnel on which only keepalives and data travel: what each datagram and
each round makes of an end, and what it sends. -/
namespace PyVpn
open EventRun
variable {P : Primitives}

/-- A packet of `_send_keepalives`, and the client's answer to it. -/
def IsKeepalive (data : Bytes) : Prop :=
  ∃ sid, data = encodePacket .control sid [MessageType.keepalive.value]

def IsAssignment (ip : String) (data : Bytes) : Prop :=
  ∃ sid, data = encodePacket .control sid (MessageType.ipAssign.value :: ip.toUTF8.toList)

def Effect.sentTo (addr : Addr) : Effect → Option Bytes
  | .sendto data a => if a = addr then some data else none
  | _ => none

def sentTo (addr : Addr) (self : VpnServer P) : List Bytes :=
  self.effects.filterMap (Effect.sentTo addr)

def ClientEffect.sent : ClientEffect → Option Bytes
  | .sendto data => some data
  | _ => none

def VpnClient.sent (self : VpnClient P) : List Bytes := self.effects.filterMap ClientEffect.sent

/-- One round of the loop in `VpnServer.run`. -/
def serverRound (now : Time) (self : VpnServer P) : VpnServer P :=
  let self := cleanupStale now self
  let self := self.clients.keys.foldl (fun self addr => (sendKeepalive now addr self).2) self
  cleanupAllFragments now self

def ClientSession.due (cs : ClientSession P) (config : Config) (now : Time) : Bool :=
  cs.isReady && decide (now - cs.lastKeepalive ≥ config.keepaliveInterval)

/-- What happens at a server besides its rounds and the datagrams of this peer. -/
def Elsewhere (addr : Addr) : ServerEvent P → Prop
  | .datagram _ _ a => a ≠ addr
  | .tcpConnect _ a _ => a ≠ addr
  | .tcpDisconnect a => a ≠ addr
  | .tunReadable _ _ => True
  | _ => False

section Keepalive
variable {data : Bytes}

theorem IsKeepalive.opcode (h : IsKeepalive data) : data.headD 0 = Opcode.control.value := by
  obtain ⟨sid, rfl⟩ := h
  rfl

theorem IsKeepalive.decoded (h : IsKeepalive data) :
    ∃ sid, decodePacket data = .ok (.control, sid, [MessageType.keepalive.value]) := by
  obtain ⟨sid, rfl⟩ := h
  exact ⟨sid, decodePacket_encodePacket _ _ _⟩

theorem IsKeepalive.controlCall (h : IsKeepalive data) (coins : Bytes) :
    controlCall coins data = none := by
  obtain ⟨sid, hdecoded⟩ := h.decoded
  unfold PyVpn.controlCall
  rw [hdecoded]
  rfl

theorem IsKeepalive.ipAssigned (h : IsKeepalive data) : ipAssigned data = none := by
  obtain ⟨sid, hdecoded⟩ := h.decoded
  unfold PyVpn.ipAssigned
  rw [if_pos h.opcode, hdecoded]
  rfl

end Keepalive

section Sent
variable {self self' : VpnServer P} {addr : Addr}

theorem sentTo_of_sameLog (h : SameLog (fun e => (e.sentTo addr).isSome) self self') :
    sentTo addr self' = sentTo addr self := by
  have hfilter (effects : List Effect) :
      (effects.filter fun e => (e.sentTo addr).isSome).filterMap (Effect.sentTo addr) =
        effects.filterMap (Effect.sentTo addr) := by
    induction effects with
    | nil => rfl
    | cons e effects ih =>
      cases he : e.sentTo addr with
      | none => simp [he, ih]
      | some data => simp [he, ih]
  rw [sentTo, ← hfilter, h, hfilter, sentTo]

theorem sentTo_unsent {a : Addr} (ha : a ≠ addr) :
    Unsent (fun e => (e.sentTo addr).isSome) a :=
  ⟨fun data => by simp [Effect.sentTo, ha], fun _ _ => rfl⟩

/-- What happens elsewhere neither touches the entry of a peer nor sends to it. -/
theorem elsewhere_step (haddr : Addressed self) {e : ServerEvent P} (he : Elsewhere addr e) :
    peerView (serverStep self e) addr = peerView self addr ∧
      sentTo addr (serverStep self e) = sentTo addr self := by
  have hview := serverStep_view haddr e addr
  cases e with
  | datagram draw data a =>
    have ha : a ≠ addr := he
    rw [peerEvent, if_neg ha] at hview
    refine ⟨hview, sentTo_of_sameLog (handleUdpData_sameLog (sentTo_unsent ha) ?_ draw
      (fun _ _ => rfl) (fun _ _ => rfl))⟩
    intro cs hcs
    exact (haddr a cs hcs).symm ▸ sentTo_unsent ha
  | tcpConnect draw a writer =>
    have ha : a ≠ addr := he
    rw [peerEvent, if_neg ha] at hview
    exact ⟨hview, sentTo_of_sameLog (getOrCreateSession_sameLog draw a (some writer) self)⟩
  | tcpDisconnect a =>
    have ha : a ≠ addr := he
    rw [peerEvent, if_neg ha] at hview
    exact ⟨hview, sentTo_of_sameLog (removeClient_sameLog (fun _ => rfl) (fun _ => rfl) a self)⟩
  | tunReadable nonces packet =>
    exact ⟨hview, sentTo_of_sameLog (onTunReadable_sameLog nonces packet self)⟩
  | cleanupStale now => exact he.elim
  | keepalive now a => exact he.elim
  | cleanupFragments now => exact he.elim

end Sent
section Setup
variable {self : VpnServer P}

theorem releaseAddress_transport (self : VpnServer P) (cs : ClientSession P) :
    (releaseAddress self cs).transport = self.transport := by
  unfold releaseAddress
  cases cs.virtualIp with
  | none => rfl
  | some ip =>
    simp only
    split
    · rfl
    · rfl

theorem removeClient_transport (addr : Addr) (self : VpnServer P) :
    (removeClient addr self).transport = self.transport := by
  unfold removeClient
  cases self.clients.lookup addr with
  | none => rfl
  | some cs => exact releaseAddress_transport { self with clients := self.clients.erase addr } cs

theorem serverStep_transport (h : Tables self) (e : ServerEvent P) :
    (serverStep self e).transport = self.transport := by
  refine (serverStep_inv (fun _ _ => True)
    (I := fun s => Tables s ∧ s.transport = self.transport) (fun _ hs => hs.1.addressed)
    ?_ ?_ self e ⟨h, rfl⟩ trivial).2
  · intro s s' draw data addr hs _ hstep
    refine ⟨hs.1.datagram hstep, ?_⟩
    cases hstep with
    | ignored => exact hs.2
    | reset cs effects _ _ => exact hs.2
    | entry cs cs' effects _ _ => exact hs.2
    | opened cs call effects self' _ _ _ _ _ hopening =>
      cases hopening with
      | unassigned _ => exact hs.2
      | assigned pool n effects _ _ => exact hs.2
  · intro s s' hs hstep
    refine ⟨hs.1.upkeep hstep, ?_⟩
    cases hstep with
    | handedOver effects => exact hs.2
    | joined draw addr writer cs _ _ => exact hs.2
    | entry addr cs cs' effects _ _ => exact hs.2
    | removed addr cs _ => exact (removeClient_transport addr s).trans hs.2

structure OnUdp (config : Config) (server : VpnServer P) : Prop where
  tables : Tables server
  configured : server.config = config
  udp : config.isTcp = false
  transport : server.transport = true

theorem OnUdp.step {config : Config} (h : OnUdp config self) (e : ServerEvent P) :
    OnUdp config (serverStep self e) :=
  ⟨h.tables.run [e], (serverStep_config h.tables.addressed e).trans h.configured, h.udp,
    (serverStep_transport h.tables e).trans h.transport⟩

end Setup

section Server
variable {self : VpnServer P} {addr : Addr} {cs : ClientSession P} {config : Config}

theorem lookup_of_view (hview : peerView self addr = some cs) :
    ∃ found, self.clients.lookup addr = some found ∧ found.bare = cs :=
  Option.map_eq_some_iff.mp hview

/-- A keepalive or a data packet of a ready peer is seen, and not answered. -/
theorem idle_datagram (h : OnUdp config self) (hview : peerView self addr = some cs)
    (hready : cs.isReady = true) (draw : Draw P) {data : Bytes}
    (hdata : IsKeepalive data ∨ data.headD 0 = Opcode.data.value) :
    ∃ cs', peerView (serverStep self (.datagram draw data addr)) addr = some cs' ∧
      cs'.isReady = true ∧ cs'.lastSeen = draw.now ∧ cs'.lastKeepalive = cs.lastKeepalive ∧
      sentTo addr (serverStep self (.datagram draw data addr)) = sentTo addr self := by
  have haddr := h.tables.addressed
  obtain ⟨found, hfound, hbare⟩ := lookup_of_view hview
  have hnext := serverStep_view haddr (.datagram draw data addr) addr
  rw [peerEvent, if_pos rfl, Option.elim, hview] at hnext
  obtain hkeepalive | hpayload := hdata
  · obtain ⟨hne, hreset, hack⟩ := opcode_cases (.inl hkeepalive.opcode)
    have hcall := hkeepalive.controlCall draw.coins
    simp only [peerStep, peerDatagram, if_neg hne, if_neg hreset, if_neg hack, Option.map_some,
      if_pos hkeepalive.opcode, peerControl, hcall] at hnext
    refine ⟨_, hnext, hready, rfl, rfl, ?_⟩
    rw [serverStep, handleUdpData_known hfound hne hreset hack, if_pos hkeepalive.opcode]
    obtain hrun | ⟨call, -, hsome, -⟩ := handleControl_cases draw.coins (found.seen draw.now) data
      { self with clients := self.clients.insert found.addr (found.seen draw.now) }
    · rw [hrun]
      rfl
    · rw [hcall] at hsome
      cases hsome
  · obtain ⟨hne, hreset, hack⟩ := opcode_cases (.inr hpayload)
    have hcontrol : data.headD 0 ≠ Opcode.control.value := by
      rw [hpayload]
      decide
    have hseen : (cs.seen draw.now).isReady = true := hready
    simp only [peerStep, peerDatagram, if_neg hne, if_neg hreset, if_neg hack, Option.map_some,
      if_neg hcontrol, if_pos hpayload, peerData, if_pos hseen] at hnext
    refine ⟨_, hnext, ?_, rfl, rfl, ?_⟩
    · simpa [ClientSession.isReady] using hseen
    · rw [serverStep, handleUdpData_known hfound hne hreset hack, if_neg hcontrol, if_pos hpayload]
      exact sentTo_of_sameLog (handleData_sameLog (fun _ => rfl) draw.now _ data
        { self with clients := self.clients.insert found.addr (found.seen draw.now) })

theorem foldl_keepalive (now : Time) (l : List Addr) (self : VpnServer P) :
    l.foldl (fun self a => (sendKeepalive now a self).2) self =
      run serverStep (l.map (.keepalive now)) self := by
  induction l generalizing self with
  | nil => rfl
  | cons a l ih => exact ih _

theorem others_keepalive (h : OnUdp config self) (now : Time) {l : List Addr} (hl : addr ∉ l) :
    OnUdp config (run serverStep (l.map (.keepalive now)) self) ∧
    peerView (run serverStep (l.map (.keepalive now)) self) addr = peerView self addr ∧
    sentTo addr (run serverStep (l.map (.keepalive now)) self) = sentTo addr self := by
  induction l generalizing self with
  | nil => exact ⟨h, rfl, rfl⟩
  | cons a l ih =>
    obtain ⟨ha, hl⟩ := not_or.mp (mt List.mem_cons.mpr hl)
    have hview := serverStep_view h.tables.addressed (.keepalive now a) addr
    rw [peerEvent, if_neg (Ne.symm ha)] at hview
    have hsent : sentTo addr (serverStep self (.keepalive now a)) = sentTo addr self :=
      sentTo_of_sameLog (sendKeepalive_sameLog (fun cs hcs =>
        (h.tables.addressed a cs hcs).symm ▸ sentTo_unsent (Ne.symm ha)) now)
    obtain ⟨hlast, hlastView, hlastSent⟩ := ih (h.step (.keepalive now a)) hl
    exact ⟨hlast, hlastView.trans hview, hlastSent.trans hsent⟩

theorem own_keepalive (h : OnUdp config self) (hview : peerView self addr = some cs) (now : Time) :
    peerView (serverStep self (.keepalive now addr)) addr =
      some (if cs.due config now then { cs with lastKeepalive := now } else cs) ∧
    ∃ data, IsKeepalive data ∧ sentTo addr (serverStep self (.keepalive now addr)) =
      sentTo addr self ++ if cs.due config now then [data] else [] := by
  obtain ⟨found, hfound, hbare⟩ := lookup_of_view hview
  have hnext := serverStep_view h.tables.addressed (.keepalive now addr) addr
  rw [peerEvent, if_pos rfl, Option.elim, hview] at hnext
  simp only [peerStep, Option.map_some, h.configured] at hnext
  refine ⟨hnext, _, ⟨found.session.sid, rfl⟩, ?_⟩
  have hdue : (found.isReady && decide (now - found.lastKeepalive ≥ config.keepaliveInterval)) =
      cs.due config now := by
    rw [← hbare, ClientSession.due, isReady_bare]
    rfl
  have haddr : found.addr = addr := h.tables.addressed addr found hfound
  have htcp : self.config.isTcp = false := by rw [h.configured, h.udp]
  rw [serverStep]
  unfold sendKeepalive
  rw [Py.bind_run, Py.self_run]
  simp only [hfound, h.configured, hdue]
  split
  · simp only [sendTo, Coroutine.await, syncSendTo, Py.bind_run, Py.self_run, htcp, h.transport,
      if_true, emit, Py.assign_run, storeClient, sentTo, List.filterMap_append]
    simp only [haddr, Effect.sentTo, List.filterMap_cons, if_true, List.filterMap_nil]
  · exact (List.append_nil _).symm

theorem sweep_sent (now : Time) (self : VpnServer P) :
    sentTo addr (serverStep self (.cleanupStale now)) = sentTo addr self :=
  sentTo_of_sameLog (foldl_sameLog
    (fun server a => removeClient_sameLog (fun _ => rfl) (fun _ => rfl) a server) _ self)

theorem fragments_sent (now : Time) (self : VpnServer P) :
    sentTo addr (serverStep self (.cleanupFragments now)) = sentTo addr self := by
  obtain ⟨clients, hrun⟩ := cleanupAllFragments_frame now self
  rw [serverStep, hrun]
  rfl

theorem serverRound_run (now : Time) (self : VpnServer P) :
    let swept := serverStep self (.cleanupStale now)
    serverRound now self =
      serverStep (run serverStep (swept.clients.keys.map (.keepalive now)) swept)
        (.cleanupFragments now) :=
  congrArg (cleanupAllFragments now) (foldl_keepalive now _ _)

/-- What a round does to a peer that is not stale. -/
theorem known_round (h : OnUdp config self) (hview : peerView self addr = some cs) {now : Time}
    (hfresh : cs.isStale now config.keepaliveTimeout = false) :
    OnUdp config (serverRound now self) ∧
    peerView (serverRound now self) addr =
      some ((if cs.due config now then { cs with lastKeepalive := now } else cs).swept now) ∧
    ∃ data, IsKeepalive data ∧ sentTo addr (serverRound now self) =
      sentTo addr self ++ if cs.due config now then [data] else [] := by
  have hswept := h.step (.cleanupStale now)
  have hsweptView : peerView (serverStep self (.cleanupStale now)) addr = some cs := by
    have hnext := serverStep_view h.tables.addressed (.cleanupStale now) addr
    rw [peerEvent, Option.elim, hview, peerStep, h.configured] at hnext
    rw [hnext]
    simp [Option.filter, hfresh]
  -- of the keepalives one is the peer's own
  obtain ⟨found, hfound, -⟩ := lookup_of_view hsweptView
  have hmem : addr ∈ (serverStep self (.cleanupStale now)).clients.keys :=
    AList.mem_keys.mp (AList.lookup_isSome.mp (by rw [hfound]; rfl))
  obtain ⟨front, back, hkeys⟩ := List.append_of_mem hmem
  have hnodup := (serverStep self (.cleanupStale now)).clients.keys_nodup
  rw [hkeys] at hnodup
  obtain ⟨-, hback, hdisjoint⟩ := List.nodup_append.mp hnodup
  have hfront : addr ∉ front := fun hin => hdisjoint addr hin addr List.mem_cons_self rfl
  obtain ⟨hfirst, hfirstView, hfirstSent⟩ := others_keepalive hswept now hfront
  obtain ⟨hownView, data, hdata, hownSent⟩ :=
    own_keepalive hfirst (hfirstView.trans hsweptView) now
  obtain ⟨hlast, hlastView, hlastSent⟩ :=
    others_keepalive (hfirst.step (.keepalive now addr)) now (List.nodup_cons.mp hback).1
  have hround := serverRound_run now self
  simp only [hkeys, List.map_append, List.map_cons, run_append, run_cons] at hround
  have hendView := serverStep_view hlast.tables.addressed (.cleanupFragments now) addr
  rw [peerEvent, Option.elim, hlastView, hownView, peerStep, Option.map_some] at hendView
  rw [hround]
  refine ⟨hlast.step (.cleanupFragments now), hendView, data, hdata, ?_⟩
  rw [fragments_sent, hlastSent, hownSent, hfirstSent, sweep_sent]

theorem unknown_round (h : OnUdp config self) (hview : peerView self addr = none) (now : Time) :
    OnUdp config (serverRound now self) ∧ peerView (serverRound now self) addr = none ∧
      sentTo addr (serverRound now self) = sentTo addr self := by
  have hswept := h.step (.cleanupStale now)
  have hsweptView : peerView (serverStep self (.cleanupStale now)) addr = none := by
    have hnext := serverStep_view h.tables.addressed (.cleanupStale now) addr
    rw [peerEvent, Option.elim, hview, peerStep] at hnext
    exact hnext
  have hkeys : addr ∉ (serverStep self (.cleanupStale now)).clients.keys := by
    intro hmem
    have hsome := AList.lookup_isSome.mpr (AList.mem_keys.mpr hmem)
    rw [Option.map_eq_none_iff.mp hsweptView] at hsome
    cases hsome
  obtain ⟨hlast, hlastView, hlastSent⟩ := others_keepalive hswept now hkeys
  have hendView := serverStep_view hlast.tables.addressed (.cleanupFragments now) addr
  rw [peerEvent, Option.elim, hlastView, hsweptView, peerStep, Option.map_none] at hendView
  rw [serverRound_run]
  refine ⟨hlast.step (.cleanupFragments now), hendView, ?_⟩
  rw [fragments_sent, hlastSent, sweep_sent]

theorem fresh_of_recent (hready : cs.isReady = true) {now : Time}
    (hrecent : now - cs.lastSeen ≤ config.keepaliveTimeout) :
    cs.isStale now config.keepaliveTimeout = false := by
  have hestablished : cs.session.isEstablished = true := (Bool.and_eq_true_iff.mp hready).1
  rw [ClientSession.isStale, if_pos hestablished]
  exact decide_eq_false (not_lt.mpr hrecent)

end Server

section Text

theorem byteArray_toList (bs : ByteArray) : bs.toList = bs.data.toList := by
  have hloop (i : Nat) (r : List UInt8) :
      ByteArray.toList.loop bs i r = r.reverse ++ bs.data.toList.drop i := by
    fun_induction ByteArray.toList.loop bs i r with
    | case1 i r hi ih =>
      have hlt : i < bs.data.toList.length := hi
      have hget : bs.get! i = bs.data.toList[i] := getElem!_pos bs.data i hi
      rw [ih, List.drop_eq_getElem_cons hlt, List.reverse_cons, List.append_assoc, hget]
      rfl
    | case2 i r hi =>
      have hge : bs.data.toList.length ≤ i := Nat.le_of_not_lt hi
      rw [List.drop_eq_nil_of_le hge, List.append_nil]
  exact hloop 0 []

theorem decodeUtf8_encoded (text : String) : VpnClient.decodeUtf8 text.toUTF8.toList = .ok text := by
  unfold VpnClient.decodeUtf8
  have hvalid : String.fromUTF8? ⟨text.toUTF8.data⟩ = some text := dif_pos text.isValidUTF8
  rw [byteArray_toList, Array.toArray_toList]
  rw [hvalid]

theorem IsAssignment.ipAssigned {ip : String} {data : Bytes} (h : IsAssignment ip data) :
    ipAssigned data = some ip := by
  obtain ⟨sid, rfl⟩ := h
  have hcontrol : (encodePacket .control sid
      (MessageType.ipAssign.value :: ip.toUTF8.toList)).headD 0 = Opcode.control.value := rfl
  unfold PyVpn.ipAssigned
  rw [if_pos hcontrol, decodePacket_encodePacket]
  simp only [List.headD_cons, messageType_ofValue_value, List.drop_one, List.tail_cons,
    decodeUtf8_encoded]
  rfl

end Text

section Client
variable {life : Life P} {config : Config}

structure ClientOn (config : Config) (life : Life P) : Prop where
  looping : life.phase = .looping
  configured : life.client.config = config
  udp : config.isTcp = false
  running : life.client.running = true
  transport : life.client.transport = true

theorem lifeStep_datagram (hphase : life.phase = .looping) (faults : AssignFaults) (now : Time)
    (coins data : Bytes) : lifeStep life (.datagram faults now coins data) =
      { life with client := (VpnClient.handleUdpDataWith faults now coins data life.client).2 } := by
  unfold lifeStep
  rw [hphase]

theorem sent_sendto (client : VpnClient P) (wires : List Bytes) :
    VpnClient.sent { client with effects := client.effects ++ wires.map .sendto } =
      client.sent ++ wires := by
  have hwires : (wires.map ClientEffect.sendto).filterMap ClientEffect.sent = wires := by
    induction wires with
    | nil => rfl
    | cons wire wires ih => exact congrArg (wire :: ·) ih
  rw [VpnClient.sent, List.filterMap_append, hwires, VpnClient.sent]

theorem forM_syncSend (client : VpnClient P) (htcp : client.config.isTcp = false)
    (htransport : client.transport = true) (wires : List Bytes) :
    wires.forM VpnClient.syncSend client =
      (.ok (), { client with effects := client.effects ++ wires.map .sendto }) := by
  induction wires generalizing client with
  | nil =>
    rw [List.map_nil, List.append_nil]
    rfl
  | cons wire wires ih =>
    have hsend : VpnClient.syncSend wire client =
        (.ok (), { client with effects := client.effects ++ [.sendto wire] }) := by
      simp only [VpnClient.syncSend, Py.bind_run, Py.self_run, htcp, Bool.false_and,
        Bool.false_eq_true, if_false, htransport, if_true, VpnClient.emit, Py.assign_run]
    change (VpnClient.syncSend wire >>= fun _ => wires.forM VpnClient.syncSend) client = _
    rw [Py.bind_run, hsend]
    simp only
    rw [ih { client with effects := client.effects ++ [.sendto wire] } htcp htransport,
      List.append_assoc]
    rfl

def SameSent (self self' : VpnClient P) : Prop := self'.sent = self.sent

instance : IsPreorder (VpnClient P) SameSent where
  refl := fun _ => rfl
  trans := fun _ _ _ h k => k.trans h

theorem emit_sent {e : ClientEffect} (he : e.sent = none) :
    (VpnClient.emit (P := P) e).Keeps SameSent := by
  intro client
  simp [SameSent, VpnClient.sent, VpnClient.emit, he]

theorem handleIpAssignWith_sent (faults : AssignFaults) (ip : String) (client : VpnClient P) :
    (VpnClient.handleIpAssignWith faults ip client).2.sent = client.sent :=
  handleIpAssign_frame (R := SameSent) (fun _ => rfl) (fun _ => emit_sent rfl)
    (fun _ => emit_sent rfl) (fun _ _ => rfl) client

theorem loopBody_round {client : VpnClient P} {now : Time} (hstays : client.breaks now = false) :
    VpnClient.loopBody now client = (false, VpnClient.openDataChannel
      { client with data := client.data.map (cleanupFragments now) }) := by
  obtain ⟨data, hopened⟩ := openDataChannel_frame
    { client with data := client.data.map (cleanupFragments now) }
  unfold VpnClient.breaks at hstays
  unfold VpnClient.loopBody
  simp only [hopened]
  cases hdone : client.handshakeDone || client.session.isEstablished with
  | false => simp
  | true =>
    rw [hdone, Bool.true_and] at hstays
    simp [hstays]

theorem client_keepalive (h : ClientOn config life) (faults : AssignFaults) (now : Time)
    (coins : Bytes) {data : Bytes} (hdata : IsKeepalive data) :
    ∃ answer, IsKeepalive answer ∧ lifeStep life (.datagram faults now coins data) =
      { life with client := { life.client with
        lastSeen := now, effects := life.client.effects ++ [answer].map .sendto } } := by
  obtain ⟨hne, hreset, hack⟩ := opcode_cases (.inl hdata.opcode)
  obtain ⟨sid, hdecoded⟩ := hdata.decoded
  have htcp : life.client.config.isTcp = false := by rw [h.configured, h.udp]
  refine ⟨_, ⟨life.client.session.sid, rfl⟩, ?_⟩
  rw [lifeStep_datagram h.looping]
  unfold VpnClient.handleUdpDataWith VpnClient.handleUdpData
  rw [hdata.ipAssigned]
  simp only [if_neg hne, if_neg hack, if_pos hdata.opcode, Py.bind_run, Py.assign_run]
  have htype : MessageType.ofValue MessageType.keepalive.value = .ok .keepalive := rfl
  unfold VpnClient.handleControl
  simp only [hdecoded, List.length_singleton, Nat.lt_irrefl, if_false, List.headD_cons, htype,
    Py.bind_run, Py.ofExcept_run, Py.self_run, VpnClient.syncSend, htcp, Bool.false_and,
    Bool.false_eq_true, h.transport, if_true, VpnClient.emit, Py.assign_run, List.map_cons,
    List.map_nil]

/-- An address is taken, whatever the system refuses. -/
theorem client_assigned (h : ClientOn config life) (faults : AssignFaults) (now : Time)
    (coins : Bytes) {ip : String} {data : Bytes} (hdata : IsAssignment ip data) :
    ∃ effects routes, lifeStep life (.datagram faults now coins data) =
      { life with client := { life.client with
        lastSeen := now, assignedIp := some ip, connected := true, effects := effects
        routesAdded := routes } } ∧
      effects.filterMap ClientEffect.sent = life.client.sent := by
  have hrun : VpnClient.handleUdpDataWith faults now coins data life.client =
      VpnClient.handleIpAssignWith faults ip { life.client with lastSeen := now } := by
    unfold VpnClient.handleUdpDataWith
    rw [hdata.ipAssigned]
    rfl
  have hsent := handleIpAssignWith_sent faults ip { life.client with lastSeen := now }
  rw [lifeStep_datagram h.looping, hrun]
  have hassigns := handleIpAssignWith_assigns faults ip { life.client with lastSeen := now }
  generalize VpnClient.handleIpAssignWith faults ip { life.client with lastSeen := now } = out
    at hassigns hsent
  cases hassigns with
  | refused hrefused => exact ⟨life.client.effects, life.client.routesAdded, rfl, hsent⟩
  | failed e hstarts hfails => exact ⟨_, life.client.routesAdded, rfl, hsent⟩
  | routed result more routes hstarts hset hroute hdrop => exact ⟨_, _, rfl, hsent⟩

theorem client_round (h : ClientOn config life) {now : Time}
    (hstays : life.client.breaks now = false) :
    lifeStep life (.round now) = { life with
      client := VpnClient.openDataChannel
        { life.client with data := life.client.data.map (cleanupFragments now) } } := by
  have hbody := loopBody_round hstays
  rw [lifeStep_round h.looping]
  simp only [Life.round, if_pos h.running, hbody, Bool.false_eq_true, if_false]

theorem client_tun (h : ClientOn config life) (nonces : Nat → Nonce) (packet : Bytes) :
    ∃ (data : Option DataChannel) (wires : List Bytes), data.isSome = life.client.data.isSome ∧
      (∀ wire ∈ wires, wire.headD 0 = Opcode.data.value) ∧
      (truthy life.client.assignedIp = false → wires = []) ∧
      lifeStep life (.tunReadable nonces packet) = { life with client := { life.client with
        data := data, effects := life.client.effects ++ wires.map .sendto } } := by
  have hstep : lifeStep life (.tunReadable nonces packet) =
      { life with client := (VpnClient.onTunReadable nonces packet life.client).2 } := by
    unfold lifeStep
    rw [h.looping]
  have htcp : life.client.config.isTcp = false := by rw [h.configured, h.udp]
  have hidle (hrun : VpnClient.onTunReadable nonces packet life.client = (.ok (), life.client)) :
      lifeStep life (.tunReadable nonces packet) = { life with client := { life.client with
        data := life.client.data
        effects := life.client.effects ++ ([] : List Bytes).map .sendto } } := by
    rw [hstep, hrun, List.map_nil, List.append_nil]
  cases hch : life.client.data with
  | none =>
    refine ⟨none, [], rfl, (fun _ hw => nomatch hw), (fun _ => rfl), hch ▸ hidle ?_⟩
    simp [VpnClient.onTunReadable, hch]
  | some ch =>
    by_cases hquiet : (!life.client.handshakeDone || !truthy life.client.assignedIp ||
        packet = []) = true
    · refine ⟨some ch, [], rfl, (fun _ hw => nomatch hw), (fun _ => rfl), hch ▸ hidle ?_⟩
      unfold VpnClient.onTunReadable
      rw [Py.bind_run]
      simp only [Py.self_run, hch]
      exact congrFun (if_pos hquiet) life.client
    · have hassigned : truthy life.client.assignedIp ≠ false := by
        intro hnot
        rw [hnot, Bool.not_false, Bool.or_true, Bool.true_or] at hquiet
        exact hquiet rfl
      have hrun : VpnClient.onTunReadable nonces packet life.client =
          (do
            let wires ← Py.ofExcept (encrypt P nonces packet ch).1
            wires.forM VpnClient.syncSend : Py (VpnClient P) Unit)
              { life.client with data := some (encrypt P nonces packet ch).2 } := by
        unfold VpnClient.onTunReadable
        rw [Py.bind_run]
        simp only [Py.self_run, hch]
        exact congrFun (if_neg hquiet) life.client
      cases hwires : (encrypt P nonces packet ch).1 with
      | error e =>
        refine ⟨some (encrypt P nonces packet ch).2, [], rfl, (fun _ hw => nomatch hw),
          (fun _ => rfl), ?_⟩
        rw [hstep, hrun, hwires, List.map_nil, List.append_nil]
        rfl
      | ok wires =>
        refine ⟨some (encrypt P nonces packet ch).2, wires, rfl, ?_, (fun hnot => absurd hnot hassigned),
          ?_⟩
        · obtain ⟨c, -, rfl⟩ := encrypt_eq_ok hwires
          intro wire hwire
          obtain ⟨i, -, rfl⟩ := List.mem_map.mp hwire
          rfl
        · have hsend := forM_syncSend { life.client with data := some (encrypt P nonces packet ch).2 }
            htcp h.transport wires
          rw [hstep, hrun, hwires, Py.bind_run]
          exact congrArg (fun result => { life with client := result.2 }) hsend

end Client
end PyVpn
