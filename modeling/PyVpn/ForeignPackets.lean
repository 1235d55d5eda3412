import PyVpn.Malformed

/-! Packets of another session. The id in a packet's header is decoded and thrown away;
what ties a data packet to its session is the key and the id in the associated data. -/
namespace PyVpn
open EventRun
variable {P : Primitives}

/-- The channel and both endpoints do the same with one packet as with the other. -/
structure HandledAlike (P : Primitives) (data data' : Bytes) : Prop where
  channel : ∀ now ch, decrypt P now data ch = decrypt P now data' ch
  server : ∀ draw addr (server : VpnServer P),
    handleUdpData draw data addr server = handleUdpData draw data' addr server
  client : ∀ now coins (client : VpnClient P),
    VpnClient.handleUdpData now coins data client = VpnClient.handleUdpData now coins data' client

/-- A data packet not sealed under the key and the id of this channel, if there is one. -/
def ForeignData (P : Primitives) (channel : Option DataChannel) (data : Bytes) : Prop :=
  data.headD 0 = Opcode.data.value ∧ ∀ ch, channel = some ch → Forged P ch data

def channelAt (server : VpnServer P) (addr : Addr) : Option DataChannel :=
  (server.clients.lookup addr).bind ClientSession.data

/-- No session, no channel but for its window, and nothing else on the server has changed;
a client was heard at most. -/
structure ServerUntouched (server after : VpnServer P) : Prop where
  entries : ∀ addr, ∃ now window, after.clients.lookup addr =
    (server.clients.lookup addr).map fun cs => { cs with
      lastSeen := now
      data := cs.data.map fun ch => { ch with replay := window } }
  rest : after = { server with clients := after.clients }

def ClientEffect.delivers : ClientEffect → Bool
  | .tunWrite _ => true
  | _ => false

/-- Session and channel, but for its window, are the same, and the TUN got nothing. -/
structure ClientUntouched (client after : VpnClient P) : Prop where
  session : after.session = client.session
  data : ∃ window, after.data = client.data.map fun ch => { ch with replay := window }
  tun : after.effects.filter ClientEffect.delivers = client.effects.filter ClientEffect.delivers

section Header
variable {wire wire' : Bytes}

theorem dataPayload_encodePacket (op : Opcode) (sid sid' : UInt64) (payload : Bytes) :
    dataPayload (encodePacket op sid payload) = dataPayload (encodePacket op sid' payload) := by
  simp only [dataPayload, decodePacket_encodePacket]

theorem decrypt_congr (h : dataPayload wire = dataPayload wire') (now : Time)
    (ch : DataChannel) : decrypt P now wire ch = decrypt P now wire' ch := by
  rw [decrypt_run, decrypt_run, authenticate_run, authenticate_run, h]

/-- No session id in the header of a control or data packet makes a difference. -/
theorem header_id_unused {op : Opcode} (hop : op = .control ∨ op = .data) (sid sid' : UInt64)
    (payload : Bytes) :
    HandledAlike P (encodePacket op sid payload) (encodePacket op sid' payload) := by
  have hhead (sid : UInt64) : (encodePacket op sid payload).headD 0 = op.value := rfl
  have hopcode (sid : UInt64) : ¬ (encodePacket op sid payload).length < 1 ∧
      op.value ≠ Opcode.hardResetClient.value ∧ op.value ≠ Opcode.hardResetServer.value :=
    opcode_cases (hop.imp (congrArg Opcode.value) (congrArg Opcode.value))
  have hlength (sid : UInt64) := (hopcode sid).1
  obtain ⟨-, hreset, hack⟩ := hopcode sid
  have hdecrypt (now : Time) (ch : DataChannel) :=
    decrypt_congr (P := P) (dataPayload_encodePacket op sid sid' payload) now ch
  constructor
  · exact hdecrypt
  · intro draw addr server
    have hcontrol (cs : ClientSession P) : handleControl draw.coins cs (encodePacket op sid payload) =
        handleControl draw.coins cs (encodePacket op sid' payload) := by
      unfold handleControl
      simp only [decodePacket_encodePacket]
    have hdata (cs : ClientSession P) : handleData draw.now cs (encodePacket op sid payload) =
        handleData draw.now cs (encodePacket op sid' payload) := by
      unfold handleData
      rw [show decrypt P draw.now (encodePacket op sid payload) =
        decrypt P draw.now (encodePacket op sid' payload) from funext (hdecrypt draw.now)]
    unfold handleUdpData
    simp only [if_neg (hlength _), hhead, if_neg hreset, hcontrol, hdata]
  · intro now coins client
    have hcontrol : VpnClient.handleControl (P := P) coins (encodePacket op sid payload) =
        VpnClient.handleControl coins (encodePacket op sid' payload) := by
      unfold VpnClient.handleControl
      simp only [decodePacket_encodePacket]
    have hdata : VpnClient.handleData (P := P) now (encodePacket op sid payload) =
        VpnClient.handleData now (encodePacket op sid' payload) := by
      unfold VpnClient.handleData
      rw [show decrypt P now (encodePacket op sid payload) =
        decrypt P now (encodePacket op sid' payload) from funext (hdecrypt now)]
    unfold VpnClient.handleUdpData
    simp only [if_neg (hlength _), hhead, if_neg hack, hcontrol, hdata]

end Header

theorem keep_window (channel : Option DataChannel) :
    ∃ window, channel = channel.map fun ch => { ch with replay := window } := by
  cases channel with
  | none => exact ⟨ReplayWindow.new defaultReplayWindow, rfl⟩
  | some ch => exact ⟨ch.replay, rfl⟩

section Server
variable {server : VpnServer P} {addr : Addr} {cs : ClientSession P} {draw : Draw P} {data : Bytes}

theorem entry_untouched (entry : Option (ClientSession P)) :
    ∃ now window, entry = entry.map fun cs => { cs with
      lastSeen := now
      data := cs.data.map fun ch => { ch with replay := window } } := by
  cases entry with
  | none => exact ⟨0, ReplayWindow.new defaultReplayWindow, rfl⟩
  | some cs =>
    obtain ⟨window, hwindow⟩ := keep_window cs.data
    refine ⟨cs.lastSeen, window, ?_⟩
    rw [Option.map_some, ← hwindow]

theorem ServerUntouched.self : ServerUntouched server server :=
  ⟨fun _ => entry_untouched _, rfl⟩

theorem ServerUntouched.stored (hcs : server.clients.lookup cs.addr = some cs) (now : Time)
    (window : ReplayWindow) :
    ServerUntouched server { server with
      clients := server.clients.insert cs.addr { cs with
        lastSeen := now
        data := cs.data.map fun ch => { ch with replay := window } } } where
  entries := by
    intro addr
    by_cases haddr : addr = cs.addr
    · subst haddr
      refine ⟨now, window, ?_⟩
      rw [hcs, AList.lookup_insert, Option.map_some]
    · simp only [AList.lookup_insert_ne haddr]
      exact entry_untouched _
  rest := rfl

theorem ServerUntouched.seen (hcs : server.clients.lookup cs.addr = some cs) (now : Time) :
    ServerUntouched server { server with
      clients := server.clients.insert cs.addr (cs.seen now) } := by
  obtain ⟨window, hwindow⟩ := keep_window cs.data
  have hstored := ServerUntouched.stored hcs now window
  rwa [← hwindow] at hstored

theorem serverUntouched_data (ideal : IdealAead P)
    (hcs : server.clients.lookup cs.addr = some cs)
    (hforeign : ∀ ch, cs.data = some ch → Forged P ch data) :
    ServerUntouched server (handleData draw.now (cs.seen draw.now) data
      { server with clients := server.clients.insert cs.addr (cs.seen draw.now) }).2 := by
  have hseen := ServerUntouched.seen hcs draw.now
  unfold handleData
  cases hdata : (cs.seen draw.now).data with
  | none => exact hseen
  | some ch =>
    have hch : cs.data = some ch := hdata
    by_cases hready : (cs.seen draw.now).isReady = true
    · have haddr : (cs.seen draw.now).addr = cs.addr := rfl
      simp only [if_pos hready, Py.bind_run, onChannel, decrypt_forged ideal (hforeign ch hch),
        storeClient, Py.assign_run, Py.ofExcept_run, haddr, AList.insert_insert, truthyBytes,
        Option.any_none]
      have hstored := ServerUntouched.stored hcs draw.now (windowAfter ch data)
      rwa [hch] at hstored
    · simp only [if_neg hready]
      exact hseen

/-- Foreign data and control packets without a handshake message leave the server as it is. -/
theorem serverUntouched (ideal : IdealAead P) (haddr : Addressed server)
    (h : ForeignData P (channelAt server addr) data ∨
      data.headD 0 = Opcode.control.value ∧ controlCall draw.coins data = none) :
    ServerUntouched server (handleUdpData draw data addr server).2 := by
  have hopcode : data.headD 0 = Opcode.control.value ∨ data.headD 0 = Opcode.data.value := by
    cases h with
    | inl hdata => exact .inr hdata.1
    | inr hcontrol => exact .inl hcontrol.1
  obtain ⟨hne, hreset, hack⟩ := opcode_cases hopcode
  cases hcs : server.clients.lookup addr with
  | none =>
    rw [handleUdpData_unknown hcs hreset]
    exact .self
  | some cs =>
    obtain rfl := haddr addr cs hcs
    rw [handleUdpData_known hcs hne hreset hack]
    cases h with
    | inl hdata =>
      have hcontrol : data.headD 0 ≠ Opcode.control.value := by
        rw [hdata.1]
        decide
      rw [if_neg hcontrol, if_pos hdata.1]
      refine serverUntouched_data ideal hcs ?_
      intro ch hch
      apply hdata.2 ch
      rw [channelAt, hcs, Option.bind_some, hch]
    | inr hcontrol =>
      rw [if_pos hcontrol.1]
      obtain hsame | ⟨call, -, hcall, -⟩ := handleControl_cases draw.coins (cs.seen draw.now) data
        { server with clients := server.clients.insert cs.addr (cs.seen draw.now) }
      · rw [hsame]
        exact .seen hcs draw.now
      · rw [hcontrol.2] at hcall
        cases hcall

end Server

section Client
variable {client : VpnClient P} {now : Time} {coins data : Bytes}

def SameDeliveries (client after : VpnClient P) : Prop :=
  after.effects.filter ClientEffect.delivers = client.effects.filter ClientEffect.delivers

instance : IsPreorder (VpnClient P) SameDeliveries where
  refl := fun _ => rfl
  trans := fun _ _ _ h k => Eq.trans k h

theorem emit_sameDeliveries {e : ClientEffect} (h : e.delivers = false) :
    (VpnClient.emit (P := P) e).Keeps SameDeliveries := by
  intro client
  simp only [SameDeliveries, VpnClient.emit, Py.assign_run, List.filter_append, List.filter_cons,
    h, List.filter_nil, List.append_nil, Bool.false_eq_true, if_false]

theorem syncSend_sameDeliveries (data : Bytes) :
    (VpnClient.syncSend (P := P) data).Keeps SameDeliveries :=
  syncSend_frame (fun _ => emit_sameDeliveries rfl) (fun _ => emit_sameDeliveries rfl) data

theorem callHandler_sameDeliveries (handler : Py (Session P) (List Bytes)) :
    (VpnClient.callHandler handler).Keeps SameDeliveries :=
  callHandler_frame (fun _ _ => rfl) syncSend_sameDeliveries handler

theorem handleIpAssign_sameDeliveries (ip : String) :
    (VpnClient.handleIpAssign (P := P) ip).Keeps SameDeliveries :=
  handleIpAssign_frame (fun _ => rfl) (fun _ => emit_sameDeliveries rfl)
    (fun _ => emit_sameDeliveries rfl) (fun _ _ => rfl)

theorem handleControl_sameDeliveries (coins data : Bytes) :
    (VpnClient.handleControl (P := P) coins data).Keeps SameDeliveries :=
  handleControl_frame callHandler_sameDeliveries handleIpAssign_sameDeliveries
    syncSend_sameDeliveries coins data

theorem clientUntouched_data (ideal : IdealAead P) (h : ForeignData P client.data data) :
    ClientUntouched client (VpnClient.handleUdpData now coins data client).2 := by
  obtain ⟨hopcode, hforged⟩ := h
  obtain ⟨hne, -⟩ := opcode_cases (.inr hopcode)
  unfold VpnClient.handleUdpData
  simp only [if_neg hne, Py.bind_run, Py.assign_run, hopcode]
  rw [if_neg (by decide), if_neg (by decide), if_pos trivial, VpnClient.handleData, Py.bind_run]
  simp only [Py.self_run]
  cases hch : client.data with
  | none => exact ⟨rfl, ⟨ReplayWindow.new defaultReplayWindow, by rw [hch]; rfl⟩, rfl⟩
  | some ch =>
    simp only [Py.bind_run, Py.assign_run, decrypt_forged ideal (hforged ch hch), Py.ofExcept_run]
    exact ⟨rfl, ⟨windowAfter ch data, by rw [hch]; rfl⟩, rfl⟩

theorem clientUntouched_control (hopcode : data.headD 0 = Opcode.control.value)
    (hcall : clientCallOf coins data = none) :
    ClientUntouched client (VpnClient.handleUdpData now coins data client).2 := by
  have hstep : TunnelStep now coins data client.session client.data
      (VpnClient.handleUdpData now coins data client).2.session
      (VpnClient.handleUdpData now coins data client).2.data :=
    clientDatagram_step now coins data client
  have htun : SameDeliveries client (VpnClient.handleUdpData now coins data client).2 := by
    obtain ⟨hne, -⟩ := opcode_cases (.inl hopcode)
    unfold VpnClient.handleUdpData
    simp only [if_neg hne, Py.bind_run, Py.assign_run, hopcode]
    rw [if_neg (by decide), if_pos trivial]
    exact handleControl_sameDeliveries coins data { client with lastSeen := now }
  generalize hafter : (VpnClient.handleUdpData now coins data client).2 = after at hstep htun ⊢
  generalize hsession : after.session = session at hstep
  generalize hchannel : after.data = channel at hstep
  refine ⟨?_, ?_, htun⟩
  · rw [hsession]
    cases hstep with
    | kept => rfl
    | called call h =>
      rw [hcall] at h
      cases h
    | received ch hdata => rfl
  · rw [hchannel]
    cases hstep with
    | kept => exact keep_window _
    | called call h => exact keep_window _
    | received ch hdata =>
      rw [hopcode] at hdata
      exact absurd hdata (by decide)

end Client

/-- No header id of a control or data packet is looked at. Data not sealed for the
session, and control packets without a handshake message for the endpoint, leave every
session, every channel but for its window, and the TUN as they are. -/
theorem foreign_packets_ignored (ideal : IdealAead P) :
    (∀ op, op = .control ∨ op = .data → ∀ (sid sid' : UInt64) payload,
      HandledAlike P (encodePacket op sid payload) (encodePacket op sid' payload)) ∧
    (∀ ch wire, Forged P ch wire → ∀ now, (decrypt P now wire ch).1 = .ok none ∧
      (decrypt P now wire ch).2.fragments = ch.fragments) ∧
    (∀ server : VpnServer P, ServerReachable server → ∀ draw data addr,
      (ForeignData P (channelAt server addr) data ∨
        data.headD 0 = Opcode.control.value ∧ controlCall draw.coins data = none) →
      ServerUntouched server (handleUdpData draw data addr server).2) ∧
    (∀ client : VpnClient P, ClientReachable client → ∀ now coins data,
      (ForeignData P client.data data ∨
        data.headD 0 = Opcode.control.value ∧ clientCallOf coins data = none) →
      ClientUntouched client (VpnClient.handleUdpData now coins data client).2) := by
  refine ⟨fun op hop => header_id_unused hop, ?_, ?_, ?_⟩
  · intro ch wire hforged now
    rw [decrypt_forged ideal hforged now]
    exact ⟨rfl, rfl⟩
  · intro server hserver draw data addr h
    exact serverUntouched ideal hserver.tables.addressed h
  · intro client _ now coins data h
    cases h with
    | inl hdata => exact clientUntouched_data ideal hdata
    | inr hcontrol => exact clientUntouched_control hcontrol.1 hcontrol.2

namespace Transparent

def relabelled : Bytes := encodePacket .data 99 (firstWire.drop headerSize)

/-- A keepalive under id 1 and a forged wire leave endpoints in the middle of a session alone. -/
theorem foreign_packets_ignored_keepalive :
    HandledAlike primitives relabelled firstWire ∧
    ((decrypt primitives 0 (zeroWire 3) receiver).1 = .ok none ∧
      (decrypt primitives 0 (zeroWire 3) receiver).2.fragments = receiver.fragments) ∧
    ServerUntouched served (handleUdpData ⟨draw 5, []⟩ (keepalivePacket 1) peer served).2 ∧
    ClientUntouched authConnected
      (VpnClient.handleUdpData 1 [] (keepalivePacket 1) authConnected).2 := by
  obtain ⟨halike, hdecrypt, hserver, hclient⟩ := foreign_packets_ignored ideal
  have hforged : Forged primitives receiver (zeroWire 3) := forged_of_rejected ideal (by decide)
  exact ⟨halike .data (.inr rfl) 99 _ _, hdecrypt receiver (zeroWire 3) hforged 0,
    hserver served served_reachable _ _ peer (.inr ⟨rfl, by decide⟩),
    hclient authConnected authConnected_reachable 1 [] _ (.inr ⟨rfl, by decide⟩)⟩

/-- It opens all the same, and a `CLIENT_FINISHED` under the id of a third party completes
the handshake of the client with id 7. -/
theorem relabelled_accepted :
    (decodePacket firstWire).map (fun packet => packet.2.1) ≠
        (decodePacket relabelled).map (fun packet => packet.2.1) ∧
      (decrypt primitives 0 relabelled receiver).1 = .ok (some [0x45]) ∧
      ((run serverStep ((handshake 7).dropLast ++
        [.datagram ⟨draw 5, []⟩ (finishedPacket [0, 0] 1) peer]) started).clients.lookup peer).map
          (fun cs => (cs.session.peerSessionId, cs.session.isEstablished)) =
            some (some (sidOf 7), true) := by
  decide +kernel

end Transparent
end PyVpn
