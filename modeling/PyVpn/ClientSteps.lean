import PyVpn.Client
import PyVpn.SessionRun

/-! What each client callback can do to the session and the data channel. -/
namespace PyVpn
variable {P : Primitives}

section Frames
variable {R : VpnClient P → VpnClient P → Prop} [IsPreorder (VpnClient P) R]

theorem syncSend_frame (hsendto : ∀ data, (VpnClient.emit (.sendto data)).Keeps R)
    (hwrite : ∀ data, (VpnClient.emit (.writerWrite data)).Keeps R) (data : Bytes) :
    (VpnClient.syncSend data).Keeps R :=
  Py.Keeps.self fun _ => Py.Keeps.ite
    ((Py.Keeps.ofExcept _).bind fun _ => hwrite _)
    (Py.Keeps.ite (hsendto _) (Py.Keeps.pure ()))

theorem callHandler_frame
    (hstore : ∀ s, (Py.assign fun self : VpnClient P => { self with session := s }).Keeps R)
    (hsend : ∀ data, (VpnClient.syncSend data).Keeps R)
    (handler : Py (Session P) (List Bytes)) : (VpnClient.callHandler handler).Keeps R :=
  Py.Keeps.self fun _ => (hstore _).bind fun _ => (Py.Keeps.ofExcept _).bind fun packets =>
    Py.Keeps.forM hsend packets

theorem handleData_frame
    (hstore : ∀ ch, (Py.assign fun self : VpnClient P => { self with data := some ch }).Keeps R)
    (htun : ∀ packet, (VpnClient.emit (.tunWrite packet)).Keeps R) (now : Time) (data : Bytes) :
    (VpnClient.handleData now data).Keeps R := by
  refine Py.Keeps.self fun client => ?_
  cases client.data with
  | none => exact Py.Keeps.pure ()
  | some ch =>
    exact (hstore _).bind fun _ => (Py.Keeps.ofExcept _).bind fun _ =>
      Py.Keeps.ite (htun _) (Py.Keeps.pure ())

theorem onTunReadable_frame
    (hstore : ∀ ch, (Py.assign fun self : VpnClient P => { self with data := some ch }).Keeps R)
    (hsend : ∀ data, (VpnClient.syncSend data).Keeps R) (nonces : Nat → Nonce)
    (packet : Bytes) : (VpnClient.onTunReadable nonces packet).Keeps R := by
  refine Py.Keeps.self fun client => ?_
  cases client.data with
  | none => exact Py.Keeps.pure ()
  | some ch =>
    exact Py.Keeps.ite (Py.Keeps.pure ()) ((hstore _).bind fun _ => (Py.Keeps.ofExcept _).bind
      fun wires => Py.Keeps.forM hsend wires)

theorem handleIpAssign_frame {faults : AssignFaults} {ipStr : String}
    (hassign : (Py.assign fun self : VpnClient P => { self with
      assignedIp := some ipStr, connected := true }).Keeps R)
    (hset : ∀ cidr, (VpnClient.emit (.tunSetIp cidr)).Keeps R)
    (hcommand : ∀ args, (VpnClient.emit (.command args)).Keeps R)
    (hroutes : ∀ cmd, (Py.assign fun self : VpnClient P => { self with
      routesAdded := self.routesAdded ++ [cmd] }).Keeps R) :
    (VpnClient.handleIpAssignWith faults ipStr).Keeps R := by
  have haddress (cidr : String) : (VpnClient.setIp faults cidr).Keeps R :=
    Py.Keeps.self fun _ => Py.Keeps.ite ((hset _).bind fun _ => Py.Keeps.raiseFault _)
      (Py.Keeps.raise _)
  have hroute (cmd : List String) : (VpnClient.addRoute cmd).Keeps R :=
    (Py.Keeps.ite (hcommand _) (Py.Keeps.raise _)).bind fun _ => hroutes cmd
  have hdrop (username : Option String) : (VpnClient.maybeDropPrivileges faults username).Keeps R :=
    Py.Keeps.ite (Py.Keeps.pure ()) (Py.Keeps.raiseFault _)
  exact hassign.bind fun _ => Py.Keeps.self fun _ => (haddress _).bind fun _ =>
    (hroute _).bind fun _ => Py.Keeps.ite ((hroute _).bind fun _ => hdrop _)
      (hdrop _)

theorem handleControl_frame (hhandler : ∀ handler, (VpnClient.callHandler handler).Keeps R)
    (hassign : ∀ ip, (VpnClient.handleIpAssign ip).Keeps R)
    (hsend : ∀ data, (VpnClient.syncSend data).Keeps R) (coins data : Bytes) :
    (VpnClient.handleControl coins data).Keeps R := by
  unfold VpnClient.handleControl
  cases decodePacket data with
  | error e => exact Py.Keeps.pure ()
  | ok packet =>
    obtain ⟨op, sid, payload⟩ := packet
    refine Py.Keeps.ite (Py.Keeps.pure ()) ((Py.Keeps.ofExcept _).bind fun msgType => ?_)
    cases msgType with
    | serverHello => exact hhandler _
    | ipAssign => exact (Py.Keeps.ofExcept _).bind hassign
    | keepalive => exact Py.Keeps.self fun _ => hsend _
    | clientHello => exact Py.Keeps.pure ()
    | clientFinished => exact Py.Keeps.pure ()
    | shutdown => exact Py.Keeps.pure ()

end Frames

def SameTunnel (self self' : VpnClient P) : Prop :=
  self'.session = self.session ∧ self'.data = self.data

instance : IsPreorder (VpnClient P) SameTunnel where
  refl := fun _ => ⟨rfl, rfl⟩
  trans := fun _ _ _ h k => ⟨k.1.trans h.1, k.2.trans h.2⟩

abbrev KeepsTunnel {α : Type} (method : Py (VpnClient P) α) : Prop := method.Keeps SameTunnel

theorem emit_keeps (e : ClientEffect) : KeepsTunnel (P := P) (VpnClient.emit e) :=
  fun _ => ⟨rfl, rfl⟩

theorem syncSend_keeps (data : Bytes) : KeepsTunnel (P := P) (VpnClient.syncSend data) :=
  syncSend_frame (fun _ => emit_keeps _) (fun _ => emit_keeps _) data

theorem handleIpAssign_keeps (ipStr : String) :
    KeepsTunnel (P := P) (VpnClient.handleIpAssign ipStr) :=
  handleIpAssign_frame (fun _ => ⟨rfl, rfl⟩) (fun _ => emit_keeps _) (fun _ => emit_keeps _)
    (fun _ _ => ⟨rfl, rfl⟩)

theorem VpnClient.callHandler_run (handler : Py (Session P) (List Bytes)) (self : VpnClient P) :
    (callHandler handler self).2.session = (handler self.session).2 ∧
      (callHandler handler self).2.data = self.data :=
  ((Py.Keeps.ofExcept (handler self.session).1).bind fun packets =>
    Py.Keeps.forM syncSend_keeps packets : KeepsTunnel _)
      { self with session := (handler self.session).2 }

/-- The handler call a datagram asks the client for. -/
def clientCallOf (coins data : Bytes) : Option ClientCall :=
  if data.headD 0 = Opcode.hardResetServer.value then some (.resetAck data)
  else if data.headD 0 = Opcode.control.value then
    match decodePacket data with
    | .error _ => none
    | .ok (_, _, payload) =>
      match MessageType.ofValue (payload.headD 0) with
      | .ok .serverHello => some (.serverHello coins (payload.drop 1))
      | _ => none
  else none

inductive TunnelStep (now : Time) (coins data : Bytes) (s : Session P)
    (channel : Option DataChannel) : Session P → Option DataChannel → Prop
  | kept : TunnelStep now coins data s channel s channel
  | called (call : ClientCall) (hcall : clientCallOf coins data = some call) :
      TunnelStep now coins data s channel (clientCall s call) channel
  | received (ch : DataChannel) (hopcode : data.headD 0 = Opcode.data.value)
      (hdata : channel = some ch) :
      TunnelStep now coins data s channel s (some (decrypt P now data ch).2)

theorem TunnelStep.of_keeps {α : Type} {method : Py (VpnClient P) α} (h : KeepsTunnel method)
    (now : Time) (coins data : Bytes) (self : VpnClient P) :
    TunnelStep now coins data self.session self.data (method self).2.session
      (method self).2.data := by
  obtain ⟨hsession, hdata⟩ := h self
  rw [hsession, hdata]
  exact .kept

theorem TunnelStep.of_call {handler : Py (Session P) (List Bytes)} {call : ClientCall}
    {now : Time} {coins data : Bytes} (self : VpnClient P)
    (hhandler : (handler self.session).2 = clientCall self.session call)
    (hcall : clientCallOf coins data = some call) :
    TunnelStep now coins data self.session self.data
      (VpnClient.callHandler handler self).2.session
      (VpnClient.callHandler handler self).2.data := by
  obtain ⟨hsession, hdata⟩ := VpnClient.callHandler_run handler self
  rw [hsession, hdata, hhandler]
  exact .called call hcall

theorem clientControl_step (now : Time) (coins data : Bytes) (self : VpnClient P)
    (hreset : data.headD 0 ≠ Opcode.hardResetServer.value)
    (hcontrol : data.headD 0 = Opcode.control.value) :
    TunnelStep now coins data self.session self.data
      (VpnClient.handleControl coins data self).2.session
      (VpnClient.handleControl coins data self).2.data := by
  unfold VpnClient.handleControl
  cases hdecode : decodePacket data with
  | error e => exact .kept
  | ok r =>
    obtain ⟨opcode, sid, payload⟩ := r
    by_cases hlen : payload.length < 1
    · simp only [if_pos hlen]
      exact .kept
    · simp only [if_neg hlen, Py.bind_run, Py.ofExcept_run]
      cases hmsg : MessageType.ofValue (payload.headD 0) with
      | error e => exact .kept
      | ok msgType =>
        cases msgType with
        | serverHello =>
          have hcall : clientCallOf coins data = some (.serverHello coins (payload.drop 1)) := by
            rw [clientCallOf, if_neg hreset, if_pos hcontrol, hdecode]
            simp only [hmsg]
          exact .of_call self rfl hcall
        | ipAssign =>
          exact .of_keeps ((Py.Keeps.ofExcept (VpnClient.decodeUtf8 _)).bind handleIpAssign_keeps)
            now coins data self
        | keepalive => exact .of_keeps (syncSend_keeps _) now coins data self
        | clientHello => exact .kept
        | clientFinished => exact .kept
        | shutdown => exact .kept

theorem clientData_step (now : Time) (coins data : Bytes) (self : VpnClient P)
    (hopcode : data.headD 0 = Opcode.data.value) :
    TunnelStep now coins data self.session self.data
      (VpnClient.handleData now data self).2.session
      (VpnClient.handleData now data self).2.data := by
  cases hdata : self.data with
  | none =>
    have hrun : VpnClient.handleData now data self = (.ok (), self) := by
      simp [VpnClient.handleData, hdata]
    rw [hrun, hdata]
    exact .kept
  | some ch =>
    have hrest : KeepsTunnel (P := P) (do
        let plain ← Py.ofExcept (decrypt P now data ch).1
        if truthyBytes plain then VpnClient.emit (.tunWrite (orEmpty plain)) else return ()) :=
      (Py.Keeps.ofExcept _).bind fun _ =>
        Py.Keeps.ite (emit_keeps _) (Py.Keeps.pure ())
    have hrun : (VpnClient.handleData now data self).2.session = self.session ∧
        (VpnClient.handleData now data self).2.data = some (decrypt P now data ch).2 := by
      unfold VpnClient.handleData
      rw [Py.bind_run]
      simp only [Py.self_run, hdata]
      exact hrest { self with data := some (decrypt P now data ch).2 }
    rw [hrun.1, hrun.2]
    exact .received ch hopcode rfl

theorem clientDatagram_step (now : Time) (coins data : Bytes) (self : VpnClient P) :
    TunnelStep now coins data self.session self.data
      (clientStep self (.datagram now coins data)).session
      (clientStep self (.datagram now coins data)).data := by
  unfold clientStep VpnClient.handleUdpData
  by_cases hlen : data.length < 1
  · simp only [if_pos hlen]
    exact .kept
  simp only [if_neg hlen, Py.bind_run, Py.assign_run]
  by_cases hreset : data.headD 0 = Opcode.hardResetServer.value
  · simp only [if_pos hreset]
    have hcall : clientCallOf coins data = some (.resetAck data) := by
      rw [clientCallOf, if_pos hreset]
    exact .of_call { self with lastSeen := now } rfl hcall
  simp only [if_neg hreset]
  by_cases hcontrol : data.headD 0 = Opcode.control.value
  · simp only [if_pos hcontrol]
    exact clientControl_step now coins data { self with lastSeen := now } hreset hcontrol
  simp only [if_neg hcontrol]
  by_cases hopcode : data.headD 0 = Opcode.data.value
  · simp only [if_pos hopcode]
    exact clientData_step now coins data { self with lastSeen := now } hopcode
  simp only [if_neg hopcode]
  exact .kept

theorem clientUdpData_called (now : Time) {coins data : Bytes} {call : ClientCall}
    (hcall : clientCallOf coins data = some call) (client : VpnClient P) : VpnClient.handleUdpData now coins data client =
      VpnClient.callHandler (clientHandler call) { client with lastSeen := now } := by
  have hne : ¬ data.length < 1 := by
    intro hshort
    have hnil : data = [] := List.eq_nil_of_length_eq_zero (by omega)
    rw [hnil] at hcall
    cases hcall
  unfold VpnClient.handleUdpData
  simp only [if_neg hne, Py.bind_run, Py.assign_run]
  unfold clientCallOf at hcall
  by_cases hreset : data.headD 0 = Opcode.hardResetServer.value
  · rw [if_pos hreset] at hcall ⊢
    cases hcall
    rfl
  rw [if_neg hreset] at hcall ⊢
  by_cases hcontrol : data.headD 0 = Opcode.control.value
  · rw [if_pos hcontrol] at hcall ⊢
    unfold VpnClient.handleControl
    cases hdecode : decodePacket data with
    | error e =>
      rw [hdecode] at hcall
      cases hcall
    | ok r =>
      obtain ⟨opcode, sid, payload⟩ := r
      simp only [hdecode] at hcall ⊢
      cases payload with
      | nil => cases hcall
      | cons b payload =>
        simp only [List.headD_cons] at hcall ⊢
        cases hmsg : MessageType.ofValue b with
        | error e =>
          rw [hmsg] at hcall
          cases hcall
        | ok msgType =>
          rw [hmsg] at hcall
          cases msgType <;> cases hcall
          rfl
  · rw [if_neg hcontrol] at hcall
    cases hcall

theorem clientDatagram_called {now : Time} {coins data : Bytes} {call : ClientCall}
    (hcall : clientCallOf coins data = some call) (self : VpnClient P) :
    (clientStep self (.datagram now coins data)).session = clientCall self.session call := by
  rw [clientStep, clientUdpData_called now hcall, (VpnClient.callHandler_run _ _).1]
  cases call <;> rfl

theorem tick_tunnel (now : Time) (self : VpnClient P) :
    (VpnClient.tick now self).session = self.session ∧
      ((VpnClient.tick now self).data = self.data.map (cleanupFragments now) ∨
        ∃ compLzo, (VpnClient.tick now self).data = some (DataChannel.new P
          self.session.sessionId (orEmpty (self.session.peerSessionId.map Subtype.val))
          self.session.cipher compLzo)) := by
  have htail (client : VpnClient P) (timedOut : Bool) : ∀ client',
      client' = (if client.handshakeDone && truthy client.assignedIp then
          if timedOut then VpnClient.cleanup { client with connected := false } else client
        else if client.handshakeDone && timedOut then
          VpnClient.cleanup { client with connected := false }
        else client) → client'.session = client.session ∧ client'.data = client.data := by
    intro _ heq
    subst heq
    split
    · split <;> exact ⟨rfl, rfl⟩
    · split <;> exact ⟨rfl, rfl⟩
  obtain ⟨hsession, hdata⟩ := htail _ _ (VpnClient.tick now self) rfl
  rw [hsession, hdata]
  unfold VpnClient.openDataChannel
  split
  · exact ⟨rfl, .inr ⟨_, rfl⟩⟩
  · exact ⟨rfl, .inl rfl⟩

theorem clientTun_tunnel (nonces : Nat → Nonce) (packet : Bytes) (self : VpnClient P) :
    (VpnClient.onTunReadable nonces packet self).2.session = self.session ∧
      ((VpnClient.onTunReadable nonces packet self).2.data = self.data ∨
        ∃ ch, self.data = some ch ∧
          (VpnClient.onTunReadable nonces packet self).2.data =
            some (encrypt P nonces packet ch).2) := by
  cases hdata : self.data with
  | none =>
    have hrun : VpnClient.onTunReadable nonces packet self = (.ok (), self) := by
      simp [VpnClient.onTunReadable, hdata]
    rw [hrun, hdata]
    exact ⟨rfl, .inl rfl⟩
  | some ch =>
    by_cases hidle : (!self.handshakeDone || !truthy self.assignedIp || packet = []) = true
    · have hrun : VpnClient.onTunReadable nonces packet self = (.ok (), self) := by
        unfold VpnClient.onTunReadable
        rw [Py.bind_run]
        simp only [Py.self_run, hdata]
        exact congrFun (if_pos hidle) self
      rw [hrun, hdata]
      exact ⟨rfl, .inl rfl⟩
    · have hsend : KeepsTunnel (P := P) (do
          let wires ← Py.ofExcept (encrypt P nonces packet ch).1
          wires.forM VpnClient.syncSend) :=
        (Py.Keeps.ofExcept _).bind fun wires => Py.Keeps.forM syncSend_keeps wires
      have hrun : VpnClient.onTunReadable nonces packet self = (do
          let wires ← Py.ofExcept (encrypt P nonces packet ch).1
          wires.forM VpnClient.syncSend : Py (VpnClient P) Unit)
            { self with data := some (encrypt P nonces packet ch).2 } := by
        unfold VpnClient.onTunReadable
        rw [Py.bind_run]
        simp only [Py.self_run, hdata]
        exact congrFun (if_neg hidle) self
      rw [hrun]
      obtain ⟨hsession, hchannel⟩ := hsend { self with data := some (encrypt P nonces packet ch).2 }
      exact ⟨hsession, .inr ⟨ch, rfl, hchannel⟩⟩

theorem attempt_idle (draw : SessionDraw P) (self : VpnClient P) :
    (VpnClient.attempt draw self).2.session.isEstablished = false := by
  unfold VpnClient.attempt
  simp only [Py.bind_run, Py.assign_run, Py.self_run]
  cases self.config.authPaths with
  | none => rfl
  | some paths =>
    obtain ⟨ca, cert, key⟩ := paths
    have hidle : (configure ca cert key (Session.new draw false)).2.state = .idle :=
      Prepared.idle ⟨draw, .inr ⟨ca, cert, key, rfl⟩⟩
    simp only [Py.bind_run, Py.assign_run, Py.ofExcept_run, Session.isEstablished, hidle]
    rfl

def HandlerRan (self self' : VpnClient P) : Prop :=
  ∃ session effects, self' = { self with session := session, effects := effects }

instance : IsPreorder (VpnClient P) HandlerRan where
  refl := fun self => ⟨self.session, self.effects, rfl⟩
  trans := by
    rintro _ _ _ ⟨session, effects, rfl⟩ ⟨session', effects', rfl⟩
    exact ⟨session', effects', rfl⟩

theorem callHandler_ran (handler : Py (Session P) (List Bytes)) :
    (VpnClient.callHandler handler).Keeps HandlerRan :=
  callHandler_frame (fun s self => ⟨s, self.effects, rfl⟩)
    (syncSend_frame (fun _ self => ⟨self.session, _, rfl⟩) fun _ self => ⟨self.session, _, rfl⟩)
    handler

theorem connect_frame (opened : Bool) (self : VpnClient P) :
    ∃ connected transport tcpWriter session effects, (VpnClient.connect opened self).2 = { self with
        connected := connected, transport := transport, tcpWriter := tcpWriter, session := session
        effects := effects } ∧
      (session = self.session ∨ session = { self.session with state := .resetSent }) := by
  unfold VpnClient.connect
  simp only [Py.bind_run, Py.self_run]
  by_cases hfailed : (self.config.isTcp && !opened) = true
  · rw [if_pos hfailed]
    exact ⟨false, _, _, _, _, rfl, .inl rfl⟩
  · rw [if_neg hfailed, Py.bind_run, Py.assign_run]
    cases htcp : self.config.isTcp with
    | true =>
      obtain ⟨session, effects, hran⟩ :=
        callHandler_ran clientStartHandshake { self with tcpWriter := true }
      have hsession :=
        (VpnClient.callHandler_run clientStartHandshake { self with tcpWriter := true }).1
      simp only [if_true, hran] at hsession ⊢
      exact ⟨_, _, _, _, _, rfl, .inr hsession⟩
    | false =>
      obtain ⟨session, effects, hran⟩ :=
        callHandler_ran clientStartHandshake { self with transport := true }
      have hsession :=
        (VpnClient.callHandler_run clientStartHandshake { self with transport := true }).1
      simp only [Bool.false_eq_true, if_false, hran] at hsession ⊢
      exact ⟨_, _, _, _, _, rfl, .inr hsession⟩

theorem connect_tunnel (opened : Bool) (self : VpnClient P) :
    ((VpnClient.connect opened self).2.session = self.session ∨
      (VpnClient.connect opened self).2.session.isEstablished = false) ∧
    (VpnClient.connect opened self).2.data = self.data := by
  obtain ⟨_, _, _, session, _, hrun, rfl | rfl⟩ := connect_frame opened self
  · rw [hrun]
    exact ⟨.inl rfl, rfl⟩
  · rw [hrun]
    exact ⟨.inr rfl, rfl⟩

def SameConfig (self self' : VpnClient P) : Prop := self'.config = self.config

instance : IsPreorder (VpnClient P) SameConfig where
  refl := fun _ => rfl
  trans := fun _ _ _ h k => k.trans h

abbrev KeepsConfig {α : Type} (method : Py (VpnClient P) α) : Prop := method.Keeps SameConfig

theorem emit_config (e : ClientEffect) : KeepsConfig (P := P) (VpnClient.emit e) := fun _ => rfl

theorem syncSend_config (data : Bytes) : KeepsConfig (P := P) (VpnClient.syncSend data) :=
  syncSend_frame (fun _ => emit_config _) (fun _ => emit_config _) data

theorem callHandler_config (handler : Py (Session P) (List Bytes)) :
    KeepsConfig (VpnClient.callHandler handler) :=
  callHandler_frame (fun _ _ => rfl) syncSend_config handler

theorem handleIpAssign_config (ipStr : String) :
    KeepsConfig (P := P) (VpnClient.handleIpAssign ipStr) :=
  handleIpAssign_frame (fun _ => rfl) (fun _ => emit_config _) (fun _ => emit_config _)
    (fun _ _ => rfl)

theorem handleControl_config (coins data : Bytes) :
    KeepsConfig (P := P) (VpnClient.handleControl coins data) :=
  handleControl_frame callHandler_config handleIpAssign_config syncSend_config coins data

theorem handleUdpData_config (now : Time) (coins data : Bytes) :
    KeepsConfig (P := P) (VpnClient.handleUdpData now coins data) := by
  have hseen : KeepsConfig (P := P) (Py.assign fun self => { self with lastSeen := now }) :=
    fun _ => rfl
  exact Py.Keeps.ite (Py.Keeps.pure ()) (hseen.bind fun _ =>
    Py.Keeps.ite (callHandler_config _) (Py.Keeps.ite (handleControl_config coins data)
      (Py.Keeps.ite
        (handleData_frame (fun _ _ => rfl) (fun _ => emit_config _) now data)
        (Py.Keeps.pure ()))))

theorem connect_config (opened : Bool) : KeepsConfig (P := P) (VpnClient.connect opened) := by
  intro self
  obtain ⟨_, _, _, _, _, hrun, -⟩ := connect_frame opened self
  rw [SameConfig, hrun]

theorem onTunReadable_config (nonces : Nat → Nonce) (packet : Bytes) :
    KeepsConfig (P := P) (VpnClient.onTunReadable nonces packet) :=
  onTunReadable_frame (fun _ _ => rfl) syncSend_config nonces packet

theorem attempt_config (draw : SessionDraw P) : KeepsConfig (VpnClient.attempt draw) := by
  have hreset : KeepsConfig (P := P) (Py.assign fun self => { self with
      running := true, handshakeDone := false, assignedIp := none, data := none
      session := Session.new draw false }) := fun _ => rfl
  refine hreset.bind fun _ => Py.Keeps.self fun client => ?_
  cases client.config.authPaths with
  | none => exact Py.Keeps.pure ()
  | some paths =>
    have hstore : KeepsConfig (P := P) (Py.assign fun self => { self with
        session := (configure paths.1 paths.2.1 paths.2.2 client.session).2 }) := fun _ => rfl
    exact hstore.bind fun _ => Py.Keeps.ofExcept _

theorem tick_config (now : Time) (self : VpnClient P) :
    (VpnClient.tick now self).config = self.config := by
  have hopened (client : VpnClient P) :
      (VpnClient.openDataChannel client).config = client.config := by
    unfold VpnClient.openDataChannel
    split <;> rfl
  unfold VpnClient.tick
  dsimp only
  split
  · split
    · exact hopened _
    · exact hopened _
  · split
    · exact hopened _
    · exact hopened _

theorem clientStep_config (self : VpnClient P) (e : ClientEvent P) :
    (clientStep self e).config = self.config := by
  cases e with
  | attempt draw => exact attempt_config draw self
  | connect opened => exact connect_config opened self
  | tick now => exact tick_config now self
  | datagram now coins data => exact handleUdpData_config now coins data self
  | tunReadable nonces packet => exact onTunReadable_config nonces packet self
  | stop => rfl

end PyVpn
