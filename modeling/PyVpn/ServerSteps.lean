import PyVpn.Server
import PyVpn.SessionRun

/-! What each server callback can do to the client table, the address map and the
pool. Later invariants cite these and never unfold a callback again; what is handed
to the operating system is left open here. -/
namespace PyVpn
variable {P : Primitives}

/-- Every entry is stored under its own address. -/
def Addressed (self : VpnServer P) : Prop :=
  ∀ addr cs, self.clients.lookup addr = some cs → cs.addr = addr

def EffectOnly {α : Type} (method : Py (VpnServer P) α) : Prop :=
  ∀ self, ∃ r effects, method self = (r, { self with effects := effects })

def SameTables (self self' : VpnServer P) : Prop :=
  ∃ effects, self' = { self with effects := effects }

instance : IsPreorder (VpnServer P) SameTables where
  refl := fun self => ⟨self.effects, rfl⟩
  trans := fun _ _ _ ⟨_, h⟩ ⟨effects, k⟩ => ⟨effects, by rw [k, h]⟩

theorem EffectOnly.of_keeps {α : Type} {method : Py (VpnServer P) α}
    (h : method.Keeps SameTables) : EffectOnly method := by
  intro self
  obtain ⟨effects, hafter⟩ := h self
  exact ⟨(method self).1, effects, Prod.ext rfl hafter⟩

theorem emit_keeps_tables (e : Effect) : (emit (P := P) e).Keeps SameTables :=
  fun self => ⟨self.effects ++ [e], rfl⟩

theorem syncSendTo_keeps (cs : ClientSession P) (data : Bytes) :
    (syncSendTo cs data).Keeps SameTables := by
  refine Py.Keeps.self fun self => ?_
  have hdatagram : (if self.transport then emit (.sendto data cs.addr) else return () :
      Py (VpnServer P) Unit).Keeps SameTables :=
    Py.Keeps.ite (emit_keeps_tables _) (Py.Keeps.pure ())
  cases self.config.isTcp with
  | false => exact hdatagram
  | true =>
    cases cs.writer with
    | none => exact hdatagram
    | some writer => exact (Py.Keeps.ofExcept _).bind fun frame => emit_keeps_tables _

def ClientSession.seen (cs : ClientSession P) (now : Time) : ClientSession P :=
  { cs with lastSeen := now }

def ClientSession.called (cs : ClientSession P) (call : ServerCall) : ClientSession P :=
  { cs with session := serverCall cs.session call }

def ClientSession.opened (cs : ClientSession P) (compLzo : Bool) : ClientSession P :=
  { cs with
    data := some (DataChannel.new P cs.session.sessionId
      (orEmpty (cs.session.peerSessionId.map Subtype.val)) cs.session.cipher compLzo) }

def ClientSession.assigned (cs : ClientSession P) (ip : String) : ClientSession P :=
  { cs with virtualIp := some ip, session := { cs.session with assignedIp := some ip } }

theorem callHandler_run (cs : ClientSession P) (handler : Py (Session P) (List Bytes))
    (self : VpnServer P) :
    ∃ r effects, callHandler cs handler self = (r, { self with
      clients := self.clients.insert cs.addr { cs with session := (handler cs.session).2 }
      effects := effects }) ∧
      ∀ cs', r = .ok cs' → cs' = { cs with session := (handler cs.session).2 } := by
  unfold callHandler
  simp only [Py.bind_run, storeClient, Py.assign_run, Py.ofExcept_run]
  cases hrun : handler cs.session with
  | mk result session =>
    cases result with
    | error e => exact ⟨.error e, self.effects, rfl, by simp⟩
    | ok packets =>
      obtain ⟨r, effects, hsend⟩ := EffectOnly.of_keeps
        (Py.Keeps.forM (syncSendTo_keeps { cs with session := session }) packets)
        { self with clients := self.clients.insert cs.addr { cs with session := session } }
      simp only [hsend]
      cases r with
      | error e => exact ⟨.error e, effects, rfl, by simp⟩
      | ok u => exact ⟨_, effects, rfl, by simp⟩

def FreshEntry (config : Config) (draw : SessionDraw P) (addr : Addr) (writer : Option Nat)
    (cs : ClientSession P) : Prop :=
  ∃ session, cs = { ClientSession.new addr session draw.now with writer := writer } ∧
    match config.authPaths with
    | none => session = Session.new draw true
    | some (ca, cert, key) => session = (configure ca cert key (Session.new draw true)).2

/-- The entry a datagram that may open a session is for. -/
def EntryFor (self : VpnServer P) (draw : SessionDraw P) (addr : Addr) (writer : Option Nat)
    (cs : ClientSession P) : Prop :=
  self.clients.lookup addr = some cs ∨
    self.clients.lookup addr = none ∧ FreshEntry self.config draw addr writer cs

theorem getOrCreateSession_cases (draw : SessionDraw P) (addr : Addr) (writer : Option Nat)
    (self : VpnServer P) :
    (∃ e, getOrCreateSession draw addr writer self = (.error e, self)) ∨
    (∃ cs, self.clients.lookup addr = some cs ∧
      getOrCreateSession draw addr writer self = (.ok cs, self)) ∨
    (∃ cs, self.clients.lookup addr = none ∧ FreshEntry self.config draw addr writer cs ∧
      getOrCreateSession draw addr writer self =
        (.ok cs, { self with clients := self.clients.insert addr cs })) := by
  unfold getOrCreateSession
  rw [Py.bind_run]
  simp only [Py.self_run]
  cases hlookup : self.clients.lookup addr with
  | some cs => exact .inr (.inl ⟨cs, rfl, rfl⟩)
  | none =>
    cases hpaths : self.config.authPaths with
    | none =>
      refine .inr (.inr ⟨{ ClientSession.new addr (Session.new draw true) draw.now with
        writer := writer }, rfl, ⟨_, rfl, ?_⟩, rfl⟩)
      rw [hpaths]
    | some paths =>
      obtain ⟨ca, cert, key⟩ := paths
      cases hconf : (configure ca cert key (Session.new draw true)).1 with
      | error e =>
        refine .inl ⟨e, ?_⟩
        simp [hconf, Except.map]
      | ok u =>
        refine .inr (.inr ⟨{ ClientSession.new addr
          (configure ca cert key (Session.new draw true)).2 draw.now with writer := writer },
          rfl, ⟨_, rfl, ?_⟩, ?_⟩)
        · rw [hpaths]
        · simp [hconf, Except.map, storeClient]
          rfl

theorem assignIpToClient_cases (cs : ClientSession P) (self : VpnServer P) :
    ((∀ pool, self.ipPool = some pool → pool.available = ∅) ∧
      ∃ r, assignIpToClient cs self = (r, self)) ∨
    ∃ r pool n effects, self.ipPool = some pool ∧ n ∈ pool.available ∧
      assignIpToClient cs self = (r, { self with
        clients := self.clients.insert cs.addr (cs.assigned (strIPv4 n))
        ipToAddr := self.ipToAddr.insert (strIPv4 n) cs.addr
        ipPool := some (pool.lease cs.clientId n)
        effects := effects }) := by
  unfold assignIpToClient
  rw [Py.bind_run]
  simp only [Py.self_run]
  cases hpool : self.ipPool with
  | none => exact .inl ⟨(by simp), .ok none, rfl⟩
  | some pool =>
    simp only [Py.bind_run, Py.assign_run]
    obtain ⟨hempty, hnone⟩ | ⟨n, hn, hsome⟩ := pool.allocate_cases cs.clientId
    · refine .inl ⟨fun pool' h => Option.some.inj h ▸ hempty, .ok none, ?_⟩
      simp only [hnone, Py.pure_run]
      rw [← hpool]
    · right
      obtain ⟨r, effects, hrun⟩ := EffectOnly.of_keeps
        ((syncSendTo_keeps (cs.assigned (strIPv4 n))
          (encodePacket .control (cs.assigned (strIPv4 n)).session.sid
            (MessageType.ipAssign.value :: (strIPv4 n).toUTF8.toList))).bind
          fun _ => (emit_keeps_tables (.addRoute (strIPv4 n))).bind
            fun _ => Py.Keeps.pure (some (strIPv4 n)))
        { self with
          clients := self.clients.insert cs.addr (cs.assigned (strIPv4 n))
          ipToAddr := self.ipToAddr.insert (strIPv4 n) cs.addr
          ipPool := some (pool.lease cs.clientId n) }
      refine ⟨r, pool, n, effects, rfl, hn, ?_⟩
      rw [hsome]
      exact hrun

/-- The handler call a control datagram asks the server for. -/
def controlCall (coins data : Bytes) : Option ServerCall :=
  match decodePacket data with
  | .error _ => none
  | .ok (_, _, payload) =>
    match MessageType.ofValue (payload.headD 0) with
    | .ok .clientHello => some (.clientHello coins (payload.drop 1))
    | .ok .clientFinished => some (.clientFinished (payload.drop 1))
    | _ => none

/-- The handler call a datagram asks the server for. -/
def serverCallOf (now : Time) (coins data : Bytes) : Option ServerCall :=
  if data.headD 0 = Opcode.hardResetClient.value then some (.reset now data)
  else if data.headD 0 = Opcode.control.value then controlCall coins data
  else none

inductive Opening (self : VpnServer P) (cs : ClientSession P) : VpnServer P → Prop
  | unassigned (hnone : ∀ pool, self.ipPool = some pool → pool.available = ∅) :
      Opening self cs { self with
        clients := self.clients.insert cs.addr (cs.opened self.config.compLzo) }
  | assigned (pool : IpPool) (n : Nat) (effects : List Effect) (hpool : self.ipPool = some pool)
      (hn : n ∈ pool.available) : Opening self cs { self with
        clients := self.clients.insert cs.addr
          ((cs.opened self.config.compLzo).assigned (strIPv4 n))
        ipToAddr := self.ipToAddr.insert (strIPv4 n) cs.addr
        ipPool := some (pool.lease cs.clientId n)
        effects := effects }

theorem Py.discard_run {σ α : Type} {x : Py σ α} {r : Except PyError α} {s t : σ}
    (h : x s = (r, t)) : ((x >>= fun _ => return ()) s).2 = t := by
  rw [Py.bind_run, h]
  cases r <;> rfl

theorem openDataChannel_opens {cs : ClientSession P}
    (hopen : (cs.session.isEstablished && cs.data.isNone) = true) (self : VpnServer P) :
    Opening self cs (openDataChannel cs self).2 := by
  unfold openDataChannel
  rw [Py.bind_run]
  simp only [Py.self_run]
  rw [if_pos hopen]
  obtain ⟨hnone, r, hassign⟩ | ⟨r, pool, n, effects, hpool, hn, hassign⟩ :=
    assignIpToClient_cases (cs.opened self.config.compLzo)
      { self with clients := self.clients.insert cs.addr (cs.opened self.config.compLzo) }
  · exact Py.discard_run hassign ▸ Opening.unassigned hnone
  · have haddr : (cs.opened self.config.compLzo).addr = cs.addr := rfl
    simp only [haddr, AList.insert_insert] at hassign
    exact Py.discard_run hassign ▸ Opening.assigned pool n effects hpool hn

theorem openDataChannel_waits {cs : ClientSession P}
    (hwait : ¬ (cs.session.isEstablished && cs.data.isNone) = true) (self : VpnServer P) :
    openDataChannel cs self = (.ok (), self) := by
  unfold openDataChannel
  rw [Py.bind_run]
  simp only [Py.self_run]
  rw [if_neg hwait]
  rfl

theorem openDataChannel_cases (cs : ClientSession P) (self : VpnServer P) :
    (openDataChannel cs self).2 = self ∨
    cs.session.isEstablished = true ∧ cs.data = none ∧
      Opening self cs (openDataChannel cs self).2 := by
  by_cases hopen : (cs.session.isEstablished && cs.data.isNone) = true
  · obtain ⟨hest, hdata⟩ := Bool.and_eq_true_iff.mp hopen
    exact .inr ⟨hest, Option.isNone_iff_eq_none.mp hdata, openDataChannel_opens hopen self⟩
  · exact .inl (congrArg Prod.snd (openDataChannel_waits hopen self))

theorem callThenOpen_cases (cs : ClientSession P) (handler : Py (Session P) (List Bytes))
    (call : ServerCall) (hhandler : (handler cs.session).2 = serverCall cs.session call)
    (self : VpnServer P) :
    ∃ effects, ((callHandler cs handler >>= openDataChannel) self).2 = { self with
        clients := self.clients.insert cs.addr (cs.called call), effects := effects } ∨
      (cs.called call).session.isEstablished = true ∧ cs.data = none ∧
        Opening { self with
          clients := self.clients.insert cs.addr (cs.called call), effects := effects }
          (cs.called call) ((callHandler cs handler >>= openDataChannel) self).2 := by
  obtain ⟨r, effects, hrun, hentry⟩ := callHandler_run cs handler self
  rw [hhandler] at hrun hentry
  refine ⟨effects, ?_⟩
  rw [Py.bind_run, hrun]
  cases r with
  | error e => exact .inl rfl
  | ok cs' =>
    cases hentry cs' rfl
    exact openDataChannel_cases (cs.called call) _

theorem handleControl_cases (coins : Bytes) (cs : ClientSession P) (data : Bytes)
    (self : VpnServer P) :
    (handleControl coins cs data self).2 = self ∨
    ∃ call effects, controlCall coins data = some call ∧
      ((handleControl coins cs data self).2 = { self with
        clients := self.clients.insert cs.addr (cs.called call), effects := effects } ∨
      (cs.called call).session.isEstablished = true ∧ cs.data = none ∧
        Opening { self with
          clients := self.clients.insert cs.addr (cs.called call), effects := effects }
          (cs.called call) (handleControl coins cs data self).2) := by
  unfold handleControl controlCall
  cases hdecode : decodePacket data with
  | error e => exact .inl rfl
  | ok r =>
    obtain ⟨opcode, sid, payload⟩ := r
    by_cases hlen : payload.length < 1
    · exact .inl (by simp [hlen])
    · simp only [if_neg hlen, Py.bind_run, Py.ofExcept_run]
      cases MessageType.ofValue (payload.headD 0) with
      | error e => exact .inl rfl
      | ok msgType =>
        cases msgType with
        | clientHello =>
          obtain ⟨effects, h⟩ := callThenOpen_cases cs
            (serverHandleClientHello coins (payload.drop 1)) (.clientHello coins (payload.drop 1))
            rfl self
          exact .inr ⟨_, effects, rfl, h⟩
        | clientFinished =>
          obtain ⟨effects, h⟩ := callThenOpen_cases cs
            (serverHandleClientFinished (payload.drop 1)) (.clientFinished (payload.drop 1))
            rfl self
          exact .inr ⟨_, effects, rfl, h⟩
        | serverHello => exact .inl rfl
        | keepalive => exact .inl rfl
        | shutdown => exact .inl rfl
        | ipAssign => exact .inl rfl

/-- What a datagram from its address can make of an entry that keeps its channel. -/
inductive EntryStep (draw : Draw P) (data : Bytes) (cs : ClientSession P) :
    ClientSession P → Prop
  | seen : EntryStep draw data cs (cs.seen draw.now)
  | called (call : ServerCall) (hopcode : data.headD 0 = Opcode.control.value)
      (hcall : controlCall draw.coins data = some call) :
      EntryStep draw data cs ((cs.seen draw.now).called call)
  | received (ch : DataChannel) (hopcode : data.headD 0 = Opcode.data.value)
      (hdata : cs.data = some ch) (hready : cs.isReady = true) :
      EntryStep draw data cs
        { cs.seen draw.now with data := some (decrypt P draw.now data ch).2 }

/-- What one datagram can do to a server. -/
inductive DatagramStep (draw : Draw P) (data : Bytes) (addr : Addr) (self : VpnServer P) :
    VpnServer P → Prop
  | ignored : DatagramStep draw data addr self self
  | reset (cs : ClientSession P) (effects : List Effect)
      (hopcode : data.headD 0 = Opcode.hardResetClient.value)
      (hcs : EntryFor self draw.session addr none cs) :
      DatagramStep draw data addr self { self with
        clients := self.clients.insert addr (cs.called (.reset draw.now data))
        effects := effects }
  | entry (cs cs' : ClientSession P) (effects : List Effect)
      (hcs : self.clients.lookup addr = some cs) (hstep : EntryStep draw data cs cs') :
      DatagramStep draw data addr self { self with
        clients := self.clients.insert addr cs', effects := effects }
  | opened (cs : ClientSession P) (call : ServerCall) (effects : List Effect)
      (self' : VpnServer P) (hcs : self.clients.lookup addr = some cs) (hdata : cs.data = none)
      (hopcode : data.headD 0 = Opcode.control.value)
      (hcall : controlCall draw.coins data = some call)
      (hest : ((cs.seen draw.now).called call).session.isEstablished = true)
      (hopening : Opening { self with
        clients := self.clients.insert addr ((cs.seen draw.now).called call)
        effects := effects } ((cs.seen draw.now).called call) self') :
      DatagramStep draw data addr self self'

theorem handleData_cases (now : Time) (cs : ClientSession P) (data : Bytes)
    (self : VpnServer P) :
    (handleData now cs data self).2 = self ∨
    ∃ ch effects, cs.data = some ch ∧ cs.isReady = true ∧
      (handleData now cs data self).2 = { self with
        clients := self.clients.insert cs.addr { cs with data := some (decrypt P now data ch).2 }
        effects := effects } := by
  unfold handleData
  cases hdata : cs.data with
  | none => exact .inl rfl
  | some ch =>
    by_cases hready : cs.isReady = true
    · right
      simp only [if_pos hready, Py.bind_run, onChannel, storeClient, Py.assign_run,
        Py.ofExcept_run]
      cases (decrypt P now data ch).1 with
      | error e => exact ⟨ch, self.effects, rfl, hready, rfl⟩
      | ok plain =>
        by_cases hplain : truthyBytes plain = true
        · exact ⟨ch, _, rfl, hready, by simp only [if_pos hplain]; rfl⟩
        · exact ⟨ch, _, rfl, hready, by simp only [if_neg hplain]; rfl⟩
    · exact .inl (by simp [hready])

theorem FreshEntry.addr_eq {config : Config} {draw : SessionDraw P} {addr : Addr}
    {writer : Option Nat} {cs : ClientSession P} (h : FreshEntry config draw addr writer cs) :
    cs.addr = addr := by
  obtain ⟨session, rfl, -⟩ := h
  rfl

theorem handleReset_step (draw : Draw P) (data : Bytes) (addr : Addr) {self : VpnServer P}
    (haddr : Addressed self) (hopcode : data.headD 0 = Opcode.hardResetClient.value)
    (hne : ¬ data.length < 1) :
    DatagramStep draw data addr self (handleUdpData draw data addr self).2 := by
  unfold handleUdpData
  simp only [if_neg hne, if_pos hopcode, Py.bind_run]
  obtain ⟨e, hget⟩ | ⟨cs, hcs, hget⟩ | ⟨cs, hnone, hfresh, hget⟩ :=
    getOrCreateSession_cases draw.session addr none self
  · rw [hget]
    exact .ignored
  · obtain rfl := haddr addr cs hcs
    obtain ⟨r, effects, hrun, -⟩ := callHandler_run cs (serverHandleReset draw.now data) self
    rw [hget]
    simp only [hrun]
    cases r <;> exact .reset cs effects hopcode (.inl hcs)
  · obtain rfl := hfresh.addr_eq
    obtain ⟨r, effects, hrun, -⟩ := callHandler_run cs (serverHandleReset draw.now data)
      { self with clients := self.clients.insert cs.addr cs }
    rw [hget]
    simp only [hrun, AList.insert_insert]
    cases r <;> exact .reset cs effects hopcode (.inr ⟨hnone, hfresh⟩)

theorem handleUdpData_known {draw : Draw P} {data : Bytes} {addr : Addr} {self : VpnServer P}
    {cs : ClientSession P} (hcs : self.clients.lookup addr = some cs) (hne : ¬ data.length < 1)
    (hreset : data.headD 0 ≠ Opcode.hardResetClient.value)
    (hack : data.headD 0 ≠ Opcode.hardResetServer.value) :
    handleUdpData draw data addr self =
      (if data.headD 0 = Opcode.control.value then handleControl draw.coins (cs.seen draw.now) data
        else if data.headD 0 = Opcode.data.value then handleData draw.now (cs.seen draw.now) data
        else return ()) { self with clients := self.clients.insert cs.addr (cs.seen draw.now) } := by
  unfold handleUdpData
  simp only [if_neg hne, if_neg hreset, if_neg hack, Py.bind_run, Py.self_run, hcs, storeClient,
    Py.assign_run]
  rfl

theorem handleUdpData_unknown {draw : Draw P} {data : Bytes} {addr : Addr} {self : VpnServer P}
    (hcs : self.clients.lookup addr = none)
    (hreset : data.headD 0 ≠ Opcode.hardResetClient.value) :
    handleUdpData draw data addr self = (.ok (), self) := by
  unfold handleUdpData
  by_cases hne : data.length < 1
  · rw [if_pos hne]
    rfl
  · simp only [if_neg hne, if_neg hreset]
    split
    · rfl
    · simp only [Py.bind_run, Py.self_run, hcs]
      rfl

theorem handleUdpData_step (draw : Draw P) (data : Bytes) (addr : Addr) {self : VpnServer P}
    (haddr : Addressed self) :
    DatagramStep draw data addr self (handleUdpData draw data addr self).2 := by
  by_cases hne : data.length < 1
  · have hrun : (handleUdpData draw data addr self).2 = self := by
      simp [handleUdpData, hne]
    rw [hrun]
    exact .ignored
  by_cases hreset : data.headD 0 = Opcode.hardResetClient.value
  · exact handleReset_step draw data addr haddr hreset hne
  cases hcs : self.clients.lookup addr with
  | none =>
    rw [handleUdpData_unknown hcs hreset]
    exact .ignored
  | some cs =>
    obtain rfl := haddr addr cs hcs
    have hseen : (cs.seen draw.now).addr = cs.addr := rfl
    by_cases hack : data.headD 0 = Opcode.hardResetServer.value
    · have hrun : (handleUdpData draw data cs.addr self).2 = self := by
        unfold handleUdpData
        simp only [if_neg hne, if_neg hreset, if_pos hack]
        rfl
      rw [hrun]
      exact .ignored
    rw [handleUdpData_known hcs hne hreset hack]
    by_cases hcontrol : data.headD 0 = Opcode.control.value
    · rw [if_pos hcontrol]
      obtain hrun | ⟨call, effects, hcall, hrun | ⟨hest, hdata, hopening⟩⟩ :=
        handleControl_cases draw.coins (cs.seen draw.now) data
          { self with clients := self.clients.insert cs.addr (cs.seen draw.now) }
      · rw [hrun]
        exact .entry cs _ self.effects hcs .seen
      · rw [hrun]
        simp only [hseen, AList.insert_insert]
        exact .entry cs _ effects hcs (.called call hcontrol hcall)
      · simp only [hseen, AList.insert_insert] at hopening
        exact .opened cs call effects _ hcs hdata hcontrol hcall hest hopening
    · rw [if_neg hcontrol]
      by_cases hopcode : data.headD 0 = Opcode.data.value
      · rw [if_pos hopcode]
        obtain hrun | ⟨ch, effects, hdata, hready, hrun⟩ :=
          handleData_cases draw.now (cs.seen draw.now) data
            { self with clients := self.clients.insert cs.addr (cs.seen draw.now) }
        · rw [hrun]
          exact .entry cs _ self.effects hcs .seen
        · rw [hrun]
          simp only [hseen, AList.insert_insert]
          exact .entry cs _ effects hcs (.received ch hopcode hdata hready)
      · rw [if_neg hopcode]
        exact .entry cs _ self.effects hcs .seen

section
variable {draw : Draw P} {coins data : Bytes} {addr : Addr} {self : VpnServer P}
  {cs : ClientSession P} {call : ServerCall}

theorem handleControl_called (hcall : controlCall coins data = some call)
    (cs : ClientSession P) :
    handleControl coins cs data = (callHandler cs (serverHandler call) >>= openDataChannel) := by
  unfold controlCall at hcall
  unfold handleControl
  cases hdecode : decodePacket data with
  | error e =>
    rw [hdecode] at hcall
    cases hcall
  | ok r =>
    obtain ⟨opcode, sid, body⟩ := r
    simp only [hdecode] at hcall
    cases body with
    | nil => cases hcall
    | cons b body =>
      simp only [List.headD_cons] at hcall ⊢
      cases hmsg : MessageType.ofValue b with
      | error e =>
        rw [hmsg] at hcall
        cases hcall
      | ok msgType =>
        rw [hmsg] at hcall
        funext self
        cases msgType <;> cases hcall <;>
          simp only [List.length_cons, Nat.lt_one_iff, Nat.add_eq_zero_iff, one_ne_zero,
            and_false, if_false, Py.bind_run, Py.ofExcept_run, controlHandler] <;> rfl

theorem handleUdpData_control (hcs : self.clients.lookup addr = some cs)
    (hopcode : data.headD 0 = Opcode.control.value)
    (hcall : controlCall draw.coins data = some call) :
    handleUdpData draw data addr self =
      (callHandler (cs.seen draw.now) (serverHandler call) >>= openDataChannel)
        { self with clients := self.clients.insert cs.addr (cs.seen draw.now) } := by
  obtain ⟨hne, hreset, hack⟩ := opcode_cases (.inl hopcode)
  rw [handleUdpData_known hcs hne hreset hack, if_pos hopcode, handleControl_called hcall]

theorem handleUdpData_control_session (haddr : cs.addr = addr)
    (hcs : self.clients.lookup addr = some cs) (hopcode : data.headD 0 = Opcode.control.value)
    (hcall : controlCall draw.coins data = some call) :
    ∃ cs' ip, (handleUdpData draw data addr self).2.clients.lookup addr = some cs' ∧
      cs'.session = { serverCall cs.session call with assignedIp := ip } := by
  rw [handleUdpData_control hcs hopcode hcall]
  subst haddr
  obtain ⟨effects, hrun | ⟨-, -, hopening⟩⟩ := callThenOpen_cases (cs.seen draw.now)
    (serverHandler call) call (serverHandler_session call cs.session)
    { self with clients := self.clients.insert cs.addr (cs.seen draw.now) }
  · rw [hrun]
    exact ⟨_, _, AList.lookup_insert _, rfl⟩
  · generalize ((callHandler (cs.seen draw.now) (serverHandler call) >>= openDataChannel) _).2 =
      after at hopening
    cases hopening with
    | unassigned => exact ⟨_, _, AList.lookup_insert _, rfl⟩
    | assigned pool n effects hpool hn => exact ⟨_, _, AList.lookup_insert _, rfl⟩

end

end PyVpn
