import PyVpn.EffectLog
import PyVpn.PeerMachine
import PyVpn.TunRouting

/-! The server as each peer sees it: a machine of its own, fed with that peer's packets and
the timers. What other peers send and what the TUN yields does not reach it. -/
namespace PyVpn
open EventRun
variable {P : Primitives}

section View
variable {self self' : VpnServer P} {addr a : Addr}

theorem peerView_insert {cs : ClientSession P}
    (hclients : self'.clients = self.clients.insert a cs) :
    peerView self' addr = if a = addr then some cs.bare else peerView self addr := by
  unfold peerView
  rw [hclients]
  by_cases ha : a = addr
  · subst ha
    rw [AList.lookup_insert, if_pos rfl]
    rfl
  · rw [AList.lookup_insert_ne (Ne.symm ha), if_neg ha]

theorem peerView_congr (h : self'.clients.lookup addr = self.clients.lookup addr) :
    peerView self' addr = peerView self addr := by
  rw [peerView, h, peerView]

theorem getOrCreateSession_run (draw : SessionDraw P) (addr : Addr) (writer : Option Nat)
    (self : VpnServer P) :
    (∃ cs, self.clients.lookup addr = some cs ∧
      getOrCreateSession draw addr writer self = (.ok cs, self)) ∨
    (∃ e, self.clients.lookup addr = none ∧ freshClient self.config draw addr writer = none ∧
      getOrCreateSession draw addr writer self = (.error e, self)) ∨
    (∃ cs, self.clients.lookup addr = none ∧
      freshClient self.config draw addr writer = some cs ∧ cs.addr = addr ∧
      getOrCreateSession draw addr writer self =
        (.ok cs, { self with clients := self.clients.insert addr cs })) := by
  unfold getOrCreateSession freshClient
  rw [Py.bind_run]
  simp only [Py.self_run]
  cases self.clients.lookup addr with
  | some cs => exact .inl ⟨cs, rfl, rfl⟩
  | none =>
    cases self.config.authPaths with
    | none => exact .inr (.inr ⟨_, rfl, rfl, rfl, rfl⟩)
    | some paths =>
      obtain ⟨ca, cert, key⟩ := paths
      cases hconfigured : (configure ca cert key (Session.new draw true)).1 with
      | error e => exact .inr (.inl ⟨e, rfl, by simp [hconfigured], by simp [hconfigured, Except.map]⟩)
      | ok u =>
        refine .inr (.inr ⟨{ ClientSession.new addr (configure ca cert key
          (Session.new draw true)).2 draw.now with writer := writer }, rfl,
          by simp only [hconfigured], rfl, ?_⟩)
        simp [hconfigured, Except.map, storeClient]
        rfl

theorem peerView_connect (draw : SessionDraw P) (a : Addr) (writer : Option Nat)
    (self : VpnServer P) (addr : Addr) :
    peerView (getOrCreateSession draw a writer self).2 addr =
      if a = addr then peerView self addr <|> freshClient self.config draw addr writer
      else peerView self addr := by
  obtain ⟨cs, hcs, hrun⟩ | ⟨e, hnone, hfresh, hrun⟩ | ⟨cs, hnone, hfresh, haddr, hrun⟩ :=
    getOrCreateSession_run draw a writer self
  · rw [hrun]
    split
    · rename_i ha
      subst ha
      rw [peerView, hcs]
      rfl
    · rfl
  · rw [hrun]
    split
    · rename_i ha
      subst ha
      rw [peerView, hnone, hfresh]
      rfl
    · rfl
  · rw [hrun]
    simp only
    rw [peerView_insert rfl]
    split
    · rename_i ha
      subst ha
      have hbare : cs.bare = cs := by
        have hview := freshClient_bare self.config draw a writer
        rw [hfresh] at hview
        exact Option.some.inj hview
      rw [peerView, hnone, hfresh, hbare]
      rfl
    · rfl

end View

section Step
variable {self self' : VpnServer P} {addr a : Addr}

theorem callFinished_returns (cs : ClientSession P) (payload : Bytes) (self : VpnServer P) :
    ∃ cs', (callHandler cs (serverHandleClientFinished payload) self).1 = .ok cs' := by
  unfold callHandler
  simp only [Py.bind_run, storeClient, Py.assign_run, Py.ofExcept_run]
  obtain ⟨-, hrun⟩ | ⟨sig, -, -, hrun⟩ := serverHandleClientFinished_cases payload cs.session
  · rw [hrun]
    exact ⟨_, rfl⟩
  · rw [hrun]
    exact ⟨_, rfl⟩

theorem callHandler_raised (cs : ClientSession P) (self : VpnServer P) {coins data : Bytes}
    {call : ServerCall} {e : PyError} (hcall : controlCall coins data = some call)
    (hraised : (callHandler cs (serverHandler call) self).1 = .error e) :
    (cs.called call).session.isEstablished = false := by
  obtain ⟨payload, rfl⟩ | ⟨payload, rfl⟩ := controlCall_cases hcall
  · exact clientHello_not_established coins payload cs.session
  · obtain ⟨cs', hreturned⟩ := callFinished_returns cs payload self
    rw [serverHandler, hreturned] at hraised
    cases hraised

theorem opening_view {cs : ClientSession P} (hopening : Opening self cs self') :
    peerView self' cs.addr = some (cs.opened self.config.compLzo).bare := by
  cases hopening with
  | unassigned hnone => exact (peerView_insert rfl).trans (if_pos rfl)
  | assigned pool n effects hpool hn =>
    have hview : peerView { self with
        clients := self.clients.insert cs.addr
          ((cs.opened self.config.compLzo).assigned (strIPv4 n))
        ipToAddr := self.ipToAddr.insert (strIPv4 n) cs.addr
        ipPool := some (pool.lease cs.clientId n), effects := effects } cs.addr =
          some ((cs.opened self.config.compLzo).assigned (strIPv4 n)).bare :=
      (peerView_insert rfl).trans (if_pos rfl)
    exact hview

theorem callThenOpen_view (cs : ClientSession P) {coins data : Bytes} {call : ServerCall}
    (hcall : controlCall coins data = some call) :
    peerView ((callHandler cs (serverHandler call) >>= openDataChannel) self).2 cs.addr =
      some (peerControl self.config coins data cs).bare := by
  have hdata : (cs.called call).data = cs.data := rfl
  unfold peerControl
  rw [hcall]
  obtain ⟨r, effects, hrun, hentry⟩ := callHandler_run cs (serverHandler call) self
  rw [serverHandler_session] at hrun hentry
  cases r with
  | error e =>
    have hwaits := callHandler_raised cs self hcall (by rw [hrun])
    rw [Py.bind_run, hrun]
    simp only [hwaits, Bool.false_and, Bool.false_eq_true, if_false]
    exact (peerView_insert rfl).trans (if_pos rfl)
  | ok cs' =>
    cases hentry cs' rfl
    rw [Py.bind_run, hrun]
    simp only [← hdata]
    by_cases hopen :
        ((cs.called call).session.isEstablished && (cs.called call).data.isNone) = true
    · rw [if_pos hopen]
      exact opening_view (openDataChannel_opens hopen _)
    · rw [if_neg hopen]
      have hwait := openDataChannel_waits hopen { self with
        clients := self.clients.insert cs.addr (cs.called call), effects := effects }
      exact (peerView_congr (congrArg (fun s => s.2.clients.lookup cs.addr) hwait)).trans
        ((peerView_insert rfl).trans (if_pos rfl))

theorem handleControl_view (coins data : Bytes) {cs : ClientSession P}
    (hcs : self.clients.lookup cs.addr = some cs) :
    peerView (handleControl coins cs data self).2 cs.addr =
      some (peerControl self.config coins data cs).bare := by
  cases hcall : controlCall coins data with
  | some call =>
    rw [handleControl_called hcall]
    exact callThenOpen_view cs hcall
  | none =>
    obtain hrun | ⟨call, -, hsome, -⟩ := handleControl_cases coins cs data self
    · rw [hrun, peerView, hcs, peerControl, hcall]
      rfl
    · rw [hcall] at hsome
      cases hsome

theorem handleData_ready {cs : ClientSession P} {ch : DataChannel} (hdata : cs.data = some ch)
    (hready : cs.isReady = true) (now : Time) (data : Bytes) (self : VpnServer P) :
    (handleData now cs data self).2 = { self with
      clients := self.clients.insert cs.addr { cs with data := some (decrypt P now data ch).2 }
      effects := self.effects ++ (writtenOf (decrypt P now data ch).1).map .tunWrite } := by
  unfold handleData writtenOf
  simp only [hdata, if_pos hready, Py.bind_run, onChannel, storeClient, Py.assign_run,
    Py.ofExcept_run]
  cases (decrypt P now data ch).1 with
  | error e => simp
  | ok plain =>
    by_cases hplain : truthyBytes plain = true
    · simp only [if_pos hplain]
      rfl
    · simp only [if_neg hplain, List.map_nil, List.append_nil]
      rfl

theorem handleData_waits {cs : ClientSession P} (hwaits : cs.isReady = false) (now : Time)
    (data : Bytes) (self : VpnServer P) : handleData now cs data self = (.ok (), self) := by
  unfold handleData
  cases cs.data with
  | none => rfl
  | some ch =>
    simp only [hwaits, Bool.false_eq_true, if_false]
    rfl

theorem handleData_view (now : Time) (data : Bytes) {cs : ClientSession P}
    (hcs : self.clients.lookup cs.addr = some cs) :
    peerView (handleData now cs data self).2 cs.addr = some (peerData now data cs).bare := by
  unfold peerData
  cases hready : cs.isReady with
  | false =>
    rw [handleData_waits hready, peerView, hcs]
    rfl
  | true =>
    obtain ⟨ch, hdata⟩ := ClientSession.isReady_data hready
    rw [handleData_ready hdata hready, peerView_insert rfl, if_pos rfl, if_pos rfl, hdata]
    rfl

theorem handleReset_run (draw : Draw P) {data : Bytes} (haddr : Addressed self) (a : Addr)
    (hopcode : data.headD 0 = Opcode.hardResetClient.value) :
    ∃ effects, (handleUdpData draw data a self).2 =
      match self.clients.lookup a <|> freshClient self.config draw.session a none with
      | none => self
      | some cs => { self with
          clients := self.clients.insert a (cs.called (.reset draw.now data))
          effects := effects } := by
  have hne : ¬ data.length < 1 := not_empty_of_head hopcode (by decide)
  unfold handleUdpData
  simp only [if_neg hne, if_pos hopcode, Py.bind_run]
  obtain ⟨cs, hcs, hget⟩ | ⟨e, hnone, hfresh, hget⟩ | ⟨cs, hnone, hfresh, rfl, hget⟩ :=
    getOrCreateSession_run draw.session a none self
  · obtain rfl := haddr a cs hcs
    obtain ⟨r, effects, hrun, -⟩ := callHandler_run cs (serverHandleReset draw.now data) self
    refine ⟨effects, ?_⟩
    rw [hget, hcs]
    simp only [hrun]
    cases r <;> rfl
  · refine ⟨self.effects, ?_⟩
    rw [hget, hnone, hfresh]
    rfl
  · obtain ⟨r, effects, hrun, -⟩ := callHandler_run cs (serverHandleReset draw.now data)
      { self with clients := self.clients.insert cs.addr cs }
    refine ⟨effects, ?_⟩
    rw [hget, hnone, hfresh]
    simp only [hrun, AList.insert_insert]
    cases r <;> rfl

/-- Everything a datagram does to its peer's entry. -/
theorem datagram_view (draw : Draw P) (data : Bytes) (haddr : Addressed self) (addr : Addr) :
    peerView (handleUdpData draw data addr self).2 addr =
      peerDatagram self.config addr draw data (peerView self addr) := by
  rw [peerView.eq_def self, ← peerDatagram_bare]
  have hignored (hrun : (handleUdpData draw data addr self).2 = self)
      (hpeer : peerDatagram self.config addr draw data (self.clients.lookup addr) =
        self.clients.lookup addr) :
      peerView (handleUdpData draw data addr self).2 addr =
        (peerDatagram self.config addr draw data (self.clients.lookup addr)).map
          ClientSession.bare := by
    rw [hrun, hpeer]
    rfl
  by_cases hne : data.length < 1
  · exact hignored (by simp [handleUdpData, hne]) (by rw [peerDatagram, if_pos hne])
  by_cases hreset : data.headD 0 = Opcode.hardResetClient.value
  · obtain ⟨effects, hrun⟩ := handleReset_run draw haddr addr hreset
    rw [hrun, peerDatagram, if_neg hne, if_pos hreset]
    cases hentry : (self.clients.lookup addr <|>
        freshClient self.config draw.session addr none) with
    | none =>
      cases hcs : self.clients.lookup addr with
      | none =>
        rw [peerView, hcs]
        rfl
      | some cs =>
        rw [hcs] at hentry
        cases hentry
    | some cs => exact (peerView_insert rfl).trans (if_pos rfl)
  by_cases hack : data.headD 0 = Opcode.hardResetServer.value
  · have hrun : (handleUdpData draw data addr self).2 = self := by
      unfold handleUdpData
      simp only [if_neg hne, if_neg hreset, if_pos hack]
      rfl
    exact hignored hrun (by rw [peerDatagram, if_neg hne, if_neg hreset, if_pos hack])
  cases hcs : self.clients.lookup addr with
  | none =>
    rw [handleUdpData_unknown hcs hreset, peerView, hcs, peerDatagram, if_neg hne, if_neg hreset,
      if_neg hack]
    rfl
  | some cs =>
    obtain rfl := haddr addr cs hcs
    rw [handleUdpData_known hcs hne hreset hack, peerDatagram, if_neg hne, if_neg hreset,
      if_neg hack]
    simp only [Option.map_some]
    have hstored : (self.clients.insert cs.addr (cs.seen draw.now)).lookup
        (cs.seen draw.now).addr = some (cs.seen draw.now) := AList.lookup_insert _
    by_cases hcontrol : data.headD 0 = Opcode.control.value
    · rw [if_pos hcontrol, if_pos hcontrol]
      exact handleControl_view draw.coins data hstored
    rw [if_neg hcontrol, if_neg hcontrol]
    by_cases hdata : data.headD 0 = Opcode.data.value
    · rw [if_pos hdata, if_pos hdata]
      exact handleData_view draw.now data hstored
    · rw [if_neg hdata, if_neg hdata]
      exact (peerView_insert rfl).trans (if_pos rfl)

end Step

section Upkeep
variable {self : VpnServer P} {addr : Addr}

theorem keepalive_view (now : Time) (a : Addr) (haddr : Addressed self) :
    peerView (sendKeepalive now a self).2 addr =
      if a = addr then peerStep self.config addr (peerView self addr) (.keepalive now)
      else peerView self addr := by
  cases hcs : self.clients.lookup a with
  | none =>
    rw [sendKeepalive_absent now hcs]
    split
    · rename_i ha
      subst ha
      rw [peerView, hcs]
      rfl
    · rfl
  | some cs =>
    obtain rfl := haddr a cs hcs
    obtain ⟨effects, hrun⟩ := sendKeepalive_run now hcs
    have hview : peerView self cs.addr = some cs.bare := by
      rw [peerView, hcs]
      rfl
    have hlast : cs.bare.lastKeepalive = cs.lastKeepalive := rfl
    by_cases ha : cs.addr = addr
    · subst ha
      rw [hrun, if_pos rfl, hview, peerStep, Option.map_some, isReady_bare, hlast]
      split
      · exact (peerView_insert rfl).trans (if_pos rfl)
      · exact hview
    · rw [hrun, if_neg ha]
      split
      · exact (peerView_insert rfl).trans (if_neg ha)
      · rfl

def sweepClient (now : Time) (self : VpnServer P) (addr : Addr) : VpnServer P :=
  match self.clients.lookup addr with
  | none => self
  | some cs => { self with clients := self.clients.insert addr (cs.swept now) }

theorem sweepClient_lookup (now : Time) (self : VpnServer P) (a addr : Addr) :
    (sweepClient now self a).clients.lookup addr =
      if addr = a then (self.clients.lookup addr).map fun cs => cs.swept now
      else self.clients.lookup addr := by
  unfold sweepClient
  by_cases ha : addr = a
  · subst ha
    cases hcs : self.clients.lookup addr with
    | none => simp [hcs]
    | some cs => simp
  · cases self.clients.lookup a with
    | none => simp [ha]
    | some cs => simp [ha, AList.lookup_insert_ne ha]

/-- Rounds over different addresses sweep each of them once. -/
theorem sweepClients_lookup (now : Time) (addr : Addr) {keys : List Addr} (hnodup : keys.Nodup)
    (self : VpnServer P) :
    (keys.foldl (sweepClient now) self).clients.lookup addr =
      if addr ∈ keys then (self.clients.lookup addr).map fun cs => cs.swept now
      else self.clients.lookup addr := by
  induction keys generalizing self with
  | nil => exact (if_neg List.not_mem_nil).symm
  | cons a keys ih =>
    obtain ⟨hfresh, hnodup⟩ := List.nodup_cons.mp hnodup
    rw [List.foldl_cons, ih hnodup, sweepClient_lookup]
    by_cases ha : addr = a
    · subst ha
      rw [if_neg hfresh, if_pos rfl, if_pos List.mem_cons_self]
    · simp [ha]

theorem cleanupFragments_lookup (now : Time) (addr : Addr) (self : VpnServer P) :
    (cleanupAllFragments now self).clients.lookup addr =
      (self.clients.lookup addr).map fun cs => cs.swept now := by
  have hswept := sweepClients_lookup now addr self.clients.keys_nodup self
  have hrun : cleanupAllFragments now self = self.clients.keys.foldl (sweepClient now) self := rfl
  rw [hrun, hswept]
  by_cases hmem : addr ∈ self.clients.keys
  · rw [if_pos hmem]
  · rw [if_neg hmem, AList.lookup_eq_none.mpr fun hin => hmem (AList.mem_keys.mpr hin)]
    rfl

theorem tunReadable_view (nonces : Nat → Nonce) (packet : Bytes) (haddr : Addressed self) :
    peerView (onTunReadable nonces packet self).2 addr = peerView self addr := by
  cases hselect : selectClient self packet with
  | none => rw [onTunReadable_none hselect]
  | some found =>
    obtain ⟨cs, ch⟩ := found
    obtain ⟨-, -, hdata, ip, a, -, -, hcs⟩ := selectClient_eq_some hselect
    obtain rfl := haddr a cs hcs
    rw [onTunReadable_some hselect, peerView_insert rfl]
    split
    · rename_i ha
      subst ha
      rw [peerView, hcs]
      simp only [ClientSession.bare, hdata, Option.map_some, encrypt_unsent]
    · rfl

/-- One event of the server is one event of each peer's machine that sees it. -/
theorem serverStep_view (haddr : Addressed self) (e : ServerEvent P) (addr : Addr) :
    peerView (serverStep self e) addr = (peerEvent addr e).elim (peerView self addr)
      (peerStep self.config addr (peerView self addr)) := by
  have hother {a : Addr} {e' : PeerEvent P} (ha : ¬ a = addr) :
      (if a = addr then some e' else none).elim (peerView self addr)
        (peerStep self.config addr (peerView self addr)) = peerView self addr := by
    rw [if_neg ha]
    rfl
  cases e with
  | datagram draw data a =>
    by_cases ha : a = addr
    · subst ha
      simp only [serverStep, peerEvent, if_pos, Option.elim]
      exact datagram_view draw data haddr a
    · rw [peerEvent, hother ha]
      exact peerView_congr ((handleUdpData_step draw data a haddr).lookup_other haddr
        (Ne.symm ha))
  | tcpConnect draw a writer =>
    rw [serverStep, peerView_connect, peerEvent]
    by_cases ha : a = addr
    · rw [if_pos ha, if_pos ha]
      rfl
    · rw [if_neg ha, hother ha]
  | tcpDisconnect a =>
    rw [serverStep, peerEvent, peerView, removeClient_lookup]
    by_cases ha : a = addr
    · rw [if_pos ha, if_pos ha.symm]
      rfl
    · rw [if_neg (Ne.symm ha), hother ha]
      rfl
  | tunReadable nonces packet => exact tunReadable_view nonces packet haddr
  | cleanupStale now =>
    rw [serverStep, peerView, cleanupStale_lookup]
    exact peerStep_bare self.config addr (self.clients.lookup addr) (.cleanupStale now)
  | keepalive now a =>
    rw [serverStep, keepalive_view now a haddr, peerEvent]
    by_cases ha : a = addr
    · rw [if_pos ha, if_pos ha]
      rfl
    · rw [if_neg ha, hother ha]
  | cleanupFragments now =>
    rw [serverStep, peerView, cleanupFragments_lookup]
    exact peerStep_bare self.config addr (self.clients.lookup addr) (.cleanupFragments now)

end Upkeep

section Writes
variable {self : VpnServer P} {addr : Addr}

def Effect.isTunWrite : Effect → Bool
  | .tunWrite _ => true
  | _ => false

theorem tunWrite_unsent (addr : Addr) : Unsent Effect.isTunWrite addr :=
  ⟨fun _ => rfl, fun _ _ => rfl⟩

def serverWrites (self : VpnServer P) : ServerEvent P → List (Addr × Bytes)
  | .datagram draw data addr =>
    (peerWrites (self.clients.lookup addr) (.datagram draw data)).map fun packet => (addr, packet)
  | _ => []

theorem datagram_writes (draw : Draw P) (data : Bytes) (a : Addr) :
    (handleUdpData draw data a self).2.effects.filter Effect.isTunWrite =
      self.effects.filter Effect.isTunWrite ++
        (peerWrites (self.clients.lookup a) (.datagram draw data)).map .tunWrite := by
  by_cases hdata : data.headD 0 = Opcode.data.value
  · obtain ⟨hne, hreset, hack⟩ := opcode_cases (.inr hdata)
    have hcontrol : data.headD 0 ≠ Opcode.control.value := by
      rw [hdata]
      decide
    have hwritten (l : List Bytes) :
        (l.map Effect.tunWrite).filter Effect.isTunWrite = l.map Effect.tunWrite := by
      induction l with
      | nil => rfl
      | cons b l ih => exact congrArg (Effect.tunWrite b :: ·) ih
    rw [peerWrites, if_pos hdata]
    cases hcs : self.clients.lookup a with
    | none =>
      rw [handleUdpData_unknown hcs hreset]
      exact (List.append_nil _).symm
    | some cs =>
      rw [handleUdpData_known hcs hne hreset hack, if_neg hcontrol, if_pos hdata]
      cases hready : cs.isReady with
      | false =>
        have hseen : (cs.seen draw.now).isReady = false := hready
        rw [handleData_waits hseen]
        simp [Option.filter, hready]
      | true =>
        obtain ⟨ch, hch⟩ := ClientSession.isReady_data hready
        have hseen : (cs.seen draw.now).isReady = true := hready
        have hdata : (cs.seen draw.now).data = some ch := hch
        rw [handleData_ready hdata hseen]
        simp [Option.filter, hready, hch, hwritten]
  · rw [peerWrites_other _ draw hdata, List.map_nil, List.append_nil]
    exact handleUdpData_sameLog (tunWrite_unsent a) (fun cs _ => tunWrite_unsent cs.addr) draw
      (fun _ _ => rfl) (absurd · hdata)

theorem serverStep_writes (e : ServerEvent P) :
    (serverStep self e).effects.filter Effect.isTunWrite =
      self.effects.filter Effect.isTunWrite ++
        (serverWrites self e).map fun w => .tunWrite w.2 := by
  have hquiet {self' : VpnServer P} (h : SameLog Effect.isTunWrite self self') :
      self'.effects.filter Effect.isTunWrite = self.effects.filter Effect.isTunWrite ++ [] := by
    rw [List.append_nil]
    exact h
  cases e with
  | datagram draw data a =>
    rw [serverWrites, List.map_map]
    exact datagram_writes draw data a
  | tcpConnect draw a writer => exact hquiet (getOrCreateSession_sameLog draw a (some writer) self)
  | tcpDisconnect a => exact hquiet (removeClient_sameLog (fun _ => rfl) (fun _ => rfl) a self)
  | tunReadable nonces packet => exact hquiet (onTunReadable_sameLog nonces packet self)
  | cleanupStale now =>
    exact hquiet (foldl_sameLog
      (fun server a => removeClient_sameLog (fun _ => rfl) (fun _ => rfl) a server) _ self)
  | keepalive now a => exact hquiet (sendKeepalive_sameLog (fun cs _ => tunWrite_unsent cs.addr) now)
  | cleanupFragments now =>
    obtain ⟨clients, hrun⟩ := cleanupAllFragments_frame now self
    rw [serverStep, hrun]
    exact hquiet rfl

theorem serverWrites_of (self : VpnServer P) (e : ServerEvent P) (addr : Addr) :
    eventsOf addr (serverWrites self e) =
      (peerEvent addr e).elim [] (peerWrites (peerView self addr)) := by
  cases e with
  | datagram draw data a =>
    rw [serverWrites, peerEvent, eventsOf, List.filterMap_map]
    by_cases ha : a = addr
    · subst ha
      rw [if_pos rfl, Option.elim, peerView, peerWrites_bare]
      simp
    · rw [if_neg ha]
      simp [ha]
  | tcpConnect draw a writer => by_cases ha : a = addr <;> simp [peerEvent, ha] <;> rfl
  | tcpDisconnect a => by_cases ha : a = addr <;> simp [peerEvent, ha] <;> rfl
  | tunReadable nonces packet => rfl
  | cleanupStale now => rfl
  | keepalive now a => by_cases ha : a = addr <;> simp [peerEvent, ha] <;> rfl
  | cleanupFragments now => rfl

end Writes

/-- Each peer's entry is what a machine of its own makes of that peer's packets and the
timers, and the TUN gets an interleaving of what the machines write. -/
theorem peers_isolated {self : VpnServer P} (hself : ServerReachable self)
    (events : List (ServerEvent P)) :
    (∀ addr, peerView (run serverStep events self) addr =
      run (peerStep self.config addr) (events.filterMap (peerEvent addr)) (peerView self addr)) ∧
    ∃ writes : List (Addr × Bytes),
      (run serverStep events self).effects.filter Effect.isTunWrite =
        self.effects.filter Effect.isTunWrite ++ writes.map (fun w => .tunWrite w.2) ∧
      ∀ addr, eventsOf addr writes = emitted (peerStep self.config addr) peerWrites
        (events.filterMap (peerEvent addr)) (peerView self addr) := by
  have hstep (s : VpnServer P) (e : ServerEvent P) (h : SessionsHave self.config (fun _ => True) s)
      (addr : Addr) : peerView (serverStep s e) addr = (peerEvent addr e).elim (peerView s addr)
        (peerStep self.config addr (peerView s addr)) := by
    rw [serverStep_view h.addressed, h.config]
  have hkept (s : VpnServer P) (e : ServerEvent P)
      (h : SessionsHave self.config (fun _ => True) s) :
      SessionsHave self.config (fun _ => True) (serverStep s e) :=
    h.step (sessionRule_trivial self.config) trivial
  have hinv : SessionsHave self.config (fun _ => True) self :=
    ⟨rfl, hself.tables.addressed, fun _ _ _ => trivial⟩
  refine ⟨fun addr => project_run (fun s => peerView s addr) hkept (fun s e h => hstep s e h addr) events
      hinv,
    emitted serverStep serverWrites events self, ?_, fun addr => ?_⟩
  · rw [emitted_map]
    exact log_run (fun s => s.effects.filter Effect.isTunWrite) hkept
      (fun s e _ => serverStep_writes e) events hinv
  · exact project_emitted (fun s => peerView s addr) hkept (fun s e h => hstep s e h addr)
      (fun s e _ => serverWrites_of s e addr) events hinv

namespace Transparent

def stranger : Addr := { peer with port := 40001 }

theorem peers_isolated_stranger :
    peerView (run serverStep [.datagram ⟨draw 6, []⟩ (resetPacket 8) stranger,
      .cleanupStale 1] served) peer =
      run (peerStep served.config peer) [.cleanupStale 1] (peerView served peer) :=
  (peers_isolated served_reachable [.datagram ⟨draw 6, []⟩ (resetPacket 8) stranger,
    .cleanupStale 1]).1 peer

end Transparent

end PyVpn
