import PyVpn.Framing
import PyVpn.ServerUpkeep

/-! Which callback hands over which kind of effect. A kind is a test on effects; what a
callback adds of it is read off the filtered log. -/
namespace PyVpn
variable {P : Primitives}

def SameLog (kind : Effect → Bool) (self self' : VpnServer P) : Prop :=
  self'.effects.filter kind = self.effects.filter kind

instance (kind : Effect → Bool) : IsPreorder (VpnServer P) (SameLog kind) where
  refl := fun _ => rfl
  trans := fun _ _ _ h k => Eq.trans k h

/-- Packets sent to this peer are not of this kind. -/
structure Unsent (kind : Effect → Bool) (addr : Addr) : Prop where
  sendto : ∀ data, kind (.sendto data addr) = false
  writerWrite : ∀ writer data, kind (.writerWrite writer data) = false

section
variable {kind : Effect → Bool}

theorem emit_sameLog {e : Effect} (h : kind e = false) :
    (emit (P := P) e).Keeps (SameLog kind) := by
  intro self
  simp only [SameLog, emit, Py.assign_run, List.filter_append, List.filter_cons, h,
    List.filter_nil, List.append_nil, Bool.false_eq_true, if_false]

theorem storeClient_sameLog (cs : ClientSession P) : (storeClient cs).Keeps (SameLog kind) :=
  fun _ => rfl

theorem syncSendTo_sameLog {cs : ClientSession P} (hkind : Unsent kind cs.addr) (data : Bytes) :
    (syncSendTo cs data).Keeps (SameLog kind) := by
  refine Py.Keeps.self fun self => ?_
  have hdatagram : (if self.transport then emit (.sendto data cs.addr) else return () :
      Py (VpnServer P) Unit).Keeps (SameLog kind) :=
    Py.Keeps.ite (emit_sameLog (hkind.sendto data)) (Py.Keeps.pure ())
  cases self.config.isTcp with
  | false => exact hdatagram
  | true =>
    cases cs.writer with
    | none => exact hdatagram
    | some writer =>
      exact (Py.Keeps.ofExcept _).bind fun frame => emit_sameLog (hkind.writerWrite writer frame)

theorem getOrCreateSession_sameLog (draw : SessionDraw P) (addr : Addr) (writer : Option Nat) :
    (getOrCreateSession draw addr writer).Keeps (SameLog kind) := by
  intro self
  obtain ⟨e, hrun⟩ | ⟨cs, -, hrun⟩ | ⟨cs, -, -, hrun⟩ :=
    getOrCreateSession_cases draw addr writer self
  · rw [hrun]
    exact refl_of (SameLog kind) self
  · rw [hrun]
    exact refl_of (SameLog kind) self
  · rw [hrun]
    rfl

theorem callHandler_sameLog {cs : ClientSession P} (hkind : Unsent kind cs.addr)
    (handler : Py (Session P) (List Bytes)) :
    (callHandler cs handler).Keeps (SameLog kind) := by
  refine Py.Keeps.bind (storeClient_sameLog _) fun _ => ?_
  refine (Py.Keeps.ofExcept _).bind fun packets => ?_
  exact (Py.Keeps.forM (syncSendTo_sameLog hkind) packets).bind fun _ => Py.Keeps.pure _

theorem assignIpToClient_sameLog (cs : ClientSession P) (hkind : Unsent kind cs.addr)
    (hroute : ∀ ip, kind (.addRoute ip) = false) :
    (assignIpToClient cs).Keeps (SameLog kind) := by
  refine Py.Keeps.self fun self => ?_
  cases self.ipPool with
  | none => exact Py.Keeps.pure none
  | some pool =>
    refine Py.Keeps.bind (fun _ => rfl) fun _ => ?_
    cases (pool.allocate cs.clientId).1 with
    | none => exact Py.Keeps.pure none
    | some ip =>
      refine (storeClient_sameLog _).bind fun _ => Py.Keeps.bind (fun _ => rfl) fun _ => ?_
      exact (syncSendTo_sameLog hkind _).bind fun _ =>
        (emit_sameLog (hroute ip)).bind fun _ => Py.Keeps.pure _

theorem openDataChannel_sameLog {cs : ClientSession P} (hkind : Unsent kind cs.addr)
    (hroute : ∀ ip, kind (.addRoute ip) = false) :
    (openDataChannel cs).Keeps (SameLog kind) := by
  have hassign (cs' : ClientSession P) (haddr : cs'.addr = cs.addr) :
      (assignIpToClient cs').Keeps (SameLog kind) :=
    assignIpToClient_sameLog cs' (haddr.symm ▸ hkind) hroute
  refine Py.Keeps.self fun self => Py.Keeps.ite ?_ (Py.Keeps.pure ())
  refine (storeClient_sameLog _).bind fun _ => (hassign _ ?_).bind fun _ => Py.Keeps.pure ()
  rfl

theorem callThenOpen_sameLog {cs : ClientSession P} (hkind : Unsent kind cs.addr)
    (hroute : ∀ ip, kind (.addRoute ip) = false) (handler : Py (Session P) (List Bytes)) :
    (callHandler cs handler >>= openDataChannel).Keeps (SameLog kind) := by
  intro self
  obtain ⟨r, effects, hrun, hreturned⟩ := callHandler_run cs handler self
  have hcalled := callHandler_sameLog hkind handler self
  rw [Py.bind_run]
  rw [hrun] at hcalled ⊢
  cases r with
  | error e => exact hcalled
  | ok cs' =>
    obtain rfl := hreturned cs' rfl
    have hsame : Unsent kind { cs with session := (handler cs.session).2 }.addr := hkind
    exact trans_of (SameLog kind) hcalled (openDataChannel_sameLog hsame hroute _)

theorem handleControl_sameLog {cs : ClientSession P} (hkind : Unsent kind cs.addr)
    (hroute : ∀ ip, kind (.addRoute ip) = false) (coins data : Bytes) :
    (handleControl coins cs data).Keeps (SameLog kind) := by
  unfold handleControl
  cases decodePacket data with
  | error e => exact Py.Keeps.pure ()
  | ok r =>
    obtain ⟨opcode, sid, payload⟩ := r
    refine Py.Keeps.ite (Py.Keeps.pure ()) ((Py.Keeps.ofExcept _).bind fun msgType => ?_)
    cases controlHandler coins msgType (payload.drop 1) with
    | none => exact Py.Keeps.pure ()
    | some handler => exact callThenOpen_sameLog hkind hroute handler

theorem handleData_sameLog (hwrite : ∀ packet, kind (.tunWrite packet) = false) (now : Time)
    (cs : ClientSession P) (data : Bytes) : (handleData now cs data).Keeps (SameLog kind) := by
  unfold handleData
  cases cs.data with
  | none => exact Py.Keeps.pure ()
  | some ch =>
    refine Py.Keeps.ite ?_ (Py.Keeps.pure ())
    have hopened : (onChannel cs ch (decrypt P now data)).Keeps (SameLog kind) :=
      (storeClient_sameLog _).bind fun _ => Py.Keeps.ofExcept _
    exact hopened.bind fun plain => Py.Keeps.ite (emit_sameLog (hwrite _)) (Py.Keeps.pure ())

theorem handleUdpData_sameLog {self : VpnServer P} {a : Addr} (hkind : Unsent kind a)
    (hknown : ∀ cs, self.clients.lookup a = some cs → Unsent kind cs.addr) (draw : Draw P)
    {data : Bytes}
    (hroute : data.headD 0 = Opcode.control.value → ∀ ip, kind (.addRoute ip) = false)
    (hwrite : data.headD 0 = Opcode.data.value → ∀ packet, kind (.tunWrite packet) = false) :
    SameLog kind self (handleUdpData draw data a self).2 := by
  have hquiet : SameLog kind self self := refl_of (SameLog kind) self
  by_cases hempty : data.length < 1
  · simp only [handleUdpData, if_pos hempty]
    exact hquiet
  by_cases hreset : data.headD 0 = Opcode.hardResetClient.value
  · simp only [handleUdpData, if_neg hempty, if_pos hreset]
    obtain ⟨e, hrun⟩ | ⟨cs, hcs, hrun⟩ | ⟨cs, hnone, hfresh, hrun⟩ :=
      getOrCreateSession_cases draw.session a none self
    · rw [Py.bind_run, hrun]
      exact hquiet
    · rw [Py.bind_run, hrun]
      exact ((callHandler_sameLog (hknown cs hcs) _).bind fun _ => Py.Keeps.pure ()) self
    · rw [Py.bind_run, hrun]
      have hsame : Unsent kind cs.addr := hfresh.addr_eq.symm ▸ hkind
      exact ((callHandler_sameLog hsame (serverHandleReset draw.now data)).bind fun _ =>
        Py.Keeps.pure ()) { self with clients := self.clients.insert a cs }
  by_cases hack : data.headD 0 = Opcode.hardResetServer.value
  · simp only [handleUdpData, if_neg hempty, if_neg hreset, if_pos hack]
    exact hquiet
  cases hcs : self.clients.lookup a with
  | none =>
    rw [handleUdpData_unknown hcs hreset]
    exact hquiet
  | some cs =>
    have hsame : Unsent kind (cs.seen draw.now).addr := hknown cs hcs
    rw [handleUdpData_known hcs (fun hnil => hempty (by simp [hnil])) hreset hack]
    by_cases hcontrol : data.headD 0 = Opcode.control.value
    · rw [if_pos hcontrol]
      exact handleControl_sameLog hsame (hroute hcontrol) draw.coins data _
    rw [if_neg hcontrol]
    by_cases hdata : data.headD 0 = Opcode.data.value
    · rw [if_pos hdata]
      exact handleData_sameLog (hwrite hdata) draw.now _ data _
    · rw [if_neg hdata]
      exact refl_of (SameLog kind) self

theorem sendKeepalive_sameLog {self : VpnServer P} {a : Addr}
    (hknown : ∀ cs, self.clients.lookup a = some cs → Unsent kind cs.addr) (now : Time) :
    SameLog kind self (sendKeepalive now a self).2 := by
  unfold sendKeepalive
  rw [Py.bind_run, Py.self_run]
  simp only
  cases hcs : self.clients.lookup a with
  | none => exact refl_of (SameLog kind) self
  | some cs =>
    refine Py.Keeps.ite (R := SameLog kind) ?_ (Py.Keeps.pure ()) self
    exact (syncSendTo_sameLog (hknown cs hcs) _).bind fun _ => storeClient_sameLog _

theorem removeClient_sameLog (hdelete : ∀ ip, kind (.deleteRoute ip) = false)
    (hclose : ∀ writer, kind (.writerClose writer) = false) (a : Addr) (self : VpnServer P) :
    SameLog kind self (removeClient a self) := by
  have hreleased (server : VpnServer P) (cs : ClientSession P) :
      SameLog kind server (releaseAddress server cs) := by
    unfold releaseAddress
    cases cs.virtualIp with
    | none => rfl
    | some ip =>
      by_cases hmem : ip ∈ server.ipToAddr
      · simp only [if_pos hmem, SameLog, List.filter_append, List.filter_cons, hdelete,
          Bool.false_eq_true, if_false, List.filter_nil, List.append_nil]
      · simp only [if_neg hmem]
        rfl
  have hclosed (writers : List Nat) : (writers.map Effect.writerClose).filter kind = [] := by
    induction writers with
    | nil => rfl
    | cons writer writers ih =>
      rw [List.map_cons, List.filter_cons, hclose, if_neg Bool.false_ne_true, ih]
  unfold removeClient
  cases self.clients.lookup a with
  | none => rfl
  | some cs =>
    refine trans_of (SameLog kind) (hreleased { self with clients := self.clients.erase a } cs) ?_
    simp only [SameLog, List.filter_append, hclosed, List.append_nil]

theorem onTunReadable_sameLog (nonces : Nat → Nonce) (packet : Bytes) :
    (onTunReadable (P := P) nonces packet).Keeps (SameLog kind) := by
  intro self
  cases hselect : selectClient self packet with
  | none =>
    rw [onTunReadable_none hselect]
    exact refl_of (SameLog kind) self
  | some found =>
    rw [onTunReadable_some hselect]
    rfl

theorem foldl_sameLog {α : Type} {f : VpnServer P → α → VpnServer P}
    (h : ∀ self a, SameLog kind self (f self a)) (l : List α) (self : VpnServer P) :
    SameLog kind self (l.foldl f self) := by
  induction l generalizing self with
  | nil => rfl
  | cons a l ih => exact trans_of (SameLog kind) (h self a) (ih (f self a))

theorem cleanupAllFragments_frame (now : Time) (self : VpnServer P) :
    ∃ clients, cleanupAllFragments now self = { self with clients := clients } := by
  unfold cleanupAllFragments
  generalize self.clients.keys = keys
  induction keys generalizing self with
  | nil => exact ⟨self.clients, rfl⟩
  | cons a keys ih =>
    rw [List.foldl_cons]
    cases self.clients.lookup a with
    | none => exact ih self
    | some cs =>
      obtain ⟨clients, hrun⟩ := ih { self with
        clients := self.clients.insert a { cs with data := cs.data.map (cleanupFragments now) } }
      exact ⟨clients, hrun⟩

theorem syncSendTo_returns (cs : ClientSession P) {data : Bytes} (h : data.length ≤ 65535)
    (self : VpnServer P) :
    ∃ effects, syncSendTo cs data self = (.ok (), { self with effects := effects }) := by
  obtain ⟨r, effects, hrun⟩ := EffectOnly.of_keeps (syncSendTo_keeps cs data) self
  refine ⟨effects, ?_⟩
  have hdatagram : ((if self.transport then emit (.sendto data cs.addr) else return () :
      Py (VpnServer P) Unit) self).1 = .ok () := by
    split
    · rfl
    · rfl
  have hreturns : (syncSendTo cs data self).1 = .ok () := by
    unfold syncSendTo
    rw [Py.bind_run]
    simp only [Py.self_run]
    cases self.config.isTcp with
    | false => exact hdatagram
    | true =>
      cases cs.writer with
      | none => exact hdatagram
      | some writer =>
        simp only [Py.bind_run, framePacket_run h, Py.ofExcept_run]
        rfl
  rw [hrun] at hreturns ⊢
  simp only at hreturns
  rw [hreturns]

theorem sendKeepalive_absent (now : Time) {a : Addr} {self : VpnServer P}
    (hcs : self.clients.lookup a = none) : sendKeepalive now a self = (.ok (), self) := by
  unfold sendKeepalive
  rw [Py.bind_run]
  simp only [Py.self_run, hcs]
  rfl

theorem sendKeepalive_run (now : Time) {self : VpnServer P} {cs : ClientSession P}
    (hcs : self.clients.lookup cs.addr = some cs) :
    ∃ effects, (sendKeepalive now cs.addr self).2 =
      if cs.isReady && decide (now - cs.lastKeepalive ≥ self.config.keepaliveInterval) then
        { self with
          clients := self.clients.insert cs.addr { cs with lastKeepalive := now }
          effects := effects }
      else self := by
  unfold sendKeepalive
  rw [Py.bind_run]
  simp only [Py.self_run, hcs]
  by_cases hdue :
      (cs.isReady && decide (now - cs.lastKeepalive ≥ self.config.keepaliveInterval)) = true
  · have hlength : (encodePacket .control cs.session.sid
        [MessageType.keepalive.value]).length ≤ 65535 := by
      simp [encodePacket]
    obtain ⟨effects, hsend⟩ := syncSendTo_returns cs hlength self
    refine ⟨effects, ?_⟩
    simp only [if_pos hdue, sendTo, Coroutine.await, Py.bind_run, hsend]
    rfl
  · refine ⟨self.effects, ?_⟩
    rw [if_neg hdue, if_neg hdue]
    rfl

end
end PyVpn
