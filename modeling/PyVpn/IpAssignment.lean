import PyVpn.ChannelMatch

/-! When a client takes an address. `IP_ASSIGN` is served in every state of the
handshake: nothing but the order of the datagrams keeps it inside the session. What the system
refuses while the address is configured is part of the datagram that brings it. -/
namespace PyVpn
open EventRun
variable {P : Primitives}

def ClientEffect.configures : ClientEffect → Bool
  | .tunSetIp _ => true
  | .command _ => true
  | _ => false

def SameAddress (self self' : VpnClient P) : Prop :=
  self'.assignedIp = self.assignedIp ∧ self'.connected = self.connected ∧
    self'.routesAdded = self.routesAdded ∧
    self'.effects.filter ClientEffect.configures = self.effects.filter ClientEffect.configures

instance : IsPreorder (VpnClient P) SameAddress where
  refl := fun _ => ⟨rfl, rfl, rfl, rfl⟩
  trans := fun _ _ _ h k =>
    ⟨k.1.trans h.1, k.2.1.trans h.2.1, k.2.2.1.trans h.2.2.1, k.2.2.2.trans h.2.2.2⟩

abbrev KeepsAddress {α : Type} (method : Py (VpnClient P) α) : Prop := method.Keeps SameAddress

def ipAssigned (data : Bytes) : Option String :=
  if data.headD 0 = Opcode.control.value then
    match decodePacket data with
    | .error _ => none
    | .ok (_, _, payload) =>
      match MessageType.ofValue (payload.headD 0) with
      | .ok .ipAssign => (VpnClient.decodeUtf8 (payload.drop 1)).toOption
      | _ => none
  else none

/-- `handle_udp_data`, where an address meets these faults. -/
def VpnClient.handleUdpDataWith (faults : AssignFaults) (now : Time) (coins data : Bytes) :
    Py (VpnClient P) Unit :=
  match ipAssigned data with
  | some ip => do
    Py.assign fun self => { self with lastSeen := now }
    VpnClient.handleIpAssignWith faults ip
  | none => VpnClient.handleUdpData now coins data

/-- An event, with what the system refuses in it. -/
def clientStepWith (self : VpnClient P) (e : AssignFaults × ClientEvent P) : VpnClient P :=
  match e.2 with
  | .datagram now coins data => (VpnClient.handleUdpDataWith e.1 now coins data self).2
  | _ => clientStep self e.2

/-- `set_ip` refuses the text before it starts a command: it has more than one slash, or an
argument of the command has a NUL in it. -/
def SetIpRefuses (config : Config) (ip : String) : Prop :=
  2 ≤ ip.toList.count '/' ∨ ¬ Runnable [VpnClient.assignedCidr config ip, config.dev]

def subnetRoute (config : Config) : List String :=
  let ifconfig := config.ifconfig.getD ""
  let serverNet := if ifconfig = "" then "10.8.0.0" else (VpnClient.splitSlash ifconfig).headD ""
  ["ip", "route", "add", VpnClient.beforeLastDot serverNet ++ ".0/24", "dev", config.dev]

/-- What a call of `_handle_ip_assign` comes to. -/
inductive Assigns (faults : AssignFaults) (ip : String) (client : VpnClient P) :
    Except PyError Unit × VpnClient P → Prop
  | refused (hrefused : SetIpRefuses client.config ip) : Assigns faults ip client
      (.error .valueError, { client with assignedIp := some ip, connected := true })
  | failed (e : PyError) (hstarts : ¬ SetIpRefuses client.config ip)
      (hfails : faults.setIp ≠ none ∨ ¬ Runnable (subnetRoute client.config)) :
      Assigns faults ip client (.error e, { client with
        assignedIp := some ip, connected := true
        effects := client.effects ++ [.tunSetIp (VpnClient.assignedCidr client.config ip)] })
  | routed (result : Except PyError Unit) (more : List ClientEffect) (routes : List (List String))
      (hstarts : ¬ SetIpRefuses client.config ip) (hset : faults.setIp = none)
      (hroute : Runnable (subnetRoute client.config))
      (hdrop : result = .ok () ↔
        (truthy client.config.user = true → faults.dropPrivileges = none)) :
      Assigns faults ip client (result, { client with
        assignedIp := some ip, connected := true
        effects := client.effects ++ .tunSetIp (VpnClient.assignedCidr client.config ip) :: more
        routesAdded := client.routesAdded ++ subnetRoute client.config :: routes })

/-- An address arrives in an established session only; or it is the present one again,
in a form that `set_ip` refuses. -/
def AssignedInside (self : VpnClient P) (e : AssignFaults × ClientEvent P) : Prop :=
  match e.2 with
  | .datagram _ _ data => ∀ ip, ipAssigned data = some ip →
      self.session.isEstablished = true ∨
        (self.assignedIp = some ip ∧ self.connected = true ∧ SetIpRefuses self.config ip)
  | _ => True

/-- What a datagram does to the address, it does inside an established session. -/
def ChangedInside (self : VpnClient P) (e : AssignFaults × ClientEvent P) : Prop :=
  match e.2 with
  | .datagram .. => self.session.isEstablished = true ∨ SameAddress self (clientStepWith self e)
  | _ => True

def ClientEvent.isAttempt : ClientEvent P → Bool
  | .attempt _ => true
  | _ => false

/-- The handshake of the present connection attempt was completed at some time. -/
def CompletedOnce (self : VpnClient P) (events : List (AssignFaults × ClientEvent P)) : Prop :=
  ∃ before since, events = before ++ since ∧ (∀ e ∈ since, e.2.isAttempt = false) ∧
    (run clientStepWith before self).session.isEstablished = true

section Slashes

theorem splitOn_length (sep : Char) (l : List Char) :
    (l.splitOn sep).length = l.count sep + 1 := by
  induction l with
  | nil => rfl
  | cons c l ih =>
    rw [List.splitOn_cons_eq_if_modifyHead, List.count_cons]
    split
    · rw [List.length_cons, ih]
    · rw [List.length_modifyHead, ih, Nat.add_zero]

theorem not_mem_of_mem_splitOn (sep : Char) {l part : List Char} (h : part ∈ l.splitOn sep) :
    sep ∉ part := by
  induction l generalizing part with
  | nil =>
    rw [List.splitOn_nil, List.mem_singleton] at h
    rw [h]
    exact List.not_mem_nil
  | cons c l ih =>
    rw [List.splitOn_cons_eq_if_modifyHead] at h
    split at h
    · cases List.mem_cons.mp h with
      | inl hpart =>
        rw [hpart]
        exact List.not_mem_nil
      | inr hmem => exact ih hmem
    · rename_i hc
      cases hsplit : l.splitOn sep with
      | nil => exact absurd hsplit (List.splitOn_ne_nil sep l)
      | cons first rest =>
        rw [hsplit, List.modifyHead_cons] at h
        cases List.mem_cons.mp h with
        | inl hpart =>
          have hfirst := ih (hsplit ▸ List.mem_cons_self)
          have hne : sep ≠ c := by
            intro heq
            subst heq
            exact hc (by simp)
          rw [hpart]
          exact List.not_mem_cons_of_ne_of_not_mem hne hfirst
        | inr hmem => exact ih (hsplit ▸ List.mem_cons_of_mem first hmem)

theorem splitSlash_length (s : String) :
    (VpnClient.splitSlash s).length = s.toList.count '/' + 1 := by
  rw [VpnClient.splitSlash, List.length_map, splitOn_length]

theorem splitSlash_getD (s : String) (i : Nat) :
    '/' ∉ ((VpnClient.splitSlash s).getD i "").toList := by
  unfold VpnClient.splitSlash
  rw [List.getD_eq_getElem?_getD]
  cases hpart : ((s.toList.splitOn '/').map String.ofList)[i]? with
  | none => simp
  | some part =>
    obtain ⟨chars, hchars, rfl⟩ := List.mem_map.mp (List.mem_of_getElem? hpart)
    simpa using not_mem_of_mem_splitOn '/' hchars

end Slashes

section Frames

theorem emit_sameAddress {e : ClientEffect} (h : e.configures = false) :
    KeepsAddress (P := P) (VpnClient.emit e) := by
  intro self
  refine ⟨rfl, rfl, rfl, ?_⟩
  simp [VpnClient.emit, h]

theorem syncSend_sameAddress (data : Bytes) : KeepsAddress (P := P) (VpnClient.syncSend data) :=
  syncSend_frame (fun _ => emit_sameAddress rfl) (fun _ => emit_sameAddress rfl) data

theorem callHandler_sameAddress (handler : Py (Session P) (List Bytes)) :
    KeepsAddress (VpnClient.callHandler handler) :=
  callHandler_frame (fun _ _ => ⟨rfl, rfl, rfl, rfl⟩) syncSend_sameAddress handler

theorem handleData_sameAddress (now : Time) (data : Bytes) :
    KeepsAddress (P := P) (VpnClient.handleData now data) :=
  handleData_frame (fun _ _ => ⟨rfl, rfl, rfl, rfl⟩) (fun _ => emit_sameAddress rfl) now data

theorem onTunReadable_sameAddress (nonces : Nat → Nonce) (packet : Bytes) :
    KeepsAddress (P := P) (VpnClient.onTunReadable nonces packet) :=
  onTunReadable_frame (fun _ _ => ⟨rfl, rfl, rfl, rfl⟩) syncSend_sameAddress nonces packet

end Frames

section Assigning
variable {self : VpnClient P} {ip : String}

/-- The text handed to `set_ip` is an address with one prefix, unless `ip` has several. -/
theorem assignedCidr_parts (config : Config) (ip : String) :
    (VpnClient.splitSlash (VpnClient.assignedCidr config ip)).length = 2 ↔
      ip.toList.count '/' < 2 := by
  unfold VpnClient.assignedCidr
  rw [splitSlash_length]
  by_cases hip : '/' ∈ ip.toList
  · have hpos := List.count_pos_iff.mpr hip
    simp only [if_pos hip]
    omega
  · have hnone := List.count_eq_zero.mpr hip
    have hprefix : (if '/' ∈ (config.ifconfig.getD "").toList then
        (VpnClient.splitSlash (config.ifconfig.getD "")).getD 1 "" else "24").toList.count '/' =
          0 := by
      split
      · exact List.count_eq_zero.mpr (splitSlash_getD (config.ifconfig.getD "") 1)
      · rfl
    simp only [if_neg hip, String.toList_append, List.count_append, hnone, hprefix]
    decide

theorem refused_iff (config : Config) (ip : String) :
    SetIpRefuses config ip ↔ ¬ TunInterface.Accepts config.dev (VpnClient.assignedCidr config ip) := by
  have hargs : Runnable ["ip", "addr", "add", VpnClient.assignedCidr config ip, "dev", config.dev] ↔
      Runnable [VpnClient.assignedCidr config ip, config.dev] := by
    simp [Runnable]
  rw [TunInterface.Accepts, assignedCidr_parts, hargs, not_and_or, SetIpRefuses, Nat.not_lt]

theorem maybeDropPrivileges_run (P : Primitives) (faults : AssignFaults)
    (username : Option String) :
    ∃ result, (∀ client : VpnClient P,
      VpnClient.maybeDropPrivileges faults username client = (result, client)) ∧
      (result = .ok () ↔ (truthy username = true → faults.dropPrivileges = none)) := by
  unfold VpnClient.maybeDropPrivileges
  cases truthy username with
  | false => exact ⟨.ok (), fun _ => rfl, iff_of_true rfl fun h => by cases h⟩
  | true =>
    cases hdrop : faults.dropPrivileges with
    | none => exact ⟨.ok (), fun _ => rfl, iff_of_true rfl fun _ => rfl⟩
    | some e =>
      exact ⟨.error e, fun _ => rfl, iff_of_false (fun h => by cases h) fun h => by cases h rfl⟩

theorem addRoute_run {cmd : List String} (h : Runnable cmd) (client : VpnClient P) :
    VpnClient.addRoute cmd client = (.ok (), { client with
      effects := client.effects ++ [.command cmd], routesAdded := client.routesAdded ++ [cmd] }) := by
  simp only [VpnClient.addRoute, VpnClient.runCommand, if_pos h, VpnClient.emit, Py.bind_run,
    Py.assign_run]

theorem addRoute_refused {cmd : List String} (h : ¬ Runnable cmd) (client : VpnClient P) :
    VpnClient.addRoute cmd client = (.error .valueError, client) := by
  simp only [VpnClient.addRoute, VpnClient.runCommand, if_neg h, Py.bind_run, Py.raise_run]

theorem handleIpAssignWith_assigns (faults : AssignFaults) (ip : String) (client : VpnClient P) :
    Assigns faults ip client (VpnClient.handleIpAssignWith faults ip client) := by
  unfold VpnClient.handleIpAssignWith VpnClient.setIp TunInterface.setIp
  simp only [Py.bind_run, Py.assign_run, Py.self_run]
  by_cases haccepts : TunInterface.Accepts client.config.dev (VpnClient.assignedCidr client.config ip)
  swap
  · simp only [if_neg haccepts, Py.raise_run]
    exact .refused ((refused_iff _ _).mpr haccepts)
  have hstarts : ¬ SetIpRefuses client.config ip := fun hrefused => (refused_iff _ _).mp hrefused haccepts
  simp only [if_pos haccepts, VpnClient.emit, Py.bind_run, Py.assign_run]
  cases hset : faults.setIp with
  | some e => exact .failed e hstarts (.inl (by rw [hset]; exact Option.some_ne_none e))
  | none =>
    simp only [Py.raiseFault, Py.pure_run]
    by_cases hroute : Runnable (subnetRoute client.config)
    swap
    · have hrefused := addRoute_refused (P := P) hroute
      unfold subnetRoute at hrefused
      simp only [hrefused]
      exact .failed .valueError hstarts (.inr hroute)
    have hadded := addRoute_run (P := P) hroute
    unfold subnetRoute at hadded
    obtain ⟨result, hdropped, hdrop⟩ := maybeDropPrivileges_run P faults client.config.user
    simp only [hadded]
    split
    · -- the default route has the base and the device of the subnet route
      have hgateway : Runnable ["ip", "route", "add", "default", "via",
          VpnClient.beforeLastDot (if client.config.ifconfig.getD "" = "" then "10.8.0.0" else
            (VpnClient.splitSlash (client.config.ifconfig.getD "")).headD "") ++ ".1", "dev",
          client.config.dev, "metric", "50"] := by
        simpa [Runnable, subnetRoute] using hroute
      simp only [Py.bind_run, addRoute_run hgateway, hdropped, List.append_assoc]
      exact .routed result _ _ hstarts hset hroute hdrop
    · simp only [hdropped, List.append_assoc]
      exact .routed result _ _ hstarts hset hroute hdrop

/-- A command that was started is on the log. -/
theorem handleIpAssignWith_sameAddress_iff {faults : AssignFaults} :
    SameAddress self (VpnClient.handleIpAssignWith faults ip self).2 ↔
      self.assignedIp = some ip ∧ self.connected = true ∧ SetIpRefuses self.config ip := by
  have hstarted (more : List ClientEffect) : ¬ (self.effects ++
      .tunSetIp (VpnClient.assignedCidr self.config ip) :: more).filter ClientEffect.configures =
        self.effects.filter ClientEffect.configures := by
    rw [List.filter_append]
    intro heq
    have hlength := congrArg List.length heq
    rw [List.length_append, List.filter_cons_of_pos rfl, List.length_cons] at hlength
    omega
  have hassigns := handleIpAssignWith_assigns faults ip self
  generalize VpnClient.handleIpAssignWith faults ip self = out at hassigns
  cases hassigns with
  | refused hrefused =>
    constructor
    · intro h
      exact ⟨h.1.symm, h.2.1.symm, hrefused⟩
    · intro h
      exact ⟨h.1.symm, h.2.1.symm, rfl, rfl⟩
  | failed e hstarts hfails => exact iff_of_false (fun h => hstarted _ h.2.2.2) fun h => hstarts h.2.2
  | routed result more routes hstarts hset hroute hdrop =>
    exact iff_of_false (fun h => hstarted _ h.2.2.2) fun h => hstarts h.2.2

theorem sameAddress_seen (self : VpnClient P) (now : Time) (after : VpnClient P) :
    SameAddress { self with lastSeen := now } after ↔ SameAddress self after := Iff.rfl

theorem datagram_assigns (now : Time) (coins data : Bytes) (self : VpnClient P) :
    (ipAssigned data = none ∧ SameAddress self (clientStep self (.datagram now coins data))) ∨
      ∃ ip, ipAssigned data = some ip ∧ VpnClient.handleUdpData now coins data self =
        VpnClient.handleIpAssign ip { self with lastSeen := now } := by
  have hseen : SameAddress self { self with lastSeen := now } := ⟨rfl, rfl, rfl, rfl⟩
  have hkept {method : Py (VpnClient P) Unit} (h : KeepsAddress method) :
      SameAddress self (method { self with lastSeen := now }).2 := trans_of SameAddress hseen (h _)
  unfold clientStep VpnClient.handleUdpData ipAssigned
  by_cases hlen : data.length < 1
  · have hnil : data = [] := List.eq_nil_of_length_eq_zero (by omega)
    subst hnil
    exact .inl ⟨rfl, refl_of SameAddress self⟩
  simp only [if_neg hlen, Py.bind_run, Py.assign_run]
  by_cases hreset : data.headD 0 = Opcode.hardResetServer.value
  · have hcontrol : data.headD 0 ≠ Opcode.control.value := by
      rw [hreset]
      decide
    rw [if_pos hreset, if_neg hcontrol]
    exact .inl ⟨rfl, hkept (callHandler_sameAddress _)⟩
  rw [if_neg hreset]
  by_cases hcontrol : data.headD 0 = Opcode.control.value
  · simp only [if_pos hcontrol, VpnClient.handleControl]
    cases decodePacket data with
    | error e => exact .inl ⟨rfl, hseen⟩
    | ok r =>
      obtain ⟨opcode, sid, payload⟩ := r
      by_cases hempty : payload.length < 1
      · have hnil : payload = [] := List.eq_nil_of_length_eq_zero (by omega)
        subst hnil
        exact .inl ⟨rfl, hseen⟩
      simp only [if_neg hempty, Py.bind_run, Py.ofExcept_run]
      cases MessageType.ofValue (payload.headD 0) with
      | error e => exact .inl ⟨rfl, hseen⟩
      | ok msgType =>
        cases msgType with
        | ipAssign =>
          cases hutf8 : VpnClient.decodeUtf8 (payload.drop 1) with
          | error e => exact .inl ⟨rfl, by simpa [hutf8] using hseen⟩
          | ok ip => exact .inr ⟨ip, rfl, by simp⟩
        | serverHello => exact .inl ⟨rfl, hkept (callHandler_sameAddress _)⟩
        | keepalive =>
          exact .inl ⟨rfl, trans_of SameAddress hseen (syncSend_sameAddress _ _)⟩
        | clientHello => exact .inl ⟨rfl, hseen⟩
        | clientFinished => exact .inl ⟨rfl, hseen⟩
        | shutdown => exact .inl ⟨rfl, hseen⟩
  rw [if_neg hcontrol, if_neg hcontrol]
  by_cases hdata : data.headD 0 = Opcode.data.value
  · rw [if_pos hdata]
    exact .inl ⟨rfl, hkept (handleData_sameAddress now data)⟩
  · rw [if_neg hdata]
    exact .inl ⟨rfl, hseen⟩

theorem handleUdpDataWith_cases (faults : AssignFaults) (now : Time) (coins data : Bytes)
    (self : VpnClient P) :
    (ipAssigned data = none ∧
      SameAddress self (VpnClient.handleUdpDataWith faults now coins data self).2 ∧
      SameConfig self (VpnClient.handleUdpDataWith faults now coins data self).2) ∨
    ∃ ip, ipAssigned data = some ip ∧
      (VpnClient.handleUdpDataWith faults now coins data self).2 =
        (VpnClient.handleIpAssignWith faults ip { self with lastSeen := now }).2 := by
  unfold VpnClient.handleUdpDataWith
  cases hip : ipAssigned data with
  | some ip => exact .inr ⟨ip, rfl, by simp only [Py.bind_run, Py.assign_run]⟩
  | none =>
    obtain ⟨-, hsame⟩ | ⟨ip, hsome, -⟩ := datagram_assigns now coins data self
    · exact .inl ⟨rfl, hsame, handleUdpData_config now coins data self⟩
    · rw [hip] at hsome
      cases hsome

/-- Without faults a datagram is served as `handle_udp_data` serves it. -/
theorem handleUdpDataWith_quiet (now : Time) (coins data : Bytes) (self : VpnClient P) :
    VpnClient.handleUdpDataWith {} now coins data self =
      VpnClient.handleUdpData now coins data self := by
  unfold VpnClient.handleUdpDataWith
  obtain ⟨hnone, -⟩ | ⟨ip, hip, hrun⟩ := datagram_assigns now coins data self
  · rw [hnone]
  · rw [hip, hrun]
    rfl

/-- One event: exactly the assignments that come outside the session change something there. -/
theorem changedInside_iff (self : VpnClient P) (e : AssignFaults × ClientEvent P) :
    ChangedInside self e ↔ AssignedInside self e := by
  obtain ⟨faults, e⟩ := e
  cases e with
  | datagram now coins data =>
    simp only [ChangedInside, AssignedInside, clientStepWith]
    obtain ⟨hnone, hsame, -⟩ | ⟨ip, hip, hrun⟩ := handleUdpDataWith_cases faults now coins data self
    · simp [hnone, hsame]
    · rw [hrun, ← sameAddress_seen self now, handleIpAssignWith_sameAddress_iff, hip]
      simp
  | attempt draw => exact Iff.rfl
  | connect opened => exact Iff.rfl
  | tick now => exact Iff.rfl
  | tunReadable nonces packet => exact Iff.rfl
  | stop => exact Iff.rfl

theorem attempt_unassigned (draw : SessionDraw P) (self : VpnClient P) :
    (VpnClient.attempt draw self).2.assignedIp = none := by
  unfold VpnClient.attempt
  simp only [Py.bind_run, Py.assign_run, Py.self_run]
  cases self.config.authPaths with
  | none => rfl
  | some paths => rfl

theorem connect_assignedIp (opened : Bool) (self : VpnClient P) :
    (VpnClient.connect opened self).2.assignedIp = self.assignedIp := by
  obtain ⟨_, _, _, _, _, hrun, -⟩ := connect_frame opened self
  rw [hrun]

theorem tick_assignedIp (now : Time) (self : VpnClient P) :
    (VpnClient.tick now self).assignedIp = self.assignedIp := by
  have hopened (client : VpnClient P) :
      (VpnClient.openDataChannel client).assignedIp = client.assignedIp := by
    unfold VpnClient.openDataChannel
    split <;> rfl
  unfold VpnClient.tick
  dsimp only
  split
  · split
    · exact hopened _
    · exact hopened _
  · split
    · exact hopened _
    · exact hopened _

/-- After each event the address is gone, the present one, or came inside the session. -/
theorem clientStepWith_assignedIp {self : VpnClient P} {e : AssignFaults × ClientEvent P}
    (hinside : ChangedInside self e) :
    (clientStepWith self e).assignedIp = none ∨ e.2.isAttempt = false ∧
      ((clientStepWith self e).assignedIp = self.assignedIp ∨
        self.session.isEstablished = true) := by
  obtain ⟨faults, e⟩ := e
  cases e with
  | attempt draw => exact .inl (attempt_unassigned draw self)
  | connect opened => exact .inr ⟨rfl, .inl (connect_assignedIp opened self)⟩
  | tick now => exact .inr ⟨rfl, .inl (tick_assignedIp now self)⟩
  | datagram now coins data =>
    obtain hest | hsame := hinside
    · exact .inr ⟨rfl, .inr hest⟩
    · exact .inr ⟨rfl, .inl hsame.1⟩
  | tunReadable nonces packet =>
    exact .inr ⟨rfl, .inl (onTunReadable_sameAddress nonces packet self).1⟩
  | stop => exact .inr ⟨rfl, .inl rfl⟩

theorem CompletedOnce.concat {events : List (AssignFaults × ClientEvent P)}
    {e : AssignFaults × ClientEvent P} (h : CompletedOnce self events)
    (he : e.2.isAttempt = false) :
    CompletedOnce self (events ++ [e]) := by
  obtain ⟨before, since, rfl, hsince, hest⟩ := h
  refine ⟨before, since ++ [e], by rw [List.append_assoc], ?_, hest⟩
  intro f hf
  cases List.mem_append.mp hf with
  | inl hmem => exact hsince f hmem
  | inr hmem => exact List.mem_singleton.mp hmem ▸ he

theorem completed_run (hnone : self.assignedIp = none)
    (events : List (AssignFaults × ClientEvent P))
    (hinside : Meets clientStepWith ChangedInside events self) :
    (run clientStepWith events self).assignedIp ≠ none → CompletedOnce self events := by
  refine history_run (I := fun events client => client.assignedIp ≠ none →
    CompletedOnce self events) (fun h => absurd hnone h) ?_ events hinside
  intro before e ih hok hassigned
  obtain hgone | ⟨he, hkept | hest⟩ := clientStepWith_assignedIp hok
  · exact absurd hgone hassigned
  · exact (ih (hkept ▸ hassigned)).concat he
  · exact ⟨before, [e], rfl, fun f hf => List.mem_singleton.mp hf ▸ he, hest⟩

end Assigning

/-- In every run the address changes only in an established session, and is there only after a
completed handshake of the attempt, exactly when no `IP_ASSIGN` comes earlier that `set_ip` does
not refuse. -/
theorem assigned_inside_iff (config : Config) (draw : SessionDraw P)
    (events : List (AssignFaults × ClientEvent P)) :
    (Meets clientStepWith ChangedInside events (VpnClient.new config draw) ∧
      ∀ before later, events = before ++ later →
        (run clientStepWith before (VpnClient.new config draw)).assignedIp ≠ none →
          CompletedOnce (VpnClient.new config draw) before) ↔
      Meets clientStepWith AssignedInside events (VpnClient.new config draw) := by
  have hsteps : Meets clientStepWith ChangedInside events (VpnClient.new config draw) ↔
      Meets clientStepWith AssignedInside events (VpnClient.new config draw) := by
    simp only [meets_iff_split, changedInside_iff]
  rw [← hsteps]
  refine and_iff_left_of_imp fun hinside => ?_
  intro before later hsplit
  subst hsplit
  exact completed_run rfl before ((meets_append _ _ _ _ _).mp hinside).1

namespace Transparent

def assignPacket : Bytes :=
  encodeHandshakeMessage .ipAssign 0 [49, 48, 46, 56, 46, 48, 46, 50]

def quietly (events : List (ClientEvent primitives)) :
    List (AssignFaults × ClientEvent primitives) := events.map fun e => ({}, e)

def assignedEvents : List (AssignFaults × ClientEvent primitives) :=
  quietly (clientEvents ++ [.datagram 0 [] assignPacket]) ++
    [({ setIp := some .calledProcessError }, .datagram 1 [] assignPacket)]

theorem assigned_inside_handshake :
    let self := VpnClient.new clientConfig (draw 7)
    Meets clientStepWith ChangedInside assignedEvents self ∧ CompletedOnce self assignedEvents ∧
      (run clientStepWith assignedEvents self).assignedIp = some "10.8.0.2" := by
  have hassigned : (run clientStepWith assignedEvents
      (VpnClient.new clientConfig (draw 7))).assignedIp = some "10.8.0.2" := by
    decide +kernel
  have hother {client : VpnClient primitives} {data : Bytes} (h : ipAssigned data = none) :
      AssignedInside client ({}, .datagram 0 [] data) := by
    intro ip hip
    rw [h] at hip
    cases hip
  have hinside : Meets clientStepWith AssignedInside assignedEvents
      (VpnClient.new clientConfig (draw 7)) := by
    refine (meets_append _ _ (quietly clientEvents) _ _).mpr ⟨?_, ?_⟩
    · exact ⟨trivial, trivial, hother (by decide), hother (by decide), trivial, trivial⟩
    · exact ⟨fun ip _ => .inl (by decide +kernel), fun ip _ => .inl (by decide +kernel), trivial⟩
  have hrun := (assigned_inside_iff clientConfig (draw 7) assignedEvents).mpr hinside
  refine ⟨hrun.1, hrun.2 assignedEvents [] (List.append_nil _).symm ?_, hassigned⟩
  rw [hassigned]
  exact Option.some_ne_none _

def earlyEvents : List (AssignFaults × ClientEvent primitives) :=
  quietly [.attempt (draw 7), .connect true]

/-- The client takes the address and calls itself connected, with no key agreed on. -/
theorem assigned_before_handshake :
    let self := run clientStepWith earlyEvents (VpnClient.new clientConfig (draw 7))
    let early : AssignFaults × ClientEvent primitives := ({}, .datagram 0 [] assignPacket)
    let after := clientStepWith self early
    self.session.isEstablished = false ∧ ¬ SameAddress self after ∧
      after.assignedIp = some "10.8.0.2" ∧ after.connected = true ∧
      ¬ CompletedOnce (VpnClient.new clientConfig (draw 7)) (earlyEvents ++ [early]) := by
  refine ⟨by decide +kernel, ?_, by decide +kernel, by decide +kernel, ?_⟩
  · intro hsame
    exact absurd hsame.2.1 (by decide +kernel)
  · intro hinside
    obtain ⟨before, since, hsplit, -, hest⟩ := hinside
    have hnever : ∀ u ∈ (earlyEvents ++
        [(({}, .datagram 0 [] assignPacket) : AssignFaults × ClientEvent primitives)]).inits,
        (run clientStepWith u (VpnClient.new clientConfig (draw 7))).session.isEstablished =
          false := by
      decide +kernel
    have hinit := (List.mem_inits _ _).mpr ⟨since, hsplit.symm⟩
    rw [hnever before hinit] at hest
    cases hest

end Transparent
end PyVpn
