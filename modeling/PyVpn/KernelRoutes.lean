import PyVpn.EffectLog
import PyVpn.Ledger
import PyVpn.ServerTables
import PyVpn.Transparent
import Mathlib.Data.String.Basic

/-! The route commands of a server. Every `ip route add` comes with an address that is not
routed, every `ip route delete` with one that is, and together they leave the routes of the
assigned addresses. -/
namespace PyVpn
open EventRun Ledger BigEndian
variable {P : Primitives}

/-- The route command among the things handed over. -/
def Effect.routeOp : Effect → Option (Op String)
  | .addRoute network => some (.acquire network)
  | .deleteRoute network => some (.release network)
  | _ => none

def Effect.isRoute (e : Effect) : Bool := e.routeOp.isSome

def routeLog (self : VpnServer P) : List (Op String) := self.effects.filterMap Effect.routeOp

def assignedIps (self : VpnServer P) : Finset String := self.ipToAddr.keys.toFinset

theorem mem_assignedIps {self : VpnServer P} {ip : String} :
    ip ∈ assignedIps self ↔ ip ∈ self.ipToAddr := by
  rw [assignedIps, List.mem_toFinset, AList.mem_keys]

theorem route_unsent (addr : Addr) : Unsent Effect.isRoute addr :=
  ⟨fun _ => rfl, fun _ _ => rfl⟩

theorem filterMap_routeOp (effects : List Effect) :
    (effects.filter Effect.isRoute).filterMap Effect.routeOp =
      effects.filterMap Effect.routeOp := by
  induction effects with
  | nil => rfl
  | cons e effects ih =>
    cases he : e.routeOp with
    | none => simp [Effect.isRoute, he, ih]
    | some op => simp [Effect.isRoute, he, ih]

theorem SameLog.routeLog {self self' : VpnServer P} (h : SameLog Effect.isRoute self self') :
    routeLog self' = routeLog self := by
  rw [PyVpn.routeLog, ← filterMap_routeOp, h, filterMap_routeOp, PyVpn.routeLog]

/-- What one step does to the routes and to the map. -/
inductive RouteStep (self self' : VpnServer P) : Prop
  | kept (hlog : routeLog self' = routeLog self) (hmap : self'.ipToAddr = self.ipToAddr) :
      RouteStep self self'
  | assigned (n : Nat) (addr : Addr) (hfresh : strIPv4 n ∉ self.ipToAddr)
      (hlog : routeLog self' = routeLog self ++ [.acquire (strIPv4 n)])
      (hmap : self'.ipToAddr = self.ipToAddr.insert (strIPv4 n) addr) : RouteStep self self'
  | freed (n : Nat) (hmem : strIPv4 n ∈ self.ipToAddr)
      (hlog : routeLog self' = routeLog self ++ [.release (strIPv4 n)])
      (hmap : self'.ipToAddr = self.ipToAddr.erase (strIPv4 n)) : RouteStep self self'

/-- The routes the log leaves are the addresses in the map, and no command failed. -/
structure RoutesMatch (server : VpnServer P) : Prop where
  replayed : replay (routeLog server) ∅ = some (assignedIps server)
  named : ∀ op ∈ routeLog server, ∃ n, op = .acquire (strIPv4 n) ∨ op = .release (strIPv4 n)

theorem RoutesMatch.step {self self' : VpnServer P} (h : RoutesMatch self)
    (hstep : RouteStep self self') : RoutesMatch self' := by
  have hlonger {op : Op String} {n : Nat} (hop : op = .acquire (strIPv4 n) ∨
      op = .release (strIPv4 n)) : ∀ other ∈ routeLog self ++ [op],
        ∃ n, other = .acquire (strIPv4 n) ∨ other = .release (strIPv4 n) := by
    intro other hmem
    cases List.mem_append.mp hmem with
    | inl hmem => exact h.named other hmem
    | inr hmem => exact ⟨n, List.mem_singleton.mp hmem ▸ hop⟩
  cases hstep with
  | kept hlog hmap =>
    refine ⟨?_, by rw [hlog]; exact h.named⟩
    rw [hlog, assignedIps, hmap]
    exact h.replayed
  | assigned n addr hfresh hlog hmap =>
    have hnew : assignedIps self' = insert (strIPv4 n) (assignedIps self) := by
      ext other
      rw [mem_assignedIps, hmap, AList.mem_insert, Finset.mem_insert, mem_assignedIps]
    refine ⟨?_, by rw [hlog]; exact hlonger (.inl rfl)⟩
    rw [hlog, hnew]
    exact replay_acquire h.replayed fun hmem => hfresh (mem_assignedIps.mp hmem)
  | freed n hmem hlog hmap =>
    have hleft : assignedIps self' = (assignedIps self).erase (strIPv4 n) := by
      ext other
      rw [mem_assignedIps, hmap, AList.mem_erase, Finset.mem_erase, mem_assignedIps]
    refine ⟨?_, by rw [hlog]; exact hlonger (.inr rfl)⟩
    rw [hlog, hleft]
    exact replay_release h.replayed (mem_assignedIps.mpr hmem)

/-- What the pool would give out is not in the map. -/
def FreshLeases (self : VpnServer P) : Prop :=
  ∀ pool n, self.ipPool = some pool → n ∈ pool.available → strIPv4 n ∉ self.ipToAddr

theorem Tables.freshLeases {self : VpnServer P} (h : Tables self) : FreshLeases self := by
  intro pool n hpool hn hmem
  obtain ⟨addr, haddr⟩ := Option.isSome_iff_exists.mp (AList.lookup_isSome.mpr hmem)
  exact h.leases.held_not_free addr _ ((h.leases.owner_iff addr _).mp haddr) ⟨pool, n, hpool, hn, rfl⟩

section Assigning
variable {self : VpnServer P}

theorem dottedChars_length (octets : Bytes) : (dottedChars octets).length ≤ 4 * octets.length := by
  have hdigits (o : UInt8) : (Nat.toDigits 10 o.toNat).length ≤ 3 :=
    (Nat.length_toDigits_le_iff (by decide) (by decide)).mpr (by have := o.toNat_lt; omega)
  unfold dottedChars
  induction octets with
  | nil => simp
  | cons o octets ih =>
    have ho := hdigits o
    cases octets with
    | nil =>
      rw [List.map_singleton, List.intercalate_singleton, List.length_singleton]
      omega
    | cons o' octets =>
      rw [List.map_cons, List.length_cons] at ih
      rw [List.map_cons, List.map_cons, List.intercalate_cons_cons, List.length_append,
        List.length_append, List.length_singleton, List.length_cons, List.length_cons]
      omega

theorem toList_loop_length (b : ByteArray) (i : Nat) (r : List UInt8) :
    (ByteArray.toList.loop b i r).length = b.size - i + r.length := by
  fun_induction ByteArray.toList.loop b i r with
  | case1 i r h ih =>
    rw [ih, List.length_cons]
    omega
  | case2 i r h =>
    rw [List.length_reverse]
    omega

theorem strIPv4_short (n : Nat) : (strIPv4 n).toUTF8.toList.length ≤ 64 := by
  have hchars : (dottedChars (be 4 n)).length ≤ 16 := by
    have hlength := dottedChars_length (be 4 n)
    rwa [be_length] at hlength
  have hbytes (cs : List Char) : (String.ofList cs).utf8ByteSize ≤ 4 * cs.length := by
    rw [String.utf8ByteSize_ofList]
    induction cs with
    | nil => simp
    | cons c cs ih =>
      have hc := c.utf8Size_le_four
      rw [String.utf8Len_cons, List.length_cons]
      omega
  have hsize := hbytes (dottedChars (be 4 n))
  rw [ByteArray.toList, toList_loop_length, String.toUTF8_eq_toByteArray, String.size_toByteArray]
  exact Nat.le_trans hsize (by omega)

/-- The packet that tells a client its address always fits into a frame. -/
theorem ipAssign_short (sid : UInt64) (n : Nat) :
    (encodePacket .control sid (MessageType.ipAssign.value :: (strIPv4 n).toUTF8.toList)).length ≤
      65535 := by
  have hshort := strIPv4_short n
  simp only [encodePacket, List.cons_append, List.length_cons, List.length_append, be_length]
  omega

theorem RouteStep.of_same {self' : VpnServer P} (hlog : SameLog Effect.isRoute self self')
    (hmap : self'.ipToAddr = self.ipToAddr) : RouteStep self self' := .kept hlog.routeLog hmap

theorem RouteStep.after {mid self' : VpnServer P} (h : RouteStep mid self')
    (hlog : SameLog Effect.isRoute self mid) (hmap : mid.ipToAddr = self.ipToAddr) :
    RouteStep self self' := by
  have hsame := hlog.routeLog
  cases h with
  | kept hlog' hmap' => exact .kept (hlog'.trans hsame) (hmap'.trans hmap)
  | assigned n addr hfresh hlog' hmap' =>
    rw [hmap] at hfresh hmap'
    rw [hsame] at hlog'
    exact .assigned n addr hfresh hlog' hmap'
  | freed n hmem hlog' hmap' =>
    rw [hmap] at hmem hmap'
    rw [hsame] at hlog'
    exact .freed n hmem hlog' hmap'

/-- `_assign_ip_to_client` where the pool gives an address: the packet is sent, and then the
route is added. -/
theorem assignIpToClient_run {pool : IpPool} {n : Nat} (cs : ClientSession P)
    (hpool : self.ipPool = some pool)
    (hallocate : pool.allocate cs.clientId = (some (strIPv4 n), pool.lease cs.clientId n)) :
    ∃ effects, effects.filter Effect.isRoute = self.effects.filter Effect.isRoute ∧
      assignIpToClient cs self = (.ok (some (strIPv4 n)), { self with
        clients := self.clients.insert cs.addr (cs.assigned (strIPv4 n))
        ipToAddr := self.ipToAddr.insert (strIPv4 n) cs.addr
        ipPool := some (pool.lease cs.clientId n)
        effects := effects ++ [.addRoute (strIPv4 n)] }) := by
  obtain ⟨effects, hsent⟩ := syncSendTo_returns (cs.assigned (strIPv4 n))
    (ipAssign_short (cs.assigned (strIPv4 n)).session.sid n) { self with
      clients := self.clients.insert cs.addr (cs.assigned (strIPv4 n))
      ipToAddr := self.ipToAddr.insert (strIPv4 n) cs.addr
      ipPool := some (pool.lease cs.clientId n) }
  have hlog := syncSendTo_sameLog (route_unsent (cs.assigned (strIPv4 n)).addr)
    (encodePacket .control (cs.assigned (strIPv4 n)).session.sid
      (MessageType.ipAssign.value :: (strIPv4 n).toUTF8.toList)) { self with
        clients := self.clients.insert cs.addr (cs.assigned (strIPv4 n))
        ipToAddr := self.ipToAddr.insert (strIPv4 n) cs.addr
        ipPool := some (pool.lease cs.clientId n) }
  rw [hsent] at hlog
  refine ⟨effects, hlog, ?_⟩
  have hassigned : assignIpToClient cs self =
      (syncSendTo (cs.assigned (strIPv4 n))
        (encodePacket .control (cs.assigned (strIPv4 n)).session.sid
          (MessageType.ipAssign.value :: (strIPv4 n).toUTF8.toList)) >>= fun _ =>
            emit (.addRoute (strIPv4 n)) >>= fun _ => return some (strIPv4 n)) { self with
        clients := self.clients.insert cs.addr (cs.assigned (strIPv4 n))
        ipToAddr := self.ipToAddr.insert (strIPv4 n) cs.addr
        ipPool := some (pool.lease cs.clientId n) } := by
    unfold assignIpToClient
    rw [Py.bind_run]
    simp only [Py.self_run, hpool, Py.bind_run, Py.assign_run, hallocate]
    rfl
  rw [hassigned, Py.bind_run, hsent]
  rfl

theorem assignIpToClient_routes (h : FreshLeases self) (cs : ClientSession P) :
    RouteStep self (assignIpToClient cs self).2 := by
  cases hpool : self.ipPool with
  | none =>
    have hrun : (assignIpToClient cs self).2 = self := by
      unfold assignIpToClient
      rw [Py.bind_run]
      simp only [Py.self_run, hpool]
      rfl
    rw [hrun]
    exact .kept rfl rfl
  | some pool =>
    obtain ⟨-, hnone⟩ | ⟨n, hn, hsome⟩ := pool.allocate_cases cs.clientId
    · have hrun : (assignIpToClient cs self).2 = { self with ipPool := some pool } := by
        unfold assignIpToClient
        rw [Py.bind_run]
        simp only [Py.self_run, hpool, Py.bind_run, Py.assign_run, hnone]
        rfl
      rw [hrun]
      exact .kept rfl rfl
    · obtain ⟨effects, hlog, hrun⟩ := assignIpToClient_run cs hpool hsome
      rw [hrun]
      refine .assigned n cs.addr (h pool n hpool hn) ?_ rfl
      rw [routeLog, List.filterMap_append, ← filterMap_routeOp effects, hlog, filterMap_routeOp]
      rfl

end Assigning

section Callbacks
variable {self : VpnServer P}

theorem openDataChannel_routes (h : FreshLeases self) (cs : ClientSession P) :
    RouteStep self (openDataChannel cs self).2 := by
  by_cases hopen : (cs.session.isEstablished && cs.data.isNone) = true
  · have hstored : FreshLeases { self with
        clients := self.clients.insert cs.addr (cs.opened self.config.compLzo) } := h
    have hrun : (openDataChannel cs self).2 =
        (assignIpToClient (cs.opened self.config.compLzo) { self with
          clients := self.clients.insert cs.addr (cs.opened self.config.compLzo) }).2 := by
      unfold openDataChannel
      rw [Py.bind_run]
      simp only [Py.self_run]
      rw [if_pos hopen]
      exact Py.discard_run rfl
    rw [hrun]
    exact (assignIpToClient_routes hstored _).after rfl rfl
  · rw [openDataChannel_waits hopen]
    exact .kept rfl rfl

theorem handleControl_routes (h : FreshLeases self) (coins data : Bytes) (cs : ClientSession P) :
    RouteStep self (handleControl coins cs data self).2 := by
  cases hcall : controlCall coins data with
  | none =>
    obtain hrun | ⟨call, -, hsome, -⟩ := handleControl_cases coins cs data self
    · rw [hrun]
      exact .kept rfl rfl
    · rw [hcall] at hsome
      cases hsome
  | some call =>
    have hlog := callHandler_sameLog (route_unsent cs.addr) (serverHandler call) self
    obtain ⟨r, effects, hrun, -⟩ := callHandler_run cs (serverHandler call) self
    rw [handleControl_called hcall, Py.bind_run]
    rw [hrun] at hlog ⊢
    cases r with
    | error e => exact .of_same hlog rfl
    | ok cs' =>
      have hmid : FreshLeases { self with
          clients := self.clients.insert cs.addr
            { cs with session := (serverHandler call cs.session).2 }
          effects := effects } := h
      exact (openDataChannel_routes hmid cs').after hlog rfl

theorem handleUdpData_routes (htables : Tables self) (draw : Draw P) (data : Bytes) (a : Addr) :
    RouteStep self (handleUdpData draw data a self).2 := by
  by_cases hcontrol : data.headD 0 = Opcode.control.value
  · obtain ⟨hne, hreset, hack⟩ := opcode_cases (.inl hcontrol)
    cases hcs : self.clients.lookup a with
    | none =>
      rw [handleUdpData_unknown hcs hreset]
      exact .kept rfl rfl
    | some cs =>
      rw [handleUdpData_known hcs hne hreset hack, if_pos hcontrol]
      have hstored : FreshLeases { self with
          clients := self.clients.insert cs.addr (cs.seen draw.now) } := htables.freshLeases
      exact (handleControl_routes hstored draw.coins data _).after rfl rfl
  · refine .of_same (handleUdpData_sameLog (route_unsent a) (fun cs _ => route_unsent cs.addr) draw
      (absurd · hcontrol) (fun _ _ => rfl)) ?_
    have hstep := handleUdpData_step draw data a htables.addressed
    generalize (handleUdpData draw data a self).2 = self' at hstep
    cases hstep with
    | ignored => rfl
    | reset cs effects _ _ => rfl
    | entry cs cs' effects _ _ => rfl
    | opened cs call effects self' _ _ hopcode _ _ _ => exact absurd hopcode hcontrol

theorem filterMap_writerClose (writers : List Nat) :
    (writers.map Effect.writerClose).filterMap Effect.routeOp = [] := by
  induction writers with
  | nil => rfl
  | cons writer writers ih => exact ih

theorem removeClient_routes (htables : Tables self) (addr : Addr) :
    RouteStep self (removeClient addr self) := by
  cases hcs : self.clients.lookup addr with
  | none =>
    have hrun : removeClient addr self = self := by simp [removeClient, hcs]
    rw [hrun]
    exact .kept rfl rfl
  | some cs =>
    cases hip : cs.virtualIp with
    | none =>
      refine .kept ?_ ?_
      · simp only [removeClient, hcs, releaseAddress, hip, routeLog, List.filterMap_append,
          filterMap_writerClose, List.append_nil]
      · simp only [removeClient, hcs, releaseAddress, hip]
    | some ip =>
      have hat : virtualIpAt self addr = some ip := (virtualIpAt_of_lookup hcs).trans hip
      have hmem : ip ∈ self.ipToAddr := by
        have hlookup : self.ipToAddr.lookup ip = some addr :=
          (htables.leases.owner_iff addr ip).mpr hat
        exact AList.lookup_isSome.mp (by rw [hlookup]; rfl)
      obtain ⟨pool, n, -, -, -, rfl⟩ := htables.recorded addr ip hat
      refine .freed n hmem ?_ ?_
      · simp only [removeClient, hcs, releaseAddress, hip, if_pos hmem, routeLog,
          List.filterMap_append, filterMap_writerClose, List.append_nil]
        rfl
      · simp only [removeClient, hcs, releaseAddress, hip, if_pos hmem]

end Callbacks

section Runs
variable {self : VpnServer P}

theorem RoutesMatch.removeAll (htables : Tables self) (h : RoutesMatch self) (addrs : List Addr) :
    RoutesMatch (addrs.foldl (fun self addr => removeClient addr self) self) := by
  induction addrs generalizing self with
  | nil => exact h
  | cons addr addrs ih =>
    refine ih ?_ (h.step (removeClient_routes htables addr))
    exact htables.run [.tcpDisconnect addr]

theorem RoutesMatch.event (htables : Tables self) (h : RoutesMatch self) (e : ServerEvent P) :
    RoutesMatch (serverStep self e) := by
  cases e with
  | datagram draw data a => exact h.step (handleUdpData_routes htables draw data a)
  | tcpConnect draw a writer =>
    have hmap : (getOrCreateSession draw a (some writer) self).2.ipToAddr = self.ipToAddr := by
      obtain ⟨e, hrun⟩ | ⟨cs, -, hrun⟩ | ⟨cs, -, -, hrun⟩ :=
        getOrCreateSession_cases draw a (some writer) self
      · rw [hrun]
      · rw [hrun]
      · rw [hrun]
    exact h.step (.of_same (getOrCreateSession_sameLog draw a (some writer) self) hmap)
  | tcpDisconnect a => exact h.step (removeClient_routes htables a)
  | tunReadable nonces packet =>
    have hmap : (onTunReadable nonces packet self).2.ipToAddr = self.ipToAddr := by
      cases hselect : selectClient self packet with
      | none => rw [onTunReadable_none hselect]
      | some found => rw [onTunReadable_some hselect]
    exact h.step (.of_same (onTunReadable_sameLog nonces packet self) hmap)
  | cleanupStale now => exact h.removeAll htables _
  | keepalive now a =>
    have hmap : (sendKeepalive now a self).2.ipToAddr = self.ipToAddr := by
      cases hcs : self.clients.lookup a with
      | none =>
        rw [sendKeepalive_absent now hcs]
      | some cs =>
        obtain rfl := htables.addressed a cs hcs
        obtain ⟨effects, hrun⟩ := sendKeepalive_run now hcs
        rw [hrun]
        split
        · rfl
        · rfl
    exact h.step (.of_same (sendKeepalive_sameLog (fun cs _ => route_unsent cs.addr) now) hmap)
  | cleanupFragments now =>
    obtain ⟨clients, hrun⟩ := cleanupAllFragments_frame now self
    rw [serverStep, hrun]
    exact h.step (.kept rfl rfl)

theorem RoutesMatch.start {config : Config} {start : VpnServer P}
    (hstart : VpnServer.start config = .ok start) : RoutesMatch start := by
  obtain ⟨ipPool, rfl, -⟩ := start_cases hstart
  exact ⟨rfl, fun op hop => absurd hop List.not_mem_nil⟩

theorem RoutesMatch.run (htables : Tables self) (h : RoutesMatch self)
    (events : List (ServerEvent P)) : RoutesMatch (EventRun.run serverStep events self) :=
  (inv_run_always (I := fun s => Tables s ∧ RoutesMatch s)
    (fun _ e hs => ⟨hs.1.run [e], hs.2.event hs.1 e⟩) events self ⟨htables, h⟩).2

/-- In every state a server reaches, the routes it added and did not delete are the addresses
it has assigned, and none of its route commands came twice or too early. -/
theorem host_routes_match (hself : ServerReachable self) :
    replay (routeLog self) ∅ = some (assignedIps self) := by
  obtain ⟨start, events, ⟨config, hstart⟩, rfl⟩ := hself
  exact (RoutesMatch.run (Tables.start hstart) (RoutesMatch.start hstart) events).replayed

end Runs

namespace Transparent

theorem host_routes_match_served :
    replay (routeLog served) ∅ = some (assignedIps served) :=
  host_routes_match served_reachable

end Transparent
end PyVpn
