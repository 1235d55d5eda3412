import PyVpn.PoolBooks
import PyVpn.ServerUpkeep

/-! The client table, the address map and the pool agree in every reachable server:
an address belongs to one client, and the map leads to it. -/
namespace PyVpn
open EventRun Leases
variable {P : Primitives}

def virtualIpAt (self : VpnServer P) (addr : Addr) : Option String :=
  (self.clients.lookup addr).bind ClientSession.virtualIp

theorem virtualIpAt_of_lookup {self : VpnServer P} {addr : Addr} {cs : ClientSession P}
    (hcs : self.clients.lookup addr = some cs) : virtualIpAt self addr = cs.virtualIp := by
  rw [virtualIpAt, hcs]
  rfl

theorem virtualIpAt_of_none {self : VpnServer P} {addr : Addr}
    (hnone : self.clients.lookup addr = none) : virtualIpAt self addr = none := by
  rw [virtualIpAt, hnone]
  rfl

def freeIps (self : VpnServer P) : Set String :=
  { ip | ∃ pool n, self.ipPool = some pool ∧ n ∈ pool.available ∧ ip = strIPv4 n }

/-- The pool has recorded under this name the number of this address. -/
def Recorded (self : VpnServer P) (clientId ip : String) : Prop :=
  ∃ pool n, self.ipPool = some pool ∧ pool.allocated.lookup clientId = some n ∧
    n < 2 ^ 32 ∧ ip = strIPv4 n

structure Tables (server : VpnServer P) : Prop where
  addressed : Addressed server
  leases : Consistent (virtualIpAt server) (fun ip => server.ipToAddr.lookup ip) (freeIps server)
  recorded : ∀ addr ip, virtualIpAt server addr = some ip → Recorded server addr.str ip
  bounded : ∀ pool n, server.ipPool = some pool → n ∈ pool.available → n < 2 ^ 32
  unopened : ∀ addr cs, server.clients.lookup addr = some cs → cs.data = none → cs.virtualIp = none

theorem Addressed.insert {self : VpnServer P} (h : Addressed self) {addr : Addr}
    {cs : ClientSession P} (hcs : cs.addr = addr) {self' : VpnServer P}
    (hclients : self'.clients = self.clients.insert addr cs) : Addressed self' := by
  unfold Addressed
  rw [hclients]
  exact Dict.forall_insert h hcs

theorem virtualIpAt_insert {self self' : VpnServer P} {addr : Addr} {cs : ClientSession P}
    (hclients : self'.clients = self.clients.insert addr cs) :
    virtualIpAt self' = Function.update (virtualIpAt self) addr cs.virtualIp := by
  funext a
  unfold virtualIpAt
  rw [hclients]
  by_cases ha : a = addr
  · subst ha
    simp
  · simp [ha]

theorem unopened_insert {self self' : VpnServer P} (h : Tables self) {addr : Addr}
    {cs : ClientSession P} (hcs : cs.data = none → cs.virtualIp = none)
    (hclients : self'.clients = self.clients.insert addr cs) :
    ∀ a cs', self'.clients.lookup a = some cs' → cs'.data = none → cs'.virtualIp = none := by
  rw [hclients]
  exact Dict.forall_insert h.unopened hcs

theorem Tables.store {self : VpnServer P} (h : Tables self) {addr : Addr} (cs : ClientSession P)
    (haddr : cs.addr = addr) (hip : cs.virtualIp = virtualIpAt self addr)
    (hdata : cs.data = none → cs.virtualIp = none) (effects : List Effect) :
    Tables { self with clients := self.clients.insert addr cs, effects := effects } := by
  have hips : virtualIpAt { self with
      clients := self.clients.insert addr cs, effects := effects } = virtualIpAt self := by
    rw [virtualIpAt_insert rfl, hip, Function.update_eq_self]
  refine ⟨h.addressed.insert haddr rfl, ?_, ?_, h.bounded, unopened_insert h hdata rfl⟩
  · rw [hips]
    exact h.leases
  · rw [hips]
    exact h.recorded

theorem Tables.opening {self self' : VpnServer P} (h : Tables self) (cs : ClientSession P)
    (hcs : self.clients.lookup cs.addr = some cs) (hdata : cs.data = none)
    (hopening : Opening self cs self') : Tables self' := by
  have hnone : cs.virtualIp = none := h.unopened cs.addr cs hcs hdata
  have hat : virtualIpAt self cs.addr = none := (virtualIpAt_of_lookup hcs).trans hnone
  cases hopening with
  | unassigned =>
    exact h.store (cs.opened self.config.compLzo) rfl (hnone.trans hat.symm)
      (fun hopened => by cases hopened) self.effects
  | assigned pool n effects hpool hn =>
    have hfree : strIPv4 n ∈ freeIps self := ⟨pool, n, hpool, hn, rfl⟩
    have hlt := h.bounded pool n hpool hn
    constructor
    · have haddr : ((cs.opened self.config.compLzo).assigned (strIPv4 n)).addr = cs.addr := rfl
      exact h.addressed.insert haddr rfl
    · rw [virtualIpAt_insert rfl]
      simp only [lookup_insert_update]
      refine h.leases.grant hat hfree ?_
      intro ip hfree
      obtain ⟨_, m, ⟨rfl⟩, hm, rfl⟩ := hfree
      obtain ⟨hmn, hm⟩ := Finset.mem_erase.mp hm
      refine ⟨⟨pool, m, hpool, hm, rfl⟩, ?_⟩
      intro hip
      exact hmn (strIPv4_inj (h.bounded pool m hpool hm) hlt hip)
    · intro addr ip hip
      rw [virtualIpAt_insert rfl] at hip
      by_cases ha : addr = cs.addr
      · subst ha
        rw [Function.update_self] at hip
        cases hip
        exact ⟨_, n, rfl, AList.lookup_insert _, hlt, rfl⟩
      · rw [Function.update_of_ne ha] at hip
        obtain ⟨pool', m, hpool', hm, hmlt, rfl⟩ := h.recorded addr ip hip
        cases hpool.symm.trans hpool'
        have hne : addr.str ≠ cs.clientId := fun hstr => ha (Addr.str_inj hstr)
        exact ⟨_, m, rfl, (AList.lookup_insert_ne hne).trans hm, hmlt, rfl⟩
    · intro pool' m hpool' hm
      cases hpool'
      exact h.bounded pool m hpool (Finset.mem_of_mem_erase hm)
    · exact unopened_insert h (fun hopened => by cases hopened) rfl

theorem virtualIpAt_erase {self self' : VpnServer P} {addr : Addr}
    (hclients : self'.clients = self.clients.erase addr) :
    virtualIpAt self' = Function.update (virtualIpAt self) addr none := by
  funext a
  unfold virtualIpAt
  rw [hclients]
  by_cases ha : a = addr
  · subst ha
    simp
  · simp [ha]

theorem lookup_of_erase {self self' : VpnServer P} {addr a : Addr} {cs : ClientSession P}
    (hclients : self'.clients = self.clients.erase addr)
    (hlookup : self'.clients.lookup a = some cs) : self.clients.lookup a = some cs := by
  rw [hclients] at hlookup
  by_cases ha : a = addr
  · subst ha
    rw [AList.lookup_erase] at hlookup
    cases hlookup
  · rwa [AList.lookup_erase_ne ha] at hlookup

theorem removeClient_clients {self : VpnServer P} {addr : Addr} {cs : ClientSession P}
    (hcs : self.clients.lookup addr = some cs) :
    (removeClient addr self).clients = self.clients.erase addr := by
  simp only [removeClient, hcs, releaseAddress]
  cases cs.virtualIp with
  | none => rfl
  | some ip =>
    by_cases hmem : ip ∈ self.ipToAddr
    · simp only [if_pos hmem]
    · simp only [if_neg hmem]

theorem removeClient_lookup (self : VpnServer P) (addr a : Addr) :
    (removeClient a self).clients.lookup addr =
      if addr = a then none else self.clients.lookup addr := by
  cases hcs : self.clients.lookup a with
  | none =>
    have hrun : removeClient a self = self := by simp [removeClient, hcs]
    rw [hrun]
    split
    · rename_i ha
      rw [ha, hcs]
    · rfl
  | some cs =>
    rw [removeClient_clients hcs]
    split
    · rename_i ha
      rw [ha, AList.lookup_erase]
    · rename_i ha
      rw [AList.lookup_erase_ne ha]

theorem removeClients_lookup (addrs : List Addr) (self : VpnServer P) (addr : Addr) :
    (addrs.foldl (fun self a => removeClient a self) self).clients.lookup addr =
      if addr ∈ addrs then none else self.clients.lookup addr := by
  induction addrs generalizing self with
  | nil => simp
  | cons a addrs ih =>
    rw [List.foldl_cons, ih, removeClient_lookup]
    by_cases htail : addr ∈ addrs
    · simp [htail]
    · by_cases hhead : addr = a
      · simp [hhead]
      · simp [htail, hhead]

theorem cleanupStale_lookup (now : Time) (self : VpnServer P) (addr : Addr) :
    (cleanupStale now self).clients.lookup addr = (self.clients.lookup addr).filter
      fun cs => !cs.isStale now self.config.keepaliveTimeout := by
  unfold cleanupStale
  rw [removeClients_lookup]
  cases hcs : self.clients.lookup addr with
  | none => simp
  | some cs =>
    have hmem : addr ∈ self.clients.keys :=
      AList.mem_keys.mp (AList.lookup_isSome.mp (by rw [hcs]; rfl))
    cases hstale : cs.isStale now self.config.keepaliveTimeout with
    | false => simp [hcs, hstale, Option.filter_some]
    | true => simp [hcs, hstale, hmem, Option.filter_some]

theorem removeClient_unassigned {self : VpnServer P} {addr : Addr} {cs : ClientSession P}
    (hcs : self.clients.lookup addr = some cs) (hip : cs.virtualIp = none) :
    ∃ effects, removeClient addr self =
      { self with clients := self.clients.erase addr, effects := effects } :=
  ⟨_, by simp only [removeClient, hcs, releaseAddress, hip]; rfl⟩

theorem removeClient_assigned {self : VpnServer P} {addr : Addr} {cs : ClientSession P}
    {ip : String} (hcs : self.clients.lookup addr = some cs) (hip : cs.virtualIp = some ip)
    (hmem : ip ∈ self.ipToAddr) :
    ∃ effects, removeClient addr self = { self with
      clients := self.clients.erase addr
      ipToAddr := self.ipToAddr.erase ip
      ipPool := self.ipPool.map fun pool => pool.release cs.clientId
      effects := effects } :=
  ⟨_, by simp only [removeClient, hcs, releaseAddress, hip, hmem, if_true]; rfl⟩

theorem Tables.remove {self : VpnServer P} (h : Tables self) {addr : Addr}
    {cs : ClientSession P} (hcs : self.clients.lookup addr = some cs) :
    Tables (removeClient addr self) := by
  have haddr : cs.addr = addr := h.addressed addr cs hcs
  cases hip : cs.virtualIp with
  | none =>
    obtain ⟨effects, hrun⟩ := removeClient_unassigned hcs hip
    have hat : virtualIpAt self addr = none := (virtualIpAt_of_lookup hcs).trans hip
    have hips : virtualIpAt (removeClient addr self) = virtualIpAt self := by
      rw [hrun, virtualIpAt_erase rfl, ← hat, Function.update_eq_self]
    rw [hrun] at hips ⊢
    refine ⟨fun a cs' h' => h.addressed a cs' (lookup_of_erase rfl h'), ?_, ?_, h.bounded,
      fun a cs' h' => h.unopened a cs' (lookup_of_erase rfl h')⟩
    · rw [hips]
      exact h.leases
    · rw [hips]
      exact h.recorded
  | some ip =>
    have hat : virtualIpAt self addr = some ip := (virtualIpAt_of_lookup hcs).trans hip
    have hmem : ip ∈ self.ipToAddr := by
      have hlookup : self.ipToAddr.lookup ip = some addr := (h.leases.owner_iff addr ip).mpr hat
      exact AList.lookup_isSome.mp (by rw [hlookup]; rfl)
    obtain ⟨effects, hrun⟩ := removeClient_assigned hcs hip hmem
    obtain ⟨pool, n, hpool, hn, hlt, rfl⟩ := h.recorded addr ip hat
    have hname : cs.clientId = addr.str := by rw [ClientSession.clientId, haddr]
    have hrelease : pool.release cs.clientId = { pool with
        available := insert n pool.available
        allocated := pool.allocated.erase addr.str
        allocatedByInt := pool.allocatedByInt.erase n } := by
      rw [IpPool.release, hname, hn]
    rw [hpool, Option.map_some, hrelease] at hrun
    rw [hrun]
    constructor
    · exact fun a cs' h' => h.addressed a cs' (lookup_of_erase rfl h')
    · rw [virtualIpAt_erase rfl]
      simp only [lookup_erase_update]
      refine h.leases.revoke hat ?_
      intro ip hfree
      obtain ⟨_, m, ⟨rfl⟩, hm, rfl⟩ := hfree
      cases Finset.mem_insert.mp hm with
      | inl hmn => exact .inl (congrArg strIPv4 hmn)
      | inr hm => exact .inr ⟨pool, m, hpool, hm, rfl⟩
    · intro a ip hip
      rw [virtualIpAt_erase rfl] at hip
      by_cases ha : a = addr
      · subst ha
        rw [Function.update_self] at hip
        cases hip
      · rw [Function.update_of_ne ha] at hip
        obtain ⟨pool', m, hpool', hm, hmlt, rfl⟩ := h.recorded a ip hip
        cases hpool.symm.trans hpool'
        have hne : a.str ≠ addr.str := fun hstr => ha (Addr.str_inj hstr)
        exact ⟨_, m, rfl, (AList.lookup_erase_ne hne).trans hm, hmlt, rfl⟩
    · intro pool' m hpool' hm
      cases hpool'
      cases Finset.mem_insert.mp hm with
      | inl hmn => exact hmn ▸ hlt
      | inr hm => exact h.bounded pool m hpool hm
    · exact fun a cs' h' => h.unopened a cs' (lookup_of_erase rfl h')

/-- What an entry keeps whatever its client sends: its name and address, and a channel
once there is one. -/
theorem EntryStep.keeps {draw : Draw P} {data : Bytes} {cs cs' : ClientSession P}
    (h : EntryStep draw data cs cs') :
    cs'.addr = cs.addr ∧ cs'.virtualIp = cs.virtualIp ∧ (cs'.data = none → cs.data = none) := by
  cases h with
  | seen => exact ⟨rfl, rfl, id⟩
  | called call _ _ => exact ⟨rfl, rfl, id⟩
  | received ch _ _ _ => exact ⟨rfl, rfl, fun hdata => by cases hdata⟩

theorem Upkeep.keeps {cs cs' : ClientSession P} (h : Upkeep cs cs') :
    cs'.addr = cs.addr ∧ cs'.virtualIp = cs.virtualIp ∧ (cs'.data = none → cs.data = none) := by
  cases h with
  | keepalive now => exact ⟨rfl, rfl, id⟩
  | encrypted nonces packet ch _ => exact ⟨rfl, rfl, fun hdata => by cases hdata⟩
  | swept now => exact ⟨rfl, rfl, Option.map_eq_none_iff.mp⟩

theorem Tables.unmapped {self : VpnServer P} (h : Tables self) {addr : Addr}
    (hnone : self.clients.lookup addr = none) (ip : String) : self.ipToAddr.lookup ip ≠ some addr := by
  intro hip
  have hheld := (h.leases.owner_iff addr ip).mp hip
  exact absurd (hheld.symm.trans (virtualIpAt_of_none hnone)) (Option.some_ne_none ip)

theorem Tables.restore {self : VpnServer P} (h : Tables self) {addr : Addr}
    {cs : ClientSession P} (hcs : self.clients.lookup addr = some cs) (cs' : ClientSession P)
    (hkeeps : cs'.addr = cs.addr ∧ cs'.virtualIp = cs.virtualIp ∧
      (cs'.data = none → cs.data = none)) (effects : List Effect) :
    Tables { self with clients := self.clients.insert addr cs', effects := effects } := by
  obtain ⟨haddr, hip, hdata⟩ := hkeeps
  refine h.store cs' (haddr.trans (h.addressed addr cs hcs)) ?_ ?_ effects
  · rw [hip, virtualIpAt_of_lookup hcs]
  · intro hnone
    rw [hip]
    exact h.unopened addr cs hcs (hdata hnone)

theorem FreshEntry.unopened {config : Config} {draw : SessionDraw P} {addr : Addr}
    {writer : Option Nat} {cs : ClientSession P} (h : FreshEntry config draw addr writer cs) :
    cs.data = none ∧ cs.virtualIp = none := by
  obtain ⟨session, rfl, -⟩ := h
  exact ⟨rfl, rfl⟩

theorem Tables.join {self : VpnServer P} (h : Tables self) {draw : SessionDraw P} {addr : Addr}
    {writer : Option Nat} {cs : ClientSession P} (hnone : self.clients.lookup addr = none)
    (hfresh : FreshEntry self.config draw addr writer cs) (effects : List Effect) :
    Tables { self with clients := self.clients.insert addr cs, effects := effects } := by
  have hip := hfresh.unopened.2
  refine h.store cs hfresh.addr_eq ?_ (fun _ => hip) effects
  rw [hip, virtualIpAt_of_none hnone]

theorem Tables.datagram {self self' : VpnServer P} (h : Tables self) {draw : Draw P}
    {data : Bytes} {addr : Addr} (hstep : DatagramStep draw data addr self self') :
    Tables self' := by
  cases hstep with
  | ignored => exact h
  | reset cs effects _ hcs =>
    obtain hcs | ⟨hnone, hfresh⟩ := hcs
    · exact h.restore hcs (cs.called (.reset draw.now data)) ⟨rfl, rfl, id⟩ effects
    · have hip := hfresh.unopened.2
      refine h.store (cs.called (.reset draw.now data)) hfresh.addr_eq ?_ (fun _ => hip)
        effects
      rw [virtualIpAt_of_none hnone]
      exact hip
  | entry cs cs' effects hcs hstep => exact h.restore hcs cs' hstep.keeps effects
  | opened cs call effects self' hcs hdata _ _ _ hopening =>
    obtain rfl := h.addressed addr cs hcs
    have hstored := h.restore hcs ((cs.seen draw.now).called call) ⟨rfl, rfl, id⟩ effects
    exact hstored.opening ((cs.seen draw.now).called call) (AList.lookup_insert _) hdata hopening

theorem Tables.upkeep {self self' : VpnServer P} (h : Tables self)
    (hstep : UpkeepStep self self') : Tables self' := by
  cases hstep with
  | handedOver effects =>
    exact ⟨h.addressed, h.leases, h.recorded, h.bounded, h.unopened⟩
  | joined draw addr writer cs hnone hfresh => exact h.join hnone hfresh self.effects
  | entry addr cs cs' effects hcs hstep => exact h.restore hcs cs' hstep.keeps effects
  | removed addr cs hcs => exact h.remove hcs

theorem new_cases {config : Config} {self : VpnServer P} (h : VpnServer.new config = .ok self) :
    ∃ ipPool, self = ⟨config, false, ∅, ∅, ipPool, []⟩ ∧
      ∀ pool, ipPool = some pool → ∃ subnet poolRange, IpPool.new subnet poolRange = .ok pool := by
  unfold VpnServer.new at h
  cases hserver : config.server with
  | none =>
    rw [hserver] at h
    exact ⟨none, (Except.ok.inj h).symm, fun pool hpool => by cases hpool⟩
  | some server =>
    rw [hserver] at h
    by_cases hempty : server = ""
    · simp only [if_pos hempty] at h
      exact ⟨none, (Except.ok.inj h).symm, fun pool hpool => by cases hpool⟩
    · simp only [if_neg hempty] at h
      obtain ⟨ipPool, hmap, h⟩ := bind_eq_ok.mp h
      cases hpool : IpPool.new server config.ifconfigPool with
      | error e =>
        rw [hpool] at hmap
        cases hmap
      | ok pool =>
        rw [hpool] at hmap
        cases hmap
        refine ⟨some pool, (Except.ok.inj h).symm, ?_⟩
        intro pool' hpool'
        cases hpool'
        exact ⟨server, config.ifconfigPool, hpool⟩

theorem start_cases {config : Config} {self : VpnServer P}
    (h : VpnServer.start config = .ok self) :
    ∃ ipPool, self = ⟨config, !config.isTcp, ∅, ∅, ipPool, []⟩ ∧
      ∀ pool, ipPool = some pool → ∃ subnet poolRange, IpPool.new subnet poolRange = .ok pool := by
  obtain ⟨server, hnew, h⟩ := bind_eq_ok.mp h
  obtain ⟨ipPool, rfl, hmade⟩ := new_cases hnew
  exact ⟨ipPool, (Except.ok.inj h).symm, hmade⟩

theorem Tables.start {config : Config} {self : VpnServer P}
    (h : VpnServer.start config = .ok self) : Tables self := by
  obtain ⟨ipPool, rfl, hmade⟩ := start_cases h
  refine ⟨?_, Consistent.empty, ?_, ?_, ?_⟩
  · intro addr cs hcs
    cases hcs
  · intro addr ip hip
    cases hip
  · intro pool n hpool hn
    obtain ⟨subnet, poolRange, hnew⟩ := hmade pool hpool
    exact (IpPool.new_cases hnew).1 n hn
  · intro addr cs hcs
    cases hcs

theorem Tables.run {self : VpnServer P} (h : Tables self) (events : List (ServerEvent P)) :
    Tables (run serverStep events self) :=
  inv_run_always (fun s e hs => serverStep_inv (fun _ _ => True) (fun _ ht => ht.addressed)
    (fun _ _ _ _ _ ht _ hstep => ht.datagram hstep) (fun _ _ ht hstep => ht.upkeep hstep)
    s e hs trivial) events self h

/-- Every reachable server has its tables in order. -/
theorem ServerReachable.tables {self : VpnServer P} (h : ServerReachable self) : Tables self := by
  obtain ⟨start, events, ⟨config, hstart⟩, rfl⟩ := h
  exact (Tables.start hstart).run events

section Sessions

def EverySession (p : Session P → Prop) (self : VpnServer P) : Prop :=
  ∀ addr cs, self.clients.lookup addr = some cs → p cs.session

/-- What a property of sessions survives at a server: it holds of fresh ones, and each
handler call keeps it. -/
structure SessionRule (config : Config) (ok : VpnServer P → ServerEvent P → Prop)
    (p : Session P → Prop) : Prop where
  fresh : ∀ draw addr writer cs, FreshEntry config draw addr writer cs → p cs.session
  assigned : ∀ s ip, p s → p { s with assignedIp := ip }
  reset : ∀ s now data, p s → p (serverCall s (.reset now data))
  control : ∀ server draw data addr cs call, ok server (.datagram draw data addr) →
    server.clients.lookup addr = some cs → data.headD 0 = Opcode.control.value →
    controlCall draw.coins data = some call → p cs.session → p (serverCall cs.session call)

theorem EverySession.insert {p : Session P → Prop} {self self' : VpnServer P}
    (h : EverySession p self) {addr : Addr} {cs : ClientSession P} (hcs : p cs.session)
    (hclients : self'.clients = self.clients.insert addr cs) : EverySession p self' := by
  unfold EverySession
  rw [hclients]
  exact Dict.forall_insert (p := fun _ (cs : ClientSession P) => p cs.session) h hcs

theorem removeClient_config (addr : Addr) (self : VpnServer P) :
    (removeClient addr self).config = self.config := by
  have hreleased (server : VpnServer P) (cs : ClientSession P) :
      (releaseAddress server cs).config = server.config := by
    cases hip : cs.virtualIp with
    | none => simp [releaseAddress, hip]
    | some ip =>
      by_cases hmem : ip ∈ server.ipToAddr
      · simp [releaseAddress, hip, hmem]
      · simp [releaseAddress, hip, hmem]
  cases hcs : self.clients.lookup addr with
  | none => simp [removeClient, hcs]
  | some cs => simp [removeClient, hcs, hreleased]

/-- The configuration of a server, and a property all its sessions have. -/
structure SessionsHave (config : Config) (p : Session P → Prop) (server : VpnServer P) :
    Prop where
  config : server.config = config
  addressed : Addressed server
  sessions : EverySession p server

variable {config : Config} {ok : VpnServer P → ServerEvent P → Prop} {p : Session P → Prop}

theorem SessionsHave.opening {self self' : VpnServer P} {cs : ClientSession P}
    (hrule : SessionRule config ok p) (h : SessionsHave config p self) (hcs : p cs.session)
    (hopening : Opening self cs self') : SessionsHave config p self' := by
  cases hopening with
  | unassigned hnone =>
    have hopened : p (cs.opened self.config.compLzo).session := hcs
    have haddr : (cs.opened self.config.compLzo).addr = cs.addr := rfl
    exact ⟨h.config, h.addressed.insert haddr rfl, h.sessions.insert hopened rfl⟩
  | assigned pool n effects hpool hn =>
    refine ⟨h.config, ?_, ?_⟩
    · have haddr : ((cs.opened self.config.compLzo).assigned (strIPv4 n)).addr = cs.addr := rfl
      exact h.addressed.insert haddr rfl
    · have hassigned : p ((cs.opened self.config.compLzo).assigned (strIPv4 n)).session :=
        hrule.assigned cs.session _ hcs
      exact h.sessions.insert hassigned rfl

theorem SessionsHave.datagram {self self' : VpnServer P} (hrule : SessionRule config ok p)
    (h : SessionsHave config p self) {draw : Draw P} {data : Bytes} {addr : Addr}
    (hok : ok self (.datagram draw data addr)) (hstep : DatagramStep draw data addr self self') :
    SessionsHave config p self' := by
  cases hstep with
  | ignored => exact h
  | reset cs effects hopcode hcs =>
    have hbefore : cs.addr = addr ∧ p cs.session := by
      obtain hcs | ⟨-, hfresh⟩ := hcs
      · exact ⟨h.addressed addr cs hcs, h.sessions addr cs hcs⟩
      · exact ⟨hfresh.addr_eq, hrule.fresh draw.session addr none cs (h.config ▸ hfresh)⟩
    have hcalled : p (cs.called (.reset draw.now data)).session :=
      hrule.reset cs.session draw.now data hbefore.2
    have haddr : (cs.called (.reset draw.now data)).addr = addr := hbefore.1
    exact ⟨h.config, h.addressed.insert haddr rfl, h.sessions.insert hcalled rfl⟩
  | entry cs cs' effects hcs hstep =>
    have haddr : cs'.addr = addr := hstep.keeps.1.trans (h.addressed addr cs hcs)
    have hsession : p cs'.session := by
      cases hstep with
      | seen => exact h.sessions addr cs hcs
      | called call hopcode hcall =>
        exact hrule.control self draw data addr cs call hok hcs hopcode hcall
          (h.sessions addr cs hcs)
      | received ch _ _ _ => exact h.sessions addr cs hcs
    exact ⟨h.config, h.addressed.insert haddr rfl, h.sessions.insert hsession rfl⟩
  | opened cs call effects self' hcs hdata hopcode hcall hest hopening =>
    have hcalled : p ((cs.seen draw.now).called call).session :=
      hrule.control self draw data addr cs call hok hcs hopcode hcall (h.sessions addr cs hcs)
    have haddr : ((cs.seen draw.now).called call).addr = addr := h.addressed addr cs hcs
    have hstored : SessionsHave config p { self with
        clients := self.clients.insert addr ((cs.seen draw.now).called call)
        effects := effects } :=
      ⟨h.config, h.addressed.insert haddr rfl, h.sessions.insert hcalled rfl⟩
    exact hstored.opening hrule hcalled hopening

theorem SessionsHave.upkeep {self self' : VpnServer P} (hrule : SessionRule config ok p)
    (h : SessionsHave config p self) (hstep : UpkeepStep self self') :
    SessionsHave config p self' := by
  cases hstep with
  | handedOver effects => exact ⟨h.config, h.addressed, h.sessions⟩
  | joined draw addr writer cs hnone hfresh =>
    have hsession : p cs.session := hrule.fresh draw addr writer cs (h.config ▸ hfresh)
    exact ⟨h.config, h.addressed.insert hfresh.addr_eq rfl, h.sessions.insert hsession rfl⟩
  | entry addr cs cs' effects hcs hstep =>
    have haddr : cs'.addr = addr := hstep.keeps.1.trans (h.addressed addr cs hcs)
    have hsession : cs'.session = cs.session := by
      cases hstep <;> rfl
    exact ⟨h.config, h.addressed.insert haddr rfl,
      h.sessions.insert (hsession ▸ h.sessions addr cs hcs) rfl⟩
  | removed addr cs hcs =>
    refine ⟨(removeClient_config addr self).trans h.config, ?_, ?_⟩
    · intro a cs' hlookup
      exact h.addressed a cs' (lookup_of_erase (removeClient_clients hcs) hlookup)
    · intro a cs' hlookup
      exact h.sessions a cs' (lookup_of_erase (removeClient_clients hcs) hlookup)

theorem SessionsHave.step {self : VpnServer P} (hrule : SessionRule config ok p)
    (h : SessionsHave config p self) {e : ServerEvent P} (hok : ok self e) :
    SessionsHave config p (serverStep self e) :=
  serverStep_inv ok (fun _ hs => hs.addressed)
    (fun _ _ _ _ _ hs hoke hstep => hs.datagram hrule hoke hstep)
    (fun _ _ hs hstep => hs.upkeep hrule hstep) self e h hok

theorem SessionsHave.run {self : VpnServer P} (hrule : SessionRule config ok p)
    (h : SessionsHave config p self) (events : List (ServerEvent P))
    (hok : Meets serverStep ok events self) :
    SessionsHave config p (EventRun.run serverStep events self) :=
  inv_run (fun _ _ hs hoke => hs.step hrule hoke) events self h hok

theorem SessionsHave.start {self : VpnServer P} (hstart : VpnServer.start config = .ok self) :
    SessionsHave config p self := by
  have haddressed := (Tables.start hstart).addressed
  obtain ⟨ipPool, rfl, -⟩ := start_cases hstart
  refine ⟨rfl, haddressed, ?_⟩
  intro addr cs hcs
  cases hcs

theorem sessionRule_trivial (config : Config) :
    SessionRule (P := P) config (fun _ _ => True) fun _ => True :=
  ⟨fun _ _ _ _ _ => trivial, fun _ _ _ => trivial, fun _ _ _ _ => trivial,
    fun _ _ _ _ _ _ _ _ _ _ _ => trivial⟩

theorem serverStep_config {self : VpnServer P} (haddr : Addressed self) (e : ServerEvent P) :
    (serverStep self e).config = self.config := by
  have hsessions : SessionsHave self.config (fun _ => True) self :=
    ⟨rfl, haddr, fun _ _ _ => trivial⟩
  exact (hsessions.step (sessionRule_trivial self.config) trivial).config

end Sessions
end PyVpn
