import PyVpn.Survival

/-! The pool under the client table: what it has given out belongs to a client that is
there, and the rest of its range is free. An entry gets its address once, with its
channel; one that becomes ready a second time gets none. -/
namespace PyVpn
open EventRun Leases
variable {P : Primitives}

/-- What one step can do to the pool and the addresses of the entries. -/
inductive PoolChange (self self' : VpnServer P) : Prop
  | same (hpool : self'.ipPool = self.ipPool) (hips : virtualIpAt self' = virtualIpAt self)
  | leased (addr : Addr) (pool : IpPool) (n : Nat) (hpool : self.ipPool = some pool)
      (hn : n ∈ pool.available) (hnone : virtualIpAt self addr = none)
      (hpool' : self'.ipPool = some (pool.lease addr.str n))
      (hips : virtualIpAt self' = Function.update (virtualIpAt self) addr (some (strIPv4 n)))
  | released (addr : Addr) (pool : IpPool) (n : Nat) (hpool : self.ipPool = some pool)
      (hn : pool.allocated.lookup addr.str = some n)
      (hip : virtualIpAt self addr = some (strIPv4 n))
      (hpool' : self'.ipPool = some (pool.release addr.str))
      (hips : virtualIpAt self' = Function.update (virtualIpAt self) addr none)

theorem virtualIpAt_store {self self' : VpnServer P} {addr : Addr} {cs : ClientSession P}
    (hclients : self'.clients = self.clients.insert addr cs)
    (hip : cs.virtualIp = virtualIpAt self addr) : virtualIpAt self' = virtualIpAt self := by
  rw [virtualIpAt_insert hclients, hip, Function.update_eq_self]

theorem EntryFor.virtualIp {self : VpnServer P} {draw : SessionDraw P} {addr : Addr}
    {writer : Option Nat} {cs : ClientSession P} (h : EntryFor self draw addr writer cs) :
    cs.virtualIp = virtualIpAt self addr := by
  obtain hcs | ⟨hnone, hfresh⟩ := h
  · exact (virtualIpAt_of_lookup hcs).symm
  · rw [hfresh.unopened.2, virtualIpAt_of_none hnone]

theorem DatagramStep.poolChange {self self' : VpnServer P} (h : Tables self) {draw : Draw P}
    {data : Bytes} {addr : Addr} (hstep : DatagramStep draw data addr self self') :
    PoolChange self self' := by
  cases hstep with
  | ignored => exact .same rfl rfl
  | reset cs effects _ hcs =>
    have hip : (cs.called (.reset draw.now data)).virtualIp = virtualIpAt self addr :=
      hcs.virtualIp
    exact .same rfl (virtualIpAt_store rfl hip)
  | entry cs cs' effects hcs hstep =>
    have hip : cs'.virtualIp = virtualIpAt self addr :=
      hstep.keeps.2.1.trans (virtualIpAt_of_lookup hcs).symm
    exact .same rfl (virtualIpAt_store rfl hip)
  | opened cs call effects self' hcs hdata _ _ _ hopening =>
    obtain rfl := h.addressed addr cs hcs
    have hip : ((cs.seen draw.now).called call).virtualIp = virtualIpAt self cs.addr :=
      (virtualIpAt_of_lookup hcs).symm
    have hcalled : virtualIpAt { self with
        clients := self.clients.insert cs.addr ((cs.seen draw.now).called call)
        effects := effects } = virtualIpAt self := virtualIpAt_store rfl hip
    cases hopening with
    | unassigned _ =>
      refine .same rfl ((virtualIpAt_store rfl ?_).trans hcalled)
      rw [hcalled]
      exact hip
    | assigned pool n effects' hpool hn =>
      have hnone : virtualIpAt self cs.addr = none := by
        rw [virtualIpAt_of_lookup hcs]
        exact h.unopened cs.addr cs hcs hdata
      refine .leased cs.addr pool n hpool hn hnone rfl ?_
      rw [virtualIpAt_insert rfl, hcalled]
      rfl

theorem removeClient_poolChange {self : VpnServer P} (h : Tables self) {addr : Addr}
    {cs : ClientSession P} (hcs : self.clients.lookup addr = some cs) :
    PoolChange self (removeClient addr self) := by
  have hat := virtualIpAt_of_lookup hcs
  have hips := virtualIpAt_erase (removeClient_clients hcs)
  cases hip : cs.virtualIp with
  | none =>
    obtain ⟨effects, hrun⟩ := removeClient_unassigned hcs hip
    refine .same (by rw [hrun]) ?_
    rw [hips, ← hip, ← hat, Function.update_eq_self]
  | some ip =>
    rw [hip] at hat
    have hmem : ip ∈ self.ipToAddr := by
      have hlookup : self.ipToAddr.lookup ip = some addr := (h.leases.owner_iff addr ip).mpr hat
      exact AList.lookup_isSome.mp (by rw [hlookup]; rfl)
    obtain ⟨effects, hrun⟩ := removeClient_assigned hcs hip hmem
    obtain ⟨pool, n, hpool, hn, -, rfl⟩ := h.recorded addr ip hat
    refine .released addr pool n hpool hn hat ?_ hips
    rw [hrun, ← h.addressed addr cs hcs]
    exact congrArg (Option.map _) hpool

theorem UpkeepStep.poolChange {self self' : VpnServer P} (h : Tables self)
    (hstep : UpkeepStep self self') : PoolChange self self' := by
  cases hstep with
  | handedOver effects => exact .same rfl rfl
  | joined draw addr writer cs hnone hfresh =>
    exact .same rfl (virtualIpAt_store rfl (EntryFor.virtualIp (.inr ⟨hnone, hfresh⟩)))
  | entry addr cs cs' effects hcs hstep =>
    exact .same rfl (virtualIpAt_store rfl
      (hstep.keeps.2.1.trans (virtualIpAt_of_lookup hcs).symm))
  | removed addr cs hcs => exact removeClient_poolChange h hcs

/-- The pool has its books over the range in order, and gave addresses to current
clients only. -/
structure PoolTables (range : Finset Nat) (server : VpnServer P) : Prop where
  tables : Tables server
  pool : ∃ pool, server.ipPool = some pool ∧ pool.Books range ∧
    ∀ clientId n, pool.allocated.lookup clientId = some n →
      ∃ addr : Addr, clientId = addr.str ∧ virtualIpAt server addr = some (strIPv4 n)

section
variable {range : Finset Nat} {self self' : VpnServer P}

theorem PoolTables.change (h : PoolTables range self) (htables : Tables self')
    (hchange : PoolChange self self') : PoolTables range self' := by
  obtain ⟨pool, hpool, hbooks, hlisted⟩ := h.pool
  refine ⟨htables, ?_⟩
  cases hchange with
  | same hsame hips =>
    refine ⟨pool, hsame.trans hpool, hbooks, ?_⟩
    rw [hips]
    exact hlisted
  | leased addr pool' n hpool' hn hnone hafter hips =>
    cases hpool.symm.trans hpool'
    have hfree : pool.allocated.lookup addr.str = none := by
      cases hlookup : pool.allocated.lookup addr.str with
      | none => rfl
      | some m =>
        obtain ⟨other, hname, hip⟩ := hlisted addr.str m hlookup
        rw [← Addr.str_inj hname, hnone] at hip
        cases hip
    refine ⟨_, hafter, hbooks.lease hfree hn, ?_⟩
    intro clientId m hm
    rw [hips]
    by_cases hname : clientId = addr.str
    · subst hname
      simp only [IpPool.lease, AList.lookup_insert] at hm
      cases hm
      exact ⟨addr, rfl, Function.update_self ..⟩
    · simp only [IpPool.lease, AList.lookup_insert_ne hname] at hm
      obtain ⟨other, rfl, hip⟩ := hlisted clientId m hm
      have hne : other ≠ addr := fun heq => hname (congrArg Addr.str heq)
      exact ⟨other, rfl, (Function.update_of_ne hne ..).trans hip⟩
  | released addr pool' n hpool' hn hip hafter hips =>
    cases hpool.symm.trans hpool'
    refine ⟨_, hafter, hbooks.release addr.str, ?_⟩
    intro clientId m hm
    rw [IpPool.release_some hn] at hm
    rw [hips]
    by_cases hname : clientId = addr.str
    · subst hname
      simp only [AList.lookup_erase] at hm
      cases hm
    · simp only [AList.lookup_erase_ne hname] at hm
      obtain ⟨other, rfl, hip⟩ := hlisted clientId m hm
      have hne : other ≠ addr := fun heq => hname (congrArg Addr.str heq)
      exact ⟨other, rfl, (Function.update_of_ne hne ..).trans hip⟩

theorem PoolTables.step (h : PoolTables range self) (e : ServerEvent P) :
    PoolTables range (serverStep self e) :=
  serverStep_inv (fun _ _ => True) (fun _ ht => ht.tables.addressed)
    (fun _ _ _ _ _ ht _ hstep => ht.change (ht.tables.datagram hstep) (hstep.poolChange ht.tables))
    (fun _ _ ht hstep => ht.change (ht.tables.upkeep hstep) (hstep.poolChange ht.tables))
    self e h trivial

theorem PoolTables.start {config : Config} {pool : IpPool}
    (h : VpnServer.start config = .ok self) (hpool : self.ipPool = some pool) :
    PoolTables pool.available self := by
  obtain ⟨ipPool, rfl, hmade⟩ := start_cases h
  obtain ⟨subnet, poolRange, hnew⟩ := hmade pool hpool
  refine ⟨Tables.start h, pool, hpool, IpPool.Books.new hnew, ?_⟩
  intro clientId n hn
  rw [(IpPool.new_cases hnew).2.1] at hn
  cases hn

theorem PoolTables.exhausted (h : PoolTables range self)
    (hnone : ∀ pool, self.ipPool = some pool → pool.available = ∅) {n : Nat} (hn : n ∈ range) :
    ∃ addr, virtualIpAt self addr = some (strIPv4 n) := by
  obtain ⟨pool, hpool, hbooks, hlisted⟩ := h.pool
  cases (hbooks.covers n).mp (Finset.mem_coe.mpr hn) with
  | inl hfree =>
    rw [hnone pool hpool] at hfree
    exact absurd (Finset.mem_coe.mp hfree) (Finset.notMem_empty n)
  | inr hheld =>
    obtain ⟨clientId, hid⟩ := hheld
    obtain ⟨addr, -, hip⟩ := hlisted clientId n hid
    exact ⟨addr, hip⟩

theorem PoolTables.unleased (h : PoolTables range self) {pool : IpPool}
    (hpool : self.ipPool = some pool) {clientId : String}
    (hnone : ∀ addr : Addr, clientId = addr.str → self.clients.lookup addr = none) :
    pool.allocated.lookup clientId = none := by
  obtain ⟨found, hfound, -, hlisted⟩ := h.pool
  cases hfound.symm.trans hpool
  cases hlease : pool.allocated.lookup clientId with
  | none => rfl
  | some n =>
    obtain ⟨addr, hname, hip⟩ := hlisted clientId n hlease
    have hat := virtualIpAt_of_none (hnone addr hname)
    exact absurd (hip.symm.trans hat) (Option.some_ne_none _)

/-- Without clients the pool is as it was made. -/
theorem PoolTables.all_free (h : PoolTables range self)
    (hempty : ∀ addr, self.clients.lookup addr = none) :
    ∃ pool, self.ipPool = some pool ∧ pool.available = range ∧ pool.allocated = ∅ ∧
      pool.allocatedByInt = ∅ := by
  obtain ⟨pool, hpool, hbooks, -⟩ := h.pool
  have hnone (clientId : String) : pool.allocated.lookup clientId = none :=
    h.unleased hpool fun addr _ => hempty addr
  refine ⟨pool, hpool, Finset.coe_injective (hbooks.all_free hnone), Dict.eq_empty hnone, ?_⟩
  refine Dict.eq_empty fun n => ?_
  cases howner : pool.allocatedByInt.lookup n with
  | none => rfl
  | some clientId =>
    have hheld := (hbooks.owner_iff clientId n).mp howner
    exact absurd (hheld.symm.trans (hnone clientId)) (Option.some_ne_none n)

end

/-- Client table, address map and pool agree, and the range is either free or held. -/
structure PoolConsistent (range : Finset Nat) (server : VpnServer P) : Prop where
  mapped : ∀ addr ip,
    server.ipToAddr.lookup ip = some addr ↔ virtualIpAt server addr = some ip
  recorded : ∀ addr ip, virtualIpAt server addr = some ip ↔
    ∃ pool n, server.ipPool = some pool ∧ ip = strIPv4 n ∧
      pool.allocated.lookup addr.str = some n ∧ pool.allocatedByInt.lookup n = some addr.str
  distinct : ∀ a b ip,
    virtualIpAt server a = some ip → virtualIpAt server b = some ip → a = b
  partition : ∃ pool, server.ipPool = some pool ∧ pool.Books range
  held : ∀ n ∈ range, (∃ pool, server.ipPool = some pool ∧ n ∈ pool.available) ∨
    ∃ addr, virtualIpAt server addr = some (strIPv4 n)

theorem PoolTables.consistent {range : Finset Nat} {self : VpnServer P}
    (h : PoolTables range self) : PoolConsistent range self := by
  obtain ⟨pool, hpool, hbooks, hlisted⟩ := h.pool
  constructor
  · exact h.tables.leases.owner_iff
  · intro addr ip
    constructor
    · intro hip
      obtain ⟨pool', n, hpool', hn, -, rfl⟩ := h.tables.recorded addr ip hip
      cases hpool.symm.trans hpool'
      exact ⟨pool, n, hpool, rfl, hn, (hbooks.owner_iff addr.str n).mpr hn⟩
    · intro hfree
      obtain ⟨pool', n, hpool', rfl, hn, -⟩ := hfree
      cases hpool.symm.trans hpool'
      obtain ⟨other, hname, hip⟩ := hlisted addr.str n hn
      rwa [Addr.str_inj hname]
  · exact fun a b ip ha hb => h.tables.leases.holder_unique ha hb
  · exact ⟨pool, hpool, hbooks⟩
  · intro n hn
    cases (hbooks.covers n).mp (Finset.mem_coe.mpr hn) with
    | inl hfree => exact .inl ⟨pool, hpool, Finset.mem_coe.mp hfree⟩
    | inr hheld =>
      obtain ⟨clientId, hid⟩ := hheld
      obtain ⟨addr, -, hip⟩ := hlisted clientId n hid
      exact .inr ⟨addr, hip⟩

def ServerEvent.about : ServerEvent P → Option Addr
  | .datagram _ _ addr => some addr
  | .tcpConnect _ addr _ => some addr
  | .tcpDisconnect addr => some addr
  | _ => none

theorem virtualIpAt_other {self : VpnServer P} (h : Addressed self) {e : ServerEvent P}
    {a addr : Addr} (habout : e.about = some addr) (hne : a ≠ addr) :
    virtualIpAt (serverStep self e) a = virtualIpAt self a := by
  have hlookup {self' : VpnServer P} (hsame : self'.clients.lookup a = self.clients.lookup a) :
      virtualIpAt self' a = virtualIpAt self a := by rw [virtualIpAt, hsame, virtualIpAt]
  cases e with
  | datagram draw data addr' =>
    cases habout
    exact hlookup ((handleUdpData_step draw data addr h).lookup_other h hne)
  | tcpConnect draw addr' writer =>
    cases habout
    obtain ⟨e, hget⟩ | ⟨cs, -, hget⟩ | ⟨cs, -, -, hget⟩ :=
      getOrCreateSession_cases draw addr (some writer) self
    · rw [serverStep, hget]
    · rw [serverStep, hget]
    · rw [serverStep, hget]
      exact hlookup (AList.lookup_insert_ne hne)
  | tcpDisconnect addr' =>
    cases habout
    exact hlookup ((removeClient_lookup self a addr).trans (if_neg hne))
  | keepalive now addr' => cases habout
  | tunReadable nonces packet => cases habout
  | cleanupStale now => cases habout
  | cleanupFragments now => cases habout

theorem PoolTables.free_after_remove {range : Finset Nat} {self : VpnServer P}
    (h : PoolTables range self) {addr : Addr} {ip : String}
    (hip : virtualIpAt self addr = some ip) : ip ∈ freeIps (removeClient addr self) := by
  obtain ⟨cs, hcs, hcsip⟩ := Option.bind_eq_some_iff.mp hip
  obtain ⟨pool, n, hpool, hn, -, rfl⟩ := h.tables.recorded addr ip hip
  have hmem : strIPv4 n ∈ self.ipToAddr := by
    have hlookup := (h.tables.leases.owner_iff addr (strIPv4 n)).mpr hip
    exact AList.lookup_isSome.mp (by rw [hlookup]; rfl)
  obtain ⟨effects, hrun⟩ := removeClient_assigned hcs hcsip hmem
  have hname : cs.clientId = addr.str := by
    rw [ClientSession.clientId, h.tables.addressed addr cs hcs]
  have hafter : (removeClient addr self).ipPool = some (pool.release addr.str) := by
    rw [hrun, ← hname]
    exact congrArg (Option.map _) hpool
  refine ⟨_, n, hafter, ?_, rfl⟩
  rw [IpPool.release_some hn]
  exact Finset.mem_insert_self n _

/-- An entry that becomes ready in this step gets no address only where current clients
held the whole range before it. -/
def ReadyServed (range : Finset Nat) (self self' : VpnServer P) : Prop :=
  ∀ addr cs', self'.clients.lookup addr = some cs' → cs'.isReady = true → cs'.virtualIp = none →
    (∀ cs, self.clients.lookup addr = some cs → cs.isReady = false) →
    ∀ n ∈ range, ∃ a, virtualIpAt self a = some (strIPv4 n)

/-- No `CLIENT_FINISHED` is accepted for an entry that has a channel and no address, and
whose session is not established, while the pool has an address. -/
def ReturnServed (self : VpnServer P) : ServerEvent P → Prop
  | .datagram draw data addr => ∀ cs payload, self.clients.lookup addr = some cs →
      cs.data.isSome = true → cs.virtualIp = none → cs.session.isEstablished = false →
      data.headD 0 = Opcode.control.value →
      controlCall draw.coins data = some (.clientFinished payload) →
      FinishedRefused cs.session payload ∨ ∀ pool, self.ipPool = some pool → pool.available = ∅
  | _ => True

section
variable {range : Finset Nat} {self self' : VpnServer P} {draw : Draw P} {data : Bytes}
  {addr : Addr} {cs cs' : ClientSession P}

theorem isReady_iff : cs.isReady = true ↔
    cs.session.isEstablished = true ∧ cs.data.isSome = true := Bool.and_eq_true_iff

theorem EntryFor.not_ready {draw : SessionDraw P} {writer : Option Nat}
    (h : EntryFor self draw addr writer cs)
    (hbefore : ∀ cs, self.clients.lookup addr = some cs → cs.isReady = false) :
    cs.isReady = false := by
  obtain hcs | ⟨-, hfresh⟩ := h
  · exact hbefore cs hcs
  · have hdata := hfresh.unopened.1
    rw [ClientSession.isReady, hdata, Option.isSome_none, Bool.and_false]

theorem isReady_of_reset {now : Time} (h : (cs.called (.reset now data)).isReady = true) :
    cs.isReady = true := by
  have houtcome := serverCall_outcome cs.session (.reset now data)
  unfold ClientSession.called at h
  generalize serverCall cs.session (.reset now data) = t at h houtcome
  cases houtcome with
  | resetIgnored => exact h
  | reset => cases h

/-- A control message makes an entry ready only as a `CLIENT_FINISHED` that is accepted. -/
theorem finished_of_ready {call : ServerCall} (hcall : controlCall draw.coins data = some call)
    (hready : ((cs.seen draw.now).called call).isReady = true) :
    cs.data.isSome = true ∧
      ∃ payload, call = .clientFinished payload ∧ ¬ FinishedRefused cs.session payload := by
  obtain ⟨hest, hdata⟩ := isReady_iff.mp hready
  refine ⟨hdata, ?_⟩
  obtain ⟨payload, rfl⟩ | ⟨payload, rfl⟩ := controlCall_cases hcall
  · have hnot := clientHello_not_established draw.coins payload (cs.seen draw.now).session
    exact absurd (hest.symm.trans hnot) (by simp)
  · refine ⟨payload, rfl, ?_⟩
    exact (clientFinished_established_iff payload _).mp hest

theorem PoolTables.readyServed_datagram (h : PoolTables range self)
    (hok : ReturnServed self (.datagram draw data addr))
    (hstep : DatagramStep draw data addr self self') : ReadyServed range self self' := by
  intro a cs' hcs' hready hip hbefore
  by_cases ha : a = addr
  · subst ha
    have hnotready {cs₀ : ClientSession P} (hcs₀ : self.clients.lookup a = some cs₀)
        (hready₀ : cs₀.isReady = true) : False := by
      rw [hbefore cs₀ hcs₀] at hready₀
      cases hready₀
    cases hstep with
    | ignored => exact (hnotready hcs' hready).elim
    | reset cs effects _ hentry =>
      simp only [AList.lookup_insert, Option.some.injEq] at hcs'
      subst hcs'
      have hnot := hentry.not_ready hbefore
      rw [isReady_of_reset hready] at hnot
      cases hnot
    | entry cs cs₂ effects hcs hentry =>
      simp only [AList.lookup_insert, Option.some.injEq] at hcs'
      subst hcs'
      cases hentry with
      | seen => exact (hnotready hcs hready).elim
      | called call hopcode hcall =>
        obtain ⟨hdata, payload, rfl, haccepted⟩ := finished_of_ready hcall hready
        cases hest : cs.session.isEstablished with
        | true => exact (hnotready hcs (isReady_iff.mpr ⟨hest, hdata⟩)).elim
        | false =>
          obtain hrefused | hnone := hok cs payload hcs hdata hip hest hopcode hcall
          · exact absurd hrefused haccepted
          · exact fun n hn => h.exhausted hnone hn
      | received ch _ _ hwas => exact (hnotready hcs hwas).elim
    | opened cs call effects self'' hcs _ _ _ _ hopening =>
      obtain rfl := h.tables.addressed a cs hcs
      cases hopening with
      | unassigned hnone => exact fun n hn => h.exhausted hnone hn
      | assigned pool n effects' _ _ =>
        have hstored := (AList.lookup_insert _).symm.trans hcs'
        cases hstored
        cases hip
  · rw [hstep.lookup_other h.tables.addressed ha] at hcs'
    rw [hbefore cs' hcs'] at hready
    cases hready

theorem UpkeepStep.ready_before (hstep : UpkeepStep self self')
    (hcs' : self'.clients.lookup addr = some cs') (hready : cs'.isReady = true) :
    ∃ cs, self.clients.lookup addr = some cs ∧ cs.isReady = true := by
  have hstored {cs₂ : ClientSession P} {a : Addr}
      (hlookup : (self.clients.insert a cs₂).lookup addr = some cs')
      (hold : cs₂.isReady = true → ∃ cs, self.clients.lookup a = some cs ∧ cs.isReady = true) :
      ∃ cs, self.clients.lookup addr = some cs ∧ cs.isReady = true :=
    Dict.forall_insert (p := fun a (cs : ClientSession P) => cs.isReady = true →
      ∃ cs, self.clients.lookup a = some cs ∧ cs.isReady = true)
      (fun _ cs hcs hwas => ⟨cs, hcs, hwas⟩) hold addr cs' hlookup hready
  cases hstep with
  | handedOver effects => exact ⟨cs', hcs', hready⟩
  | joined draw a writer cs _ hfresh =>
    refine hstored hcs' fun hnew => ?_
    rw [ClientSession.isReady, hfresh.unopened.1, Option.isSome_none, Bool.and_false] at hnew
    cases hnew
  | entry a cs cs₂ effects hcs hupkeep =>
    refine hstored hcs' fun hnew => ⟨cs, hcs, ?_⟩
    cases hupkeep with
    | keepalive now => exact hnew
    | encrypted nonces packet ch hdata =>
      rw [isReady_iff] at hnew ⊢
      exact ⟨hnew.1, by rw [hdata]; rfl⟩
    | swept now =>
      rw [isReady_iff] at hnew ⊢
      exact ⟨hnew.1, by simpa using hnew.2⟩
  | removed a cs hcs => exact ⟨cs', lookup_of_erase (removeClient_clients hcs) hcs', hready⟩

theorem UpkeepSteps.ready_before (hsteps : UpkeepSteps self self')
    (hcs' : self'.clients.lookup addr = some cs') (hready : cs'.isReady = true) :
    ∃ cs, self.clients.lookup addr = some cs ∧ cs.isReady = true := by
  induction hsteps generalizing cs' with
  | refl => exact ⟨cs', hcs', hready⟩
  | tail _ hstep ih =>
    obtain ⟨cs, hcs, hwas⟩ := hstep.ready_before hcs' hready
    exact ih hcs hwas

theorem PoolTables.readyServed (h : PoolTables range self) {e : ServerEvent P}
    (hok : ReturnServed self e) : ReadyServed range self (serverStep self e) := by
  have hother (hne : ∀ draw data addr, e ≠ .datagram draw data addr) :
      ReadyServed range self (serverStep self e) := by
    intro a cs' hcs' hready _ hbefore
    obtain ⟨cs, hcs, hwas⟩ :=
      (serverStep_upkeep h.tables.addressed e hne).ready_before hcs' hready
    rw [hbefore cs hcs] at hwas
    cases hwas
  cases e with
  | datagram draw data addr =>
    exact h.readyServed_datagram hok (handleUdpData_step draw data addr h.tables.addressed)
  | _ => exact hother (by simp)

theorem handleUdpData_finished {payload : Bytes} (haddr : cs.addr = addr)
    (hcs : self.clients.lookup addr = some cs) (hdata : cs.data.isSome = true)
    (hopcode : data.headD 0 = Opcode.control.value)
    (hcall : controlCall draw.coins data = some (.clientFinished payload)) :
    (handleUdpData draw data addr self).2.clients.lookup addr =
      some ((cs.seen draw.now).called (.clientFinished payload)) := by
  rw [handleUdpData_control hcs hopcode hcall]
  subst haddr
  obtain ⟨effects, hrun | ⟨-, hnone, -⟩⟩ := callThenOpen_cases (cs.seen draw.now)
    (serverHandler (.clientFinished payload)) (.clientFinished payload) rfl
    { self with clients := self.clients.insert cs.addr (cs.seen draw.now) }
  · rw [hrun]
    exact AList.lookup_insert _
  · have hdata' : cs.data = none := hnone
    rw [hdata'] at hdata
    cases hdata

/-- The condition is needed: otherwise the step makes an entry ready without an address. -/
theorem PoolTables.returnServed (h : PoolTables range self) {e : ServerEvent P}
    (hserved : ReadyServed range self (serverStep self e)) : ReturnServed self e := by
  cases e with
  | datagram draw data addr =>
    intro cs payload hcs hdata hip hest hopcode hcall
    by_cases hrefused : FinishedRefused cs.session payload
    · exact .inl hrefused
    · right
      intro pool hpool
      have haddr := h.tables.addressed addr cs hcs
      have hafter := handleUdpData_finished haddr hcs hdata hopcode hcall
      have hready : ((cs.seen draw.now).called (.clientFinished payload)).isReady = true :=
        isReady_iff.mpr ⟨(clientFinished_established_iff payload cs.session).mpr hrefused, hdata⟩
      have hbefore : ∀ cs₀, self.clients.lookup addr = some cs₀ → cs₀.isReady = false := by
        intro cs₀ hcs₀
        cases hcs.symm.trans hcs₀
        rw [ClientSession.isReady, hest, Bool.false_and]
      have hheld := hserved addr _ hafter hready hip hbefore
      obtain ⟨pool', hpool', hbooks, -⟩ := h.pool
      cases hpool.symm.trans hpool'
      by_contra hsome
      obtain ⟨n, hn⟩ := Finset.nonempty_iff_ne_empty.mpr hsome
      have hrange : n ∈ range := Finset.mem_coe.mp ((hbooks.covers n).mpr (.inl hn))
      obtain ⟨a, ha⟩ := hheld n hrange
      exact h.tables.leases.held_not_free a _ ha ⟨pool, n, hpool, hn, rfl⟩
  | _ => trivial

end

/-- What every state of a server with a pool, and every step of it, keeps. -/
structure PoolKeeping (range : Finset Nat) (server : VpnServer P) : Prop where
  consistent : PoolConsistent range server
  others : ∀ e addr a, ServerEvent.about e = some addr → a ≠ addr →
    virtualIpAt (serverStep server e) a = virtualIpAt server a
  freed : ∀ addr ip, virtualIpAt server addr = some ip → ip ∈ freeIps (removeClient addr server)

theorem PoolTables.run {range : Finset Nat} {self : VpnServer P} (h : PoolTables range self)
    (events : List (ServerEvent P)) : PoolTables range (run serverStep events self) :=
  inv_run_always (fun _ e hs => hs.step e) events self h

/-- Table, address map and pool agree in every state of every run; an entry that becomes
ready gets no address only from an exhausted pool, exactly when no entry becomes ready a
second time without an address while there is one. -/
theorem pool_consistent_iff (config : Config) (start : VpnServer P) (pool : IpPool)
    (hstart : VpnServer.start config = .ok start) (hpool : start.ipPool = some pool)
    (events : List (ServerEvent P)) :
    (∀ before after, events = before ++ after →
      PoolKeeping pool.available (run serverStep before start)) ∧
    ((∀ before e after, events = before ++ e :: after →
      ReadyServed pool.available (run serverStep before start)
        (serverStep (run serverStep before start) e)) ↔
      Meets serverStep ReturnServed events start) := by
  have htables (before : List (ServerEvent P)) :
      PoolTables pool.available (run serverStep before start) :=
    (PoolTables.start hstart hpool).run before
  refine ⟨fun before after _ => ⟨(htables before).consistent, ?_, ?_⟩, ?_⟩
  · exact fun e addr a habout hne =>
      virtualIpAt_other (htables before).tables.addressed habout hne
  · exact fun addr ip hip => (htables before).free_after_remove hip
  · rw [meets_iff_split]
    constructor
    · intro hserved before e after hsplit
      exact (htables before).returnServed (hserved before e after hsplit)
    · intro hok before e after hsplit
      exact (htables before).readyServed (hok before e after hsplit)

namespace Transparent

theorem returnServed_of_no_channel {self : VpnServer primitives}
    (h : ((self.clients.lookup peer).all fun cs => cs.data.isNone) = true)
    (draw : Draw primitives) (data : Bytes) : ReturnServed self (.datagram draw data peer) := by
  intro cs payload hcs hdata
  rw [hcs, Option.all_some] at h
  cases hchannel : cs.data with
  | none =>
    rw [hchannel] at hdata
    cases hdata
  | some ch =>
    rw [hchannel] at h
    cases h

/-- Several handshakes with a server that has two addresses; the last one is served again. -/
theorem pool_consistent_handshake : ∃ pool, started.ipPool = some pool ∧
    PoolKeeping pool.available (run serverStep attempts started) ∧
    ReadyServed pool.available (run serverStep (attempts.take 8) started)
      (serverStep (run serverStep (attempts.take 8) started)
        (.datagram ⟨draw 5, []⟩ (finishedPacket [0, 0] 8) peer)) := by
  have hsome : started.ipPool.isSome = true := by decide +kernel
  obtain ⟨pool, hpool⟩ := Option.isSome_iff_exists.mp hsome
  obtain ⟨hkeeping, hserved⟩ := pool_consistent_iff poolConfig started pool rfl hpool attempts
  have hreturns : Meets serverStep ReturnServed attempts started :=
    ⟨returnServed_of_no_channel (by decide +kernel) _ _,
      returnServed_of_no_channel (by decide +kernel) _ _,
      returnServed_of_no_channel (by decide +kernel) _ _,
      fun _ _ _ _ _ _ hopcode => absurd hopcode (by decide),
      fun _ payload _ _ _ _ _ hcall => absurd hcall (helloPacket_not_finished payload), trivial,
      returnServed_of_no_channel (by decide +kernel) _ _,
      returnServed_of_no_channel (by decide +kernel) _ _,
      returnServed_of_no_channel (by decide +kernel) _ _, trivial⟩
  exact ⟨pool, hpool, hkeeping attempts [] (List.append_nil _).symm,
    hserved.mpr hreturns (attempts.take 8) _ [] rfl⟩

def oneAddressConfig : Config := { poolConfig with ifconfigPool := some "10.8.0.2-10.8.0.2" }

def oneAddressStarted : VpnServer primitives :=
  match VpnServer.start oneAddressConfig with
  | .ok self => self
  | .error _ => ⟨oneAddressConfig, true, ∅, ∅, none, []⟩

def secondPeer : Addr := ⟨⟨[192, 168, 1, 8], rfl⟩, 40000⟩

def drawAt (now : Time) : Draw primitives := ⟨⟨sidOf 5, keyOf 5, now⟩, []⟩

def handshakeAt (now : Time) (addr : Addr) (b : UInt8) : List (ServerEvent primitives) :=
  [.datagram (drawAt now) (resetPacket b) addr, .datagram (drawAt now) (helloPacket [] b) addr,
    .datagram (drawAt now) (finishedPacket [0, 0] b) addr]

/-- The first client gets the address and falls silent, the second gets none and stays;
then the first is dropped, and the second sends all but the end of a new handshake. -/
def beforeReturn : List (ServerEvent primitives) :=
  handshakeAt 0 peer 7 ++ handshakeAt 100 secondPeer 9 ++ [.cleanupStale 130] ++
    (handshakeAt 131 secondPeer 9).take 2

def lastFinished : ServerEvent primitives :=
  .datagram (drawAt 131) (finishedPacket [0, 0] 9) secondPeer

theorem oneAddressStarted_start : VpnServer.start oneAddressConfig = .ok oneAddressStarted := rfl

theorem beforeReturn_reachable : ServerReachable (run serverStep beforeReturn oneAddressStarted) :=
  ⟨oneAddressStarted, beforeReturn, ⟨oneAddressConfig, oneAddressStarted_start⟩, rfl⟩

/-- The second client becomes ready again, gets no address, and the only one is free. -/
theorem ready_again_without_address :
    let before := run serverStep beforeReturn oneAddressStarted
    ∃ pool, oneAddressStarted.ipPool = some pool ∧
      ¬ ReadyServed pool.available before (serverStep before lastFinished) := by
  intro before
  have hrange : oneAddressStarted.ipPool.any
      (fun pool => decide (0x0a080002 ∈ pool.available)) = true := by
    decide +kernel
  have hbefore : ((before.clients.lookup secondPeer).all fun cs => !cs.isReady) = true := by
    decide +kernel
  have hafter : ((serverStep before lastFinished).clients.lookup secondPeer).any
      (fun cs => cs.isReady && cs.virtualIp.isNone) = true := by
    decide +kernel
  have hfree : before.ipPool.any (fun pool => decide (0x0a080002 ∈ pool.available)) = true := by
    decide +kernel
  obtain ⟨pool, hpool, hn⟩ := (Option.any_eq_true _ _).mp hrange
  obtain ⟨cs', hcs', hready⟩ := (Option.any_eq_true _ _).mp hafter
  obtain ⟨left, hleft, hnleft⟩ := (Option.any_eq_true _ _).mp hfree
  obtain ⟨hready, hbare⟩ := Bool.and_eq_true_iff.mp hready
  refine ⟨pool, hpool, ?_⟩
  intro hserved
  have hnotready : ∀ cs, before.clients.lookup secondPeer = some cs → cs.isReady = false := by
    intro cs hcs
    rw [hcs, Option.all_some] at hbefore
    simpa using hbefore
  obtain ⟨a, ha⟩ := hserved secondPeer cs' hcs' hready (Option.isNone_iff_eq_none.mp hbare)
    hnotready 0x0a080002 (of_decide_eq_true hn)
  exact beforeReturn_reachable.tables.leases.held_not_free a _ ha
    ⟨left, 0x0a080002, hleft, of_decide_eq_true hnleft, rfl⟩

end Transparent
end PyVpn
