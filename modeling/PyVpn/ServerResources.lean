import PyVpn.ServerLife

/-! What a server life leaves behind. The routes it adds it deletes, whatever its clients do;
the NAT rule stays where the start fails after it or where root was given up. -/
namespace PyVpn
open EventRun Ledger
variable {P : Primitives}

namespace ServerLife

def ownRule (life : ServerLife P) : List NatRule :=
  life.natInterface.toList.map fun name => ⟨life.server.config.serverNetwork, name⟩

section Start
variable {life : ServerLife P}

theorem setIp_run (faults : StartFaults) (cidr : String) (life : ServerLife P) :
    (∃ e, setIp faults cidr life = (.error e, life)) ∨ setIp faults cidr life = (.ok (), life) := by
  unfold setIp TunInterface.setIp
  rw [Py.bind_run]
  simp only [Py.self_run]
  split
  · exact Py.raiseFault_cases faults.setIp life
  · exact .inl ⟨.valueError, rfl⟩

theorem startTun_cases (faults : StartFaults) (life : ServerLife P) :
    (∃ e opened, startTun faults life = (.error e, { life with tunOpen := opened })) ∨
    startTun faults life = (.ok (), { life with
      tunOpen := true
      networkRoute := (life.networkRoute.1 ++ [.acquire life.server.config.serverNetwork],
        life.networkRoute.2) }) := by
  unfold startTun
  simp only [Py.bind_run, Py.self_run, Py.ofExcept_run]
  cases life.server.config.serverIp with
  | error e => exact .inl ⟨e, life.tunOpen, rfl⟩
  | ok serverIp =>
    obtain ⟨e, hopen⟩ | hopen := Py.raiseFault_cases faults.openTun life
    · exact .inl ⟨e, life.tunOpen, by simp only [hopen]⟩
    simp only [hopen, Py.assign_run]
    obtain ⟨e, hip⟩ | hip := setIp_run faults serverIp { life with tunOpen := true }
    · exact .inl ⟨e, true, by simp only [hip]⟩
    simp only [hip]
    obtain ⟨e, hmtu⟩ | hmtu := Py.raiseFault_cases faults.setMtu { life with tunOpen := true }
    · exact .inl ⟨e, true, by simp only [hmtu]⟩
    simp only [hmtu]
    obtain ⟨e, hroute⟩ | hroute := Py.raiseFault_cases faults.addRoute { life with tunOpen := true }
    · exact .inl ⟨e, true, by simp only [hroute]⟩
    simp only [hroute]
    exact .inr trivial

theorem truthy_some {x : Option String} (h : truthy x = true) : ∃ name, x = some name ∧ name ≠ "" := by
  cases x with
  | none => cases h
  | some name => exact ⟨name, rfl, by simpa [truthy] using h⟩

theorem startNat_cases (faults : StartFaults) (interface : Option String) (life : ServerLife P) :
    startNat faults interface life = (.ok (), life) ∨
    ∃ name, name ≠ "" ∧ startNat faults interface life = (.ok (), { life with
      natInterface := some name
      host := { life.host with
        rules := life.host.rules ++ [⟨life.server.config.serverNetwork, name⟩] } }) := by
  unfold startNat
  by_cases hinterface : truthy interface = true
  · obtain ⟨name, rfl, hname⟩ := truthy_some hinterface
    rw [if_pos hinterface]
    simp only [Py.tryExcept_run, Py.bind_run, Py.self_run, setupNat]
    cases hroot : isRoot life.host.process with
    | false => exact .inl rfl
    | true =>
      simp only [Bool.not_true, Bool.false_eq_true, if_false, Py.bind_run]
      obtain ⟨e, hrefused⟩ | hallowed := Py.raiseFault_cases faults.appendRule life
      · exact .inl (by simp only [hrefused]; rfl)
      · refine .inr ⟨name, hname, ?_⟩
        simp only [hallowed, Py.assign_run, Host.appendRule, hroot, if_true]
        rfl
  · rw [if_neg hinterface]
    exact .inl rfl

theorem giveUpRoot_run (faults : StartFaults) (life : ServerLife P) :
    ∃ r process, giveUpRoot faults life =
      (r, { life with host := { life.host with process := process } }) := by
  exact ⟨(maybeDropPrivileges faults.db faults.drop life.server.config.user life.host.process).1,
    (maybeDropPrivileges faults.db faults.drop life.server.config.user life.host.process).2, rfl⟩

def entered (life : ServerLife P) : ServerLife P :=
  { life with
    server := { life.server with transport := !life.server.config.isTcp }
    listening := true
    running := true
    phase := .ready }

/-- The second half adds a rule or none, changes what the process runs as, and raises or
enters the loop. -/
theorem startNet_cases (faults : StartFaults) (life : ServerLife P) :
    ∃ nat host, (nat = life.natInterface ∧ host.rules = life.host.rules ∨
        ∃ name, name ≠ "" ∧ nat = some name ∧
          host.rules = life.host.rules ++ [⟨life.server.config.serverNetwork, name⟩]) ∧
      ((∃ e, startNet faults life =
          (.error e, { life with natInterface := nat, host := host })) ∨
        startNet faults life =
          (.ok (), entered { life with natInterface := nat, host := host })) := by
  have hlate (nat : Option String) (host : Host)
      (hnat : nat = life.natInterface ∧ host.rules = life.host.rules ∨
        ∃ name, name ≠ "" ∧ nat = some name ∧
          host.rules = life.host.rules ++ [⟨life.server.config.serverNetwork, name⟩])
      {interface : Option String} (hinterface : getDefaultInterface faults.defaultRoute = .ok interface)
      (hrun : startNat faults interface life =
        (.ok (), { life with natInterface := nat, host := host })) :
      ∃ nat host, (nat = life.natInterface ∧ host.rules = life.host.rules ∨
          ∃ name, name ≠ "" ∧ nat = some name ∧
            host.rules = life.host.rules ++ [⟨life.server.config.serverNetwork, name⟩]) ∧
        ((∃ e, startNet faults life =
            (.error e, { life with natInterface := nat, host := host })) ∨
          startNet faults life =
            (.ok (), entered { life with natInterface := nat, host := host })) := by
    obtain ⟨r, process, hdrop⟩ := giveUpRoot_run faults
      { life with natInterface := nat, host := host }
    refine ⟨nat, { host with process := process }, hnat, ?_⟩
    unfold startNet
    simp only [Py.bind_run, Py.ofExcept_run, hinterface, hrun, hdrop]
    cases r with
    | error e => exact .inl ⟨e, rfl⟩
    | ok u =>
      obtain ⟨e, hlisten⟩ | hlisten := Py.raiseFault_cases faults.listen
        { life with natInterface := nat, host := { host with process := process } }
      · exact .inl ⟨e, by simp only [hlisten]⟩
      · exact .inr (by simp only [hlisten]; rfl)
  cases hinterface : getDefaultInterface faults.defaultRoute with
  | error e =>
    refine ⟨life.natInterface, life.host, .inl ⟨rfl, rfl⟩, .inl ⟨e, ?_⟩⟩
    unfold startNet
    simp only [Py.bind_run, Py.ofExcept_run, hinterface]
  | ok interface =>
    obtain hrun | ⟨name, hname, hrun⟩ := startNat_cases faults interface life
    · exact hlate life.natInterface life.host (.inl ⟨rfl, rfl⟩) hinterface hrun
    · exact hlate (some name) _ (.inr ⟨name, hname, rfl, rfl⟩) hinterface hrun

end Start

section Cleanup
variable {server : VpnServer P}

def clientIps (server : VpnServer P) : List String :=
  server.clients.keys.filterMap (virtualIpAt server)

theorem clientIps_nodup (htables : Tables server) : (clientIps server).Nodup := by
  refine List.Nodup.filterMap ?_ server.clients.keys_nodup
  intro a b ip ha hb
  exact htables.leases.holder_unique ha hb

theorem clientIps_assigned (htables : Tables server) :
    (clientIps server).toFinset = assignedIps server := by
  ext ip
  rw [List.mem_toFinset, mem_assignedIps, clientIps, List.mem_filterMap]
  constructor
  · intro h
    obtain ⟨addr, -, hip⟩ := h
    have hlookup := (htables.leases.owner_iff addr ip).mpr hip
    exact AList.lookup_isSome.mp (by rw [hlookup]; rfl)
  · intro h
    obtain ⟨addr, haddr⟩ := Option.isSome_iff_exists.mp (AList.lookup_isSome.mpr h)
    have hip := (htables.leases.owner_iff addr ip).mp haddr
    refine ⟨addr, ?_, hip⟩
    obtain ⟨cs, hcs, -⟩ := Option.bind_eq_some_iff.mp hip
    exact AList.mem_keys.mp (AList.lookup_isSome.mp (by rw [hcs]; rfl))

theorem released_routes {cs : ClientSession P} (hip : ∀ ip, cs.virtualIp = some ip → ip ≠ "") :
    (released cs).filterMap Effect.routeOp = cs.virtualIp.toList.map .release := by
  unfold released
  rw [List.filterMap_append, filterMap_writerClose, List.append_nil]
  cases hvirtual : cs.virtualIp with
  | none => rfl
  | some ip =>
    have htruthy : truthy (some ip) = true := by simpa [truthy] using hip ip hvirtual
    rw [if_pos htruthy]
    rfl

theorem routeLog_releaseClients (htables : Tables server) :
    routeLog (releaseClients server) = routeLog server ++ (clientIps server).map .release := by
  have hentries (keys : List Addr) :
      ((keys.filterMap fun addr => server.clients.lookup addr).flatMap released).filterMap
        Effect.routeOp = (keys.filterMap (virtualIpAt server)).map .release := by
    induction keys with
    | nil => rfl
    | cons addr keys ih =>
      cases hcs : server.clients.lookup addr with
      | none =>
        have hat : virtualIpAt server addr = none := virtualIpAt_of_none hcs
        simp only [List.filterMap_cons, hcs, hat, ih]
      | some cs =>
        have hat : virtualIpAt server addr = cs.virtualIp := virtualIpAt_of_lookup hcs
        have hne : ∀ ip, cs.virtualIp = some ip → ip ≠ "" := by
          intro ip hip
          obtain ⟨pool, n, -, -, -, rfl⟩ := htables.recorded addr ip (hat.trans hip)
          exact strIPv4_ne_empty n
        simp only [List.filterMap_cons, hcs, hat, List.flatMap_cons, List.filterMap_append,
          released_routes hne, ih]
        cases cs.virtualIp with
        | none => rfl
        | some ip => rfl
  rw [routeLog, releaseClients, List.filterMap_append]
  exact congrArg (routeLog server ++ ·) (hentries server.clients.keys)

def lifeRoutes (life : ServerLife P) : List (Op String) :=
  life.networkRoute.1 ++ routeLog life.server ++ life.networkRoute.2

theorem strIPv4_ne_network {network : String} (hslash : '/' ∈ network.toList) (n : Nat) :
    strIPv4 n ≠ network := by
  intro heq
  have hchars : '/' ∈ dottedChars (BigEndian.be 4 n) := by
    rw [← heq] at hslash
    simpa [strIPv4, dotted] using hslash
  exact mem_dottedChars (by decide) (by decide) _ hchars

theorem replay_ready (hmatch : RoutesMatch server) {network : String} (hslash : '/' ∈ network.toList) :
    replay (.acquire network :: routeLog server) ∅ =
      some (insert network (assignedIps server)) := by
  have hother : ∀ op ∈ routeLog server, op ≠ .acquire network ∧ op ≠ .release network := by
    intro op hop
    have hne := strIPv4_ne_network hslash
    obtain ⟨n, rfl | rfl⟩ := hmatch.named op hop
    · exact ⟨fun heq => hne n (Op.acquire.inj heq), (nomatch ·)⟩
    · exact ⟨(nomatch ·), fun heq => hne n (Op.release.inj heq)⟩
  have hinserted := replay_insert hmatch.replayed hother
  simpa [replay, apply] using hinserted

theorem replay_left (htables : Tables server) (hmatch : RoutesMatch server) {network : String}
    (hslash : '/' ∈ network.toList) :
    replay (.acquire network :: routeLog (releaseClients server) ++ [.release network]) ∅ =
      some ∅ := by
  have hready := replay_ready hmatch hslash
  have hnot : network ∉ assignedIps server := by
    intro hmem
    rw [← clientIps_assigned htables, List.mem_toFinset] at hmem
    obtain ⟨addr, -, hip⟩ := List.mem_filterMap.mp hmem
    obtain ⟨pool, n, -, -, -, hnetwork⟩ := htables.recorded addr network hip
    exact strIPv4_ne_network hslash n hnetwork.symm
  have hclients : replay (.acquire network :: routeLog (releaseClients server)) ∅ =
      some {network} := by
    rw [routeLog_releaseClients htables, ← List.cons_append, replay_append, hready,
      Option.bind_some, replay_releases (clientIps_nodup htables), clientIps_assigned htables]
    · congr 1
      ext other
      simp only [Finset.mem_sdiff, Finset.mem_insert, Finset.mem_singleton]
      constructor
      · intro h
        exact h.1.resolve_right h.2
      · intro h
        exact ⟨.inl h, h ▸ hnot⟩
    · intro ip hip
      rw [Finset.mem_insert, ← clientIps_assigned htables, List.mem_toFinset]
      exact .inr hip
  have hlast := replay_release hclients (Finset.mem_singleton_self network)
  simpa using hlast

/-- Leaving the loop releases the clients and the network; the NAT rule goes too. -/
theorem leave_run (life : ServerLife P) :
    life.leave = { life with
      server := { releaseClients life.server with transport := false }
      networkRoute := (life.networkRoute.1,
        life.networkRoute.2 ++ [.release life.server.config.serverNetwork])
      host := if truthy life.natInterface then
          life.host.deleteRule ⟨life.server.config.serverNetwork, life.natInterface.getD ""⟩
        else life.host
      natInterface := if truthy life.natInterface then none else life.natInterface
      tunOpen := false
      listening := false
      phase := .finished } := by
  cases h : truthy life.natInterface with
  | true =>
    simp only [leave, cleanup, h, if_true]
  | false =>
    simp only [leave, cleanup, h, Bool.false_eq_true, if_false]

end Cleanup
end ServerLife

section Lives
variable {config : Config} {host : Host} {first started life : ServerLife P}
  {faults : StartFaults}

/-- What holds in the loop: the tables, the routes of this life, and what the start set up. -/
structure InLoop (started life : ServerLife P) : Prop where
  phase : life.phase = .ready
  tables : Tables life.server
  routes : RoutesMatch life.server
  config : life.server.config = started.server.config
  networkRoute : life.networkRoute = ([.acquire started.server.config.serverNetwork], [])
  natInterface : life.natInterface = started.natInterface
  host : life.host = started.host

theorem finished_run (h : life.phase = .finished) (events : List (ServerLifeEvent P)) :
    run serverLifeStep events life = life := by
  induction events with
  | nil => rfl
  | cons e events ih =>
    have hstep : serverLifeStep life e = life := by
      unfold serverLifeStep
      rw [h]
    rw [run_cons, hstep, ih]

theorem InLoop.run (h : InLoop started life) (events : List (ServerLifeEvent P)) :
    InLoop started (EventRun.run serverLifeStep events life) ∨
      ∃ last, InLoop started last ∧ EventRun.run serverLifeStep events life = last.leave := by
  induction events generalizing life with
  | nil => exact .inl h
  | cons e events ih =>
    have hleft (hstep : serverLifeStep life e = life.leave) :
        ∃ last, InLoop started last ∧
          EventRun.run serverLifeStep (e :: events) life = last.leave := by
      refine ⟨life, h, ?_⟩
      rw [run_cons, hstep]
      exact finished_run rfl events
    have hstays (hnext : InLoop started (serverLifeStep life e)) :
        InLoop started (EventRun.run serverLifeStep (e :: events) life) ∨
          ∃ last, InLoop started last ∧
            EventRun.run serverLifeStep (e :: events) life = last.leave := ih hnext
    cases e with
    | start faults =>
      refine hstays ?_
      have hstep : serverLifeStep life (.start faults) = life := by
        unfold serverLifeStep
        rw [h.phase]
      rw [hstep]
      exact h
    | callback e =>
      refine hstays ?_
      have hstep : serverLifeStep life (.callback e) =
          { life with server := serverStep life.server e } := by
        unfold serverLifeStep
        rw [h.phase]
      have hconfig : (serverStep life.server e).config = life.server.config :=
        serverStep_config h.tables.addressed e
      rw [hstep]
      exact ⟨h.phase, h.tables.run [e], h.routes.event h.tables e, hconfig.trans h.config,
        h.networkRoute, h.natInterface, h.host⟩
    | test =>
      have hstep : serverLifeStep life .test = if life.running then life else life.leave := by
        unfold serverLifeStep
        rw [h.phase]
      cases hrunning : life.running with
      | true =>
        rw [hrunning, if_pos rfl] at hstep
        refine hstays ?_
        rw [hstep]
        exact h
      | false =>
        rw [hrunning, if_neg Bool.false_ne_true] at hstep
        exact .inr (hleft hstep)
    | stop =>
      refine hstays ?_
      have hstep : serverLifeStep life .stop = { life with running := false } := by
        unfold serverLifeStep
        rw [h.phase]
      rw [hstep]
      exact ⟨h.phase, h.tables, h.routes, h.config, h.networkRoute, h.natInterface, h.host⟩
    | raised =>
      refine .inr (hleft ?_)
      unfold serverLifeStep
      rw [h.phase]

theorem new_first (hnew : ServerLife.new config host = .ok first) :
    ∃ ipPool, first = ⟨⟨config, false, ∅, ∅, ipPool, []⟩, .fresh, false, none, false, false, host,
      ([], [])⟩ ∧ Tables { first.server with transport := !config.isTcp } := by
  obtain ⟨server, hserver, hnew⟩ := bind_eq_ok.mp hnew
  have hstart : VpnServer.start config = .ok { server with transport := !config.isTcp } := by
    rw [VpnServer.start, hserver]
    rfl
  obtain ⟨ipPool, rfl, -⟩ := new_cases hserver
  cases hnew
  exact ⟨ipPool, rfl, Tables.start hstart⟩

/-- What the start of a life can come to. -/
structure StartOutcome (config : Config) (host : Host) (first : ServerLife P)
    (result : Except PyError Unit) (started : ServerLife P) : Prop where
  kept : started.server.config = config
  named : ∀ name, started.natInterface = some name → name ≠ ""
  rules : started.host.rules = host.rules ++ started.ownRule
  outcome : result = .ok () ∧ InLoop started started ∨
    (∃ e, result = .error e) ∧ started.server = first.server ∧ started.networkRoute.2 = [] ∧
      (started.networkRoute.1 = [] ∨
        started.networkRoute.1 = [.acquire config.serverNetwork])

theorem start_outcome (hnew : ServerLife.new config host = .ok first) (faults : StartFaults) :
    StartOutcome config host first (ServerLife.start faults first).1
      (ServerLife.start faults first).2 := by
  obtain ⟨ipPool, rfl, htables⟩ := new_first hnew
  obtain ⟨e, opened, htun⟩ | htun := ServerLife.startTun_cases faults
    ⟨⟨config, false, ∅, ∅, ipPool, []⟩, .fresh, false, none, false, false, host, ([], [])⟩
  · rw [ServerLife.start, Py.bind_run, htun]
    exact ⟨rfl, fun name hname => (nomatch hname), (List.append_nil _).symm,
      .inr ⟨⟨e, rfl⟩, rfl, rfl, .inl rfl⟩⟩
  have hwhole : ServerLife.start (P := P) faults ⟨⟨config, false, ∅, ∅, ipPool, []⟩, .fresh, false,
      none, false, false, host, ([], [])⟩ =
        ServerLife.startNet faults ⟨⟨config, false, ∅, ∅, ipPool, []⟩, .fresh, false, none, true,
          false, host, ([.acquire config.serverNetwork], [])⟩ := by
    rw [ServerLife.start, Py.bind_run, htun]
    rfl
  rw [hwhole]
  obtain ⟨nat, host', hnat, hrun⟩ := ServerLife.startNet_cases faults
    ⟨⟨config, false, ∅, ∅, ipPool, []⟩, .fresh, false, none, true, false, host,
      ([.acquire config.serverNetwork], [])⟩
  have hnamed : ∀ name, nat = some name → name ≠ "" := by
    obtain ⟨rfl, -⟩ | ⟨name, hne, rfl, -⟩ := hnat
    · exact fun name hname => (nomatch hname)
    · intro name' hname
      cases hname
      exact hne
  have hrules : host'.rules = host.rules ++ nat.toList.map fun name =>
      ⟨config.serverNetwork, name⟩ := by
    obtain ⟨rfl, hsame⟩ | ⟨name, -, rfl, hadded⟩ := hnat
    · exact hsame.trans (List.append_nil _).symm
    · exact hadded
  obtain ⟨e, hnet⟩ | hnet := hrun
  · rw [hnet]
    exact ⟨rfl, hnamed, hrules, .inr ⟨⟨e, rfl⟩, rfl, rfl, .inr rfl⟩⟩
  · rw [hnet]
    have hempty : RoutesMatch (P := P) ⟨config, !config.isTcp, ∅, ∅, ipPool, []⟩ :=
      ⟨rfl, fun op hop => absurd hop List.not_mem_nil⟩
    exact ⟨rfl, hnamed, hrules, .inl ⟨rfl, rfl, htables, hempty, rfl, rfl, rfl, rfl⟩⟩

/-- A life once its start is over: refused, in the loop, or after it. -/
theorem life_cases (hnew : ServerLife.new config host = .ok first) (faults : StartFaults)
    (events : List (ServerLifeEvent P)) :
    ((∃ e, (ServerLife.start faults first).1 = .error e) ∧
      run serverLifeStep (.start faults :: events) first =
        { (ServerLife.start faults first).2 with phase := .finished }) ∨
    ((ServerLife.start faults first).1 = .ok () ∧
      (InLoop (ServerLife.start faults first).2
          (run serverLifeStep (.start faults :: events) first) ∨
        ∃ last, InLoop (ServerLife.start faults first).2 last ∧
          run serverLifeStep (.start faults :: events) first = last.leave)) := by
  have hphase : first.phase = .fresh := by
    obtain ⟨ipPool, rfl, -⟩ := new_first hnew
    rfl
  obtain ⟨hok, hloop⟩ | ⟨⟨e, he⟩, -⟩ := (start_outcome hnew faults).outcome
  · have hstep : serverLifeStep first (.start faults) = (ServerLife.start faults first).2 := by
      unfold serverLifeStep
      simp only [hphase, hok]
    rw [run_cons, hstep]
    exact .inr ⟨hok, hloop.run events⟩
  · have hstep : serverLifeStep first (.start faults) =
        { (ServerLife.start faults first).2 with phase := .finished } := by
      unfold serverLifeStep
      simp only [hphase, he]
    rw [run_cons, hstep]
    exact .inl ⟨⟨e, he⟩, finished_run rfl events⟩

/-- The route commands of a whole life never add what is there or delete what is not. In the
loop they leave the network and the assigned addresses; after it they leave nothing, the
tables are empty and the device and the socket are closed. -/
theorem server_life_routes (hnew : ServerLife.new config host = .ok first)
    (hslash : '/' ∈ config.serverNetwork.toList) (faults : StartFaults)
    (events : List (ServerLifeEvent P)) (life : ServerLife P)
    (hlife : run serverLifeStep (.start faults :: events) first = life) :
    ∃ routes, replay (ServerLife.lifeRoutes life) ∅ = some routes ∧
      (life.phase = .ready →
        routes = insert config.serverNetwork (assignedIps life.server)) ∧
      ((ServerLife.start faults first).1 = .ok () → life.phase = .finished →
        routes = ∅ ∧ life.server.clients = ∅ ∧ life.server.ipToAddr = ∅ ∧
          life.tunOpen = false ∧ life.listening = false) := by
  have hstart := start_outcome hnew faults
  have hnetwork : (ServerLife.start faults first).2.server.config.serverNetwork =
      config.serverNetwork := congrArg Config.serverNetwork hstart.kept
  obtain ⟨⟨e, he⟩, hrun⟩ | ⟨hok, hrun | ⟨last, hlast, hrun⟩⟩ := life_cases hnew faults events
  · obtain ⟨hok, -⟩ | ⟨-, hserver, hafter, hbefore⟩ := hstart.outcome
    · rw [he] at hok
      cases hok
    have hnone : routeLog (ServerLife.start faults first).2.server = [] := by
      obtain ⟨ipPool, rfl, -⟩ := new_first hnew
      rw [hserver]
      rfl
    have hroutes : ServerLife.lifeRoutes life = (ServerLife.start faults first).2.networkRoute.1 := by
      rw [← hlife, hrun, ServerLife.lifeRoutes]
      simp only [hnone, hafter, List.append_nil]
    have hphase : life.phase = .finished := by
      rw [← hlife, hrun]
    have hnotReady : life.phase ≠ .ready := by
      rw [hphase]
      decide
    have hnotOk : (ServerLife.start faults first).1 ≠ .ok () := by
      rw [he]
      exact (nomatch ·)
    rw [hroutes]
    obtain hbefore | hbefore := hbefore
    · rw [hbefore]
      exact ⟨∅, rfl, (absurd · hnotReady), (absurd · hnotOk)⟩
    · rw [hbefore]
      exact ⟨{config.serverNetwork}, rfl, (absurd · hnotReady), (absurd · hnotOk)⟩
  · rw [hlife] at hrun
    have hnotFinished : life.phase ≠ .finished := by
      rw [hrun.phase]
      decide
    refine ⟨_, ?_, fun _ => rfl, fun _ hfinished => absurd hfinished hnotFinished⟩
    rw [ServerLife.lifeRoutes, hrun.networkRoute, hnetwork, List.append_nil]
    exact ServerLife.replay_ready hrun.routes hslash
  · rw [hlife] at hrun
    subst hrun
    refine ⟨∅, ?_, fun hready => (nomatch hready), fun _ _ => ⟨rfl, ?_, ?_, rfl, rfl⟩⟩
    · have hconfig : last.server.config.serverNetwork = config.serverNetwork := by
        rw [hlast.config, hnetwork]
      have hlife : ServerLife.lifeRoutes last.leave =
          .acquire config.serverNetwork :: routeLog (ServerLife.releaseClients last.server) ++
            [.release config.serverNetwork] := by
        rw [ServerLife.lifeRoutes, ServerLife.leave_run]
        simp only [hlast.networkRoute, hnetwork, hconfig]
        rfl
      rw [hlife]
      exact ServerLife.replay_left hlast.tables hlast.routes hslash
    · rw [ServerLife.leave_run]
      rfl
    · rw [ServerLife.leave_run]
      rfl

end Lives

namespace Transparent

def rootHost : Host := ⟨⟨0, 0, [], ∅⟩, []⟩

def eth0 : StartFaults :=
  { defaultRoute := some "default via 192.168.1.1 dev eth0", db := nobodyDb }

def servedLife : List (ServerLifeEvent primitives) :=
  (handshake 7).map .callback ++ [.stop, .test]

def firstLife : ServerLife primitives :=
  ⟨{ started with transport := false }, .fresh, false, none, false, false, rootHost, ([], [])⟩

theorem server_life_routes_served :
    ∃ routes, replay (ServerLife.lifeRoutes
        (run serverLifeStep (.start eth0 :: servedLife) firstLife)) ∅ = some routes ∧
      ((run serverLifeStep (.start eth0 :: servedLife) firstLife).phase = .ready →
        routes = insert poolConfig.serverNetwork (assignedIps
          (run serverLifeStep (.start eth0 :: servedLife) firstLife).server)) ∧
      ((ServerLife.start eth0 firstLife).1 = .ok () →
        (run serverLifeStep (.start eth0 :: servedLife) firstLife).phase = .finished →
        routes = ∅ ∧
          (run serverLifeStep (.start eth0 :: servedLife) firstLife).server.clients = ∅ ∧
          (run serverLifeStep (.start eth0 :: servedLife) firstLife).server.ipToAddr = ∅ ∧
          (run serverLifeStep (.start eth0 :: servedLife) firstLife).tunOpen = false ∧
          (run serverLifeStep (.start eth0 :: servedLife) firstLife).listening = false) :=
  have hnew : ServerLife.new poolConfig rootHost = .ok firstLife := rfl
  server_life_routes hnew (by decide) eth0 servedLife _ rfl

end Transparent
end PyVpn
