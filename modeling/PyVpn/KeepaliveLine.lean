import PyVpn.ChannelMatch
import PyVpn.Heartbeat
import PyVpn.IdleEnds

/-! A server, one client and the datagrams under way between them. Where rounds and datagrams
are on time, the keepalives alone keep the tunnel up. -/
namespace PyVpn
open EventRun
variable {P : Primitives}

/-- Both ends, the time, the last rounds of both loops, and what is under way, with the time at
which it arrives at the latest. -/
structure Line (P : Primitives) where
  server : VpnServer P
  life : Life P
  now : Time
  lastRound : Time
  lastTurn : Time
  toClient : List (Time × Bytes)
  toServer : List (Time × Bytes)

inductive LineEvent (P : Primitives) where
  | wait (t : Time)
  | serverRound
  | clientRound
  /-- The client receives one of the datagrams under way, in any order. -/
  | clientReceives (i : Nat) (faults : AssignFaults) (coins : Bytes)
  | serverReceives (i : Nat) (draw : Draw P)
  | serverEvent (e : ServerEvent P)
  | clientTun (nonces : Nat → Nonce) (packet : Bytes)

/-- Datagrams that arrive at `deadline` at the latest. -/
def due (deadline : Time) (sent : List Bytes) : List (Time × Bytes) :=
  sent.map fun data => (deadline, data)

def Line.serverTo (addr : Addr) (delay : Time) (line : Line P) (server : VpnServer P) : Line P :=
  { line with
    server := server
    toClient := line.toClient ++
      due (line.now + delay) ((sentTo addr server).drop (sentTo addr line.server).length) }

def Line.clientTo (delay : Time) (line : Line P) (life : Life P) : Line P :=
  { line with
    life := life
    toServer := line.toServer ++
      due (line.now + delay) (life.client.sent.drop line.life.client.sent.length) }

/-- What is drawn for a datagram that arrives now. -/
def Draw.atTime (draw : Draw P) (now : Time) : Draw P :=
  { draw with session := { draw.session with now := now } }

def lineStep (addr : Addr) (delay : Time) (line : Line P) : LineEvent P → Line P
  | .wait t => { line with now := t }
  | .serverRound =>
    { line.serverTo addr delay (serverRound line.now line.server) with lastRound := line.now }
  | .clientRound =>
    { line.clientTo delay (lifeStep line.life (.round line.now)) with lastTurn := line.now }
  | .clientReceives i faults coins =>
    match line.toClient[i]? with
    | none => line
    | some (_, data) => { line with toClient := line.toClient.eraseIdx i }.clientTo delay
        (lifeStep line.life (.datagram faults line.now coins data))
  | .serverReceives i draw =>
    match line.toServer[i]? with
    | none => line
    | some (_, data) => { line with toServer := line.toServer.eraseIdx i }.serverTo addr delay
        (serverStep line.server (.datagram (draw.atTime line.now) data addr))
  | .serverEvent e => line.serverTo addr delay (serverStep line.server e)
  | .clientTun nonces packet =>
    line.clientTo delay (lifeStep line.life (.tunReadable nonces packet))

/-- Time passes only up to the next rounds and the next arrival; what else happens at the server
is not of this client. -/
def LineOnTime (addr : Addr) (pause turn : Time) (line : Line P) : LineEvent P → Prop
  | .wait t => line.now ≤ t ∧ t ≤ line.lastRound + pause ∧ t ≤ line.lastTurn + turn ∧
      (∀ m ∈ line.toClient, t ≤ m.1) ∧ ∀ m ∈ line.toServer, t ≤ m.1
  | .serverEvent e => Elsewhere addr e
  | _ => True

def FromServer (data : Bytes) : Prop := IsKeepalive data ∨ ∃ ip, ip ≠ "" ∧ IsAssignment ip data

def FromClient (data : Bytes) : Prop := IsKeepalive data ∨ data.headD 0 = Opcode.data.value

/-- The server has a ready entry for the client, which is in an established session; only
keepalives, addresses and data are under way. -/
structure Linked (addr : Addr) (serverConfig clientConfig : Config) (line : Line P)
    (cs : ClientSession P) : Prop where
  server : OnUdp serverConfig line.server
  entry : peerView line.server addr = some cs
  ready : cs.isReady = true
  client : ClientOn clientConfig line.life
  established : line.life.client.session.isEstablished = true
  opened : line.life.client.handshakeDone = true → line.life.client.data.isSome = true
  connected : truthy line.life.client.assignedIp = true → line.life.client.connected = true
  toClient : ∀ m ∈ line.toClient, FromServer m.2
  toServer : ∀ m ∈ line.toServer, FromClient m.2

def Line.Up (line : Line P) : Prop :=
  line.life.client.handshakeDone = true ∧ truthy line.life.client.assignedIp = true

/-- What the watching of both ends comes to. -/
def Line.beat (line : Line P) (cs : ClientSession P) : Heartbeat.Beat Time where
  now := line.now
  lastRound := line.lastRound
  lastProbe := cs.lastKeepalive
  seenAnswerer := line.life.client.lastSeen
  seenProber := cs.lastSeen
  probes := line.toClient.map fun m => (m.1, (ipAssigned m.2).isNone)
  answers := line.toServer.map Prod.fst

/-- How the rounds and delays relate to the two configurations. -/
structure Watched (timing : Heartbeat.Timing Time) (serverConfig clientConfig : Config) : Prop where
  interval : timing.interval = serverConfig.keepaliveInterval
  server : timing.interval + timing.pause + 2 * timing.delay ≤ serverConfig.keepaliveTimeout
  client : timing.interval + timing.pause + timing.delay ≤ clientConfig.keepaliveTimeout

/-- What an event makes of a linked line and the server's entry. -/
inductive LinkStep (serverConfig : Config) (delay : Time) (line : Line P) (cs : ClientSession P) :
    LineEvent P → Line P → ClientSession P → Prop
  | wait (t : Time) : LinkStep serverConfig delay line cs (.wait t) { line with now := t } cs
  | serverRound (server : VpnServer P) (data : Bytes) (hdata : IsKeepalive data) :
      LinkStep serverConfig delay line cs .serverRound
        { line with
          server := server
          toClient := line.toClient ++
            due (line.now + delay) (if cs.due serverConfig line.now then [data] else [])
          lastRound := line.now }
        ((if cs.due serverConfig line.now then { cs with lastKeepalive := line.now }
          else cs).swept line.now)
  | serverEvent (e : ServerEvent P) (server : VpnServer P) :
      LinkStep serverConfig delay line cs (.serverEvent e) { line with server := server } cs
  | serverReceives (i : Nat) (draw : Draw P) (server : VpnServer P) (cs' : ClientSession P)
      (hi : i < line.toServer.length) (hready : cs'.isReady = true)
      (hseen : cs'.lastSeen = line.now) (hlast : cs'.lastKeepalive = cs.lastKeepalive) :
      LinkStep serverConfig delay line cs (.serverReceives i draw)
        { line with server := server, toServer := line.toServer.eraseIdx i } cs'
  | serverWaits (i : Nat) (draw : Draw P) (hi : ¬ i < line.toServer.length) :
      LinkStep serverConfig delay line cs (.serverReceives i draw) line cs
  | clientRound (data : Option DataChannel) (hdata : data.isSome = true) :
      LinkStep serverConfig delay line cs .clientRound
        { line with
          life := { line.life with client := { line.life.client with
            handshakeDone := true, data := data } }
          lastTurn := line.now } cs
  | clientAnswers (i : Nat) (faults : AssignFaults) (coins : Bytes) (m : Time × Bytes)
      (answer : Bytes) (effects : List ClientEffect) (hi : line.toClient[i]? = some m)
      (hm : IsKeepalive m.2) (hanswer : IsKeepalive answer) :
      LinkStep serverConfig delay line cs (.clientReceives i faults coins)
        { line with
          life := { line.life with client := { line.life.client with
            lastSeen := line.now, effects := effects } }
          toClient := line.toClient.eraseIdx i
          toServer := line.toServer ++ due (line.now + delay) [answer] } cs
  | clientAssigned (i : Nat) (faults : AssignFaults) (coins : Bytes) (m : Time × Bytes) (ip : String)
      (effects : List ClientEffect) (routes : List (List String)) (hi : line.toClient[i]? = some m)
      (hip : ip ≠ "") (hm : IsAssignment ip m.2) :
      LinkStep serverConfig delay line cs (.clientReceives i faults coins)
        { line with
          life := { line.life with client := { line.life.client with
            lastSeen := line.now, assignedIp := some ip, connected := true, effects := effects
            routesAdded := routes } }
          toClient := line.toClient.eraseIdx i } cs
  | clientWaits (i : Nat) (faults : AssignFaults) (coins : Bytes) (hi : line.toClient[i]? = none) :
      LinkStep serverConfig delay line cs (.clientReceives i faults coins) line cs
  | clientTun (nonces : Nat → Nonce) (packet : Bytes) (data : Option DataChannel)
      (wires : List Bytes) (effects : List ClientEffect)
      (hdata : data.isSome = line.life.client.data.isSome)
      (hwires : ∀ wire ∈ wires, wire.headD 0 = Opcode.data.value) :
      LinkStep serverConfig delay line cs (.clientTun nonces packet)
        { line with
          life := { line.life with client := { line.life.client with
            data := data, effects := effects } }
          toServer := line.toServer ++ due (line.now + delay) wires } cs

theorem serverTo_append {addr : Addr} (delay : Time) (line : Line P) {server : VpnServer P}
    {sent : List Bytes} (hsent : sentTo addr server = sentTo addr line.server ++ sent) :
    line.serverTo addr delay server = { line with
      server := server, toClient := line.toClient ++ due (line.now + delay) sent } := by
  rw [Line.serverTo, hsent, List.drop_left]

theorem serverTo_quiet {addr : Addr} (delay : Time) (line : Line P) {server : VpnServer P}
    (hsent : sentTo addr server = sentTo addr line.server) :
    line.serverTo addr delay server = { line with server := server } := by
  rw [serverTo_append delay line (hsent.trans (List.append_nil _).symm), due, List.map_nil,
    List.append_nil]

theorem clientTo_append (delay : Time) (line : Line P) {life : Life P} {sent : List Bytes}
    (hsent : life.client.sent = line.life.client.sent ++ sent) :
    line.clientTo delay life = { line with
      life := life, toServer := line.toServer ++ due (line.now + delay) sent } := by
  rw [Line.clientTo, hsent, List.drop_left]

theorem clientTo_quiet (delay : Time) (line : Line P) {life : Life P}
    (hsent : life.client.sent = line.life.client.sent) :
    line.clientTo delay life = { line with life := life } := by
  rw [clientTo_append delay line (hsent.trans (List.append_nil _).symm), due, List.map_nil,
    List.append_nil]

section Steps
variable {addr : Addr} {timing : Heartbeat.Timing Time} {serverConfig clientConfig : Config}
  {line line' : Line P} {cs cs' : ClientSession P} {e : LineEvent P}

/-- The inversion of one step, with what it leaves at the server. -/
def LinkedStep (addr : Addr) (serverConfig : Config) (delay : Time) (line : Line P)
    (cs : ClientSession P) (e : LineEvent P) : Prop :=
  ∃ cs', LinkStep serverConfig delay line cs e (lineStep addr delay line e) cs' ∧
    OnUdp serverConfig (lineStep addr delay line e).server ∧
    peerView (lineStep addr delay line e).server addr = some cs'

theorem Linked.serverRound (h : Linked addr serverConfig clientConfig line cs) (delay : Time)
    (hfresh : cs.isStale line.now serverConfig.keepaliveTimeout = false) :
    LinkedStep addr serverConfig delay line cs .serverRound := by
  obtain ⟨hserver, hentry, data, hdata, hsent⟩ := known_round h.server h.entry hfresh
  refine ⟨_, ?_, hserver, hentry⟩
  rw [lineStep, serverTo_append delay line hsent]
  exact .serverRound _ data hdata

theorem Linked.serverEvent (h : Linked addr serverConfig clientConfig line cs) (delay : Time)
    {e : ServerEvent P} (he : Elsewhere addr e) :
    LinkedStep addr serverConfig delay line cs (.serverEvent e) := by
  obtain ⟨hview, hsent⟩ := elsewhere_step h.server.tables.addressed he
  refine ⟨cs, ?_, h.server.step e, hview.trans h.entry⟩
  rw [lineStep, serverTo_quiet delay line hsent]
  exact .serverEvent e _

theorem Linked.serverReceives (h : Linked addr serverConfig clientConfig line cs) (delay : Time)
    (i : Nat) (draw : Draw P) :
    LinkedStep addr serverConfig delay line cs (.serverReceives i draw) := by
  unfold LinkedStep
  cases hi : line.toServer[i]? with
  | none =>
    simp only [lineStep, hi]
    exact ⟨cs, .serverWaits i draw (not_lt.mpr (List.getElem?_eq_none_iff.mp hi)), h.server, h.entry⟩
  | some m =>
    obtain ⟨hlt, hget⟩ := List.getElem?_eq_some_iff.mp hi
    obtain ⟨cs', hview, hready, hseen, hlast, hsent⟩ := idle_datagram h.server h.entry h.ready
      (draw.atTime line.now) (h.toServer m (hget ▸ List.getElem_mem hlt))
    simp only [lineStep, hi]
    rw [serverTo_quiet delay { line with toServer := line.toServer.eraseIdx i } hsent]
    exact ⟨cs', .serverReceives i draw _ cs' hlt hready hseen hlast,
      h.server.step (.datagram (draw.atTime line.now) m.2 addr), hview⟩

theorem Linked.clientRound (h : Linked addr serverConfig clientConfig line cs) (delay : Time)
    (hstays : line.life.client.breaks line.now = false) :
    LinkedStep addr serverConfig delay line cs .clientRound := by
  have hrun := client_round h.client hstays
  have hopened : ∃ data : Option DataChannel, data.isSome = true ∧
      VpnClient.openDataChannel { line.life.client with
        data := line.life.client.data.map (cleanupFragments line.now) } =
      { line.life.client with handshakeDone := true, data := data } := by
    unfold VpnClient.openDataChannel
    cases hdone : line.life.client.handshakeDone with
    | false =>
      simp only [h.established, Bool.not_false, Bool.true_and, if_true]
      exact ⟨_, rfl, rfl⟩
    | true =>
      simp only [Bool.not_true, Bool.false_and, Bool.false_eq_true, if_false]
      exact ⟨line.life.client.data.map (cleanupFragments line.now), by simpa using h.opened hdone,
        by rw [hdone]⟩
  obtain ⟨data, hdata, hopened⟩ := hopened
  rw [hopened] at hrun
  unfold LinkedStep
  rw [lineStep, clientTo_quiet delay line (by rw [hrun]; rfl), hrun]
  exact ⟨cs, .clientRound data hdata, h.server, h.entry⟩

theorem Linked.clientReceives (h : Linked addr serverConfig clientConfig line cs) (delay : Time)
    (i : Nat) (faults : AssignFaults) (coins : Bytes) :
    LinkedStep addr serverConfig delay line cs (.clientReceives i faults coins) := by
  unfold LinkedStep
  cases hi : line.toClient[i]? with
  | none =>
    simp only [lineStep, hi]
    exact ⟨cs, .clientWaits i faults coins hi, h.server, h.entry⟩
  | some m =>
    simp only [lineStep, hi]
    obtain ⟨hlt, hget⟩ := List.getElem?_eq_some_iff.mp hi
    obtain hkeepalive | ⟨ip, hip, hassign⟩ := h.toClient m (hget ▸ List.getElem_mem hlt)
    · obtain ⟨answer, hanswer, hrun⟩ :=
        client_keepalive h.client faults line.now coins hkeepalive
      have hsent : (lifeStep line.life (.datagram faults line.now coins m.2)).client.sent =
          line.life.client.sent ++ [answer] := by
        rw [hrun]
        exact sent_sendto { line.life.client with lastSeen := line.now } [answer]
      rw [clientTo_append delay { line with toClient := line.toClient.eraseIdx i } hsent, hrun]
      exact ⟨cs, .clientAnswers i faults coins m answer _ hi hkeepalive hanswer, h.server, h.entry⟩
    · obtain ⟨effects, routes, hrun, heffects⟩ :=
        client_assigned h.client faults line.now coins hassign
      have hsent : (lifeStep line.life (.datagram faults line.now coins m.2)).client.sent =
          line.life.client.sent := by
        rw [hrun]
        exact heffects
      rw [clientTo_quiet delay { line with toClient := line.toClient.eraseIdx i } hsent, hrun]
      exact ⟨cs, .clientAssigned i faults coins m ip effects routes hi hip hassign, h.server,
        h.entry⟩

theorem Linked.clientTun (h : Linked addr serverConfig clientConfig line cs) (delay : Time)
    (nonces : Nat → Nonce) (packet : Bytes) :
    LinkedStep addr serverConfig delay line cs (.clientTun nonces packet) := by
  obtain ⟨data, wires, hdata, hwires, -, hrun⟩ := client_tun h.client nonces packet
  have hsent : (lifeStep line.life (.tunReadable nonces packet)).client.sent =
      line.life.client.sent ++ wires := by
    rw [hrun]
    exact sent_sendto { line.life.client with data := data } wires
  unfold LinkedStep
  rw [lineStep, clientTo_append delay line hsent, hrun]
  exact ⟨cs, .clientTun nonces packet data wires _ hdata hwires, h.server, h.entry⟩

/-- While both ends have heard each other recently, every step is one of these. -/
theorem Linked.step (h : Linked addr serverConfig clientConfig line cs)
    (hwatched : Watched timing serverConfig clientConfig)
    (hwatching : Heartbeat.Watching timing (line.beat cs)) {turn : Time}
    (hon : LineOnTime addr timing.pause turn line e) :
    LinkedStep addr serverConfig timing.delay line cs e := by
  obtain ⟨hanswerer, hprober⟩ := hwatching.silence
  cases e with
  | wait t => exact ⟨cs, .wait t, h.server, h.entry⟩
  | serverRound =>
    exact h.serverRound timing.delay (fresh_of_recent h.ready (le_trans hprober hwatched.server))
  | clientRound =>
    refine h.clientRound timing.delay ?_
    have hintime : decide (line.now - line.life.client.lastSeen >
        line.life.client.config.keepaliveTimeout) = false := by
      rw [h.client.configured]
      exact decide_eq_false (not_lt.mpr (le_trans hanswerer hwatched.client))
    rw [VpnClient.breaks, hintime, Bool.and_false]
  | clientReceives i faults coins => exact h.clientReceives timing.delay i faults coins
  | serverReceives i draw => exact h.serverReceives timing.delay i draw
  | serverEvent e => exact h.serverEvent timing.delay hon
  | clientTun nonces packet => exact h.clientTun timing.delay nonces packet

theorem forall_append_due {Q : Bytes → Prop} {l : List (Time × Bytes)} (h : ∀ m ∈ l, Q m.2)
    {sent : List Bytes} (hsent : ∀ data ∈ sent, Q data) (deadline : Time) :
    ∀ m ∈ l ++ due deadline sent, Q m.2 := by
  intro m hm
  cases List.mem_append.mp hm with
  | inl hm => exact h m hm
  | inr hm =>
    obtain ⟨data, hdata, rfl⟩ := List.mem_map.mp hm
    exact hsent data hdata

theorem Linked.after (h : Linked addr serverConfig clientConfig line cs) {delay : Time}
    (hstep : LinkStep serverConfig delay line cs e line' cs') (hserver : OnUdp serverConfig line'.server)
    (hentry : peerView line'.server addr = some cs') :
    Linked addr serverConfig clientConfig line' cs' := by
  have hon {client : VpnClient P} (hconfig : client.config = line.life.client.config)
      (hrunning : client.running = line.life.client.running)
      (htransport : client.transport = line.life.client.transport) :
      ClientOn clientConfig { line.life with client := client } :=
    ⟨h.client.looping, hconfig.trans h.client.configured, h.client.udp,
      hrunning.trans h.client.running, htransport.trans h.client.transport⟩
  cases hstep with
  | wait t =>
    exact ⟨hserver, hentry, h.ready, h.client, h.established, h.opened, h.connected, h.toClient,
      h.toServer⟩
  | serverRound server data hdata =>
    refine ⟨hserver, hentry, ?_, h.client, h.established, h.opened, h.connected,
      forall_append_due (Q := FromServer) h.toClient ?_ _, h.toServer⟩
    · have hready := h.ready
      split
      · simpa [ClientSession.swept, ClientSession.isReady] using hready
      · simpa [ClientSession.swept, ClientSession.isReady] using hready
    · intro sent hsent
      split at hsent
      · exact List.mem_singleton.mp hsent ▸ .inl hdata
      · cases hsent
  | serverEvent e server =>
    exact ⟨hserver, hentry, h.ready, h.client, h.established, h.opened, h.connected, h.toClient,
      h.toServer⟩
  | serverReceives i draw server cs' hi hready hseen hlast =>
    exact ⟨hserver, hentry, hready, h.client, h.established, h.opened, h.connected, h.toClient,
      fun m hm => h.toServer m (List.mem_of_mem_eraseIdx hm)⟩
  | serverWaits i draw hi => exact h
  | clientRound data hdata =>
    exact ⟨hserver, hentry, h.ready, hon rfl rfl rfl, h.established, fun _ => hdata, h.connected,
      h.toClient, h.toServer⟩
  | clientAnswers i faults coins m answer effects hi hm hanswer =>
    refine ⟨hserver, hentry, h.ready, hon rfl rfl rfl, h.established, h.opened, h.connected,
      (fun m hm => h.toClient m (List.mem_of_mem_eraseIdx hm)),
      forall_append_due (Q := FromClient) h.toServer ?_ _⟩
    exact fun data hdata => List.mem_singleton.mp hdata ▸ .inl hanswer
  | clientAssigned i faults coins m ip effects routes hi hip hm =>
    exact ⟨hserver, hentry, h.ready, hon rfl rfl rfl, h.established, h.opened, fun _ => rfl,
      fun m hm => h.toClient m (List.mem_of_mem_eraseIdx hm), h.toServer⟩
  | clientWaits i faults coins hi => exact h
  | clientTun nonces packet data wires effects hdata hwires =>
    exact ⟨hserver, hentry, h.ready, hon rfl rfl rfl, h.established,
      fun hdone => hdata.trans (h.opened hdone), h.connected, h.toClient,
      forall_append_due (Q := FromClient) h.toServer (fun wire hwire => .inr (hwires wire hwire)) _⟩

theorem LinkStep.beat (hstep : LinkStep serverConfig timing.delay line cs e line' cs')
    (hready : cs.isReady = true) (hinterval : timing.interval = serverConfig.keepaliveInterval)
    {turn : Time} (hon : LineOnTime addr timing.pause turn line e) :
    ∃ e', Heartbeat.OnTime timing (line.beat cs) e' ∧
      line'.beat cs' = Heartbeat.step timing (line.beat cs) e' := by
  cases hstep with
  | wait t =>
    obtain ⟨hpast, hsoon, -, hprobes, hanswers⟩ := hon
    exact ⟨.wait t, ⟨hpast, hsoon, List.forall_mem_map.mpr hprobes, List.forall_mem_map.mpr hanswers⟩,
      rfl⟩
  | serverRound server data hdata =>
    refine ⟨.round, trivial, ?_⟩
    have hdue : cs.due serverConfig line.now =
        decide (timing.interval ≤ line.now - cs.lastKeepalive) := by
      rw [ClientSession.due, hready, Bool.true_and, hinterval]
    rw [hdue]
    by_cases hround : timing.interval ≤ line.now - cs.lastKeepalive
    · simp only [Line.beat, Heartbeat.step, hround, decide_true, if_true, due, List.map_append,
        List.map_cons, List.map_nil, hdata.ipAssigned, ClientSession.swept, Option.isNone_none]
    · simp only [Line.beat, Heartbeat.step, hround, decide_false, Bool.false_eq_true, if_false, due,
        List.map_nil, List.append_nil, ClientSession.swept]
  | serverEvent e server =>
    refine ⟨.sends 0, trivial, ?_⟩
    simp only [Line.beat, Heartbeat.step, List.replicate_zero, List.append_nil]
  | serverReceives i draw server cs' hi hready hseen hlast =>
    refine ⟨.answered i, trivial, ?_⟩
    have hin : i < (line.toServer.map Prod.fst).length := by rwa [List.length_map]
    simp only [Line.beat, Heartbeat.step, if_pos hin, hseen, hlast, List.eraseIdx_map]
  | serverWaits i draw hi =>
    have hout : ¬ i < (line.toServer.map Prod.fst).length := by rwa [List.length_map]
    exact ⟨.answered i, trivial, (if_neg hout).symm⟩
  | clientRound data hdata =>
    refine ⟨.sends 0, trivial, ?_⟩
    simp only [Line.beat, Heartbeat.step, List.replicate_zero, List.append_nil]
  | clientAnswers i faults coins m answer effects hi hm hanswer =>
    refine ⟨.probed i, trivial, ?_⟩
    have hget : (line.beat cs).probes[i]? = some (m.1, true) := by
      simp only [Line.beat, List.getElem?_map, hi, Option.map_some, hm.ipAssigned, Option.isNone_none]
    rw [Heartbeat.step_probed hget]
    simp only [Line.beat, List.eraseIdx_map, due, List.map_append, List.map_cons, List.map_nil,
      if_true]
  | clientAssigned i faults coins m ip effects routes hi hip hm =>
    refine ⟨.probed i, trivial, ?_⟩
    have hget : (line.beat cs).probes[i]? = some (m.1, false) := by
      simp only [Line.beat, List.getElem?_map, hi, Option.map_some, hm.ipAssigned, Option.isNone_some]
    rw [Heartbeat.step_probed hget]
    simp only [Line.beat, List.eraseIdx_map, Bool.false_eq_true, if_false, List.append_nil]
  | clientWaits i faults coins hi =>
    refine ⟨.probed i, trivial, ?_⟩
    have hget : (line.beat cs).probes[i]? = none := by
      simp only [Line.beat, List.getElem?_map, hi, Option.map_none]
    rw [Heartbeat.step, hget]
  | clientTun nonces packet data wires effects hdata hwires =>
    refine ⟨.sends wires.length, trivial, ?_⟩
    have hsent : (due (line.now + timing.delay) wires).map Prod.fst =
        List.replicate wires.length (line.now + timing.delay) := by
      rw [due, List.map_map]
      exact List.map_const'
    simp only [Line.beat, Heartbeat.step, List.map_append, hsent]

theorem LinkStep.up {delay : Time} (hstep : LinkStep serverConfig delay line cs e line' cs')
    (hup : line.Up) : line'.Up := by
  obtain ⟨hdone, hassigned⟩ := hup
  cases hstep with
  | wait t => exact ⟨hdone, hassigned⟩
  | serverRound server data hdata => exact ⟨hdone, hassigned⟩
  | serverEvent e server => exact ⟨hdone, hassigned⟩
  | serverReceives i draw server cs' hi hready hseen hlast => exact ⟨hdone, hassigned⟩
  | serverWaits i draw hi => exact ⟨hdone, hassigned⟩
  | clientRound data hdata => exact ⟨rfl, hassigned⟩
  | clientAnswers i faults coins m answer effects hi hm hanswer => exact ⟨hdone, hassigned⟩
  | clientAssigned i faults coins m ip effects routes hi hip hm =>
    exact ⟨hdone, by simp [truthy, hip]⟩
  | clientWaits i faults coins hi => exact ⟨hdone, hassigned⟩
  | clientTun nonces packet data wires effects hdata hwires => exact ⟨hdone, hassigned⟩

/-- A line that is linked and whose ends watch each other. -/
def LinkAlive (addr : Addr) (timing : Heartbeat.Timing Time) (serverConfig clientConfig : Config)
    (line : Line P) : Prop :=
  ∃ cs, Linked addr serverConfig clientConfig line cs ∧ Heartbeat.Watching timing (line.beat cs)

/-- One step on time, with all it keeps. -/
theorem LinkAlive.step (hwatched : Watched timing serverConfig clientConfig)
    (h : LinkAlive addr timing serverConfig clientConfig line) {turn : Time}
    (hon : LineOnTime addr timing.pause turn line e) :
    LinkAlive addr timing serverConfig clientConfig (lineStep addr timing.delay line e) ∧
      ∃ cs cs', Linked addr serverConfig clientConfig line cs ∧
        LinkStep serverConfig timing.delay line cs e (lineStep addr timing.delay line e) cs' := by
  obtain ⟨cs, hlinked, hwatching⟩ := h
  obtain ⟨cs', hstep, hserver, hentry⟩ := hlinked.step hwatched hwatching hon
  obtain ⟨e', hon', hbeat⟩ := hstep.beat hlinked.ready hwatched.interval hon
  exact ⟨⟨cs', hlinked.after hstep hserver hentry, hbeat ▸ hwatching.step hon'⟩, cs, cs', hlinked,
    hstep⟩

theorem LinkAlive.recent (hwatched : Watched timing serverConfig clientConfig)
    (h : LinkAlive addr timing serverConfig clientConfig line) :
    line.now - line.life.client.lastSeen ≤ clientConfig.keepaliveTimeout ∧
      ∃ cs, peerView line.server addr = some cs ∧ cs.isReady = true ∧
        line.now - cs.lastSeen ≤ serverConfig.keepaliveTimeout := by
  obtain ⟨cs, hlinked, hwatching⟩ := h
  obtain ⟨hanswerer, hprober⟩ := hwatching.silence
  exact ⟨le_trans hanswerer hwatched.client, cs, hlinked.entry, hlinked.ready,
    le_trans hprober hwatched.server⟩

/-- Over every run that is on time the tunnel stays up: the server never sweeps the peer, the
client never leaves the loop, and each has heard the other within its own timeout. -/
theorem tunnel_stays_up (hwatched : Watched timing serverConfig clientConfig)
    (h : LinkAlive addr timing serverConfig clientConfig line) (hup : line.Up) {turn : Time}
    {trace : List (LineEvent P)}
    (hon : Meets (lineStep addr timing.delay) (LineOnTime addr timing.pause turn) trace line) :
    let last := run (lineStep addr timing.delay) trace line
    LinkAlive addr timing serverConfig clientConfig last ∧ last.Up ∧
      last.now - last.life.client.lastSeen ≤ clientConfig.keepaliveTimeout ∧
      ∃ cs, peerView last.server addr = some cs ∧ cs.isReady = true ∧
        last.now - cs.lastSeen ≤ serverConfig.keepaliveTimeout := by
  obtain ⟨hlast, hlastUp⟩ := inv_run
    (I := fun line => LinkAlive addr timing serverConfig clientConfig line ∧ line.Up)
    (fun line e hline hone => by
      obtain ⟨halive, cs, cs', -, hstep⟩ := hline.1.step hwatched hone
      exact ⟨halive, hstep.up hline.2⟩) trace line ⟨h, hup⟩ hon
  exact ⟨hlast, hlastUp, hlast.recent hwatched⟩

end Steps

namespace Transparent

def joined : Life primitives :=
  run lifeStep (.attempt (draw 7) true :: (sentTo peer served).map (.datagram {} 0 []) ++ [.round 0])
    (.new clientConfig (draw 7))

def idle : Line primitives := ⟨served, joined, 0, 0, 0, [], []⟩

def seconds : Heartbeat.Timing Time where
  interval := 10
  pause := 2
  delay := 2
  interval_nonneg := by decide
  delay_nonneg := by decide

/-- A data packet, a round with nothing due, ten seconds later a keepalive and its answer. -/
def busy : List (LineEvent primitives) :=
  [.clientTun (fun _ => nonceOf 1) [1, 2, 3], .serverReceives 0 ⟨draw 5, []⟩, .wait 2, .serverRound,
    .wait 4, .serverRound, .wait 6, .serverRound, .wait 8, .clientRound, .serverRound, .wait 10,
    .serverRound, .wait 11, .clientReceives 0 {} [], .wait 12, .serverReceives 0 ⟨draw 5, []⟩]

theorem idle_linked : LinkAlive peer seconds poolConfig joined.client.config idle := by
  have hready : (peerView served peer).any (fun cs => cs.isReady && decide (cs.lastKeepalive = 0) &&
      decide (cs.lastSeen = 0)) = true := by decide +kernel
  obtain ⟨cs, hcs, hfacts⟩ := (Option.any_eq_true _ _).mp hready
  simp only [Bool.and_eq_true, decide_eq_true_eq] at hfacts
  obtain ⟨⟨hready, hlast⟩, hseen⟩ := hfacts
  have hclient : ClientOn joined.client.config joined :=
    ⟨by decide +kernel, rfl, by decide +kernel, by decide +kernel, by decide +kernel⟩
  have hclientSeen : joined.client.lastSeen = 0 := by decide +kernel
  refine ⟨cs, ⟨⟨served_reachable.tables, rfl, rfl, by decide +kernel⟩, hcs, hready, hclient,
    by decide +kernel, by decide +kernel, by decide +kernel, (fun _ hm => nomatch hm),
    (fun _ hm => nomatch hm)⟩, .inl ⟨⟨le_refl 0, ?_, (fun _ hm => nomatch hm),
    (fun _ hm => nomatch hm)⟩, ?_, ?_, ?_, ?_, ?_⟩⟩
  all_goals simp only [Line.beat, idle, hlast, hseen, hclientSeen, seconds]
  all_goals norm_num

theorem busy_onTime : Meets (lineStep peer seconds.delay) (LineOnTime peer seconds.pause 8) busy idle := by
  refine ⟨trivial, trivial, ?_, trivial, ?_, trivial, ?_, trivial, ?_, trivial, trivial, ?_, trivial,
    ?_, trivial, ?_, trivial, trivial⟩
  all_goals
    unfold LineOnTime
    decide +kernel

theorem tunnel_stays_up_busy : (run (lineStep peer seconds.delay) busy idle).Up :=
  (tunnel_stays_up ⟨by decide +kernel, by decide +kernel, by decide +kernel⟩ idle_linked
    ⟨by decide +kernel, by decide +kernel⟩ busy_onTime).2.1

end Transparent
end PyVpn
