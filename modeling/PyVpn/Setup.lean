import PyVpn.Joining
import PyVpn.Survival

/-! The line while the client connects. The handshake is a sequence of stages, in each of which
one packet is under way; the packet's arrival leads to the next stage, and nothing else that
happens in time leads away from it. -/
namespace PyVpn
open EventRun
variable {P : Primitives}

section Stages
variable {start delay : Time} {addr : Addr} {serverConfig clientConfig : Config} {c : Session P}
  {line : Line P} {cs : ClientSession P} {k : Nat}

/-- A server's entry without a channel, whose session began as `s`. -/
structure Begun (serverConfig : Config) (s : Session P) (cs : ClientSession P) : Prop where
  began : ∃ draw, Configured serverConfig true draw s
  closed : cs.data = none

/-- How far the handshake of the client's session `c` is: the server's entry for the client, the
client's session now, and the one packet under way, to the server or to the client. The packets
are numbered. -/
inductive Stage (serverConfig : Config) (c : Session P) :
    Nat → Option (ClientSession P) → Session P → List Bytes → List Bytes → Prop
  | reset (u : Session P) (hsetup : SameSetup c u) :
      Stage serverConfig c 1 none u [encodePacket .hardResetClient c.sid []] []
  | resetAck (s u : Session P) (cs : ClientSession P) (hbegun : Begun serverConfig s cs)
      (hknows : KnowsClient c s cs.session) (hsetup : SameSetup c u) :
      Stage serverConfig c 2 (some cs) u [] [encodePacket .hardResetServer s.sid []]
  | hello (s u : Session P) (cs : ClientSession P) (data : Bytes) (hbegun : Begun serverConfig s cs)
      (hknows : KnowsClient c s cs.session) (hclient : KnowsServer c s u)
      (hdata : ClientHelloOf c data) : Stage serverConfig c 3 (some cs) u [data] []
  | answered (s u : Session P) (cs : ClientSession P) (key : Cipher) (data : Bytes)
      (hbegun : Begun serverConfig s cs) (hkey : agreedKey c s = .ok key)
      (hanswered : HasAnswered c s key cs.session) (hclient : KnowsServer c s u)
      (hdata : ServerHelloOf c s data) : Stage serverConfig c 4 (some cs) u [] [data]
  | finished (s u : Session P) (cs : ClientSession P) (key : Cipher) (data : Bytes)
      (hbegun : Begun serverConfig s cs) (hanswered : HasAnswered c s key cs.session)
      (hestablished : u.isEstablished = true) (hdata : FinishedOf c s data) :
      Stage serverConfig c 5 (some cs) u [data] []

/-- A line in the middle of a handshake that began at `start`, with the packet `k` under way. -/
structure Joining (start delay : Time) (addr : Addr) (serverConfig clientConfig : Config)
    (c : Session P) (k : Nat) (line : Line P) : Prop where
  server : OnUdp serverConfig line.server
  client : ClientOn clientConfig line.life
  opened : line.life.client.handshakeDone = true → line.life.client.data.isSome = true
  unassigned : truthy line.life.client.assignedIp = false
  stage : Stage serverConfig c k (peerView line.server addr) line.life.client.session
    (line.toServer.map Prod.snd) (line.toClient.map Prod.snd)
  paced : ∀ m ∈ line.toServer ++ line.toClient, line.now ≤ m.1 ∧ m.1 ≤ start + k * delay

/-- A linked line whose client has its address, or will be told. -/
structure Joined (start delay : Time) (addr : Addr) (serverConfig clientConfig : Config)
    (line : Line P) (cs : ClientSession P) : Prop where
  linked : Linked addr serverConfig clientConfig line cs
  told : truthy line.life.client.assignedIp = true ∨
    ∃ m ∈ line.toClient, (line.now ≤ m.1 ∧ m.1 ≤ start + 6 * delay) ∧
      ∃ ip, ip ≠ "" ∧ IsAssignment ip m.2

/-- No datagram is late, neither end gives the other up, the pool has an address for the client, and
what else happens at the server is not of it. -/
def InTime (addr : Addr) (serverConfig : Config) (line : Line P) : LineEvent P → Prop
  | .wait t => line.now ≤ t ∧ (∀ m ∈ line.toClient, t ≤ m.1) ∧ ∀ m ∈ line.toServer, t ≤ m.1
  | .serverRound => ∀ cs, peerView line.server addr = some cs →
      cs.isStale line.now serverConfig.keepaliveTimeout = false
  | .clientRound => line.life.client.breaks line.now = false
  | .serverReceives _ _ =>
    (peerView line.server addr).any ClientSession.isReady = false → FreeAddress line.server
  | .serverEvent e => Elsewhere addr e
  | _ => True

theorem map_due (deadline : Time) (sent : List Bytes) : (due deadline sent).map Prod.snd = sent := by
  rw [due, List.map_map]
  exact List.map_id sent

theorem only_one {l : List (Time × Bytes)} {x : Bytes} (hone : l.map Prod.snd = [x]) {i : Nat}
    {m : Time × Bytes} (hi : l[i]? = some m) : m.2 = x ∧ l.eraseIdx i = [] := by
  cases l with
  | nil => cases hone
  | cons a l =>
    obtain ⟨ha, hl⟩ := List.cons.inj hone
    obtain rfl := List.map_eq_nil_iff.mp hl
    cases i with
    | zero => exact ⟨Option.some.inj hi ▸ ha, rfl⟩
    | succ i => cases hi

theorem none_under_way {l : List (Time × Bytes)} (hnone : l.map Prod.snd = []) {i : Nat}
    {m : Time × Bytes} (hi : l[i]? = some m) : False := by
  rw [List.map_eq_nil_iff.mp hnone] at hi
  cases hi

theorem Stage.rank_le {view : Option (ClientSession P)} {u : Session P} {a b : List Bytes}
    (h : Stage serverConfig c k view u a b) : k ≤ 5 := by
  cases h <;> decide

theorem Stage.under_way {view : Option (ClientSession P)} {u : Session P} {a b : List Bytes}
    (h : Stage serverConfig c k view u a b) : a ++ b ≠ [] := by
  cases h <;> exact List.cons_ne_nil _ _

theorem Stage.swept {view : Option (ClientSession P)} {u : Session P} {a b : List Bytes}
    (h : Stage serverConfig c k view u a b) (hview : view = some cs) (now : Time) :
    cs.data = none ∧ cs.swept now = cs := by
  have hswept (hclosed : cs.data = none) : cs.data = none ∧ cs.swept now = cs := by
    refine ⟨hclosed, ?_⟩
    rw [ClientSession.swept, hclosed, Option.map_none, ← hclosed]
  cases h with
  | reset u hsetup => cases hview
  | resetAck s u cs' hbegun hknows hsetup =>
    cases hview
    exact hswept hbegun.closed
  | hello s u cs' data hbegun hknows hclient hdata =>
    cases hview
    exact hswept hbegun.closed
  | answered s u cs' key data hbegun hkey hanswered hclient hdata =>
    cases hview
    exact hswept hbegun.closed
  | finished s u cs' key data hbegun hanswered hestablished hdata =>
    cases hview
    exact hswept hbegun.closed

theorem ClientOn.with_client (h : ClientOn clientConfig line.life) {client : VpnClient P}
    (hconfig : client.config = line.life.client.config)
    (hrunning : client.running = line.life.client.running)
    (htransport : client.transport = line.life.client.transport) :
    ClientOn clientConfig { line.life with client := client } :=
  ⟨h.looping, hconfig.trans h.configured, h.udp, hrunning.trans h.running,
    htransport.trans h.transport⟩

theorem Joining.serverRound (h : Joining start delay addr serverConfig clientConfig c k line)
    (htime : InTime addr serverConfig line .serverRound) :
    Joining start delay addr serverConfig clientConfig c k
      (lineStep addr delay line .serverRound) := by
  have hstage := h.stage
  cases hview : peerView line.server addr with
  | none =>
    obtain ⟨hserver, hnext, hsent⟩ := unknown_round h.server hview line.now
    rw [lineStep, serverTo_quiet delay line hsent]
    rw [hview, ← hnext] at hstage
    exact ⟨hserver, h.client, h.opened, h.unassigned, hstage, h.paced⟩
  | some cs =>
    obtain ⟨hserver, hnext, data, -, hsent⟩ := known_round h.server hview (htime cs hview)
    obtain ⟨hclosed, hswept⟩ := hstage.swept hview line.now
    have hdue : cs.due serverConfig line.now = false := by
      rw [ClientSession.due, ClientSession.isReady, hclosed, Option.isSome_none, Bool.and_false,
        Bool.false_and]
    simp only [hdue, Bool.false_eq_true, if_false, hswept, List.append_nil] at hnext hsent
    rw [lineStep, serverTo_quiet delay line hsent]
    rw [hview, ← hnext] at hstage
    exact ⟨hserver, h.client, h.opened, h.unassigned, hstage, h.paced⟩

theorem Joining.serverEvent (h : Joining start delay addr serverConfig clientConfig c k line)
    {e : ServerEvent P} (he : Elsewhere addr e) :
    Joining start delay addr serverConfig clientConfig c k
      (lineStep addr delay line (.serverEvent e)) := by
  obtain ⟨hview, hsent⟩ := elsewhere_step h.server.tables.addressed he
  have hstage := h.stage
  rw [← hview] at hstage
  rw [lineStep, serverTo_quiet delay line hsent]
  exact ⟨h.server.step e, h.client, h.opened, h.unassigned, hstage, h.paced⟩

theorem Joining.clientRound (h : Joining start delay addr serverConfig clientConfig c k line)
    (hstays : line.life.client.breaks line.now = false) :
    Joining start delay addr serverConfig clientConfig c k
      (lineStep addr delay line .clientRound) := by
  have hrun := client_round h.client hstays
  have hopened : ∃ (data : Option DataChannel) (done : Bool), (done = true → data.isSome = true) ∧
      VpnClient.openDataChannel { line.life.client with
        data := line.life.client.data.map (cleanupFragments line.now) } =
      { line.life.client with handshakeDone := done, data := data } := by
    unfold VpnClient.openDataChannel
    split
    · exact ⟨_, true, fun _ => rfl, rfl⟩
    · exact ⟨line.life.client.data.map (cleanupFragments line.now), line.life.client.handshakeDone,
        fun hdone => by simpa using h.opened hdone, rfl⟩
  obtain ⟨data, done, hdata, hopened⟩ := hopened
  rw [hopened] at hrun
  rw [lineStep, clientTo_quiet delay line (by rw [hrun]; rfl), hrun]
  exact ⟨h.server, h.client.with_client rfl rfl rfl, hdata, h.unassigned, h.stage, h.paced⟩

theorem Joining.clientTun (h : Joining start delay addr serverConfig clientConfig c k line)
    (nonces : Nat → Nonce) (packet : Bytes) :
    Joining start delay addr serverConfig clientConfig c k
      (lineStep addr delay line (.clientTun nonces packet)) := by
  obtain ⟨data, wires, hdata, -, hquiet, hrun⟩ := client_tun h.client nonces packet
  rw [hquiet h.unassigned, List.map_nil, List.append_nil] at hrun
  rw [lineStep, clientTo_quiet delay line (by rw [hrun]; rfl), hrun]
  exact ⟨h.server, h.client.with_client rfl rfl rfl, fun hdone => hdata.trans (h.opened hdone),
    h.unassigned, h.stage, h.paced⟩

theorem Joining.due_next (h : Joining start delay addr serverConfig clientConfig c k line)
    (hdelay : 0 ≤ delay) {m : Time × Bytes} (hm : m ∈ line.toServer ++ line.toClient)
    (sent : List Bytes) :
    ∀ m' ∈ due (line.now + delay) sent,
      line.now ≤ m'.1 ∧ m'.1 ≤ start + (k + 1 : Nat) * delay := by
  intro m' hm'
  obtain ⟨data, -, rfl⟩ := List.mem_map.mp hm'
  obtain ⟨hnow, hlimit⟩ := h.paced m hm
  push_cast
  constructor
  · linarith
  · change line.now + delay ≤ start + (k + 1) * delay
    linarith

theorem Joining.clientAnswers (h : Joining start delay addr serverConfig clientConfig c k line)
    (hdelay : 0 ≤ delay) {i : Nat} (faults : AssignFaults) {coins x : Bytes} {m : Time × Bytes}
    (hi : line.toClient[i]? = some m) (hone : line.toClient.map Prod.snd = [x])
    (hnone : line.toServer.map Prod.snd = []) {call : ClientCall}
    (hcall : clientCallOf coins x = some call) {packets : List Bytes} {u : Session P}
    (hrun : clientHandler call line.life.client.session = (.ok packets, u))
    (hstage : Stage serverConfig c (k + 1) (peerView line.server addr) u packets []) :
    Joining start delay addr serverConfig clientConfig c (k + 1)
      (lineStep addr delay line (.clientReceives i faults coins)) := by
  obtain ⟨rfl, herase⟩ := only_one hone hi
  have hstep := client_called h.client faults line.now hcall hrun
  have hsent : (lifeStep line.life (.datagram faults line.now coins m.2)).client.sent =
      line.life.client.sent ++ packets := by
    rw [hstep]
    exact sent_sendto { line.life.client with lastSeen := line.now, session := u } packets
  simp only [lineStep, hi]
  rw [clientTo_append delay { line with toClient := line.toClient.eraseIdx i } hsent, hstep, herase,
    List.map_eq_nil_iff.mp hnone, List.nil_append]
  refine ⟨h.server, h.client.with_client rfl rfl rfl, h.opened, h.unassigned, ?_, ?_⟩
  · simp only [map_due, List.map_nil]
    exact hstage
  · rw [List.append_nil]
    exact h.due_next hdelay (List.mem_append_right _ (List.mem_of_getElem? hi)) packets

theorem Joining.serverAnswers (h : Joining start delay addr serverConfig clientConfig c k line)
    (hdelay : 0 ≤ delay) {i : Nat} (draw : Draw P) {x : Bytes} {m : Time × Bytes}
    (hi : line.toServer[i]? = some m) (hone : line.toServer.map Prod.snd = [x])
    (hnone : line.toClient.map Prod.snd = []) {view : Option (ClientSession P)}
    {packets : List Bytes}
    (hview : peerView (serverStep line.server (.datagram (draw.atTime line.now) x addr)) addr = view)
    (hsent : sentTo addr (serverStep line.server (.datagram (draw.atTime line.now) x addr)) =
      sentTo addr line.server ++ packets)
    (hstage : Stage serverConfig c (k + 1) view line.life.client.session [] packets) :
    Joining start delay addr serverConfig clientConfig c (k + 1)
      (lineStep addr delay line (.serverReceives i draw)) := by
  obtain ⟨rfl, herase⟩ := only_one hone hi
  simp only [lineStep, hi]
  rw [serverTo_append delay { line with toServer := line.toServer.eraseIdx i } hsent, herase,
    List.map_eq_nil_iff.mp hnone, List.nil_append]
  refine ⟨h.server.step (.datagram (draw.atTime line.now) m.2 addr), h.client, h.opened,
    h.unassigned, ?_, ?_⟩
  · simp only [map_due, List.map_nil, hview]
    exact hstage
  · rw [List.nil_append]
    exact h.due_next hdelay (List.mem_append_left _ (List.mem_of_getElem? hi)) packets

theorem controlCall_message (coins body : Bytes) (sid : UInt64) :
    controlCall coins (encodeHandshakeMessage .clientHello sid body) =
        some (.clientHello coins body) ∧
      controlCall coins (encodeHandshakeMessage .clientFinished sid body) =
        some (.clientFinished body) := by
  have hdecoded (msgType : MessageType) :
      decodePacket (encodeHandshakeMessage msgType sid body) =
        .ok (.control, sid, msgType.value :: body) := decodePacket_encodePacket _ _ _
  constructor
  · unfold controlCall
    rw [hdecoded]
    rfl
  · unfold controlCall
    rw [hdecoded]
    rfl

/-- What the arrivals of the handshake rest on. -/
structure Honest (serverConfig clientConfig : Config) (c : Session P) : Prop where
  sizes : X25519Sizes P
  agreement : X25519Agreement P
  exchange : HonestExchange P
  trust : MutualTrust P serverConfig clientConfig
  client : ∃ draw, Configured clientConfig false draw c

theorem Honest.presents (honest : Honest serverConfig clientConfig c) {s : Session P}
    (hbegun : Begun serverConfig s cs) : Presents c s ∧ Presents s c := by
  obtain ⟨draw, hs⟩ := hbegun.began
  obtain ⟨draw', hc⟩ := honest.client
  exact honest.trust.presents hs hc

theorem Joining.clientReceives (h : Joining start delay addr serverConfig clientConfig c k line)
    (honest : Honest serverConfig clientConfig c) (hdelay : 0 ≤ delay) (i : Nat)
    (faults : AssignFaults) (coins : Bytes) :
    ∃ k, Joining start delay addr serverConfig clientConfig c k
      (lineStep addr delay line (.clientReceives i faults coins)) := by
  cases hi : line.toClient[i]? with
  | none =>
    simp only [lineStep, hi]
    exact ⟨k, h⟩
  | some m =>
    have hstage := h.stage
    generalize hview : peerView line.server addr = view, hsession : line.life.client.session = u,
      htoServer : line.toServer.map Prod.snd = a, htoClient : line.toClient.map Prod.snd = b at hstage
    cases hstage with
    | reset _ hsetup => exact (none_under_way htoClient hi).elim
    | resetAck s _ cs hbegun hknows hsetup =>
      obtain ⟨hello, u', hrun, hdata, hclient⟩ :=
        resetAck_answered honest.sizes (honest.presents hbegun).1 hsetup
      rw [← hsession] at hrun
      have hcall : clientCallOf coins (encodePacket .hardResetServer s.sid []) =
          some (.resetAck (encodePacket .hardResetServer s.sid [])) := rfl
      refine ⟨_, h.clientAnswers hdelay faults hi htoClient htoServer hcall hrun ?_⟩
      rw [hview]
      exact .hello s u' cs hello hbegun hknows hclient hdata
    | hello _ _ _ _ _ _ _ _ => exact (none_under_way htoClient hi).elim
    | answered s _ cs key data hbegun hkey hanswered hclient hdata =>
      obtain ⟨hello, sig, sigLen, hhello, hpack, hsigned, rfl⟩ := hdata
      obtain ⟨fin, u', hrun, hfin, -, hestablished, -⟩ := serverHello_answered honest.sizes hkey
        (honest.presents hbegun).1 (honest.presents hbegun).2 hclient coins hhello hpack hsigned
      rw [← hsession] at hrun
      refine ⟨_, h.clientAnswers hdelay faults hi htoClient htoServer
        (clientCallOf_serverHello coins _ _) hrun ?_⟩
      rw [hview]
      exact .finished s u' cs key fin hbegun hanswered hestablished hfin
    | finished _ _ _ _ _ _ _ _ _ => exact (none_under_way htoClient hi).elim

theorem Joining.finishes (h : Joining start delay addr serverConfig clientConfig c 5 line)
    (hdelay : 0 ≤ delay) {i : Nat} (draw : Draw P) (hfree : FreeAddress line.server) {s : Session P}
    {key : Cipher} {data : Bytes} {m : Time × Bytes} (hi : line.toServer[i]? = some m)
    (hview : peerView line.server addr = some cs) (hone : line.toServer.map Prod.snd = [data]) (hnone : line.toClient.map Prod.snd = [])
    (hbegun : Begun serverConfig s cs) (hanswered : HasAnswered c s key cs.session)
    (hestablished : line.life.client.session.isEstablished = true) (hdata : FinishedOf c s data) :
    ∃ cs', Joined start delay addr serverConfig clientConfig
      (lineStep addr delay line (.serverReceives i draw)) cs' := by
  obtain ⟨sig, sigLen, hpack, hsigned, rfl⟩ := hdata
  obtain ⟨hm, herase⟩ := only_one hone hi
  have hcall := (controlCall_message (draw.atTime line.now).coins (sigLen ++ sig) c.sid).2
  have hrun : serverHandler (.clientFinished (sigLen ++ sig)) cs.session =
      (.ok [], { cs.session with state := .established }) := finished_accepted hanswered hpack hsigned
  have hopcode : (encodeHandshakeMessage .clientFinished c.sid (sigLen ++ sig)).headD 0 =
      Opcode.control.value := rfl
  have hnext := control_view h.server hview hopcode hcall hrun hbegun.closed
  obtain ⟨ip, assignment, hip, hassign, hsent⟩ :=
    finished_sent h.server hview hopcode hcall hrun rfl hbegun.closed hfree
  rw [List.nil_append] at hsent
  simp only [lineStep, hi, hm]
  rw [serverTo_append delay { line with toServer := line.toServer.eraseIdx i } hsent, herase,
    List.map_eq_nil_iff.mp hnone, List.nil_append]
  refine ⟨_, ⟨h.server.step (.datagram (draw.atTime line.now)
    (encodeHandshakeMessage .clientFinished c.sid (sigLen ++ sig)) addr), hnext, rfl, h.client,
    hestablished, h.opened, ?_, ?_, fun _ hmem => absurd hmem List.not_mem_nil⟩,
    .inr ⟨_, List.mem_singleton.mpr rfl, ?_, ip, hip, hassign⟩⟩
  · intro htruthy
    rw [h.unassigned] at htruthy
    cases htruthy
  · intro sent hmem
    obtain rfl := List.mem_singleton.mp hmem
    exact .inr ⟨ip, hip, hassign⟩
  · exact h.due_next hdelay (List.mem_append_left _ (List.mem_of_getElem? hi)) [assignment] _
      (List.mem_singleton.mpr rfl)

theorem Joining.serverReceives (h : Joining start delay addr serverConfig clientConfig c k line)
    (honest : Honest serverConfig clientConfig c) (hdelay : 0 ≤ delay) (i : Nat) (draw : Draw P)
    (hfree : (peerView line.server addr).any ClientSession.isReady = false →
      FreeAddress line.server) :
    (∃ k, Joining start delay addr serverConfig clientConfig c k
      (lineStep addr delay line (.serverReceives i draw))) ∨
      ∃ cs, Joined start delay addr serverConfig clientConfig
        (lineStep addr delay line (.serverReceives i draw)) cs := by
  cases hi : line.toServer[i]? with
  | none =>
    simp only [lineStep, hi]
    exact .inl ⟨k, h⟩
  | some m =>
    have hstage := h.stage
    generalize hview : peerView line.server addr = view, hsession : line.life.client.session = u,
      htoServer : line.toServer.map Prod.snd = a, htoClient : line.toClient.map Prod.snd = b at hstage
    cases hstage with
    | reset _ hsetup =>
      obtain ⟨s, hs⟩ := honest.trust.server (draw.atTime line.now).session
      obtain ⟨t, hrun, hknows⟩ :=
        reset_answered (c := c) (draw.atTime line.now).now (SameSetup.refl s)
      obtain ⟨hnext, hsent⟩ := first_reset h.server hview hs rfl hrun
      refine .inl ⟨_, h.serverAnswers hdelay draw hi htoServer htoClient hnext hsent ?_⟩
      rw [hsession]
      exact .resetAck s _ _ ⟨⟨_, hs⟩, rfl⟩ hknows hsetup
    | resetAck _ _ _ _ _ _ => exact (none_under_way htoServer hi).elim
    | hello s _ cs data hbegun hknows hclient hdata =>
      obtain ⟨inner, hinner, rfl⟩ := hdata
      obtain ⟨key, hkey⟩ := agreedKey_exists honest.exchange c s
      obtain ⟨answer, t, hrun, hanswer, hanswered⟩ := clientHello_answered honest.sizes
        honest.agreement hkey (honest.presents hbegun).1 (honest.presents hbegun).2 hknows
        (draw.atTime line.now).coins hinner
      have hcall := (controlCall_message (draw.atTime line.now).coins inner c.sid).1
      have hnext := control_view h.server hview rfl hcall hrun hbegun.closed
      have hsent := control_sent h.server hview rfl hcall hrun hanswered.knows.waits
      rw [hanswered.knows.waits, if_neg Bool.false_ne_true] at hnext
      refine .inl ⟨_, h.serverAnswers hdelay draw hi htoServer htoClient hnext hsent ?_⟩
      rw [hsession]
      exact .answered s _ _ key answer ⟨hbegun.began, hbegun.closed⟩ hkey hanswered hclient hanswer
    | answered _ _ _ _ _ _ _ _ _ _ => exact (none_under_way htoServer hi).elim
    | finished s _ cs key data hbegun hanswered hestablished hdata =>
      have hwaits : (peerView line.server addr).any ClientSession.isReady = false := by
        rw [hview, Option.any_some, ClientSession.isReady, hbegun.closed, Option.isSome_none,
          Bool.and_false]
      exact .inr (h.finishes hdelay draw (hfree hwaits) hi hview htoServer htoClient hbegun hanswered
        (hsession ▸ hestablished) hdata)

theorem Joined.told_step {cs' : ClientSession P} {line' : Line P} {e : LineEvent P}
    (h : Joined start delay addr serverConfig clientConfig line cs)
    (hstep : LinkStep serverConfig delay line cs e line' cs')
    (htime : InTime addr serverConfig line e) :
    truthy line'.life.client.assignedIp = true ∨
      ∃ m ∈ line'.toClient, (line'.now ≤ m.1 ∧ m.1 ≤ start + 6 * delay) ∧
        ∃ ip, ip ≠ "" ∧ IsAssignment ip m.2 := by
  have htold := h.told
  cases hstep with
  | wait t =>
    exact htold.imp_right fun ⟨m, hm, hdue, hassign⟩ =>
      ⟨m, hm, ⟨htime.2.1 m hm, hdue.2⟩, hassign⟩
  | serverRound server data hdata =>
    exact htold.imp_right fun ⟨m, hm, hassign⟩ => ⟨m, List.mem_append_left _ hm, hassign⟩
  | serverEvent e server => exact htold
  | serverReceives i draw server cs' hi hready hseen hlast => exact htold
  | serverWaits i draw hi => exact htold
  | clientRound data hdata => exact htold
  | clientAnswers i faults coins m answer effects hi hm hanswer =>
    refine htold.imp_right fun ⟨m', hm', hdue, ip, hip, hassign⟩ => ⟨m', ?_, hdue, ip, hip, hassign⟩
    obtain ⟨j, hj⟩ := List.mem_iff_getElem?.mp hm'
    refine List.mem_eraseIdx_iff_getElem?.mpr ⟨j, ?_, hj⟩
    -- a keepalive is no assignment
    rintro rfl
    obtain rfl := Option.some.inj (hi.symm.trans hj)
    have hnone := hm.ipAssigned
    rw [hassign.ipAssigned] at hnone
    cases hnone
  | clientAssigned i faults coins m ip effects routes hi hip hm =>
    exact .inl (by simp [truthy, hip])
  | clientWaits i faults coins hi => exact htold
  | clientTun nonces packet data wires effects hdata hwires => exact htold

theorem Joined.step {e : LineEvent P}
    (h : Joined start delay addr serverConfig clientConfig line cs)
    (htime : InTime addr serverConfig line e) :
    ∃ cs', Joined start delay addr serverConfig clientConfig (lineStep addr delay line e) cs' := by
  have hlinked := h.linked
  have hstep : LinkedStep addr serverConfig delay line cs e := by
    cases e with
    | wait t => exact ⟨cs, .wait t, hlinked.server, hlinked.entry⟩
    | serverRound => exact hlinked.serverRound delay (htime cs hlinked.entry)
    | clientRound => exact hlinked.clientRound delay htime
    | clientReceives i faults coins => exact hlinked.clientReceives delay i faults coins
    | serverReceives i draw => exact hlinked.serverReceives delay i draw
    | serverEvent e => exact hlinked.serverEvent delay htime
    | clientTun nonces packet => exact hlinked.clientTun delay nonces packet
  obtain ⟨cs', hstep, hserver, hentry⟩ := hstep
  exact ⟨cs', hlinked.after hstep hserver hentry, h.told_step hstep htime⟩

/-- One event in time: the handshake stays where it is, or goes on, or is over. -/
theorem Joining.step {e : LineEvent P}
    (h : Joining start delay addr serverConfig clientConfig c k line)
    (honest : Honest serverConfig clientConfig c) (hdelay : 0 ≤ delay)
    (htime : InTime addr serverConfig line e) :
    (∃ k, Joining start delay addr serverConfig clientConfig c k (lineStep addr delay line e)) ∨
      ∃ cs, Joined start delay addr serverConfig clientConfig (lineStep addr delay line e) cs := by
  cases e with
  | wait t =>
    refine .inl ⟨k, h.server, h.client, h.opened, h.unassigned, h.stage, fun m hm => ⟨?_,
      (h.paced m hm).2⟩⟩
    cases List.mem_append.mp hm with
    | inl hm => exact htime.2.2 m hm
    | inr hm => exact htime.2.1 m hm
  | serverRound => exact .inl ⟨k, h.serverRound htime⟩
  | clientRound => exact .inl ⟨k, h.clientRound htime⟩
  | clientReceives i faults coins => exact .inl (h.clientReceives honest hdelay i faults coins)
  | serverReceives i draw => exact h.serverReceives honest hdelay i draw htime
  | serverEvent e => exact .inl ⟨k, h.serverEvent htime⟩
  | clientTun nonces packet => exact .inl ⟨k, h.clientTun nonces packet⟩

end Stages

section Start
variable {delay : Time} {addr : Addr} {serverConfig clientConfig : Config} {c : Session P}
  {line : Line P} {life : Life P} {draw : SessionDraw P}

structure Ready (config : Config) (life : Life P) : Prop where
  idle : life.phase = .idle
  configured : life.client.config = config
  udp : config.isTcp = false
  remote : truthy config.remote = true
  again : (life.client.running || !life.client.connected) = true

theorem attempt_starts (h : Ready clientConfig life) (opened : Bool)
    (hc : Configured clientConfig false draw c) :
    lifeStep life (.attempt draw opened) =
      { client := { life.client with
          running := true, handshakeDone := false, assignedIp := none, data := none
          session := { c with state := .resetSent }, transport := true
          effects := life.client.effects ++
            [encodePacket .hardResetClient c.sid []].map .sendto }
        phase := .looping, startedAt := draw.now } := by
  have hconfigured : VpnClient.attempt draw life.client =
      (.ok (), { life.client with
        running := true, handshakeDone := false, assignedIp := none, data := none
        session := c }) := by
    unfold Configured at hc
    unfold VpnClient.attempt
    simp only [Py.bind_run, Py.assign_run, Py.self_run, h.configured]
    cases hpaths : clientConfig.authPaths with
    | none =>
      rw [hpaths] at hc
      rw [hc]
      rfl
    | some paths =>
      rw [hpaths] at hc
      obtain ⟨ca, cert, key⟩ := paths
      simp only at hc
      simp only [hc, Py.bind_run, Py.assign_run, Py.ofExcept_run]
  have hstarted := forM_syncSend
    { life.client with
      running := true, handshakeDone := false, assignedIp := none, data := none, transport := true
      session := { c with state := .resetSent } }
    (h.configured ▸ h.udp) rfl [encodePacket .hardResetClient c.sid []]
  have hudp : life.client.config.isTcp = false := h.configured ▸ h.udp
  have hremote : truthy life.client.config.remote = true := h.configured ▸ h.remote
  have hconnected (client : VpnClient P) (htcp : client.config.isTcp = false) :
      VpnClient.connect opened client =
        [encodePacket .hardResetClient client.session.sid []].forM VpnClient.syncSend
          { client with
            transport := true, session := { client.session with state := .resetSent } } := by
    unfold VpnClient.connect VpnClient.callHandler
    simp only [Py.bind_run, Py.self_run, Py.assign_run, htcp, Bool.false_and, Bool.false_eq_true,
      if_false, clientStartHandshake_run, Py.ofExcept_run]
  have hrun := (hconnected { life.client with
    running := true, handshakeDone := false, assignedIp := none, data := none, session := c }
    hudp).trans hstarted
  unfold lifeStep
  simp only [h.idle, Life.attempt, hremote, h.again, Bool.and_true, if_true, hconfigured, hrun, hudp,
    Bool.false_and, Bool.false_eq_true, if_false]

/-- The line right after a new attempt. -/
theorem attempt_joins (hdelay : 0 ≤ delay) (hserver : OnUdp serverConfig line.server)
    (hunknown : peerView line.server addr = none) (hclient : Ready clientConfig line.life)
    (hquiet : line.toServer = [] ∧ line.toClient = []) (opened : Bool)
    (hc : Configured clientConfig false draw c) :
    Joining line.now delay addr serverConfig clientConfig c 1
      (line.clientTo delay (lifeStep line.life (.attempt draw opened))) := by
  have hstart := attempt_starts hclient opened hc
  have hsent : (lifeStep line.life (.attempt draw opened)).client.sent =
      line.life.client.sent ++ [encodePacket .hardResetClient c.sid []] := by
    rw [hstart]
    exact sent_sendto line.life.client _
  rw [clientTo_append delay line hsent, hstart, hquiet.1, List.nil_append]
  refine ⟨hserver, ⟨rfl, hclient.configured, hclient.udp, rfl, rfl⟩, (fun hdone => nomatch hdone), rfl,
    ?_, ?_⟩
  · simp only [map_due, hquiet.2, List.map_nil, hunknown]
    exact .reset _ ⟨rfl, rfl, rfl, rfl, rfl, rfl, rfl, rfl⟩
  · intro m hm
    simp only [hquiet.2, List.append_nil] at hm
    obtain ⟨data, -, rfl⟩ := List.mem_map.mp hm
    rw [Nat.cast_one, one_mul]
    exact ⟨le_add_of_nonneg_right hdelay, le_rfl⟩

theorem Linked.turns_up {cs : ClientSession P} (h : Linked addr serverConfig clientConfig line cs)
    (hassigned : truthy line.life.client.assignedIp = true)
    (hstays : line.life.client.breaks line.now = false) (delay : Time) :
    (lineStep addr delay line .clientRound).Up := by
  obtain ⟨cs', hstep, -⟩ := h.clientRound delay hstays
  generalize lineStep addr delay line .clientRound = line' at hstep ⊢
  cases hstep with
  | clientRound data hdata => exact ⟨rfl, hassigned⟩

/-- A handshake of two ends that trust each other completes, in whatever order the events of the
line come: it is over once nothing is under way, and after six delays at the latest. -/
theorem handshake_comes_up (sizes : X25519Sizes P) (hx : X25519Agreement P)
    (hexchange : HonestExchange P) (htrust : MutualTrust P serverConfig clientConfig)
    (hdelay : 0 ≤ delay) (hserver : OnUdp serverConfig line.server)
    (hunknown : peerView line.server addr = none) (hclient : Ready clientConfig line.life)
    (hquiet : line.toServer = [] ∧ line.toClient = []) {opened : Bool} {trace : List (LineEvent P)}
    (htime : Meets (lineStep addr delay) (InTime addr serverConfig) trace
      (line.clientTo delay (lifeStep line.life (.attempt draw opened)))) :
    let last := run (lineStep addr delay) trace
      (line.clientTo delay (lifeStep line.life (.attempt draw opened)))
    (last.toServer = [] ∧ last.toClient = []) ∨ line.now + 6 * delay < last.now →
      truthy last.life.client.assignedIp = true ∧
      (∃ cs, Linked addr serverConfig clientConfig last cs) ∧
      (last.life.client.breaks last.now = false → (lineStep addr delay last .clientRound).Up) := by
  intro last hover
  obtain ⟨c, hc⟩ := htrust.client draw
  have honest : Honest serverConfig clientConfig c := ⟨sizes, hx, hexchange, htrust, draw, hc⟩
  have hlast : (∃ k, Joining line.now delay addr serverConfig clientConfig c k last) ∨
      ∃ cs, Joined line.now delay addr serverConfig clientConfig last cs :=
    inv_run (I := fun line' =>
        (∃ k, Joining line.now delay addr serverConfig clientConfig c k line') ∨
        ∃ cs, Joined line.now delay addr serverConfig clientConfig line' cs)
      (fun line' e hline he => by
        obtain ⟨k, hjoining⟩ | ⟨cs, hjoined⟩ := hline
        · exact hjoining.step honest hdelay he
        · exact .inr (hjoined.step he)) trace _
      (.inl ⟨1, attempt_joins hdelay hserver hunknown hclient hquiet opened hc⟩) htime
  obtain ⟨k, hjoining⟩ | ⟨cs, hjoined⟩ := hlast
  · -- a stage has a packet under way, and one that is not late
    exfalso
    have hsome : last.toServer ++ last.toClient ≠ [] := by
      intro hnil
      refine hjoining.stage.under_way ?_
      rw [← List.map_append, hnil, List.map_nil]
    obtain ⟨hserverNone, hclientNone⟩ | hlate := hover
    · exact hsome (by rw [hserverNone, hclientNone, List.append_nil])
    · obtain ⟨m, hm⟩ := List.exists_mem_of_ne_nil _ hsome
      obtain ⟨hnow, hlimit⟩ := hjoining.paced m hm
      have hrank : (k : Time) ≤ 6 := by
        exact_mod_cast le_trans hjoining.stage.rank_le (by decide : 5 ≤ 6)
      have hlater := mul_le_mul_of_nonneg_right hrank hdelay
      linarith
  · have hassigned : truthy last.life.client.assignedIp = true := by
      refine hjoined.told.resolve_right ?_
      rintro ⟨m, hm, ⟨hnow, hlimit⟩, -⟩
      obtain ⟨-, hclientNone⟩ | hlate := hover
      · rw [hclientNone] at hm
        cases hm
      · linarith
    exact ⟨hassigned, ⟨cs, hjoined.linked⟩,
      fun hstays => hjoined.linked.turns_up hassigned hstays delay⟩

end Start

namespace Transparent

def apart : Line primitives := ⟨started, .new clientConfig (draw 7), 0, 0, 0, [], []⟩

/-- The same two with certificates of one CA. -/
def apartAuth : Line primitives := ⟨authStarted, .new authClientConfig (draw 7), 0, 0, 0, [], []⟩

/-- The six datagrams of the handshake, with a turn of the client's loop between them. -/
def meeting : List (LineEvent primitives) :=
  [.wait 1, .serverReceives 0 ⟨draw 5, []⟩, .clientReceives 0 {} [], .clientRound, .wait 2,
    .serverReceives 0 ⟨draw 5, []⟩, .clientReceives 0 {} [], .serverReceives 0 ⟨draw 5, []⟩,
    .clientReceives 0 {} []]

theorem honestExchange : HonestExchange primitives := by
  refine ⟨fun a b salt => ?_⟩
  have hlength : (primitives.hkdf 32 salt dataChannelInfo
      (List.zipWith (· ^^^ ·) a.val b.val)).length = 32 := by
    change ((salt ++ _ ++ List.replicate 32 0).take 32).length = 32
    rw [List.length_take, List.length_append, List.length_replicate]
    omega
  refine ⟨⟨_, hlength⟩, ?_⟩
  unfold deriveCipher
  rw [x25519Agreement.fromPublicBytes_publicBytes]
  exact dif_pos hlength

theorem apart_ready : Ready clientConfig apart.life :=
  ⟨rfl, rfl, rfl, by decide +kernel, rfl⟩

theorem started_onUdp : OnUdp poolConfig started :=
  ⟨started_reachable.tables, rfl, rfl, by decide +kernel⟩

theorem meeting_inTime : Meets (lineStep peer 2) (InTime peer poolConfig) meeting
    (apart.clientTo 2 (lifeStep apart.life (.attempt (draw 7) true))) := by
  refine ⟨?_, ?_, trivial, ?_, ?_, ?_, trivial, ?_, trivial, trivial⟩
  all_goals
    unfold InTime
    decide +kernel

theorem authStarted_onUdp : OnUdp authConfig authStarted :=
  have hreachable : ServerReachable authStarted := ⟨_, [], ⟨authConfig, rfl⟩, rfl⟩
  ⟨hreachable.tables, rfl, rfl, by decide +kernel⟩

theorem meeting_auth_inTime : Meets (lineStep peer 2) (InTime peer authConfig) meeting
    (apartAuth.clientTo 2 (lifeStep apartAuth.life (.attempt (draw 7) true))) := by
  refine ⟨?_, ?_, trivial, ?_, ?_, ?_, trivial, ?_, trivial, trivial⟩
  all_goals
    unfold InTime
    decide +kernel

theorem checkSignature_own (key : UInt8) (data : Bytes) :
    checkSignature key (key :: data) data = .ok () :=
  if_pos rfl

theorem presents_auth {s t : Session primitives} {key : UInt8}
    (hcert : s.localCertBytes = some [key, 100]) (hca : t.caPath = some "ca.crt")
    (hkey : signingKey (P := primitives) s.localKeyPath = .ok (some key)) : Presents s t := by
  have hcertified : verifyCertificate primitives ⟨key, 100⟩ ⟨100, 100⟩ = true := by
    have hchecked := checkSignature_own 100 [key]
    simp only [verifyCertificate, primitives, bind, Except.bind, hchecked]
    rfl
  refine ⟨by rw [hcert]; exact Nat.le_add_left 2 65533, some ⟨key, 100⟩, by rw [hcert]; rfl, ?_, ?_⟩
  · have hloaded : loadCertificate primitives "ca.crt" = .ok ⟨100, 100⟩ := rfl
    simp only [verifyPeerCert, hca, hloaded]
    exact congrArg Except.ok hcertified
  · intro coins data hlength
    refine ⟨key :: data, ?_, by rw [List.length_cons, hlength]; decide, ?_⟩
    · rw [sign, hkey]
      rfl
    · have hchecked := checkSignature_own key data
      simp only [signatureFails, verify, primitives, Option.any_some, bind, Except.bind, hchecked]
      rfl

theorem mutualTrust_auth : MutualTrust primitives authConfig authClientConfig := by
  refine ⟨fun draw => ⟨_, rfl⟩, fun draw => ⟨_, rfl⟩, ?_⟩
  intro draw draw' s c hs hc
  obtain rfl := congrArg Prod.snd hs
  obtain rfl := congrArg Prod.snd hc
  exact ⟨presents_auth rfl rfl rfl, presents_auth rfl rfl rfl⟩

theorem handshake_comes_up_meeting :
    truthy (run (lineStep peer 2) meeting (apart.clientTo 2 (lifeStep apart.life
      (.attempt (draw 7) true)))).life.client.assignedIp = true ∧
    truthy (run (lineStep peer 2) meeting (apartAuth.clientTo 2 (lifeStep apartAuth.life
      (.attempt (draw 7) true)))).life.client.assignedIp = true :=
  ⟨(handshake_comes_up sizes x25519Agreement honestExchange (mutualTrust_dev rfl rfl) (by decide)
      started_onUdp (by decide +kernel) apart_ready ⟨rfl, rfl⟩ meeting_inTime
      (.inl ⟨by decide +kernel, by decide +kernel⟩)).1,
    (handshake_comes_up sizes x25519Agreement honestExchange mutualTrust_auth (by decide)
      authStarted_onUdp (by decide +kernel) ⟨rfl, rfl, rfl, by decide +kernel, rfl⟩ ⟨rfl, rfl⟩
      meeting_auth_inTime (.inl ⟨by decide +kernel, by decide +kernel⟩)).1⟩

end Transparent
end PyVpn
