import PyVpn.TcpServer

/-! Runs of the TCP server. Every client has a connection, an address without a connection
holds nothing, and of each stream exactly the whole frames are handled, in order. -/
namespace PyVpn
open EventRun
variable {P : Primitives}

section Entries
variable {config : Config} {addr : Addr}

theorem freshClient_writer {draw : SessionDraw P} {writer : Option Nat} {cs : ClientSession P}
    (h : freshClient config draw addr writer = some cs) : cs.writer = writer := by
  unfold freshClient at h
  split at h
  · cases h
    rfl
  · simp only at h
    split at h
    · cases h
    · cases h
      rfl

theorem peerControl_writer (config : Config) (coins data : Bytes) (cs : ClientSession P) :
    (peerControl config coins data cs).writer = cs.writer := by
  unfold peerControl
  split
  · rfl
  · split
    · rfl
    · rfl

theorem peerData_writer (now : Time) (data : Bytes) (cs : ClientSession P) :
    (peerData now data cs).writer = cs.writer := by
  unfold peerData
  split
  · rfl
  · rfl

theorem peerStep_writer {entry : Option (ClientSession P)} {e : PeerEvent P} {cs' : ClientSession P}
    (h : peerStep config addr entry e = some cs') :
    (∃ cs, entry = some cs ∧ cs'.writer = cs.writer) ∨
      entry = none ∧ (cs'.writer = none ∧ (∃ draw data, e = .datagram draw data) ∨
        ∃ draw writer, e = .tcpConnect draw writer ∧ cs'.writer = some writer) := by
  have hmap (f : ClientSession P → ClientSession P) (hf : ∀ cs, (f cs).writer = cs.writer)
      (hsome : entry.map f = some cs') : ∃ cs, entry = some cs ∧ cs'.writer = cs.writer := by
    obtain ⟨cs, hcs, rfl⟩ := Option.map_eq_some_iff.mp hsome
    exact ⟨cs, hcs, hf cs⟩
  cases e with
  | datagram draw data =>
    simp only [peerStep, peerDatagram] at h
    split at h
    · exact .inl ⟨cs', h, rfl⟩
    · split at h
      · obtain ⟨cs, hcs, rfl⟩ := Option.map_eq_some_iff.mp h
        cases entry with
        | some found =>
          cases hcs
          exact .inl ⟨cs, rfl, rfl⟩
        | none =>
          have hfresh : freshClient config draw.session addr none = some cs := hcs
          have hwriter : cs.writer = none := freshClient_writer hfresh
          exact .inr ⟨rfl, .inl ⟨hwriter, draw, data, rfl⟩⟩
      · split at h
        · exact .inl ⟨cs', h, rfl⟩
        · refine .inl (hmap _ (fun cs => ?_) h)
          split
          · exact peerControl_writer config draw.coins data (cs.seen draw.now)
          · split
            · exact peerData_writer draw.now data (cs.seen draw.now)
            · rfl
  | tcpConnect draw writer =>
    cases entry with
    | some found =>
      cases h
      exact .inl ⟨cs', rfl, rfl⟩
    | none => exact .inr ⟨rfl, .inr ⟨draw, writer, rfl, freshClient_writer h⟩⟩
  | tcpDisconnect => cases h
  | cleanupStale now =>
    obtain ⟨hentry, -⟩ := Option.filter_eq_some_iff.mp h
    exact .inl ⟨cs', hentry, rfl⟩
  | keepalive now =>
    refine .inl (hmap _ (fun cs => ?_) h)
    split
    · rfl
    · rfl
  | cleanupFragments now => exact .inl (hmap (fun cs => cs.swept now) (fun _ => rfl) h)

theorem peerEvent_cases {e : ServerEvent P} {e' : PeerEvent P} (h : peerEvent addr e = some e') :
    (∀ draw data, e' = .datagram draw data → e = .datagram draw data addr) ∧
      ∀ draw writer, e' = .tcpConnect draw writer → e = .tcpConnect draw addr writer := by
  cases e with
  | datagram draw data a =>
    obtain ⟨ha, he⟩ := Option.ite_none_right_eq_some.mp h
    subst ha
    cases he
    exact ⟨by rintro _ _ ⟨⟩; rfl, by rintro _ _ ⟨⟩⟩
  | tcpConnect draw a writer =>
    obtain ⟨ha, he⟩ := Option.ite_none_right_eq_some.mp h
    subst ha
    cases he
    exact ⟨by rintro _ _ ⟨⟩, by rintro _ _ ⟨⟩; rfl⟩
  | tcpDisconnect a =>
    obtain ⟨-, he⟩ := Option.ite_none_right_eq_some.mp h
    cases he
    exact ⟨by rintro _ _ ⟨⟩, by rintro _ _ ⟨⟩⟩
  | tunReadable nonces packet => cases h
  | cleanupStale now =>
    cases h
    exact ⟨by rintro _ _ ⟨⟩, by rintro _ _ ⟨⟩⟩
  | keepalive now a =>
    obtain ⟨-, he⟩ := Option.ite_none_right_eq_some.mp h
    cases he
    exact ⟨by rintro _ _ ⟨⟩, by rintro _ _ ⟨⟩⟩
  | cleanupFragments now =>
    cases h
    exact ⟨by rintro _ _ ⟨⟩, by rintro _ _ ⟨⟩⟩

theorem serverStep_entry {self : VpnServer P} (haddr : Addressed self) (e : ServerEvent P)
    {cs' : ClientSession P} (h : (serverStep self e).clients.lookup addr = some cs') :
    (∃ cs, self.clients.lookup addr = some cs ∧ cs'.writer = cs.writer) ∨
      (cs'.writer = none ∧ ∃ draw data, e = .datagram draw data addr) ∨
      ∃ draw writer, e = .tcpConnect draw addr writer ∧ cs'.writer = some writer := by
  have hview := serverStep_view haddr e addr
  have hafter : peerView (serverStep self e) addr = some cs'.bare := by
    rw [peerView, h]
    rfl
  have hbefore {cs : ClientSession P} (hcs : peerView self addr = some cs) :
      ∃ found, self.clients.lookup addr = some found ∧ found.writer = cs.writer := by
    obtain ⟨found, hfound, rfl⟩ := Option.map_eq_some_iff.mp hcs
    exact ⟨found, hfound, rfl⟩
  rw [hafter] at hview
  cases he : peerEvent addr e with
  | none =>
    rw [he] at hview
    obtain ⟨found, hfound, hwriter⟩ := hbefore hview.symm
    exact .inl ⟨found, hfound, hwriter.symm⟩
  | some e' =>
    rw [he] at hview
    obtain ⟨cs, hcs, hwriter⟩ | ⟨-, ⟨hnone, draw, data, rfl⟩ | ⟨draw, writer, rfl, hwriter⟩⟩ :=
      peerStep_writer hview.symm
    · obtain ⟨found, hfound, hsame⟩ := hbefore hcs
      exact .inl ⟨found, hfound, hwriter.trans hsame.symm⟩
    · exact .inr (.inl ⟨hnone, draw, data, (peerEvent_cases he).1 draw data rfl⟩)
    · exact .inr (.inr ⟨draw, writer, (peerEvent_cases he).2 draw writer rfl, hwriter⟩)

end Entries

section Attends
variable {connections : Dict Nat Connection} {addr : Addr} {writer other : Nat} {conn : Connection}

def Attends (connections : Dict Nat Connection) (addr : Addr) (writer : Nat) : Prop :=
  ∃ conn, connections.lookup writer = some conn ∧ conn.addr = addr

theorem attends_insert_self (connections : Dict Nat Connection) (writer : Nat) (conn : Connection) :
    Attends (connections.insert writer conn) conn.addr writer :=
  ⟨conn, AList.lookup_insert _, rfl⟩

theorem Attends.insert (h : Attends connections addr writer)
    (hsame : ∀ old, connections.lookup other = some old → conn.addr = old.addr) :
    Attends (connections.insert other conn) addr writer := by
  obtain ⟨found, hfound, rfl⟩ := h
  by_cases hwriter : writer = other
  · subst hwriter
    exact ⟨conn, AList.lookup_insert _, hsame found hfound⟩
  · exact ⟨found, by rw [AList.lookup_insert_ne hwriter, hfound], rfl⟩

theorem Attends.replace (h : Attends connections addr writer) {old : Connection}
    (hconn : connections.lookup other = some old) (hsame : conn.addr = old.addr) :
    Attends (connections.insert other conn) addr writer :=
  h.insert fun found hfound => by rw [hsame, Option.some.inj (hconn.symm.trans hfound)]

theorem Attends.erase (h : Attends connections addr writer)
    (hother : ∀ old, connections.lookup other = some old → old.addr ≠ addr) :
    Attends (connections.erase other) addr writer := by
  obtain ⟨found, hfound, rfl⟩ := h
  have hwriter : writer ≠ other := fun heq => hother found (heq ▸ hfound) rfl
  exact ⟨found, by rw [AList.lookup_erase_ne hwriter, hfound], rfl⟩

theorem Attends.close (h : Attends connections addr writer)
    (hconn : connections.lookup other = some conn) (hne : addr ≠ conn.addr) :
    Attends (connections.erase other) addr writer :=
  h.erase fun found hfound => by
    rw [← Option.some.inj (hconn.symm.trans hfound)]
    exact hne.symm

theorem known_of_lookup {bound : Nat} (hknown : ∀ writer ∈ connections, writer < bound)
    (hconn : connections.lookup writer = some conn) : writer < bound :=
  hknown writer (AList.lookup_isSome.mp (by rw [hconn]; rfl))

theorem known_succ {bound : Nat} (hknown : ∀ writer ∈ connections, writer < bound) :
    ∀ writer ∈ connections, writer < bound + 1 :=
  fun writer hwriter => Nat.lt_succ_of_lt (hknown writer hwriter)

theorem lookup_of_not_known {bound : Nat} (hknown : ∀ writer ∈ connections, writer < bound) :
    connections.lookup bound = none := by
  rw [AList.lookup_eq_none]
  exact fun hmem => Nat.lt_irrefl bound (hknown bound hmem)

end Attends

section Attended
variable {self self' : TcpServer P}

/-- Every client has a connection, and its writer is that of one. -/
structure Attended (tcp : TcpServer P) : Prop where
  tables : Tables tcp.server
  known : ∀ writer ∈ tcp.connections, writer < tcp.accepted
  attended : ∀ addr cs, tcp.server.clients.lookup addr = some cs →
    ∃ writer, Attends tcp.connections addr writer
  writers : ∀ addr cs writer, tcp.server.clients.lookup addr = some cs →
    cs.writer = some writer → Attends tcp.connections addr writer

theorem Attended.new {config : Config} {start : VpnServer P}
    (hstart : VpnServer.start config = .ok start) : Attended (TcpServer.new start) := by
  obtain ⟨ipPool, rfl, -⟩ := start_cases hstart
  refine ⟨Tables.start hstart, fun writer hwriter => ?_, ?_, ?_⟩
  · exact absurd hwriter (AList.notMem_empty writer)
  · intro addr cs hcs
    cases hcs
  · intro addr cs writer hcs
    cases hcs

theorem Attended.unattended (h : Attended self) {addr : Addr}
    (hnone : ∀ writer, ¬ Attends self.connections addr writer) :
    self.server.clients.lookup addr = none := by
  cases hcs : self.server.clients.lookup addr with
  | none => rfl
  | some cs =>
    obtain ⟨writer, hattends⟩ := h.attended addr cs hcs
    exact absurd hattends (hnone writer)

/-- The step rule: an entry that is left was there before with that writer and keeps its
connections, or it has one. -/
theorem Attended.of_entries (h : Attended self) (htables : Tables self'.server)
    (hknown : ∀ writer ∈ self'.connections, writer < self'.accepted)
    (hentries : ∀ addr cs', self'.server.clients.lookup addr = some cs' →
      (∃ cs, self.server.clients.lookup addr = some cs ∧ cs'.writer = cs.writer ∧
        ∀ writer, Attends self.connections addr writer → Attends self'.connections addr writer) ∨
      ∃ writer, Attends self'.connections addr writer ∧
        (cs'.writer = none ∨ cs'.writer = some writer)) :
    Attended self' := by
  refine ⟨htables, hknown, ?_, ?_⟩
  · intro addr cs' hcs'
    obtain ⟨cs, hcs, -, hkept⟩ | ⟨writer, hattends, -⟩ := hentries addr cs' hcs'
    · obtain ⟨writer, hattends⟩ := h.attended addr cs hcs
      exact ⟨writer, hkept writer hattends⟩
    · exact ⟨writer, hattends⟩
  · intro addr cs' writer hcs' hwriter
    obtain ⟨cs, hcs, hsame, hkept⟩ | ⟨other, hattends, hnone | hsome⟩ := hentries addr cs' hcs'
    · exact hkept writer (h.writers addr cs writer hcs (hsame ▸ hwriter))
    · rw [hnone] at hwriter
      cases hwriter
    · rw [hsome] at hwriter
      cases hwriter
      exact hattends

theorem Attended.of_removed (h : Attended self) {server : VpnServer P} (htables : Tables server)
    {connections : Dict Nat Connection} {accepted : Nat} {running : Bool} {handed : List Handed}
    (a : Addr)
    (hentries : ∀ addr cs', addr ≠ a → server.clients.lookup addr = some cs' →
      ∃ cs, self.server.clients.lookup addr = some cs ∧ cs'.writer = cs.writer)
    (hknown : ∀ writer ∈ connections, writer < accepted)
    (hkept : ∀ addr writer, addr ≠ a → Attends self.connections addr writer →
      Attends connections addr writer) :
    Attended (P := P) ⟨removeClient a server, running, connections, accepted, handed⟩ := by
  refine h.of_entries (htables.run [.tcpDisconnect a]) hknown ?_
  intro addr cs' hcs'
  rw [removeClient_lookup] at hcs'
  obtain ⟨hne, hcs'⟩ := Option.ite_none_left_eq_some.mp hcs'
  obtain ⟨cs, hcs, hsame⟩ := hentries addr cs' hne hcs'
  exact .inl ⟨cs, hcs, hsame, fun writer => hkept addr writer hne⟩

theorem Attended.leave (h : Attended self) : Attended self.leave where
  tables :=
    { addressed := fun _ _ hcs => nomatch hcs
      leases := Leases.Consistent.empty
      recorded := fun _ _ hip => nomatch hip
      bounded := h.tables.bounded
      unopened := fun _ _ hcs => nomatch hcs }
  known := h.known
  attended := fun _ _ hcs => nomatch hcs
  writers := fun _ _ _ hcs => nomatch hcs

theorem known_insert {connections : Dict Nat Connection} {accepted writer : Nat} {conn : Connection}
    (hknown : ∀ writer ∈ connections, writer < accepted) (hwriter : writer < accepted) :
    ∀ other ∈ connections.insert writer conn, other < accepted := by
  intro other hother
  rw [AList.mem_insert] at hother
  obtain rfl | hother := hother
  · exact hwriter
  · exact hknown other hother

theorem known_erase {connections : Dict Nat Connection} {accepted : Nat} (writer : Nat)
    (hknown : ∀ writer ∈ connections, writer < accepted) :
    ∀ other ∈ connections.erase writer, other < accepted :=
  fun other hother => hknown other (AList.mem_erase.mp hother).2

theorem Attended.step (h : Attended self) (e : TcpEvent P) : Attended (tcpStep self e) := by
  have hlater := known_succ h.known
  have hnew := lookup_of_not_known h.known
  have hmove := tcpStep_move self e
  generalize tcpStep self e = self' at hmove
  cases hmove with
  | idle e _ _ => exact h
  | stopped => exact ⟨h.tables, h.known, h.attended, h.writers⟩
  | left => exact h.leave
  | refused draw addr _ => exact ⟨h.tables, hlater, h.attended, h.writers⟩
  | upkeep e he =>
    refine h.of_entries (h.tables.run [e]) h.known ?_
    intro addr cs' hcs'
    obtain ⟨cs, hcs, hsame⟩ | ⟨-, draw, data, rfl⟩ | ⟨draw, writer, rfl, -⟩ :=
      serverStep_entry h.tables.addressed e hcs'
    · exact .inl ⟨cs, hcs, hsame, fun _ => id⟩
    · cases he
    · cases he
  | joined draw addr =>
    refine h.of_entries (h.tables.run [.tcpConnect draw addr self.accepted])
      (known_insert hlater (Nat.lt_succ_self _)) ?_
    intro addr' cs' hcs'
    obtain ⟨cs, hcs, hsame⟩ | ⟨-, draw', data, heq⟩ | ⟨draw', writer, heq, hwriter⟩ :=
      serverStep_entry h.tables.addressed _ hcs'
    · refine .inl ⟨cs, hcs, hsame, fun writer hattends => hattends.insert ?_⟩
      intro old hold
      rw [hnew] at hold
      cases hold
    · cases heq
    · cases heq
      exact .inr ⟨self.accepted, attends_insert_self _ _ ⟨addr, [], false⟩, .inr hwriter⟩
  | turnedAway draw addr =>
    refine h.of_removed (h.tables.run [.tcpConnect draw addr self.accepted]) addr ?_
      (known_erase _ (known_insert hlater (Nat.lt_succ_self _))) ?_
    · intro addr' cs' hne hcs'
      obtain hkept | ⟨-, draw', data, heq⟩ | ⟨draw', writer, heq, -⟩ :=
        serverStep_entry h.tables.addressed (.tcpConnect draw addr self.accepted) hcs'
      · exact hkept
      · cases heq
      · cases heq
        exact absurd rfl hne
    · intro addr' writer hne hattends
      have hinserted : Attends (self.connections.insert self.accepted ⟨addr, [], false⟩) addr' writer :=
        hattends.insert fun old hold => nomatch hnew.symm.trans hold
      exact hinserted.close (AList.lookup_insert _) hne
  | fed writer chunk conn hconn heof =>
    refine h.of_entries h.tables (known_insert h.known (known_of_lookup h.known hconn)) fun addr cs hcs =>
      .inl ⟨cs, hcs, rfl, fun other hattends => hattends.replace hconn rfl⟩
  | ended writer conn hconn =>
    refine h.of_entries h.tables (known_insert h.known (known_of_lookup h.known hconn)) fun addr cs hcs =>
      .inl ⟨cs, hcs, rfl, fun other hattends => hattends.replace hconn rfl⟩
  | closed e writer conn hconn hquiet =>
    refine h.of_removed h.tables conn.addr (fun _ cs' _ hcs' => ⟨cs', hcs', rfl⟩)
      (known_erase _ h.known) fun addr other hne hattends => hattends.close hconn hne
  | read writer draw conn data rest hconn hframe =>
    refine h.of_entries (h.tables.run [.datagram draw data conn.addr])
      (known_insert h.known (known_of_lookup h.known hconn)) ?_
    intro addr cs' hcs'
    obtain ⟨cs, hcs, hsame⟩ | ⟨hnone, draw', data', heq⟩ | ⟨draw', writer', heq, -⟩ :=
      serverStep_entry h.tables.addressed _ hcs'
    · exact .inl ⟨cs, hcs, hsame, fun other hattends => hattends.replace hconn rfl⟩
    · cases heq
      exact .inr ⟨writer, attends_insert_self _ _ { conn with pending := rest }, .inl hnone⟩
    · cases heq
  | readLast writer draw conn data rest hconn hframe =>
    refine h.of_removed (h.tables.run [.datagram draw data conn.addr]) conn.addr ?_
      (known_erase _ (known_insert h.known (known_of_lookup h.known hconn))) ?_
    · intro addr cs' hne hcs'
      obtain hkept | ⟨-, draw', data', heq⟩ | ⟨draw', writer', heq, -⟩ :=
        serverStep_entry h.tables.addressed (.datagram draw data conn.addr) hcs'
      · exact hkept
      · cases heq
        exact absurd rfl hne
      · cases heq
    · intro addr other hne hattends
      have hinserted : Attends (self.connections.insert writer { conn with pending := rest }) addr
          other := hattends.replace hconn rfl
      exact hinserted.close (AList.lookup_insert _) hne

theorem Attended.run (h : Attended self) (events : List (TcpEvent P)) :
    Attended (EventRun.run tcpStep events self) :=
  inv_run_always (fun _ e hs => hs.step e) events self h

end Attended

section Calls

/-- The arguments of `handle_udp_data`. -/
def ServerEvent.packet : ServerEvent P → Option (Bytes × Addr)
  | .datagram _ data addr => some (data, addr)
  | _ => none

/-- What the server below did is a run of its own, on the packets that were handed over. -/
structure Carried (calls : List (ServerEvent P)) (new : List Handed) (self self' : TcpServer P) :
    Prop where
  server : self'.server = run serverStep calls self.server
  handed : self'.handed = self.handed ++ new
  packets : calls.filterMap ServerEvent.packet = new.map fun call => (call.data, call.addr)

/-- The rule for calls that carry no packet. -/
theorem Carried.quiet {self self' : TcpServer P} (calls : List (ServerEvent P))
    (hserver : self'.server = run serverStep calls self.server)
    (hhanded : self'.handed = self.handed)
    (hpackets : calls.filterMap ServerEvent.packet = []) : Carried calls [] self self' :=
  ⟨hserver, by rw [hhanded, List.append_nil], hpackets⟩

theorem TcpMove.carried {self self' : TcpServer P} {e : TcpEvent P} (h : TcpMove self e self')
    (he : e ≠ .leave) : ∃ calls new, Carried calls new self self' := by
  cases h with
  | idle e _ _ => exact ⟨[], [], .quiet [] rfl rfl rfl⟩
  | stopped => exact ⟨[], [], .quiet [] rfl rfl rfl⟩
  | left => exact absurd rfl he
  | upkeep e hupkeep =>
    refine ⟨[e], [], .quiet [e] rfl rfl ?_⟩
    cases e with
    | datagram draw data addr => cases hupkeep
    | _ => rfl
  | refused draw addr _ => exact ⟨[], [], .quiet [] rfl rfl rfl⟩
  | joined draw addr => exact ⟨_, [], .quiet [.tcpConnect draw addr self.accepted] rfl rfl rfl⟩
  | turnedAway draw addr =>
    exact ⟨_, [], .quiet [.tcpConnect draw addr self.accepted, .tcpDisconnect addr] rfl rfl rfl⟩
  | fed writer chunk conn _ _ => exact ⟨[], [], .quiet [] rfl rfl rfl⟩
  | ended writer conn _ => exact ⟨[], [], .quiet [] rfl rfl rfl⟩
  | closed e writer conn _ _ => exact ⟨_, [], .quiet [.tcpDisconnect conn.addr] rfl rfl rfl⟩
  | read writer draw conn data rest _ _ =>
    exact ⟨[.datagram draw data conn.addr], [⟨writer, data, conn.addr⟩], rfl, rfl, rfl⟩
  | readLast writer draw conn data rest _ _ =>
    exact ⟨[.datagram draw data conn.addr, .tcpDisconnect conn.addr],
      [⟨writer, data, conn.addr⟩], rfl, rfl, rfl⟩

/-- Until `run` leaves its loop. -/
theorem tcpRun_carried {events : List (TcpEvent P)} (hloop : .leave ∉ events)
    (self : TcpServer P) : ∃ calls new, Carried calls new self (run tcpStep events self) := by
  induction events generalizing self with
  | nil => exact ⟨[], [], .quiet [] rfl rfl rfl⟩
  | cons e events ih =>
    obtain ⟨hne, hlater⟩ := not_or.mp fun hmem => hloop (List.mem_cons.mpr hmem)
    obtain ⟨calls, new, hserver, hhanded, hpackets⟩ :=
      (tcpStep_move self e).carried (Ne.symm hne)
    obtain ⟨calls', new', hserver', hhanded', hpackets'⟩ := ih hlater (tcpStep self e)
    refine ⟨calls ++ calls', new ++ new', ?_, ?_, ?_⟩
    · rw [run_cons, hserver', hserver, run_append]
    · rw [run_cons, hhanded', hhanded, List.append_assoc]
    · rw [List.filterMap_append, List.map_append, hpackets, hpackets']

end Calls

/-- An address that no connection has holds nothing: no entry, no virtual address and, until
`run` leaves its loop, nothing of the pool. When all connections are over, the pool is what it
was at the start. -/
theorem tcp_leaves_nothing {config : Config} {start : VpnServer P}
    (hstart : VpnServer.start config = .ok start) (events : List (TcpEvent P))
    {self : TcpServer P} (hself : run tcpStep events (.new start) = self) :
    (∀ addr cs writer, self.server.clients.lookup addr = some cs → cs.writer = some writer →
      Attends self.connections addr writer) ∧
    (∀ addr, (∀ writer, ¬ Attends self.connections addr writer) →
      self.server.clients.lookup addr = none ∧ (∀ ip, self.server.ipToAddr.lookup ip ≠ some addr) ∧
      (.leave ∉ events → ∀ pool, start.ipPool = some pool → ∃ pool',
        self.server.ipPool = some pool' ∧ pool'.allocated.lookup addr.str = none)) ∧
    (self.connections = ∅ → self.server.clients = ∅ ∧ self.server.ipToAddr = ∅ ∧
      (.leave ∉ events → ∀ pool, start.ipPool = some pool → ∃ pool',
        self.server.ipPool = some pool' ∧ pool'.available = pool.available ∧
          pool'.allocated = ∅ ∧ pool'.allocatedByInt = ∅)) := by
  have hattended : Attended self := hself ▸ (Attended.new hstart).run events
  have hpooled (hloop : .leave ∉ events) (pool : IpPool) (hpool : start.ipPool = some pool) :
      PoolTables pool.available self.server := by
    obtain ⟨calls, new, hcalls, -, -⟩ := tcpRun_carried hloop (TcpServer.new start)
    rw [← hself, hcalls]
    exact (PoolTables.start hstart hpool).run calls
  refine ⟨hattended.writers, fun addr hnone => ?_, fun hclosed => ?_⟩
  · have hentry := hattended.unattended hnone
    refine ⟨hentry, hattended.tables.unmapped hentry, fun hloop pool hpool => ?_⟩
    have htables := hpooled hloop pool hpool
    obtain ⟨pool', hpool', -⟩ := htables.pool
    exact ⟨pool', hpool', htables.unleased hpool' fun other hname => Addr.str_inj hname ▸ hentry⟩
  · have hempty (addr : Addr) : self.server.clients.lookup addr = none := by
      refine hattended.unattended fun writer hattends => ?_
      obtain ⟨conn, hconn, -⟩ := hattends
      rw [hclosed] at hconn
      cases hconn
    refine ⟨Dict.eq_empty hempty, Dict.eq_empty fun ip => ?_, fun hloop pool hpool =>
      (hpooled hloop pool hpool).all_free hempty⟩
    cases hip : self.server.ipToAddr.lookup ip with
    | none => rfl
    | some addr => exact absurd hip (hattended.tables.unmapped (hempty addr) ip)

section Frames
variable {writer : Nat} {self : TcpServer P} {fed : Bytes}

theorem frame_eq_some {conn : Connection} {data rest : Bytes} (h : conn.frame = some (data, rest)) :
    Frames.readFrame frameSize conn.pending = (some data, rest) := by
  unfold Connection.frame at h
  rw [readFrame_run] at h
  generalize Frames.readFrame frameSize conn.pending = read at h
  obtain ⟨found, left⟩ := read
  cases found with
  | none => cases h
  | some body =>
    cases h
    rfl

theorem frame_eq_none {conn : Connection} (h : conn.frame = none) :
    (Frames.readFrame frameSize conn.pending).1 = none := by
  unfold Connection.frame at h
  rw [readFrame_run] at h
  generalize Frames.readFrame frameSize conn.pending = read at h
  obtain ⟨found, left⟩ := read
  cases found with
  | none => rfl
  | some body => cases h

/-- The bytes a step adds to the stream of one connection. -/
def tcpFed (writer : Nat) (self : TcpServer P) : TcpEvent P → Bytes
  | .received other chunk =>
    if other = writer then
      match self.connections.lookup writer with
      | none => []
      | some conn => if conn.eof then [] else chunk
    else []
  | _ => []

theorem packets_own {self' : TcpServer P} {data : Bytes} {addr : Addr}
    (h : self'.handed = self.handed ++ [⟨writer, data, addr⟩]) :
    self'.packets writer = self.packets writer ++ [data] := by
  rw [TcpServer.packets, h, List.filter_append, List.map_append, List.filter_cons,
    if_pos (beq_self_eq_true writer), List.filter_nil]
  rfl

theorem packets_other {self' : TcpServer P} {other : Nat} {data : Bytes} {addr : Addr}
    (hwriter : other ≠ writer) (h : self'.handed = self.handed ++ [⟨other, data, addr⟩]) :
    self'.packets writer = self.packets writer := by
  rw [TcpServer.packets, h, List.filter_append, List.map_append, List.filter_cons,
    if_neg (by rw [beq_iff_eq]; exact hwriter), List.filter_nil]
  exact List.append_nil _

/-- What has been read off the stream of one connection so far. -/
structure Reads (writer : Nat) (fed : Bytes) (tcp : TcpServer P) : Prop where
  known : ∀ writer ∈ tcp.connections, writer < tcp.accepted
  split : ∃ pending, Frames.Split frameSize fed (tcp.packets writer) pending ∧
    ∀ conn, tcp.connections.lookup writer = some conn → conn.pending = pending
  unborn : tcp.accepted ≤ writer → fed = [] ∧ tcp.packets writer = []

theorem Reads.new (writer : Nat) (start : VpnServer P) : Reads writer [] (TcpServer.new start) :=
  ⟨fun writer hwriter => absurd hwriter (AList.notMem_empty writer),
    ⟨[], Frames.Split.nil frameSize [], fun _ hconn => nomatch hconn⟩, fun _ => ⟨rfl, rfl⟩⟩

/-- The rule for a step that adds nothing to this stream and takes nothing off it. -/
theorem Reads.quiet (h : Reads writer fed self) {self' : TcpServer P} {e : TcpEvent P}
    (hfed : tcpFed writer self e = []) (hpackets : self'.packets writer = self.packets writer)
    (hknown : ∀ writer ∈ self'.connections, writer < self'.accepted)
    (haccepted : self.accepted ≤ self'.accepted)
    (hconn : ∀ conn', self'.connections.lookup writer = some conn' →
      (∃ conn, self.connections.lookup writer = some conn ∧ conn'.pending = conn.pending) ∨
        self.accepted ≤ writer ∧ conn'.pending = []) :
    Reads writer (fed ++ tcpFed writer self e) self' := by
  obtain ⟨pending, hsplit, hpending⟩ := h.split
  rw [hfed, List.append_nil]
  rw [← hpackets] at hsplit
  refine ⟨hknown, ⟨pending, hsplit, fun conn' hconn' => ?_⟩, fun hunborn => ?_⟩
  · obtain ⟨conn, hbefore, hsame⟩ | ⟨hunborn, hempty⟩ := hconn conn' hconn'
    · exact hsame.trans (hpending conn hbefore)
    · obtain ⟨rfl, hnone⟩ := h.unborn hunborn
      rw [hpackets, hnone] at hsplit
      exact hempty.trans hsplit.bytes
  · rw [hpackets]
    exact h.unborn (Nat.le_trans haccepted hunborn)

theorem Reads.own (h : Reads writer fed self) {self' : TcpServer P} {conn : Connection}
    {more : Bytes} {taken : List Bytes} (pending : Bytes)
    (hconn : self.connections.lookup writer = some conn)
    (hpackets : self'.packets writer = self.packets writer ++ taken)
    (hsplit : ∀ fed packets, Frames.Split frameSize fed packets conn.pending →
      Frames.Split frameSize (fed ++ more) (packets ++ taken) pending)
    (hknown : ∀ writer ∈ self'.connections, writer < self'.accepted)
    (haccepted : self.accepted ≤ self'.accepted)
    (hconn' : ∀ conn', self'.connections.lookup writer = some conn' → conn'.pending = pending) :
    Reads writer (fed ++ more) self' := by
  obtain ⟨waiting, hbefore, hwaiting⟩ := h.split
  obtain rfl := hwaiting conn hconn
  refine ⟨hknown, ⟨pending, by rw [hpackets]; exact hsplit fed _ hbefore, hconn'⟩, fun hunborn => ?_⟩
  have hborn := known_of_lookup h.known hconn
  exact absurd (Nat.lt_of_lt_of_le hborn haccepted) (Nat.not_lt.mpr hunborn)

theorem Reads.step (h : Reads writer fed self) (e : TcpEvent P) :
    Reads writer (fed ++ tcpFed writer self e) (tcpStep self e) := by
  have hlater := known_succ h.known
  have hkept : ∀ conn', self.connections.lookup writer = some conn' →
      (∃ conn, self.connections.lookup writer = some conn ∧ conn'.pending = conn.pending) ∨
        self.accepted ≤ writer ∧ conn'.pending = [] := fun conn' hconn' => .inl ⟨conn', hconn', rfl⟩
  have hmove := tcpStep_move self e
  generalize tcpStep self e = self' at hmove
  cases hmove with
  | idle e hwaits hdropped =>
    refine h.quiet ?_ rfl h.known (Nat.le_refl _) hkept
    cases e with
    | received other chunk =>
      rw [tcpFed]
      split
      · rename_i hwriter
        subst hwriter
        cases hconn : self.connections.lookup other with
        | none => rfl
        | some conn => exact if_pos (hdropped other chunk conn rfl hconn)
      · rfl
    | _ => rfl
  | stopped => exact h.quiet rfl rfl h.known (Nat.le_refl _) hkept
  | left => exact h.quiet rfl rfl h.known (Nat.le_refl _) hkept
  | refused draw addr _ => exact h.quiet rfl rfl hlater (Nat.le_succ _) hkept
  | upkeep e he => exact h.quiet rfl rfl h.known (Nat.le_refl _) hkept
  | joined draw addr =>
    refine h.quiet rfl rfl (known_insert hlater (Nat.lt_succ_self _)) (Nat.le_succ _) ?_
    intro conn' hconn'
    by_cases hwriter : writer = self.accepted
    · subst hwriter
      rw [AList.lookup_insert] at hconn'
      cases hconn'
      exact .inr ⟨Nat.le_refl _, rfl⟩
    · rw [AList.lookup_insert_ne hwriter] at hconn'
      exact hkept conn' hconn'
  | turnedAway draw addr =>
    refine h.quiet rfl rfl (known_erase _ (known_insert hlater (Nat.lt_succ_self _)))
      (Nat.le_succ _) ?_
    intro conn' hconn'
    by_cases hwriter : writer = self.accepted
    · subst hwriter
      rw [AList.lookup_erase] at hconn'
      cases hconn'
    · rw [AList.lookup_erase_ne hwriter, AList.lookup_insert_ne hwriter] at hconn'
      exact hkept conn' hconn'
  | fed other chunk conn hconn heof =>
    by_cases hwriter : writer = other
    · subst hwriter
      have hfed : tcpFed writer self (.received writer chunk) = chunk := by
        rw [tcpFed, if_pos rfl, hconn]
        exact if_neg (by rw [heof]; exact Bool.false_ne_true)
      rw [hfed]
      refine h.own (conn.pending ++ chunk) hconn (List.append_nil _).symm (fun fed packets hsplit => ?_)
        (known_insert h.known (known_of_lookup h.known hconn)) (Nat.le_refl _) (fun conn' hconn' => ?_)
      · rw [List.append_nil]
        exact hsplit.feed chunk
      · rw [AList.lookup_insert] at hconn'
        cases hconn'
        rfl
    · refine h.quiet (if_neg (Ne.symm hwriter)) rfl (known_insert h.known (known_of_lookup h.known hconn))
        (Nat.le_refl _) fun conn' hconn' => hkept conn' ?_
      rwa [AList.lookup_insert_ne hwriter] at hconn'
  | ended other conn hconn =>
    refine h.quiet rfl rfl (known_insert h.known (known_of_lookup h.known hconn)) (Nat.le_refl _) ?_
    intro conn' hconn'
    by_cases hwriter : writer = other
    · subst hwriter
      rw [AList.lookup_insert] at hconn'
      cases hconn'
      exact .inl ⟨conn, hconn, rfl⟩
    · rw [AList.lookup_insert_ne hwriter] at hconn'
      exact hkept conn' hconn'
  | closed e other conn hconn hquiet =>
    have hnothing : tcpFed writer self e = [] := by
      obtain rfl | ⟨⟨draw, rfl⟩, -⟩ := hquiet
      · rfl
      · rfl
    refine h.quiet hnothing rfl (known_erase other h.known) (Nat.le_refl _) ?_
    intro conn' hconn'
    by_cases hwriter : writer = other
    · subst hwriter
      rw [TcpServer.finish, AList.lookup_erase] at hconn'
      cases hconn'
    · rw [TcpServer.finish, AList.lookup_erase_ne hwriter] at hconn'
      exact hkept conn' hconn'
  | read other draw conn data rest hconn hframe =>
    by_cases hwriter : other = writer
    · subst hwriter
      refine h.own rest hconn (packets_own rfl) (fun fed packets hsplit => ?_)
        (known_insert h.known (known_of_lookup h.known hconn)) (Nat.le_refl _) (fun conn' hconn' => ?_)
      · have hfed : tcpFed other self (.turn other draw) = [] := rfl
        rw [hfed, List.append_nil]
        exact hsplit.read (frame_eq_some hframe)
      · rw [AList.lookup_insert] at hconn'
        cases hconn'
        rfl
    · refine h.quiet rfl (packets_other hwriter rfl) (known_insert h.known (known_of_lookup h.known hconn))
        (Nat.le_refl _) fun conn' hconn' => hkept conn' ?_
      rwa [AList.lookup_insert_ne (Ne.symm hwriter)] at hconn'
  | readLast other draw conn data rest hconn hframe =>
    by_cases hwriter : other = writer
    · subst hwriter
      refine h.own rest hconn (packets_own rfl) (fun fed packets hsplit => ?_)
        (known_erase _ (known_insert h.known (known_of_lookup h.known hconn))) (Nat.le_refl _) (fun conn' hconn' => ?_)
      · have hfed : tcpFed other self (.turn other draw) = [] := rfl
        rw [hfed, List.append_nil]
        exact hsplit.read (frame_eq_some hframe)
      · rw [AList.lookup_erase] at hconn'
        cases hconn'
    · refine h.quiet rfl (packets_other hwriter rfl)
        (known_erase _ (known_insert h.known (known_of_lookup h.known hconn))) (Nat.le_refl _)
        fun conn' hconn' => hkept conn' ?_
      rwa [AList.lookup_erase_ne (Ne.symm hwriter),
        AList.lookup_insert_ne (Ne.symm hwriter)] at hconn'

theorem Reads.run (h : Reads writer fed self) (events : List (TcpEvent P)) :
    Reads writer (fed ++ emitted tcpStep (tcpFed writer) events self)
      (EventRun.run tcpStep events self) := by
  induction events generalizing fed self with
  | nil =>
    rw [emitted, List.append_nil]
    exact h
  | cons e events ih =>
    rw [emitted, ← List.append_assoc, run_cons]
    exact ih (h.step e)

theorem framePacket_eq_ok {packets frames : List Bytes}
    (h : packets.mapM framePacket = .ok frames) :
    (∀ packet ∈ packets, packet.length < 256 ^ frameSize) ∧
      frames = packets.map (Frames.frame frameSize) := by
  induction packets generalizing frames with
  | nil =>
    cases h
    exact ⟨fun _ hmem => absurd hmem List.not_mem_nil, rfl⟩
  | cons packet packets ih =>
    rw [List.mapM_cons] at h
    obtain ⟨frame, hframe, h⟩ := bind_eq_ok.mp h
    obtain ⟨later, hlater, h⟩ := bind_eq_ok.mp h
    cases h
    obtain ⟨hshort, rfl⟩ := ih hlater
    unfold framePacket at hframe
    split at hframe
    · cases hframe
    · rename_i header hheader
      obtain ⟨hlt, rfl⟩ := pack_eq_ok hheader
      cases hframe
      exact ⟨List.forall_mem_cons.mpr ⟨hlt, hshort⟩, rfl⟩

/-- Of each stream of framed packets a prefix is handled, in order, however the stream is cut
and whatever other connections do. Where the task waits, that is every packet whose frame has
arrived. Until `run` leaves its loop, the server is what these packets and the other callbacks
make of it. -/
theorem tcp_frames_in_order {packets frames : List Bytes}
    (hframes : packets.mapM framePacket = .ok frames) (start : VpnServer P)
    (events : List (TcpEvent P)) (writer : Nat)
    (hfed : emitted tcpStep (tcpFed writer) events (.new start) <+: frames.flatten)
    {self : TcpServer P} (hself : run tcpStep events (.new start) = self) :
    self.packets writer <+: packets ∧
    (∀ conn, self.connections.lookup writer = some conn → conn.frame = none → ∀ k,
      (frames.take k).flatten.length ≤
          (emitted tcpStep (tcpFed writer) events (.new start)).length →
        packets.take k <+: self.packets writer) ∧
    (.leave ∉ events → ∃ calls, self.server = run serverStep calls start ∧
      calls.filterMap ServerEvent.packet = self.handed.map fun call => (call.data, call.addr)) := by
  subst hself
  obtain ⟨hshort, rfl⟩ := framePacket_eq_ok hframes
  obtain ⟨-, ⟨pending, hsplit, hpending⟩, -⟩ := (Reads.new writer start).run events
  rw [List.nil_append] at hsplit
  refine ⟨?_, fun conn hconn hwaits k hwhole => ?_, fun hloop => ?_⟩
  · obtain ⟨later, hlater, -⟩ := hsplit.prefix (by decide) hshort hfed
    exact ⟨later, hlater.symm⟩
  · obtain rfl := hpending conn hconn
    rw [← List.map_take] at hwhole
    exact hsplit.complete (by decide) hshort hfed (frame_eq_none hwaits)
      (List.take_prefix k packets) hwhole
  · obtain ⟨calls, new, hserver, hhanded, hpackets⟩ := tcpRun_carried hloop (TcpServer.new start)
    refine ⟨calls, hserver, ?_⟩
    rw [hhanded, hpackets]
    rfl

end Frames
namespace Transparent

def tcpConfig : Config := { poolConfig with proto := "tcp" }

def tcpStarted : VpnServer primitives := { started with config := tcpConfig, transport := false }

def tcpPackets : List Bytes := [resetPacket 7, helloPacket [] 7, finishedPacket [0, 0] 7]

def tcpFrames : List Bytes := tcpPackets.map (Frames.frame frameSize)

/-- A peer connects, does its handshake in pieces while another one comes, and both leave. -/
def tcpVisit : List (TcpEvent primitives) :=
  [.accept (draw 5) peer, .received 0 (tcpFrames.flatten.take 12), .turn 0 ⟨draw 5, []⟩,
    .accept (draw 6) secondPeer, .received 1 (tcpFrames.flatten.take 20),
    .received 0 (tcpFrames.flatten.drop 12), .turn 1 ⟨draw 6, []⟩, .turn 0 ⟨draw 5, []⟩,
    .turn 0 ⟨draw 5, []⟩, .turn 0 ⟨draw 5, []⟩, .eof 0, .turn 0 ⟨draw 5, []⟩, .lost 1]

def tcpAfter (n : Nat) : TcpServer primitives := run tcpStep (tcpVisit.take n) (.new tcpStarted)

/-- In the middle of the visit the connection holds a lease. -/
example : (tcpAfter 10).server.ipToAddr.keys = ["10.8.0.2"] := by decide +kernel

/-- Once the first peer has left nothing of it is there, and in the end nothing of either. -/
theorem tcp_leaves_nothing_visit :
    (∀ cs writer, (tcpAfter 12).server.clients.lookup secondPeer = some cs →
      cs.writer = some writer → Attends (tcpAfter 12).connections secondPeer writer) ∧
    (tcpAfter 12).server.clients.lookup peer = none ∧
    (∀ ip, (tcpAfter 12).server.ipToAddr.lookup ip ≠ some peer) ∧
    (tcpAfter 13).server.clients = ∅ ∧ (tcpAfter 13).server.ipToAddr = ∅ ∧
    ∀ pool, tcpStarted.ipPool = some pool →
      ∃ pool', (tcpAfter 13).server.ipPool = some pool' ∧ pool'.available = pool.available ∧
        pool'.allocated = ∅ ∧ pool'.allocatedByInt = ∅ := by
  have hstart : VpnServer.start tcpConfig = .ok tcpStarted := rfl
  have hrun (n : Nat) : run tcpStep (tcpVisit.take n) (.new tcpStarted) = tcpAfter n := rfl
  obtain ⟨hwriters, hnobody, -⟩ := tcp_leaves_nothing hstart (tcpVisit.take 12) (hrun 12)
  obtain ⟨-, -, hclosed⟩ := tcp_leaves_nothing hstart (tcpVisit.take 13) (hrun 13)
  have hgone (writer : Nat) : ¬ Attends (tcpAfter 12).connections peer writer := by
    intro ⟨conn, hconn, haddr⟩
    have hkeys : (tcpAfter 12).connections.keys = [1] := by decide +kernel
    have hother : ((tcpAfter 12).connections.lookup 1).map Connection.addr = some secondPeer := by
      decide +kernel
    have hmem : writer ∈ (tcpAfter 12).connections := AList.lookup_isSome.mp (by rw [hconn]; rfl)
    have hwriter : writer = 1 := List.mem_singleton.mp (hkeys ▸ AList.mem_keys.mp hmem)
    subst hwriter
    rw [hconn, Option.map_some, haddr] at hother
    exact absurd hother (by decide)
  obtain ⟨hclients, hips, -⟩ := hnobody peer hgone
  have hempty : (tcpAfter 13).connections = ∅ := by
    have hkeys : (tcpAfter 13).connections.keys = [] := by decide +kernel
    exact Dict.eq_empty fun writer => AList.lookup_eq_none.mpr fun hmem =>
      absurd (hkeys ▸ AList.mem_keys.mp hmem) List.not_mem_nil
  obtain ⟨hclients', hips', hpool⟩ := hclosed hempty
  exact ⟨hwriters secondPeer, hclients, hips, hclients', hips', hpool (by simp [tcpVisit])⟩

/-- The cut stream is handled whole. -/
theorem tcp_frames_in_order_visit :
    (tcpAfter 10).packets 0 = tcpPackets ∧
    ∃ calls, (tcpAfter 10).server = run serverStep calls tcpStarted ∧
      calls.filterMap ServerEvent.packet =
        (tcpAfter 10).handed.map fun call => (call.data, call.addr) := by
  have hframes : tcpPackets.mapM framePacket = .ok tcpFrames := rfl
  have hrun : run tcpStep (tcpVisit.take 10) (.new tcpStarted) = tcpAfter 10 := rfl
  obtain ⟨hbefore, hwhole, hserver⟩ :=
    tcp_frames_in_order hframes tcpStarted (tcpVisit.take 10) 0 (by decide +kernel) hrun
  refine ⟨?_, hserver (by simp [tcpVisit])⟩
  have hwaits : ((tcpAfter 10).connections.lookup 0).map Connection.pending = some [] := by
    decide +kernel
  obtain ⟨conn, hconn, hpending⟩ := Option.map_eq_some_iff.mp hwaits
  have hall := hwhole conn hconn (by rw [Connection.frame, hpending]; rfl) 3 (by decide +kernel)
  exact hbefore.eq_of_length_le hall.length_le

end Transparent
end PyVpn
