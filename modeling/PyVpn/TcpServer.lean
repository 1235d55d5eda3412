import PyVpn.Framing
import PyVpn.PeerIsolation
import PyVpn.ServerLife
import PyVpn.ServerPool

/-! The TCP side of `VpnServer`: one task of `_handle_tcp_client` for each connection. A turn
of a task reads one frame and handles it; how a stream is cut into chunks, which task runs
when, and when `run` leaves its loop is up to the events. -/
namespace PyVpn
open EventRun
variable {P : Primitives}

structure Connection where
  addr : Addr
  /-- What the `StreamReader` holds; a header that was read alone is still here. -/
  pending : Bytes
  eof : Bool

/-- The frame `read_frame` returns and what it leaves; `none` where it waits or has met the
end of the stream. -/
def Connection.frame (conn : Connection) : Option (Bytes × Bytes) :=
  match readFrame ⟨conn.pending⟩ with
  | (.ok (some data), reader) => some (data, reader.pending)
  | _ => none

/-- A call of `handle_udp_data` by the task of a connection. -/
structure Handed where
  writer : Nat
  data : Bytes
  addr : Addr

structure TcpServer (P : Primitives) where
  server : VpnServer P
  running : Bool
  /-- The connections by their writers. -/
  connections : Dict Nat Connection
  /-- How many connections there have been; the next writer gets this number. -/
  accepted : Nat
  handed : List Handed

namespace TcpServer

def new (server : VpnServer P) : TcpServer P where
  server := server
  running := true
  connections := ∅
  accepted := 0
  handed := []

/-- The `finally` clause of `_handle_tcp_client`, and its end. -/
def finish (writer : Nat) (addr : Addr) (self : TcpServer P) : TcpServer P :=
  { self with
    server := removeClient addr self.server
    connections := self.connections.erase writer }

/-- `while self._running`. -/
def test (writer : Nat) (addr : Addr) (self : TcpServer P) : TcpServer P :=
  if self.running then self else self.finish writer addr

/-- `_handle_tcp_client` up to its first `read_frame`. An exception of
`_get_or_create_session` comes before the `try`. -/
def accept (draw : SessionDraw P) (addr : Addr) (self : TcpServer P) : TcpServer P :=
  let writer := self.accepted
  let result := getOrCreateSession draw addr (some writer) self.server
  let self := { self with server := result.2, accepted := writer + 1 }
  match result.1 with
  | .error _ => self
  | .ok _ =>
    { self with connections := self.connections.insert writer ⟨addr, [], false⟩ }.test writer addr

/-- `self.handle_udp_data(data, addr)`, which is written down. -/
def hand (writer : Nat) (draw : Draw P) (data : Bytes) (addr : Addr) (self : TcpServer P) :
    Except PyError Unit × TcpServer P :=
  let result := handleUdpData draw data addr self.server
  (result.1, { self with
    server := result.2
    handed := self.handed ++ [⟨writer, data, addr⟩] })

/-- The body of the loop, where a frame is there or the stream is over. -/
def turn (writer : Nat) (draw : Draw P) (self : TcpServer P) : TcpServer P :=
  match self.connections.lookup writer with
  | none => self
  | some conn =>
    match conn.frame with
    | some (data, rest) =>
      let self := { self with
        connections := self.connections.insert writer { conn with pending := rest } }
      let result := self.hand writer draw data conn.addr
      match result.1 with
      | .error _ => result.2.finish writer conn.addr
      | .ok () => result.2.test writer conn.addr
    | none => if conn.eof then self.finish writer conn.addr else self

def received (writer : Nat) (chunk : Bytes) (self : TcpServer P) : TcpServer P :=
  match self.connections.lookup writer with
  | none => self
  | some conn =>
    if conn.eof then self
    else { self with
      connections := self.connections.insert writer { conn with pending := conn.pending ++ chunk } }

def feedEof (writer : Nat) (self : TcpServer P) : TcpServer P :=
  match self.connections.lookup writer with
  | none => self
  | some conn =>
    { self with connections := self.connections.insert writer { conn with eof := true } }

def lost (writer : Nat) (self : TcpServer P) : TcpServer P :=
  match self.connections.lookup writer with
  | none => self
  | some conn => self.finish writer conn.addr

/-- The end of `run`: its `finally` clause, as far as the clients go. The tasks run on until
their reads raise. -/
def leave (self : TcpServer P) : TcpServer P :=
  { self with server := { ServerLife.releaseClients self.server with transport := false } }

def packets (writer : Nat) (self : TcpServer P) : List Bytes :=
  (self.handed.filter fun call => call.writer == writer).map Handed.data

end TcpServer

inductive TcpEvent (P : Primitives) where
  | accept (draw : SessionDraw P) (addr : Addr)
  | received (writer : Nat) (chunk : Bytes)
  | eof (writer : Nat)
  | lost (writer : Nat)
  | turn (writer : Nat) (draw : Draw P)
  /-- A callback that has nothing to do with a connection. -/
  | callback (e : ServerEvent P)
  | stop
  | leave

def ServerEvent.isUpkeep : ServerEvent P → Bool
  | .datagram .. => false
  | .tcpConnect .. => false
  | .tcpDisconnect _ => false
  | _ => true

def tcpStep (self : TcpServer P) : TcpEvent P → TcpServer P
  | .accept draw addr => self.accept draw addr
  | .received writer chunk => self.received writer chunk
  | .eof writer => self.feedEof writer
  | .lost writer => self.lost writer
  | .turn writer draw => self.turn writer draw
  | .callback e => if e.isUpkeep then { self with server := serverStep self.server e } else self
  | .stop => { self with running := false }
  | .leave => self.leave

inductive TcpMove (self : TcpServer P) : TcpEvent P → TcpServer P → Prop
  | idle (e : TcpEvent P)
      (hwaits : ∀ writer draw conn, e = .turn writer draw →
        self.connections.lookup writer = some conn → conn.frame = none)
      (hdropped : ∀ writer chunk conn, e = .received writer chunk →
        self.connections.lookup writer = some conn → conn.eof = true) : TcpMove self e self
  | stopped : TcpMove self .stop { self with running := false }
  | left : TcpMove self .leave self.leave
  | upkeep (e : ServerEvent P) (he : e.isUpkeep = true) :
      TcpMove self (.callback e) { self with server := serverStep self.server e }
  | refused (draw : SessionDraw P) (addr : Addr)
      (hrefused : (getOrCreateSession draw addr (some self.accepted) self.server).2 = self.server) :
      TcpMove self (.accept draw addr) { self with accepted := self.accepted + 1 }
  | joined (draw : SessionDraw P) (addr : Addr) :
      TcpMove self (.accept draw addr) { self with
        server := serverStep self.server (.tcpConnect draw addr self.accepted)
        connections := self.connections.insert self.accepted ⟨addr, [], false⟩
        accepted := self.accepted + 1 }
  | turnedAway (draw : SessionDraw P) (addr : Addr) :
      TcpMove self (.accept draw addr) { self with
        server := removeClient addr (serverStep self.server (.tcpConnect draw addr self.accepted))
        connections := (self.connections.insert self.accepted ⟨addr, [], false⟩).erase self.accepted
        accepted := self.accepted + 1 }
  | fed (writer : Nat) (chunk : Bytes) (conn : Connection)
      (hconn : self.connections.lookup writer = some conn) (heof : conn.eof = false) :
      TcpMove self (.received writer chunk) { self with
        connections :=
          self.connections.insert writer { conn with pending := conn.pending ++ chunk } }
  | ended (writer : Nat) (conn : Connection) (hconn : self.connections.lookup writer = some conn) :
      TcpMove self (.eof writer) { self with
        connections := self.connections.insert writer { conn with eof := true } }
  | closed (e : TcpEvent P) (writer : Nat) (conn : Connection)
      (hconn : self.connections.lookup writer = some conn)
      (hquiet : e = .lost writer ∨ (∃ draw, e = .turn writer draw) ∧ conn.frame = none) :
      TcpMove self e (self.finish writer conn.addr)
  | read (writer : Nat) (draw : Draw P) (conn : Connection) (data rest : Bytes)
      (hconn : self.connections.lookup writer = some conn) (hframe : conn.frame = some (data, rest)) :
      TcpMove self (.turn writer draw) { self with
        server := serverStep self.server (.datagram draw data conn.addr)
        connections := self.connections.insert writer { conn with pending := rest }
        handed := self.handed ++ [⟨writer, data, conn.addr⟩] }
  | readLast (writer : Nat) (draw : Draw P) (conn : Connection) (data rest : Bytes)
      (hconn : self.connections.lookup writer = some conn) (hframe : conn.frame = some (data, rest)) :
      TcpMove self (.turn writer draw) { self with
        server := removeClient conn.addr (serverStep self.server (.datagram draw data conn.addr))
        connections :=
          (self.connections.insert writer { conn with pending := rest }).erase writer
        handed := self.handed ++ [⟨writer, data, conn.addr⟩] }

section Step

theorem test_cases (writer : Nat) (addr : Addr) (self : TcpServer P) :
    self.test writer addr = self ∨ self.test writer addr = self.finish writer addr := by
  unfold TcpServer.test
  split
  · exact .inl rfl
  · exact .inr rfl

theorem accept_move (self : TcpServer P) (draw : SessionDraw P) (addr : Addr) :
    TcpMove self (.accept draw addr) (self.accept draw addr) := by
  unfold TcpServer.accept
  cases hopened : (getOrCreateSession draw addr (some self.accepted) self.server).1 with
  | error e =>
    have hsame : (getOrCreateSession draw addr (some self.accepted) self.server).2 =
        self.server := by
      obtain ⟨e', hrun⟩ | ⟨cs, -, hrun⟩ | ⟨cs, -, -, hrun⟩ :=
        getOrCreateSession_cases draw addr (some self.accepted) self.server
      · rw [hrun]
      · rw [hrun] at hopened
        cases hopened
      · rw [hrun] at hopened
        cases hopened
    simp only [hopened, hsame]
    exact .refused draw addr hsame
  | ok cs =>
    simp only [hopened]
    obtain htest | htest := test_cases self.accepted addr { self with
      server := (getOrCreateSession draw addr (some self.accepted) self.server).2
      connections := self.connections.insert self.accepted ⟨addr, [], false⟩
      accepted := self.accepted + 1 }
    · rw [htest]
      exact .joined draw addr
    · rw [htest]
      exact .turnedAway draw addr

theorem turn_move (self : TcpServer P) (writer : Nat) (draw : Draw P) :
    TcpMove self (.turn writer draw) (self.turn writer draw) := by
  have hidle (hwaits : ∀ conn, self.connections.lookup writer = some conn → conn.frame = none) :
      TcpMove self (.turn writer draw) self := by
    refine .idle _ ?_ (by intro _ _ _ he; cases he)
    intro writer' draw' conn he hconn
    cases he
    exact hwaits conn hconn
  unfold TcpServer.turn
  cases hconn : self.connections.lookup writer with
  | none => exact hidle fun conn hsome => nomatch hconn.symm.trans hsome
  | some conn =>
    cases hframe : conn.frame with
    | none =>
      simp only [hframe]
      by_cases heof : conn.eof = true
      · rw [if_pos heof]
        exact .closed _ writer conn hconn (.inr ⟨⟨draw, rfl⟩, hframe⟩)
      · rw [if_neg heof]
        exact hidle fun conn' hsome => Option.some.inj (hconn.symm.trans hsome) ▸ hframe
    | some read =>
      obtain ⟨data, rest⟩ := read
      simp only [hframe]
      have hlast := TcpMove.readLast writer draw conn data rest hconn hframe
      simp only [TcpServer.hand]
      cases (handleUdpData draw data conn.addr self.server).1 with
      | error e => exact hlast
      | ok u =>
        obtain htest | htest := test_cases writer conn.addr { self with
          server := (handleUdpData draw data conn.addr self.server).2
          connections := self.connections.insert writer { conn with pending := rest }
          handed := self.handed ++ [⟨writer, data, conn.addr⟩] }
        · rw [htest]
          exact .read writer draw conn data rest hconn hframe
        · rw [htest]
          exact hlast

theorem tcpStep_move (self : TcpServer P) (e : TcpEvent P) : TcpMove self e (tcpStep self e) := by
  cases e with
  | accept draw addr => exact accept_move self draw addr
  | turn writer draw => exact turn_move self writer draw
  | received writer chunk =>
    rw [tcpStep, TcpServer.received]
    have hidle (hover : ∀ conn, self.connections.lookup writer = some conn → conn.eof = true) :
        TcpMove self (.received writer chunk) self := by
      refine .idle _ (by intro _ _ _ he; cases he) ?_
      intro writer' chunk' conn he hconn
      cases he
      exact hover conn hconn
    cases hconn : self.connections.lookup writer with
    | none => exact hidle fun conn hsome => nomatch hconn.symm.trans hsome
    | some conn =>
      by_cases heof : conn.eof = true
      · simp only [if_pos heof]
        exact hidle fun conn' hsome => Option.some.inj (hconn.symm.trans hsome) ▸ heof
      · simp only [if_neg heof]
        exact .fed writer chunk conn hconn (Bool.eq_false_iff.mpr heof)
  | eof writer =>
    rw [tcpStep, TcpServer.feedEof]
    cases hconn : self.connections.lookup writer with
    | none => exact .idle _ (by intro _ _ _ he; cases he) (by intro _ _ _ he; cases he)
    | some conn => exact .ended writer conn hconn
  | lost writer =>
    rw [tcpStep, TcpServer.lost]
    cases hconn : self.connections.lookup writer with
    | none => exact .idle _ (by intro _ _ _ he; cases he) (by intro _ _ _ he; cases he)
    | some conn => exact .closed _ writer conn hconn (.inl rfl)
  | callback e =>
    rw [tcpStep]
    cases he : e.isUpkeep with
    | true => exact .upkeep e he
    | false => exact .idle _ (by intro _ _ _ he; cases he) (by intro _ _ _ he; cases he)
  | stop => exact .stopped
  | leave => exact .left

end Step
end PyVpn
