import PyVpn.Config
import PyVpn.Control
import PyVpn.DataChannel
import PyVpn.EventRun
import PyVpn.Routing

/-! `VpnServer`: the client table, the address map and the pool, and every callback
that changes them. What a callback hands to the operating system is appended to
`effects`; one call reads the clock once. -/
namespace PyVpn

inductive Effect where
  | sendto (data : Bytes) (addr : Addr)
  | writerWrite (writer : Nat) (data : Bytes)
  | writerClose (writer : Nat)
  | tunWrite (packet : Bytes)
  | addRoute (network : String)
  | deleteRoute (network : String)

structure ClientSession (P : Primitives) where
  addr : Addr
  session : Session P
  data : Option DataChannel
  virtualIp : Option String
  lastSeen : Time
  lastKeepalive : Time
  writer : Option Nat

structure VpnServer (P : Primitives) where
  config : Config
  /-- `self.transport` is set: the UDP socket is open. -/
  transport : Bool
  clients : Dict Addr (ClientSession P)
  ipToAddr : Dict String Addr
  ipPool : Option IpPool
  effects : List Effect

/-- What one callback draws from its environment: the clock, a fresh session's random
values, signature coins. -/
structure Draw (P : Primitives) where
  session : SessionDraw P
  coins : Bytes

section
variable {P : Primitives}

def Draw.now (draw : Draw P) : Time := draw.session.now

def ClientSession.new (addr : Addr) (session : Session P) (now : Time) : ClientSession P where
  addr := addr
  session := session
  data := none
  virtualIp := none
  lastSeen := now
  lastKeepalive := 0
  writer := none

def ClientSession.isReady (cs : ClientSession P) : Bool :=
  cs.session.isEstablished && cs.data.isSome

def ClientSession.clientId (cs : ClientSession P) : String := cs.addr.str

def VpnServer.new (config : Config) : Except PyError (VpnServer P) := do
  let ipPool ← match config.server with
    | none => pure none
    | some server =>
      if server = "" then pure none
      else (IpPool.new server config.ifconfigPool).map some
  return {
    config := config
    transport := false
    clients := ∅
    ipToAddr := ∅
    ipPool := ipPool
    effects := [] }

/-- The state `run` enters its loop with: the UDP transport exists unless TCP is used. -/
def VpnServer.start (config : Config) : Except PyError (VpnServer P) := do
  let self ← VpnServer.new config
  return { self with transport := !config.isTcp }

def emit (e : Effect) : Py (VpnServer P) Unit :=
  Py.assign fun self => { self with effects := self.effects ++ [e] }

/-- Attribute writes on the entry object reach the table it is stored in. -/
def storeClient (cs : ClientSession P) : Py (VpnServer P) Unit :=
  Py.assign fun self => { self with clients := self.clients.insert cs.addr cs }

def syncSendTo (cs : ClientSession P) (data : Bytes) : Py (VpnServer P) Unit := do
  let self ← Py.self
  match self.config.isTcp, cs.writer with
  | true, some writer => do
    let frame ← Py.ofExcept (framePacket data)
    emit (.writerWrite writer frame)
  | _, _ => if self.transport then emit (.sendto data cs.addr) else return ()

/-- The value an `async def` call returns. Its body runs when it is awaited. -/
structure Coroutine (P : Primitives) where
  body : Py (VpnServer P) Unit

def Coroutine.await (c : Coroutine P) : Py (VpnServer P) Unit := c.body

/-- A coroutine object that is dropped: none of its body runs. -/
def Coroutine.drop (_ : Coroutine P) : Py (VpnServer P) Unit := return ()

/-- `_send_to`, but for the wait until the writer has drained: while it lasts the loop does not go
on, and it may raise out of `run`. -/
def sendTo (cs : ClientSession P) (data : Bytes) : Coroutine P := ⟨syncSendTo cs data⟩

/-- The keepalive one client gets in `_send_keepalives`. -/
def sendKeepalive (now : Time) (addr : Addr) : Py (VpnServer P) Unit := do
  let self ← Py.self
  match self.clients.lookup addr with
  | none => return ()
  | some cs =>
    if cs.isReady && decide (now - cs.lastKeepalive ≥ self.config.keepaliveInterval) then do
      let packet := encodePacket .control cs.session.sid [MessageType.keepalive.value]
      (sendTo cs packet).await
      storeClient { cs with lastKeepalive := now }
    else return ()

def releaseAddress (self : VpnServer P) (cs : ClientSession P) : VpnServer P :=
  match cs.virtualIp with
  | none => self
  | some ip =>
    let self := if ip ∈ self.ipToAddr then
        { self with
          ipToAddr := self.ipToAddr.erase ip
          effects := self.effects ++ [.deleteRoute ip] }
      else self
    { self with ipPool := self.ipPool.map fun pool => pool.release cs.clientId }

def removeClient (addr : Addr) (self : VpnServer P) : VpnServer P :=
  match self.clients.lookup addr with
  | none => self
  | some cs =>
    let self := releaseAddress { self with clients := self.clients.erase addr } cs
    { self with effects := self.effects ++ cs.writer.toList.map .writerClose }

def ClientSession.isStale (cs : ClientSession P) (now : Time) (timeout : Int) : Bool :=
  if cs.session.isEstablished then decide (now - cs.lastSeen > timeout)
  else cs.session.isExpired now

def cleanupStale (now : Time) (self : VpnServer P) : VpnServer P :=
  let toRemove := self.clients.keys.filter fun addr =>
    (self.clients.lookup addr).any fun cs => cs.isStale now self.config.keepaliveTimeout
  toRemove.foldl (fun self addr => removeClient addr self) self

def ipv4Dest (packet : Bytes) : Option String :=
  if packet.length < 20 then none
  else
    let versionIhl := packet.headD 0
    let ihl := (versionIhl &&& 0x0f).toNat * 4
    if packet.length < ihl + 4 then none
    else
      let dest := slice packet (ihl + 4) (ihl + 8)
      if dest.length = 4 then some (dotted dest) else none

def onChannel {α : Type} (cs : ClientSession P) (ch : DataChannel) (method : Py DataChannel α) :
    Py (VpnServer P) α := do
  let result := method ch
  storeClient { cs with data := some result.2 }
  Py.ofExcept result.1

/-- The ready client a TUN packet is for, as `_on_tun_readable` finds it. -/
def selectClient (self : VpnServer P) (packet : Bytes) :
    Option (ClientSession P × DataChannel) := do
  if packet.length < 20 then none
  else
    let destIp ← ipv4Dest packet
    let clientAddr ← self.ipToAddr.lookup destIp
    let cs ← self.clients.lookup clientAddr
    let ch ← cs.data
    if cs.isReady then some (cs, ch) else none

/-- `_on_tun_readable`: it calls `_send_to` and drops the coroutine it gets. -/
def onTunReadable (nonces : Nat → Nonce) (packet : Bytes) : Py (VpnServer P) Unit := do
  let self ← Py.self
  match selectClient self packet with
  | none => return ()
  | some (cs, ch) => do
    let wires ← onChannel cs ch (encrypt P nonces packet)
    wires.forM fun wire => (sendTo cs wire).drop

def getOrCreateSession (draw : SessionDraw P) (addr : Addr) (writer : Option Nat) :
    Py (VpnServer P) (ClientSession P) := do
  let self ← Py.self
  match self.clients.lookup addr with
  | some cs => return cs
  | none =>
    let session := Session.new draw true
    let session ← match self.config.authPaths with
      | none => pure session
      | some (ca, cert, key) =>
        let configured := configure ca cert key session
        Py.ofExcept (configured.1.map fun _ => configured.2)
    let cs := { ClientSession.new addr session draw.now with writer := writer }
    storeClient cs
    return cs

def assignIpToClient (cs : ClientSession P) : Py (VpnServer P) (Option String) := do
  let self ← Py.self
  match self.ipPool with
  | none => return none
  | some pool =>
    let allocation := pool.allocate cs.clientId
    Py.assign fun self => { self with ipPool := some allocation.2 }
    match allocation.1 with
    | none => return none
    | some ip =>
      let cs := { cs with virtualIp := some ip, session := { cs.session with assignedIp := some ip } }
      storeClient cs
      Py.assign fun self => { self with ipToAddr := self.ipToAddr.insert ip cs.addr }
      let ipPayload := MessageType.ipAssign.value :: ip.toUTF8.toList
      syncSendTo cs (encodePacket .control cs.session.sid ipPayload)
      emit (.addRoute ip)
      return some ip

def controlHandler (coins : Bytes) (msgType : MessageType) (inner : Bytes) :
    Option (Py (Session P) (List Bytes)) :=
  match msgType with
  | .clientHello => some (serverHandleClientHello coins inner)
  | .clientFinished => some (serverHandleClientFinished inner)
  | _ => none

/-- Run a handler on the entry's session and send what it returns. -/
def callHandler (cs : ClientSession P) (handler : Py (Session P) (List Bytes)) :
    Py (VpnServer P) (ClientSession P) := do
  let result := handler cs.session
  let cs := { cs with session := result.2 }
  storeClient cs
  let packets ← Py.ofExcept result.1
  packets.forM (syncSendTo cs)
  return cs

/-- An established session without a data channel gets one, and an address. -/
def openDataChannel (cs : ClientSession P) : Py (VpnServer P) Unit := do
  let self ← Py.self
  if cs.session.isEstablished && cs.data.isNone then do
    let s := cs.session
    let ch := DataChannel.new P s.sessionId (orEmpty (s.peerSessionId.map Subtype.val)) s.cipher
      self.config.compLzo
    let cs := { cs with data := some ch }
    storeClient cs
    let _ ← assignIpToClient cs
    return ()
  else return ()

def handleControl (coins : Bytes) (cs : ClientSession P) (data : Bytes) :
    Py (VpnServer P) Unit := do
  match decodePacket data with
  | .error _ => return ()
  | .ok (_, _, payload) =>
    if payload.length < 1 then return ()
    else do
      let msgType ← Py.ofExcept (MessageType.ofValue (payload.headD 0))
      match controlHandler coins msgType (payload.drop 1) with
      | none => return ()
      | some handler => do
        let cs ← callHandler cs handler
        openDataChannel cs

def handleData (now : Time) (cs : ClientSession P) (data : Bytes) : Py (VpnServer P) Unit := do
  match cs.data with
  | none => return ()
  | some ch =>
    if cs.isReady then do
      let plain ← onChannel cs ch (decrypt P now data)
      if truthyBytes plain then emit (.tunWrite (orEmpty plain)) else return ()
    else return ()

def handleUdpData (draw : Draw P) (data : Bytes) (addr : Addr) : Py (VpnServer P) Unit := do
  if data.length < 1 then return ()
  else
    let opcodeVal := data.headD 0
    if opcodeVal = Opcode.hardResetClient.value then do
      let cs ← getOrCreateSession draw.session addr none
      let _ ← callHandler cs (serverHandleReset draw.now data)
      return ()
    else if opcodeVal = Opcode.hardResetServer.value then return ()
    else
      let self ← Py.self
      match self.clients.lookup addr with
      | none => return ()
      | some cs =>
        let cs := { cs with lastSeen := draw.now }
        storeClient cs
        if opcodeVal = Opcode.control.value then handleControl draw.coins cs data
        else if opcodeVal = Opcode.data.value then handleData draw.now cs data
        else return ()

/-- `cs.data.cleanup_fragments()` for every client that has a channel. -/
def cleanupAllFragments (now : Time) (self : VpnServer P) : VpnServer P :=
  self.clients.keys.foldl (fun self addr =>
    match self.clients.lookup addr with
    | none => self
    | some cs =>
      let cs := { cs with data := cs.data.map (cleanupFragments now) }
      { self with clients := self.clients.insert addr cs }) self

inductive ServerEvent (P : Primitives) where
  | datagram (draw : Draw P) (data : Bytes) (addr : Addr)
  | tcpConnect (draw : SessionDraw P) (addr : Addr) (writer : Nat)
  | tcpDisconnect (addr : Addr)
  | tunReadable (nonces : Nat → Nonce) (packet : Bytes)
  | cleanupStale (now : Time)
  | keepalive (now : Time) (addr : Addr)
  | cleanupFragments (now : Time)

def serverStep (self : VpnServer P) : ServerEvent P → VpnServer P
  | .datagram draw data addr => (handleUdpData draw data addr self).2
  | .tcpConnect draw addr writer => (getOrCreateSession draw addr (some writer) self).2
  | .tcpDisconnect addr => removeClient addr self
  | .tunReadable nonces packet => (onTunReadable nonces packet self).2
  | .cleanupStale now => PyVpn.cleanupStale now self
  | .keepalive now addr => (sendKeepalive now addr self).2
  | .cleanupFragments now => cleanupAllFragments now self

def ServerReachable (self : VpnServer P) : Prop :=
  EventRun.Reachable serverStep (fun s => ∃ config, VpnServer.start config = .ok s) self

end
end PyVpn
