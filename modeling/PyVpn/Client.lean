import PyVpn.Config
import PyVpn.Control
import PyVpn.DataChannel
import PyVpn.EventRun

/-! `VpnClient`: one session and one data channel per connection attempt, and every
callback that changes them. Names shared with the server are in the namespace of the
client; one call reads the clock once. -/
namespace PyVpn

inductive ClientEffect where
  | sendto (data : Bytes)
  | writerWrite (data : Bytes)
  | tunWrite (packet : Bytes)
  | tunSetIp (cidr : String)
  | command (args : List String)
  deriving DecidableEq, Repr

/-- What the commands of `set_ip` and the privilege drop raise, if anything. -/
structure AssignFaults where
  setIp : Option PyError := none
  dropPrivileges : Option PyError := none

def VpnClient.splitSlash (s : String) : List String := (s.toList.splitOn '/').map String.ofList

/-- `subprocess.run` starts no command with a NUL in an argument. -/
def Runnable (args : List String) : Prop := ∀ arg ∈ args, Char.ofNat 0 ∉ arg.toList

instance (args : List String) : Decidable (Runnable args) := List.decidableBAll _ _

namespace TunInterface

/-- `set_ip` gets to its first command. -/
def Accepts (name cidr : String) : Prop :=
  (VpnClient.splitSlash cidr).length = 2 ∧ Runnable ["ip", "addr", "add", cidr, "dev", name]

instance (name cidr : String) : Decidable (Accepts name cidr) :=
  inferInstanceAs (Decidable (_ ∧ _))

/-- `set_ip`, whose commands are run with `check=True`. -/
def setIp {σ : Type} (name : String) (started : Py σ Unit) (fault : Option PyError)
    (cidr : String) : Py σ Unit :=
  if Accepts name cidr then do
    started
    Py.raiseFault fault
  else Py.raise .valueError

end TunInterface

structure VpnClient (P : Primitives) where
  config : Config
  /-- `self.transport` and `self.tcp_writer` are set. -/
  transport : Bool
  tcpWriter : Bool
  session : Session P
  data : Option DataChannel
  running : Bool
  handshakeDone : Bool
  assignedIp : Option String
  routesAdded : List (List String)
  lastSeen : Time
  connected : Bool
  effects : List ClientEffect

namespace VpnClient
variable {P : Primitives}

def new (config : Config) (draw : SessionDraw P) : VpnClient P where
  config := config
  transport := false
  tcpWriter := false
  session := Session.new draw false
  data := none
  running := false
  handshakeDone := false
  assignedIp := none
  routesAdded := []
  lastSeen := draw.now
  connected := false
  effects := []

def emit (e : ClientEffect) : Py (VpnClient P) Unit :=
  Py.assign fun self => { self with effects := self.effects ++ [e] }

/-- One round of the loop in `run`, up to `_connect`. -/
def attempt (draw : SessionDraw P) : Py (VpnClient P) Unit := do
  Py.assign fun self => { self with
    running := true
    handshakeDone := false
    assignedIp := none
    data := none
    session := Session.new draw false }
  let self ← Py.self
  match self.config.authPaths with
  | none => return ()
  | some (ca, cert, key) => do
    let configured := configure ca cert key self.session
    Py.assign fun self => { self with session := configured.2 }
    Py.ofExcept configured.1

def syncSend (data : Bytes) : Py (VpnClient P) Unit := do
  let self ← Py.self
  if self.config.isTcp && self.tcpWriter then do
    let frame ← Py.ofExcept (framePacket data)
    emit (.writerWrite frame)
  else if self.transport then emit (.sendto data)
  else return ()

/-- Run a handshake function on the session and send what it returns. -/
def callHandler (handler : Py (Session P) (List Bytes)) : Py (VpnClient P) Unit := do
  let self ← Py.self
  let result := handler self.session
  Py.assign fun self => { self with session := result.2 }
  let packets ← Py.ofExcept result.1
  packets.forM syncSend

/-- `_connect` up to its loop; `opened` says whether a TCP connection came about. -/
def connect (opened : Bool) : Py (VpnClient P) Unit := do
  let self ← Py.self
  if self.config.isTcp && !opened then
    Py.assign fun self => { self with connected := false }
  else do
    Py.assign fun self =>
      if self.config.isTcp then { self with tcpWriter := true } else { self with transport := true }
    callHandler clientStartHandshake

def cleanup (self : VpnClient P) : VpnClient P :=
  { self with
    effects := self.effects ++ self.routesAdded.reverse.map fun cmd =>
      .command (["ip", "route", "delete"] ++ cmd.drop 3)
    routesAdded := [] }

/-- What the loop in `_connect` does to session and channel in one round. -/
def openDataChannel (self : VpnClient P) : VpnClient P :=
  if !self.handshakeDone && self.session.isEstablished then
    let s := self.session
    { self with
      handshakeDone := true
      data := some (DataChannel.new P s.sessionId (orEmpty (s.peerSessionId.map Subtype.val))
        s.cipher self.config.compLzo) }
  else self

/-- One round of the loop in `_connect`. -/
def tick (now : Time) (self : VpnClient P) : VpnClient P :=
  let self := { self with data := self.data.map (cleanupFragments now) }
  let self := openDataChannel self
  let timedOut := decide (now - self.lastSeen > self.config.keepaliveTimeout)
  if self.handshakeDone && truthy self.assignedIp then
    if timedOut then cleanup { self with connected := false } else self
  else if self.handshakeDone && timedOut then cleanup { self with connected := false }
  else self

def onTunReadable (nonces : Nat → Nonce) (packet : Bytes) : Py (VpnClient P) Unit := do
  let self ← Py.self
  match self.data with
  | none => return ()
  | some ch =>
    if !self.handshakeDone || !truthy self.assignedIp || packet = [] then return ()
    else do
      let result := encrypt P nonces packet ch
      Py.assign fun self => { self with data := some result.2 }
      let wires ← Py.ofExcept result.1
      wires.forM syncSend

def beforeLastDot (s : String) : String :=
  if '.' ∈ s.toList then
    String.ofList ((s.toList.reverse.dropWhile (· ≠ '.')).drop 1).reverse
  else s

/-- `self.tun.set_ip(cidr)`. -/
def setIp (faults : AssignFaults) (cidr : String) : Py (VpnClient P) Unit := do
  let self ← Py.self
  TunInterface.setIp self.config.dev (emit (.tunSetIp cidr)) faults.setIp cidr

/-- `subprocess.run` without `check`: the result is not looked at. -/
def runCommand (args : List String) : Py (VpnClient P) Unit :=
  if Runnable args then emit (.command args) else Py.raise .valueError

def addRoute (cmd : List String) : Py (VpnClient P) Unit := do
  runCommand cmd
  Py.assign fun self => { self with routesAdded := self.routesAdded ++ [cmd] }

def maybeDropPrivileges (faults : AssignFaults) (username : Option String) :
    Py (VpnClient P) Unit :=
  if !truthy username then return () else Py.raiseFault faults.dropPrivileges

/-- The `cidr` of `_handle_ip_assign`. -/
def assignedCidr (config : Config) (ipStr : String) : String :=
  let ifconfig := config.ifconfig.getD ""
  let prefixlen := if '/' ∈ ifconfig.toList then (splitSlash ifconfig).getD 1 "" else "24"
  if '/' ∈ ipStr.toList then ipStr else ipStr ++ "/" ++ prefixlen

/-- `_handle_ip_assign`, where the commands of `set_ip` and the privilege drop may fail. -/
def handleIpAssignWith (faults : AssignFaults) (ipStr : String) : Py (VpnClient P) Unit := do
  Py.assign fun self => { self with assignedIp := some ipStr, connected := true }
  let self ← Py.self
  let ifconfig := self.config.ifconfig.getD ""
  setIp faults (assignedCidr self.config ipStr)
  let serverNet := if ifconfig = "" then "10.8.0.0" else (splitSlash ifconfig).headD ""
  let base := beforeLastDot serverNet
  addRoute ["ip", "route", "add", base ++ ".0/24", "dev", self.config.dev]
  if self.config.redirectGateway then
    addRoute ["ip", "route", "add", "default", "via", base ++ ".1", "dev", self.config.dev,
      "metric", "50"]
  else pure ()
  maybeDropPrivileges faults self.config.user

/-- `_handle_ip_assign` where no command fails. -/
def handleIpAssign (ipStr : String) : Py (VpnClient P) Unit := handleIpAssignWith {} ipStr

/-- `inner.decode("utf-8")`. -/
def decodeUtf8 (inner : Bytes) : Except PyError String :=
  match String.fromUTF8? ⟨inner.toArray⟩ with
  | none => .error .unicodeDecodeError
  | some s => .ok s

def handleControl (coins data : Bytes) : Py (VpnClient P) Unit := do
  match decodePacket data with
  | .error _ => return ()
  | .ok (_, _, payload) =>
    if payload.length < 1 then return ()
    else do
      let msgType ← Py.ofExcept (MessageType.ofValue (payload.headD 0))
      let inner := payload.drop 1
      match msgType with
      | .serverHello => callHandler (clientHandleServerHello coins inner)
      | .ipAssign => do
        let ipStr ← Py.ofExcept (decodeUtf8 inner)
        handleIpAssign ipStr
      | .keepalive => do
        let self ← Py.self
        syncSend (encodePacket .control self.session.sid [MessageType.keepalive.value])
      | _ => return ()

def handleData (now : Time) (data : Bytes) : Py (VpnClient P) Unit := do
  let self ← Py.self
  match self.data with
  | none => return ()
  | some ch => do
    let result := decrypt P now data ch
    Py.assign fun self => { self with data := some result.2 }
    let plain ← Py.ofExcept result.1
    if truthyBytes plain then emit (.tunWrite (orEmpty plain)) else return ()

def handleUdpData (now : Time) (coins data : Bytes) : Py (VpnClient P) Unit := do
  if data.length < 1 then return ()
  else do
    Py.assign fun self => { self with lastSeen := now }
    let opcodeVal := data.headD 0
    if opcodeVal = Opcode.hardResetServer.value then callHandler (clientHandleResetAck data)
    else if opcodeVal = Opcode.control.value then handleControl coins data
    else if opcodeVal = Opcode.data.value then handleData now data
    else return ()

def stop (self : VpnClient P) : VpnClient P := { self with running := false, connected := false }

end VpnClient

inductive ClientEvent (P : Primitives) where
  | attempt (draw : SessionDraw P)
  | connect (opened : Bool)
  | tick (now : Time)
  | datagram (now : Time) (coins data : Bytes)
  | tunReadable (nonces : Nat → Nonce) (packet : Bytes)
  | stop

section
variable {P : Primitives}

def clientStep (self : VpnClient P) : ClientEvent P → VpnClient P
  | .attempt draw => (VpnClient.attempt draw self).2
  | .connect opened => (VpnClient.connect opened self).2
  | .tick now => VpnClient.tick now self
  | .datagram now coins data => (VpnClient.handleUdpData now coins data self).2
  | .tunReadable nonces packet => (VpnClient.onTunReadable nonces packet self).2
  | .stop => VpnClient.stop self

def ClientReachable (self : VpnClient P) : Prop :=
  EventRun.Reachable clientStep (fun s => ∃ config draw, s = VpnClient.new config draw) self

end
end PyVpn
