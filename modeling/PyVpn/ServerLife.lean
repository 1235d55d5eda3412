import PyVpn.Client
import PyVpn.KernelRoutes
import PyVpn.Privileges

/-! `VpnServer.run`: what is set up before the loop, the loop, and what is put back after
it. What the system refuses is part of the event that meets it; the host is the rules of
its NAT table and what the process runs as. -/
namespace PyVpn
open EventRun
variable {P : Primitives}

structure NatRule where
  network : String
  interface : String
  deriving DecidableEq

/-- The host the server runs on. Only root may change the NAT table. -/
structure Host where
  process : Credentials
  rules : List NatRule

def Host.appendRule (rule : NatRule) (host : Host) : Host :=
  if isRoot host.process then { host with rules := host.rules ++ [rule] } else host

/-- `iptables -D` takes away the first rule that matches. -/
def Host.deleteRule (rule : NatRule) (host : Host) : Host :=
  if isRoot host.process then { host with rules := host.rules.erase rule } else host

inductive ServerPhase where
  | fresh
  | ready
  | finished
  deriving DecidableEq

structure ServerLife (P : Primitives) where
  server : VpnServer P
  phase : ServerPhase
  running : Bool
  natInterface : Option String
  tunOpen : Bool
  listening : Bool
  host : Host
  /-- The route commands of `run` itself, in order: before the loop and after it. -/
  networkRoute : List (Ledger.Op String) × List (Ledger.Op String)

/-- What the system answers while the server starts. -/
structure StartFaults where
  openTun : Option PyError := none
  setIp : Option PyError := none
  setMtu : Option PyError := none
  addRoute : Option PyError := none
  /-- The output of `ip route show default`, where the command worked. -/
  defaultRoute : Option String := none
  appendRule : Option PyError := none
  db : UserDb
  drop : DropFaults := {}
  listen : Option PyError := none

def Config.serverIp (config : Config) : Except PyError String :=
  if truthy config.server then do
    let net ← ipv4Network (config.server.getD "")
    let ip ← ipAdd net.networkAddress 1
    return strIPv4 ip ++ "/" ++ toString net.prefixlen
  else if truthy config.ifconfig then return config.ifconfig.getD ""
  else return "10.8.0.1/24"

def Config.serverNetwork (config : Config) : String :=
  if truthy config.server then config.server.getD "" else "10.8.0.0/24"

/-- The characters at which `str.splitlines()` ends a line. -/
def isLineBreak (c : Char) : Bool :=
  let n := c.toNat
  (10 ≤ n && n ≤ 13) || (28 ≤ n && n ≤ 30) || n == 0x85 || n == 0x2028 || n == 0x2029

/-- `get_default_interface`: the word after the first `dev`. -/
def getDefaultInterface (output : Option String) : Except PyError (Option String) :=
  match output with
  | none => .ok none
  | some text =>
    let lines := (text.toList.splitOnP isLineBreak).map splitWords
    match lines.find? fun parts => "dev".toList ∈ parts with
    | none => .ok none
    | some parts =>
      match (parts.dropWhile (· ≠ "dev".toList)).drop 1 with
      | [] => .error .indexError
      | name :: _ => .ok (some (String.ofList name))

namespace ServerLife

def new (config : Config) (host : Host) : Except PyError (ServerLife P) := do
  let server ← VpnServer.new config
  return {
    server := server
    phase := .fresh
    running := false
    natInterface := none
    tunOpen := false
    listening := false
    host := host
    networkRoute := ([], []) }

def setIp (faults : StartFaults) (cidr : String) : Py (ServerLife P) Unit := do
  let self ← Py.self
  TunInterface.setIp self.server.config.dev (return ()) faults.setIp cidr

/-- `setup_nat`: what the check with `-C` says is not looked at. -/
def setupNat (faults : StartFaults) (rule : NatRule) : Py (ServerLife P) Unit := do
  let self ← Py.self
  if !isRoot self.host.process then Py.raise .calledProcessError
  else do
    Py.raiseFault faults.appendRule
    Py.assign fun self => { self with host := self.host.appendRule rule }

/-- The NAT block of `run`: a failure is logged. -/
def startNat (faults : StartFaults) (interface : Option String) : Py (ServerLife P) Unit :=
  if truthy interface then do
    let name := interface.getD ""
    Py.tryExcept (do
      let self ← Py.self
      setupNat faults ⟨self.server.config.serverNetwork, name⟩
      Py.assign fun self => { self with natInterface := some name })
      (return ())
  else return ()

/-- `maybe_drop_privileges(self.config.user)`. -/
def giveUpRoot (faults : StartFaults) : Py (ServerLife P) Unit := do
  let self ← Py.self
  let dropped := maybeDropPrivileges faults.db faults.drop self.server.config.user
    self.host.process
  Py.assign fun self => { self with host := { self.host with process := dropped.2 } }
  Py.ofExcept dropped.1

/-- The first half of what `run` does before its loop: the TUN device and its route. -/
def startTun (faults : StartFaults) : Py (ServerLife P) Unit := do
  let self ← Py.self
  let serverIp ← Py.ofExcept self.server.config.serverIp
  Py.raiseFault faults.openTun
  Py.assign fun self => { self with tunOpen := true }
  setIp faults serverIp
  Py.raiseFault faults.setMtu
  Py.raiseFault faults.addRoute
  Py.assign fun self => { self with
    networkRoute := (self.networkRoute.1 ++ [.acquire self.server.config.serverNetwork],
      self.networkRoute.2) }

/-- The second half: NAT, privileges, the socket. -/
def startNet (faults : StartFaults) : Py (ServerLife P) Unit := do
  let interface ← Py.ofExcept (getDefaultInterface faults.defaultRoute)
  startNat faults interface
  giveUpRoot faults
  Py.raiseFault faults.listen
  Py.assign fun self => { self with
    server := { self.server with transport := !self.server.config.isTcp }
    listening := true
    running := true
    phase := .ready }

def start (faults : StartFaults) : Py (ServerLife P) Unit := do
  startTun faults
  startNet faults

/-- What `_cleanup` hands over for one client. -/
def released (cs : ClientSession P) : List Effect :=
  (if truthy cs.virtualIp then [.deleteRoute (cs.virtualIp.getD "")] else []) ++
    cs.writer.toList.map .writerClose

/-- The part of `_cleanup` that is about the clients. -/
def releaseClients (self : VpnServer P) : VpnServer P :=
  let entries := self.clients.keys.filterMap fun addr => self.clients.lookup addr
  { self with
    effects := self.effects ++ entries.flatMap released
    clients := ∅
    ipToAddr := ∅ }

def cleanup (self : ServerLife P) : ServerLife P :=
  let network := self.server.config.serverNetwork
  let self := { self with
    server := releaseClients self.server
    networkRoute := (self.networkRoute.1, self.networkRoute.2 ++ [.release network]) }
  if truthy self.natInterface then
    { self with
      host := self.host.deleteRule ⟨network, self.natInterface.getD ""⟩
      natInterface := none }
  else self

/-- The `finally` clause of `run`. -/
def leave (self : ServerLife P) : ServerLife P :=
  let self := cleanup self
  { self with
    server := { self.server with transport := false }
    tunOpen := false
    listening := false
    phase := .finished }

end ServerLife

inductive ServerLifeEvent (P : Primitives) where
  | start (faults : StartFaults)
  | callback (e : ServerEvent P)
  /-- The test of `while self._running`. -/
  | test
  | stop
  /-- The body of the loop raises, as a writer does whose connection is lost. -/
  | raised

def serverLifeStep (life : ServerLife P) (e : ServerLifeEvent P) : ServerLife P :=
  match life.phase, e with
  | .fresh, .start faults =>
    let started := ServerLife.start faults life
    match started.1 with
    | .ok () => started.2
    | .error _ => { started.2 with phase := .finished }
  | .ready, .callback e => { life with server := serverStep life.server e }
  | .ready, .test => if life.running then life else life.leave
  | .ready, .stop => { life with running := false }
  | .ready, .raised => life.leave
  | _, _ => life

end PyVpn
