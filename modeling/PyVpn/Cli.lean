import PyVpn.ConfigFile
import Mathlib.Logic.Function.Basic

/-! The command line, as `cli.py` reads it. `argparse` divides the arguments into options with
their words, converts the words and checks them; then the flags that are given are written
over the configuration, which is built before that. -/
namespace PyVpn

inductive CliOption where
  | config (word : String)
  | remote (word : String)
  | port (word : String)
  | proto (word : String)
  | dev (word : String)
  | server (word : String)
  | ifconfig (word : String)
  | ifconfigPool (word : String)
  | ca (word : String)
  | cert (word : String)
  | key (word : String)
  | cipher (word : String)
  | compLzo
  | keepalive (interval timeout : String)
  | verb (word : String)
  | redirectGateway
  | status (word : String)
  | user (word : String)

abbrev ProtoChoice := { s : String // s = "udp" ∨ s = "tcp" }

abbrev VerbChoice := { n : Int // 0 ≤ n ∧ n < 5 }

structure Namespace where
  config : Option String := none
  remote : Option String := none
  port : Option Int := none
  proto : Option ProtoChoice := none
  dev : Option String := none
  server : Option String := none
  ifconfig : Option String := none
  ifconfigPool : Option String := none
  ca : Option String := none
  cert : Option String := none
  key : Option String := none
  cipher : Option String := none
  compLzo : Option Bool := none
  keepalive : Option (Int × Int) := none
  verb : Option VerbChoice := none
  redirectGateway : Option Bool := none
  status : Option String := none
  user : Option String := none

/-- `type=int`: `parser.error` ends the program on a word that is no number. -/
def intArgument (word : String) : Except PyError Int :=
  match intOfStr word with
  | .ok n => .ok n
  | .error _ => .error .systemExit

def protoArgument (word : String) : Except PyError ProtoChoice :=
  if h : word = "udp" ∨ word = "tcp" then .ok ⟨word, h⟩ else .error .systemExit

def verbArgument (word : String) : Except PyError VerbChoice := do
  let n ← intArgument word
  if h : 0 ≤ n ∧ n < 5 then .ok ⟨n, h⟩ else .error .systemExit

/-- One option; of several with one name the last is kept. -/
def Namespace.store (ns : Namespace) : CliOption → Except PyError Namespace
  | .config word => .ok { ns with config := some word }
  | .remote word => .ok { ns with remote := some word }
  | .port word => do return { ns with port := some (← intArgument word) }
  | .proto word => do return { ns with proto := some (← protoArgument word) }
  | .dev word => .ok { ns with dev := some word }
  | .server word => .ok { ns with server := some word }
  | .ifconfig word => .ok { ns with ifconfig := some word }
  | .ifconfigPool word => .ok { ns with ifconfigPool := some word }
  | .ca word => .ok { ns with ca := some word }
  | .cert word => .ok { ns with cert := some word }
  | .key word => .ok { ns with key := some word }
  | .cipher word => .ok { ns with cipher := some word }
  | .compLzo => .ok { ns with compLzo := some true }
  | .keepalive interval timeout => do
    return { ns with keepalive := some (← intArgument interval, ← intArgument timeout) }
  | .verb word => do return { ns with verb := some (← verbArgument word) }
  | .redirectGateway => .ok { ns with redirectGateway := some true }
  | .status word => .ok { ns with status := some word }
  | .user word => .ok { ns with user := some word }

/-- `parser.parse_args`. How options are spelled is left to `scan`, which may refuse `argv`. -/
def parserParseArgs (scan : List String → Except PyError (List CliOption)) (argv : List String) :
    Except PyError Namespace := do
  (← scan argv).foldlM Namespace.store {}

inductive Flag where
  | keepalive (val : Option (Int × Int))
  | other (key : String) (val : Option Value)

/-- `vars(ns)`, in the order of the `add_argument` calls. -/
def Namespace.vars (ns : Namespace) : List Flag :=
  [.other "config" (ns.config.map .str),
    .other "remote" (ns.remote.map .str),
    .other "port" (ns.port.map .int),
    .other "proto" (ns.proto.map fun s => .str s.val),
    .other "dev" (ns.dev.map .str),
    .other "server" (ns.server.map .str),
    .other "ifconfig" (ns.ifconfig.map .str),
    .other "ifconfig_pool" (ns.ifconfigPool.map .str),
    .other "ca" (ns.ca.map .str),
    .other "cert" (ns.cert.map .str),
    .other "key" (ns.key.map .str),
    .other "cipher" (ns.cipher.map .str),
    .other "comp_lzo" (ns.compLzo.map .bool),
    .keepalive ns.keepalive,
    .other "verb" (ns.verb.map fun n => .int n.val),
    .other "redirect_gateway" (ns.redirectGateway.map .bool),
    .other "status" (ns.status.map .str),
    .other "user" (ns.user.map .str)]

def attributes : List (String × ConfigField) :=
  [("dev", .dev), ("proto", .proto), ("port", .port), ("remote", .remote),
    ("ifconfig", .ifconfig), ("server", .server), ("ifconfig_pool", .ifconfigPool), ("ca", .ca),
    ("cert", .cert), ("key", .key), ("cipher", .cipher), ("comp_lzo", .compLzo),
    ("keepalive_interval", .keepaliveInterval), ("keepalive_timeout", .keepaliveTimeout),
    ("verb", .verb), ("redirect_gateway", .redirectGateway), ("status_file", .statusFile),
    ("user", .user), ("extra_options", .extraOptions)]

/-- One round of the loop of `parse_args`. -/
def setFlag (cfg : Attrs) : Flag → Attrs
  | .keepalive none | .other _ none => cfg
  | .keepalive (some (interval, timeout)) =>
    Function.update (Function.update cfg .keepaliveInterval (.int interval)) .keepaliveTimeout
      (.int timeout)
  | .other key (some val) =>
    if key = "config" then cfg
    else if key = "status" then Function.update cfg .statusFile val
    else
      match attributes.lookup key with
      | some attr => Function.update cfg attr val
      | none => cfg

def parseArgs (scan : List String → Except PyError (List CliOption))
    (readText : String → Except PyError String) (argv : List String) : Except PyError Attrs := do
  let ns ← parserParseArgs scan argv
  let cfg ←
    if truthy ns.config then Config.fromFile readText (ns.config.getD "") else Config.init ∅
  return ns.vars.foldl setFlag cfg

end PyVpn
