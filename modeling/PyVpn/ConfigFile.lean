import PyVpn.Config
import PyVpn.Text

/-! Option files, as `config.py` reads them. `Config` is a dataclass, which takes any value
for any field: what a file gives is a map from fields to values, and only the checks of
`__post_init__` look at them. -/
namespace PyVpn

inductive ConfigField where
  | dev | proto | port | remote | ifconfig | server | ifconfigPool | ca | cert | key | cipher
  | compLzo | keepaliveInterval | keepaliveTimeout | verb | redirectGateway | statusFile | user
  | extraOptions
  deriving DecidableEq, Repr

inductive FieldType where
  | str | int | bool | optionalStr | dict
  deriving DecidableEq, Repr

def ConfigField.type : ConfigField → FieldType
  | .dev | .proto | .cipher => .str
  | .port | .keepaliveInterval | .keepaliveTimeout | .verb => .int
  | .compLzo | .redirectGateway => .bool
  | .extraOptions => .dict
  | _ => .optionalStr

inductive Value where
  | none
  | str (s : String)
  | int (n : Int)
  | bool (b : Bool)
  | list (words : List String)
  | dict (options : Dict String (List String))

def Value.ofOption : Option String → Value
  | .none => .none
  | some s => .str s

def Value.HasType : Value → FieldType → Prop
  | .str _, .str | .str _, .optionalStr | .none, .optionalStr => True
  | .int _, .int | .bool _, .bool | .dict _, .dict => True
  | _, _ => False

abbrev Attrs := ConfigField → Value

/-- A configuration whose fields have the types they are annotated with. -/
def Config.attrs (config : Config) : Attrs
  | .dev => .str config.dev
  | .proto => .str config.proto
  | .port => .int config.port
  | .remote => .ofOption config.remote
  | .ifconfig => .ofOption config.ifconfig
  | .server => .ofOption config.server
  | .ifconfigPool => .ofOption config.ifconfigPool
  | .ca => .ofOption config.ca
  | .cert => .ofOption config.cert
  | .key => .ofOption config.key
  | .cipher => .str config.cipher
  | .compLzo => .bool config.compLzo
  | .keepaliveInterval => .int config.keepaliveInterval
  | .keepaliveTimeout => .int config.keepaliveTimeout
  | .verb => .int config.verb
  | .redirectGateway => .bool config.redirectGateway
  | .statusFile => .ofOption config.statusFile
  | .user => .ofOption config.user
  | .extraOptions => .dict config.extraOptions

abbrev Kwargs := Dict ConfigField Value

def Value.within (low high : Int) : Value → Except PyError Bool
  | .int n => .ok (low ≤ n ∧ n ≤ high)
  | .bool b => .ok (low ≤ b.toInt ∧ b.toInt ≤ high)
  | _ => .error .typeError

def Value.isProto : Value → Bool
  | .str s => s = "udp" || s = "tcp"
  | _ => false

def Config.postInit (self : Attrs) : Except PyError Unit := do
  if !(self .proto).isProto then
    .error .valueError
  else if !(← (self .port).within 1 65535) then
    .error .valueError
  else if !(← (self .verb).within 0 4) then
    .error .valueError
  else
    return ()

/-- The fields of `Config(**kwargs)` before `__post_init__`. -/
def initFields (kwargs : Kwargs) : Attrs := fun field =>
  (kwargs.lookup field).getD (({} : Config).attrs field)

def Config.init (kwargs : Kwargs) : Except PyError Attrs := do
  Config.postInit (initFields kwargs)
  return initFields kwargs

/-- What a directive sets: one field, or a pair of them. -/
inductive Target where
  | field (attr : ConfigField)
  | pair (first second : ConfigField)
  deriving DecidableEq

def directives : List (String × Target) :=
  [("dev", .field .dev),
    ("proto", .field .proto),
    ("port", .field .port),
    ("remote", .field .remote),
    ("ifconfig", .field .ifconfig),
    ("server", .field .server),
    ("ifconfig-pool", .field .ifconfigPool),
    ("ca", .field .ca),
    ("cert", .field .cert),
    ("key", .field .key),
    ("cipher", .field .cipher),
    ("comp-lzo", .field .compLzo),
    ("keepalive", .pair .keepaliveInterval .keepaliveTimeout),
    ("verb", .field .verb),
    ("redirect-gateway", .field .redirectGateway),
    ("status", .field .statusFile),
    ("user", .field .user)]

def netmaskDirectives : List String := ["server"]

def poolDirectives : List String := ["ifconfig-pool"]

def splitDots (netmask : String) : List String := (netmask.toList.splitOn '.').map String.ofList

def netmaskToCidr (netmask : String) : Except PyError Nat := do
  let octets ← (splitDots netmask).mapM intOfStr
  return (octets.flatMap format08b).count '1'

/-- `int(value)`. -/
def Value.toInt : Value → Except PyError Int
  | .str s => intOfStr s
  | .int n => .ok n
  | .bool b => .ok b.toInt
  | _ => .error .typeError

/-- `value.lower() in ("yes", "true", "1")`. No letter outside ASCII becomes one of these. -/
def Value.toBool : Value → Except PyError Bool
  | .str s => .ok (s.toLower ∈ ["yes", "true", "1"])
  | _ => .error .attributeError

def setValue (kwargs : Kwargs) (attr : ConfigField) (value : Value) : Except PyError Kwargs :=
  match attr.type with
  | .int => do return kwargs.insert attr (.int (← value.toInt))
  | .bool => do return kwargs.insert attr (.bool (← value.toBool))
  | _ => .ok (kwargs.insert attr value)

/-- `kwargs.setdefault("extra_options", {})`. -/
def extraOptions (kwargs : Kwargs) : Dict String (List String) :=
  match kwargs.lookup .extraOptions with
  | some (.dict options) => options
  | _ => ∅

/-- One line of `_parse_config`, from its words. -/
def parseDirective (kwargs : Kwargs) (directive : String) (args : List String) :
    Except PyError Kwargs :=
  match directives.lookup directive with
  | none =>
    .ok (kwargs.insert .extraOptions (.dict ((extraOptions kwargs).insert directive args)))
  | some (.pair first second) =>
    (List.zip [first, second] args).foldlM (fun kwargs p => setValue kwargs p.1 (.str p.2)) kwargs
  | some (.field attr) =>
    if directive ∈ ["comp-lzo", "redirect-gateway"] then
      match args with
      | arg :: _ => setValue kwargs attr (.str arg)
      | [] => .ok (kwargs.insert attr (.bool true))
    else if directive ∈ netmaskDirectives ∧ args.length = 2 then do
      let prefixlen ← netmaskToCidr (args.getD 1 "")
      return kwargs.insert attr (.str (args.getD 0 "" ++ "/" ++ toString prefixlen))
    else if directive ∈ poolDirectives ∧ args.length ≥ 2 then
      .ok (kwargs.insert attr (.str (args.getD 0 "" ++ "-" ++ args.getD 1 "")))
    else
      setValue kwargs attr (match args with
        | [arg] => .str arg
        | _ => .list args)

/-- The body of the loop of `_parse_config`. -/
def parseLine (kwargs : Kwargs) (line : List Char) : Except PyError Kwargs :=
  let line := strip line
  if line = [] ∨ line.head? = some '#' ∨ line.head? = some ';' then .ok kwargs
  else
    match (splitWords line).map String.ofList with
    | [] => .error .indexError
    | directive :: args => parseDirective kwargs directive args

/-- The loop of `_parse_config`: the options a file gives. -/
def readOptions (text : String) : Except PyError Kwargs := (textLines text).foldlM parseLine ∅

/-- `_parse_config` on the text of its file. -/
def parseConfig (text : String) : Except PyError Attrs := do
  Config.init (← readOptions text)

/-- `Config.from_file`; reading a file may fail. -/
def Config.fromFile (readText : String → Except PyError String) (path : String) :
    Except PyError Attrs := do
  parseConfig (← readText path)

end PyVpn
