import PyVpn.Python

/-! The configuration record of `config.py`, with its defaults. -/
namespace PyVpn

structure Config where
  dev : String := "tun"
  proto : String := "udp"
  port : Int := 1194
  remote : Option String := none
  ifconfig : Option String := none
  server : Option String := none
  ifconfigPool : Option String := none
  ca : Option String := none
  cert : Option String := none
  key : Option String := none
  cipher : String := "AES-256-GCM"
  compLzo : Bool := false
  keepaliveInterval : Int := 10
  keepaliveTimeout : Int := 120
  verb : Int := 1
  redirectGateway : Bool := false
  statusFile : Option String := none
  user : Option String := none
  extraOptions : Dict String (List String) := ∅

/-- `self._is_tcp` of both endpoints. -/
def Config.isTcp (config : Config) : Bool := config.proto = "tcp"

/-- The paths `configure` gets, where all three options are given. -/
def Config.authPaths (config : Config) : Option (String × String × String) :=
  if truthy config.ca && truthy config.cert && truthy config.key then
    some (config.ca.getD "", config.cert.getD "", config.key.getD "")
  else none

end PyVpn
