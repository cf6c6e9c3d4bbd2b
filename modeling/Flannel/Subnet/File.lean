import Flannel.Ip.SocketAddr
import Flannel.Lib.Text
import Flannel.Subnet.Config
import Mathlib.Logic.Function.Basic

/-!
# The subnet file and its readers

The daemon writes `subnet.env` (`subnet/writefile.rs`), and there are two readers: the CNI
plugin (`flannel-cni/src/netconf.rs`), for which a value that it cannot read is an error,
and the daemon itself when it starts again (`flanneld/src/subnetfile.rs`), which passes over
what it cannot read.

The file has the first usable address of a subnet instead of its network address, so the
writer increments the address and the readers mask it again.  The increment of an IPv4
address panics when it overflows; that of an IPv6 address wraps around.
-/

namespace Flannel

/-! ## The writer -/

/-- `IP4Net::increment_ip`; `none` is the overflow. -/
def IP4Net.incrementIp (n : IP4Net) : Option IP4Net :=
  if n.ip.val = BitVec.allOnes 32 then none else some ⟨⟨n.ip.val + 1⟩, n.prefixLen⟩

/-- `IP6Net::increment_ip`. -/
def IP6Net.incrementIp (n : IP6Net) : IP6Net := ⟨⟨n.ip.val + 1⟩, n.prefixLen⟩

/-- The text that `write_subnet_file` writes. -/
def writeSubnetFile (config : Config) (ipMasq : Bool) (sn : IP4Net) (ipv6sn : IP6Net)
    (mtu : UInt32) : Option String := do
  let b := ""
  let b ←
    if config.enableIpv4 then do
      let sn ← sn.incrementIp
      pure (b ++ s!"FLANNEL_NETWORK={config.network.toString}\nFLANNEL_SUBNET={sn.toString}\n")
    else pure b
  let b :=
    if config.enableIpv6 then
      let ipv6sn := ipv6sn.incrementIp
      b ++ s!"FLANNEL_IPV6_NETWORK={config.ipv6Network.toString}\nFLANNEL_IPV6_SUBNET={ipv6sn.toString}\n"
    else b
  let masq := if ipMasq then "true" else "false"
  return b ++ s!"FLANNEL_MTU={mtu.toNat}\nFLANNEL_IPMASQ={masq}\n"

/-! ## The CNI plugin -/

namespace Cni

/-- `FlannelSubnetEnv`. -/
structure FlannelSubnetEnv where
  network : Option IP4Net := none
  subnet : Option IP4Net := none
  ipv6Network : Option IP6Net := none
  ipv6Subnet : Option IP6Net := none
  mtu : Option Nat := none
  ipmasq : Bool := false
  deriving DecidableEq, Repr

/-- `parse_v4_net`. -/
def parseV4Net (val key : String) : Except String IP4Net :=
  match IP4Net.fromStr val with
  | .ok net => .ok net
  | .error _ => .error s!"invalid {key} value: {val}"

/-- `parse_v6_net`. -/
def parseV6Net (val key : String) : Except String IP6Net :=
  match IP6Net.fromStr val with
  | .ok net => .ok net
  | .error _ => .error s!"invalid {key} value: {val}"

/-- `parse_bool`. -/
def parseBool (val : String) : Option Bool :=
  match String.ofList (val.toList.map Char.toLower) with
  | "true" => some true
  | "false" => some false
  | _ => none

/-- What a key and its value do to the environment, in `parse_subnet_env`. -/
def assign (env : FlannelSubnetEnv) (key val : String) : Except String FlannelSubnetEnv :=
  match Text.trim key with
  | "FLANNEL_NETWORK" => do return { env with network := some (← parseV4Net val key) }
  | "FLANNEL_SUBNET" => do return { env with subnet := some (← parseV4Net val key) }
  | "FLANNEL_IPV6_NETWORK" => do return { env with ipv6Network := some (← parseV6Net val key) }
  | "FLANNEL_IPV6_SUBNET" => do return { env with ipv6Subnet := some (← parseV6Net val key) }
  | "FLANNEL_MTU" =>
    match StdAddr.parseU32 val with
    | some mtu => .ok { env with mtu := some mtu }
    | none => .error s!"invalid FLANNEL_MTU value: {val}"
  | "FLANNEL_IPMASQ" =>
    match parseBool val with
    | some ipmasq => .ok { env with ipmasq := ipmasq }
    | none => .error s!"invalid FLANNEL_IPMASQ value: {val}"
  | _ => .ok env

/-- One line of `parse_subnet_env`. -/
def parseLine (env : FlannelSubnetEnv) (rawLine : String) : Except String FlannelSubnetEnv :=
  let line := Text.trim rawLine
  if line = "" then .ok env
  else
    match splitOnce '=' line with
    | none => .ok env
    | some (key, val) => assign env key (Text.trim val)

/-- `parse_subnet_env`. -/
def parseSubnetEnv (contents : String) : Except String FlannelSubnetEnv :=
  (Text.lines contents).foldlM parseLine {}

end Cni

/-! ## The daemon -/

/-- `parse_ip4net`. -/
def parseIp4net (s : String) : Option IP4Net := do
  let (addr, prefixText) ← splitOnce '/' s
  let prefixLen ← StdAddr.parseU32 prefixText
  if 32 < prefixLen then none
  else
    match IP4.fromStr addr with
    | .ok ip => some (IP4Net.network ⟨ip, prefixLen⟩)
    | .error _ => none

/-- `parse_ip6net`. -/
def parseIp6net (s : String) : Option IP6Net := do
  let (addr, prefixText) ← StdAddr.rsplitOnce '/' s
  let prefixLen ← StdAddr.parseU32 prefixText
  if 128 < prefixLen then none
  else
    match IP6.fromStr addr with
    | .ok ip => some (IP6Net.network ⟨ip, prefixLen⟩)
    | .error _ => none

/-- One line of `read_env_file`. -/
def readEnvLine (values : String → Option String) (rawLine : String) : String → Option String :=
  let line := Text.trim rawLine
  if line = "" ∨ line.toList.head? = some '#' then values
  else
    match splitOnce '=' line with
    | none => values
    | some (key, value) =>
      let key := Text.trim key
      if key = "" then values else Function.update values key (some (Text.trim value))

/-- The pairs that `read_env_file` finds in a text. -/
def readEnvFile (content : String) : String → Option String :=
  (Text.lines content).foldl readEnvLine fun _ => none

/-- The parts of the value of a key that can be read. -/
def readParts {α : Type} (parse : String → Option α) (file : Option String) (cidrKey : String) :
    List α :=
  match file with
  | none => []
  | some content =>
    match readEnvFile content cidrKey with
    | none => []
    | some raw => (Text.split ',' raw).filterMap parse

/-- The value of a key, if it has one part. -/
def readPart {α : Type} [Inhabited α] (cidrs : List α) : α :=
  match cidrs with
  | [cidr] => cidr
  | _ => default

/-- `read_cidrs_from_subnet_file`; without a file, or if it cannot be read, there are none. -/
def readCidrsFromSubnetFile (file : Option String) (cidrKey : String) : List IP4Net :=
  readParts parseIp4net file cidrKey

/-- `read_cidr_from_subnet_file`. -/
def readCidrFromSubnetFile (file : Option String) (cidrKey : String) : IP4Net :=
  readPart (readCidrsFromSubnetFile file cidrKey)

/-- `read_ip6_cidrs_from_subnet_file`. -/
def readIp6CidrsFromSubnetFile (file : Option String) (cidrKey : String) : List IP6Net :=
  readParts parseIp6net file cidrKey

/-- `read_ip6_cidr_from_subnet_file`. -/
def readIp6CidrFromSubnetFile (file : Option String) (cidrKey : String) : IP6Net :=
  readPart (readIp6CidrsFromSubnetFile file cidrKey)

end Flannel
