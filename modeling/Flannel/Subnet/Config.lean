import Flannel.Ip.Net

/-!
# The network configuration

`Config` of `subnet/config.rs`: the parsed `net-conf.json`, and `check_network_config`, which
validates it and fills in defaults.  A field that the file does not give keeps the zero value
of its type, and the check takes zero for a field that was not given.

The check changes the configuration as it goes, also if it fails later, so it returns it in any
case.  Its subtractions and shifts are checked: `none` is an amount out of range.
-/

namespace Flannel

/-- `Config`.  The raw backend object is compared by its text, so it is its text. -/
structure Config where
  enableIpv4 : Bool := false
  enableIpv6 : Bool := false
  enableNftables : Bool := false
  network : IP4Net := default
  ipv6Network : IP6Net := default
  subnetMin : IP4 := default
  subnetMax : IP4 := default
  ipv6SubnetMin : Option IP6 := none
  ipv6SubnetMax : Option IP6 := none
  subnetLen : Nat := 0
  ipv6SubnetLen : Nat := 0
  backendType : String := ""
  backend : Option String := none
  deriving DecidableEq, Repr

/-! ## Errors -/

/-- `ConfigError`, as far as `check_network_config` gives it. -/
inductive ConfigError where
  | missingNetwork
  | missingIpv6Network
  | subnetLenTooBigV4
  | subnetLenTooBigV6
  | tooFewSubnets
  | networkTooSmallV4
  | networkTooSmallV6
  | subnetMinOutOfRange
  | subnetMaxOutOfRange
  | ipv6SubnetMinOutOfRange
  | ipv6SubnetMaxOutOfRange
  | subnetMinUnaligned (ip : IP4)
  | subnetMaxUnaligned (ip : IP4)
  | ipv6SubnetMinUnaligned (ip : IP6)
  | ipv6SubnetMaxUnaligned (ip : IP6)
  deriving DecidableEq, Repr

/-- `<ConfigError as Display>::fmt`. -/
def ConfigError.toString : ConfigError → String
  | missingNetwork => "please define a correct Network parameter in the flannel config"
  | missingIpv6Network => "please define a correct IPv6Network parameter in the flannel config"
  | subnetLenTooBigV4 => "SubnetLen must be less than /31"
  | subnetLenTooBigV6 => "SubnetLen must be less than /127"
  | tooFewSubnets => "network must be able to accommodate at least four subnets"
  | networkTooSmallV4 => "network is too small. Minimum useful network prefix is /28"
  | networkTooSmallV6 => "IPv6Network is too small. Minimum useful network prefix is /124"
  | subnetMinOutOfRange => "SubnetMin is not in the range of the Network"
  | subnetMaxOutOfRange => "SubnetMax is not in the range of the Network"
  | ipv6SubnetMinOutOfRange => "IPv6SubnetMin is not in the range of the IPv6Network"
  | ipv6SubnetMaxOutOfRange => "IPv6SubnetMax is not in the range of the IPv6Network"
  | subnetMinUnaligned ip => s!"SubnetMin is not on a SubnetLen boundary: {ip.toString}"
  | subnetMaxUnaligned ip => s!"SubnetMax is not on a SubnetLen boundary: {ip.toString}"
  | ipv6SubnetMinUnaligned ip => s!"IPv6SubnetMin is not on a SubnetLen boundary: {ip.toString}"
  | ipv6SubnetMaxUnaligned ip => s!"IPv6SubnetMax is not on a SubnetLen boundary: {ip.toString}"

/-! ## The length of a subnet -/

/-- The numbers of a family: the longest prefix of a subnet, the longest one of a network that
gives no length, the longest one of a network that gets the usual length, and that length. -/
structure LenLimits where
  longest : Nat
  smallest : Nat
  wide : Nat
  usual : Nat
  tooBig : ConfigError
  tooSmall : ConfigError

/-- The numbers for `SubnetLen`. -/
def ipv4Limits : LenLimits where
  longest := 30
  smallest := 28
  wide := 22
  usual := 24
  tooBig := .subnetLenTooBigV4
  tooSmall := .networkTooSmallV4

/-- The numbers for `IPv6SubnetLen`. -/
def ipv6Limits : LenLimits where
  longest := 126
  smallest := 124
  wide := 62
  usual := 64
  tooBig := .subnetLenTooBigV6
  tooSmall := .networkTooSmallV6

/-- The length of a subnet: the given one, which leaves room for four subnets, or a default. -/
def subnetLenOf (limits : LenLimits) (subnetLen prefixLen : Nat) : Except ConfigError Nat :=
  if 0 < subnetLen then
    if limits.longest < subnetLen then .error limits.tooBig
    else if subnetLen < prefixLen + 2 then .error .tooFewSubnets
    else .ok subnetLen
  else if limits.smallest < prefixLen then .error limits.tooSmall
  else if prefixLen ≤ limits.wide then .ok limits.usual
  else .ok (prefixLen + 2)

/-! ## The check -/

/-- `SubnetMin` as given, inside of the network, or the second subnet. -/
def subnetMinOf (network : IP4Net) (subnetMin : IP4) (subnetSize : BitVec 32) :
    Except ConfigError IP4 :=
  if subnetMin = ⟨0⟩ then .ok (getSubnetMin network.ip subnetSize)
  else if !network.contains subnetMin then .error .subnetMinOutOfRange
  else .ok subnetMin

/-- `SubnetMax` as given, inside of the network, or the subnet before the next network. -/
def subnetMaxOf (network : IP4Net) (subnetMax : IP4) (subnetSize : BitVec 32) :
    Option (Except ConfigError IP4) :=
  if subnetMax = ⟨0⟩ then do
    let next ← network.next
    return .ok (getSubnetMax next.ip subnetSize)
  else if !network.contains subnetMax then some (.error .subnetMaxOutOfRange)
  else some (.ok subnetMax)

/-- Whether the IPv4 bounds are on a boundary. -/
def checkIpv4Boundary (config : Config) : Option (Config × Except ConfigError Unit) := do
  let boundary ← maskChecked config.subnetLen
  if !checkSubnet config.subnetMin boundary then
    return (config, .error (.subnetMinUnaligned config.subnetMin))
  else if !checkSubnet config.subnetMax boundary then
    return (config, .error (.subnetMaxUnaligned config.subnetMax))
  else return (config, .ok ())

/-- The IPv4 half of `check_network_config`. -/
def checkIpv4 (config : Config) : Option (Config × Except ConfigError Unit) :=
  if config.network.empty then some (config, .error .missingNetwork)
  else
    match subnetLenOf ipv4Limits config.subnetLen config.network.prefixLen with
    | .error e => some (config, .error e)
    | .ok len => do
      let config := { config with subnetLen := len }
      let subnetSize ← Checked.shl 1#32 (← Checked.sub 32 config.subnetLen)
      match subnetMinOf config.network config.subnetMin subnetSize with
      | .error e => return (config, .error e)
      | .ok min =>
        let config := { config with subnetMin := min }
        match ← subnetMaxOf config.network config.subnetMax subnetSize with
        | .error e => return (config, .error e)
        | .ok max => checkIpv4Boundary { config with subnetMax := max }

/-- `IPv6SubnetMin` as given, inside of the network, or the second subnet. -/
def ipv6SubnetMinOf (network : IP6Net) (subnetMin : Option IP6) (subnetSize : BitVec 128) :
    Except ConfigError IP6 :=
  match subnetMin.filter fun min => !min.isEmpty with
  | some min => if !network.contains min then .error .ipv6SubnetMinOutOfRange else .ok min
  | none => .ok (getIpv6SubnetMin network.ip subnetSize)

/-- `IPv6SubnetMax` as given, inside of the network, or the subnet before the next network. -/
def ipv6SubnetMaxOf (network : IP6Net) (subnetMax : Option IP6) (subnetSize : BitVec 128) :
    Option (Except ConfigError IP6) :=
  match subnetMax.filter fun max => !max.isEmpty with
  | some max => some (if !network.contains max then .error .ipv6SubnetMaxOutOfRange else .ok max)
  | none => do
    let next ← network.next
    return .ok (getIpv6SubnetMax next.ip subnetSize)

/-- Whether the IPv6 bounds are on a boundary. -/
def checkIpv6Boundary (config : Config) (min max : IP6) :
    Option (Config × Except ConfigError Unit) := do
  let boundary ← mask6Checked config.ipv6SubnetLen
  if !checkIpv6Subnet min boundary then return (config, .error (.ipv6SubnetMinUnaligned min))
  else if !checkIpv6Subnet max boundary then return (config, .error (.ipv6SubnetMaxUnaligned max))
  else return (config, .ok ())

/-- The IPv6 half of `check_network_config`. -/
def checkIpv6 (config : Config) : Option (Config × Except ConfigError Unit) :=
  if config.ipv6Network.empty then some (config, .error .missingIpv6Network)
  else
    match subnetLenOf ipv6Limits config.ipv6SubnetLen config.ipv6Network.prefixLen with
    | .error e => some (config, .error e)
    | .ok len => do
      let config := { config with ipv6SubnetLen := len }
      let subnetSize ← Checked.shl 1#128 (← Checked.sub 128 config.ipv6SubnetLen)
      match ipv6SubnetMinOf config.ipv6Network config.ipv6SubnetMin subnetSize with
      | .error e => return (config, .error e)
      | .ok min =>
        let config := { config with ipv6SubnetMin := some min }
        match ← ipv6SubnetMaxOf config.ipv6Network config.ipv6SubnetMax subnetSize with
        | .error e => return (config, .error e)
        | .ok max => checkIpv6Boundary { config with ipv6SubnetMax := some max } min max

/-- `check_network_config`. -/
def checkNetworkConfig (config : Config) : Option (Config × Except ConfigError Unit) :=
  match if config.enableIpv4 then checkIpv4 config else some (config, .ok ()) with
  | none => none
  | some (config, .error e) => some (config, .error e)
  | some (config, .ok ()) => if config.enableIpv6 then checkIpv6 config else some (config, .ok ())

end Flannel
