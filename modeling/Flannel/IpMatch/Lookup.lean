import Flannel.IpMatch.Iface

/-!
# The external interface

`lookup_ext_iface` of `ipmatch/mod.rs`, behind `--iface`, `--iface-regex` and
`--iface-canreach`.  The interface is found in one of four ways, by a name or an address, by a
regular expression, by a route or as the default one; each gives an interface, and may give
addresses with it.  What is still missing is filled in from the interface that was found.

The regular expressions come from a library: its compiler is a parameter, and a compiled
expression is the texts that it matches.
-/

namespace Flannel

namespace IpMatch

/-! ## Stacks -/

/-- `IPV4_STACK`. -/
def ipv4Stack : Int := 0

/-- `IPV6_STACK`. -/
def ipv6Stack : Int := 1

/-- `DUAL_STACK`. -/
def dualStack : Int := 2

/-- `NONE_STACK`. -/
def noneStack : Int := 3

/-! ## What was found -/

/-- `PublicIPOpts`. -/
structure PublicIPOpts where
  publicIp : String := ""
  publicIpV6 : String := ""
  deriving DecidableEq, Repr

/-- The interface and the addresses that the matching has found so far. -/
structure Found where
  iface : Option NetIface := none
  ifaceAddr : Option IpAddr := none
  ifaceV6Addr : Option IpAddr := none
  deriving DecidableEq, Repr

/-- `ExternalInterface`. -/
structure ExternalInterface where
  ifaceIndex : Nat
  ifaceName : String
  ifaceAddr : Option IpAddr
  ifaceV6Addr : Option IpAddr
  extAddr : Option IpAddr
  extV6Addr : Option IpAddr
  deriving DecidableEq, Repr

/-- `ctx`. -/
def ctx {α : Type} (message : String) (x : Except Error α) : Except Error α :=
  x.mapError (message :: ·)

/-- `show_ip`. -/
def showIp (ip : Option IpAddr) : String := (ip.map IpAddr.toString).getD "<nil>"

section Lookup

variable (nl : Netlink)

/-! ## By name or address -/

/-- `iface_by_ip`. -/
def ifaceByIp : IpAddr → Except Error NetIface
  | .v4 a => getInterfaceByIp nl a
  | .v6 _ => .error ["no interface with given IP found"]

/-- `iface_by_ip6`. -/
def ifaceByIp6 : IpAddr → Except Error NetIface
  | .v6 a => getInterfaceByIp6 nl a
  | .v4 _ => .error ["no interface with given IPv6 found"]

/-- The dual-stack case of an address given as `--iface`: the IPv6 address is the public one. -/
def findDual (ifname : String) (ip : IpAddr) (opts : PublicIPOpts) : Except Error Found := do
  let iface ←
    if ip.isIpv4 then
      (ctx s!"error looking up interface {ifname}" (ifaceByIp nl ip)).map some
    else pure none
  let found : Found := { iface := iface, ifaceAddr := some ip }
  if opts.publicIpV6 = "" then return found
  else
    match parseIpAddr opts.publicIpV6 with
    | none => return found
    | some v6 =>
      let v6Iface ←
        ctx s!"error looking up v6 interface {opts.publicIpV6}" (ifaceByIp6 nl v6)
      match iface with
      | none => return { iface := some v6Iface, ifaceAddr := none, ifaceV6Addr := some v6 }
      | some i =>
        if i.name ≠ v6Iface.name then
          .error [s!"v6 interface {v6Iface.name} must be the same with v4 interface {i.name}"]
        else return { found with ifaceV6Addr := some v6 }

/-- An interface given by a name or an address. -/
def findNamed (ifname : String) (ipStack : Int) (opts : PublicIPOpts) : Except Error Found :=
  match parseIpAddr ifname with
  | none => do
    let iface ← ctx s!"error looking up interface {ifname}" (getInterfaceByName nl ifname)
    return { iface := some iface }
  | some ip =>
    if ipStack = ipv4Stack then do
      let iface ← ctx s!"error looking up interface {ifname}" (ifaceByIp nl ip)
      return { iface := some iface, ifaceAddr := some ip }
    else if ipStack = ipv6Stack then do
      let iface ← ctx s!"error looking up v6 interface {ifname}" (ifaceByIp6 nl ip)
      return { iface := some iface, ifaceAddr := some ip, ifaceV6Addr := some ip }
    else if ipStack = dualStack then findDual nl ifname ip opts
    else .ok { ifaceAddr := some ip }

/-! ## By a regular expression -/

section Regex

variable (re : String → Bool) (ipStack : Int)

/-- `match_ip`. -/
def matchIp (ips : List IpAddr) : Option IpAddr := ips.find? fun ip => re ip.toString

/-- `face_desc`. -/
def faceDesc (name : String) (ips : List IpAddr) : String :=
  let ips := " ".intercalate (ips.map IpAddr.toString)
  s!"{name}:[{ips}]"

/-- One turn of the loop over the interfaces: what is found now, and whether it ends here. -/
def checkFace (found : Found) (face : NetIface) : Found × Bool :=
  if ipStack = ipv4Stack then
    match getIfaceIp4Addrs nl face with
    | .error _ => (found, false)
    | .ok ips =>
      match matchIp re ips with
      | none => (found, false)
      | some m => ({ found with ifaceAddr := some m, iface := some face }, true)
  else if ipStack = ipv6Stack then
    match getIfaceIp6Addrs nl face with
    | .error _ => (found, false)
    | .ok ips =>
      match matchIp re ips with
      | none => (found, false)
      | some m => ({ found with ifaceV6Addr := some m, iface := some face }, true)
  else if ipStack = dualStack then
    match getIfaceIp4Addrs nl face, getIfaceIp6Addrs nl face with
    | .ok v4s, .ok v6s =>
      match matchIp re v4s with
      | none => (found, false)
      | some m =>
        -- the address stays, whether or not this is the interface
        let found := { found with ifaceAddr := some m }
        match matchIp re v6s with
        | none => (found, false)
        | some m6 => ({ found with ifaceV6Addr := some m6, iface := some face }, true)
    | _, _ => (found, false)
  else (found, false)

/-- The loop over the interfaces, by their addresses. -/
def checkIps (found : Found) : List NetIface → Found
  | [] => found
  | face :: faces =>
    match checkFace nl re ipStack found face with
    | (found, true) => found
    | (found, false) => checkIps found faces

/-- The loop over the interfaces, by their names. -/
def checkName (found : Found) (faces : List NetIface) : Found :=
  if found.iface = none ∧ (found.ifaceAddr = none ∨ found.ifaceV6Addr = none) then
    { found with iface := faces.find? fun face => re face.name }
  else found

/-- The addresses of an interface in the message that nothing was matched. -/
def availIps (face : NetIface) : List IpAddr :=
  let ips := if ipStack = ipv6Stack then getIfaceIp6Addrs nl face else getIfaceIp4Addrs nl face
  match ips with
  | .ok ips => ips
  | .error _ => []

/-- The interface by a compiled expression. -/
def findRegex (ifregex : String) : Except Error Found := do
  let links ← ctx "error listing all interfaces" (listLinks nl)
  let faces := links.map netIfaceOf
  let found := checkName re (checkIps nl re ipStack {} faces) faces
  match found.iface with
  | some _ => return found
  | none =>
    let avail := ", ".intercalate
      (faces.map fun face => faceDesc face.name (availIps nl ipStack face))
    .error [s!"could not match pattern {ifregex} to any of the available network interfaces ({avail})"]

end Regex

/-! ## By a route -/

/-- The interface through which an address is reached. -/
def findCanreach (ifcanreach : String) : Except Error Found :=
  match parseIpAddr ifcanreach with
  | none =>
    .error ["failed to get ifcanreach based interface", "invalid IP address syntax"]
  | some ip => do
    let (i, addr) ←
      ctx "failed to get ifcanreach based interface" (getInterfaceBySpecificIpRouting nl ip)
    return { iface := some i, ifaceAddr := addr }

/-- The interface of the default route. -/
def findDefault (ipStack : Int) : Except Error Found :=
  if ipStack = ipv4Stack then do
    let (i, _) ← ctx "failed to get default interface" (getDefaultGatewayInterface nl)
    return { iface := some i }
  else if ipStack = ipv6Stack then do
    let (i, _) ← ctx "failed to get default v6 interface" (getDefaultV6GatewayInterface nl)
    return { iface := some i }
  else if ipStack = dualStack then do
    let (i, _) ← ctx "failed to get default interface" (getDefaultGatewayInterface nl)
    let (v6Iface, _) ← ctx "failed to get default v6 interface" (getDefaultV6GatewayInterface nl)
    if i.name ≠ v6Iface.name then
      .error [s!"v6 default route interface {v6Iface.name} must be the same with v4 default route interface {i.name}"]
    else return { iface := some i }
  else .ok {}

/-! ## The rest -/

/-- An address that is still missing, from the interface. -/
def fillIn (wanted : Bool) (addr : Option IpAddr) (addrs : Except Error (List IpAddr))
    (message : String) : Except Error (Option IpAddr) :=
  if wanted ∧ addr = none then
    match addrs with
    | .ok (a :: _) => .ok (some a)
    | _ => .error [message]
  else .ok addr

/-- A public address, if there is a text for it. -/
def publicAddr (text message : String) : Except Error (Option IpAddr) :=
  if text = "" then .ok none
  else
    match parseIpAddr text with
    | some ip => .ok (some ip)
    | none => .error [message]

/-- The MTU of an interface, 0 if it cannot be determined. -/
def mtuOrZero (index : Nat) : Nat :=
  match getLinkMtu nl index with
  | .ok mtu => mtu
  | .error _ => 0

/-- The end of `lookup_ext_iface`. -/
def complete (ipStack : Int) (opts : PublicIPOpts) (found : Found) :
    Except Error ExternalInterface :=
  match found.iface with
  | none => .error ["couldn't find interface to use"]
  | some i => do
    let ifaceAddr ←
      fillIn (ipStack = ipv4Stack ∨ ipStack = dualStack) found.ifaceAddr (getIfaceIp4Addrs nl i)
        s!"failed to find IPv4 address for interface {i.name}"
    let ifaceV6Addr ←
      fillIn (ipStack = ipv6Stack ∨ ipStack = dualStack) found.ifaceV6Addr (getIfaceIp6Addrs nl i)
        s!"failed to find IPv6 address for interface {i.name}"
    if mtuOrZero nl i.index = 0 then
      .error [s!"failed to determine MTU for {showIp ifaceAddr} interface"]
    else do
      let extAddr ← publicAddr opts.publicIp s!"invalid public IP address: {opts.publicIp}"
      let extAddr := if extAddr = none ∧ ipStack ≠ ipv6Stack then ifaceAddr else extAddr
      let extV6Addr ←
        publicAddr opts.publicIpV6 s!"invalid public IPv6 address: {opts.publicIpV6}"
      let extV6Addr := if extV6Addr = none ∧ ipStack ≠ ipv4Stack then ifaceV6Addr else extV6Addr
      return {
        ifaceIndex := i.index, ifaceName := i.name, ifaceAddr := ifaceAddr,
        ifaceV6Addr := ifaceV6Addr, extAddr := extAddr, extV6Addr := extV6Addr }

/-- The regular expression, if one is given. -/
def compileRegex (compile : String → Except String (String → Bool)) (ifregex : String) :
    Except Error (Option (String → Bool)) :=
  if ifregex = "" then .ok none
  else
    match compile ifregex with
    | .ok re => .ok (some re)
    | .error e => .error [s!"could not compile the IP address regex '{ifregex}': {e}"]

/-- The interface, in the way that the options ask for. -/
def findIface (compiled : Option (String → Bool)) (ifname ifregex ifcanreach : String)
    (ipStack : Int) (opts : PublicIPOpts) : Except Error Found :=
  if ifname ≠ "" then findNamed nl ifname ipStack opts
  else
    match compiled with
    | some re => findRegex nl re ipStack ifregex
    | none => if ifcanreach ≠ "" then findCanreach nl ifcanreach else findDefault nl ipStack

/-- `lookup_ext_iface`. -/
def lookupExtIface (compile : String → Except String (String → Bool))
    (ifname ifregex ifcanreach : String) (ipStack : Int) (opts : PublicIPOpts) :
    Except Error ExternalInterface := do
  let compiled ← compileRegex compile ifregex
  if ipStack = noneStack then .error ["none matched ip stack"]
  else do
    let found ← findIface nl compiled ifname ifregex ifcanreach ipStack opts
    complete nl ipStack opts found

end Lookup

end IpMatch

end Flannel
