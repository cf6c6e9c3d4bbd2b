import Flannel.Backend.RouteNetwork
import Flannel.Lib.Framing
import Mathlib.Data.List.Sort

/-!
# Interfaces and their addresses

The queries of `ip/iface/query.rs`, over what netlink answers: a dump is a list of messages,
each of which may be an error of the connection instead.  An error is its chain of messages,
the outermost first.

The addresses of an interface are those of one family that are global or link-local unicast and
not deprecated, the preferred ones first.  An interface without such an address is an error.
`compare_addrs` is not a total order, so what comes first among three kinds of addresses can
depend on the algorithm of the sort; here it is an insertion sort.  Nothing below depends on
the order.
-/

namespace Flannel

/-! ## Addresses -/

/-- `<IpAddr as Display>::fmt`. -/
def IpAddr.toString : IpAddr → String
  | .v4 a => a.toString
  | .v6 a => a.toString

/-- `IpAddr::is_ipv4`. -/
def IpAddr.isIpv4 : IpAddr → Bool
  | .v4 _ => true
  | .v6 _ => false

/-- `<IpAddr as FromStr>::from_str`. -/
def parseIpAddr (s : String) : Option IpAddr :=
  StdAddr.parseWith
    (fun cs =>
      ((StdAddr.readIpv4Addr cs).map fun (a, rest) => (IpAddr.v4 ⟨a⟩, rest)).or
        ((StdAddr.readIpv6Addr cs).map fun (a, rest) => (IpAddr.v6 ⟨a⟩, rest)))
    s.toList

namespace IpMatch

/-- `is_link_local_unicast`. -/
def isLinkLocalUnicast : IpAddr → Bool
  | .v4 a => a.val.toNat / 65536 == 169 * 256 + 254
  | .v6 a => a.val.toNat >>> 112 &&& 0xffc0 == 0xfe80

/-- `is_global_unicast`: not unspecified, loopback, multicast or link-local. -/
def isGlobalUnicast (ip : IpAddr) : Bool :=
  let special :=
    match ip with
    | .v4 a =>
      let first := a.val.toNat / 16777216
      a.val == 0 || first == 127 || (224 ≤ first && first ≤ 239)
    | .v6 a => a.val == 0 || a.val == 1 || a.val.toNat >>> 120 == 0xff
  !special && !isLinkLocalUnicast ip

/-! ## Messages -/

/-- A chain of error messages. -/
abbrev Error : Type := List String

/-- `NetIface`. -/
structure NetIface where
  index : Nat
  name : String
  deriving DecidableEq, Repr

/-- `LinkMessage`, as far as it is read. -/
structure LinkMessage where
  index : Nat
  ifName : Option String
  mtu : Option Nat
  deriving DecidableEq, Repr

/-- `link_name`. -/
def linkName (msg : LinkMessage) : String := msg.ifName.getD "?"

/-- `link_mtu`. -/
def linkMtu (msg : LinkMessage) : Nat := msg.mtu.getD 0

/-- `net_iface_of`. -/
def netIfaceOf (msg : LinkMessage) : NetIface := ⟨msg.index, linkName msg⟩

/-- `AddressAttribute`. -/
inductive AddressAttribute where
  | ifaLocal (ip : IpAddr)
  | ifaAddress (ip : IpAddr)
  | other
  deriving DecidableEq, Repr

/-- `AddressMessage`, with the flags that are read. -/
structure AddressMessage where
  family : AddressFamily
  permanent : Bool
  secondary : Bool
  deprecated : Bool
  attributes : List AddressAttribute
  deriving DecidableEq, Repr

/-- The loop of `addr_ip` over the attributes. -/
def addrIpLoop (address : Option IpAddr) : List AddressAttribute → Option IpAddr
  | [] => address
  | .ifaLocal ip :: _ => some ip
  | .ifaAddress ip :: rest => addrIpLoop (some ip) rest
  | .other :: rest => addrIpLoop address rest

/-- `addr_ip`: the local address, or else the last other one. -/
def addrIp (msg : AddressMessage) : Option IpAddr := addrIpLoop none msg.attributes

/-- `compare_addrs`. -/
def compareAddrs (a b : AddressMessage) : Ordering :=
  match addrIp a, addrIp b with
  | some aIp, some bIp =>
    if isGlobalUnicast aIp && isLinkLocalUnicast bIp then .lt
    else if isLinkLocalUnicast aIp && isGlobalUnicast bIp then .gt
    else if a.permanent && !b.permanent then .lt
    else if !a.permanent && b.permanent then .gt
    else if !a.secondary && b.secondary then .lt
    else if a.secondary && !b.secondary then .gt
    else .eq
  | _, _ => .eq

/-- A route that the kernel chose, with the preferred source address. -/
structure RouteReply extends RouteMessage where
  prefSource : Option IpAddr

/-- What netlink answers. -/
structure Netlink where
  links : List (Except Error LinkMessage)
  linkByIndex : Nat → Option (Except Error LinkMessage)
  linkByName : String → Option (Except Error LinkMessage)
  addresses : Nat → List (Except Error AddressMessage)
  routes : List (Except Error RouteMessage)
  routeGet : IpAddr → List (Except Error RouteReply)

/-! ## Queries -/

section Queries

variable (nl : Netlink)

/-- `list_links`. -/
def listLinks : Except Error (List LinkMessage) := Framing.allOrError nl.links

/-- `list_iface_addrs`. -/
def listIfaceAddrs (index : Nat) (family : AddressFamily) : Except Error (List AddressMessage) :=
  (Framing.allOrError (nl.addresses index)).map fun addrs => addrs.filter (·.family = family)

/-- The usable addresses of a family, in the preferred order. -/
def getIfaceAddrs (iface : NetIface) (family : AddressFamily) (usable : IpAddr → Bool)
    (message : String) : Except Error (List IpAddr) := do
  let addrs ← listIfaceAddrs nl iface.index family
  let addrs := addrs.insertionSort fun a b => compareAddrs a b ≠ .gt
  let ips := addrs.filterMap fun a =>
    (addrIp a).filter fun ip => usable ip && !a.deprecated
  if ips = [] then .error [message] else return ips

/-- `get_iface_ip4_addrs`. -/
def getIfaceIp4Addrs (iface : NetIface) : Except Error (List IpAddr) :=
  getIfaceAddrs nl iface .inet
    (fun ip => ip.isIpv4 && (isGlobalUnicast ip || isLinkLocalUnicast ip))
    "no IPv4 address found for given interface"

/-- `get_iface_ip6_addrs`. -/
def getIfaceIp6Addrs (iface : NetIface) : Except Error (List IpAddr) :=
  getIfaceAddrs nl iface .inet6 (fun ip => isGlobalUnicast ip || isLinkLocalUnicast ip)
    "no IPv6 address found for given interface"

/-- The first message of a dump. -/
def firstLink (reply : Option (Except Error LinkMessage)) (message : String) :
    Except Error LinkMessage :=
  match reply with
  | some link => link
  | none => .error [message]

/-- `get_link_mtu`. -/
def getLinkMtu (index : Nat) : Except Error Nat := do
  let link ← firstLink (nl.linkByIndex index) s!"no such network interface with index {index}"
  return linkMtu link

/-- `link_name_by_index`. -/
def linkNameByIndex (index : Nat) : Except Error String := do
  let link ← firstLink (nl.linkByIndex index) s!"no such network interface with index {index}"
  return linkName link

/-- `get_interface_by_name`. -/
def getInterfaceByName (name : String) : Except Error NetIface := do
  let link ← firstLink (nl.linkByName name) "no such network interface"
  return netIfaceOf link

/-- Whether a dump has an address of a family, up to the first error. -/
def hasAddr (family : AddressFamily) (ip : IpAddr) :
    List (Except Error AddressMessage) → Except Error Bool
  | [] => .ok false
  | .error e :: _ => .error e
  | .ok msg :: rest =>
    if msg.family = family ∧ addrIp msg = some ip then .ok true else hasAddr family ip rest

/-- The first link with an address of a family. -/
def linkByAddr (family : AddressFamily) (ip : IpAddr) (message : String) :
    List LinkMessage → Except Error NetIface
  | [] => .error [message]
  | link :: links => do
    if ← hasAddr family ip (nl.addresses link.index) then return netIfaceOf link
    else linkByAddr family ip message links

/-- `get_interface_by_ip`. -/
def getInterfaceByIp (ip : IP4) : Except Error NetIface := do
  linkByAddr nl .inet (.v4 ip) "no interface with given IP found" (← listLinks nl)

/-- `get_interface_by_ip6`. -/
def getInterfaceByIp6 (ip : IP6) : Except Error NetIface := do
  linkByAddr nl .inet6 (.v6 ip) "no interface with given IPv6 found" (← listLinks nl)

/-- `default_gateway_iface`: the interface of the first default route of a family, still without
its name, and the gateway. -/
def defaultGatewayIface (routes : List RouteMessage) (family : AddressFamily) (zero : IpAddr)
    (noIfaceErr noRouteErr : String) : Except Error (NetIface × Option IpAddr) :=
  let isDefault := fun r : RouteMessage =>
    r.addressFamily == family &&
      match r.dst with
      | none => true
      | some dst => dst == zero && r.destinationPrefixLength == 0
  match routes.find? isDefault with
  | none => .error [noRouteErr]
  | some route =>
    let oif := route.oif.getD 0
    if oif = 0 then .error [noIfaceErr] else .ok (⟨oif, ""⟩, route.gateway)

/-- The default gateway of a family, with the name of the interface. -/
def defaultGateway (family : AddressFamily) (zero : IpAddr) (noIfaceErr noRouteErr : String) :
    Except Error (NetIface × Option IpAddr) := do
  let routes ← Framing.allOrError nl.routes
  let (iface, gw) ← defaultGatewayIface routes family zero noIfaceErr noRouteErr
  let name ← linkNameByIndex nl iface.index
  return ({ iface with name := name }, gw)

/-- `get_default_gateway_interface`. -/
def getDefaultGatewayInterface : Except Error (NetIface × Option IpAddr) :=
  defaultGateway nl .inet (.v4 ⟨0⟩) "found default route but could not determine interface"
    "unable to find default route"

/-- `get_default_v6_gateway_interface`. -/
def getDefaultV6GatewayInterface : Except Error (NetIface × Option IpAddr) :=
  defaultGateway nl .inet6 (.v6 ⟨0⟩) "found default v6 route but could not determine interface"
    "unable to find default v6 route"

/-- The message of an error, as it is shown: the outermost. -/
def showError (e : Error) : String := e.headD ""

/-- `get_interface_by_specific_ip_routing`. -/
def getInterfaceBySpecificIpRouting (ip : IpAddr) : Except Error (NetIface × Option IpAddr) := do
  let routes ←
    match Framing.allOrError (nl.routeGet ip) with
    | .error e => .error [s!"couldn't lookup route to {ip.toString}: {showError e}"]
    | .ok routes => .ok routes
  let links ← listLinks nl
  match routes with
  | [] => .error ["no interface with given IP found"]
  | route :: _ =>
    let oif := route.oif.getD 0
    if oif = 0 then
      .error ["couldn't lookup interface: no such network interface with index 0"]
    else
      match links.find? fun l => l.index = oif with
      | none =>
        .error [s!"couldn't lookup interface: no such network interface with index {oif}"]
      | some link => return (netIfaceOf link, route.prefSource)

end Queries

end IpMatch

end Flannel
