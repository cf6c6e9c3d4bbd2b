import Flannel.Backend.RouteNetwork
import Mathlib.Logic.Function.Basic

/-!
# Subnet events of the VXLAN backend

`backend/vxlan/events.rs`, with the neighbour operations of `device.rs` and the `parse_mac`
of `mod.rs`: how a lease event is turned into entries of three kernel tables.

For each address family of a lease there is an ARP entry (the peer's gateway address has
the peer's VTEP address), a forwarding entry (that VTEP address is behind the peer's
public address) and a route (the peer's subnet is behind the gateway address).  The three
are written one after another, each with up to ten attempts, and what was already written
is taken back when a later one fails --- by hand, and differently in the two families.
If the peer is in the same segment and direct routing is on, a route is all there is.

The kernel keeps one ARP entry for each device and address, one forwarding entry for
each device and VTEP address, and one route for each destination.  Whether it takes an
operation is its own decision at that moment, so it is part of the environment; an
operation that fails changes nothing.  Reading the JSON text of a lease's data is the
library's business and a parameter: `decode` gives the two fields of a well-formed text,
the second one only as far as it is a string.
-/

namespace Flannel

/-! ## The VTEP address -/

/-- `MacAddr`. -/
abbrev MacAddr := Vector UInt8 6

/-- `u8::from_str_radix`: an optional `+`, then digits whose value fits. -/
def u8FromStrRadix (radix : Nat) (cs : List Char) : Option UInt8 :=
  let ds := match cs with
    | '+' :: rest => rest
    | cs => cs
  if ds ≠ [] ∧ ds.all (fun c => (StdAddr.toDigit radix c).isSome) ∧
      StdAddr.digitsValue radix ds < UInt8.size then
    some (UInt8.ofNat (StdAddr.digitsValue radix ds))
  else none

/-- One octet of a MAC address; its length is counted in bytes. -/
def macOctet (s : String) (p : List Char) : Except String UInt8 :=
  if (String.ofList p).utf8ByteSize ≠ 2 then .error s!"address {s}: invalid MAC address"
  else
    match u8FromStrRadix 16 p with
    | some b => .ok b
    | none => .error s!"address {s}: invalid hex digit in MAC address"

/-- `parse_mac`. -/
def parseMac (s : String) : Except String MacAddr :=
  match s.toList.splitOnP fun c => c == ':' || c == '-' with
  | [p₀, p₁, p₂, p₃, p₄, p₅] => do
    let b₀ ← macOctet s p₀
    let b₁ ← macOctet s p₁
    let b₂ ← macOctet s p₂
    let b₃ ← macOctet s p₃
    let b₄ ← macOctet s p₄
    let b₅ ← macOctet s p₅
    return #v[b₀, b₁, b₂, b₃, b₄, b₅]
  | _ => .error s!"address {s}: invalid MAC address"

/-- `parse_backend_data`, of which only `VtepMAC` is used; missing data is the text
`null`. -/
def parseBackendData (decode : String → Option (Nat × Option String)) (raw : Option String) :
    Option MacAddr := do
  let (_, vtepMac) ← decode (raw.getD "null")
  let s ← vtepMac
  (parseMac s).toOption

/-! ## The kernel -/

/-- A route as the builders of this backend make it. -/
structure NetRoute where
  dst : IpAddr
  prefixLen : Nat
  gateway : IpAddr
  outputInterface : Option Nat
  onlink : Bool
  deriving DecidableEq, Repr

/-- The destination network of a route. -/
def NetRoute.destination (r : NetRoute) : IpAddr × Nat := (r.dst, r.prefixLen)

/-- The three tables. -/
structure NetTables where
  arp : Nat × IpAddr → Option MacAddr
  fdb : Nat × MacAddr → Option IpAddr
  routes : IpAddr × Nat → Option NetRoute

/-- Nothing is there. -/
def NetTables.empty : NetTables := ⟨fun _ => none, fun _ => none, fun _ => none⟩

/-- What is asked of the kernel: `add_arp`, `del_arp`, `add_fdb`, `del_fdb`,
`route_replace` and `route_del`. -/
inductive NetOp where
  | addArp (ifindex : Nat) (mac : MacAddr) (ip : IpAddr)
  | delArp (ifindex : Nat) (mac : MacAddr) (ip : IpAddr)
  | addFdb (ifindex : Nat) (mac : MacAddr) (dst : IpAddr)
  | delFdb (ifindex : Nat) (mac : MacAddr) (dst : IpAddr)
  | routeReplace (route : NetRoute)
  | routeDel (route : NetRoute)
  deriving DecidableEq

namespace NetOp

/-- What an operation does when it succeeds. -/
def apply (k : NetTables) : NetOp → NetTables
  | addArp ifindex mac ip => { k with arp := Function.update k.arp (ifindex, ip) (some mac) }
  | delArp ifindex _ ip => { k with arp := Function.update k.arp (ifindex, ip) none }
  | addFdb ifindex mac dst => { k with fdb := Function.update k.fdb (ifindex, mac) (some dst) }
  | delFdb ifindex mac _ => { k with fdb := Function.update k.fdb (ifindex, mac) none }
  | routeReplace r => { k with routes := Function.update k.routes r.destination (some r) }
  | routeDel r => { k with routes := Function.update k.routes r.destination none }

/-- The operations that delete. -/
def isDelete : NetOp → Bool
  | delArp .. | delFdb .. | routeDel .. => true
  | addArp .. | addFdb .. | routeReplace .. => false

end NetOp

/-- What the world answers: whether the `n`-th attempt of an operation succeeds, whether
the context is cancelled while the retry after it waits, and which routes lead to an
address. -/
structure NetEnv where
  succeeds : Nat → NetOp → Bool
  cancelled : Nat → Bool
  routeGet : IpAddr → Option (List RouteMessage)

/-- The kernel, the number of attempts so far, and what each operation came to. -/
structure Net where
  kernel : NetTables
  attempts : Nat
  results : List (NetOp × Bool)

/-- One attempt. -/
def attempt (env : NetEnv) (op : NetOp) (net : Net) : Net × Bool :=
  let ok := env.succeeds net.attempts op
  ({ net with
      kernel := if ok then op.apply net.kernel else net.kernel
      attempts := net.attempts + 1 }, ok)

/-- Note what an operation came to. -/
def record (op : NetOp) (r : Net × Bool) : Net × Bool :=
  ({ r.1 with results := r.1.results ++ [(op, r.2)] }, r.2)

/-- An operation without retries. -/
def once (env : NetEnv) (op : NetOp) (net : Net) : Net × Bool :=
  record op (attempt env op net)

/-- The loop of `retry_do` with `n` attempts left after this one.  A cancelled context
ends the wait before the next attempt. -/
def retryLoop (env : NetEnv) (op : NetOp) : Nat → Net → Net × Bool
  | 0, net => attempt env op net
  | n + 1, net =>
    let r := attempt env op net
    if r.2 then r
    else if env.cancelled net.attempts then r
    else retryLoop env op n r.1

/-- `retry_do`, with its ten attempts. -/
def retryDo (env : NetEnv) (op : NetOp) (net : Net) : Net × Bool :=
  record op (retryLoop env op 9 net)

/-- `direct_routing`, on the routes the kernel finds. -/
def directRouting (routes : Option (List RouteMessage)) : Option Bool :=
  routes.map fun
    | [r] => r.gateway.isNone
    | _ => false

/-! ## What a lease asks for -/

/-- `VXLANDevice`, as far as the events read it. -/
structure VXLANDevice where
  ifindex : Nat
  directRouting : Bool
  deriving DecidableEq, Repr

/-- `NetState`, likewise. -/
structure NetState where
  dev : Option VXLANDevice
  v6Dev : Option VXLANDevice
  deriving DecidableEq, Repr

/-- The three entries of one family of a lease. -/
structure Tunnel where
  ifindex : Nat
  mac : MacAddr
  gw : IpAddr
  vtep : IpAddr
  route : NetRoute
  deriving DecidableEq

/-- The same with the direct route, and whether that is the one to take. -/
structure SubnetPlan where
  tunnel : Tunnel
  directRoute : NetRoute
  directOk : Bool
  deriving DecidableEq

/-- The route into the tunnel; the prefix length becomes a `u8`. -/
def vxlanRoute (ifindex : Nat) (ip : IpAddr) (prefixLen : Nat) : NetRoute where
  dst := ip
  prefixLen := prefixLen % UInt8.size
  gateway := ip
  outputInterface := some ifindex
  onlink := true

/-- The route past the tunnel. -/
def directRoute (ip : IpAddr) (prefixLen : Nat) (publicIp : IpAddr) : NetRoute where
  dst := ip
  prefixLen := prefixLen % UInt8.size
  gateway := publicIp
  outputInterface := none
  onlink := false

/-- `v4_vxlan_route`. -/
def v4VxlanRoute (ifindex : Nat) (sn : IP4Net) : NetRoute :=
  vxlanRoute ifindex (.v4 sn.ip) sn.prefixLen

/-- `v4_direct_route`. -/
def v4DirectRoute (sn : IP4Net) (publicIp : IP4) : NetRoute :=
  directRoute (.v4 sn.ip) sn.prefixLen (.v4 publicIp)

/-- `v6_vxlan_route`. -/
def v6VxlanRoute (ifindex : Nat) (sn : IP6Net) : NetRoute :=
  vxlanRoute ifindex (.v6 sn.ip) sn.prefixLen

/-- `v6_direct_route`. -/
def v6DirectRoute (sn : IP6Net) (publicIp : IP6) : NetRoute :=
  directRoute (.v6 sn.ip) sn.prefixLen (.v6 publicIp)

/-- Direct routing is on and the kernel finds the address in the segment; a failed look-up
counts as no. -/
def directOk (env : NetEnv) (dev : VXLANDevice) (publicIp : IpAddr) : Bool :=
  dev.directRouting && (directRouting (env.routeGet publicIp)).getD false

/-- The IPv4 entries of a lease on a device, if its data can be read. -/
def v4Tunnel (decode : String → Option (Nat × Option String)) (dev : VXLANDevice) (lease : Lease) :
    Option Tunnel :=
  (parseBackendData decode lease.attrs.backendData).map fun mac =>
    { ifindex := dev.ifindex
      mac := mac
      gw := .v4 lease.subnet.ip
      vtep := .v4 lease.attrs.publicIp
      route := v4VxlanRoute dev.ifindex lease.subnet }

/-- The IPv6 entries of a lease on a device, likewise. -/
def v6Tunnel (decode : String → Option (Nat × Option String)) (dev : VXLANDevice) (lease : Lease) :
    Option Tunnel :=
  (parseBackendData decode lease.attrs.backendV6Data).map fun mac =>
    { ifindex := dev.ifindex
      mac := mac
      gw := .v6 lease.ipv6Subnet.ip
      vtep := .v6 (lease.attrs.publicIpv6.getD default)
      route := v6VxlanRoute dev.ifindex lease.ipv6Subnet }

/-- The preparation of the IPv4 half.  `none` is the `continue` after data that cannot be
read, `some none` that there is nothing to do in this family. -/
def v4Plan (decode : String → Option (Nat × Option String)) (env : NetEnv)
    (dev : Option VXLANDevice) (lease : Lease) : Option (Option SubnetPlan) :=
  match lease.enableIpv4, dev with
  | true, some d =>
    (v4Tunnel decode d lease).map fun t =>
      some
        { tunnel := t
          directRoute := v4DirectRoute lease.subnet lease.attrs.publicIp
          directOk := directOk env d (.v4 lease.attrs.publicIp) }
  | _, _ => some none

/-- The preparation of the IPv6 half, likewise; an empty subnet has nothing to do, but its
data must be readable. -/
def v6Plan (decode : String → Option (Nat × Option String)) (env : NetEnv)
    (dev : Option VXLANDevice) (lease : Lease) : Option (Option SubnetPlan) :=
  match lease.enableIpv6, dev with
  | true, some d =>
    (v6Tunnel decode d lease).map fun t =>
      if lease.ipv6Subnet.empty then none
      else
        some
          { tunnel := t
            directRoute := v6DirectRoute lease.ipv6Subnet (lease.attrs.publicIpv6.getD default)
            directOk := directOk env d (.v6 (lease.attrs.publicIpv6.getD default)) }
  | _, _ => some none

/-! ## The events -/

/-- One family of an `Added` event.  What a failed route leaves behind is cleaned up with
`cleanUp`, which is where the families differ. -/
def addSubnet (env : NetEnv) (cleanUp : NetOp → Net → Net × Bool) (p : SubnetPlan) (net : Net) :
    Net × Bool :=
  let t := p.tunnel
  if p.directOk then retryDo env (.routeReplace p.directRoute) net
  else
    let arp := retryDo env (.addArp t.ifindex t.mac t.gw) net
    if !arp.2 then (arp.1, false)
    else
      let fdb := retryDo env (.addFdb t.ifindex t.mac t.vtep) arp.1
      if !fdb.2 then ((retryDo env (.delArp t.ifindex t.mac t.gw) fdb.1).1, false)
      else
        -- last, or the kernel would ask for the gateway's address
        let route := retryDo env (.routeReplace t.route) fdb.1
        if !route.2 then
          let net := (cleanUp (.delArp t.ifindex t.mac t.gw) route.1).1
          ((cleanUp (.delFdb t.ifindex t.mac t.vtep) net).1, false)
        else route

/-- One family of a `Removed` event: everything is deleted, whatever fails. -/
def removeSubnet (env : NetEnv) (p : SubnetPlan) (net : Net) : Net :=
  let t := p.tunnel
  if p.directOk then (retryDo env (.routeDel p.directRoute) net).1
  else
    let net := (retryDo env (.delArp t.ifindex t.mac t.gw) net).1
    let net := (retryDo env (.delFdb t.ifindex t.mac t.vtep) net).1
    (retryDo env (.routeDel t.route) net).1

/-- The IPv4 half of an `Added` event cleans up without retries. -/
def addV4 (env : NetEnv) (p : Option SubnetPlan) (net : Net) : Net × Bool :=
  match p with
  | none => (net, true)
  | some p => addSubnet env (once env) p net

/-- The IPv6 half of an `Added` event cleans up with retries. -/
def addV6 (env : NetEnv) (p : Option SubnetPlan) (net : Net) : Net × Bool :=
  match p with
  | none => (net, true)
  | some p => addSubnet env (retryDo env) p net

/-- One family of a `Removed` event, if there is anything to do in it. -/
def removeFamily (env : NetEnv) (p : Option SubnetPlan) (net : Net) : Net :=
  match p with
  | none => net
  | some p => removeSubnet env p net

/-- One round of `handle_subnet_events`. -/
def handleVxlanEvent (decode : String → Option (Nat × Option String)) (env : NetEnv)
    (state : NetState) (event : Event) (net : Net) : Net :=
  if event.lease.attrs.backendType ≠ "vxlan" then net
  else
    match v4Plan decode env state.dev event.lease, v6Plan decode env state.v6Dev event.lease with
    | some p₄, some p₆ =>
      match event.eventType with
      | .added =>
        let v4 := addV4 env p₄ net
        if v4.2 then (addV6 env p₆ v4.1).1 else v4.1
      | .removed => removeFamily env p₆ (removeFamily env p₄ net)
    | _, _ => net

/-- `handle_subnet_events`. -/
def handleVxlanEvents (decode : String → Option (Nat × Option String)) (env : NetEnv)
    (state : NetState) (batch : List Event) (net : Net) : Net :=
  batch.foldl (fun net event => handleVxlanEvent decode env state event net) net

end Flannel
