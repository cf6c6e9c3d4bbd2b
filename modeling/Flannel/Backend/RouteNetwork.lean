import Flannel.Lease.Emitted
import Flannel.Lib.Run

/-!
# The routes of the route-based backends

`backend/route_network.rs` and its `spec.rs`: the event loop that keeps one static route
for each peer subnet, the list of the routes it has installed, and the check that puts
back what the kernel lost.

The kernel's routing table is shared with everyone on the host.  So a call does not get
a table but the kernel's answers: what it lists at each moment, `none` if the listing
fails, and whether it deletes.  Answers that have no influence on the tracked list (that
of the final addition, and a last listing that is thrown away) are left out.

The `Display` texts are for the log only and are left out as well.
-/

namespace Flannel

/-- The address families of netlink that matter here. -/
inductive AddressFamily where
  | inet
  | inet6
  | other
  deriving DecidableEq, Repr

/-- `RouteSpec`. -/
structure RouteSpec where
  dst : IpAddr
  prefixLen : Nat
  gateway : IpAddr
  linkIndex : Nat
  family : AddressFamily
  onlink : Bool
  deriving DecidableEq, Repr

/-- `RouteMessage`, as far as it is read: `route_dst`, `route_gateway` and `route_oif` give
the attributes, if they are there. -/
structure RouteMessage where
  addressFamily : AddressFamily
  destinationPrefixLength : Nat
  dst : Option IpAddr
  gateway : Option IpAddr
  oif : Option Nat
  deriving DecidableEq, Repr

/-! ## The tracked list -/

/-- `route_spec_equal`. -/
def routeSpecEqual (x y : RouteSpec) : Bool :=
  x.dst == y.dst && x.prefixLen == y.prefixLen && x.gateway == y.gateway &&
    x.linkIndex == y.linkIndex

/-- `route_msg_matches`. -/
def routeMsgMatches (msg : RouteMessage) (spec : RouteSpec) : Bool :=
  msg.dst == some spec.dst && msg.destinationPrefixLength == spec.prefixLen &&
    msg.gateway == some spec.gateway && msg.oif == some spec.linkIndex

/-- `add_to_route_list`. -/
def addToRouteList (routes : List RouteSpec) (route : RouteSpec) : List RouteSpec :=
  if routes.any fun r => routeSpecEqual r route then routes else routes ++ [route]

/-- `remove_from_route_list`. -/
def removeFromRouteList (routes : List RouteSpec) (route : RouteSpec) : List RouteSpec :=
  routes.eraseP fun r => routeSpecEqual r route

/-- `remove_msg_from_route_list`. -/
def removeMsgFromRouteList (routes : List RouteSpec) (msg : RouteMessage) : List RouteSpec :=
  routes.eraseP fun r => routeMsgMatches msg r

/-! ## Installing a route -/

/-- The kernel's answers to a `route_add`. -/
structure AddReplies where
  listed : Option (List RouteMessage)
  deleted : Bool
  relisted : Option (List RouteMessage)

/-- What is asked of the kernel. -/
inductive RouteRequest where
  | del (msg : RouteMessage)
  | delSpec (route : RouteSpec)
  | add (route : RouteSpec)
  deriving DecidableEq, Repr

/-- `dump_routes`, on what the kernel lists. -/
def dumpRoutes (listed : List RouteMessage) (family : AddressFamily) : List RouteMessage :=
  listed.filter fun r => r.addressFamily == family

/-- `list_routes_by_dst`; a listing that fails counts as empty at every call. -/
def listRoutesByDst (listed : Option (List RouteMessage)) (family : AddressFamily)
    (route : RouteSpec) : List RouteMessage :=
  (dumpRoutes (listed.getD []) family).filter fun r =>
    r.dst == some route.dst && r.destinationPrefixLength == route.prefixLen

/-- The end of `route_add`: the route is added unless the first listed one is it. -/
def addUnlessListed (route : RouteSpec) (family : AddressFamily)
    (relisted : Option (List RouteMessage)) : List RouteRequest :=
  match (listRoutesByDst relisted family route).head? with
  | some first => if routeMsgMatches first route then [] else [.add route]
  | none => [.add route]

/-- `route_add`: the tracked list afterwards, and what the kernel was asked. -/
def routeAdd (list : List RouteSpec) (route : RouteSpec) (family : AddressFamily)
    (r : AddReplies) : List RouteSpec × List RouteRequest :=
  let list := addToRouteList list route
  match (listRoutesByDst r.listed family route).head? with
  | some first =>
    if !routeMsgMatches first route then
      -- same destination, another gateway or link: it has to go first
      if r.deleted then
        (removeMsgFromRouteList list first, .del first :: addUnlessListed route family r.relisted)
      else
        (list, [.del first])
    else
      (list, addUnlessListed route family r.relisted)
  | none => (list, addUnlessListed route family r.relisted)

/-! ## The event loop -/

/-- `RouteNetwork`, as far as the event loop reads it. -/
structure RouteNetwork where
  backendType : String
  getRoute : Option (Lease → RouteSpec)
  getV6Route : Option (Lease → RouteSpec)

/-- The two tracked lists. -/
structure RouteLists where
  routes : List RouteSpec
  v6Routes : List RouteSpec
  deriving DecidableEq, Repr

/-- The kernel's answers to an event, for each family. -/
structure EventReplies where
  v4 : AddReplies
  v6 : AddReplies

/-- The IPv6 half of an event. -/
def handleV6 (nw : RouteNetwork) (s : RouteLists) (evt : Event) (r : EventReplies) :
    RouteLists × List RouteRequest :=
  if evt.lease.enableIpv6 then
    match nw.getV6Route with
    | none => (s, [])
    | some gr6 =>
      match evt.eventType with
      | .added =>
        let t := routeAdd s.v6Routes (gr6 evt.lease) .inet6 r.v6
        ({ s with v6Routes := t.1 }, t.2)
      | .removed =>
        ({ s with v6Routes := removeFromRouteList s.v6Routes (gr6 evt.lease) },
          [.delSpec (gr6 evt.lease)])
  else
    (s, [])

/-- One round of `handle_subnet_events`.  A missing `get_route` ends the round, so the
IPv6 half is then skipped as well. -/
def handleSubnetEvent (nw : RouteNetwork) (s : RouteLists) (evt : Event) (r : EventReplies) :
    RouteLists × List RouteRequest :=
  if evt.lease.attrs.backendType ≠ nw.backendType then (s, [])
  else if evt.lease.enableIpv4 then
    match nw.getRoute with
    | none => (s, [])
    | some gr =>
      match evt.eventType with
      | .added =>
        let t := routeAdd s.routes (gr evt.lease) .inet r.v4
        let u := handleV6 nw { s with routes := t.1 } evt r
        (u.1, t.2 ++ u.2)
      | .removed =>
        let u := handleV6 nw { s with routes := removeFromRouteList s.routes (gr evt.lease) } evt r
        (u.1, .delSpec (gr evt.lease) :: u.2)
  else
    handleV6 nw s evt r

/-- `handle_subnet_events`, on the events of a batch with the answers to each. -/
def handleSubnetEvents (nw : RouteNetwork) (s : RouteLists) :
    List (Event × EventReplies) → RouteLists × List RouteRequest
  | [] => (s, [])
  | (evt, r) :: batch =>
    let t := handleSubnetEvent nw s evt r
    let u := handleSubnetEvents nw t.1 batch
    (u.1, t.2 ++ u.2)

/-- `check_subnet_exist_in_routes`: the tracked routes that are installed again. -/
def checkSubnetExistInRoutes (routes : List RouteSpec) (family : AddressFamily)
    (listed : Option (List RouteMessage)) : List RouteSpec :=
  match listed with
  | none => []
  | some listed =>
    routes.filter fun route =>
      !(dumpRoutes listed family).any fun r => r.dst.isSome && routeMsgMatches r route

/-! ## host-gw -/

/-- `hostgw_get_route`; the prefix length becomes a `u8`. -/
def hostgwGetRoute (linkIndex : Nat) (lease : Lease) : RouteSpec where
  dst := .v4 lease.subnet.ip
  prefixLen := lease.subnet.prefixLen % 256
  gateway := .v4 lease.attrs.publicIp
  linkIndex := linkIndex
  family := .inet
  onlink := false

/-- `hostgw_get_v6_route`. -/
def hostgwGetV6Route (linkIndex : Nat) (lease : Lease) : RouteSpec where
  dst := .v6 lease.ipv6Subnet.ip
  prefixLen := lease.ipv6Subnet.prefixLen % 256
  gateway := .v6 (lease.attrs.publicIpv6.getD default)
  linkIndex := linkIndex
  family := .inet6
  onlink := false

/-- The network of the host-gw backend, for the families the configuration enables. -/
def hostgwNetwork (linkIndex : Nat) (enableIpv4 enableIpv6 : Bool) : RouteNetwork where
  backendType := "host-gw"
  getRoute := if enableIpv4 then some (hostgwGetRoute linkIndex) else none
  getV6Route := if enableIpv6 then some (hostgwGetV6Route linkIndex) else none

end Flannel
