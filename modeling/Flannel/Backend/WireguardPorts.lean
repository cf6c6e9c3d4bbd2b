import Flannel.Backend.Wireguard

/-!
# The port a peer is reached at

A node publishes two ports in its lease, and another node makes an endpoint of one of
them.  The device behind the endpoint has to listen on that port.  With a device for each
family this is so.  The shared device of the other modes listens on `ListenPort` whatever
the family, but its IPv6 endpoint is made with the port of the IPv6 data, which is
`ListenPortV6` --- and with none at all if the node has no IPv6 data, because the fallback
for leases without a port looks at the device that does not exist in these modes.

So the port is right unless the shared device is reached through IPv6, and then only if
IPv6 is enabled and the two ports of the configuration are the same.
-/

namespace Flannel

open StdAddr

variable {K : Type} {keys : KeyText K} {json : JsonText WireguardLeaseAttrs}
  {lookup : String → UInt16 → Option (List SocketAddr)}

/-! ## The endpoints of the configured peers -/

/-- The endpoints that the kernel gets for the peers of these requests. -/
def peerEndpoints (keys : KeyText K) (lookup : String → UInt16 → Option (List SocketAddr))
    (requests : List (WgRequest K)) : List SocketAddr :=
  requests.flatMap fun
    | .addPeer dev endpoint publicKey subnets =>
      match addPeer keys lookup dev endpoint publicKey subnets with
      | some c => c.peers.filterMap (·.endpoint)
      | none => []
    | .addNetRoute .. => []

theorem peerEndpoints_append (xs ys : List (WgRequest K)) :
    peerEndpoints keys lookup (xs ++ ys) =
      peerEndpoints keys lookup xs ++ peerEndpoints keys lookup ys :=
  List.flatMap_append

theorem peerEndpoints_netRoutes (dev : Option (WGDevice K)) (dsts : List (IpAddr × Nat)) :
    peerEndpoints keys lookup (netRoutes dev dsts) = [] := by
  cases dev with
  | none => rfl
  | some d =>
    refine List.flatMap_eq_nil_iff.mpr fun x hx => ?_
    obtain ⟨y, -, rfl⟩ := List.mem_map.mp hx
    rfl

theorem resolveUdpAddr_v4Endpoint (attrs : LeaseAttrs) (port : UInt16) :
    resolveUdpAddr lookup (v4Endpoint attrs port) =
      some { ip := .v4 attrs.publicIp, port := port } := by
  rw [resolveUdpAddr, v4Endpoint, toSocketAddrs_v4]
  rfl

theorem resolveUdpAddr_v6Endpoint (attrs : LeaseAttrs) (port : UInt16) :
    resolveUdpAddr lookup (v6Endpoint attrs port) =
      attrs.publicIpv6.map fun ip => { ip := .v6 ip, port := port } := by
  cases hip : attrs.publicIpv6 with
  | none => simp only [resolveUdpAddr, v6Endpoint, hip, toSocketAddrs_empty, Option.bind_none,
      Option.map_none]
  | some ip => simp only [resolveUdpAddr, v6Endpoint, hip, toSocketAddrs_v6, Option.bind_some,
      List.head?_cons, Option.map_some]

section Peer

variable {d : WGDevice K} {k : K} {attrs : LeaseAttrs} {port : UInt16} {publicKey : String}
  {subnets : List WgAllowedIp}

theorem peerEndpoints_v4 (hkey : keys.parse publicKey = some k) :
    peerEndpoints keys lookup (peerOn (some d) (v4Endpoint attrs port) publicKey subnets) =
      [{ ip := .v4 attrs.publicIp, port := port }] := by
  simp [peerEndpoints, peerOn, addPeer, resolveUdpAddr_v4Endpoint, hkey]

theorem peerEndpoints_v6 (hkey : keys.parse publicKey = some k) :
    peerEndpoints keys lookup (peerOn (some d) (v6Endpoint attrs port) publicKey subnets) =
      (attrs.publicIpv6.map fun ip => { ip := .v6 ip, port := port }).toList := by
  cases hip : attrs.publicIpv6 with
  | none => simp [peerEndpoints, peerOn, addPeer, resolveUdpAddr_v6Endpoint, hip]
  | some ip => simp [peerEndpoints, peerOn, addPeer, resolveUdpAddr_v6Endpoint, hip, hkey]

end Peer

/-! ## The devices of a node -/

section Devices

variable {host : WgHost K} {cfg : WgConfig} {mode : Mode} {enableIpv4 enableIpv6 : Bool}
  {devices : WgDevices K}

theorem createWgDev_eq {name psk : String} {keepalive listenPort mtu : Nat} {d : WGDevice K}
    (h : createWgDev keys host name psk keepalive listenPort mtu = some d) :
    d.attrs.listenPort = UInt16.ofNat listenPort ∧
      publicKeyOf keys d = keys.text host.publicKey := by
  simp only [createWgDev, bind, Option.bind_eq_some_iff, pure] at h
  obtain ⟨psk, -, ifindex, -, h⟩ := h
  obtain rfl := Option.some.inj h
  exact ⟨rfl, rfl⟩

/-- The shared device. -/
theorem createDevices_shared (hmode : mode ≠ .separate)
    (h : createDevices keys host cfg mode enableIpv4 enableIpv6 = some devices) :
    (∃ d, devices.dev = some d ∧ d.attrs.listenPort = UInt16.ofNat cfg.listenPort) ∧
      devices.v6Dev = none ∧ devices.publicKey = keys.text host.publicKey := by
  have hshared : ∃ d, createWgDev keys host "flannel-wg" cfg.psk cfg.keepaliveSecs cfg.listenPort
      cfg.mtu = some d ∧ devices = ⟨some d, none, publicKeyOf keys d⟩ := by
    cases mode with
    | separate => exact absurd rfl hmode
    | auto | ipv4 | ipv6 =>
      simp only [createDevices, bind, Option.bind_eq_some_iff, pure, Option.some.injEq] at h
      obtain ⟨d, hd, rfl⟩ := h
      exact ⟨d, hd, rfl⟩
  obtain ⟨d, hd, rfl⟩ := hshared
  obtain ⟨hport, hkey⟩ := createWgDev_eq hd
  exact ⟨⟨d, rfl, hport⟩, rfl, hkey⟩

theorem deviceIf_eq {enabled : Bool} {created : Option (WGDevice K)} {dev : Option (WGDevice K)}
    (h : deviceIf enabled created = some dev) :
    (enabled = true → ∃ d, created = some d ∧ dev = some d) ∧ (enabled = false → dev = none) := by
  cases enabled with
  | false => exact ⟨by simp, fun _ => (Option.some.inj h).symm⟩
  | true =>
    obtain ⟨d, hd, rfl⟩ := Option.map_eq_some_iff.mp h
    exact ⟨fun _ => ⟨d, hd, rfl⟩, by simp⟩

/-- The devices of the two families. -/
theorem createDevices_separate
    (h : createDevices keys host cfg .separate enableIpv4 enableIpv6 = some devices) :
    (enableIpv4 = true →
      ∃ d, devices.dev = some d ∧ d.attrs.listenPort = UInt16.ofNat cfg.listenPort) ∧
    (enableIpv6 = true →
      ∃ d, devices.v6Dev = some d ∧ d.attrs.listenPort = UInt16.ofNat cfg.listenPortV6) ∧
    ((enableIpv4 || enableIpv6) = true → devices.publicKey = keys.text host.publicKey) := by
  simp only [createDevices, bind, Option.bind_eq_some_iff, pure, Option.some.injEq] at h
  obtain ⟨dev, hdev, v6Dev, hv6Dev, rfl⟩ := h
  obtain ⟨hdev, hnone⟩ := deviceIf_eq hdev
  obtain ⟨hv6Dev, hv6None⟩ := deviceIf_eq hv6Dev
  refine ⟨fun hen => ?_, fun hen => ?_, fun hen => ?_⟩
  · obtain ⟨d, hd, rfl⟩ := hdev hen
    exact ⟨d, rfl, (createWgDev_eq hd).1⟩
  · obtain ⟨d, hd, rfl⟩ := hv6Dev hen
    exact ⟨d, rfl, (createWgDev_eq hd).1⟩
  · -- the IPv6 device is created last
    cases h6 : enableIpv6 with
    | true =>
      obtain ⟨d, hd, rfl⟩ := hv6Dev h6
      exact (createWgDev_eq hd).2
    | false =>
      rw [h6, Bool.or_false] at hen
      obtain ⟨d, hd, rfl⟩ := hdev hen
      rw [hv6None h6]
      exact (createWgDev_eq hd).2

end Devices

/-! ## From the lease to the endpoint -/

/-- The lease is what a node with these devices publishes. -/
structure Publishes (json : JsonText WireguardLeaseAttrs) (cfg : WgConfig) (ei : ExternalInterface)
    (v4 v6 : Bool) (devices : WgDevices K) (lease : Lease) : Prop where
  enableIpv4 : lease.enableIpv4 = v4
  enableIpv6 : lease.enableIpv6 = v6
  attrs : lease.attrs = newSubnetAttrs json ei.extAddr ei.extV6Addr v4 v6 devices.publicKey
    cfg.listenPort cfg.listenPortV6

/-- The data of one family, as it comes out of the lease again. -/
def publishedAttrs (enabled : Bool) (publicKey : String) (port : Nat) : WireguardLeaseAttrs :=
  if enabled then ⟨publicKey, UInt16.ofNat port⟩ else {}

theorem familyAttrs_published (hjson : ∀ a, json.decode (json.encode a) = some a) (enabled : Bool)
    (publicKey : String) (port : Nat) :
    familyAttrs json enabled
        (if enabled then some (json.encode ⟨publicKey, UInt16.ofNat port⟩) else none) =
      some (publishedAttrs enabled publicKey port) := by
  cases enabled with
  | true => exact hjson _
  | false => rfl

theorem ofNat_port_ne_zero {port : Nat} (hport : 1 ≤ port ∧ port ≤ 65535) :
    UInt16.ofNat port ≠ 0 := by
  intro h
  have htoNat : port % 65536 = 0 := congrArg UInt16.toNat h
  omega

theorem endpointPort_published {port : Nat} (hport : 1 ≤ port ∧ port ≤ 65535)
    (dev : Option (WGDevice K)) : endpointPort (UInt16.ofNat port) dev = UInt16.ofNat port := by
  rw [endpointPort, if_neg (ofNat_port_ne_zero hport)]

section Lease

variable {cfg : WgConfig} {mode : Mode} {ei : ExternalInterface} {v4 v6 : Bool}
  {devices : WgDevices K} {lease : Lease} {nw : WireguardNetwork K}
  {netconf : Option (IP4Net × IP6Net)} {k : K}

theorem handleAdded_published (hjson : ∀ a, json.decode (json.encode a) = some a)
    (h : Publishes json cfg ei v4 v6 devices lease) :
    handleAdded json nw netconf lease =
      if nw.mode = .separate then
        addSeparate nw netconf lease (publishedAttrs v4 devices.publicKey cfg.listenPort)
          (publishedAttrs v6 devices.publicKey cfg.listenPortV6)
      else
        addShared nw netconf lease (publishedAttrs v4 devices.publicKey cfg.listenPort)
          (publishedAttrs v6 devices.publicKey cfg.listenPortV6) := by
  have htype : lease.attrs.backendType = "wireguard" := by
    rw [h.attrs]
    rfl
  have hv4 : familyAttrs json lease.enableIpv4 lease.attrs.backendData =
      some (publishedAttrs v4 devices.publicKey cfg.listenPort) := by
    rw [h.attrs, h.enableIpv4]
    exact familyAttrs_published hjson v4 devices.publicKey cfg.listenPort
  have hv6 : familyAttrs json lease.enableIpv6 lease.attrs.backendV6Data =
      some (publishedAttrs v6 devices.publicKey cfg.listenPortV6) := by
    rw [h.attrs, h.enableIpv6]
    exact familyAttrs_published hjson v6 devices.publicKey cfg.listenPortV6
  rw [handleAdded, if_neg (by simp [htype]), hv4, hv6]

/-- The endpoints that a peer of the mode `separate` is given. -/
theorem peerEndpoints_separate (hport : 1 ≤ cfg.listenPort ∧ cfg.listenPort ≤ 65535)
    (hport6 : 1 ≤ cfg.listenPortV6 ∧ cfg.listenPortV6 ≤ 65535)
    (hkey : keys.parse devices.publicKey = some k)
    (h : Publishes json cfg ei v4 v6 devices lease)
    (hdev : v4 = true → nw.dev.isSome) (hv6Dev : v6 = true → nw.v6Dev.isSome) :
    peerEndpoints keys lookup (addSeparate nw netconf lease
        (publishedAttrs v4 devices.publicKey cfg.listenPort)
        (publishedAttrs v6 devices.publicKey cfg.listenPortV6)) =
      (if v4 then [{ ip := .v4 lease.attrs.publicIp, port := UInt16.ofNat cfg.listenPort }]
        else []) ++
      (if v6 then
        (lease.attrs.publicIpv6.map fun ip =>
          { ip := .v6 ip, port := UInt16.ofNat cfg.listenPortV6 }).toList
        else []) := by
  rw [addSeparate, peerEndpoints_append, h.enableIpv4, h.enableIpv6]
  congr 1
  · cases v4 with
    | false => rfl
    | true =>
      obtain ⟨d, hd⟩ := Option.isSome_iff_exists.mp (hdev rfl)
      rw [if_pos rfl, if_pos rfl, peerEndpoints_append, peerEndpoints_netRoutes, List.append_nil,
        hd, publishedAttrs, if_pos rfl, endpointPort_published hport, peerEndpoints_v4 hkey]
  · cases v6 with
    | false => rfl
    | true =>
      obtain ⟨d, hd⟩ := Option.isSome_iff_exists.mp (hv6Dev rfl)
      rw [if_pos rfl, if_pos rfl, peerEndpoints_append, peerEndpoints_netRoutes, List.append_nil,
        hd, publishedAttrs, if_pos rfl, endpointPort_published hport6, peerEndpoints_v6 hkey]

/-- The endpoint of a peer that is reached through the shared device. -/
def sharedEndpoints (cfg : WgConfig) (v6 : Bool) (mode : Mode) (ei : ExternalInterface)
    (attrs : LeaseAttrs) : List SocketAddr :=
  if endpointMode mode ei attrs = .ipv6 then
    (attrs.publicIpv6.map fun ip =>
      { ip := .v6 ip, port := if v6 then UInt16.ofNat cfg.listenPortV6 else 0 }).toList
  else [{ ip := .v4 attrs.publicIp, port := UInt16.ofNat cfg.listenPort }]

theorem peerEndpoints_shared (hport : 1 ≤ cfg.listenPort ∧ cfg.listenPort ≤ 65535)
    (hport6 : 1 ≤ cfg.listenPortV6 ∧ cfg.listenPortV6 ≤ 65535)
    (hkey : keys.parse devices.publicKey = some k) (hfamily : (v4 || v6) = true)
    (h : Publishes json cfg ei v4 v6 devices lease) {d : WGDevice K} (hdev : nw.dev = some d)
    (hlisten : d.attrs.listenPort = UInt16.ofNat cfg.listenPort) (hv6Dev : nw.v6Dev = none) :
    peerEndpoints keys lookup (addShared nw netconf lease
        (publishedAttrs v4 devices.publicKey cfg.listenPort)
        (publishedAttrs v6 devices.publicKey cfg.listenPortV6)) =
      sharedEndpoints cfg v6 nw.mode nw.ei lease.attrs := by
  -- the key is that of the family whose data was read last
  have hattrs : (if v6 then publishedAttrs v6 devices.publicKey cfg.listenPortV6
      else if v4 then publishedAttrs v4 devices.publicKey cfg.listenPort else {}).publicKey =
      devices.publicKey := by
    cases v6 with
    | true => rfl
    | false =>
      rw [Bool.or_false] at hfamily
      rw [hfamily]
      rfl
  have hport4 : endpointPort (publishedAttrs v4 devices.publicKey cfg.listenPort).port nw.dev =
      UInt16.ofNat cfg.listenPort := by
    cases v4 with
    | true => exact endpointPort_published hport nw.dev
    | false => rw [hdev, ← hlisten]; rfl
  have hport6 : endpointPort (publishedAttrs v6 devices.publicKey cfg.listenPortV6).port nw.v6Dev =
      if v6 then UInt16.ofNat cfg.listenPortV6 else 0 := by
    cases v6 with
    | true => exact endpointPort_published hport6 nw.v6Dev
    | false => rw [hv6Dev]; rfl
  rw [addShared, peerEndpoints_append, peerEndpoints_netRoutes, List.append_nil, h.enableIpv4,
    h.enableIpv6, hattrs, hport4, hport6, hdev, sharedEndpoints]
  split
  · exact peerEndpoints_v6 hkey
  · exact peerEndpoints_v4 hkey

end Lease

/-! ## Two nodes -/

/-- The device of a node that serves the family of an address. -/
def servingDevice (mode : Mode) (devices : WgDevices K) : IpAddr → Option (WGDevice K)
  | .v4 _ => devices.dev
  | .v6 _ => if mode = .separate then devices.v6Dev else devices.dev

/-- The node behind `ei` reaches the one behind `peer` through IPv6, if they use one device
for everything. -/
def ReachesOverIpv6 (mode : Mode) (ei peer : ExternalInterface) : Prop :=
  (publicIp6 peer.extV6Addr).isSome ∧
    (mode = .ipv6 ∨
      mode = .auto ∧ selectMode ei (publicIp4 peer.extAddr) (publicIp6 peer.extV6Addr) = .ipv6)

theorem registerNetwork_eq {host : WgHost K} {ei : ExternalInterface} {cfg : WgConfig} {mode : Mode}
    {v4 v6 : Bool} {acquireLease : LeaseAttrs → Option Lease} {nw : WireguardNetwork K}
    (hmode : cfg.mode = some mode)
    (h : registerNetwork keys json host ei cfg v4 v6 acquireLease = some nw) :
    ∃ devices, createDevices keys host cfg mode v4 v6 = some devices ∧ nw.ei = ei ∧
      nw.mode = mode ∧ nw.dev = devices.dev ∧ nw.v6Dev = devices.v6Dev := by
  simp only [registerNetwork, hmode, bind, Option.bind_some, Option.bind_eq_some_iff] at h
  obtain ⟨devices, hdevices, lease, -, h⟩ := h
  split at h
  · cases h
  · split at h
    · cases h
    · obtain rfl := Option.some.inj h
      exact ⟨devices, hdevices, rfl, rfl, rfl, rfl⟩

theorem endpointMode_eq_ipv6_iff {cfg : WgConfig} {peer : ExternalInterface} {v4 v6 : Bool}
    {devices : WgDevices K} {lease : Lease} (h : Publishes json cfg peer v4 v6 devices lease)
    (mode : Mode) (ei : ExternalInterface) :
    (lease.attrs.publicIpv6.isSome ∧ endpointMode mode ei lease.attrs = .ipv6) ↔
      ReachesOverIpv6 mode ei peer := by
  have hip : lease.attrs.publicIp = publicIp4 peer.extAddr := by
    rw [h.attrs]
    rfl
  have hip6 : lease.attrs.publicIpv6 = publicIp6 peer.extV6Addr := by
    rw [h.attrs]
    rfl
  rw [ReachesOverIpv6, endpointMode, hip, hip6]
  refine and_congr_right fun _ => ?_
  cases mode <;> simp

theorem ofNat_port_inj {p q : Nat} (hp : 1 ≤ p ∧ p ≤ 65535) (hq : 1 ≤ q ∧ q ≤ 65535) :
    UInt16.ofNat p = UInt16.ofNat q ↔ p = q := by
  refine ⟨fun h => ?_, fun h => h ▸ rfl⟩
  have htoNat : p % 65536 = q % 65536 := congrArg UInt16.toNat h
  omega

section TwoNodes

variable {cfg : WgConfig} {mode : Mode} {eiA eiB : ExternalInterface} {v4 v6 : Bool}
  {hostA hostB : WgHost K} {devicesA devices : WgDevices K} {lease : Lease}
  {nw : WireguardNetwork K} {netconf : Option (IP4Net × IP6Net)}

/-- With a device for each family, every endpoint has the port of the device behind it. -/
theorem separate_ports_served (hkeys : ∀ k, keys.parse (keys.text k) = some k)
    (hport : 1 ≤ cfg.listenPort ∧ cfg.listenPort ≤ 65535)
    (hport6 : 1 ≤ cfg.listenPortV6 ∧ cfg.listenPortV6 ≤ 65535) (hfamily : (v4 || v6) = true)
    (hA : createDevices keys hostA cfg .separate v4 v6 = some devicesA)
    (hdev : nw.dev = devicesA.dev) (hv6Dev : nw.v6Dev = devicesA.v6Dev)
    (hB : createDevices keys hostB cfg .separate v4 v6 = some devices)
    (hlease : Publishes json cfg eiB v4 v6 devices lease) :
    ∀ a ∈ peerEndpoints keys lookup (addSeparate nw netconf lease
        (publishedAttrs v4 devices.publicKey cfg.listenPort)
        (publishedAttrs v6 devices.publicKey cfg.listenPortV6)),
      ∃ d, servingDevice .separate devices a.ip = some d ∧ a.port = d.attrs.listenPort := by
  obtain ⟨hA4, hA6, -⟩ := createDevices_separate hA
  obtain ⟨hB4, hB6, hkeyB⟩ := createDevices_separate hB
  have hkey : keys.parse devices.publicKey = some hostB.publicKey := by
    rw [hkeyB hfamily, hkeys]
  have hdev' : v4 = true → nw.dev.isSome := by
    intro hv4
    obtain ⟨d, hd, -⟩ := hA4 hv4
    rw [hdev, hd]
    rfl
  have hv6Dev' : v6 = true → nw.v6Dev.isSome := by
    intro hv6
    obtain ⟨d, hd, -⟩ := hA6 hv6
    rw [hv6Dev, hd]
    rfl
  rw [peerEndpoints_separate hport hport6 hkey hlease hdev' hv6Dev']
  intro a ha
  rcases List.mem_append.mp ha with ha | ha
  · split at ha
    · rename_i hv4
      obtain rfl := List.mem_singleton.mp ha
      obtain ⟨d, hd, hlisten⟩ := hB4 hv4
      exact ⟨d, hd, hlisten.symm⟩
    · cases ha
  · split at ha
    · rename_i hv6
      obtain ⟨ip, -, rfl⟩ := Option.map_eq_some_iff.mp (Option.mem_toList.mp ha)
      obtain ⟨d, hd, hlisten⟩ := hB6 hv6
      exact ⟨d, hd, hlisten.symm⟩
    · cases ha

/-- The shared device serves both families. -/
theorem served_shared_iff {d : WGDevice K} (hmode : mode ≠ .separate) (hdev : devices.dev = some d)
    (a : SocketAddr) :
    (∃ d', servingDevice mode devices a.ip = some d' ∧ a.port = d'.attrs.listenPort) ↔
      a.port = d.attrs.listenPort := by
  have hserve : servingDevice mode devices a.ip = some d := by
    cases a.ip with
    | v4 ip => exact hdev
    | v6 ip => exact (if_neg hmode).trans hdev
  rw [hserve]
  simp

/-- The port of the shared device is the one that the endpoint has, unless the peer is reached
through IPv6 and the ports of the families differ. -/
theorem shared_ports_iff (hport : 1 ≤ cfg.listenPort ∧ cfg.listenPort ≤ 65535)
    (hport6 : 1 ≤ cfg.listenPortV6 ∧ cfg.listenPortV6 ≤ 65535)
    (hlease : Publishes json cfg eiB v4 v6 devices lease) :
    (∀ a ∈ sharedEndpoints cfg v6 mode eiA lease.attrs, a.port = UInt16.ofNat cfg.listenPort) ↔
      ¬ ReachesOverIpv6 mode eiA eiB ∨ v6 = true ∧ cfg.listenPort = cfg.listenPortV6 := by
  have hreach := endpointMode_eq_ipv6_iff hlease mode eiA
  rw [sharedEndpoints]
  by_cases hipv6 : endpointMode mode eiA lease.attrs = .ipv6
  · rw [if_pos hipv6]
    cases hip : lease.attrs.publicIpv6 with
    | none =>
      -- the empty text is not an endpoint
      refine iff_of_true (by simp) (Or.inl fun h => ?_)
      have hsome := (hreach.mpr h).1
      rw [hip] at hsome
      cases hsome
    | some ip =>
      have hover : ReachesOverIpv6 mode eiA eiB := hreach.mp ⟨by rw [hip]; rfl, hipv6⟩
      simp only [Option.map_some, Option.toList_some, List.mem_singleton, forall_eq, hover,
        not_true_eq_false, false_or]
      cases v6 with
      | true => rw [if_pos rfl, ofNat_port_inj hport6 hport, eq_comm, and_iff_right rfl]
      | false => simp [(ofNat_port_ne_zero hport).symm]
  · rw [if_neg hipv6]
    exact iff_of_true (by simp) (Or.inl fun h => hipv6 (hreach.mpr h).2)

end TwoNodes

/-- **The port of a peer.**  Two nodes share a configuration with valid ports, and the one
handles the lease that the other publishes.  Every endpoint that it configures has the port
of the peer's device for that family exactly if each family has its own device, or the
peer is not reached through IPv6, or IPv6 is enabled and the two ports are the same. -/
theorem peer_port_iff (keys : KeyText K) (json : JsonText WireguardLeaseAttrs)
    (lookup : String → UInt16 → Option (List SocketAddr))
    (hkeys : ∀ k, keys.parse (keys.text k) = some k)
    (hjson : ∀ a, json.decode (json.encode a) = some a)
    (cfg : WgConfig) (mode : Mode) (hmode : cfg.mode = some mode)
    (hport : 1 ≤ cfg.listenPort ∧ cfg.listenPort ≤ 65535)
    (hport6 : 1 ≤ cfg.listenPortV6 ∧ cfg.listenPortV6 ≤ 65535)
    (v4 v6 : Bool) (hfamily : (v4 || v6) = true) (hostA hostB : WgHost K)
    (eiA eiB : ExternalInterface) (acquireLease : LeaseAttrs → Option Lease)
    (nw : WireguardNetwork K)
    (hA : registerNetwork keys json hostA eiA cfg v4 v6 acquireLease = some nw)
    (devices : WgDevices K) (hB : createDevices keys hostB cfg mode v4 v6 = some devices)
    (lease : Lease) (hlease : Publishes json cfg eiB v4 v6 devices lease)
    (netconf : Option (IP4Net × IP6Net)) :
    (∀ a ∈ peerEndpoints keys lookup (handleAdded json nw netconf lease),
      ∃ d, servingDevice mode devices a.ip = some d ∧ a.port = d.attrs.listenPort) ↔
    mode = .separate ∨ ¬ ReachesOverIpv6 mode eiA eiB ∨
      v6 = true ∧ cfg.listenPort = cfg.listenPortV6 := by
  obtain ⟨devicesA, hdevicesA, hei, hnwMode, hdev, hv6Dev⟩ := registerNetwork_eq hmode hA
  rw [handleAdded_published hjson hlease, hnwMode]
  by_cases hsep : mode = .separate
  · subst hsep
    rw [if_pos rfl]
    exact iff_of_true
      (separate_ports_served hkeys hport hport6 hfamily hdevicesA hdev hv6Dev hB hlease)
      (Or.inl rfl)
  · obtain ⟨⟨dA, hdA, hlistenA⟩, hv6A, -⟩ := createDevices_shared hsep hdevicesA
    obtain ⟨⟨dB, hdB, hlistenB⟩, -, hkeyB⟩ := createDevices_shared hsep hB
    have hkey : keys.parse devices.publicKey = some hostB.publicKey := by
      rw [hkeyB, hkeys]
    rw [if_neg hsep, peerEndpoints_shared hport hport6 hkey hfamily hlease (hdev.trans hdA)
      hlistenA (hv6Dev.trans hv6A), hnwMode, hei, or_iff_right hsep]
    simp only [served_shared_iff hsep hdB, hlistenB]
    exact shared_ports_iff hport hport6 hlease

/-! ## Two nodes with default ports -/

/-- The text of the one key there is. -/
def zeroKey : String := "AAAAAAAAAAAAAAAAAAAAAAAAAAAAAAAAAAAAAAAAAAA="

/-- A single key, with its text. -/
def oneKey : KeyText Unit where
  text := fun _ => zeroKey
  parse := fun s => if s = zeroKey then some () else none

theorem oneKey_parse_text (k : Unit) : oneKey.parse (oneKey.text k) = some k := by
  simp [oneKey]

/-- What stands before the key in the data text. -/
def beforeKey : List Char :=
  ['\x7b', '\x22', 'P', 'u', 'b', 'l', 'i', 'c', 'K', 'e', 'y', '\x22', ':', '\x22']

/-- What stands between the key and the port. -/
def beforePort : List Char := ['\x22', ',', '\x22', 'P', 'o', 'r', 't', '\x22', ':']

/-- The data text, for keys without quotes, read from its end. -/
def wgJson : JsonText WireguardLeaseAttrs where
  encode := fun a => String.ofList (beforeKey ++ (a.publicKey.toList ++
    (beforePort ++ (Nat.toDigits 10 a.port.toNat ++ ['\x7d']))))
  decode := fun s =>
    match (s.toList.drop beforeKey.length).reverse with
    | [] => none
    | _ :: rest =>
      let digits := rest.takeWhile fun c => (toDigit 10 c).isSome
      let others := rest.dropWhile fun c => (toDigit 10 c).isSome
      some ⟨String.ofList (others.drop beforePort.length).reverse,
        UInt16.ofNat (digitsValue 10 digits.reverse)⟩

theorem wgJson_decode_encode (a : WireguardLeaseAttrs) :
    wgJson.decode (wgJson.encode a) = some a := by
  have htext : ((wgJson.encode a).toList.drop beforeKey.length).reverse =
      '\x7d' :: ((Nat.toDigits 10 a.port.toNat).reverse ++
        (beforePort.reverse ++ a.publicKey.toList.reverse)) := by
    rw [wgJson, String.toList_ofList, List.drop_left]
    simp only [List.reverse_append, List.reverse_singleton, List.append_assoc, List.cons_append,
      List.nil_append]
  have hdigits : ∀ c ∈ (Nat.toDigits 10 a.port.toNat).reverse, (toDigit 10 c).isSome = true := by
    intro c hc
    exact isSome_toDigit_of_mem (by omega) (by omega) (List.mem_reverse.mp hc)
  have hrest : NoDigit 10 (beforePort.reverse ++ a.publicKey.toList.reverse) :=
    noDigit_colon_ten _
  obtain ⟨htake, hdrop⟩ := takeWhile_digits hdigits hrest
  have hkey : String.ofList ((beforePort.reverse ++ a.publicKey.toList.reverse).drop
      beforePort.length).reverse = a.publicKey := by
    rw [← List.length_reverse, List.drop_left, List.reverse_reverse, String.ofList_toList]
  have hport : UInt16.ofNat (digitsValue 10 (Nat.toDigits 10 a.port.toNat).reverse.reverse) =
      a.port := by
    rw [List.reverse_reverse, digitsValue_toDigits (by omega) (by omega), UInt16.ofNat_toNat]
  have hdecode : ∀ s, wgJson.decode s =
      match (s.toList.drop beforeKey.length).reverse with
      | [] => none
      | _ :: rest =>
        some ⟨String.ofList ((rest.dropWhile fun c => (toDigit 10 c).isSome).drop
            beforePort.length).reverse,
          UInt16.ofNat (digitsValue 10 (rest.takeWhile fun c => (toDigit 10 c).isSome).reverse)⟩ :=
    fun _ => rfl
  rw [hdecode, htext]
  dsimp only
  rw [htake, hdrop, hkey, hport]

/-- A host that gives every device the same index. -/
def wgHost : WgHost Unit := ⟨(), (), fun _ => some 7⟩

/-- A node with public addresses of both families. -/
def wgNode (n : Nat) : ExternalInterface where
  extAddr := some (.v4 ⟨BitVec.ofNat 32 (0x08080800 + n)⟩)
  extV6Addr := some (.v6 ⟨BitVec.ofNat 128 (0x20010db8000000000000000000000000 + n)⟩)

/-- The default ports, in a mode. -/
def wgDefault (mode : Mode) : WgConfig := { mtu := 1500, mode := some mode }

/-- A dual-stack lease with these attributes. -/
def wgLease (attrs : LeaseAttrs) : Lease where
  enableIpv4 := true
  enableIpv6 := true
  subnet := ⟨⟨0x0a020200⟩, 24⟩
  ipv6Subnet := ⟨⟨0xfd000000000000000000000000000000⟩, 64⟩
  attrs := attrs

/-- The lease of the second node. -/
def secondLease : Lease :=
  wgLease (newSubnetAttrs wgJson (wgNode 2).extAddr (wgNode 2).extV6Addr true true
    (oneKey.text ()) 51820 51821)

/-- With a device for each family, both endpoints have the right port. -/
theorem peer_port_iff_separate :
    ∃ nw devices,
      registerNetwork oneKey wgJson wgHost (wgNode 1) (wgDefault .separate) true true
        (fun attrs => some (wgLease attrs)) = some nw ∧
      createDevices oneKey wgHost (wgDefault .separate) .separate true true = some devices ∧
      ∀ a ∈ peerEndpoints oneKey (fun _ _ => none) (handleAdded wgJson nw none secondLease),
        ∃ d, servingDevice .separate devices a.ip = some d ∧ a.port = d.attrs.listenPort :=
  ⟨_, _, rfl, rfl, (peer_port_iff oneKey wgJson (fun _ _ => none) oneKey_parse_text
    wgJson_decode_encode (wgDefault .separate) .separate rfl (by decide) (by decide) true true rfl
    wgHost wgHost (wgNode 1) (wgNode 2) (fun attrs => some (wgLease attrs)) _ rfl _ rfl secondLease
    ⟨rfl, rfl, rfl⟩ none).mpr (Or.inl rfl)⟩

/-- The shared device of a node. -/
def sharedDevice : WGDevice Unit where
  attrs :=
    { listenPort := 51820
      privateKey := some ()
      publicKey := some ()
      psk := none
      keepalive := some 0
      name := "flannel-wg"
      mtu := 1500 }
  ifindex := 7
  ifname := "flannel-wg"

/-- The first node, in the mode `ipv6`. -/
def firstNetwork : WireguardNetwork Unit where
  ei := wgNode 1
  dev := some sharedDevice
  v6Dev := none
  mode := .ipv6
  lease := wgLease (newSubnetAttrs wgJson (wgNode 1).extAddr (wgNode 1).extV6Addr true true
    zeroKey 51820 51821)
  mtu := 1500

/-- On the shared device reached through IPv6, the endpoint has the port `51821`, where nobody
listens. -/
theorem ipv6_endpoint_has_other_port :
    registerNetwork oneKey wgJson wgHost (wgNode 1) (wgDefault .ipv6) true true
      (fun attrs => some (wgLease attrs)) = some firstNetwork ∧
    createDevices oneKey wgHost (wgDefault .ipv6) .ipv6 true true =
      some ⟨some sharedDevice, none, zeroKey⟩ ∧
    Publishes wgJson (wgDefault .ipv6) (wgNode 2) true true ⟨some sharedDevice, none, zeroKey⟩
      secondLease ∧
    ∃ a ∈ peerEndpoints oneKey (fun _ _ => none) (handleAdded wgJson firstNetwork none secondLease),
      a.port = 51821 ∧
      servingDevice .ipv6 ⟨some sharedDevice, none, zeroKey⟩ a.ip = some sharedDevice ∧
      sharedDevice.attrs.listenPort = 51820 := by
  have hlease : Publishes wgJson (wgDefault .ipv6) (wgNode 2) true true
      ⟨some sharedDevice, none, zeroKey⟩ secondLease := ⟨rfl, rfl, rfl⟩
  have hdevices : createDevices oneKey wgHost (wgDefault .ipv6) .ipv6 true true =
      some ⟨some sharedDevice, none, zeroKey⟩ := rfl
  refine ⟨rfl, hdevices, hlease, ?_⟩
  rw [handleAdded_published wgJson_decode_encode hlease, if_neg (by decide),
    peerEndpoints_shared (by decide) (by decide) (oneKey_parse_text ()) rfl hlease rfl rfl rfl]
  exact ⟨_, List.mem_cons_self, rfl, rfl, rfl⟩

end Flannel
