import Flannel.Ip.SocketAddr
import Flannel.Lease.Basic

/-!
# The wireguard backend

`backend/wireguard`: what a node sets up when it registers its network (`mod.rs`), what it
publishes about itself in its lease, and what it does with the lease of another node
(`network.rs`, `device.rs`).

In the mode `separate` there is a device for each address family, each with a port of its
own.  In the other modes there is one device for everything, and the mode says through
which family the peers are reached.  The lease carries two ports in any mode.

Keys are the business of a library, so their type, their text and its reader are
parameters, and so is the JSON text of a lease's data.  What the host contributes to the
registration (the key it finds or makes, the devices the kernel creates) is the record
`WgHost`.  Setting up addresses and links of the devices is left out: it only decides
whether the registration goes through.
-/

namespace Flannel

/-! ## Configuration and devices -/

/-- `Mode`. -/
inductive Mode where
  | separate
  | auto
  | ipv4
  | ipv6
  deriving DecidableEq, Repr

/-- `WgConfig`; the mode is missing if its text is not one of the four. -/
structure WgConfig where
  listenPort : Nat := 51820
  listenPortV6 : Nat := 51821
  mtu : Nat
  psk : String := ""
  keepaliveSecs : Nat := 0
  mode : Option Mode := some .separate
  deriving DecidableEq, Repr

/-- `ExternalInterface`, as far as it is read here. -/
structure ExternalInterface where
  extAddr : Option IpAddr
  extV6Addr : Option IpAddr
  deriving DecidableEq, Repr

section Keys

variable {K : Type}

/-- `WGDeviceAttrs`. -/
structure WGDeviceAttrs (K : Type) where
  listenPort : UInt16
  privateKey : Option K
  publicKey : Option K
  psk : Option K
  keepalive : Option Nat
  name : String
  mtu : Nat
  deriving DecidableEq, Repr

/-- `WGDevice`. -/
structure WGDevice (K : Type) where
  attrs : WGDeviceAttrs K
  ifindex : Nat
  ifname : String
  deriving DecidableEq, Repr

/-- The key library: the text of a key, and its reader. -/
structure KeyText (K : Type) where
  text : K → String
  parse : String → Option K

/-- What the host contributes: the key pair of the key file, and the index of the device
that the kernel creates, if it does. -/
structure WgHost (K : Type) where
  privateKey : K
  publicKey : K
  newWgDevice : String → Option Nat

/-- The preshared key of the configuration, if there is one. -/
def readPsk (keys : KeyText K) (psk : String) : Option (Option K) :=
  if psk = "" then some none else (keys.parse psk).map some

/-- `create_wg_dev`; the port becomes a `u16`, and a preshared key must be readable. -/
def createWgDev (keys : KeyText K) (host : WgHost K) (name psk : String) (keepalive listenPort
    mtu : Nat) : Option (WGDevice K) := do
  let psk ← readPsk keys psk
  let ifindex ← host.newWgDevice name
  return {
    attrs :=
      { listenPort := UInt16.ofNat listenPort
        privateKey := some host.privateKey
        publicKey := some host.publicKey
        psk := psk
        keepalive := some keepalive
        name := name
        mtu := mtu }
    ifindex := ifindex
    ifname := name }

/-- `public_key_of`. -/
def publicKeyOf (keys : KeyText K) (dev : WGDevice K) : String :=
  (dev.attrs.publicKey.map keys.text).getD ""

/-! ## Registration -/

/-- `WireguardLeaseAttrs`. -/
structure WireguardLeaseAttrs where
  publicKey : String := ""
  port : UInt16 := 0
  deriving DecidableEq, Repr

/-- The JSON library on values of one type. -/
structure JsonText (α : Type) where
  encode : α → String
  decode : String → Option α

/-- The public address of the lease: unset, and so zero, unless the external address is an
IPv4 one. -/
def publicIp4 (extAddr : Option IpAddr) : IP4 :=
  match extAddr with
  | some (.v4 ip) => ip
  | _ => default

/-- The public IPv6 address of the lease, likewise. -/
def publicIp6 (extV6Addr : Option IpAddr) : Option IP6 :=
  match extV6Addr with
  | some (.v6 ip) => some ip
  | _ => none

/-- `new_subnet_attrs`. -/
def newSubnetAttrs (json : JsonText WireguardLeaseAttrs) (publicIp publicIpv6 : Option IpAddr)
    (enableIpv4 enableIpv6 : Bool) (publicKey : String) (v4Port v6Port : Nat) : LeaseAttrs where
  backendType := "wireguard"
  publicIp := publicIp4 publicIp
  backendData := if enableIpv4 then some (json.encode ⟨publicKey, UInt16.ofNat v4Port⟩) else none
  publicIpv6 := publicIp6 publicIpv6
  backendV6Data := if enableIpv6 then some (json.encode ⟨publicKey, UInt16.ofNat v6Port⟩) else none

/-- The devices of a node, and the key that goes into its lease. -/
structure WgDevices (K : Type) where
  dev : Option (WGDevice K)
  v6Dev : Option (WGDevice K)
  publicKey : String

/-- The device of a family, if the family is enabled. -/
def deviceIf (enabled : Bool) (dev : Option (WGDevice K)) : Option (Option (WGDevice K)) :=
  if enabled then dev.map some else some none

/-- The devices that `register_network` creates, for a valid mode.  The key of the lease is
that of the device created last. -/
def createDevices (keys : KeyText K) (host : WgHost K) (cfg : WgConfig) (mode : Mode)
    (enableIpv4 enableIpv6 : Bool) : Option (WgDevices K) :=
  match mode with
  | .separate => do
    let dev ← deviceIf enableIpv4
      (createWgDev keys host "flannel-wg" cfg.psk cfg.keepaliveSecs cfg.listenPort cfg.mtu)
    let v6Dev ← deviceIf enableIpv6
      (createWgDev keys host "flannel-wg-v6" cfg.psk cfg.keepaliveSecs cfg.listenPortV6 cfg.mtu)
    return ⟨dev, v6Dev, ((v6Dev.or dev).map (publicKeyOf keys)).getD ""⟩
  | .auto | .ipv4 | .ipv6 => do
    let d ← createWgDev keys host "flannel-wg" cfg.psk cfg.keepaliveSecs cfg.listenPort cfg.mtu
    return ⟨some d, none, publicKeyOf keys d⟩

/-- `WireguardNetwork`, without the subnet manager. -/
structure WireguardNetwork (K : Type) where
  ei : ExternalInterface
  dev : Option (WGDevice K)
  v6Dev : Option (WGDevice K)
  mode : Mode
  lease : Lease
  mtu : Nat

/-- `register_network`, with what `acquire_lease` makes of the attributes. -/
def registerNetwork (keys : KeyText K) (json : JsonText WireguardLeaseAttrs) (host : WgHost K)
    (ei : ExternalInterface) (cfg : WgConfig) (enableIpv4 enableIpv6 : Bool)
    (acquireLease : LeaseAttrs → Option Lease) : Option (WireguardNetwork K) := do
  let mode ← cfg.mode
  let devices ← createDevices keys host cfg mode enableIpv4 enableIpv6
  let lease ← acquireLease (newSubnetAttrs json ei.extAddr ei.extV6Addr enableIpv4 enableIpv6
    devices.publicKey cfg.listenPort cfg.listenPortV6)
  if enableIpv4 && lease.subnet.empty then none
  else if enableIpv6 && lease.ipv6Subnet.empty then none
  else some ⟨ei, devices.dev, devices.v6Dev, mode, lease, cfg.mtu⟩

/-! ## A peer's lease -/

/-- `WgAllowedIp`. -/
structure WgAllowedIp where
  ip : IpAddr
  cidr : UInt8
  deriving DecidableEq, Repr

/-- `WgPeerConfig`. -/
structure WgPeerConfig (K : Type) where
  publicKey : K
  presharedKey : Option K
  flags : Nat
  endpoint : Option SocketAddr
  persistentKeepaliveInterval : Option UInt16
  allowedIps : List WgAllowedIp
  deriving DecidableEq, Repr

/-- `WgDeviceConfig`. -/
structure WgDeviceConfig (K : Type) where
  ifname : String
  privateKey : Option K
  listenPort : Option UInt16
  flags : Nat
  peers : List (WgPeerConfig K)
  deriving DecidableEq, Repr

/-- `WGPEER_F_REPLACE_ALLOWEDIPS`. -/
def wgpeerFReplaceAllowedips : Nat := 2

/-- `resolve_udp_addr`. -/
def resolveUdpAddr (lookup : String → UInt16 → Option (List SocketAddr)) (s : String) :
    Option SocketAddr :=
  (StdAddr.toSocketAddrs lookup s).bind List.head?

/-- `add_peer`: the configuration that is handed to the kernel. -/
def addPeer (keys : KeyText K) (lookup : String → UInt16 → Option (List SocketAddr))
    (dev : WGDevice K) (publicEndpoint peerPublicKeyRaw : String) (peerSubnets : List WgAllowedIp) :
    Option (WgDeviceConfig K) := do
  let endpoint ← resolveUdpAddr lookup publicEndpoint
  let peerPublicKey ← keys.parse peerPublicKeyRaw
  return {
    ifname := dev.ifname
    privateKey := dev.attrs.privateKey
    listenPort := some dev.attrs.listenPort
    flags := 0
    peers :=
      [{ publicKey := peerPublicKey
         presharedKey := dev.attrs.psk
         flags := wgpeerFReplaceAllowedips
         endpoint := some endpoint
         persistentKeepaliveInterval := dev.attrs.keepalive.map UInt16.ofNat
         allowedIps := peerSubnets }] }

/-- `WGPEER_F_REMOVE_ME`. -/
def wgpeerFRemoveMe : Nat := 1

/-- `remove_peer`: the configuration that is handed to the kernel. -/
def removePeer (keys : KeyText K) (dev : WGDevice K) (peerPublicKeyRaw : String) :
    Option (WgDeviceConfig K) := do
  let peerPublicKey ← keys.parse peerPublicKeyRaw
  return {
    ifname := dev.ifname
    privateKey := none
    listenPort := none
    flags := 0
    peers :=
      [{ publicKey := peerPublicKey
         presharedKey := none
         flags := wgpeerFRemoveMe
         endpoint := none
         persistentKeepaliveInterval := none
         allowedIps := [] }] }

/-- `select_mode`. -/
def selectMode (ei : ExternalInterface) (ip4 : IP4) (ip6 : Option IP6) : Mode :=
  match ip6 with
  | none => .ipv4
  | some ip6 =>
    if !ip4.isPrivate && ei.extAddr.isSome then .ipv4
    else if !ip6.isPrivate &&
        (match ei.extV6Addr with
        | some (.v6 v6) => !v6.isPrivate
        | _ => false) then
      .ipv6
    else .ipv4

/-- The family through which a peer of the shared device is reached: that of the mode, or
the one that `select_mode` picks. -/
def endpointMode (mode : Mode) (ei : ExternalInterface) (attrs : LeaseAttrs) : Mode :=
  if mode = .auto then selectMode ei attrs.publicIp attrs.publicIpv6 else mode

/-- What is asked of a device. -/
inductive WgRequest (K : Type) where
  | addPeer (dev : WGDevice K) (endpoint publicKey : String) (subnets : List WgAllowedIp)
  | addNetRoute (dev : WGDevice K) (dst : IpAddr) (prefixLen : UInt8)

/-- The lease data of one family; `none` is the early return after a text that cannot be
read. -/
def familyAttrs (json : JsonText WireguardLeaseAttrs) (enabled : Bool) (raw : Option String) :
    Option WireguardLeaseAttrs :=
  match enabled, raw with
  | true, some text => json.decode text
  | _, _ => some {}

/-- The port of an endpoint: that of the lease, or that of the own device for leases of
older versions. -/
def endpointPort (port : UInt16) (dev : Option (WGDevice K)) : UInt16 :=
  if port = 0 then (dev.map fun d => d.attrs.listenPort).getD port else port

/-- The IPv4 endpoint of a peer. -/
def v4Endpoint (attrs : LeaseAttrs) (port : UInt16) : String :=
  s!"{attrs.publicIp.toString}:{port.toNat}"

/-- The IPv6 endpoint of a peer, the empty text if it has no address. -/
def v6Endpoint (attrs : LeaseAttrs) (port : UInt16) : String :=
  match attrs.publicIpv6 with
  | some ip => s!"[{ip.toString}]:{port.toNat}"
  | none => ""

/-- The routes to the flannel networks, on a device. -/
def netRoutes (dev : Option (WGDevice K)) (dsts : List (IpAddr × Nat)) : List (WgRequest K) :=
  match dev with
  | none => []
  | some d => dsts.map fun (dst, prefixLen) => .addNetRoute d dst (UInt8.ofNat prefixLen)

/-- The peer on a device. -/
def peerOn (dev : Option (WGDevice K)) (endpoint publicKey : String)
    (subnets : List WgAllowedIp) : List (WgRequest K) :=
  match dev with
  | none => []
  | some d => [.addPeer d endpoint publicKey subnets]

/-- The subnets of a lease as a peer may use them. -/
def v4Allowed (lease : Lease) : WgAllowedIp :=
  ⟨.v4 lease.subnet.ip, UInt8.ofNat lease.subnet.prefixLen⟩

@[inherit_doc v4Allowed]
def v6Allowed (lease : Lease) : WgAllowedIp :=
  ⟨.v6 lease.ipv6Subnet.ip, UInt8.ofNat lease.ipv6Subnet.prefixLen⟩

/-- The end of `handle_added` in the mode `separate`: a peer on the device of each enabled
family, with the networks that `get_network_config` gives. -/
def addSeparate (nw : WireguardNetwork K) (netconf : Option (IP4Net × IP6Net)) (lease : Lease)
    (v4Attrs v6Attrs : WireguardLeaseAttrs) : List (WgRequest K) :=
  (if lease.enableIpv4 then
    peerOn nw.dev (v4Endpoint lease.attrs (endpointPort v4Attrs.port nw.dev)) v4Attrs.publicKey
        [v4Allowed lease] ++
      netRoutes nw.dev (netconf.toList.map fun c => (.v4 c.1.ip, c.1.prefixLen))
  else []) ++
  (if lease.enableIpv6 then
    peerOn nw.v6Dev (v6Endpoint lease.attrs (endpointPort v6Attrs.port nw.v6Dev)) v6Attrs.publicKey
        [v6Allowed lease] ++
      netRoutes nw.v6Dev (netconf.toList.map fun c => (.v6 c.2.ip, c.2.prefixLen))
  else [])

/-- The end of `handle_added` in the other modes: one peer on the shared device. -/
def addShared (nw : WireguardNetwork K) (netconf : Option (IP4Net × IP6Net)) (lease : Lease)
    (v4Attrs v6Attrs : WireguardLeaseAttrs) : List (WgRequest K) :=
  let endpoint :=
    if endpointMode nw.mode nw.ei lease.attrs = .ipv6 then
      v6Endpoint lease.attrs (endpointPort v6Attrs.port nw.v6Dev)
    else v4Endpoint lease.attrs (endpointPort v4Attrs.port nw.dev)
  -- the data that was read last
  let attrs := if lease.enableIpv6 then v6Attrs else if lease.enableIpv4 then v4Attrs else {}
  let subnets :=
    (if lease.enableIpv4 then [v4Allowed lease] else []) ++
      (if lease.enableIpv6 then [v6Allowed lease] else [])
  peerOn nw.dev endpoint attrs.publicKey subnets ++
    netRoutes nw.dev (netconf.toList.flatMap fun c =>
      [(.v4 c.1.ip, c.1.prefixLen), (.v6 c.2.ip, c.2.prefixLen)])

/-- `handle_added`. -/
def handleAdded (json : JsonText WireguardLeaseAttrs) (nw : WireguardNetwork K)
    (netconf : Option (IP4Net × IP6Net)) (lease : Lease) : List (WgRequest K) :=
  if lease.attrs.backendType ≠ "wireguard" then []
  else
    match familyAttrs json lease.enableIpv4 lease.attrs.backendData,
        familyAttrs json lease.enableIpv6 lease.attrs.backendV6Data with
    | some v4Attrs, some v6Attrs =>
      if nw.mode = .separate then addSeparate nw netconf lease v4Attrs v6Attrs
      else addShared nw netconf lease v4Attrs v6Attrs
    | _, _ => []

/-- The IPv4 half of `handle_removed`: the data it leaves for the other half, and the peers
that `remove_peer` is called for; `none` is the early return. -/
def removeV4 (json : JsonText WireguardLeaseAttrs) (nw : WireguardNetwork K) (lease : Lease) :
    Option (WireguardLeaseAttrs × List (WGDevice K × String)) :=
  match lease.enableIpv4, nw.dev with
  | true, some dev =>
    (familyAttrs json true lease.attrs.backendData).map fun a => (a, [(dev, a.publicKey)])
  | _, _ => some ({}, [])

/-- The IPv6 half of `handle_removed`.  Without IPv6 data the data of the other half is
used. -/
def removeV6 (json : JsonText WireguardLeaseAttrs) (nw : WireguardNetwork K) (lease : Lease)
    (attrs : WireguardLeaseAttrs) : List (WGDevice K × String) :=
  if lease.enableIpv6 then
    let read :=
      match lease.attrs.backendV6Data with
      | some text => json.decode text
      | none => some attrs
    match read with
    | some a =>
      let target := if nw.mode = .separate ∧ nw.v6Dev.isSome then nw.v6Dev else nw.dev
      target.toList.map fun dev => (dev, a.publicKey)
    | none => []
  else []

/-- `handle_removed`: the devices and key texts that `remove_peer` is called with. -/
def handleRemoved (json : JsonText WireguardLeaseAttrs) (nw : WireguardNetwork K) (lease : Lease) :
    List (WGDevice K × String) :=
  if lease.attrs.backendType ≠ "wireguard" then []
  else
    match removeV4 json nw lease with
    | some (attrs, removals) => removals ++ removeV6 json nw lease attrs
    | none => []

end Keys

end Flannel
