import Flannel.Backend.Wireguard
import Flannel.Lib.Tlv
import Flannel.Lib.Utf8

/-!
# The netlink messages of WireGuard

The wire helpers of `backend/wireguard/genl.rs` and the readers of `backend/wireguard/device.rs`.

A device is configured with one message of nested attributes: the peers, in a peer its allowed
addresses, in an address its family, its octets and its length.  Each nested entry is marked
as one in its type, and its type is else only its number in the list.  The readers go over the
attributes in the order in which they stand.

Numbers are in the byte order of the machine, ports and addresses in network order.  Where the
source slices past the end and panics, the functions here are `none`.
-/

namespace Flannel

open Bytes Text

/-! ## Addresses -/

/-- `Ipv4Addr::octets`. -/
def IP4.octets (ip : IP4) : List UInt8 := beBytes 4 ip.val.toNat

/-- `Ipv4Addr::new`. -/
def IP4.ofOctets (o : List UInt8) : IP4 := ⟨BitVec.ofNat 32 (ofBeBytes o)⟩

/-- `Ipv6Addr::octets`. -/
def IP6.octets (ip : IP6) : List UInt8 := beBytes 16 ip.val.toNat

/-- `<Ipv6Addr as From<[u8; 16]>>::from`. -/
def IP6.ofOctets (o : List UInt8) : IP6 := ⟨BitVec.ofNat 128 (ofBeBytes o)⟩

/-- `AF_INET`. -/
def afInet : UInt16 := 2

/-- `AF_INET6`. -/
def afInet6 : UInt16 := 10

namespace Genl

variable (order : ByteOrder)

/-! ## Attributes -/

/-- `nla`. -/
def nla (attrType : UInt16) (payload : List UInt8) : List UInt8 :=
  Tlv.encode order attrType payload

/-- `nla_u8`. -/
def nlaU8 (t : UInt16) (v : UInt8) : List UInt8 := nla order t [v]

/-- `nla_u16`. -/
def nlaU16 (t v : UInt16) : List UInt8 := nla order t (neBytes order 2 v.toNat)

/-- `nla_u32`. -/
def nlaU32 (t : UInt16) (v : Nat) : List UInt8 := nla order t (neBytes order 4 v)

/-- `nla_str`. -/
def nlaStr (t : UInt16) (s : String) : List UInt8 := nla order t (asBytes s ++ [0])

/-- `nla_nest`. -/
def nlaNest (t : UInt16) (children : List (List UInt8)) : List UInt8 :=
  nla order (t ||| 0x8000) children.flatten

/-- `parse_nlas`. -/
def parseNlas (b : List UInt8) : Option (List (UInt16 × List UInt8)) :=
  Tlv.parse order (· &&& 0x7fff) b

/-- `u16_of`. -/
def u16Of (v : List UInt8) : Option UInt16 :=
  if 2 ≤ v.length then some (UInt16.ofNat (ofNeBytes order (byteRange v 0 2))) else none

/-- `u32_of`. -/
def u32Of (v : List UInt8) : Option UInt32 :=
  if 4 ≤ v.length then some (UInt32.ofNat (ofNeBytes order (byteRange v 0 4))) else none

/-! ## Endpoints -/

/-- `sockaddr_bytes`. -/
def sockaddrBytes (addr : SocketAddr) : List UInt8 :=
  match addr.ip with
  | .v4 ip =>
    neBytes order 2 afInet.toNat ++ beBytes 2 addr.port.toNat ++ ip.octets ++ List.replicate 8 0
  | .v6 ip =>
    neBytes order 2 afInet6.toNat ++ beBytes 2 addr.port.toNat ++ neBytes order 4 0 ++
      ip.octets ++ neBytes order 4 addr.scopeId

/-- The address at the given places of a kernel endpoint, by its family. -/
def endpointIp (family : UInt16) (b : List UInt8) : Option IpAddr :=
  if family = afInet then
    if 8 ≤ b.length then some (.v4 (.ofOctets (byteRange b 4 8))) else none
  else if family = afInet6 then
    if 24 ≤ b.length then some (.v6 (.ofOctets (byteRange b 8 24))) else none
  else none

/-- `parse_endpoint`. -/
def parseEndpoint (b : List UInt8) : Option SocketAddr :=
  match u16Of order b with
  | none => none
  | some family =>
    if 4 ≤ b.length then
      (endpointIp family b).map fun ip =>
        ⟨ip, UInt16.ofNat (ofBeBytes (byteRange b 2 4)), 0⟩
    else none

/-! ## Writing peers -/

/-- A key: `[u8; 32]`. -/
abbrev Key : Type := {k : List UInt8 // k.length = 32}

/-- `WGALLOWEDIP_A_FAMILY`. -/
def wgallowedipAFamily : UInt16 := 1

/-- `WGALLOWEDIP_A_IPADDR`. -/
def wgallowedipAIpaddr : UInt16 := 2

/-- `WGALLOWEDIP_A_CIDR_MASK`. -/
def wgallowedipACidrMask : UInt16 := 3

/-- The family and the octets of an address. -/
def familyAddr : IpAddr → UInt16 × List UInt8
  | .v4 ip => (afInet, ip.octets)
  | .v6 ip => (afInet6, ip.octets)

/-- `allowed_ip_attrs`. -/
def allowedIpAttrs (ip : WgAllowedIp) : List (List UInt8) :=
  [nlaU16 order wgallowedipAFamily (familyAddr ip.ip).1,
    nla order wgallowedipAIpaddr (familyAddr ip.ip).2,
    nlaU8 order wgallowedipACidrMask ip.cidr]

/-- `WGPEER_A_PUBLIC_KEY`. -/
def wgpeerAPublicKey : UInt16 := 1

/-- `WGPEER_A_PRESHARED_KEY`. -/
def wgpeerAPresharedKey : UInt16 := 2

/-- `WGPEER_A_FLAGS`. -/
def wgpeerAFlags : UInt16 := 3

/-- `WGPEER_A_ENDPOINT`. -/
def wgpeerAEndpoint : UInt16 := 4

/-- `WGPEER_A_PERSISTENT_KEEPALIVE_INTERVAL`. -/
def wgpeerAPersistentKeepaliveInterval : UInt16 := 5

/-- `WGPEER_A_ALLOWEDIPS`. -/
def wgpeerAAllowedips : UInt16 := 9

/-- Nested entries, numbered from 1. -/
def numbered {α : Type} (attrs : α → List (List UInt8)) (entries : List α) : List (List UInt8) :=
  entries.zipIdx.map fun (entry, i) => nlaNest order (UInt16.ofNat (i + 1)) (attrs entry)

/-- `peer_attrs`. -/
def peerAttrs (p : WgPeerConfig Key) : List (List UInt8) :=
  [nla order wgpeerAPublicKey p.publicKey.1] ++
    (match p.presharedKey with
      | some psk => [nla order wgpeerAPresharedKey psk.1]
      | none => []) ++
    (if p.flags ≠ 0 then [nlaU32 order wgpeerAFlags p.flags] else []) ++
    (match p.endpoint with
      | some ep => [nla order wgpeerAEndpoint (sockaddrBytes order ep)]
      | none => []) ++
    (match p.persistentKeepaliveInterval with
      | some k => [nlaU16 order wgpeerAPersistentKeepaliveInterval k]
      | none => []) ++
    (if p.allowedIps ≠ [] then
      [nlaNest order wgpeerAAllowedips (numbered order (allowedIpAttrs order) p.allowedIps)]
    else [])

/-- `WGDEVICE_A_IFNAME`. -/
def wgdeviceAIfname : UInt16 := 2

/-- `WGDEVICE_A_PRIVATE_KEY`. -/
def wgdeviceAPrivateKey : UInt16 := 3

/-- `WGDEVICE_A_FLAGS`. -/
def wgdeviceAFlags : UInt16 := 5

/-- `WGDEVICE_A_LISTEN_PORT`. -/
def wgdeviceAListenPort : UInt16 := 6

/-- `WGDEVICE_A_PEERS`. -/
def wgdeviceAPeers : UInt16 := 8

/-- The attributes that `configure_device` sends. -/
def deviceAttrs (cfg : WgDeviceConfig Key) : List UInt8 :=
  nlaStr order wgdeviceAIfname cfg.ifname ++
    (match cfg.privateKey with
      | some k => nla order wgdeviceAPrivateKey k.1
      | none => []) ++
    (match cfg.listenPort with
      | some p => nlaU16 order wgdeviceAListenPort p
      | none => []) ++
    (if cfg.flags ≠ 0 then nlaU32 order wgdeviceAFlags cfg.flags else []) ++
    (if cfg.peers ≠ [] then
      nlaNest order wgdeviceAPeers (numbered order (peerAttrs order) cfg.peers)
    else [])

/-! ## Reading peers -/

/-- What `parse_allowed_ip` has seen of the attributes. -/
structure AllowedIpFields where
  family : UInt16 := 0
  addr : Option (List UInt8) := none
  cidr : UInt8 := 0

/-- The body of the loop of `parse_allowed_ip`. -/
def allowedIpField (s : AllowedIpFields) (a : UInt16 × List UInt8) : AllowedIpFields :=
  if a.1 = wgallowedipAFamily then { s with family := (u16Of order a.2).getD 0 }
  else if a.1 = wgallowedipAIpaddr then { s with addr := some a.2 }
  else if a.1 = wgallowedipACidrMask then
    match a.2 with
    | [] => s
    | cidr :: _ => { s with cidr := cidr }
  else s

/-- The address that `parse_allowed_ip` returns. -/
def AllowedIpFields.ip (s : AllowedIpFields) : Option WgAllowedIp :=
  match s.addr with
  | none => none
  | some addr =>
    if s.family = afInet ∧ 4 ≤ addr.length then
      some ⟨.v4 (.ofOctets (byteRange addr 0 4)), s.cidr⟩
    else if s.family = afInet6 ∧ 16 ≤ addr.length then
      some ⟨.v6 (.ofOctets (byteRange addr 0 16)), s.cidr⟩
    else none

/-- `parse_allowed_ip`. -/
def parseAllowedIp (body : List UInt8) : Option (Option WgAllowedIp) :=
  (parseNlas order body).map fun attrs => (attrs.foldl (allowedIpField order) {}).ip

/-- `WgPeerInfo`. -/
structure WgPeerInfo where
  publicKey : List UInt8 := List.replicate 32 0
  endpoint : Option SocketAddr := none
  persistentKeepaliveInterval : UInt16 := 0
  allowedIps : List WgAllowedIp := []
  deriving DecidableEq, Repr

/-- The body of the loop of `parse_peer`. -/
def peerField (peer : WgPeerInfo) (a : UInt16 × List UInt8) : Option WgPeerInfo :=
  if a.1 = wgpeerAPublicKey ∧ 32 ≤ a.2.length then
    some { peer with publicKey := byteRange a.2 0 32 }
  else if a.1 = wgpeerAEndpoint then some { peer with endpoint := parseEndpoint order a.2 }
  else if a.1 = wgpeerAPersistentKeepaliveInterval then
    some { peer with persistentKeepaliveInterval := (u16Of order a.2).getD 0 }
  else if a.1 = wgpeerAAllowedips then do
    let nlas ← parseNlas order a.2
    let ips ← nlas.mapM fun av => parseAllowedIp order av.2
    return { peer with allowedIps := peer.allowedIps ++ ips.reduceOption }
  else some peer

/-- `parse_peer`. -/
def parsePeer (body : List UInt8) : Option WgPeerInfo := do
  let attrs ← parseNlas order body
  attrs.foldlM (peerField order) {}

/-- `WGDEVICE_A_IFINDEX`. -/
def wgdeviceAIfindex : UInt16 := 1

/-- `WgDeviceInfo`. -/
structure WgDeviceInfo where
  ifindex : UInt32 := 0
  listenPort : UInt16 := 0
  peers : List WgPeerInfo := []
  deriving DecidableEq, Repr

/-- The body of the loop of `get_device`. -/
def deviceField (info : WgDeviceInfo) (a : UInt16 × List UInt8) : Option WgDeviceInfo :=
  if a.1 = wgdeviceAIfindex then some { info with ifindex := (u32Of order a.2).getD 0 }
  else if a.1 = wgdeviceAListenPort then
    some { info with listenPort := (u16Of order a.2).getD 0 }
  else if a.1 = wgdeviceAPeers then do
    let nlas ← parseNlas order a.2
    let peers ← nlas.mapM fun pv => parsePeer order pv.2
    return { info with peers := info.peers ++ peers }
  else some info

/-- The loop of `get_device` over the attributes of a message. -/
def readDevice (body : List UInt8) : Option WgDeviceInfo := do
  let attrs ← parseNlas order body
  attrs.foldlM (deviceField order) {}

/-! ## The commands of the family -/

/-- `CTRL_ATTR_FAMILY_ID`. -/
def ctrlAttrFamilyId : UInt16 := 1

/-- `CTRL_ATTR_OPS`. -/
def ctrlAttrOps : UInt16 := 6

/-- `CTRL_ATTR_OP_ID`. -/
def ctrlAttrOpId : UInt16 := 1

/-- `CTRL_ATTR_OP_FLAGS`. -/
def ctrlAttrOpFlags : UInt16 := 2

/-- `GENL_CMD_CAP_DO`. -/
def genlCmdCapDo : UInt32 := 2

/-- `GENL_CMD_CAP_DUMP`. -/
def genlCmdCapDump : UInt32 := 4

/-- The family and its two commands, as far as they are known. -/
structure FamilyOps where
  fam : Option UInt16 := none
  getCmd : Option UInt8 := none
  setCmd : Option UInt8 := none
  deriving DecidableEq, Repr

/-- The innermost loop of `parse_family_ops`: the identifier and the flags of an operation. -/
def opField (op : Option UInt8 × UInt32) (a : UInt16 × List UInt8) : Option UInt8 × UInt32 :=
  let op := if a.1 = ctrlAttrOpId ∧ a.2 ≠ [] then (a.2.head?, op.2) else op
  if a.1 = ctrlAttrOpFlags then (op.1, (u32Of order a.2).getD 0) else op

/-- What an operation adds: the first one that can dump is the one to get with, and the first
one that can do is the one to set with. -/
def addOp (s : FamilyOps) : Option UInt8 × UInt32 → FamilyOps
  | (none, _) => s
  | (some id, flags) =>
    { s with
      getCmd := if flags &&& genlCmdCapDump ≠ 0 ∧ s.getCmd = none then some id else s.getCmd
      setCmd := if flags &&& genlCmdCapDo ≠ 0 ∧ s.setCmd = none then some id else s.setCmd }

/-- The body of the outer loop of `parse_family_ops`. -/
def familyField (s : FamilyOps) (a : UInt16 × List UInt8) : Option FamilyOps :=
  if a.1 = ctrlAttrFamilyId then some { s with fam := u16Of order a.2 }
  else if a.1 = ctrlAttrOps then do
    let nlas ← parseNlas order a.2
    let ops ← nlas.mapM fun op =>
      (parseNlas order op.2).map fun attrs => attrs.foldl (opField order) (none, 0)
    return ops.foldl addOp s
  else some s

/-- The end of `parse_family_ops`: two commands that are the same are not used. -/
def FamilyOps.resolve (name : String) (s : FamilyOps) : Except String (UInt16 × UInt8 × UInt8) :=
  match s.fam with
  | none => .error s!"generic netlink family {name} not found"
  | some fam =>
    if s.getCmd.isSome ∧ s.getCmd = s.setCmd then .ok (fam, 1, 2)
    else .ok (fam, s.getCmd.getD 1, s.setCmd.getD 2)

/-- `parse_family_ops`. -/
def parseFamilyOps (name : String) (body : List UInt8) :
    Option (Except String (UInt16 × UInt8 × UInt8)) := do
  let attrs ← parseNlas order body
  let s ← attrs.foldlM (familyField order) {}
  return s.resolve name

end Genl

end Flannel
