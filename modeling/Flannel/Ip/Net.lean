import Flannel.Ip.StdAddr
import Flannel.Lib.Checked

/-!
# IPv4 and IPv6 addresses and networks

The arithmetic of `ip/ipnet.rs` and `ip/ip6net.rs`.  An `IP4` is a host-order
`u32`; an `IP6` is sixteen big-endian bytes whose every operation goes through
`ip6_value`, so it is modelled by that value.  The prefix length of a network is
not bounded by the type: the masks of `/0` and of an out-of-range length are
zero, and only parsing refuses a length past the family's width.
-/

namespace Flannel

/-! ## IPv4 -/

/-- An IPv4 address, first octet most significant. -/
structure IP4 where
  val : BitVec 32
  deriving DecidableEq, Repr

/-- An IPv4 network: address and prefix length. -/
@[ext]
structure IP4Net where
  ip : IP4
  prefixLen : Nat
  deriving DecidableEq, Repr

instance : Inhabited IP4 := ⟨⟨0⟩⟩

instance : Inhabited IP4Net := ⟨⟨default, 0⟩⟩

instance : LE IP4 := ⟨fun a b => a.val ≤ b.val⟩

instance (a b : IP4) : Decidable (a ≤ b) := inferInstanceAs (Decidable (a.val ≤ b.val))

/-- The errors of the two IPv4 parsers, each with the text it refused. -/
inductive IP4ParseError where
  | invalidAddr (s : String)
  | invalidNet (s : String)
  deriving DecidableEq, Repr

/-- `mask_value`: `/0` and anything past `/32` mask to zero. -/
def maskValue (bits : Nat) : BitVec 32 :=
  if bits = 0 ∨ 32 < bits then 0 else BitVec.allOnes 32 <<< (32 - bits)

/-- `subnet_size`: the size of a network of at least `/1`, and zero otherwise, since `2^32` does
not fit. -/
def subnetSize (prefixLen : Nat) : Option (BitVec 32) :=
  if prefixLen = 0 ∨ 32 < prefixLen then some 0
  else do Checked.shl 1 (← Checked.sub 32 prefixLen)

/-- `str::split_once`: the text before and after the first `c`. -/
def splitOnce (c : Char) (s : String) : Option (String × String) :=
  match s.toList.dropWhile (· ≠ c) with
  | [] => none
  | _ :: rest => some (String.ofList (s.toList.takeWhile (· ≠ c)), String.ofList rest)

namespace IP4

/-- `IP4::from_str`. -/
def fromStr (s : String) : Except IP4ParseError IP4 :=
  match StdAddr.parseIpv4 s with
  | some a => .ok ⟨a⟩
  | none => .error (.invalidAddr s)

/-- `<IP4 as Display>::fmt`. -/
def toString (ip : IP4) : String := StdAddr.showIpv4 ip.val

/-- `IP4::is_private`, by the first two octets. -/
def isPrivate (ip : IP4) : Bool :=
  let a := ip.val.toNat / 16777216
  let b := ip.val.toNat / 65536 % 256
  a == 10 || (a == 172 && b &&& 0xf0 == 16) || (a == 192 && b == 168)

end IP4

namespace IP4Net

/-- `IP4Net::mask`. -/
def mask (n : IP4Net) : BitVec 32 := maskValue n.prefixLen

/-- `IP4Net::network`: the host bits cleared. -/
def network (n : IP4Net) : IP4Net := ⟨⟨n.ip.val &&& n.mask⟩, n.prefixLen⟩

/-- `IP4Net::contains`. -/
def contains (n : IP4Net) (ip : IP4) : Bool :=
  n.ip.val &&& n.mask == ip.val &&& n.mask

/-- `IP4Net::contains_cidr`. -/
def containsCidr (n other : IP4Net) : Bool :=
  decide (n.mask ≤ other.mask) && n.contains other.ip

/-- `IP4Net::overlaps`: the two agree under the mask of the shorter prefix. -/
def overlaps (n other : IP4Net) : Bool :=
  let m := if n.prefixLen < other.prefixLen then n.mask else other.mask
  n.ip.val &&& m == other.ip.val &&& m

/-- `IP4Net::broadcast`. -/
def broadcast (n : IP4Net) : IP4 := ⟨n.ip.val ||| ~~~n.mask⟩

/-- `IP4Net::next`, which wraps around. -/
def next (n : IP4Net) : Option IP4Net := do
  let size ← subnetSize n.prefixLen
  return ⟨⟨n.ip.val + size⟩, n.prefixLen⟩

/-- `IP4Net::empty`. -/
def empty (n : IP4Net) : Bool := n.ip.val == 0 && n.prefixLen == 0

/-- `IP4Net::from_str`: an address, a slash and a prefix length of at most 32, with
the host bits cleared. -/
def fromStr (s : String) : Except IP4ParseError IP4Net :=
  match splitOnce '/' s with
  | none => .error (.invalidNet s)
  | some (addr, prefixText) =>
      match StdAddr.parseU32 prefixText with
      | none => .error (.invalidNet s)
      | some prefixLen =>
          if 32 < prefixLen then .error (.invalidNet s)
          else (IP4.fromStr addr).map fun ip => network ⟨ip, prefixLen⟩

/-- `<IP4Net as Display>::fmt`. -/
def toString (n : IP4Net) : String := s!"{n.ip.toString}/{n.prefixLen}"

end IP4Net

/-! The bounds of a range of subnets -/

/-- `get_subnet_min`, which wraps around. -/
def getSubnetMin (network : IP4) (subnetSize : BitVec 32) : IP4 := ⟨network.val + subnetSize⟩

/-- `get_subnet_max`, which wraps around. -/
def getSubnetMax (network : IP4) (subnetSize : BitVec 32) : IP4 := ⟨network.val - subnetSize⟩

/-- `mask`, with its shift checked. -/
def maskChecked (bits : Nat) : Option IP4 :=
  if bits = 0 ∨ 32 < bits then some ⟨0⟩
  else do
    let m ← Checked.shl (BitVec.allOnes 32) (← Checked.sub 32 bits)
    return ⟨m⟩

/-- `check_subnet`. -/
def checkSubnet (subnet mask : IP4) : Bool := (⟨subnet.val &&& mask.val⟩ : IP4) == subnet

/-! ## IPv6 -/

/-- An IPv6 address, by the value of its sixteen big-endian bytes. -/
structure IP6 where
  val : BitVec 128
  deriving DecidableEq, Repr

/-- An IPv6 network: address and prefix length. -/
@[ext]
structure IP6Net where
  ip : IP6
  prefixLen : Nat
  deriving DecidableEq, Repr

instance : Inhabited IP6 := ⟨⟨0⟩⟩

instance : Inhabited IP6Net := ⟨⟨default, 0⟩⟩

instance : LE IP6 := ⟨fun a b => a.val ≤ b.val⟩

instance (a b : IP6) : Decidable (a ≤ b) := inferInstanceAs (Decidable (a.val ≤ b.val))

/-- The errors of the two IPv6 parsers, each with the text it refused. -/
inductive IP6ParseError where
  | invalidAddr (s : String)
  | invalidNet (s : String)
  deriving DecidableEq, Repr

/-- `mask6`: `/0` and anything past `/128` mask to zero. -/
def mask6 (bits : Nat) : BitVec 128 :=
  if bits = 0 ∨ 128 < bits then 0 else BitVec.allOnes 128 <<< (128 - bits)

/-- `subnet_size6`: the size of a network of at least `/1`, and zero otherwise. -/
def subnetSize6 (prefixLen : Nat) : Option (BitVec 128) :=
  if prefixLen = 0 ∨ 128 < prefixLen then some 0
  else do Checked.shl 1 (← Checked.sub 128 prefixLen)

namespace IP6

/-- `IP6::from_str`. -/
def fromStr (s : String) : Except IP6ParseError IP6 :=
  match StdAddr.parseIpv6 s with
  | some a => .ok ⟨a⟩
  | none => .error (.invalidAddr s)

/-- `<IP6 as Display>::fmt`. -/
def toString (ip : IP6) : String := StdAddr.showIpv6 ip.val

/-- `is_empty`. -/
def isEmpty (ip : IP6) : Bool := ip.val == 0

/-- `IP6::is_private`, by the first byte. -/
def isPrivate (ip : IP6) : Bool := ip.val.toNat >>> 120 &&& 0xfe == 0xfc

end IP6

namespace IP6Net

/-- `IP6Net::mask`. -/
def mask (n : IP6Net) : BitVec 128 := mask6 n.prefixLen

/-- `IP6Net::network`: the host bits cleared. -/
def network (n : IP6Net) : IP6Net := ⟨⟨n.ip.val &&& n.mask⟩, n.prefixLen⟩

/-- `IP6Net::contains`. -/
def contains (n : IP6Net) (ip : IP6) : Bool :=
  n.ip.val &&& n.mask == ip.val &&& n.mask

/-- `IP6Net::contains_cidr`. -/
def containsCidr (n other : IP6Net) : Bool :=
  decide (n.mask ≤ other.mask) && n.contains other.ip

/-- `IP6Net::overlaps`: the two agree under the mask of the shorter prefix. -/
def overlaps (n other : IP6Net) : Bool :=
  let m := if n.prefixLen < other.prefixLen then n.mask else other.mask
  n.ip.val &&& m == other.ip.val &&& m

/-- `IP6Net::next`, which wraps around. -/
def next (n : IP6Net) : Option IP6Net := do
  let size ← subnetSize6 n.prefixLen
  return ⟨⟨n.ip.val + size⟩, n.prefixLen⟩

/-- `IP6Net::empty`. -/
def empty (n : IP6Net) : Bool := n.ip.isEmpty && n.prefixLen == 0

/-- `IP6Net::from_str`: an address, a slash and a prefix length of at most 128,
with the host bits cleared. -/
def fromStr (s : String) : Except IP6ParseError IP6Net :=
  match splitOnce '/' s with
  | none => .error (.invalidNet s)
  | some (addr, prefixText) =>
      match StdAddr.parseU32 prefixText with
      | none => .error (.invalidNet s)
      | some prefixLen =>
          if 128 < prefixLen then .error (.invalidNet s)
          else (IP6.fromStr addr).map fun ip => network ⟨ip, prefixLen⟩

/-- `<IP6Net as Display>::fmt`. -/
def toString (n : IP6Net) : String := s!"{n.ip.toString}/{n.prefixLen}"

end IP6Net

/-! The bounds of a range of subnets -/

/-- `get_ipv6_subnet_min`, which wraps around. -/
def getIpv6SubnetMin (networkIp : IP6) (subnetSize : BitVec 128) : IP6 :=
  ⟨networkIp.val + subnetSize⟩

/-- `get_ipv6_subnet_max`, which wraps around. -/
def getIpv6SubnetMax (networkIp : IP6) (subnetSize : BitVec 128) : IP6 :=
  ⟨networkIp.val - subnetSize⟩

/-- `mask6`, with its shift checked. -/
def mask6Checked (bits : Nat) : Option IP6 :=
  if bits = 0 ∨ 128 < bits then some ⟨0⟩
  else do
    let m ← Checked.shl (BitVec.allOnes 128) (← Checked.sub 128 bits)
    return ⟨m⟩

/-- `check_ipv6_subnet`. -/
def checkIpv6Subnet (subnetIp mask : IP6) : Bool := subnetIp.val &&& mask.val == subnetIp.val

/-! ## Either family -/

/-- `IpAddr` of the standard library. -/
inductive IpAddr where
  | v4 (a : IP4)
  | v6 (a : IP6)
  deriving DecidableEq, Repr

end Flannel
