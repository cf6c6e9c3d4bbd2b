import Flannel.Lib.Bytes

/-!
# The packets of the UDP backend

`backend/udp/proxy_packet.rs`: the checksum, the time to live and the ICMP reply for a packet
without a route.

The checksum is added up from words as the machine loads them and is stored as the machine
stores a number, so the functions depend on the byte order.  Where the source would index out of
range, or a sum would leave its type, the functions here are `none`.  What is logged is left out.
-/

namespace Flannel

open Bytes

namespace UdpPacket

/-- `IPHDR_LEN`. -/
def iphdrLen : Nat := 20

/-- `MAX_IPOPTLEN`. -/
def maxIpoptlen : Nat := 40

/-- `ICMP_DEST_UNREACH`. -/
def icmpDestUnreach : UInt8 := 3

/-- `ICMP_NET_UNREACH`. -/
def icmpNetUnreach : UInt8 := 0

/-- `PROTO_ICMP`. -/
def protoIcmp : UInt8 := 1

/-! ## The checksum -/

/-- The loop of `cksum` that folds the carries. -/
def foldCarry (sum : Nat) : Nat :=
  if sum >>> 16 ≠ 0 then foldCarry ((sum &&& 0xffff) + sum >>> 16) else sum
termination_by sum
decreasing_by
  have hlow : sum &&& 0xffff = sum % 2 ^ 16 := Nat.and_two_pow_sub_one_eq_mod sum 16
  rw [Nat.shiftRight_eq_div_pow] at *
  omega

section

variable (order : ByteOrder)

/-- A round of the loop of `cksum` that adds the words; the accumulator has 64 bits. -/
def addWord (sum : Nat) (chunk : List UInt8) : Option Nat :=
  if sum + ofNeBytes order chunk < 2 ^ 64 then some (sum + ofNeBytes order chunk) else none

/-- `cksum`. -/
def cksum (data : List UInt8) : Option Nat := do
  let sum ← (chunksExact 4 data).foldlM (addWord order) 0
  return 0xffff - foldCarry sum % 2 ^ 16

/-! ## The time to live -/

/-- `u16::to_be`. -/
def toBe16 (v : Nat) : Nat := ofNeBytes order (beBytes 2 v)

/-- `u16::wrapping_add`. -/
def wrappingAdd (v w : Nat) : Nat := (v + w) % 2 ^ 16

/-- The checksum that `decrement_ttl` stores in the place of another. -/
def patchedCheck (check : Nat) : Nat :=
  if toBe16 order (0xffff - 0x100) ≤ check then
    wrappingAdd (wrappingAdd check (toBe16 order 0x100)) 1
  else wrappingAdd check (toBe16 order 0x100)

/-- `decrement_ttl`, with the packet that it leaves. -/
def decrementTtl (pkt : List UInt8) : Option (Bool × List UInt8) := do
  let ttl ← pkt[8]?
  let pkt ← setByte pkt 8 (ttl - 1)
  if ttl - 1 = 0 then return (false, pkt)
  let high ← pkt[10]?
  let low ← pkt[11]?
  let check := ofNeBytes order [high, low]
  let pkt ← copyFromSlice pkt 10 12 (neBytes order 2 (patchedCheck order check))
  return (true, pkt)

/-! ## The reply -/

/-- The part of `build_net_unreachable` that fills the IP header of the reply. -/
def fillIphdr (offender : List UInt8) (tunAddr : UInt32) (pktlen : Nat) (pkt : List UInt8) :
    Option (List UInt8) := do
  let pkt ← setByte pkt 0 0x45
  let pkt ← copyFromSlice pkt 2 4 (beBytes 2 pktlen)
  let pkt ← setByte pkt 8 8
  let pkt ← setByte pkt 9 protoIcmp
  let pkt ← copyFromSlice pkt 12 16 (neBytes order 4 tunAddr.toNat)
  let saddr ← slice offender 12 16
  let pkt ← copyFromSlice pkt 16 20 saddr
  let iphdr ← slice pkt 0 iphdrLen
  let ipCheck ← cksum order iphdr
  copyFromSlice pkt 10 12 (neBytes order 2 ipCheck)

/-- The part of `build_net_unreachable` that fills the ICMP part of the reply. -/
def fillIcmp (offender : List UInt8) (offIphLen : Nat) (pkt : List UInt8) :
    Option (List UInt8) := do
  let pkt ← setByte pkt 20 icmpDestUnreach
  let pkt ← setByte pkt 21 icmpNetUnreach
  let quoted ← slice offender 0 (offIphLen + 8)
  let pkt ← copyFromSlice pkt 28 (28 + offIphLen + 8) quoted
  let icmp ← slice pkt 20 pkt.length
  let icmpCheck ← cksum order icmp
  copyFromSlice pkt 22 24 (neBytes order 2 icmpCheck)

/-- The reply of `build_net_unreachable`, for the header length of the offender. -/
def fillNetUnreachable (offender : List UInt8) (tunAddr : UInt32) (offIphLen : Nat) :
    Option (List UInt8) := do
  let pktlen := iphdrLen + 8 + offIphLen + 8
  let pkt ← fillIphdr order offender tunAddr pktlen (List.replicate pktlen 0)
  fillIcmp order offender offIphLen pkt

/-- `build_net_unreachable`. -/
def buildNetUnreachable (offender : List UInt8) (tunAddr : UInt32) : Option (Option (List UInt8)) :=
  if offender.length < iphdrLen then return none
  else do
    let first ← offender[0]?
    let offIphLen := (first &&& 0x0f).toNat * 4
    if iphdrLen + maxIpoptlen ≤ offIphLen then return none
    let proto ← offender[9]?
    if proto = protoIcmp then return none
    let high ← offender[6]?
    let low ← offender[7]?
    if ofBeBytes [high, low] &&& 0x1fff ≠ 0 then return none
    if offender.length < offIphLen + 8 then return none
    let pkt ← fillNetUnreachable order offender tunAddr offIphLen
    return some pkt

end

end UdpPacket

end Flannel
