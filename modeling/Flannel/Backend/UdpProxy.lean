import Flannel.Ip.Net
import Flannel.Lib.Bytes
import Flannel.Lib.KeyedList

/-!
# The packet proxy of the UDP backend

`backend/udp/proxy.rs` and the commands of `backend/udp/network.rs`.

The network tells the proxy about routes with commands of twenty bytes, laid out like the
C structure of amd64: numbers are little endian, and addresses are in network order, so
their bytes stand in the order in which they are written.  A network is kept as its
address and its mask, both in network order.

The table is a vector.  A look-up swaps the entry it finds to the front, and a deletion
swaps the last entry into the place of the deleted one, so the order of the entries depends
on everything that has happened.
-/

namespace Flannel

open Bytes KeyedList

/-! ## Bytes -/

/-- `u32::to_be` on a little endian machine. -/
def toBe (x : BitVec 32) : BitVec 32 :=
  x.extractLsb' 0 8 ++ x.extractLsb' 8 8 ++ x.extractLsb' 16 8 ++ x.extractLsb' 24 8

/-- `IP4::network_order`. -/
def IP4.networkOrder (ip : IP4) : BitVec 32 := toBe ip.val

/-! ## Commands -/

/-- `CMD_SET_ROUTE`. -/
def cmdSetRoute : BitVec 32 := 1

/-- `CMD_DEL_ROUTE`. -/
def cmdDelRoute : BitVec 32 := 2

/-- `CMD_STOP`. -/
def cmdStop : BitVec 32 := 3

/-- `COMMAND_SIZE`. -/
def commandSize : Nat := 20

/-- `Command`. -/
structure Command where
  cmd : BitVec 32
  destNet : BitVec 32
  destNetLen : BitVec 32
  nextHopIp : BitVec 32
  nextHopPort : BitVec 16
  deriving DecidableEq, Repr

namespace Command

/-- `Command::to_bytes`. -/
def toBytes (c : Command) : List UInt8 :=
  leBytes 4 c.cmd.toNat ++ leBytes 4 c.destNet.toNat ++ leBytes 4 c.destNetLen.toNat ++
    leBytes 4 c.nextHopIp.toNat ++ leBytes 2 c.nextHopPort.toNat ++ [0, 0]

/-- `Command::from_bytes`. -/
def fromBytes (b : List UInt8) : Command where
  cmd := BitVec.ofNat 32 (ofLeBytes (byteRange b 0 4))
  destNet := BitVec.ofNat 32 (ofLeBytes (byteRange b 4 8))
  destNetLen := BitVec.ofNat 32 (ofLeBytes (byteRange b 8 12))
  nextHopIp := BitVec.ofNat 32 (ofLeBytes (byteRange b 12 16))
  nextHopPort := BitVec.ofNat 16 (ofLeBytes (byteRange b 16 18))

end Command

/-! ## The table -/

/-- `IpNet`. -/
structure IpNet where
  ip : BitVec 32
  mask : BitVec 32
  deriving DecidableEq, Repr

/-- `RouteEntry`. -/
structure RouteEntry where
  dst : IpNet
  nextHopIp : BitVec 32
  nextHopPort : UInt16
  deriving DecidableEq, Repr

/-- `RouteTable`. -/
structure RouteTable where
  entries : List RouteEntry := []
  deriving DecidableEq, Repr

/-- `Vec::swap_remove` at the position between two parts. -/
def swapRemove {α : Type} (pre post : List α) : List α :=
  match post.getLast? with
  | none => pre
  | some last => pre ++ last :: post.dropLast

/-- `Vec::swap` of the first position with the one between two parts. -/
def swapFront {α : Type} (pre : List α) (x : α) (post : List α) : List α :=
  match pre with
  | [] => x :: post
  | first :: pre => x :: (pre ++ first :: post)

namespace RouteTable

/-- `RouteTable::set_route`. -/
def setRoute (t : RouteTable) (dst : IpNet) (nextHopIp : BitVec 32) (nextHopPort : UInt16) :
    RouteTable :=
  match firstMatch (fun e => e.dst == dst) t.entries with
  | some (pre, e, post) =>
    ⟨pre ++ { e with nextHopIp := nextHopIp, nextHopPort := nextHopPort } :: post⟩
  | none => ⟨t.entries ++ [⟨dst, nextHopIp, nextHopPort⟩]⟩

/-- `RouteTable::del_route`. -/
def delRoute (t : RouteTable) (dst : IpNet) : RouteTable × Bool :=
  match firstMatch (fun e => e.dst == dst) t.entries with
  | some (pre, _, post) => (⟨swapRemove pre post⟩, true)
  | none => (t, false)

/-- `RouteTable::find_route`. -/
def findRoute (t : RouteTable) (dstIp : BitVec 32) : RouteTable × Option (BitVec 32 × UInt16) :=
  match firstMatch (fun e => e.dst.ip == dstIp &&& e.dst.mask) t.entries with
  | some (pre, e, post) => (⟨swapFront pre e post⟩, some (e.nextHopIp, e.nextHopPort))
  | none => (t, none)

end RouteTable

/-- `netmask`. -/
def netmask (prefixLen : BitVec 32) : BitVec 32 :=
  let bits := (max 0 (min prefixLen.toInt 32)).toNat
  if bits = 0 then 0 else toBe (BitVec.allOnes 32 <<< (32 - bits))

/-! ## The proxy -/

/-- `process_cmd`, with what `recv` gives: nothing if it fails, and otherwise the bytes of
one packet.  The second component is the exit flag. -/
def processCmd (recv : Option (List UInt8)) (routes : RouteTable) (exitFlag : Bool) :
    RouteTable × Bool :=
  match recv with
  | none => (routes, exitFlag)
  | some packet =>
    let bytes := packet.take commandSize
    if bytes.length = 0 then (routes, true)
    else if bytes.length < commandSize then (routes, exitFlag)
    else
      let cmd := Command.fromBytes bytes
      let mask := netmask cmd.destNetLen
      if cmd.cmd = cmdSetRoute then
        (routes.setRoute ⟨cmd.destNet &&& mask, mask⟩ cmd.nextHopIp
          (UInt16.ofBitVec cmd.nextHopPort), exitFlag)
      else if cmd.cmd = cmdDelRoute then
        ((routes.delRoute ⟨cmd.destNet &&& mask, mask⟩).1, exitFlag)
      else if cmd.cmd = cmdStop then (routes, true)
      else (routes, exitFlag)

/-- The command of `UdpNetwork::set_route`, on a network with this port. -/
def setRouteCommand (port : BitVec 32) (dst : IP4Net) (nextHopIp : IP4) : Command where
  cmd := cmdSetRoute
  destNet := dst.ip.networkOrder
  destNetLen := BitVec.ofNat 32 dst.prefixLen
  nextHopIp := nextHopIp.networkOrder
  nextHopPort := port.setWidth 16

/-- The command of `UdpNetwork::remove_route`. -/
def removeRouteCommand (dst : IP4Net) : Command where
  cmd := cmdDelRoute
  destNet := dst.ip.networkOrder
  destNetLen := BitVec.ofNat 32 dst.prefixLen
  nextHopIp := 0
  nextHopPort := 0

end Flannel
