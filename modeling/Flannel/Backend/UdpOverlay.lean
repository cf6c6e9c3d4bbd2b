import Flannel.Backend.UdpChecksum
import Flannel.Backend.UdpProxy
import Flannel.Backend.UdpUnreachable
import Flannel.Lib.Run
import Mathlib.Algebra.BigOperators.Group.List.Basic

/-!
# The overlay of the UDP backend

`tun_to_udp` and `udp_to_tun` of `backend/udp/proxy.rs`, and the overlay that the proxies of
many nodes make together.  A packet that a host sends into its tunnel is read by the proxy,
aged by one, and sent in a datagram to the next hop; the proxy there ages it again and writes it
to its own tunnel, where the host keeps it or sends it on.  A packet without a route is
answered by an ICMP message.

Nothing in the proxy knows about other nodes, and nothing keeps their tables free of cycles:
a packet goes round for as long as its time to live allows.  This file has two results about
every run of such an overlay, whatever is in the tables and in the packets.  The traffic that
a packet causes is bounded.  And a packet on its way is the packet that was sent, aged by the
number of proxies and hosts it has passed.

The hosts are not flannel: which packets a host sends on, and what it makes of them, is a
parameter.  What the results rely on is `OverlayEnv.Documented`: a host forwards packets as a
router does, which takes one off the time to live, lets no packet go on that would expire by it,
and keeps the checksum in step.  `routed` is one that does.

A read gives at most as many bytes as the buffer has, one for each unit of the tunnel's MTU.
What is logged is left out, and so is a write that fails: it loses the packet, which a step of
the overlay can do at any time.
-/

namespace Flannel

open Bytes Run

namespace UdpProxy

open UdpPacket

/-! ## One packet at one proxy -/

/-- What a proxy writes. -/
inductive Written where
  | sock (pkt : List UInt8) (hopIp : BitVec 32) (hopPort : UInt16)
  | tun (pkt : List UInt8)
  deriving DecidableEq

/-- The packet that a read into a buffer of this size gives: nothing if it fails, or gives less
than a header. -/
def recvPacket (size : Nat) (read : Option (List UInt8)) : Option (List UInt8) :=
  match read with
  | none => none
  | some packet => if (packet.take size).length < iphdrLen then none else some (packet.take size)

/-- `tun_recv_packet`. -/
def tunRecvPacket (size : Nat) (read : Option (List UInt8)) : Option (List UInt8) :=
  recvPacket size read

/-- `sock_recv_packet`. -/
def sockRecvPacket (size : Nat) (read : Option (List UInt8)) : Option (List UInt8) :=
  recvPacket size read

/-- `tun_to_udp`, with what the read gives: the table it leaves, whether it was active, and what
it writes. -/
def tunToUdp (size : Nat) (tunIp : UInt32) (routes : RouteTable) (read : Option (List UInt8)) :
    Option (RouteTable × Bool × Option Written) :=
  match tunRecvPacket size read with
  | none => some (routes, false, none)
  | some pkt => do
    let daddr ← slice pkt 16 20
    match routes.findRoute (BitVec.ofNat 32 (ofNeBytes .little daddr)) with
    | (routes, none) =>
      let reply ← buildNetUnreachable .little pkt tunIp
      return (routes, true, reply.map .tun)
    | (routes, some (hopIp, hopPort)) =>
      let (kept, pkt) ← decrementTtl .little pkt
      return (routes, true, if kept then some (.sock pkt hopIp hopPort) else none)

/-- `udp_to_tun`. -/
def udpToTun (size : Nat) (read : Option (List UInt8)) : Option (Bool × Option Written) :=
  match sockRecvPacket size read with
  | none => some (false, none)
  | some pkt => do
    let (kept, pkt) ← decrementTtl .little pkt
    return (true, if kept then some (.tun pkt) else none)

/-! ## Ageing -/

/-- The packet that `decrement_ttl` leaves. -/
def decremented (pkt : List UInt8) : List UInt8 :=
  match decrementTtl .little pkt with
  | some (_, pkt) => pkt
  | none => pkt

/-- The time to live of a packet. -/
def ttl (pkt : List UInt8) : UInt8 := pkt.getD 8 0

/-- The sum of the words of a header, options apart, which its checksum makes the largest one. -/
def headerSum (pkt : List UInt8) : Nat := OnesComplement.sum (beWords (pkt.take iphdrLen))

theorem ttl_append {pkt : List UInt8} (h : iphdrLen ≤ pkt.length) (rest : List UInt8) :
    ttl (pkt ++ rest) = ttl pkt := by
  have h8 : 8 < pkt.length := Nat.lt_of_lt_of_le (by decide) h
  rw [ttl, ttl, List.getD_eq_getElem?_getD, List.getD_eq_getElem?_getD,
    List.getElem?_append_left h8]

theorem headerSum_append {pkt : List UInt8} (h : iphdrLen ≤ pkt.length) (rest : List UInt8) :
    headerSum (pkt ++ rest) = headerSum pkt := by
  rw [headerSum, headerSum, List.take_append_of_le_length h]

/-- A packet with its first bytes written out. -/
theorem exists_fields {pkt : List UInt8} (h : iphdrLen ≤ pkt.length) :
    ∃ front proto high low rest, front.length = 8 ∧
      pkt = front ++ (ttl pkt :: proto :: high :: low :: rest) := by
  refine exists_header h ?_
  exact getElem?_eq_getD (Nat.lt_of_lt_of_le (by decide) h)

/-- The bytes that `decrement_ttl` writes in the place of a checksum. -/
def checkBytes (high low : UInt8) : List UInt8 :=
  neBytes .little 2 (patchedCheck .little (ofNeBytes .little [high, low]))

theorem decremented_eq {front : List UInt8} (hfront : front.length = 8)
    (ttl proto high low : UInt8) (rest : List UInt8) :
    decremented (front ++ (ttl :: proto :: high :: low :: rest)) =
      if ttl - 1 = 0 then front ++ (ttl - 1) :: proto :: high :: low :: rest
      else front ++ ((ttl - 1) :: proto :: (checkBytes high low ++ rest)) := by
  rw [decremented, decrementTtl_eq .little ttl proto high low hfront rest]
  by_cases h : ttl - 1 = 0
  · rw [if_pos h, if_pos h]
  · rw [if_neg h, if_neg h]
    rfl

/-- **`decrement_ttl` on a packet with a header.** -/
theorem decrementTtl_of_length {pkt : List UInt8} (h : iphdrLen ≤ pkt.length) :
    decrementTtl .little pkt = some (decide (ttl pkt - 1 ≠ 0), decremented pkt) := by
  obtain ⟨front, proto, high, low, rest, hfront, hpkt⟩ := exists_fields h
  have heq := decrementTtl_eq .little (ttl pkt) proto high low hfront rest
  rw [← hpkt] at heq
  rw [decremented, heq]
  by_cases hzero : ttl pkt - 1 = 0
  · simp [hzero]
  · simp [hzero]

/-- What `decrement_ttl` leaves alone: it changes the time to live and the checksum, by what the
header says and not the payload. -/
theorem exists_decremented {front : List UInt8} (hfront : front.length = 8)
    (ttl proto high low : UInt8) :
    ∃ c d, ∀ rest, decremented (front ++ (ttl :: proto :: high :: low :: rest)) =
      front ++ ((ttl - 1) :: proto :: c :: d :: rest) := by
  obtain ⟨c, d, hcheck⟩ := List.length_eq_two.mp
    (show (checkBytes high low).length = 2 from length_neBytes .little 2 _)
  by_cases h : ttl - 1 = 0
  · exact ⟨high, low, fun rest => by rw [decremented_eq hfront, if_pos h]⟩
  · refine ⟨c, d, fun rest => ?_⟩
    rw [decremented_eq hfront, if_neg h, hcheck]
    rfl

theorem toNat_sub_one {b : UInt8} (h : 1 ≤ b.toNat) : (b - 1).toNat + 1 = b.toNat := by
  have hsub : (b - 1).toNat = b.toNat - 1 :=
    UInt8.toNat_sub_of_le _ _ (UInt8.le_iff_toNat_le.mpr h)
  omega

/-- A time to live of two or more does not run out. -/
theorem sub_one_ne_zero {b : UInt8} (h : 2 ≤ b.toNat) : b - 1 ≠ 0 := by
  intro hzero
  have hnat := toNat_sub_one (Nat.le_of_succ_le h)
  rw [hzero, UInt8.toNat_zero] at hnat
  omega

section Decremented

variable {pkt : List UInt8} (h : iphdrLen ≤ pkt.length)

include h

theorem length_decremented : (decremented pkt).length = pkt.length := by
  obtain ⟨front, proto, high, low, rest, hfront, hpkt⟩ := exists_fields h
  obtain ⟨c, d, heq⟩ := exists_decremented hfront (ttl pkt) proto high low
  rw [hpkt, heq]
  simp

theorem ttl_decremented : ttl (decremented pkt) = ttl pkt - 1 := by
  obtain ⟨front, proto, high, low, rest, hfront, hpkt⟩ := exists_fields h
  obtain ⟨c, d, heq⟩ := exists_decremented hfront (ttl pkt) proto high low
  have hdec : decremented pkt = front ++ ((ttl pkt - 1) :: proto :: c :: d :: rest) :=
    (congrArg decremented hpkt).trans (heq rest)
  rw [ttl, hdec, List.getD_eq_getElem?_getD, getElem?_front hfront _ 0]
  rfl

theorem getElem?_decremented {i : Nat} (h8 : i ≠ 8) (h10 : i ≠ 10) (h11 : i ≠ 11) :
    (decremented pkt)[i]? = pkt[i]? := by
  obtain ⟨front, proto, high, low, rest, hfront, hpkt⟩ := exists_fields h
  obtain ⟨c, d, heq⟩ := exists_decremented hfront (ttl pkt) proto high low
  rw [hpkt, heq]
  exact getElem?_patched hfront _ _ _ _ _ _ _ _ h8 h10 h11

/-- What lies behind the header does not matter. -/
theorem decremented_append (payload : List UInt8) :
    decremented (pkt ++ payload) = decremented pkt ++ payload := by
  obtain ⟨front, proto, high, low, rest, hfront, hpkt⟩ := exists_fields h
  obtain ⟨c, d, heq⟩ := exists_decremented hfront (ttl pkt) proto high low
  have hsplit : pkt ++ payload =
      front ++ (ttl pkt :: proto :: high :: low :: (rest ++ payload)) := by
    simpa using congrArg (· ++ payload) hpkt
  have hdec := heq rest
  rw [← hpkt] at hdec
  rw [hsplit, heq, hdec]
  simp

theorem decremented_take {m : Nat} (hm : iphdrLen ≤ m) :
    decremented (pkt.take m) = (decremented pkt).take m := by
  by_cases hle : m ≤ pkt.length
  · have htake : iphdrLen ≤ (pkt.take m).length := by
      rw [List.length_take_of_le hle]
      exact hm
    have happend := decremented_append htake (pkt.drop m)
    rw [List.take_append_drop] at happend
    rw [happend, List.take_left']
    rw [length_decremented htake, List.length_take_of_le hle]
  · have hlt : pkt.length ≤ m := Nat.le_of_not_le hle
    have hlt' : (decremented pkt).length ≤ m := by
      rw [length_decremented h]
      exact hlt
    rw [List.take_of_length_le hlt, List.take_of_length_le hlt']

/-- A packet that does not expire keeps the sum of its words. -/
theorem sum_decremented (httl : 2 ≤ (ttl pkt).toNat) :
    OnesComplement.sum (beWords (decremented pkt)) = OnesComplement.sum (beWords pkt) := by
  obtain ⟨front, proto, high, low, rest, hfront, hpkt⟩ := exists_fields h
  have hnat := toNat_sub_one (Nat.le_of_succ_le httl)
  have heq := decremented_eq hfront (ttl pkt) proto high low rest
  rw [← hpkt, if_neg (sub_one_ne_zero httl)] at heq
  conv_rhs => rw [hpkt]
  rw [heq]
  exact sum_patched .little hfront hnat (by omega)

theorem headerSum_decremented (httl : 2 ≤ (ttl pkt).toNat) :
    headerSum (decremented pkt) = headerSum pkt := by
  have hlen : iphdrLen ≤ (pkt.take iphdrLen).length := by
    rw [List.length_take_of_le h]
  have hfront : ttl (pkt.take iphdrLen) = ttl pkt := by
    have happend := ttl_append hlen (pkt.drop iphdrLen)
    rw [List.take_append_drop] at happend
    exact happend.symm
  rw [headerSum, ← decremented_take h (Nat.le_refl _)]
  exact sum_decremented hlen (hfront ▸ httl)

end Decremented

/-- `pkt'` is the packet `pkt`, one hop older.  A time to live of zero wraps round, and the
checksum is then no longer in step. -/
structure OneHop (pkt pkt' : List UInt8) : Prop where
  header : iphdrLen ≤ pkt.length
  alive : ttl pkt - 1 ≠ 0
  length : pkt'.length = pkt.length
  lower : ttl pkt' = ttl pkt - 1
  same : ∀ i, i ≠ 8 → i ≠ 10 → i ≠ 11 → pkt'[i]? = pkt[i]?
  sum : 1 ≤ (ttl pkt).toNat → headerSum pkt' = headerSum pkt

/-- **What `decrement_ttl` keeps is one hop older.** -/
theorem oneHop_decremented {pkt : List UInt8} (h : iphdrLen ≤ pkt.length)
    (halive : ttl pkt - 1 ≠ 0) : OneHop pkt (decremented pkt) where
  header := h
  alive := halive
  length := length_decremented h
  lower := ttl_decremented h
  same := fun _ => getElem?_decremented h
  sum := by
    intro hone
    refine headerSum_decremented h ?_
    have hnat := toNat_sub_one hone
    have hpos : (ttl pkt - 1).toNat ≠ 0 := fun hzero => halive (UInt8.toNat_inj.mp hzero)
    omega

/-- `pkt'` is the packet `pkt`, older by so many hops. -/
structure Aged (n : Nat) (pkt pkt' : List UInt8) : Prop where
  length : pkt'.length = pkt.length
  lower : 1 ≤ (ttl pkt).toNat → (ttl pkt').toNat + n = (ttl pkt).toNat
  alive : 1 ≤ (ttl pkt).toNat → 1 ≤ (ttl pkt').toNat
  same : ∀ i, i ≠ 8 → i ≠ 10 → i ≠ 11 → pkt'[i]? = pkt[i]?
  sum : 1 ≤ (ttl pkt).toNat → headerSum pkt' = headerSum pkt

theorem Aged.refl (pkt : List UInt8) : Aged 0 pkt pkt :=
  ⟨rfl, fun _ => rfl, id, fun _ _ _ _ => rfl, fun _ => rfl⟩

theorem Aged.trans {m n : Nat} {pkt pkt' pkt'' : List UInt8} (h : Aged m pkt pkt')
    (h' : Aged n pkt' pkt'') : Aged (m + n) pkt pkt'' where
  length := h'.length.trans h.length
  lower := by
    intro hone
    have hfirst := h.lower hone
    have hsecond := h'.lower (h.alive hone)
    omega
  alive := fun hone => h'.alive (h.alive hone)
  same := fun i h8 h10 h11 => (h'.same i h8 h10 h11).trans (h.same i h8 h10 h11)
  sum := fun hone => (h'.sum (h.alive hone)).trans (h.sum hone)

/-- What lies behind the part of a packet that makes the hop does not matter. -/
theorem OneHop.aged_append {pkt pkt' : List UInt8} (h : OneHop pkt pkt') (rest : List UInt8) :
    Aged 1 (pkt ++ rest) (pkt' ++ rest) := by
  have hheader : iphdrLen ≤ pkt'.length := by
    rw [h.length]
    exact h.header
  have hpos : 1 ≤ (ttl pkt - 1).toNat :=
    Nat.pos_of_ne_zero fun hzero => h.alive (UInt8.toNat_inj.mp hzero)
  constructor
  · rw [List.length_append, List.length_append, h.length]
  · intro hone
    rw [ttl_append h.header] at hone ⊢
    rw [ttl_append hheader, h.lower]
    exact toNat_sub_one hone
  · intro _
    rw [ttl_append hheader, h.lower]
    exact hpos
  · intro i h8 h10 h11
    rw [List.getElem?_append, List.getElem?_append, h.length, h.same i h8 h10 h11]
  · intro hone
    rw [ttl_append h.header] at hone
    rw [headerSum_append hheader, headerSum_append h.header, h.sum hone]

/-- The sum of a beginning of a packet is that of its header and of what follows. -/
theorem sum_take {pkt : List UInt8} (h : iphdrLen ≤ pkt.length) {k : Nat} (hk : iphdrLen ≤ k) :
    OnesComplement.sum (beWords (pkt.take k)) = OnesComplement.rep
      (wordSum (pkt.take iphdrLen) + wordSum ((pkt.drop iphdrLen).take (k - iphdrLen))) := by
  have hcut : pkt.take k = pkt.take iphdrLen ++ (pkt.drop iphdrLen).take (k - iphdrLen) := by
    conv_lhs => rw [← Nat.add_sub_of_le hk, List.take_add]
  rw [sum_beWords, hcut, wordSum_append]
  rw [List.length_take_of_le h]
  rfl

section Aged

variable {n : Nat} {pkt pkt' : List UInt8} (h : Aged n pkt pkt')

include h

/-- A packet keeps what lies behind its header. -/
theorem Aged.drop_eq {k : Nat} (hk : iphdrLen ≤ k) : pkt'.drop k = pkt.drop k := by
  have h20 : 20 ≤ k := hk
  refine List.ext_getElem? fun i => ?_
  rw [List.getElem?_drop, List.getElem?_drop]
  exact h.same (k + i) (by omega) (by omega) (by omega)

/-- **A valid header stays valid**, however long it is. -/
theorem Aged.validChecksum {k : Nat} (hk : iphdrLen ≤ k) (hlen : iphdrLen ≤ pkt.length)
    (hone : 1 ≤ (ttl pkt).toNat) (hvalid : ValidChecksum (pkt.take k)) :
    ValidChecksum (pkt'.take k) := by
  have hlen' : iphdrLen ≤ pkt'.length := by
    rw [h.length]
    exact hlen
  have hsum : OnesComplement.rep (wordSum (pkt'.take iphdrLen)) =
      OnesComplement.rep (wordSum (pkt.take iphdrLen)) := by
    rw [← sum_beWords, ← sum_beWords]
    exact h.sum hone
  rw [ValidChecksum, sum_take hlen hk] at hvalid
  rw [ValidChecksum, sum_take hlen' hk, h.drop_eq (Nat.le_refl _), ← hvalid]
  exact OnesComplement.rep_add_congr hsum _

end Aged

/-! ## What a proxy does with a packet -/

theorem recvPacket_some {size : Nat} {packet pkt : List UInt8}
    (h : recvPacket size (some packet) = some pkt) :
    pkt = packet.take size ∧ iphdrLen ≤ pkt.length := by
  rw [recvPacket] at h
  split at h
  · cases h
  · rename_i hlen
    cases h
    exact ⟨rfl, Nat.le_of_not_lt hlen⟩

/-- A reply is an ICMP message with a time to live of eight, to a packet that is none. -/
theorem buildNetUnreachable_reply {offender : List UInt8} {tunIp : UInt32} :
    ∃ reply, buildNetUnreachable .little offender tunIp = some reply ∧
      ∀ pkt ∈ reply, iphdrLen ≤ pkt.length ∧ ttl pkt = 8 ∧ pkt.getD 9 0 = protoIcmp ∧
        offender.getD 9 0 ≠ protoIcmp := by
  rw [buildNetUnreachable_eq]
  by_cases h : Answered offender
  · rw [if_pos h]
    obtain ⟨hlen, hmax, hproto, -, hquoted⟩ := id h
    obtain ⟨header, icmp, hfill, ⟨ipCheck, rfl⟩, ⟨icmpCheck, rfl⟩, -, -⟩ :=
      exists_fillNetUnreachable .little tunIp hlen (by omega) hmax hquoted
    rw [hfill]
    refine ⟨_, rfl, fun pkt hpkt => ?_⟩
    cases hpkt
    obtain ⟨a, b, hbytes⟩ := List.length_eq_two.mp (length_beBytes 2 (28 + 4 * ihl offender + 8))
    refine ⟨?_, ?_, ?_, hproto⟩
    · rw [List.length_append,
        length_replyHeader (length_neBytes _ _ _) (length_byteRange (by omega))]
      exact Nat.le_add_right _ _
    · simp [ttl, replyHeader, hbytes]
    · simp [replyHeader, hbytes]
  · rw [if_neg h]
    exact ⟨none, rfl, fun pkt hpkt => by cases hpkt⟩

/-- The next hop of a packet. -/
def hopOf (routes : RouteTable) (pkt : List UInt8) : Option (BitVec 32 × UInt16) :=
  (routes.findRoute (BitVec.ofNat 32 (ofNeBytes .little (byteRange pkt 16 20)))).2

/-- **What `tun_to_udp` does with a packet.**  It never reads or writes out of range.  What it
writes is the packet aged by one, for the next hop, or the reply to it. -/
theorem tunToUdp_spec (size : Nat) (tunIp : UInt32) (routes : RouteTable) (packet : List UInt8) :
    ∃ routes' active out, tunToUdp size tunIp routes (some packet) = some (routes', active, out) ∧
      ∀ written ∈ out, iphdrLen ≤ (packet.take size).length ∧
        ((∃ hopIp hopPort, hopOf routes (packet.take size) = some (hopIp, hopPort) ∧
            ttl (packet.take size) - 1 ≠ 0 ∧
            written = .sock (decremented (packet.take size)) hopIp hopPort) ∨
          ∃ reply, buildNetUnreachable .little (packet.take size) tunIp = some (some reply) ∧
            written = .tun reply) := by
  cases hrecv : recvPacket size (some packet) with
  | none => exact ⟨routes, false, none, by simp [tunToUdp, tunRecvPacket, hrecv], by simp⟩
  | some pkt =>
    obtain ⟨rfl, hlen⟩ := recvPacket_some hrecv
    have hslice : slice (packet.take size) 16 20 = some (byteRange (packet.take size) 16 20) :=
      slice_eq (by decide) hlen
    cases hfind : routes.findRoute
        (BitVec.ofNat 32 (ofNeBytes .little (byteRange (packet.take size) 16 20))) with
    | mk routes' hop =>
      cases hop with
      | none =>
        obtain ⟨reply, hreply, -⟩ := @buildNetUnreachable_reply (packet.take size) tunIp
        refine ⟨routes', true, reply.map .tun, ?_, fun written hw => ⟨hlen, Or.inr ?_⟩⟩
        · simp [tunToUdp, tunRecvPacket, hrecv, hslice, hfind, hreply]
        · obtain ⟨pkt, rfl, rfl⟩ := Option.map_eq_some_iff.mp hw
          exact ⟨pkt, hreply, rfl⟩
      | some hop =>
        obtain ⟨hopIp, hopPort⟩ := hop
        have hdec := decrementTtl_of_length hlen
        refine ⟨routes', true, if ttl (packet.take size) - 1 ≠ 0 then
          some (.sock (decremented (packet.take size)) hopIp hopPort) else none, ?_,
          fun written hw => ⟨hlen, Or.inl ⟨hopIp, hopPort, by simp [hopOf, hfind], ?_⟩⟩⟩
        · simp [tunToUdp, tunRecvPacket, hrecv, hslice, hfind, hdec]
        · obtain ⟨hne, heq⟩ := Option.ite_none_right_eq_some.mp hw
          cases heq
          exact ⟨hne, rfl⟩

/-- **What `udp_to_tun` does with a packet.** -/
theorem udpToTun_spec (size : Nat) (packet : List UInt8) :
    ∃ active out, udpToTun size (some packet) = some (active, out) ∧
      ∀ written ∈ out, iphdrLen ≤ (packet.take size).length ∧ ttl (packet.take size) - 1 ≠ 0 ∧
        written = .tun (decremented (packet.take size)) := by
  cases hrecv : recvPacket size (some packet) with
  | none => exact ⟨false, none, by simp [udpToTun, sockRecvPacket, hrecv], by simp⟩
  | some pkt =>
    obtain ⟨rfl, hlen⟩ := recvPacket_some hrecv
    have hdec := decrementTtl_of_length hlen
    refine ⟨true, if ttl (packet.take size) - 1 ≠ 0 then
      some (.tun (decremented (packet.take size))) else none, ?_, fun written hw => ⟨hlen, ?_⟩⟩
    · simp [udpToTun, sockRecvPacket, hrecv, hdec]
    · obtain ⟨hne, heq⟩ := Option.ite_none_right_eq_some.mp hw
      cases heq
      exact ⟨hne, rfl⟩

end UdpProxy

open UdpPacket UdpProxy

/-! ## The overlay -/

/-- What does not change: the MTU and the address of every node's tunnel, which node a datagram to
an address and a port comes to, if any, and what a host sends on of a packet, if anything. -/
structure OverlayEnv (ι : Type*) where
  mtu : ι → Nat
  tunIp : ι → UInt32
  locate : BitVec 32 → UInt16 → Option ι
  forward : ι → List UInt8 → Option (List UInt8)

/-- What a host that forwards packets promises. -/
structure OverlayEnv.Documented {ι : Type*} (env : OverlayEnv ι) : Prop where
  /-- what is too short for a packet, or would expire, does not go on -/
  alive : ∀ {i : ι} {pkt pkt' : List UInt8}, env.forward i pkt = some pkt' →
    iphdrLen ≤ pkt.length ∧ 2 ≤ (ttl pkt).toNat
  /-- a hop takes one off the time to live -/
  lower : ∀ {i : ι} {pkt pkt' : List UInt8}, env.forward i pkt = some pkt' →
    ttl pkt' = ttl pkt - 1
  /-- and changes no more but the checksum -/
  same : ∀ {i : ι} {pkt pkt' : List UInt8}, env.forward i pkt = some pkt' →
    pkt'.length = pkt.length ∧ ∀ j, j ≠ 8 → j ≠ 10 → j ≠ 11 → pkt'[j]? = pkt[j]?
  /-- which is brought in step -/
  sum : ∀ {i : ι} {pkt pkt' : List UInt8}, env.forward i pkt = some pkt' →
    headerSum pkt' = headerSum pkt

theorem OverlayEnv.Documented.oneHop {ι : Type*} {env : OverlayEnv ι} (hosts : env.Documented)
    {i : ι} {pkt pkt' : List UInt8} (h : env.forward i pkt = some pkt') : OneHop pkt pkt' where
  header := (hosts.alive h).1
  alive := sub_one_ne_zero (hosts.alive h).2
  length := (hosts.same h).1
  lower := hosts.lower h
  same := (hosts.same h).2
  sum := fun _ => hosts.sum h

/-- A host that forwards what it can. -/
def routed (pkt : List UInt8) : Option (List UInt8) :=
  if iphdrLen ≤ pkt.length ∧ 2 ≤ (ttl pkt).toNat then some (decremented pkt) else none

theorem documented_routed {ι : Type*} (mtu : ι → Nat) (tunIp : ι → UInt32)
    (locate : BitVec 32 → UInt16 → Option ι) :
    (⟨mtu, tunIp, locate, fun _ => routed⟩ : OverlayEnv ι).Documented := by
  have hroute : ∀ {pkt pkt' : List UInt8}, routed pkt = some pkt' →
      (iphdrLen ≤ pkt.length ∧ 2 ≤ (ttl pkt).toNat) ∧ OneHop pkt pkt' := by
    intro pkt pkt' h
    obtain ⟨hcond, heq⟩ := Option.ite_none_right_eq_some.mp h
    cases heq
    exact ⟨hcond, oneHop_decremented hcond.1 (sub_one_ne_zero hcond.2)⟩
  constructor
  · exact fun h => (hroute h).1
  · exact fun h => (hroute h).2.lower
  · exact fun h => ⟨(hroute h).2.length, (hroute h).2.same⟩
  · exact fun h => (hroute h).2.sum (Nat.le_of_succ_le (hroute h).1.2)

/-- Where a packet can be at a node: in the tunnel for the proxy to read, in the proxy's socket,
or in the host. -/
inductive Place where
  | tun
  | sock
  | host
  deriving DecidableEq

/-- A packet on its way, with the packet it was when it set out, and how often it has been
passed on since. -/
structure Traveller (ι : Type*) where
  origin : List UInt8
  passes : Nat
  node : ι
  place : Place
  pkt : List UInt8

/-- The proxies of all nodes --- their tables and exit flags --- and the packets on their way. -/
structure Overlay (ι : Type*) where
  proxies : ι → RouteTable × Bool
  air : List (Traveller ι)

/-- What can happen in the overlay. -/
inductive OverlayAction (ι : Type*) where
  /-- a packet comes in from outside -/
  | inject (node : ι) (place : Place) (pkt : List UInt8)
  /-- a proxy reads the `k`-th packet -/
  | pass (k : Nat)
  /-- the host sends the `k`-th packet on, into its tunnel -/
  | forward (k : Nat)
  /-- the `k`-th packet is lost, or has arrived -/
  | lose (k : Nat)
  /-- a proxy reads from its control socket -/
  | command (node : ι) (recv : Option (List UInt8))

namespace Overlay

variable {ι : Type*}

/-- Where what a proxy writes comes to.  To the tunnel it writes a packet from its socket, or
a reply, which sets out then. -/
def arrival (env : OverlayEnv ι) (t : Traveller ι) : Option Written → Option (Traveller ι)
  | none => none
  | some (.sock pkt hopIp hopPort) =>
    (env.locate hopIp hopPort).map fun node => ⟨t.origin, t.passes + 1, node, .sock, pkt⟩
  | some (.tun pkt) =>
    match t.place with
    | .sock => some ⟨t.origin, t.passes + 1, t.node, .host, pkt⟩
    | _ => some ⟨pkt, 0, t.node, .host, pkt⟩

/-- What an action does; `none` when it cannot happen in this state. -/
def step [DecidableEq ι] (env : OverlayEnv ι) (o : Overlay ι) :
    OverlayAction ι → Option (Overlay ι)
  | .inject node place pkt => some { o with air := o.air ++ [⟨pkt, 0, node, place, pkt⟩] }
  | .pass k =>
    (o.air[k]?).bind fun t =>
      match t.place with
      | .tun =>
        (tunToUdp (env.mtu t.node) (env.tunIp t.node) (o.proxies t.node).1 (some t.pkt)).map
          fun r => {
            proxies := Function.update o.proxies t.node (r.1, (o.proxies t.node).2)
            air := o.air.eraseIdx k ++ (arrival env t r.2.2).toList }
      | .sock =>
        (udpToTun (env.mtu t.node) (some t.pkt)).map fun r =>
          { o with air := o.air.eraseIdx k ++ (arrival env t r.2).toList }
      | .host => none
  | .forward k =>
    (o.air[k]?).bind fun t =>
      if t.place = .host then
        (env.forward t.node t.pkt).map fun pkt => { o with
          air := o.air.eraseIdx k ++ [⟨t.origin, t.passes + 1, t.node, .tun, pkt⟩] }
      else
        none
  | .lose k => (o.air[k]?).map fun _ => { o with air := o.air.eraseIdx k }
  | .command node recv =>
    some { o with
      proxies := Function.update o.proxies node
        (processCmd recv (o.proxies node).1 (o.proxies node).2) }

/-! ## What one step does to the packets -/

/-- What becomes of a packet when it is passed on: it is aged, after it was cut to the size of a
buffer, or it is answered. -/
inductive Moved (env : OverlayEnv ι) (t : Traveller ι) : Traveller ι → Prop
  | aged {size : Nat} {node : ι} {place : Place} {pkt : List UInt8}
      (hsize : size = t.pkt.length ∨ ∃ i, size = env.mtu i)
      (hhop : OneHop (t.pkt.take size) pkt) :
      Moved env t ⟨t.origin, t.passes + 1, node, place, pkt⟩
  | answered {size : Nat} {i : ι} {reply : List UInt8}
      (hlen : iphdrLen ≤ (t.pkt.take size).length)
      (hreply : buildNetUnreachable .little (t.pkt.take size) (env.tunIp i) = some (some reply)) :
      Moved env t ⟨reply, 0, t.node, .host, reply⟩

/-- How a step changes the packets. -/
inductive AirMove (env : OverlayEnv ι) (o o' : Overlay ι) : OverlayAction ι → Prop
  | injected {node : ι} {place : Place} {pkt : List UInt8}
      (hair : o'.air = o.air ++ [⟨pkt, 0, node, place, pkt⟩]) :
      AirMove env o o' (.inject node place pkt)
  | passed {k : Nat} {t : Traveller ι} {next : Option (Traveller ι)} (hk : o.air[k]? = some t)
      (hnext : ∀ u ∈ next, Moved env t u) (hair : o'.air = o.air.eraseIdx k ++ next.toList) :
      AirMove env o o' (.pass k)
  | forwarded {k : Nat} {t u : Traveller ι} (hk : o.air[k]? = some t) (hnext : Moved env t u)
      (hair : o'.air = o.air.eraseIdx k ++ [u]) : AirMove env o o' (.forward k)
  | lost {k : Nat} {t : Traveller ι} (hk : o.air[k]? = some t)
      (hair : o'.air = o.air.eraseIdx k) : AirMove env o o' (.lose k)
  | commanded {node : ι} {recv : Option (List UInt8)} (hair : o'.air = o.air) :
      AirMove env o o' (.command node recv)

/-- **Every step is such a change.** -/
theorem airMove_of_step [DecidableEq ι] {env : OverlayEnv ι} (hosts : env.Documented)
    {o o' : Overlay ι} {a : OverlayAction ι} (h : step env o a = some o') :
    AirMove env o o' a := by
  cases a with
  | inject node place pkt =>
    cases h
    exact .injected rfl
  | pass k =>
    obtain ⟨t, ht, heq⟩ := Option.bind_eq_some_iff.mp h
    cases hplace : t.place with
    | tun =>
      rw [hplace] at heq
      obtain ⟨r, hr, rfl⟩ := Option.map_eq_some_iff.mp heq
      obtain ⟨routes', active, out, hspec, hout⟩ :=
        tunToUdp_spec (env.mtu t.node) (env.tunIp t.node) (o.proxies t.node).1 t.pkt
      rw [hspec] at hr
      cases hr
      refine .passed ht (fun u hu => ?_) rfl
      cases out with
      | none => cases hu
      | some written =>
        obtain ⟨hlen, ⟨hopIp, hopPort, -, hlive, rfl⟩ | ⟨reply, hreply, rfl⟩⟩ := hout written rfl
        · obtain ⟨node, -, rfl⟩ := Option.map_eq_some_iff.mp hu
          exact .aged (Or.inr ⟨t.node, rfl⟩) (oneHop_decremented hlen hlive)
        · rw [arrival, hplace] at hu
          cases hu
          exact .answered hlen hreply
    | sock =>
      rw [hplace] at heq
      obtain ⟨r, hr, rfl⟩ := Option.map_eq_some_iff.mp heq
      obtain ⟨active, out, hspec, hout⟩ := udpToTun_spec (env.mtu t.node) t.pkt
      rw [hspec] at hr
      cases hr
      refine .passed ht (fun u hu => ?_) rfl
      cases out with
      | none => cases hu
      | some written =>
        obtain ⟨hlen, hlive, rfl⟩ := hout written rfl
        rw [arrival, hplace] at hu
        cases hu
        exact .aged (Or.inr ⟨t.node, rfl⟩) (oneHop_decremented hlen hlive)
    | host =>
      rw [hplace] at heq
      cases heq
  | forward k =>
    obtain ⟨t, ht, heq⟩ := Option.bind_eq_some_iff.mp h
    obtain ⟨-, heq⟩ := Option.ite_none_right_eq_some.mp heq
    obtain ⟨pkt, hpkt, rfl⟩ := Option.map_eq_some_iff.mp heq
    refine .forwarded ht (.aged (Or.inl rfl) ?_) rfl
    rw [List.take_length]
    exact hosts.oneHop hpkt
  | lose k =>
    obtain ⟨t, ht, rfl⟩ := Option.map_eq_some_iff.mp h
    exact .lost ht rfl
  | command node recv =>
    cases h
    exact .commanded rfl

/-! ## The traffic that a packet causes -/

/-- How often a packet can still be passed on; a time to live of zero wraps round. -/
def life (pkt : List UInt8) : Nat := if ttl pkt = 0 then 256 else (ttl pkt).toNat

/-- What a packet can still cause: its own passes, and those of the reply to it. -/
def energy (pkt : List UInt8) : Nat := life pkt + if pkt.getD 9 0 = protoIcmp then 0 else 9

theorem life_pos (pkt : List UInt8) : 1 ≤ life pkt := by
  unfold life
  split
  · decide
  · rename_i h
    exact Nat.pos_of_ne_zero fun hzero => h (UInt8.toNat_inj.mp hzero)

theorem energy_pos (pkt : List UInt8) : 1 ≤ energy pkt :=
  Nat.le_trans (life_pos pkt) (Nat.le_add_right _ _)

theorem energy_le (pkt : List UInt8) : energy pkt ≤ 265 := by
  have hbyte := UInt8.toNat_lt (ttl pkt)
  unfold energy life
  split
  · split
    · decide
    · decide
  · split
    · omega
    · omega

/-- A hop takes one off the life of a packet. -/
theorem life_oneHop {pkt pkt' : List UInt8} (h : OneHop pkt pkt') :
    life pkt' + 1 = life pkt := by
  unfold life
  rw [h.lower, if_neg h.alive]
  split
  · rename_i hzero
    rw [hzero]
    decide
  · rename_i hne
    exact toNat_sub_one (Nat.pos_of_ne_zero fun hzero => hne (UInt8.toNat_inj.mp hzero))

theorem getD_take {pkt : List UInt8} {size i : Nat} (h : i < (pkt.take size).length) :
    (pkt.take size).getD i 0 = pkt.getD i 0 := by
  rw [List.length_take, Nat.lt_min] at h
  rw [List.getD_eq_getElem?_getD, List.getD_eq_getElem?_getD, List.getElem?_take_of_lt h.1]

/-- **Whatever becomes of a packet has less energy.** -/
theorem energy_moved {env : OverlayEnv ι} {t u : Traveller ι} (h : Moved env t u) :
    energy u.pkt + 1 ≤ energy t.pkt := by
  cases h with
  | @aged size node place pkt _ hhop =>
    have h20 : (20 : Nat) ≤ (t.pkt.take size).length := hhop.header
    have httl : ttl (t.pkt.take size) = ttl t.pkt := getD_take (by omega)
    have hproto : pkt.getD 9 0 = t.pkt.getD 9 0 := by
      rw [List.getD_eq_getElem?_getD, hhop.same 9 (by decide) (by decide) (by decide),
        ← List.getD_eq_getElem?_getD, getD_take (by omega)]
    have hlife := life_oneHop hhop
    have hsame : life (t.pkt.take size) = life t.pkt := by
      unfold life
      rw [httl]
    show energy pkt + 1 ≤ energy t.pkt
    unfold energy
    rw [hproto]
    omega
  | @answered size i reply hlen hreply =>
    obtain ⟨reply', hreply', hspec⟩ := @buildNetUnreachable_reply (t.pkt.take size) (env.tunIp i)
    rw [hreply] at hreply'
    cases hreply'
    obtain ⟨-, httl, hproto, hoffender⟩ := hspec reply rfl
    have h20 : (20 : Nat) ≤ (t.pkt.take size).length := hlen
    rw [getD_take (by omega)] at hoffender
    have hpos := life_pos t.pkt
    have height : life reply = 8 := by
      unfold life
      rw [httl]
      decide
    show energy reply + 1 ≤ energy t.pkt
    unfold energy
    rw [height, if_pos hproto, if_neg hoffender]
    omega

/-- What all packets on their way can still cause. -/
def potential (o : Overlay ι) : Nat := (o.air.map fun t => energy t.pkt).sum

/-- The steps in which a packet is passed on. -/
def isPass : OverlayAction ι → Bool
  | .pass _ => true
  | .forward _ => true
  | _ => false

/-- The steps in which a packet comes in. -/
def isInject : OverlayAction ι → Bool
  | .inject _ _ _ => true
  | _ => false

theorem sum_eraseIdx {air : List (Traveller ι)} {k : Nat} {t : Traveller ι}
    (h : air[k]? = some t) :
    energy t.pkt + ((air.eraseIdx k).map fun t => energy t.pkt).sum =
      (air.map fun t => energy t.pkt).sum := by
  obtain ⟨hlt, rfl⟩ := List.getElem?_eq_some_iff.mp h
  have hmap := List.add_sum_eraseIdx
    (show k < (air.map fun t => energy t.pkt).length by simpa using hlt)
    fun _ _ => Nat.add_comm _ _
  rwa [List.getElem_map, List.eraseIdx_map] at hmap

/-- **A pass costs energy, and only what comes in brings some.** -/
theorem potential_step [DecidableEq ι] {env : OverlayEnv ι} (hosts : env.Documented)
    {o o' : Overlay ι} {a : OverlayAction ι} (h : step env o a = some o') :
    potential o' + (if isPass a then 1 else 0) ≤ potential o + if isInject a then 265 else 0 := by
  cases airMove_of_step hosts h with
  | @injected node place pkt hair =>
    have hle := energy_le pkt
    simp [potential, hair, isPass, isInject]
    omega
  | @passed k t next hk hnext hair =>
    have hsum := sum_eraseIdx hk
    have hpos := energy_pos t.pkt
    unfold potential
    rw [hair, List.map_append, List.sum_append]
    cases next with
    | none =>
      simp [isPass, isInject]
      omega
    | some u =>
      have hu := energy_moved (hnext u rfl)
      simp [isPass, isInject]
      omega
  | @forwarded k t u hk hnext hair =>
    have hsum := sum_eraseIdx hk
    have hu := energy_moved hnext
    unfold potential
    rw [hair, List.map_append, List.sum_append]
    simp [isPass, isInject]
    omega
  | @lost k t hk hair =>
    have hsum := sum_eraseIdx hk
    unfold potential
    rw [hair]
    simp [isPass, isInject]
    omega
  | commanded hair =>
    unfold potential
    rw [hair]
    simp [isPass, isInject]

theorem potential_le (air : List (Traveller ι)) :
    (air.map fun t => energy t.pkt).sum ≤ 265 * air.length := by
  induction air with
  | nil => exact Nat.le_refl _
  | cons t air ih =>
    have hle := energy_le t.pkt
    simp only [List.map_cons, List.sum_cons, List.length_cons]
    omega

/-- **The overlay falls silent.**  In every run of an overlay of any number of nodes, whose hosts
forward as routers do, with any routes, commands and packets --- tables that send a packet round
in a circle, packets without a route and the replies to them, packets that are no packets --- the
number of times that a proxy or a host passes a packet on is at most 265 for each packet that was
on its way or came in. -/
theorem overlay_falls_silent [DecidableEq ι] (env : OverlayEnv ι) (hosts : env.Documented)
    {o o' : Overlay ι} {as : List (OverlayAction ι)} (h : run (step env) o as = some o') :
    as.countP isPass ≤ 265 * (o.air.length + as.countP isInject) := by
  have hpot : potential o' + as.countP isPass ≤ potential o + 265 * as.countP isInject :=
    run_potential (fun _ _ _ hst => potential_step hosts hst) h
  have hstart : potential o ≤ 265 * o.air.length := potential_le o.air
  omega

/-- Two nodes that send everything to each other. -/
def loopEnv : OverlayEnv Bool where
  mtu := fun _ => 1472
  tunIp := fun _ => 0x0a010000
  locate := fun hopIp _ => if hopIp = 1 then some true else if hopIp = 2 then some false else none
  forward := fun _ => routed

/-- Their tables, with a default route to the other one. -/
def loopProxies (node : Bool) : RouteTable × Bool :=
  (⟨[⟨⟨0, 0⟩, if node then 2 else 1, 8285⟩]⟩, false)

/-- The header of a packet with a time to live of 64. -/
def loopHeader : List UInt8 :=
  [0x45, 0, 0, 0x3c, 0x1c, 0x46, 0x40, 0, 0x40, 6, 0xb1, 0xe6, 0xac, 0x10, 0x0a, 0x63, 0xac, 0x10,
    0x0a, 0x0c]

/-- The packet goes to the other node, whose host sends it back into the tunnel. -/
def loopRun : List (OverlayAction Bool) :=
  [.inject false .tun (loopHeader ++ [7]), .pass 0, .pass 0, .forward 0, .pass 0]

/-- Where it is then. -/
def loopEnd : Overlay Bool :=
  (run (step loopEnv) ⟨loopProxies, []⟩ loopRun).getD ⟨loopProxies, []⟩

theorem run_loop : run (step loopEnv) ⟨loopProxies, []⟩ loopRun = some loopEnd := by
  rw [loopEnd]
  cases h : run (step loopEnv) ⟨loopProxies, []⟩ loopRun with
  | some o => rfl
  | none => exact absurd h (by decide)

theorem loopRun_falls_silent :
    run (step loopEnv) ⟨loopProxies, []⟩ loopRun = some loopEnd ∧
      loopRun.countP isPass ≤ 265 * (0 + loopRun.countP isInject) :=
  ⟨run_loop, overlay_falls_silent loopEnv (documented_routed _ _ _) run_loop⟩

/-! ## What becomes of a packet -/

/-- The packet is a beginning of the one that set out, aged by its passes --- all of it when it
fits into every buffer. -/
def Genuine (env : OverlayEnv ι) (t : Traveller ι) : Prop :=
  ∃ whole m, Aged t.passes t.origin whole ∧ t.pkt = whole.take m ∧
    ((∀ i, t.origin.length ≤ env.mtu i) → t.origin.length ≤ m)

theorem genuine_new (env : OverlayEnv ι) (pkt : List UInt8) (node : ι) (place : Place) :
    Genuine env ⟨pkt, 0, node, place, pkt⟩ :=
  ⟨pkt, pkt.length, Aged.refl pkt, List.take_length.symm, fun _ => Nat.le_refl _⟩

/-- **Whatever becomes of a packet is genuine again.** -/
theorem genuine_moved {env : OverlayEnv ι} {t u : Traveller ι} (h : Genuine env t)
    (hmoved : Moved env t u) : Genuine env u := by
  cases hmoved with
  | answered _ _ => exact genuine_new env _ _ _
  | @aged size node place pkt hsize hhop =>
    obtain ⟨whole, m, haged, hcut, hfits⟩ := h
    -- what was read is again a beginning of the aged packet; the rest is put back behind it
    have hread : t.pkt.take size = whole.take (min size m) := by
      rw [hcut, List.take_take]
    have hnext : Aged 1 whole (pkt ++ whole.drop (min size m)) := by
      have happend := hhop.aged_append (whole.drop (min size m))
      rwa [hread, List.take_append_drop] at happend
    refine ⟨pkt ++ whole.drop (min size m), pkt.length, haged.trans hnext, List.take_left.symm,
      fun hmtu => ?_⟩
    have hm : t.origin.length ≤ m := hfits hmtu
    show t.origin.length ≤ pkt.length
    rw [hhop.length, hread, List.length_take, haged.length]
    refine Nat.le_min.mpr ⟨Nat.le_min.mpr ⟨?_, hm⟩, Nat.le_refl _⟩
    rcases hsize with rfl | ⟨i, rfl⟩
    · rw [hcut, List.length_take, haged.length]
      exact Nat.le_min.mpr ⟨hm, Nat.le_refl _⟩
    · exact hmtu i

/-- Where a packet set out: it came in, or it is a reply. -/
def Sent (env : OverlayEnv ι) (as : List (OverlayAction ι)) (origin : List UInt8) : Prop :=
  (∃ node place, .inject node place origin ∈ as) ∨
    ∃ offender i, buildNetUnreachable .little offender (env.tunIp i) = some (some origin)

theorem sent_moved {env : OverlayEnv ι} {as : List (OverlayAction ι)} {t u : Traveller ι}
    (h : Sent env as t.origin) (hmoved : Moved env t u) : Sent env as u.origin := by
  cases hmoved with
  | answered _ hreply => exact Or.inr ⟨_, _, hreply⟩
  | aged _ _ => exact h

/-- Every packet on its way is genuine, and was sent. -/
def Faithful (env : OverlayEnv ι) (as : List (OverlayAction ι)) (o : Overlay ι) : Prop :=
  ∀ t ∈ o.air, Genuine env t ∧ Sent env as t.origin

theorem faithful_step [DecidableEq ι] {env : OverlayEnv ι} (hosts : env.Documented)
    {as : List (OverlayAction ι)} {o o' : Overlay ι} {a : OverlayAction ι}
    (h : Faithful env as o) (ha : a ∈ as) (hst : step env o a = some o') :
    Faithful env as o' := by
  have hold : ∀ k, ∀ t ∈ o.air.eraseIdx k, Genuine env t ∧ Sent env as t.origin :=
    fun k t ht => h t (List.mem_of_mem_eraseIdx ht)
  have hnext : ∀ {k : Nat} {t u : Traveller ι}, o.air[k]? = some t → Moved env t u →
      Genuine env u ∧ Sent env as u.origin := by
    intro k t u hk hmoved
    obtain ⟨hgenuine, hsent⟩ := h t (List.mem_of_getElem? hk)
    exact ⟨genuine_moved hgenuine hmoved, sent_moved hsent hmoved⟩
  intro u hu
  cases airMove_of_step hosts hst with
  | injected hair =>
    rw [hair, List.mem_append, List.mem_singleton] at hu
    rcases hu with hu | rfl
    · exact h u hu
    · exact ⟨genuine_new env _ _ _, Or.inl ⟨_, _, ha⟩⟩
  | passed hk hmoved hair =>
    rw [hair, List.mem_append, Option.mem_toList] at hu
    rcases hu with hu | hu
    · exact hold _ u hu
    · exact hnext hk (hmoved u hu)
  | forwarded hk hmoved hair =>
    rw [hair, List.mem_append, List.mem_singleton] at hu
    rcases hu with hu | rfl
    · exact hold _ u hu
    · exact hnext hk hmoved
  | lost _ hair =>
    rw [hair] at hu
    exact hold _ u hu
  | commanded hair =>
    rw [hair] at hu
    exact h u hu

/-- **The overlay ages packets and does nothing else to them.**  In every run of an overlay whose
hosts forward as routers do, a packet on its way set out from outside or as a reply.  If it set
out with a valid header and a time to live, then it has the same header but for the time to live,
which is lower by exactly the number of its passes and has not run out, and for the checksum,
which is valid; and the same payload, cut off at most where a buffer ends. -/
theorem overlay_ages_packets [DecidableEq ι] (env : OverlayEnv ι) (hosts : env.Documented)
    {proxies : ι → RouteTable × Bool} {as : List (OverlayAction ι)} {o : Overlay ι}
    (h : run (step env) ⟨proxies, []⟩ as = some o) {t : Traveller ι} (ht : t ∈ o.air) :
    Sent env as t.origin ∧
      ∀ header payload, t.origin = header ++ payload → iphdrLen ≤ header.length →
        ValidChecksum header → 1 ≤ (ttl header).toNat →
        ∃ header', header'.length = header.length ∧ ValidChecksum header' ∧
          (ttl header').toNat + t.passes = (ttl header).toNat ∧ 1 ≤ (ttl header').toNat ∧
          (∀ i, i ≠ 8 → i ≠ 10 → i ≠ 11 → header'[i]? = header[i]?) ∧
          t.pkt <+: header' ++ payload ∧
          ((∀ i, t.origin.length ≤ env.mtu i) → t.pkt = header' ++ payload) := by
  have hfaithful : Faithful env as o :=
    run_invariant (P := Faithful env as) (Q := fun _ a => a ∈ as)
      (fun _ _ _ hi ha hst => faithful_step hosts hi ha hst)
      (fun u hu => absurd hu List.not_mem_nil) (along_of_forall fun a ha => ha) h
  obtain ⟨⟨whole, m, haged, hcut, hfits⟩, hsent⟩ := hfaithful t ht
  refine ⟨hsent, fun header payload horigin hlen hvalid hone => ?_⟩
  rw [horigin] at haged
  have hlong : iphdrLen ≤ (header ++ payload).length := by
    rw [List.length_append]
    exact Nat.le_add_right_of_le hlen
  have htake : (header ++ payload).take header.length = header := List.take_left
  have hlength : (whole.take header.length).length = header.length := by
    rw [List.length_take, haged.length, List.length_append]
    omega
  have hwhole : whole.take header.length ++ payload = whole := by
    conv_rhs => rw [← List.take_append_drop header.length whole, haged.drop_eq hlen, List.drop_left]
  have httl : ttl (whole.take header.length) = ttl whole := by
    conv_rhs => rw [← hwhole, ttl_append (by rw [hlength]; exact hlen)]
  have hstart : 1 ≤ (ttl (header ++ payload)).toNat := by
    rw [ttl_append hlen]
    exact hone
  refine ⟨whole.take header.length, hlength, ?_, ?_, ?_, fun i h8 h10 h11 => ?_, ?_, fun hmtu => ?_⟩
  · exact haged.validChecksum hlen hlong hstart (by rw [htake]; exact hvalid)
  · rw [httl, ← ttl_append hlen payload]
    exact haged.lower hstart
  · rw [httl]
    exact haged.alive hstart
  · have hkept : ((header ++ payload).take header.length)[i]? = header[i]? := by rw [htake]
    rw [← hkept, List.getElem?_take, List.getElem?_take, haged.same i h8 h10 h11]
  · rw [hwhole, hcut]
    exact List.take_prefix _ _
  · rw [hwhole, hcut, List.take_of_length_le]
    rw [haged.length, ← horigin]
    exact hfits hmtu

/-- After four passes the packet is back at the first node. -/
theorem loopRun_ages_packet :
    ∃ t ∈ loopEnd.air, t.node = false ∧ t.passes = 4 ∧
      ∃ header', ValidChecksum header' ∧ (ttl header').toNat = 60 ∧ t.pkt = header' ++ [7] := by
  obtain ⟨t, hair, hnode, hpasses, horigin⟩ : ∃ t, t ∈ loopEnd.air ∧ t.node = false ∧
      t.passes = 4 ∧ t.origin = loopHeader ++ [7] :=
    ⟨_, List.mem_singleton_self _, rfl, rfl, rfl⟩
  obtain ⟨-, hheader⟩ := overlay_ages_packets loopEnv (documented_routed _ _ _) run_loop hair
  obtain ⟨header', -, hvalid, httl, -, -, -, hwhole⟩ := hheader loopHeader [7] horigin (by decide)
    (show OnesComplement.sum (beWords _) = 0xffff by decide +kernel) (by decide)
  refine ⟨t, hair, hnode, hpasses, header', hvalid, ?_, hwhole fun i => ?_⟩
  · have hstart : (ttl loopHeader).toNat = 64 := by decide
    omega
  · rw [horigin]
    show (loopHeader ++ [7]).length ≤ 1472
    decide

end Overlay

end Flannel
