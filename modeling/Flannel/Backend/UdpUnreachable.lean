import Flannel.Backend.UdpChecksum

/-!
# The reply to a packet without a route

`build_net_unreachable` for any bytes: when it answers, and that the answer is a packet with the
right addresses, two valid checksums and the beginning of the offender.  All its offsets come
from the length that the offender gives for its header, which is checked before it is used.
-/

namespace Flannel

open Bytes OnesComplement

namespace UdpPacket

variable {order : ByteOrder} {front rest offender : List UInt8}

/-! ## Filling in a checksum -/

/-- A checksum that is filled in where there were zeros makes the bytes valid. -/
theorem exists_cksum_valid (order : ByteOrder) (hfront : front.length % 2 = 0)
    (hmul : (front ++ (0 :: 0 :: rest)).length % 4 = 0)
    (hlen : (front ++ (0 :: 0 :: rest)).length < 2 ^ 32) :
    ∃ check, cksum order (front ++ (0 :: 0 :: rest)) = some check ∧
      ValidChecksum (front ++ (neBytes order 2 check ++ rest)) := by
  refine ⟨_, cksum_eq hlen, ?_⟩
  have hbytes := neBytes_nativeSum order hmul
  have hsum : wordSum (front ++ (0 :: 0 :: rest)) = wordSum front + wordSum rest := by
    rw [wordSum_append hfront, wordSum_cons_cons, UInt8.toNat_zero]
    omega
  rw [internetChecksum, sum_beWords, hsum] at hbytes
  have hrep := rep_lt (wordSum front + wordSum rest)
  have hle := rep_le (wordSum front + wordSum rest)
  have hmod := rep_mod (wordSum front + wordSum rest)
  rw [validChecksum_iff, hbytes, wordSum_append hfront, wordSum_beBytes (by omega)]
  omega

/-! ## The packet -/

/-- The header of the reply. -/
def replyHeader (order : ByteOrder) (pktlen : Nat) (check : List UInt8) (tunAddr : UInt32)
    (daddr : List UInt8) : List UInt8 :=
  [0x45, 0] ++ (beBytes 2 pktlen ++ ([0, 0, 0, 0, 8, protoIcmp] ++ (check ++
    (neBytes order 4 tunAddr.toNat ++ daddr))))

/-- The ICMP part of the reply. -/
def replyIcmp (check quoted : List UInt8) : List UInt8 :=
  [icmpDestUnreach, icmpNetUnreach] ++ (check ++ ([0, 0, 0, 0] ++ quoted))

theorem length_eq_four {bytes : List UInt8} (h : bytes.length = 4) :
    ∃ b₀ b₁ b₂ b₃, bytes = [b₀, b₁, b₂, b₃] := by
  match bytes, h with
  | [b₀, b₁, b₂, b₃], _ => exact ⟨b₀, b₁, b₂, b₃, rfl⟩

/-- The header is filled in field by field, and the checksum is that of the header with zeros in
its place. -/
theorem fillIphdr_eq {tunAddr : UInt32} {pktlen ipCheck : Nat} {daddr : List UInt8}
    (hdaddr : slice offender 12 16 = some daddr) (hlen : daddr.length = 4)
    (hcksum : cksum order (replyHeader order pktlen [0, 0] tunAddr daddr) = some ipCheck)
    (rest : List UInt8) :
    fillIphdr order offender tunAddr pktlen (List.replicate 20 0 ++ rest) =
      some (replyHeader order pktlen (neBytes order 2 ipCheck) tunAddr daddr ++ rest) := by
  obtain ⟨l₀, l₁, hl⟩ := List.length_eq_two.mp (length_beBytes 2 pktlen)
  obtain ⟨c₀, c₁, hc⟩ := List.length_eq_two.mp (length_neBytes order 2 ipCheck)
  obtain ⟨s₀, s₁, s₂, s₃, hs⟩ := length_eq_four (length_neBytes order 4 tunAddr.toNat)
  obtain ⟨d₀, d₁, d₂, d₃, rfl⟩ := length_eq_four hlen
  rw [replyHeader, hl, hs] at hcksum
  rw [replyHeader, hl, hs, hc, fillIphdr]
  simp only [Option.bind_eq_bind, Option.bind_eq_some_iff, iphdrLen, hl, hs, hdaddr]
  -- each write is given by the bytes in front of it, and the packet behind it is read off
  refine ⟨_, setByte_append [] _ _ _ rfl, _, copyFromSlice_append [_, _] [_, _] _ _ rfl rfl rfl,
    _, setByte_append [_, _, _, _, _, _, _, _] _ _ _ rfl,
    _, setByte_append [_, _, _, _, _, _, _, _, _] _ _ _ rfl,
    _, copyFromSlice_append [_, _, _, _, _, _, _, _, _, _, _, _] [_, _, _, _] _ _ rfl rfl rfl,
    _, rfl,
    _, copyFromSlice_append [_, _, _, _, _, _, _, _, _, _, _, _, _, _, _, _] [_, _, _, _] _ _
      rfl rfl rfl,
    _, slice_append [] [0x45, 0, l₀, l₁, 0, 0, 0, 0, 8, protoIcmp, 0, 0, s₀, s₁, s₂, s₃, d₀, d₁, d₂,
      d₃] rest rfl rfl, _, hcksum, ?_⟩
  rw [hc]
  exact copyFromSlice_append [_, _, _, _, _, _, _, _, _, _] [_, _] _ _ rfl rfl rfl

theorem fillIcmp_eq {header quoted : List UInt8} {offIphLen icmpCheck : Nat}
    (hheader : header.length = 20) (hquoted : slice offender 0 (offIphLen + 8) = some quoted)
    (hlen : quoted.length = offIphLen + 8)
    (hcksum : cksum order (replyIcmp [0, 0] quoted) = some icmpCheck) :
    fillIcmp order offender offIphLen
        (header ++ (List.replicate 8 0 ++ List.replicate (offIphLen + 8) 0)) =
      some (header ++ replyIcmp (neBytes order 2 icmpCheck) quoted) := by
  have htype := setByte_append header 0 icmpDestUnreach
    ([0, 0, 0, 0, 0, 0, 0] ++ List.replicate (offIphLen + 8) 0) hheader
  have hcode := setByte_append (header ++ [icmpDestUnreach]) 0 icmpNetUnreach
    ([0, 0, 0, 0, 0, 0] ++ List.replicate (offIphLen + 8) 0) (show _ = 21 by simp [hheader])
  have hcopy := copyFromSlice_append (header ++ [icmpDestUnreach, icmpNetUnreach, 0, 0, 0, 0, 0, 0])
    (List.replicate (offIphLen + 8) 0) [] quoted (show _ = 28 by simp [hheader])
    (show _ = 28 + offIphLen + 8 by simp; omega) (by simp [hlen])
  have hslice := slice_append header (replyIcmp [0, 0] quoted) [] hheader
    (show _ = (header ++ replyIcmp [0, 0] quoted).length by simp [hheader])
  have hcheck := copyFromSlice_append (header ++ [icmpDestUnreach, icmpNetUnreach]) [0, 0]
    ([0, 0, 0, 0] ++ quoted) (neBytes order 2 icmpCheck) (show _ = 22 by simp [hheader]) rfl
    (by simp)
  rw [List.append_nil, replyIcmp] at hslice
  simp only [List.append_assoc, List.cons_append, List.nil_append, List.append_nil]
    at hcode hcopy hslice hcheck
  rw [fillIcmp, hquoted]
  simp only [Option.bind_eq_bind, Option.bind_eq_some_iff]
  refine ⟨_, htype, _, hcode, _, rfl, _, hcopy, _, hslice, _, hcksum, hcheck⟩

section

variable {pktlen : Nat} {tunAddr : UInt32} {check daddr check' : List UInt8}

theorem length_replyHeader (hcheck : check.length = 2) (hdaddr : daddr.length = 4) :
    (replyHeader order pktlen check tunAddr daddr).length = 20 := by
  simp [replyHeader, hcheck, hdaddr]

theorem length_replyIcmp (hcheck' : check'.length = 2) (quoted : List UInt8) :
    (replyIcmp check' quoted).length = 8 + quoted.length := by
  simp [replyIcmp, hcheck']
  omega

/-- The fields of a reply stand where they should. -/
theorem reply_fields (hcheck : check.length = 2) (hdaddr : daddr.length = 4)
    (hcheck' : check'.length = 2) (quoted : List UInt8) :
    let pkt := replyHeader order pktlen check tunAddr daddr ++ replyIcmp check' quoted
    byteRange pkt 2 4 = beBytes 2 pktlen ∧ byteRange pkt 12 16 = neBytes order 4 tunAddr.toNat ∧
      byteRange pkt 16 20 = daddr ∧ byteRange pkt 20 22 = [3, 0] ∧ pkt.drop 28 = quoted := by
  intro pkt
  have hquoted : pkt = (replyHeader order pktlen check tunAddr daddr ++
      ([icmpDestUnreach, icmpNetUnreach] ++ (check' ++ [0, 0, 0, 0]))) ++ quoted := by
    simp only [pkt, replyIcmp, List.append_assoc]
  have hpkt : pkt = [0x45, 0] ++ (beBytes 2 pktlen ++ ([0, 0, 0, 0, 8, protoIcmp] ++ (check ++
      (neBytes order 4 tunAddr.toNat ++ (daddr ++ ([icmpDestUnreach, icmpNetUnreach] ++
        (check' ++ ([0, 0, 0, 0] ++ quoted)))))))) := by
    simp only [pkt, replyHeader, replyIcmp, List.append_assoc]
  refine ⟨?_, ?_, ?_, ?_, ?_⟩
  · simp only [hpkt, byteRange_append_right, byteRange_append_left, length_beBytes,
      List.length_cons, List.length_nil, Nat.reduceAdd, Nat.reduceSub, Nat.le_refl]
  · simp only [hpkt, byteRange_append_right, byteRange_append_left, length_beBytes, length_neBytes,
      hcheck, List.length_cons, List.length_nil, Nat.reduceAdd, Nat.reduceSub, Nat.reduceLeDiff]
  · simp only [hpkt, byteRange_append_right, byteRange_append_left, length_beBytes, length_neBytes,
      hcheck, hdaddr, List.length_cons, List.length_nil, Nat.reduceAdd, Nat.reduceSub,
      Nat.reduceLeDiff]
  · simp only [hpkt, byteRange_append_right, byteRange_append_left, length_beBytes, length_neBytes,
      hcheck, hdaddr, List.length_cons, List.length_nil, Nat.reduceAdd, Nat.reduceSub,
      Nat.reduceLeDiff]
    rfl
  · rw [hquoted]
    exact List.drop_left' (by simp [length_replyHeader hcheck hdaddr, hcheck'])

end

theorem exists_ipCheck (order : ByteOrder) (pktlen : Nat) (tunAddr : UInt32) {daddr : List UInt8}
    (hdaddr : daddr.length = 4) :
    ∃ ipCheck, cksum order (replyHeader order pktlen [0, 0] tunAddr daddr) = some ipCheck ∧
      ValidChecksum (replyHeader order pktlen (neBytes order 2 ipCheck) tunAddr daddr) := by
  have hsplit : ∀ check, replyHeader order pktlen check tunAddr daddr =
      ([0x45, 0] ++ (beBytes 2 pktlen ++ [0, 0, 0, 0, 8, protoIcmp])) ++
        (check ++ (neBytes order 4 tunAddr.toNat ++ daddr)) := by
    intro check
    simp only [replyHeader, List.append_assoc]
  rw [hsplit]
  obtain ⟨ipCheck, hcksum, hvalid⟩ := exists_cksum_valid order
    (show ([0x45, 0] ++ (beBytes 2 pktlen ++ [0, 0, 0, 0, 8, protoIcmp])).length % 2 = 0 by simp)
    (show (_ ++ 0 :: 0 :: (neBytes order 4 tunAddr.toNat ++ daddr)).length % 4 = 0 by simp [hdaddr])
    (by simp [hdaddr])
  exact ⟨ipCheck, hcksum, by rw [hsplit]; exact hvalid⟩

theorem exists_icmpCheck (order : ByteOrder) {quoted : List UInt8} (hmul : quoted.length % 4 = 0)
    (hlt : quoted.length < 2 ^ 16) :
    ∃ icmpCheck, cksum order (replyIcmp [0, 0] quoted) = some icmpCheck ∧
      ValidChecksum (replyIcmp (neBytes order 2 icmpCheck) quoted) := by
  have hlen : (replyIcmp [0, 0] quoted).length = 8 + quoted.length := by
    simp [replyIcmp]
    omega
  exact exists_cksum_valid order (show [icmpDestUnreach, icmpNetUnreach].length % 2 = 0 from rfl)
    (show (replyIcmp [0, 0] quoted).length % 4 = 0 by omega)
    (show (replyIcmp [0, 0] quoted).length < 2 ^ 32 by omega)

/-- The reply, with the checksums that make its two parts valid. -/
theorem exists_fillNetUnreachable (order : ByteOrder) (tunAddr : UInt32) {offIphLen : Nat}
    (hlen : iphdrLen ≤ offender.length) (hmul : offIphLen % 4 = 0) (hlt : offIphLen < 60)
    (hquoted : offIphLen + 8 ≤ offender.length) :
    ∃ header icmp : List UInt8,
      fillNetUnreachable order offender tunAddr offIphLen = some (header ++ icmp) ∧
      (∃ check, header = replyHeader order (28 + offIphLen + 8) (neBytes order 2 check) tunAddr
        (byteRange offender 12 16)) ∧
      (∃ check, icmp = replyIcmp (neBytes order 2 check) (offender.take (offIphLen + 8))) ∧
      ValidChecksum header ∧ ValidChecksum icmp := by
  rw [iphdrLen] at hlen
  have hdaddr : (byteRange offender 12 16).length = 4 := length_byteRange (by omega)
  have hquote : (offender.take (offIphLen + 8)).length = offIphLen + 8 :=
    List.length_take_of_le hquoted
  have hzeros : List.replicate (28 + offIphLen + 8) (0 : UInt8) =
      List.replicate 20 0 ++ (List.replicate 8 0 ++ List.replicate (offIphLen + 8) 0) := by
    rw [← List.replicate_add, ← List.replicate_add]
    congr 1
    omega
  obtain ⟨ipCheck, hip, hipValid⟩ := exists_ipCheck order (28 + offIphLen + 8) tunAddr hdaddr
  obtain ⟨icmpCheck, hicmp, hicmpValid⟩ := exists_icmpCheck order
    (show (offender.take (offIphLen + 8)).length % 4 = 0 by omega) (by omega)
  refine ⟨_, _, ?_, ⟨ipCheck, rfl⟩, ⟨icmpCheck, rfl⟩, hipValid, hicmpValid⟩
  have hheader := fillIphdr_eq (slice_eq (by decide) (by omega)) hdaddr hip
    (List.replicate 8 0 ++ List.replicate (offIphLen + 8) 0)
  rw [fillNetUnreachable]
  simp only [iphdrLen, Nat.reduceAdd, hzeros, hheader, Option.bind_eq_bind, Option.bind_some]
  exact fillIcmp_eq (by simp [replyHeader, hdaddr]) (slice_eq (Nat.zero_le _) hquoted) hquote hicmp

/-! ## When there is a reply -/

/-- The header length that a packet gives, in words of 32 bits. -/
def ihl (pkt : List UInt8) : Nat := (pkt.getD 0 0).toNat % 16

/-- The offset of a fragment. -/
def fragmentOffset (pkt : List UInt8) : Nat := ofBeBytes (byteRange pkt 6 8) % 2 ^ 13

/-- The packets that are answered. -/
def Answered (offender : List UInt8) : Prop :=
  20 ≤ offender.length ∧ 4 * ihl offender < 60 ∧ offender.getD 9 0 ≠ protoIcmp ∧
    fragmentOffset offender = 0 ∧ 4 * ihl offender + 8 ≤ offender.length

instance (offender : List UInt8) : Decidable (Answered offender) := inferInstanceAs
  (Decidable (20 ≤ offender.length ∧ 4 * ihl offender < 60 ∧ offender.getD 9 0 ≠ protoIcmp ∧
    fragmentOffset offender = 0 ∧ 4 * ihl offender + 8 ≤ offender.length))

theorem getElem?_eq_getD {bytes : List UInt8} {i : Nat} (h : i < bytes.length) :
    bytes[i]? = some (bytes.getD i 0) := by
  rw [List.getD_eq_getElem?_getD, List.getElem?_eq_getElem h, Option.getD_some]

theorem byteRange_pair {bytes : List UInt8} {i : Nat} (h : i + 1 < bytes.length) :
    byteRange bytes i (i + 2) = [bytes.getD i 0, bytes.getD (i + 1) 0] := by
  rw [byteRange, Nat.add_sub_cancel_left, List.drop_eq_getElem_cons (by omega),
    List.drop_eq_getElem_cons h, List.getD_eq_getElem?_getD, List.getD_eq_getElem?_getD,
    List.getElem?_eq_getElem (by omega), List.getElem?_eq_getElem h]
  rfl

theorem buildNetUnreachable_eq (order : ByteOrder) (offender : List UInt8) (tunAddr : UInt32) :
    buildNetUnreachable order offender tunAddr =
      if Answered offender then
        (fillNetUnreachable order offender tunAddr (4 * ihl offender)).map some
      else some none := by
  rw [buildNetUnreachable]
  by_cases hlen : offender.length < iphdrLen
  · have hno : ¬ Answered offender := fun h => absurd h.1 (Nat.not_le.mpr hlen)
    rw [if_pos hlen, if_neg hno]
    rfl
  rw [if_neg hlen]
  have hlen' : 20 ≤ offender.length := Nat.le_of_not_lt hlen
  have hihl : (offender.getD 0 0 &&& 0x0f).toNat * 4 = 4 * ihl offender := by
    have hlow : (offender.getD 0 0).toNat &&& 0x0f = (offender.getD 0 0).toNat % 2 ^ 4 :=
      Nat.and_two_pow_sub_one_eq_mod _ 4
    rw [UInt8.toNat_and, ihl, Nat.mul_comm]
    exact congrArg (4 * ·) hlow
  have hfrag : ofBeBytes [offender.getD 6 0, offender.getD 7 0] &&& 0x1fff =
      fragmentOffset offender := by
    rw [fragmentOffset, byteRange_pair (by omega)]
    exact Nat.and_two_pow_sub_one_eq_mod _ 13
  rw [getElem?_eq_getD (by omega), getElem?_eq_getD (by omega), getElem?_eq_getD (by omega),
    getElem?_eq_getD (by omega)]
  simp only [Option.bind_eq_bind, Option.bind_some, hihl, hfrag, iphdrLen, maxIpoptlen,
    Nat.reduceAdd]
  by_cases h : Answered offender
  · obtain ⟨-, hmax, hproto, hfirst, hquoted⟩ := id h
    rw [if_pos h, if_neg (Nat.not_le.mpr hmax), if_neg hproto, if_neg (not_not.mpr hfirst),
      if_neg (Nat.not_lt.mpr hquoted), Option.map_eq_bind]
    rfl
  · rw [if_neg h]
    split_ifs with hmax hproto hfirst hquoted
    · rfl
    · rfl
    · rfl
    · rfl
    · exact absurd ⟨hlen', Nat.lt_of_not_le hmax, hproto, not_not.mp hfirst,
        Nat.le_of_not_lt hquoted⟩ h

/-- **The reply.**  `build_net_unreachable` never reads or writes out of range.  It answers exactly
the packets above, and its answer gives its own length, goes from the address of the tunnel to
that of the sender, says that the network cannot be reached, quotes the header of the packet with
eight bytes more, and is valid in both of its checksums. -/
theorem buildNetUnreachable_spec (order : ByteOrder) (offender : List UInt8) (tunAddr : UInt32) :
    ∃ reply, buildNetUnreachable order offender tunAddr = some reply ∧
      (reply.isSome ↔ Answered offender) ∧
      ∀ pkt, reply = some pkt →
        ofBeBytes (byteRange pkt 2 4) = pkt.length ∧
        byteRange pkt 12 16 = neBytes order 4 tunAddr.toNat ∧
        byteRange pkt 16 20 = byteRange offender 12 16 ∧ ValidChecksum (pkt.take 20) ∧
        byteRange pkt 20 22 = [3, 0] ∧ ValidChecksum (pkt.drop 20) ∧
        pkt.drop 28 = offender.take (4 * ihl offender + 8) := by
  rw [buildNetUnreachable_eq]
  by_cases h : Answered offender
  · rw [if_pos h]
    obtain ⟨hlen, hmax, -, -, hquoted⟩ := id h
    obtain ⟨header, icmp, hfill, ⟨ipCheck, rfl⟩, ⟨icmpCheck, rfl⟩, hheader, hicmp⟩ :=
      exists_fillNetUnreachable order tunAddr hlen (by omega) hmax hquoted
    rw [hfill]
    refine ⟨_, rfl, iff_of_true rfl h, fun pkt hpkt => ?_⟩
    obtain rfl := Option.some.inj hpkt
    have hdaddr : (byteRange offender 12 16).length = 4 := length_byteRange (by omega)
    have hip := length_neBytes order 2 ipCheck
    have hicmp' := length_neBytes order 2 icmpCheck
    obtain ⟨hpktlen, hsaddr, hdest, htype, hquote⟩ := reply_fields hip hdaddr hicmp'
      (offender.take (4 * ihl offender + 8))
    refine ⟨?_, hsaddr, hdest, ?_, htype, ?_, hquote⟩
    · rw [hpktlen, ofBeBytes_beBytes (by omega), List.length_append, length_replyHeader hip hdaddr,
        length_replyIcmp hicmp', List.length_take_of_le hquoted]
      omega
    · rwa [List.take_left' (length_replyHeader hip hdaddr)]
    · rwa [List.drop_left' (length_replyHeader hip hdaddr)]
  · rw [if_neg h]
    exact ⟨none, rfl, iff_of_false Bool.false_ne_true h, fun pkt hpkt => by cases hpkt⟩

end UdpPacket

end Flannel
