import Flannel.Backend.XfrmNetlink
import Mathlib.Data.List.GetD

/-!
# Reading back XFRM policies

A policy that `policy_info_msg` writes is read back by `parse_policy`, and `policy_id_msg`
names it by the same bytes.  The kernel is asked for a policy by its selector and its
direction, so a policy that was added is the one that is found and the one that is deleted.
-/

namespace Flannel

open Bytes

namespace Xfrm

variable {order : ByteOrder}

@[simp] theorem length_zeros (n : Nat) : (zeros n).length = n := List.length_replicate

@[simp] theorem length_selectorBytes (sel : XfrmSelector) :
    (selectorBytes order sel).length = 56 := by
  simp [selectorBytes]

@[simp] theorem length_userpolicyInfoBytes (info : XfrmUserpolicyId) :
    (userpolicyInfoBytes order info).length = 168 := by
  simp [userpolicyInfoBytes]

@[simp] theorem length_userTmplBytes (t : XfrmUserTmpl) :
    (userTmplBytes order t).length = 64 := by
  simp [userTmplBytes]

/-- An address is read back by its family. -/
theorem ipOf_addr (ip : IpAddr) : ipOf (beBytes 16 (addr ip).toNat) (familyOf ip) = ip := by
  cases ip with
  | v4 ip =>
    have hshift : (addr (.v4 ip)).toNat / 256 ^ 12 = ip.val.toNat := by
      rw [addr, BitVec.toNat_append, Nat.shiftLeft_eq]
      simp
    have hbytes : byteRange (beBytes 16 (addr (.v4 ip)).toNat) 0 4 = beBytes 4 ip.val.toNat := by
      rw [beBytes_add 12 4, hshift]
      exact byteRange_append_left (length_beBytes ..)
    rw [ipOf, familyOf, if_neg (by decide), hbytes, ofBeBytes_beBytes ip.val.isLt,
      BitVec.ofNat_toNat, BitVec.setWidth_eq]
  | v6 ip =>
    rw [ipOf, familyOf, if_pos rfl, addr, ofBeBytes_beBytes ip.val.isLt, BitVec.ofNat_toNat,
      BitVec.setWidth_eq]

theorem getD_zero_append (b : UInt8) (rest : List UInt8) : ([b] ++ rest).getD 0 0 = b := rfl

theorem getD_zero_pair (a b : UInt8) (rest : List UInt8) : ([a, b] ++ rest).getD 0 0 = a := rfl

theorem getD_one_pair (a b : UInt8) (rest : List UInt8) : ([a, b] ++ rest).getD 1 0 = b := rfl

/-- The fields of a template, read at their places. -/
theorem tmplOf_userTmplBytes {t : XfrmUserTmpl} (hfamily : t.family < 256 ^ 2)
    (hreqid : t.reqid < 256 ^ 4) :
    tmplOf order (userTmplBytes order t) =
      { src := ipOf (beBytes 16 t.saddr.toNat) t.family
        dst := ipOf (beBytes 16 t.daddr.toNat) t.family
        proto := t.proto
        mode := t.mode
        reqid := t.reqid } := by
  simp (disch := simp) only [tmplOf, userTmplBytes, List.append_assoc, byteRange_append_right,
    byteRange_append_left, List.getD_append_right, getD_zero_append, length_beBytes, length_neBytes,
    length_zeros, List.length_cons, List.length_nil, Nat.reduceSub, Nat.reduceAdd,
    ofNeBytes_neBytes hfamily, ofNeBytes_neBytes hreqid]

theorem familyOf_lt (ip : IpAddr) : familyOf ip < 256 ^ 2 := by
  cases ip with
  | v4 ip => rw [familyOf]; decide
  | v6 ip => rw [familyOf]; decide

theorem parseRtattrs_rtattr (t : XfrmUserTmpl) :
    parseRtattrs order (rtattr order xfrmaTmpl (userTmplBytes order t)) =
      some [(xfrmaTmpl, userTmplBytes order t)] := by
  have hlen : 4 + (userTmplBytes order t).length < 65536 := by
    rw [length_userTmplBytes]
    decide
  have hattr : Tlv.parse order id (Tlv.encode order xfrmaTmpl (userTmplBytes order t) ++ []) = _ :=
    Tlv.parse_encode_append hlen []
  rw [List.append_nil, Tlv.parse_nil] at hattr
  exact hattr

theorem tmplsOf_userTmpl {spec : XfrmPolicySpec}
    (htunnel : familyOf spec.tunnelSrc = familyOf spec.tunnelDst) (hreqid : spec.reqid < 2 ^ 32) :
    tmplsOf order [(xfrmaTmpl, userTmplBytes order (userTmpl spec))] =
      [⟨spec.tunnelSrc, spec.tunnelDst, 50, 1, spec.reqid⟩] := by
  have hchunks : chunksExact userTmplSize (userTmplBytes order (userTmpl spec)) =
      [userTmplBytes order (userTmpl spec)] :=
    chunksExact_singleton (by decide) (length_userTmplBytes _)
  have htmpl : tmplOf order (userTmplBytes order (userTmpl spec)) =
      ⟨spec.tunnelSrc, spec.tunnelDst, 50, 1, spec.reqid⟩ := by
    rw [tmplOf_userTmplBytes (familyOf_lt _) hreqid, userTmpl, ipOf_addr, htunnel, ipOf_addr]
  rw [tmplsOf, List.flatMap_singleton, if_neg (not_not.mpr rfl), hchunks, List.map_singleton, htmpl]

/-- **A policy is read back as it was written**, and it is named by the same selector and the
same direction in the messages that add it and that get or delete it. -/
theorem policy_read_back (order : ByteOrder) (spec : XfrmPolicySpec)
    (hsel : familyOf spec.src = familyOf spec.dst)
    (htunnel : familyOf spec.tunnelSrc = familyOf spec.tunnelDst) (hreqid : spec.reqid < 2 ^ 32) :
    parsePolicy order (policyInfoBytes order spec) =
      some (.ok {
        src := spec.src
        srcPrefix := spec.srcPrefix
        dst := spec.dst
        dstPrefix := spec.dstPrefix
        dir := spec.dir
        index := 0
        priority := 0
        tmpls := [{
          src := spec.tunnelSrc
          dst := spec.tunnelDst
          proto := 50
          mode := 1
          reqid := spec.reqid }] }) ∧
    byteRange (policyIdBytes order spec) 0 56 = byteRange (policyInfoBytes order spec) 0 56 ∧
    (policyIdBytes order spec).getD 60 0 = (policyInfoBytes order spec).getD 160 0 := by
  refine ⟨?_, ?_, ?_⟩
  · have hlen : ¬(policyInfoBytes order spec).length < userpolicyInfoSize := by
      rw [policyInfoBytes, List.length_append, length_userpolicyInfoBytes, userpolicyInfoSize]
      omega
    have hdrop : (policyInfoBytes order spec).drop userpolicyInfoSize =
        rtattr order xfrmaTmpl (userTmplBytes order (userTmpl spec)) :=
      List.drop_left' (length_userpolicyInfoBytes _)
    have hfamily : ofNeBytes order (neBytes order 2 (familyOf spec.src)) = familyOf spec.src :=
      ofNeBytes_neBytes (familyOf_lt _)
    have hzero : ofNeBytes order (zeros 4) = 0 := by
      cases order <;> rfl
    rw [parsePolicy, if_neg hlen, hdrop, parseRtattrs_rtattr, Option.map_some,
      tmplsOf_userTmpl htunnel hreqid]
    simp (disch := simp) only [policyInfoBytes, policyInfoMsg, fillSelector, userpolicyInfoBytes,
      selectorBytes, List.append_assoc, byteRange_append_right, byteRange_append_left,
      List.getD_append_right, getD_zero_append, getD_zero_pair, getD_one_pair, length_beBytes,
      length_neBytes, length_zeros, List.length_cons, List.length_nil, Nat.reduceSub,
      Nat.reduceAdd, hfamily, hzero, ipOf_addr]
    rw [hsel, ipOf_addr]
  · have hid : byteRange (policyIdBytes order spec) 0 56 =
        selectorBytes order (fillSelector spec) := by
      simp only [policyIdBytes, policyIdMsg, userpolicyIdBytes, List.append_assoc]
      exact byteRange_append_left (length_selectorBytes _)
    have hinfo : byteRange (policyInfoBytes order spec) 0 56 =
        selectorBytes order (fillSelector spec) := by
      simp only [policyInfoBytes, policyInfoMsg, userpolicyInfoBytes, List.append_assoc]
      exact byteRange_append_left (length_selectorBytes _)
    rw [hid, hinfo]
  · simp (disch := simp) only [policyIdBytes, policyIdMsg, userpolicyIdBytes, policyInfoBytes,
      policyInfoMsg, userpolicyInfoBytes, List.append_assoc, List.getD_append_right,
      getD_zero_append, length_selectorBytes, length_zeros, Nat.reduceSub]

/-- A policy for IPv4 through a tunnel over IPv6. -/
def mixedSpec : XfrmPolicySpec where
  src := .v4 ⟨0x0a050100⟩
  srcPrefix := 24
  dst := .v4 ⟨0x0a050200⟩
  dstPrefix := 23
  dir := dirOut
  tunnelSrc := .v6 ⟨1⟩
  tunnelDst := .v6 ⟨2⟩
  reqid := 11

theorem policy_read_back_mixed :
    (∃ policy, parsePolicy .little (policyInfoBytes .little mixedSpec) = some (.ok policy) ∧
      policy.dst = mixedSpec.dst ∧ policy.tmpls.map XfrmTmpl.src = [mixedSpec.tunnelSrc]) ∧
    byteRange (policyIdBytes .big mixedSpec) 0 56 =
      byteRange (policyInfoBytes .big mixedSpec) 0 56 :=
  ⟨⟨_, (policy_read_back .little mixedSpec rfl rfl (by decide)).1, rfl, rfl⟩,
    (policy_read_back .big mixedSpec rfl rfl (by decide)).2.1⟩

end Xfrm

end Flannel
