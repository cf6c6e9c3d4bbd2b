import Flannel.Backend.Ipsec
import Flannel.Lib.Tlv

/-!
# The netlink messages of XFRM

The bytes that `backend/ipsec/xfrm.rs` exchanges with the kernel: the structures as they lie
in memory, the attribute with the template, and the replies.

The structures are `repr(C)`, so a field stands at the next multiple of its alignment.  An
address is an array of bytes and has no alignment: in a template it stands right behind the
family, and the gap is behind it.  What a function does not set is zero, the gaps too.

Where the source slices past the end and panics, the functions here are `none`.
-/

namespace Flannel

open Bytes

namespace Xfrm

variable (order : ByteOrder)

/-! ## Structures as bytes -/

/-- So many zero bytes. -/
def zeros (n : Nat) : List UInt8 := List.replicate n 0

/-- `bytes_of` an `XfrmSelector`.  The ports and their masks are in front of the family; the
protocol, the interface and the user are behind the prefix lengths. -/
def selectorBytes (sel : XfrmSelector) : List UInt8 :=
  beBytes 16 sel.daddr.toNat ++ beBytes 16 sel.saddr.toNat ++ zeros 8 ++
    neBytes order 2 sel.family ++ [sel.prefixlenD, sel.prefixlenS] ++ zeros 12

/-- `bytes_of` an `XfrmUserpolicyId`: the selector, the index and the direction. -/
def userpolicyIdBytes (pid : XfrmUserpolicyId) : List UInt8 :=
  selectorBytes order pid.sel ++ zeros 4 ++ [pid.dir] ++ zeros 3

/-- `bytes_of` an `XfrmUserpolicyInfo`: between the selector and the direction are the
lifetimes, the priority and the index. -/
def userpolicyInfoBytes (info : XfrmUserpolicyId) : List UInt8 :=
  selectorBytes order info.sel ++ zeros 96 ++ zeros 4 ++ zeros 4 ++ [info.dir] ++ zeros 7

/-- `bytes_of` an `XfrmUserTmpl`. -/
def userTmplBytes (t : XfrmUserTmpl) : List UInt8 :=
  beBytes 16 t.daddr.toNat ++ zeros 4 ++ [t.proto] ++ zeros 3 ++ neBytes order 2 t.family ++
    beBytes 16 t.saddr.toNat ++ zeros 2 ++ neBytes order 4 t.reqid ++ [t.mode] ++ zeros 15

/-- `XFRMA_TMPL`. -/
def xfrmaTmpl : UInt16 := 5

/-- `rtattr`. -/
def rtattr (attrType : UInt16) (payload : List UInt8) : List UInt8 :=
  Tlv.encode order attrType payload

/-- The bytes of `policy_info_msg`. -/
def policyInfoBytes (spec : XfrmPolicySpec) : List UInt8 :=
  userpolicyInfoBytes order (policyInfoMsg spec).1 ++
    rtattr order xfrmaTmpl (userTmplBytes order (policyInfoMsg spec).2)

/-- The bytes of `policy_id_msg`. -/
def policyIdBytes (spec : XfrmPolicySpec) : List UInt8 :=
  userpolicyIdBytes order (policyIdMsg spec)

/-! ## Reading policies -/

/-- `parse_rtattrs`. -/
def parseRtattrs (b : List UInt8) : Option (List (UInt16 × List UInt8)) := Tlv.parse order id b

/-- `XfrmTmpl`. -/
structure XfrmTmpl where
  src : IpAddr
  dst : IpAddr
  proto : UInt8
  mode : UInt8
  reqid : Nat
  deriving DecidableEq, Repr

/-- `XfrmPolicy`. -/
structure XfrmPolicy where
  src : IpAddr
  srcPrefix : UInt8
  dst : IpAddr
  dstPrefix : UInt8
  dir : UInt8
  index : Nat
  priority : Nat
  tmpls : List XfrmTmpl
  deriving DecidableEq, Repr

/-- `ip_of`, on the bytes of an address. -/
def ipOf (a : List UInt8) (family : Nat) : IpAddr :=
  if family = 10 then .v6 ⟨BitVec.ofNat 128 (ofBeBytes a)⟩
  else .v4 ⟨BitVec.ofNat 32 (ofBeBytes (byteRange a 0 4))⟩

/-- The template in the bytes of an `XfrmUserTmpl`. -/
def tmplOf (b : List UInt8) : XfrmTmpl :=
  let family := ofNeBytes order (byteRange b 24 26)
  { src := ipOf (byteRange b 26 42) family
    dst := ipOf (byteRange b 0 16) family
    proto := b.getD 20 0
    mode := b.getD 48 0
    reqid := ofNeBytes order (byteRange b 44 48) }

/-- The size of an `XfrmUserpolicyInfo`. -/
def userpolicyInfoSize : Nat := 168

/-- The size of an `XfrmUserTmpl`. -/
def userTmplSize : Nat := 64

/-- The templates of the attributes of a policy. -/
def tmplsOf (attrs : List (UInt16 × List UInt8)) : List XfrmTmpl :=
  attrs.flatMap fun a =>
    if a.1 ≠ xfrmaTmpl then [] else (chunksExact userTmplSize a.2).map (tmplOf order)

/-- `parse_policy`. -/
def parsePolicy (body : List UInt8) : Option (Except String XfrmPolicy) :=
  if body.length < userpolicyInfoSize then some (.error "short GETPOLICY reply")
  else
    (parseRtattrs order (body.drop userpolicyInfoSize)).map fun attrs =>
      let family := ofNeBytes order (byteRange body 40 42)
      .ok {
        src := ipOf (byteRange body 16 32) family
        srcPrefix := body.getD 43 0
        dst := ipOf (byteRange body 0 16) family
        dstPrefix := body.getD 42 0
        dir := body.getD 160 0
        index := ofNeBytes order (byteRange body 156 160)
        priority := ofNeBytes order (byteRange body 152 156)
        tmpls := tmplsOf order attrs }

/-! ## Replies -/

/-- `NLMSG_ERROR`. -/
def nlmsgError : Nat := 2

/-- `NLMSG_DONE`. -/
def nlmsgDone : Nat := 3

/-- The variables of `parse_reply`. -/
structure Reply where
  results : List (List UInt8) := []
  off : Nat := 0
  done : Bool := false
  shorts : Nat := 0
  deriving DecidableEq, Repr

/-- The `match` of `parse_reply` on a message of the given length, whose error is that of the
operating system.  The code is negated as an `i32`. -/
def Reply.message (buf : List UInt8) (r : Reply) (mlen : Nat) : Option (Except Int Reply) :=
  match slice buf (r.off + 4) (r.off + 6) with
  | none => none
  | some mtype =>
    if ofNeBytes order mtype = nlmsgError then
      if 20 ≤ mlen then
        match slice buf (r.off + 16) (r.off + 20) with
        | none => none
        | some code =>
          if ofNeBytes order code ≠ 0 then
            some (.error (-(BitVec.ofNat 32 (ofNeBytes order code))).toInt)
          else some (.ok { r with done := true })
      else some (.ok { r with shorts := r.shorts + 1 })
    else if ofNeBytes order mtype = nlmsgDone then some (.ok { r with done := true })
    else
      match slice buf (r.off + 16) (r.off + mlen) with
      | none => none
      | some body => some (.ok { r with results := r.results ++ [body] })

/-- The loop of `parse_reply`. -/
def Reply.loop (buf : List UInt8) (r : Reply) : Option (Except Int Reply) :=
  if r.off + 16 ≤ buf.length then
    match slice buf r.off (r.off + 4) with
    | none => none
    | some len =>
      if ofNeBytes order len < 16 ∨ buf.length < r.off + ofNeBytes order len then
        some (.ok { r with shorts := r.shorts + 1 })
      else
        match r.message order buf (ofNeBytes order len) with
        | none => none
        | some (.error e) => some (.error e)
        | some (.ok r') =>
          Reply.loop buf { r' with off := r.off + Tlv.align4 (ofNeBytes order len) }
  else some (.ok r)
termination_by buf.length - r.off
decreasing_by
  have hle := Tlv.le_align4 (ofNeBytes order len)
  change buf.length - (r.off + Tlv.align4 (ofNeBytes order len)) < buf.length - r.off
  omega

/-- `parse_reply`. -/
def parseReply (buf : List UInt8) : Option (Except Int (List (List UInt8) × Bool × Nat)) :=
  (Reply.loop order buf {}).map (Except.map fun r => (r.results, r.done, r.shorts))

end Xfrm

end Flannel
