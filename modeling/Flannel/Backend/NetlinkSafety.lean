import Flannel.Backend.WireguardNetlink
import Flannel.Backend.XfrmNetlink
import Flannel.Lib.Results

/-!
# Which netlink messages can be read

`parse_nlas` and `parse_rtattrs` check the length of an attribute against what is left of the
message and then step over its padding.  An attribute at the very end need not be padded, and
then the step goes past the end: the slice panics.

So the readers return exactly on the messages in which no such attribute stands, in any stream
that they look into, and the attribute parsers return then what the message says.
-/

namespace Flannel

open Bytes Results Tlv

section

variable {order : ByteOrder} {b : List UInt8}

/-- No attribute lacks its padding, neither in the stream itself, nor in the lists that stand
in attributes of the given type, nor in the entries of these lists. -/
def NestedPadded (order : ByteOrder) (nested : UInt16) (b : List UInt8) : Prop :=
  Padded order b ∧ ∀ a ∈ items order b, a.1 &&& 0x7fff = nested →
    Padded order a.2 ∧ ∀ entry ∈ items order a.2, Padded order entry.2

namespace Genl

theorem parseNlas_eq (order : ByteOrder) (b : List UInt8) :
    parseNlas order b =
      if Padded order b then some ((items order b).map fun a => (a.1 &&& 0x7fff, a.2))
      else none :=
  parse_eq order _ b

theorem parseNlas_isSome_iff : (parseNlas order b).isSome = true ↔ Padded order b := by
  rw [parseNlas_eq]
  split
  · simpa
  · simpa

/-- A list of nested streams is read exactly if it is padded and each of its entries is. -/
theorem nested_isSome_iff {β γ : Type} {f : UInt16 × List UInt8 → Option β}
    (hf : ∀ a, (f a).isSome = true ↔ Padded order a.2) (g : List β → γ) (v : List UInt8) :
    ((parseNlas order v) >>= fun nlas => nlas.mapM f >>= fun xs => pure (g xs)).isSome = true ↔
      Padded order v ∧ ∀ entry ∈ items order v, Padded order entry.2 := by
  rw [parseNlas_eq]
  split
  · rename_i hv
    have hentries : (∀ a ∈ (items order v).map fun a => (a.1 &&& 0x7fff, a.2),
        (f a).isSome = true) ↔ ∀ entry ∈ items order v, Padded order entry.2 := by
      simp only [List.forall_mem_map, hf]
    rw [and_iff_right hv, ← hentries, ← mapM_isSome_iff, Option.bind_eq_bind, Option.bind_some,
      bind_pure_isSome]
  · rename_i hv
    simp [hv]

/-- A loop over a stream that looks into lists of nested streams. -/
theorem loop_isSome_iff {β : Type} {f : β → UInt16 × List UInt8 → Option β} {nested : UInt16}
    (hf : ∀ s a, (f s a).isSome = true ↔ (a.1 = nested →
      Padded order a.2 ∧ ∀ entry ∈ items order a.2, Padded order entry.2)) (s : β) :
    ((parseNlas order b) >>= fun attrs => attrs.foldlM f s).isSome = true ↔
      NestedPadded order nested b := by
  rw [parseNlas_eq, NestedPadded]
  split
  · rename_i hb
    simp only [hb, true_and, Option.bind_eq_bind, Option.bind_some]
    rw [foldlM_isSome_iff hf, List.forall_mem_map]
  · rename_i hb
    simp [hb]

theorem parseAllowedIp_isSome_iff (order : ByteOrder) (body : List UInt8) :
    (parseAllowedIp order body).isSome = true ↔ Padded order body := by
  rw [parseAllowedIp, Option.isSome_map, parseNlas_isSome_iff]

theorem peerField_isSome_iff (peer : WgPeerInfo) (a : UInt16 × List UInt8) :
    (peerField order peer a).isSome = true ↔ (a.1 = wgpeerAAllowedips →
      Padded order a.2 ∧ ∀ entry ∈ items order a.2, Padded order entry.2) := by
  unfold peerField
  split_ifs with hkey hendpoint hkeepalive hips
  · simp [hkey.1, wgpeerAPublicKey, wgpeerAAllowedips]
  · simp [hendpoint, wgpeerAEndpoint, wgpeerAAllowedips]
  · simp [hkeepalive, wgpeerAPersistentKeepaliveInterval, wgpeerAAllowedips]
  · rw [nested_isSome_iff fun av => parseAllowedIp_isSome_iff order av.2]
    exact (imp_iff_right hips).symm
  · simp [hips]

theorem parsePeer_isSome_iff :
    (parsePeer order b).isSome = true ↔ NestedPadded order wgpeerAAllowedips b :=
  loop_isSome_iff peerField_isSome_iff {}

theorem familyField_isSome_iff (order : ByteOrder) (s : FamilyOps) (a : UInt16 × List UInt8) :
    (familyField order s a).isSome = true ↔ (a.1 = ctrlAttrOps →
      Padded order a.2 ∧ ∀ entry ∈ items order a.2, Padded order entry.2) := by
  unfold familyField
  split_ifs with hfam hops
  · simp [hfam, ctrlAttrFamilyId, ctrlAttrOps]
  · rw [nested_isSome_iff fun op => by rw [Option.isSome_map, parseNlas_isSome_iff]]
    exact (imp_iff_right hops).symm
  · simp [hops]

theorem parseFamilyOps_isSome_iff (name : String) :
    (parseFamilyOps order name b).isSome = true ↔ NestedPadded order ctrlAttrOps b := by
  have hloop := loop_isSome_iff (b := b) (familyField_isSome_iff order) {}
  rw [← hloop, parseFamilyOps]
  cases parseNlas order b with
  | none => simp
  | some attrs =>
    rw [Option.bind_eq_bind, Option.bind_some, bind_pure_isSome, Option.bind_eq_bind,
      Option.bind_some]

end Genl

theorem parsePolicy_isSome_iff :
    (Xfrm.parsePolicy order b).isSome = true ↔
      b.length < 168 ∨ Padded order (b.drop 168) := by
  unfold Xfrm.parsePolicy
  split
  · rename_i hlen
    simp [show b.length < 168 from hlen]
  · rename_i hlen
    rw [Option.isSome_map, Xfrm.parseRtattrs, parse_eq, Xfrm.userpolicyInfoSize]
    have hlen' : ¬b.length < 168 := hlen
    split
    · simp [*]
    · simp [*]

end

/-- **When the netlink parsers return.**  Both attribute parsers return the attributes of the
longest well-formed beginning, unless the padding of the last one is cut off, and then they
panic.  So a peer, an allowed address, the commands of a family and a policy are read exactly
from the messages in whose streams, at every level, no padding is cut off. -/
theorem netlink_parsers_return_iff (order : ByteOrder) (name : String) (b : List UInt8) :
    (Genl.parseNlas order b = some ((items order b).map fun a => (a.1 &&& 0x7fff, a.2)) ↔
      Padded order b) ∧
    (Xfrm.parseRtattrs order b = some (items order b) ↔ Padded order b) ∧
    ((Genl.parseAllowedIp order b).isSome ↔ Padded order b) ∧
    ((Genl.parsePeer order b).isSome ↔ NestedPadded order Genl.wgpeerAAllowedips b) ∧
    ((Genl.parseFamilyOps order name b).isSome ↔ NestedPadded order Genl.ctrlAttrOps b) ∧
    ((Xfrm.parsePolicy order b).isSome ↔ b.length < 168 ∨ Padded order (b.drop 168)) := by
  refine ⟨?_, ?_, Genl.parseAllowedIp_isSome_iff order b, Genl.parsePeer_isSome_iff,
    Genl.parseFamilyOps_isSome_iff name, parsePolicy_isSome_iff⟩
  · rw [Genl.parseNlas_eq]
    split
    · simpa
    · simpa
  · have hid : (items order b).map (fun a => (id a.1, a.2)) = items order b :=
      List.map_id _
    rw [Xfrm.parseRtattrs, parse_eq, hid]
    split
    · simpa
    · simpa

/-- An attribute of five bytes at the end of a message, without its padding. -/
theorem netlink_parsers_panic :
    items .little [5, 0, 1, 0, 7] = [(1, [7])] ∧ Genl.parseNlas .little [5, 0, 1, 0, 7] = none ∧
      Xfrm.parseRtattrs .little [5, 0, 1, 0, 7] = none ∧
      Genl.parsePeer .little [5, 0, 1, 0, 7] = none := by
  decide +kernel

end Flannel
