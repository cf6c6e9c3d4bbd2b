import Flannel.Lib.Bytes

/-!
# Streams of attributes

An attribute is a length, a type and a payload, padded to a multiple of four bytes.  The
length and the type are in the byte order of the machine, and the length counts the two of
them and the payload, but not the padding.  Attributes stand one after the other, and the
payload of an attribute can be such a stream.

The reader checks that the payload is there, and then steps over the padding without a look
whether that is there too.  So it has two outcomes: `none` is the slice past the end, and the
stream is read to the end exactly if the padding of its last attribute is not cut off
(`parse_eq`).
-/

namespace Tlv

open Bytes

/-- `align4`. -/
def align4 (n : Nat) : Nat := (n + 3) / 4 * 4

/-- An attribute with its padding. -/
def encode (order : ByteOrder) (t : UInt16) (payload : List UInt8) : List UInt8 :=
  neBytes order 2 (4 + payload.length) ++ neBytes order 2 t.toNat ++ payload ++
    List.replicate (align4 (4 + payload.length) - (4 + payload.length)) 0

/-- The length field at the front of a stream. -/
def headLen (order : ByteOrder) (b : List UInt8) : Nat := ofNeBytes order (byteRange b 0 2)

/-- The type field at the front of a stream. -/
def headType (order : ByteOrder) (b : List UInt8) : UInt16 :=
  UInt16.ofNat (ofNeBytes order (byteRange b 2 4))

/-- The reader, with what it makes of a type. -/
def parse (order : ByteOrder) (mask : UInt16 → UInt16) (b : List UInt8) :
    Option (List (UInt16 × List UInt8)) :=
  if 4 ≤ b.length then
    if headLen order b < 4 ∨ b.length < headLen order b then some []
    -- the slice that starts behind the padding
    else if b.length < align4 (headLen order b) then none
    else
      (parse order mask (b.drop (align4 (headLen order b)))).map
        ((mask (headType order b), byteRange b 4 (headLen order b)) :: ·)
  else some []
termination_by b.length
decreasing_by
  rw [List.length_drop, align4]
  omega

/-- The attributes of the longest beginning of a stream that consists of attributes; the
padding of the last one does not matter. -/
def items (order : ByteOrder) (b : List UInt8) : List (UInt16 × List UInt8) :=
  if 4 ≤ b.length ∧ 4 ≤ headLen order b ∧ headLen order b ≤ b.length then
    (headType order b, byteRange b 4 (headLen order b)) ::
      items order (b.drop (align4 (headLen order b)))
  else []
termination_by b.length
decreasing_by
  rw [List.length_drop, align4]
  omega

/-- The bytes that attributes take with their padding. -/
def paddedLength (attrs : List (UInt16 × List UInt8)) : Nat :=
  (attrs.map fun a => align4 (4 + a.2.length)).sum

/-- The padding of the last attribute is not cut off. -/
def Padded (order : ByteOrder) (b : List UInt8) : Prop :=
  paddedLength (items order b) ≤ b.length

instance (order : ByteOrder) (b : List UInt8) : Decidable (Padded order b) :=
  inferInstanceAs (Decidable (_ ≤ _))

variable {order : ByteOrder} {mask : UInt16 → UInt16} {b payload rest : List UInt8} {t : UInt16}

theorem le_align4 (n : Nat) : n ≤ align4 n := by
  unfold align4
  omega

/-! ## What is read -/

theorem items_eq_nil (h : ¬(4 ≤ b.length ∧ 4 ≤ headLen order b ∧ headLen order b ≤ b.length)) :
    items order b = [] := by
  rw [items, if_neg h]

theorem items_eq_cons (h : 4 ≤ b.length ∧ 4 ≤ headLen order b ∧ headLen order b ≤ b.length) :
    items order b = (headType order b, byteRange b 4 (headLen order b)) ::
      items order (b.drop (align4 (headLen order b))) := by
  rw [items, if_pos h]

theorem paddedLength_cons (a : UInt16 × List UInt8) (attrs : List (UInt16 × List UInt8)) :
    paddedLength (a :: attrs) = align4 (4 + a.2.length) + paddedLength attrs := by
  rw [paddedLength, paddedLength, List.map_cons, List.sum_cons]

theorem padded_of_items_eq_nil (h : items order b = []) : Padded order b := by
  rw [Padded, h]
  exact Nat.zero_le _

/-- The stream behind the first attribute has to be padded, and the first attribute too. -/
theorem padded_cons_iff
    (h : 4 ≤ b.length ∧ 4 ≤ headLen order b ∧ headLen order b ≤ b.length) :
    Padded order b ↔ align4 (headLen order b) ≤ b.length ∧
      Padded order (b.drop (align4 (headLen order b))) := by
  have hpayload : 4 + (byteRange b 4 (headLen order b)).length = headLen order b := by
    rw [length_byteRange h.2.2]
    omega
  rw [Padded, Padded, items_eq_cons h, paddedLength_cons, hpayload, List.length_drop]
  omega

/-- **The reader reads every attribute, or slices past the end.**  The second happens exactly
if the padding of the last attribute is cut off. -/
theorem parse_eq (order : ByteOrder) (mask : UInt16 → UInt16) (b : List UInt8) :
    parse order mask b =
      if Padded order b then some ((items order b).map fun a => (mask a.1, a.2)) else none := by
  fun_induction parse order mask b with
  | case1 b hb hlen =>
    have hitems : items order b = [] := items_eq_nil (by omega)
    rw [if_pos (padded_of_items_eq_nil hitems), hitems, List.map_nil]
  | case2 b hb hlen hpad =>
    rw [if_neg]
    rw [padded_cons_iff (by omega)]
    omega
  | case3 b hb hlen hpad ih =>
    have hhead : 4 ≤ b.length ∧ 4 ≤ headLen order b ∧ headLen order b ≤ b.length := by omega
    rw [ih, items_eq_cons hhead]
    by_cases hrest : Padded order (b.drop (align4 (headLen order b)))
    · rw [if_pos hrest, if_pos ((padded_cons_iff hhead).mpr ⟨by omega, hrest⟩)]
      rfl
    · rw [if_neg hrest, if_neg fun h => hrest ((padded_cons_iff hhead).mp h).2]
      rfl
  | case4 b hb =>
    have hitems : items order b = [] := items_eq_nil (by omega)
    rw [if_pos (padded_of_items_eq_nil hitems), hitems, List.map_nil]

/-! ## Reading what was written -/

theorem length_encode (order : ByteOrder) (t : UInt16) (payload : List UInt8) :
    (encode order t payload).length = align4 (4 + payload.length) := by
  have hle := le_align4 (4 + payload.length)
  simp only [encode, List.length_append, length_neBytes, List.length_replicate]
  omega

theorem parse_nil : parse order mask [] = some [] := by
  rw [parse, if_neg (by decide)]

/-- **An attribute reads back** in front of any stream, if its length fits into the field. -/
theorem parse_encode_append (hlen : 4 + payload.length < 65536) (rest : List UInt8) :
    parse order mask (encode order t payload ++ rest) =
      (parse order mask rest).map ((mask t, payload) :: ·) := by
  have hbytes : encode order t payload ++ rest =
      neBytes order 2 (4 + payload.length) ++ (neBytes order 2 t.toNat ++ (payload ++
        (List.replicate (align4 (4 + payload.length) - (4 + payload.length)) 0 ++ rest))) := by
    simp only [encode, List.append_assoc]
  have hheadLen : headLen order (encode order t payload ++ rest) = 4 + payload.length := by
    rw [headLen, hbytes, byteRange, List.drop_zero, List.take_left' (length_neBytes ..)]
    exact ofNeBytes_neBytes hlen
  have hheadType : headType order (encode order t payload ++ rest) = t := by
    rw [headType, hbytes, byteRange, List.drop_left' (length_neBytes ..),
      List.take_left' (length_neBytes ..), ofNeBytes_neBytes t.toNat_lt, UInt16.ofNat_toNat]
  have hpayload : byteRange (encode order t payload ++ rest) 4 (4 + payload.length) = payload := by
    have hfour : (neBytes order 2 (4 + payload.length) ++ neBytes order 2 t.toNat).length = 4 := by
      rw [List.length_append, length_neBytes, length_neBytes]
    rw [byteRange, hbytes, ← List.append_assoc, List.drop_left' hfour,
      List.take_left' (by omega)]
  have hrest : (encode order t payload ++ rest).drop (align4 (4 + payload.length)) = rest :=
    List.drop_left' (length_encode order t payload)
  have hle := le_align4 (4 + payload.length)
  have htotal : (encode order t payload ++ rest).length =
      align4 (4 + payload.length) + rest.length := by
    rw [List.length_append, length_encode]
  rw [parse, hheadLen, if_pos (by omega), if_neg (by omega), if_neg (by omega), hheadType,
    hpayload, hrest]

/-- **A stream reads back.** -/
theorem parse_encoded {attrs : List (UInt16 × List UInt8)}
    (hlen : ∀ a ∈ attrs, 4 + a.2.length < 65536) :
    parse order mask (attrs.flatMap fun a => encode order a.1 a.2) =
      some (attrs.map fun a => (mask a.1, a.2)) := by
  induction attrs with
  | nil => exact parse_nil
  | cons a attrs ih =>
    rw [List.forall_mem_cons] at hlen
    rw [List.flatMap_cons, parse_encode_append hlen.1, ih hlen.2, List.map_cons]
    rfl

end Tlv
