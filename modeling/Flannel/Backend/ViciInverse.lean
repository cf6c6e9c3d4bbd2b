import Flannel.Backend.ViciCodec

/-!
# What the parser of VICI messages accepts

`ViciMessage::parse` is called the inverse of `encode`.  The loop of `parse_segments` returns
at the end of a section and at the end of the input alike, whatever it was called for.  So a
section that is cut off is taken for one that ends there, and a section end that closes
nothing is taken for the end of the message.  A name that is not UTF-8 is replaced by one
that is.

An accepted input is the encoding of what was read from it exactly if none of this happens
in it, and that can be seen from its segments one after the other, without their nesting
(`segmentHeads`): there are as many section ends as section starts, and the names are UTF-8.
-/

namespace Flannel

open Bytes Results Text

namespace Vici

/-- The heads of the segments of an input, one after the other, without their nesting. -/
def segmentHeads : List UInt8 → List SegmentHead
  | [] => []
  | tag :: bytes =>
    if tag = sectionEnd then .sectionEnd :: segmentHeads bytes
    else
      match rawName bytes with
      | none => []
      | some (name, rest) =>
        if tag = sectionStart then .sectionStart name :: segmentHeads rest.1
        else if tag = keyValue then
          match readU16Bytes rest.1 with
          | .error _ => []
          | .ok (_, rest₁) => .keyValue name :: segmentHeads rest₁.1
        else if tag = listStart then
          match parseItems rest.1 with
          | .error _ => []
          | .ok (_, rest₁) => .listStart name :: segmentHeads rest₁.1
        else []
termination_by bytes => bytes.length
decreasing_by
  · exact Nat.lt_succ_self _
  · exact Nat.lt_succ_of_le rest.2
  · exact Nat.lt_succ_of_le (Nat.le_trans rest₁.2 rest.2)
  · exact Nat.lt_succ_of_le (Nat.le_trans rest₁.2 rest.2)

namespace SegmentHead

/-- The head opens a section. -/
def isStart : SegmentHead → Bool
  | .sectionStart _ => true
  | _ => false

/-- The head closes a section. -/
def isEnd : SegmentHead → Bool
  | .sectionEnd => true
  | _ => false

/-- The name in the head, if it has one, is UTF-8. -/
def nameOk : SegmentHead → Bool
  | .sectionEnd => true
  | .sectionStart name => (fromUtf8 name).isOk
  | .keyValue name => (fromUtf8 name).isOk
  | .listStart name => (fromUtf8 name).isOk

end SegmentHead

variable {bytes rest raw : List UInt8} {segments : List ViciSegment} {heads : List SegmentHead}

theorem segmentHeads_of_parses (h : Parses bytes segments rest heads) :
    segmentHeads bytes = heads ++ segmentHeads rest := by
  induction h with
  | nil => rfl
  | sectionEnd rest => rw [segmentHeads, if_pos rfl, List.singleton_append]
  | @sect raw bytes rest₁ rest inner segments heads₁ heads hraw hinner hsegments ih₁ ih₂ =>
    obtain ⟨hle, hname⟩ := rawName_of_eq bytes rfl hraw
    rw [segmentHeads, if_neg (by decide), hname]
    simp only
    rw [if_pos trivial, ih₁, ih₂, List.cons_append, List.append_assoc]
  | @key raw value bytes rest segments heads hraw hvalue hsegments ih =>
    obtain ⟨hle, hname⟩ := rawName_of_eq (valueField value ++ bytes) rfl hraw
    obtain ⟨hle₁, hread⟩ := readU16Bytes_of_eq bytes rfl hvalue
    rw [segmentHeads, if_neg (by decide), hname]
    simp only
    rw [if_neg (by decide), if_pos trivial, hread]
    simp only
    rw [ih, List.cons_append]
  | @list raw bytes rest items segments heads hraw hitems hsegments ih =>
    obtain ⟨hle, hname⟩ := rawName_of_eq (itemsField items ++ bytes) rfl hraw
    obtain ⟨hle₁, hread⟩ := parseItems_of_eq bytes rfl hitems
    rw [segmentHeads, if_neg (by decide), hname]
    simp only
    rw [if_neg (by decide), if_neg (by decide), if_pos trivial, hread]
    simp only
    rw [ih, List.cons_append]

/-! ## Where the parser stops -/

theorem pushName_fromUtf8Lossy (h : (fromUtf8 raw).isOk = true) :
    pushName (fromUtf8Lossy raw) = nameField raw := by
  rw [pushName, asBytes_fromUtf8Lossy_iff.mpr h]

/-- Where the parser has stopped.  What it has read is the encoding of what it returns up to
the section end that it stopped at, or else the input has ended, and some section ends are
missing from it. -/
def Stops (bytes : List UInt8) (segments : List ViciSegment) (rest : List UInt8)
    (heads : List SegmentHead) : Prop :=
  (bytes = encodeSegments segments ++ sectionEnd :: rest ∧
    heads.countP SegmentHead.isEnd = heads.countP SegmentHead.isStart + 1) ∨
  (rest = [] ∧ ∃ missing, encodeSegments segments = bytes ++ List.replicate missing sectionEnd ∧
    heads.countP SegmentHead.isStart = heads.countP SegmentHead.isEnd + missing)

theorem Stops.cons (seg : ViciSegment) {head : SegmentHead}
    (h : Stops bytes segments rest heads) (hstart : head.isStart = false)
    (hend : head.isEnd = false) :
    Stops (encodeSegment seg ++ bytes) (seg :: segments) rest (head :: heads) := by
  rw [Stops, List.countP_cons, List.countP_cons, hstart, hend, encodeSegments]
  rcases h with ⟨hbytes, hcount⟩ | ⟨hrest, missing, hencode, hcount⟩
  · exact .inl ⟨by rw [hbytes, List.append_assoc], hcount⟩
  · exact .inr ⟨hrest, missing, by rw [hencode, List.append_assoc], hcount⟩

theorem stops_of_parses (h : Parses bytes segments rest heads)
    (hnames : ∀ head ∈ heads, head.nameOk = true) : Stops bytes segments rest heads := by
  induction h with
  | nil => exact .inr ⟨rfl, 0, rfl, rfl⟩
  | sectionEnd rest => exact .inl ⟨rfl, rfl⟩
  | @sect raw bytes rest₁ rest inner segments heads₁ heads hraw hinner hsegments ih₁ ih₂ =>
    rw [List.forall_mem_cons, List.forall_mem_append] at hnames
    obtain ⟨hname, hnames₁, hnames₂⟩ := hnames
    rw [← pushName_fromUtf8Lossy hname]
    have hstart : (SegmentHead.sectionStart raw :: (heads₁ ++ heads)).countP SegmentHead.isStart =
        heads₁.countP SegmentHead.isStart + heads.countP SegmentHead.isStart + 1 := by
      rw [List.countP_cons_of_pos rfl, List.countP_append]
    have hend : (SegmentHead.sectionStart raw :: (heads₁ ++ heads)).countP SegmentHead.isEnd =
        heads₁.countP SegmentHead.isEnd + heads.countP SegmentHead.isEnd := by
      rw [List.countP_cons_of_neg (by simp [SegmentHead.isEnd]), List.countP_append]
    rw [Stops, hstart, hend, encodeSegments, encodeSegment]
    rcases ih₁ hnames₁ with ⟨hbytes, hcount₁⟩ | ⟨rfl, missing, hencode, hcount₁⟩
    · -- the section is closed
      rcases ih₂ hnames₂ with ⟨hrest₁, hcount₂⟩ | ⟨hrest, missing, hencode, hcount₂⟩
      · refine .inl ⟨?_, by omega⟩
        rw [hbytes, hrest₁]
        simp
      · refine .inr ⟨hrest, missing, ?_, by omega⟩
        rw [hbytes, hencode]
        simp
    · -- the input ends within the section, so nothing follows it
      cases hsegments
      refine .inr ⟨rfl, missing + 1, ?_, by rw [List.countP_nil, List.countP_nil]; omega⟩
      rw [hencode, List.replicate_succ', encodeSegments]
      simp
  | @key raw value bytes rest segments heads hraw hvalue hsegments ih =>
    rw [List.forall_mem_cons] at hnames
    have hcons : Stops _ _ _ (.keyValue raw :: heads) :=
      (ih hnames.2).cons (.key (fromUtf8Lossy raw) value) rfl rfl
    rwa [encodeSegment, List.cons_append, List.append_assoc,
      pushName_fromUtf8Lossy hnames.1] at hcons
  | @list raw bytes rest items segments heads hraw hitems hsegments ih =>
    rw [List.forall_mem_cons] at hnames
    have hcons : Stops _ _ _ (.listStart raw :: heads) :=
      (ih hnames.2).cons (.list (fromUtf8Lossy raw) items) rfl rfl
    rwa [encodeSegment, List.cons_append, List.append_assoc,
      pushName_fromUtf8Lossy hnames.1] at hcons

/-! ## Names -/

/-- A name that is encoded as it was read, in front of the same bytes, was UTF-8.  Either of
the two is the beginning of the other, and the lengths differ by less than their fields can
hide. -/
theorem fromUtf8_of_nameField_append {x y : List UInt8} (hraw : raw.length ≤ 255)
    (h : pushName (fromUtf8Lossy raw) ++ x = nameField raw ++ y) :
    (fromUtf8 raw).isOk = true ∧ x = y := by
  rw [pushName, nameField, nameField, List.cons_append, List.cons_append] at h
  obtain ⟨hlen, happend⟩ := List.cons.inj h
  have hmod : (asBytes (fromUtf8Lossy raw)).length % 256 = raw.length % 256 := by
    simpa only [UInt8.toNat_ofNat'] using congrArg UInt8.toNat hlen
  have hle : (asBytes (fromUtf8Lossy raw)).length ≤ raw.length + 2 := by
    rcases List.prefix_or_prefix_of_prefix (List.prefix_append _ x)
      (happend ▸ List.prefix_append raw y) with hpre | hpre
    · exact Nat.le_trans hpre.length_le (Nat.le_add_right _ _)
    · exact length_asBytes_fromUtf8Lossy_le hpre
  obtain ⟨hsame, hrest⟩ := List.append_inj happend (by omega)
  exact ⟨asBytes_fromUtf8Lossy_iff.mp hsame, hrest⟩

/-- If the encoding of what was parsed begins like the input, all names in it are UTF-8. -/
theorem nameOk_of_parses {x y : List UInt8} (h : Parses bytes segments rest heads)
    (happend : encodeSegments segments ++ x = bytes ++ y) :
    ∀ head ∈ heads, head.nameOk = true := by
  induction h generalizing x y with
  | nil => exact fun head hhead => absurd hhead List.not_mem_nil
  | sectionEnd rest =>
    intro head hhead
    rw [List.mem_singleton] at hhead
    rw [hhead, SegmentHead.nameOk]
  | @sect raw bytes rest₁ rest inner segments heads₁ heads hraw hinner hsegments ih₁ ih₂ =>
    rw [encodeSegments, encodeSegment] at happend
    simp only [List.cons_append, List.append_assoc, List.cons.injEq, true_and,
      List.nil_append] at happend
    obtain ⟨hname, hrest⟩ := fromUtf8_of_nameField_append hraw happend
    have hnames₁ := ih₁ hrest
    refine List.forall_mem_cons.mpr ⟨hname, List.forall_mem_append.mpr ⟨hnames₁, ?_⟩⟩
    rcases stops_of_parses hinner hnames₁ with ⟨hbytes, -⟩ | ⟨rfl, -⟩
    · rw [hbytes, List.append_assoc, List.append_right_inj, List.cons_append,
        List.cons.injEq] at hrest
      exact ih₂ hrest.2
    · cases hsegments
      exact fun head hhead => absurd hhead List.not_mem_nil
  | @key raw value bytes rest segments heads hraw hvalue hsegments ih =>
    rw [encodeSegments, encodeSegment] at happend
    simp only [List.cons_append, List.append_assoc, List.cons.injEq, true_and] at happend
    obtain ⟨hname, hrest⟩ := fromUtf8_of_nameField_append hraw happend
    exact List.forall_mem_cons.mpr ⟨hname, ih ((List.append_right_inj _).mp hrest)⟩
  | @list raw bytes rest items segments heads hraw hitems hsegments ih =>
    rw [encodeSegments, encodeSegment] at happend
    simp only [List.cons_append, List.append_assoc, List.cons.injEq, true_and] at happend
    obtain ⟨hname, hrest⟩ := fromUtf8_of_nameField_append hraw happend
    exact List.forall_mem_cons.mpr ⟨hname, ih ((List.append_right_inj _).mp hrest)⟩

/-! ## The inverse -/

/-- **When an accepted input is the encoding of what was read from it.**  It has as many
section ends as section starts, and its names are UTF-8. -/
theorem encode_parse_iff {b : List UInt8} {m : ViciMessage} (h : ViciMessage.parse b = .ok m) :
    m.encode = b ↔
      (segmentHeads b).countP SegmentHead.isStart = (segmentHeads b).countP SegmentHead.isEnd ∧
        ∀ head ∈ segmentHeads b, head.nameOk = true := by
  obtain ⟨heads, hparses⟩ := parse_ok_iff.mp h
  have hheads : segmentHeads b = heads := by
    rw [segmentHeads_of_parses hparses, segmentHeads, List.append_nil]
  rw [hheads, ViciMessage.encode]
  constructor
  · intro hencode
    have hnames := nameOk_of_parses (x := []) (y := []) hparses (by rw [hencode])
    refine ⟨?_, hnames⟩
    rcases stops_of_parses hparses hnames with ⟨hb, -⟩ | ⟨-, missing, hb, hcount⟩
    · have hlen := congrArg List.length hb
      rw [hencode, List.length_append, List.length_singleton] at hlen
      omega
    · have hlen := congrArg List.length hb
      rw [hencode, List.length_append, List.length_replicate] at hlen
      omega
  · rintro ⟨hcount, hnames⟩
    rcases stops_of_parses hparses hnames with ⟨-, hcount'⟩ | ⟨-, missing, hb, hcount'⟩
    · omega
    · have hmissing : missing = 0 := by omega
      rw [hb, hmissing, List.replicate_zero, List.append_nil]

theorem encode_parse_iff_section :
    ∃ m, ViciMessage.parse [1, 1, 97, 2] = .ok m ∧ m.encode = [1, 1, 97, 2] := by
  have hparse : ViciMessage.parse [1, 1, 97, 2] = .ok ⟨[.sect (fromUtf8Lossy [97]) []]⟩ :=
    parse_ok_iff.mpr ⟨_, .sect (show [97].length ≤ 255 by decide) (.sectionEnd []) .nil⟩
  refine ⟨_, hparse, (encode_parse_iff hparse).mpr ⟨by decide +kernel, by decide +kernel⟩⟩

/-- A section that is never closed is read as an empty one. -/
theorem parse_unterminated_section :
    ∃ m, ViciMessage.parse [1, 1, 97] = .ok m ∧ m.encode ≠ [1, 1, 97] := by
  have hparse : ViciMessage.parse [1, 1, 97] = .ok ⟨[.sect (fromUtf8Lossy [97]) []]⟩ :=
    parse_ok_iff.mpr ⟨_, .sect (show [97].length ≤ 255 by decide) .nil .nil⟩
  exact ⟨_, hparse, by decide⟩

end Vici

end Flannel
