import Flannel.Backend.Vici
import Flannel.Lib.Results

/-!
# Encoding and parsing VICI messages

The readers of the fields are inverse to the fields, in both directions.  `Parses` says once
how the parser gets from its input to its result: `parse_segments` succeeds exactly along a
derivation of it, and what is proved about the parser is proved by induction on that
derivation.

The round trip builds the derivation from the message.  A section is parsed by a call of its
own, which stops at the section's end, so the induction carries what follows the encoding:
segments in front of any input that can be parsed are added to what is parsed from it.
-/

namespace Flannel

open Bytes Results Text

namespace Vici

variable {bytes rest raw value : List UInt8}

/-! ## Fields

Each reader takes the field it is for off the front of its input, and takes nothing else. -/

theorem getRange_of_eq {len : Nat} {front : List UInt8} (rest : List UInt8)
    (hbytes : bytes = front ++ rest) (hlen : front.length = len) :
    ∃ hle, getRange len bytes = some (front, ⟨rest, hle⟩) := by
  subst hbytes hlen
  refine ⟨by simp, ?_⟩
  simp [getRange]

theorem getRange_some {len : Nat} {front : List UInt8} {rest : Rest bytes}
    (h : getRange len bytes = some (front, rest)) :
    bytes = front ++ rest.1 ∧ front.length = len := by
  unfold getRange at h
  split at h
  · rename_i hlen
    cases h
    exact ⟨(List.take_append_drop len bytes).symm, List.length_take_of_le hlen⟩
  · cases h

theorem rawName_of_eq (rest : List UInt8) (hbytes : bytes = nameField raw ++ rest)
    (hraw : raw.length ≤ 255) :
    ∃ hle, rawName bytes = some (raw, ⟨rest, hle⟩) := by
  subst hbytes
  have hlen : raw.length = (UInt8.ofNat raw.length).toNat := (toNat_ofNat_byte (by omega)).symm
  obtain ⟨hle, hget⟩ := getRange_of_eq rest rfl hlen
  refine ⟨Nat.le_succ_of_le hle, ?_⟩
  change rawName (UInt8.ofNat raw.length :: (raw ++ rest)) = _
  simp only [rawName, hget]
  rfl

theorem rawName_some {rest : Rest bytes} (h : rawName bytes = some (raw, rest)) :
    raw.length ≤ 255 ∧ bytes = nameField raw ++ rest.1 := by
  cases bytes with
  | nil => cases h
  | cons len bytes =>
    rw [rawName] at h
    split at h
    · cases h
    · rename_i front rest' hget
      cases h
      obtain ⟨hbytes, hlen⟩ := getRange_some hget
      have hlt := len.toNat_lt
      refine ⟨by omega, ?_⟩
      rw [nameField, List.cons_append, hlen, UInt8.ofNat_toNat]
      exact congrArg _ hbytes

theorem readName_of_eq (rest : List UInt8) (hbytes : bytes = nameField raw ++ rest)
    (hraw : raw.length ≤ 255) :
    ∃ hle, readName bytes = .ok (fromUtf8Lossy raw, ⟨rest, hle⟩) := by
  obtain ⟨hle, hname⟩ := rawName_of_eq rest hbytes hraw
  refine ⟨hle, ?_⟩
  rw [readName, hname]

theorem readName_ok {name : String} {rest : Rest bytes} (h : readName bytes = .ok (name, rest)) :
    ∃ raw, raw.length ≤ 255 ∧ bytes = nameField raw ++ rest.1 ∧ name = fromUtf8Lossy raw := by
  unfold readName at h
  split at h
  · cases h
  · rename_i raw rest' hname
    cases h
    obtain ⟨hraw, hbytes⟩ := rawName_some hname
    exact ⟨raw, hraw, hbytes, rfl⟩

theorem readU16Bytes_of_eq (rest : List UInt8) (hbytes : bytes = valueField value ++ rest)
    (hvalue : value.length ≤ 65535) :
    ∃ hle, readU16Bytes bytes = .ok (value, ⟨rest, hle⟩) := by
  have hlen : value.length = ofBeBytes (beBytes 2 value.length) :=
    (ofBeBytes_beBytes (by omega)).symm
  rw [valueField, List.append_assoc] at hbytes
  obtain ⟨hle, hget⟩ := getRange_of_eq (value ++ rest) hbytes (length_beBytes 2 _)
  obtain ⟨hle', hget'⟩ := getRange_of_eq rest rfl hlen
  refine ⟨Nat.le_trans hle' hle, ?_⟩
  simp only [readU16Bytes, hget, hget']

theorem readU16Bytes_ok {rest : Rest bytes} (h : readU16Bytes bytes = .ok (value, rest)) :
    value.length ≤ 65535 ∧ bytes = valueField value ++ rest.1 := by
  unfold readU16Bytes at h
  split at h
  · cases h
  · rename_i len rest₁ hlen
    split at h
    · cases h
    · rename_i value' rest₂ hvalue
      cases h
      obtain ⟨hbytes, htwo⟩ := getRange_some hlen
      obtain ⟨hbytes₁, hlength⟩ := getRange_some hvalue
      have hlt := ofBeBytes_lt len
      rw [htwo] at hlt
      refine ⟨by omega, ?_⟩
      rw [valueField, hlength, beBytes_ofBeBytes htwo, List.append_assoc, ← hbytes₁]
      exact hbytes

theorem parseItems_of_eq {items : List (List UInt8)} (rest : List UInt8)
    (hbytes : bytes = itemsField items ++ rest)
    (hitems : ∀ item ∈ items, item.length ≤ 65535) :
    ∃ hle, parseItems bytes = .ok (items, ⟨rest, hle⟩) := by
  induction items generalizing bytes with
  | nil =>
    subst hbytes
    refine ⟨Nat.le_succ _, ?_⟩
    change parseItems (listEnd :: rest) = _
    rw [parseItems, if_neg (by decide), if_pos rfl]
    rfl
  | cons item items ih =>
    obtain ⟨hitem, hitems⟩ := List.forall_mem_cons.mp hitems
    obtain ⟨hle, hrest⟩ := ih rfl hitems
    rw [itemsField, List.cons_append] at hbytes
    subst hbytes
    obtain ⟨hle', hread⟩ := readU16Bytes_of_eq (itemsField items ++ rest)
      (List.append_assoc (valueField item) _ rest) hitem
    refine ⟨Nat.le_succ_of_le (Nat.le_trans hle hle'), ?_⟩
    rw [parseItems, if_pos rfl]
    simp only [hread, hrest]

theorem parseItems_ok {items : List (List UInt8)} {rest : Rest bytes}
    (h : parseItems bytes = .ok (items, rest)) :
    (∀ item ∈ items, item.length ≤ 65535) ∧ bytes = itemsField items ++ rest.1 := by
  fun_induction parseItems bytes generalizing items with
  | case4 bytes item rest₁ hread items rest₂ hparse ih =>
    cases h
    obtain ⟨hitem, hbytes⟩ := readU16Bytes_ok hread
    obtain ⟨hitems, hrest⟩ := ih hparse
    refine ⟨List.forall_mem_cons.mpr ⟨hitem, hitems⟩, ?_⟩
    rw [itemsField, List.cons_append, List.append_assoc, ← hrest, ← hbytes]
  | case5 bytes hne =>
    cases h
    exact ⟨fun item hitem => absurd hitem List.not_mem_nil, rfl⟩
  | _ => cases h

/-! ## Segments -/

/-- The first part of a segment: its type with its name as it is on the wire. -/
inductive SegmentHead where
  | sectionStart (name : List UInt8)
  | sectionEnd
  | keyValue (name : List UInt8)
  | listStart (name : List UInt8)
  deriving DecidableEq, Repr

/-- How `parse_segments` gets from its input to segments and to what it leaves: where it
returns, and what each kind of segment adds in front of the rest of the loop.  The heads that
it goes past are kept, with those of the sections among them. -/
inductive Parses :
    List UInt8 → List ViciSegment → List UInt8 → List SegmentHead → Prop
  | nil : Parses [] [] [] []
  | sectionEnd (rest : List UInt8) : Parses (sectionEnd :: rest) [] rest [.sectionEnd]
  | sect {raw bytes rest₁ rest : List UInt8} {inner segments : List ViciSegment}
      {heads₁ heads : List SegmentHead} (hraw : raw.length ≤ 255)
      (hinner : Parses bytes inner rest₁ heads₁) (hsegments : Parses rest₁ segments rest heads) :
      Parses (sectionStart :: (nameField raw ++ bytes))
        (.sect (fromUtf8Lossy raw) inner :: segments) rest
        (.sectionStart raw :: (heads₁ ++ heads))
  | key {raw value bytes rest : List UInt8} {segments : List ViciSegment}
      {heads : List SegmentHead} (hraw : raw.length ≤ 255) (hvalue : value.length ≤ 65535)
      (hsegments : Parses bytes segments rest heads) :
      Parses (keyValue :: (nameField raw ++ (valueField value ++ bytes)))
        (.key (fromUtf8Lossy raw) value :: segments) rest (.keyValue raw :: heads)
  | list {raw bytes rest : List UInt8} {items : List (List UInt8)} {segments : List ViciSegment}
      {heads : List SegmentHead} (hraw : raw.length ≤ 255)
      (hitems : ∀ item ∈ items, item.length ≤ 65535)
      (hsegments : Parses bytes segments rest heads) :
      Parses (listStart :: (nameField raw ++ (itemsField items ++ bytes)))
        (.list (fromUtf8Lossy raw) items :: segments) rest (.listStart raw :: heads)

variable {segments : List ViciSegment} {heads : List SegmentHead}

theorem parses_of_parseSegments {rest : Rest bytes}
    (h : parseSegments bytes = .ok (segments, rest)) :
    ∃ heads, Parses bytes segments rest.1 heads := by
  fun_induction parseSegments bytes generalizing segments with
  | case1 =>
    cases h
    exact ⟨_, .nil⟩
  | case5 bytes name rest₁ hname inner rest₂ hinner segments rest₃ hsegments ihinner ihsegments =>
    cases h
    obtain ⟨raw, hraw, hbytes, rfl⟩ := readName_ok hname
    obtain ⟨heads₁, h₁⟩ := ihinner hinner
    obtain ⟨heads₂, h₂⟩ := ihsegments hsegments
    have hsect := Parses.sect hraw h₁ h₂
    rw [← hbytes] at hsect
    exact ⟨_, hsect⟩
  | case6 bytes hne =>
    cases h
    exact ⟨_, .sectionEnd bytes⟩
  | case10 bytes key rest₁ hname value rest₂ hvalue segments rest₃ hsegments hne hne' ih =>
    cases h
    obtain ⟨raw, hraw, hbytes, rfl⟩ := readName_ok hname
    obtain ⟨hlen, hrest⟩ := readU16Bytes_ok hvalue
    obtain ⟨heads, h⟩ := ih hsegments
    have hkey := Parses.key hraw hlen h
    rw [← hrest, ← hbytes] at hkey
    exact ⟨_, hkey⟩
  | case14 bytes name rest₁ hname items rest₂ hitems segments rest₃ hsegments hne hne' hne'' ih =>
    cases h
    obtain ⟨raw, hraw, hbytes, rfl⟩ := readName_ok hname
    obtain ⟨hlen, hrest⟩ := parseItems_ok hitems
    obtain ⟨heads, h⟩ := ih hsegments
    have hlist := Parses.list hraw hlen h
    rw [← hrest, ← hbytes] at hlist
    exact ⟨_, hlist⟩
  | _ => cases h

theorem parseSegments_of_parses (h : Parses bytes segments rest heads) :
    ∃ hle, parseSegments bytes = .ok (segments, ⟨rest, hle⟩) := by
  induction h with
  | nil =>
    refine ⟨Nat.le_refl _, ?_⟩
    rw [parseSegments]
  | sectionEnd rest =>
    refine ⟨Nat.le_succ _, ?_⟩
    rw [parseSegments, if_neg (by decide), if_pos rfl]
  | sect hraw hinner hsegments ihinner ihsegments =>
    obtain ⟨hle, hname⟩ := readName_of_eq _ rfl hraw
    obtain ⟨hle₁, hparse₁⟩ := ihinner
    obtain ⟨hle₂, hparse₂⟩ := ihsegments
    refine ⟨Nat.le_succ_of_le (Nat.le_trans hle₂ (Nat.le_trans hle₁ hle)), ?_⟩
    rw [parseSegments, if_pos rfl]
    simp only [hname, hparse₁, hparse₂]
  | key hraw hvalue hsegments ih =>
    obtain ⟨hle, hname⟩ := readName_of_eq _ rfl hraw
    obtain ⟨hle₁, hread⟩ := readU16Bytes_of_eq _ rfl hvalue
    obtain ⟨hle₂, hparse⟩ := ih
    refine ⟨Nat.le_succ_of_le (Nat.le_trans hle₂ (Nat.le_trans hle₁ hle)), ?_⟩
    rw [parseSegments, if_neg (by decide), if_neg (by decide), if_pos rfl]
    simp only [hname, hread, hparse]
  | list hraw hitems hsegments ih =>
    obtain ⟨hle, hname⟩ := readName_of_eq _ rfl hraw
    obtain ⟨hle₁, hread⟩ := parseItems_of_eq _ rfl hitems
    obtain ⟨hle₂, hparse⟩ := ih
    refine ⟨Nat.le_succ_of_le (Nat.le_trans hle₂ (Nat.le_trans hle₁ hle)), ?_⟩
    rw [parseSegments, if_neg (by decide), if_neg (by decide), if_neg (by decide), if_pos rfl]
    simp only [hname, hread, hparse]

theorem parse_ok_iff {m : ViciMessage} :
    ViciMessage.parse bytes = .ok m ↔ ∃ heads, Parses bytes m.segments [] heads := by
  constructor
  · intro h
    unfold ViciMessage.parse at h
    split at h
    · cases h
    · rename_i segments rest hparse
      split at h
      · cases h
      · rename_i hrest
        cases h
        rw [not_not] at hrest
        rw [← hrest]
        exact parses_of_parseSegments hparse
  · rintro ⟨heads, h⟩
    obtain ⟨hle, hparse⟩ := parseSegments_of_parses h
    simp [ViciMessage.parse, hparse]

/-! ## The round trip -/

mutual

/-- The names and the values of a segment fit into their length fields. -/
def ViciSegment.Fits : ViciSegment → Prop
  | .key k v => (asBytes k).length ≤ 255 ∧ v.length ≤ 65535
  | .list name items => (asBytes name).length ≤ 255 ∧ ∀ item ∈ items, item.length ≤ 65535
  | .sect name inner => (asBytes name).length ≤ 255 ∧ SegmentsFit inner

/-- The names and the values of some segments fit into their length fields. -/
def SegmentsFit : List ViciSegment → Prop
  | [] => True
  | seg :: segments => seg.Fits ∧ SegmentsFit segments

end

mutual

theorem parses_encodeSegment : (seg : ViciSegment) → seg.Fits →
    ∀ {bytes rest : List UInt8} {segments : List ViciSegment} {heads : List SegmentHead},
      Parses bytes segments rest heads →
      ∃ heads', Parses (encodeSegment seg ++ bytes) (seg :: segments) rest heads'
  | .key k v, hfit => by
    intro h
    rw [ViciSegment.Fits] at hfit
    have hkey := Parses.key hfit.1 hfit.2 h
    rw [fromUtf8Lossy_asBytes] at hkey
    rw [encodeSegment, List.cons_append, List.append_assoc]
    exact ⟨_, hkey⟩
  | .list name items, hfit => by
    intro h
    rw [ViciSegment.Fits] at hfit
    have hlist := Parses.list hfit.1 hfit.2 h
    rw [fromUtf8Lossy_asBytes] at hlist
    rw [encodeSegment, List.cons_append, List.append_assoc]
    exact ⟨_, hlist⟩
  | .sect name inner, hfit => by
    intro h
    rw [ViciSegment.Fits] at hfit
    -- the section ends where its own end stands, and the loop goes on behind it
    obtain ⟨heads₁, hinner⟩ := parses_encodeSegments inner hfit.2 (.sectionEnd _)
    have hsect := Parses.sect hfit.1 hinner h
    rw [fromUtf8Lossy_asBytes, List.append_nil] at hsect
    rw [encodeSegment, List.cons_append, List.append_assoc, List.append_assoc]
    exact ⟨_, hsect⟩

theorem parses_encodeSegments : (segs : List ViciSegment) → SegmentsFit segs →
    ∀ {bytes rest : List UInt8} {segments : List ViciSegment} {heads : List SegmentHead},
      Parses bytes segments rest heads →
      ∃ heads', Parses (encodeSegments segs ++ bytes) (segs ++ segments) rest heads'
  | [], _ => fun h => ⟨_, h⟩
  | seg :: segs, hfit => by
    intro h
    rw [SegmentsFit] at hfit
    obtain ⟨heads₁, h₁⟩ := parses_encodeSegments segs hfit.2 h
    obtain ⟨heads₂, h₂⟩ := parses_encodeSegment seg hfit.1 h₁
    rw [encodeSegments, List.append_assoc]
    exact ⟨heads₂, h₂⟩

end

/-- The names and the values of a message fit into their length fields. -/
def ViciMessage.Fits (m : ViciMessage) : Prop := SegmentsFit m.segments

theorem parse_encode {m : ViciMessage} (hfit : m.Fits) : ViciMessage.parse m.encode = .ok m := by
  obtain ⟨heads, h⟩ := parses_encodeSegments m.segments hfit .nil
  rw [List.append_nil, List.append_nil] at h
  exact parse_ok_iff.mpr ⟨heads, h⟩

theorem readExact_append (front rest : List UInt8) :
    readExact front.length (front ++ rest) = .ok (front, rest) := by
  simp [readExact]

theorem readPacket_writePacket {ptype : UInt8} {payload : List UInt8}
    (hlen : payload.length + 1 ≤ maxPacketLen) (rest : List UInt8) :
    readPacket (writePacket ptype payload ++ rest) = .ok ((ptype, payload), rest) := by
  have hword : ofBeBytes (beBytes 4 (payload.length + 1)) = payload.length + 1 := by
    refine ofBeBytes_beBytes (Nat.lt_of_le_of_lt hlen ?_)
    decide
  have hstream : writePacket ptype payload ++ rest =
      beBytes 4 (payload.length + 1) ++ ((ptype :: payload) ++ rest) := by
    simp [writePacket]
  have hfirst := readExact_append (beBytes 4 (payload.length + 1)) ((ptype :: payload) ++ rest)
  rw [length_beBytes] at hfirst
  have hbody := readExact_append (ptype :: payload) rest
  rw [List.length_cons] at hbody
  rw [hstream, readPacket, hfirst]
  simp only [bind, Except.bind, hword, hbody]
  rw [if_neg (Nat.succ_ne_zero _), if_neg (Nat.not_lt.mpr hlen)]
  rfl

/-- **What is sent is what is received.**  A message of any nesting is parsed from its own
encoding, if its names and values fit into their length fields, and a packet of at most
64 KiB is read from what was written, whatever stands behind it. -/
theorem vici_round_trip :
    (∀ m : ViciMessage, m.Fits → ViciMessage.parse m.encode = .ok m) ∧
    (∀ (ptype : UInt8) (payload rest : List UInt8), payload.length + 1 ≤ 64 * 1024 →
      readPacket (writePacket ptype payload ++ rest) = .ok ((ptype, payload), rest)) :=
  ⟨fun _ hfit => parse_encode hfit, fun _ _ rest hlen => readPacket_writePacket hlen rest⟩

/-- The message of the test `message_round_trip`. -/
def nestedMessage : ViciMessage where
  segments :=
    [.key "k0" [118, 48],
      .sect "outer" [.key "k1" [118, 49], .list "lst" [[97], [98]], .key "k2" [118, 50]],
      .key "k3" [118, 51]]

theorem vici_round_trip_nested :
    nestedMessage.Fits ∧ ViciMessage.parse nestedMessage.encode = .ok nestedMessage ∧
      readPacket (writePacket 7 [104, 105] ++ [1]) = .ok ((7, [104, 105]), [1]) := by
  have hfit : nestedMessage.Fits := by
    simp [nestedMessage, ViciMessage.Fits, SegmentsFit, ViciSegment.Fits, asBytes,
      String.utf8EncodeChar]
  exact ⟨hfit, vici_round_trip.1 _ hfit, vici_round_trip.2 7 _ [1] (by decide)⟩

end Vici

end Flannel
