import Flannel.Lib.Bytes
import Flannel.Lib.Utf8

/-!
# The messages of VICI

`backend/ipsec/vici.rs`: how the IPsec backend speaks to charon.  A message is a list of
segments, and a section is a segment that holds a message.  On the wire the segments stand one
after the other, each with its type first; a section is closed by a segment of its own, and
nothing says beforehand where that is.

The parser is given an offset that only grows.  Here it is given what is left of the input,
and its results carry that this does not get longer (`Rest`), which is why the parser ends.
-/

namespace Flannel

open Bytes Text

namespace Vici

/-! ## Messages -/

/-- `ViciSegment`.  The message in a section is given by its segments. -/
inductive ViciSegment where
  | key (key : String) (value : List UInt8)
  | list (name : String) (items : List (List UInt8))
  | sect (name : String) (inner : List ViciSegment)
  deriving Repr

/-- `ViciMessage`. -/
structure ViciMessage where
  segments : List ViciSegment
  deriving Repr

/-- `SECTION_START`. -/
def sectionStart : UInt8 := 1

/-- `SECTION_END`. -/
def sectionEnd : UInt8 := 2

/-- `KEY_VALUE`. -/
def keyValue : UInt8 := 3

/-- `LIST_START`. -/
def listStart : UInt8 := 4

/-- `LIST_ITEM`. -/
def listItem : UInt8 := 5

/-- `LIST_END`. -/
def listEnd : UInt8 := 6

/-! ## Encoding -/

/-- The bytes of a name, after their number as a `u8`. -/
def nameField (raw : List UInt8) : List UInt8 := UInt8.ofNat raw.length :: raw

/-- `push_name`. -/
def pushName (name : String) : List UInt8 := nameField (asBytes name)

/-- The bytes of a value or of an item, after their number as a `u16`. -/
def valueField (value : List UInt8) : List UInt8 := beBytes 2 value.length ++ value

/-- The items of a list and its end. -/
def itemsField : List (List UInt8) → List UInt8
  | [] => [listEnd]
  | item :: items => listItem :: (valueField item ++ itemsField items)

mutual

/-- The body of the loop of `encode_segments`. -/
def encodeSegment : ViciSegment → List UInt8
  | .key k v => keyValue :: (pushName k ++ valueField v)
  | .list name items => listStart :: (pushName name ++ itemsField items)
  | .sect name inner => sectionStart :: (pushName name ++ (encodeSegments inner ++ [sectionEnd]))

/-- `encode_segments`: what it appends. -/
def encodeSegments : List ViciSegment → List UInt8
  | [] => []
  | seg :: segments => encodeSegment seg ++ encodeSegments segments

end

/-- `ViciMessage::encode`. -/
def ViciMessage.encode (m : ViciMessage) : List UInt8 := encodeSegments m.segments

/-! ## Parsing -/

/-- What can be left of an input. -/
abbrev Rest (bytes : List UInt8) : Type := {rest : List UInt8 // rest.length ≤ bytes.length}

/-- `bytes.get(off..off + len)`, and what is left behind it. -/
def getRange (len : Nat) (bytes : List UInt8) : Option (List UInt8 × Rest bytes) :=
  if len ≤ bytes.length then
    some (bytes.take len, ⟨bytes.drop len, by rw [List.length_drop]; omega⟩)
  else none

/-- The bytes of a name, before they are made a text. -/
def rawName : (bytes : List UInt8) → Option (List UInt8 × Rest bytes)
  | [] => none
  | len :: bytes =>
    match getRange len.toNat bytes with
    | none => none
    | some (raw, rest) => some (raw, ⟨rest.1, Nat.le_succ_of_le rest.2⟩)

/-- `read_name`. -/
def readName (bytes : List UInt8) : Except String (String × Rest bytes) :=
  match rawName bytes with
  | none => .error "truncated VICI name"
  | some (raw, rest) => .ok (fromUtf8Lossy raw, rest)

/-- `read_u16_bytes`. -/
def readU16Bytes (bytes : List UInt8) : Except String (List UInt8 × Rest bytes) :=
  match getRange 2 bytes with
  | none => .error "truncated VICI length"
  | some (len, rest) =>
    match getRange (ofBeBytes len) rest.1 with
    | none => .error "truncated VICI value"
    | some (value, rest') => .ok (value, ⟨rest'.1, Nat.le_trans rest'.2 rest.2⟩)

/-- The loop of `parse_segments` over the items of a list. -/
def parseItems : (bytes : List UInt8) → Except String (List (List UInt8) × Rest bytes)
  | [] => .error "unterminated VICI list"
  | tag :: bytes =>
    if tag = listItem then
      match readU16Bytes bytes with
      | .error e => .error e
      | .ok (item, rest) =>
        match parseItems rest.1 with
        | .error e => .error e
        | .ok (items, rest') =>
          .ok (item :: items, ⟨rest'.1, Nat.le_succ_of_le (Nat.le_trans rest'.2 rest.2)⟩)
    else if tag = listEnd then .ok ([], ⟨bytes, Nat.le_succ _⟩)
    else .error s!"segment {tag} inside VICI list"
termination_by bytes => bytes.length
decreasing_by exact Nat.lt_succ_of_le rest.2

/-- `parse_segments`.  The loop goes on with the function itself, from where it is. -/
def parseSegments : (bytes : List UInt8) → Except String (List ViciSegment × Rest bytes)
  | [] => .ok ([], ⟨[], Nat.le_refl _⟩)
  | tag :: bytes =>
    if tag = sectionStart then
      match readName bytes with
      | .error e => .error e
      | .ok (name, rest) =>
        match parseSegments rest.1 with
        | .error e => .error e
        | .ok (inner, rest₁) =>
          match parseSegments rest₁.1 with
          | .error e => .error e
          | .ok (segments, rest₂) =>
            .ok (.sect name inner :: segments, ⟨rest₂.1, Nat.le_succ_of_le
              (Nat.le_trans rest₂.2 (Nat.le_trans rest₁.2 rest.2))⟩)
    else if tag = sectionEnd then .ok ([], ⟨bytes, Nat.le_succ _⟩)
    else if tag = keyValue then
      match readName bytes with
      | .error e => .error e
      | .ok (key, rest) =>
        match readU16Bytes rest.1 with
        | .error e => .error e
        | .ok (value, rest₁) =>
          match parseSegments rest₁.1 with
          | .error e => .error e
          | .ok (segments, rest₂) =>
            .ok (.key key value :: segments, ⟨rest₂.1, Nat.le_succ_of_le
              (Nat.le_trans rest₂.2 (Nat.le_trans rest₁.2 rest.2))⟩)
    else if tag = listStart then
      match readName bytes with
      | .error e => .error e
      | .ok (name, rest) =>
        match parseItems rest.1 with
        | .error e => .error e
        | .ok (items, rest₁) =>
          match parseSegments rest₁.1 with
          | .error e => .error e
          | .ok (segments, rest₂) =>
            .ok (.list name items :: segments, ⟨rest₂.1, Nat.le_succ_of_le
              (Nat.le_trans rest₂.2 (Nat.le_trans rest₁.2 rest.2))⟩)
    else .error s!"unknown VICI segment type {tag}"
termination_by bytes => bytes.length
decreasing_by
  · exact Nat.lt_succ_of_le rest.2
  · exact Nat.lt_succ_of_le (Nat.le_trans rest₁.2 rest.2)
  · exact Nat.lt_succ_of_le (Nat.le_trans rest₁.2 rest.2)
  · exact Nat.lt_succ_of_le (Nat.le_trans rest₁.2 rest.2)

/-- `ViciMessage::parse`. -/
def ViciMessage.parse (bytes : List UInt8) : Except String ViciMessage :=
  match parseSegments bytes with
  | .error e => .error e
  | .ok (segments, rest) =>
    if rest.1 ≠ [] then .error "trailing bytes in VICI message" else .ok ⟨segments⟩

/-! ## Packets -/

/-- `MAX_PACKET_LEN`. -/
def maxPacketLen : Nat := 64 * 1024

/-- The errors of `read_packet`, by their kinds. -/
inductive PacketError where
  | unexpectedEof
  | invalidData (msg : String)
  deriving DecidableEq, Repr

/-- `Read::read_exact`: so many bytes of a stream, and what is left of it. -/
def readExact (len : Nat) (stream : List UInt8) : Except PacketError (List UInt8 × List UInt8) :=
  if len ≤ stream.length then .ok (stream.take len, stream.drop len) else .error .unexpectedEof

/-- `write_packet`: the bytes that it writes. -/
def writePacket (ptype : UInt8) (payload : List UInt8) : List UInt8 :=
  beBytes 4 (payload.length + 1) ++ [ptype] ++ payload

/-- `read_packet`, with what is left of the stream. -/
def readPacket (stream : List UInt8) :
    Except PacketError ((UInt8 × List UInt8) × List UInt8) := do
  let (lenBuf, stream) ← readExact 4 stream
  let len := ofBeBytes lenBuf
  if len = 0 then .error (.invalidData "empty VICI packet")
  else if len > maxPacketLen then
    .error (.invalidData s!"VICI packet length {len} exceeds the {maxPacketLen}-byte limit")
  else do
    -- there is a first byte, as the length is not 0
    let (body, stream) ← readExact len stream
    .ok ((body.headD 0, body.tail), stream)

end Vici

end Flannel
