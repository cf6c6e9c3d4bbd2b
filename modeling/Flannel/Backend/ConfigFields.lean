import Flannel.Backend.Wireguard
import Flannel.Lib.Fields
import Flannel.Lib.Json

/-!
# The configurations of the vxlan and the wireguard backend

`parse_vxlan_config` (`backend/vxlan/config.rs`) and `parse_wg_config`
(`backend/wireguard/mod.rs`): the JSON text of a backend becomes a record of fields.  A key names a
field with its tag, in any case of its letters.

Both say that they take over what Go does, where the keys are decoded in the order of the document
and a later key overwrites the field.  What they go through is the map that `serde_json` makes of
the document, and that is in the order of the keys.  `Fields.Overtaken` says when that can be
told.

The reader of JSON text is `serde_json`, so it is a parameter.
-/

namespace Flannel

open Json (Value)

/-! ## Keys and fields -/

/-- `str::eq_ignore_ascii_case`. -/
def eqIgnoreAsciiCase (a b : String) : Bool :=
  a.toList.map Char.toLower = b.toList.map Char.toLower

/-- `match_field`: the field with this tag, or else the first with this tag in other letters. -/
def matchField {φ : Type} (tag : φ → String) (fields : List φ) (key : String) : Option φ :=
  (fields.find? fun f => key = tag f).or (fields.find? fun f => eqIgnoreAsciiCase key (tag f))

/-- `json_type`. -/
def jsonType : Value → String
  | .null => "null"
  | .bool _ => "bool"
  | .number _ => "number"
  | .string _ => "string"
  | .array _ => "array"
  | .object _ => "object"

/-- The message for a value that a field does not take. -/
def fieldError (goStruct tag goType : String) (val : Value) : String :=
  "json: cannot unmarshal " ++ jsonType val ++ " into Go struct field " ++ goStruct ++ "." ++ tag ++
    " of type " ++ goType

/-- `int_field`; the cast to `u32` wraps. -/
def intField (goStruct tag : String) (val : Value) : Except String UInt32 :=
  match val.asI64 with
  | none => .error (fieldError goStruct tag "int" val)
  | some n => .ok (UInt32.ofInt n)

/-- `bool_field`. -/
def boolField (goStruct tag : String) (val : Value) : Except String Bool :=
  match val.asBool with
  | none => .error (fieldError goStruct tag "bool" val)
  | some b => .ok b

/-- `string_field`. -/
def stringField (goStruct tag : String) (val : Value) : Except String String :=
  match val.asStr with
  | none => .error (fieldError goStruct tag "string" val)
  | some s => .ok s

/-- What both parsers do: without a text, or with `null`, the defaults; and else the members of the
object, one after another. -/
def parseConfig {φ ρ : Type} (json : String → Except String Value) (fieldOf : String → Option φ)
    (assign : ρ → φ → Value → Except String ρ) (goType : String) (cfg : ρ)
    (backend : Option String) : Except String ρ :=
  match backend with
  | none => .ok cfg
  | some text =>
    if text = "null" then .ok cfg
    else
      match json text with
      | .error e => .error e
      | .ok (.object map) => Fields.decode fieldOf assign cfg map
      | .ok value =>
        .error ("json: cannot unmarshal " ++ jsonType value ++ " into Go value of type " ++ goType)

/-! ## vxlan -/

/-- `VXLANConfig`. -/
structure VXLANConfig where
  vni : UInt32
  port : UInt32
  mtu : UInt32
  gbp : Bool
  learning : Bool
  directRouting : Bool
  deriving DecidableEq, Repr

/-- The fields of `VXLANConfig`. -/
inductive VxlanField where
  | mtu
  | vni
  | port
  | gbp
  | learning
  | directRouting
  deriving DecidableEq, Repr

/-- The tag of a field. -/
def VxlanField.tag : VxlanField → String
  | .mtu => "mtu"
  | .vni => "vni"
  | .port => "port"
  | .gbp => "gbp"
  | .learning => "learning"
  | .directRouting => "directRouting"

/-- `FIELDS` of vxlan. -/
def vxlanFields : List VxlanField := [.mtu, .vni, .port, .gbp, .learning, .directRouting]

/-- Set a field of the configuration from a value. -/
def VXLANConfig.assign (cfg : VXLANConfig) : VxlanField → Value → Except String VXLANConfig
  | .mtu, val => do
    let n ← intField "VXLANConfig" VxlanField.mtu.tag val
    return { cfg with mtu := n }
  | .vni, val => do
    let n ← intField "VXLANConfig" VxlanField.vni.tag val
    return { cfg with vni := n }
  | .port, val => do
    let n ← intField "VXLANConfig" VxlanField.port.tag val
    return { cfg with port := n }
  | .gbp, val => do
    let b ← boolField "VXLANConfig" VxlanField.gbp.tag val
    return { cfg with gbp := b }
  | .learning, val => do
    let b ← boolField "VXLANConfig" VxlanField.learning.tag val
    return { cfg with learning := b }
  | .directRouting, val => do
    let b ← boolField "VXLANConfig" VxlanField.directRouting.tag val
    return { cfg with directRouting := b }

/-- `parse_vxlan_config`. -/
def parseVxlanConfig (json : String → Except String Value) (backend : Option String)
    (defaultMtu : UInt32) : Except String VXLANConfig :=
  parseConfig json (matchField VxlanField.tag vxlanFields) VXLANConfig.assign "vxlan.VXLANConfig"
    { vni := 1, port := 0, mtu := defaultMtu, gbp := false, learning := false,
      directRouting := false }
    backend

/-! ## wireguard -/

/-- `Mode::parse`. -/
def Mode.parse : String → Option Mode
  | "separate" => some .separate
  | "auto" => some .auto
  | "ipv4" => some .ipv4
  | "ipv6" => some .ipv6
  | _ => none

/-- The fields of `WgConfig`. -/
inductive WgField where
  | listenPort
  | listenPortV6
  | mtu
  | psk
  | persistentKeepaliveInterval
  | mode
  deriving DecidableEq, Repr

/-- The tag of a field. -/
def WgField.tag : WgField → String
  | .listenPort => "ListenPort"
  | .listenPortV6 => "ListenPortV6"
  | .mtu => "MTU"
  | .psk => "PSK"
  | .persistentKeepaliveInterval => "PersistentKeepaliveInterval"
  | .mode => "Mode"

/-- `FIELDS` of wireguard. -/
def wgFields : List WgField :=
  [.listenPort, .listenPortV6, .mtu, .psk, .persistentKeepaliveInterval, .mode]

/-- Set a field of the configuration from a value. -/
def WgConfig.assign (cfg : WgConfig) : WgField → Value → Except String WgConfig
  | .listenPort, val => do
    let n ← intField "" WgField.listenPort.tag val
    return { cfg with listenPort := n.toNat }
  | .listenPortV6, val => do
    let n ← intField "" WgField.listenPortV6.tag val
    return { cfg with listenPortV6 := n.toNat }
  | .mtu, val => do
    let n ← intField "" WgField.mtu.tag val
    return { cfg with mtu := n.toNat }
  | .psk, val => do
    let s ← stringField "" WgField.psk.tag val
    return { cfg with psk := s }
  | .persistentKeepaliveInterval, val =>
    match val.asI64 with
    | none => .error (fieldError "" WgField.persistentKeepaliveInterval.tag "time.Duration" val)
    | some n => .ok { cfg with keepaliveSecs := (max n 0).toNat }
  | .mode, val => do
    let s ← stringField "" WgField.mode.tag val
    return { cfg with mode := Mode.parse s }

/-- `parse_wg_config`. -/
def parseWgConfig (json : String → Except String Value) (backend : Option String)
    (defaultMtu : UInt32) : Except String WgConfig :=
  parseConfig json (matchField WgField.tag wgFields) WgConfig.assign
    ("struct \x7b ListenPort int; ListenPortV6 int; MTU int; PSK string; " ++
      "PersistentKeepaliveInterval time.Duration; Mode wireguard.Mode \x7d")
    { listenPort := 51820, listenPortV6 := 51821, mtu := defaultMtu.toNat, psk := "",
      keepaliveSecs := 0, mode := some .separate }
    backend

/-! ## Which keys name a field -/

theorem eqIgnoreAsciiCase_iff {a b : String} :
    eqIgnoreAsciiCase a b = true ↔ a.toList.map Char.toLower = b.toList.map Char.toLower :=
  decide_eq_true_iff

section MatchField

variable {φ : Type} {tag : φ → String} {fields : List φ}

theorem eqIgnoreAsciiCase_of_matchField {key : String} {f : φ}
    (h : matchField tag fields key = some f) : eqIgnoreAsciiCase key (tag f) = true := by
  rcases Option.or_eq_some_iff.mp h with hexact | ⟨-, hfold⟩
  · have hkey : key = tag f := by simpa using List.find?_some hexact
    rw [hkey, eqIgnoreAsciiCase_iff]
  · simpa using List.find?_some hfold

/-- **A key matches a field exactly if it is its tag in any case of the letters**, as the tags
differ in more than case. -/
theorem matchField_eq_some_iff (hmem : ∀ f, f ∈ fields)
    (hinj : ∀ f g, eqIgnoreAsciiCase (tag f) (tag g) = true → f = g) (key : String) (f : φ) :
    matchField tag fields key = some f ↔ eqIgnoreAsciiCase key (tag f) = true := by
  refine ⟨eqIgnoreAsciiCase_of_matchField, fun hkey => ?_⟩
  cases hmatch : matchField tag fields key with
  | none =>
    have hnone := List.find?_eq_none.mp (Option.or_eq_none_iff.mp hmatch).2 f (hmem f)
    exact absurd hkey hnone
  | some g =>
    have hkey' := eqIgnoreAsciiCase_iff.mp (eqIgnoreAsciiCase_of_matchField hmatch)
    have hsame := hinj g f (eqIgnoreAsciiCase_iff.mpr
      (hkey'.symm.trans (eqIgnoreAsciiCase_iff.mp hkey)))
    rw [hsame]

end MatchField

/-- A key that names a field of vxlan. -/
def VxlanField.names (f : VxlanField) (key : String) : Bool := eqIgnoreAsciiCase key f.tag

/-- A key that names a field of wireguard. -/
def WgField.names (f : WgField) (key : String) : Bool := eqIgnoreAsciiCase key f.tag

theorem mem_vxlanFields (f : VxlanField) : f ∈ vxlanFields := by
  cases f <;> decide

theorem mem_wgFields (f : WgField) : f ∈ wgFields := by
  cases f <;> decide

theorem matchField_vxlan_iff (key : String) (f : VxlanField) :
    matchField VxlanField.tag vxlanFields key = some f ↔ f.names key = true := by
  refine matchField_eq_some_iff mem_vxlanFields (fun f g h => ?_) key f
  cases f <;> cases g <;> first | rfl | exact absurd h (by decide)

theorem matchField_wg_iff (key : String) (f : WgField) :
    matchField WgField.tag wgFields key = some f ↔ f.names key = true := by
  refine matchField_eq_some_iff mem_wgFields (fun f g h => ?_) key f
  cases f <;> cases g <;> first | rfl | exact absurd h (by decide)

/-! ## What a field reads -/

/-- The number that an integer field takes from a value. -/
def readU32 (val : Value) : Option UInt32 := val.asI64.map UInt32.ofInt

/-- What a field of vxlan holds. -/
abbrev VxlanField.Holds : VxlanField → Type
  | .mtu | .vni | .port => UInt32
  | .gbp | .learning | .directRouting => Bool

/-- What a field of vxlan takes from a value of the right type. -/
def VxlanField.read : (f : VxlanField) → Value → Option f.Holds
  | .mtu | .vni | .port => readU32
  | .gbp | .learning | .directRouting => Value.asBool

/-- The defaults of vxlan. -/
def VxlanField.default (defaultMtu : UInt32) : (f : VxlanField) → f.Holds
  | .mtu => defaultMtu
  | .vni => (1 : UInt32)
  | .port => (0 : UInt32)
  | .gbp | .learning | .directRouting => false

/-- The configuration with these fields. -/
def VXLANConfig.ofFields (x : ∀ f : VxlanField, f.Holds) : VXLANConfig where
  vni := x .vni
  port := x .port
  mtu := x .mtu
  gbp := x .gbp
  learning := x .learning
  directRouting := x .directRouting

/-- What a field of wireguard holds. -/
abbrev WgField.Holds : WgField → Type
  | .listenPort | .listenPortV6 | .mtu | .persistentKeepaliveInterval => Nat
  | .psk => String
  | .mode => Option Mode

/-- What a field of wireguard takes from a value of the right type. -/
def WgField.read : (f : WgField) → Value → Option f.Holds
  | .listenPort | .listenPortV6 | .mtu => fun val => (readU32 val).map UInt32.toNat
  | .psk => Value.asStr
  | .persistentKeepaliveInterval => fun val => val.asI64.map fun n => (max n 0).toNat
  | .mode => fun val => val.asStr.map Mode.parse

/-- The defaults of wireguard. -/
def WgField.default (defaultMtu : UInt32) : (f : WgField) → f.Holds
  | .listenPort => (51820 : Nat)
  | .listenPortV6 => (51821 : Nat)
  | .mtu => defaultMtu.toNat
  | .psk => ""
  | .persistentKeepaliveInterval => (0 : Nat)
  | .mode => some .separate

/-- The configuration with these fields. -/
def WgConfig.ofFields (x : ∀ f : WgField, f.Holds) : WgConfig where
  listenPort := x .listenPort
  listenPortV6 := x .listenPortV6
  mtu := x .mtu
  psk := x .psk
  keepaliveSecs := x .persistentKeepaliveInterval
  mode := x .mode

theorem VXLANConfig.ofFields_injective : Function.Injective VXLANConfig.ofFields := by
  intro x y h
  ext f
  cases f with
  | mtu => exact congrArg VXLANConfig.mtu h
  | vni => exact congrArg VXLANConfig.vni h
  | port => exact congrArg VXLANConfig.port h
  | gbp => exact congrArg VXLANConfig.gbp h
  | learning => exact congrArg VXLANConfig.learning h
  | directRouting => exact congrArg VXLANConfig.directRouting h

theorem WgConfig.ofFields_injective : Function.Injective WgConfig.ofFields := by
  intro x y h
  ext f
  cases f with
  | listenPort => exact congrArg WgConfig.listenPort h
  | listenPortV6 => exact congrArg WgConfig.listenPortV6 h
  | mtu => exact congrArg WgConfig.mtu h
  | psk => exact congrArg WgConfig.psk h
  | persistentKeepaliveInterval => exact congrArg WgConfig.keepaliveSecs h
  | mode => exact congrArg WgConfig.mode h

theorem intField_of_readU32 {goStruct tag : String} {val : Value} {n : UInt32}
    (h : readU32 val = some n) : intField goStruct tag val = .ok n := by
  obtain ⟨i, hi, rfl⟩ := Option.map_eq_some_iff.mp h
  rw [intField, hi]

theorem boolField_of_asBool {goStruct tag : String} {val : Value} {b : Bool}
    (h : val.asBool = some b) : boolField goStruct tag val = .ok b := by
  rw [boolField, h]

theorem stringField_of_asStr {goStruct tag : String} {val : Value} {s : String}
    (h : val.asStr = some s) : stringField goStruct tag val = .ok s := by
  rw [stringField, h]

/-- Assigning sets the field in question and leaves the others. -/
theorem vxlan_assigns :
    Fields.Assigns (matchField VxlanField.tag vxlanFields) VXLANConfig.assign VxlanField.names
      VxlanField.read VXLANConfig.ofFields where
  fieldOf_iff := matchField_vxlan_iff
  assign_mk x f val y hy := by
    cases f with
    | mtu | vni | port =>
      rw [VXLANConfig.assign, intField_of_readU32 hy]
      rfl
    | gbp | learning | directRouting =>
      rw [VXLANConfig.assign, boolField_of_asBool hy]
      rfl

theorem wg_assigns :
    Fields.Assigns (matchField WgField.tag wgFields) WgConfig.assign WgField.names WgField.read
      WgConfig.ofFields where
  fieldOf_iff := matchField_wg_iff
  assign_mk x f val y hy := by
    cases f with
    | listenPort | listenPortV6 | mtu =>
      obtain ⟨n, hn, rfl⟩ := Option.map_eq_some_iff.mp hy
      rw [WgConfig.assign, intField_of_readU32 hn]
      rfl
    | psk =>
      rw [WgConfig.assign, stringField_of_asStr hy]
      rfl
    | persistentKeepaliveInterval =>
      obtain ⟨n, hn, rfl⟩ := Option.map_eq_some_iff.mp hy
      rw [WgConfig.assign, hn]
      rfl
    | mode =>
      obtain ⟨s, hs, rfl⟩ := Option.map_eq_some_iff.mp hy
      rw [WgConfig.assign, stringField_of_asStr hs]
      rfl

/-! ## The last pair and the last key -/

section Document

variable {json : String → Except String Value} {text : String} {pairs : List (String × Value)}

/-- An object is decoded member by member. -/
theorem parseConfig_object {φ ρ : Type} {fieldOf : String → Option φ}
    {assign : ρ → φ → Value → Except String ρ} {goType : String} {cfg : ρ}
    {members : List (String × Value)} (hnull : json "null" = .ok .null)
    (hjson : json text = .ok (.object members)) :
    parseConfig json fieldOf assign goType cfg (some text) =
      Fields.decode fieldOf assign cfg members := by
  have htext : text ≠ "null" := by
    rintro rfl
    rw [hnull] at hjson
    cases hjson
  rw [parseConfig, if_neg htext, hjson]

/-- **Every field has the value of the last pair of the document that names it, or its default,
exactly if no field is overtaken**, for both backends: `serde_json` hands out the members in the
order of their keys, the last of those with the same key, so that the greatest key wins. -/
theorem fields_take_last_pair_iff (hnull : json "null" = .ok .null)
    (hjson : json text = .ok (.object (SortedMap.ofPairs pairs))) (defaultMtu : UInt32) :
    (Fields.Typed VxlanField.names VxlanField.read pairs →
      (parseVxlanConfig json (some text) defaultMtu =
          .ok (.ofFields (Fields.values VxlanField.names VxlanField.read
            (VxlanField.default defaultMtu) pairs)) ↔
        ¬ Fields.Overtaken VxlanField.names VxlanField.read pairs)) ∧
    (Fields.Typed WgField.names WgField.read pairs →
      (parseWgConfig json (some text) defaultMtu =
          .ok (.ofFields (Fields.values WgField.names WgField.read
            (WgField.default defaultMtu) pairs)) ↔
        ¬ Fields.Overtaken WgField.names WgField.read pairs)) := by
  constructor
  · intro htyped
    rw [parseVxlanConfig, parseConfig_object hnull hjson]
    exact Fields.decode_ofPairs_iff vxlan_assigns VXLANConfig.ofFields_injective htyped
      (VxlanField.default defaultMtu)
  · intro htyped
    rw [parseWgConfig, parseConfig_object hnull hjson]
    exact Fields.decode_ofPairs_iff wg_assigns WgConfig.ofFields_injective htyped
      (WgField.default defaultMtu)

end Document

/-- A reader that knows one document. -/
def documentJson (text : String) (pairs : List (String × Value)) (t : String) :
    Except String Value :=
  if t = "null" then .ok .null
  else if t = text then .ok (.object (SortedMap.ofPairs pairs))
  else .error "expected value"

/-- A document with a key of both backends, in two spellings. -/
def mtuText : String := "\x7b\"MTU\":1400,\"mtu\":1300\x7d"

/-- The members of the document. -/
def mtuTwice : List (String × Value) :=
  [("MTU", .number (.posInt 1400)), ("mtu", .number (.posInt 1300))]

/-- The later of the two keys is also the greater. -/
theorem fields_take_last_pair_iff_mtu :
    parseVxlanConfig (documentJson mtuText mtuTwice) (some mtuText) 1500 =
      .ok (.ofFields (Fields.values VxlanField.names VxlanField.read (VxlanField.default 1500)
        mtuTwice)) ∧
    parseWgConfig (documentJson mtuText mtuTwice) (some mtuText) 1500 =
      .ok (.ofFields (Fields.values WgField.names WgField.read (WgField.default 1500)
        mtuTwice)) := by
  have hsorted : SortedMap.Sorted mtuTwice :=
    List.pairwise_pair.mpr (by decide : "MTU" < "mtu")
  have hnull : documentJson mtuText mtuTwice "null" = .ok .null := rfl
  have hjson : documentJson mtuText mtuTwice mtuText =
      .ok (.object (SortedMap.ofPairs mtuTwice)) := rfl
  obtain ⟨hvxlan, hwg⟩ := fields_take_last_pair_iff hnull hjson 1500
  constructor
  · have htyped : Fields.Typed VxlanField.names VxlanField.read mtuTwice :=
      Fields.typed_of_mem mem_vxlanFields (by decide)
    exact (hvxlan htyped).mpr (Fields.not_overtaken_of_sorted hsorted)
  · have htyped : Fields.Typed WgField.names WgField.read mtuTwice :=
      Fields.typed_of_mem mem_wgFields (by decide)
    exact (hwg htyped).mpr (Fields.not_overtaken_of_sorted hsorted)

/-- A document with the same field twice, the exact tag first. -/
def vniText : String := "\x7b\"vni\":7,\"VNI\":5\x7d"

/-- The members of the document. -/
def vniTwice : List (String × Value) :=
  [("vni", .number (.posInt 7)), ("VNI", .number (.posInt 5))]

/-- The last pair says 5, and the configuration has 7. -/
theorem exact_key_beats_later_key :
    Fields.Typed VxlanField.names VxlanField.read vniTwice ∧
    Fields.values VxlanField.names VxlanField.read (VxlanField.default 1500) vniTwice .vni =
      (5 : UInt32) ∧
    parseVxlanConfig (documentJson vniText vniTwice) (some vniText) 1500 =
      .ok { vni := 7, port := 0, mtu := 1500, gbp := false, learning := false,
            directRouting := false } ∧
    parseVxlanConfig (documentJson vniText vniTwice) (some vniText) 1500 ≠
      .ok (.ofFields (Fields.values VxlanField.names VxlanField.read (VxlanField.default 1500)
        vniTwice)) := by
  refine ⟨Fields.typed_of_mem mem_vxlanFields (by decide), rfl, rfl, fun h => ?_⟩
  have hvni := congrArg VXLANConfig.vni (Except.ok.inj h)
  exact absurd hvni (by decide)

end Flannel
