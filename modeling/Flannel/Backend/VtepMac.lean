import Flannel.Backend.VxlanEvents
import Flannel.Ip.Digits
import Flannel.Ip.Display
import Flannel.Kube.Events
import Flannel.Lib.Pieces
import Flannel.Lib.Results
import Flannel.Lib.Text
import Mathlib.Algebra.Ring.Nat
import Mathlib.Data.List.Forall2

/-!
# The texts of VTEP addresses

`parse_mac` is a port of `net.ParseMAC` for the addresses of six octets: six groups of two
hexadecimal digits, with colons or hyphens between them.  It cuts the text at colons and hyphens
alike, so both may stand in one text, and it reads each group with `u8::from_str_radix`, which
takes a plus sign for a digit's place.  These are all the texts it takes too many
(`parseMac_exact_iff`).

What a node publishes never has such a text.  `mac_to_string` writes two digits for each octet and
colons between them, the peers read it back from the JSON data of the lease, and the node itself
finds it there after a restart by cutting the same data at `:"` (`published_mac_round_trip`).
-/

namespace Flannel

open StdAddr

/-! ## What `parse_mac` accepts -/

/-- The characters `parse_mac` cuts at. -/
def isMacSeparator (c : Char) : Bool := c == ':' || c == '-'

/-- Two hexadecimal digits and their value. -/
inductive HexPair : List Char → UInt8 → Prop
  | mk {c d : Char} {hi lo : Nat} (hc : toDigit 16 c = some hi) (hd : toDigit 16 d = some lo) :
      HexPair [c, d] (UInt8.ofNat (hi * 16 + lo))

/-- A plus sign and one digit. -/
inductive PlusDigit : List Char → UInt8 → Prop
  | mk {d : Char} {lo : Nat} (hd : toDigit 16 d = some lo) : PlusDigit ['+', d] (UInt8.ofNat lo)

/-- The six-octet forms of `net.ParseMAC`: groups of two digits, the same separator between all of
them. -/
def MacForm (s : String) (mac : MacAddr) : Prop :=
  ∃ (sep : Char) (groups : List (List Char)), (sep = ':' ∨ sep = '-') ∧
    s.toList = [sep].intercalate groups ∧ List.Forall₂ HexPair groups mac.toList

/-- Six groups between colons or hyphens, each two digits or a plus sign and a digit. -/
def SixGroups (s : String) : Prop :=
  (s.toList.splitOnP isMacSeparator).length = 6 ∧
    ∀ group ∈ s.toList.splitOnP isMacSeparator,
      (∃ b, HexPair group b) ∨ ∃ b, PlusDigit group b

/-- Such a text with a plus sign, or with both separators. -/
def LooseMac (s : String) : Prop :=
  SixGroups s ∧ ('+' ∈ s.toList ∨ (':' ∈ s.toList ∧ '-' ∈ s.toList))

/-! One octet -/

theorem utf8ByteSize_ofList (p : List Char) :
    (String.ofList p).utf8ByteSize = (p.map Char.utf8Size).sum := by
  induction p with
  | nil => rfl
  | cons c cs ih =>
    have hcons : String.ofList (c :: cs) = String.singleton c ++ String.ofList cs := by
      apply String.toList_injective
      simp
    rw [hcons, String.utf8ByteSize_append, ih]
    simp

theorem utf8Size_of_toDigit {c : Char} (h : (toDigit 16 c).isSome = true) : c.utf8Size = 1 := by
  have hle : c ≤ 'z' := by
    have hcases : ('0' ≤ c ∧ c ≤ '9') ∨ ('a' ≤ c ∧ c ≤ 'z') ∨ ('A' ≤ c ∧ c ≤ 'Z') := by
      by_contra hnone
      simp only [not_or] at hnone
      simp [toDigit, hnone] at h
    rcases hcases with ⟨-, hle⟩ | ⟨-, hle⟩ | ⟨-, hle⟩
    · exact Char.le_trans hle (by decide)
    · exact hle
    · exact Char.le_trans hle (by decide)
  exact Char.utf8Size_eq_one_iff.mpr (UInt32.le_trans hle (by decide))

theorem u8FromStrRadix_eq_some_iff {p : List Char} {b : UInt8} :
    u8FromStrRadix 16 p = some b ↔
      ∃ ds, IsDigits 16 ds ∧ digitsValue 16 ds = b.toNat ∧ (p = ds ∨ p = '+' :: ds) := by
  have heq : u8FromStrRadix 16 p =
      if stripPlus p ≠ [] ∧ ((stripPlus p).all fun c => (toDigit 16 c).isSome) = true ∧
          digitsValue 16 (stripPlus p) < UInt8.size
        then some (UInt8.ofNat (digitsValue 16 (stripPlus p))) else none := rfl
  rw [heq, Option.ite_none_right_eq_some, Option.some_inj]
  have hvalue {n : Nat} (hn : n < UInt8.size) : UInt8.ofNat n = b ↔ n = b.toNat := by
    constructor
    · rintro rfl
      exact (UInt8.toNat_ofNat_of_lt' hn).symm
    · rintro rfl
      exact UInt8.ofNat_toNat
  constructor
  · rintro ⟨hread, hb⟩
    exact (plusDigits_iff.mp ⟨hread, (hvalue hread.2.2).mp hb⟩).2
  · intro hds
    obtain ⟨hread, hb⟩ := plusDigits_iff.mpr ⟨b.toNat_lt, hds⟩
    exact ⟨hread, (hvalue hread.2.2).mpr hb⟩

theorem utf8ByteSize_of_isDigits {ds : List Char} (hds : IsDigits 16 ds) :
    (ds.map Char.utf8Size).sum = ds.length := by
  have hone : ds.map Char.utf8Size = ds.map fun _ => 1 :=
    List.map_congr_left fun c hc => utf8Size_of_toDigit (hds.2 c hc)
  rw [hone]
  simp

theorem digitsValue_one {d : Char} {lo : Nat} (hd : toDigit 16 d = some lo) :
    digitsValue 16 [d] = lo := by
  simp [digitsValue, hd]

theorem digitsValue_two {c d : Char} {hi lo : Nat} (hc : toDigit 16 c = some hi)
    (hd : toDigit 16 d = some lo) : digitsValue 16 [c, d] = hi * 16 + lo := by
  simp [digitsValue, hc, hd]

theorem toDigit_lt {radix d : Nat} {c : Char} (h : toDigit radix c = some d) : d < radix := by
  simpa using (Option.filter_eq_some_iff.mp h).2

theorem hexPair_iff {p : List Char} {b : UInt8} :
    HexPair p b ↔ IsDigits 16 p ∧ p.length = 2 ∧ digitsValue 16 p = b.toNat := by
  constructor
  · rintro ⟨hc, hd⟩
    rename_i c d hi lo
    have hhi : hi < 16 := toDigit_lt hc
    have hlo : lo < 16 := toDigit_lt hd
    have hfits : hi * 16 + lo < UInt8.size := by
      rw [show UInt8.size = 256 from rfl]
      omega
    refine ⟨⟨by simp, by simp [hc, hd]⟩, rfl, ?_⟩
    rw [digitsValue_two hc hd, UInt8.toNat_ofNat_of_lt' hfits]
  · rintro ⟨hds, hlen, hvalue⟩
    obtain ⟨c, d, rfl⟩ := List.length_eq_two.mp hlen
    obtain ⟨hi, hc⟩ := Option.isSome_iff_exists.mp (hds.2 c (by simp))
    obtain ⟨lo, hd⟩ := Option.isSome_iff_exists.mp (hds.2 d (by simp))
    rw [digitsValue_two hc hd] at hvalue
    rw [← UInt8.ofNat_toNat (x := b), ← hvalue]
    exact .mk hc hd

theorem plusDigit_iff {p : List Char} {b : UInt8} :
    PlusDigit p b ↔
      ∃ ds, p = '+' :: ds ∧ IsDigits 16 ds ∧ ds.length = 1 ∧ digitsValue 16 ds = b.toNat := by
  constructor
  · rintro ⟨hd⟩
    rename_i d lo
    have hlo : lo < 16 := toDigit_lt hd
    have hfits : lo < UInt8.size := by
      rw [show UInt8.size = 256 from rfl]
      omega
    refine ⟨[d], rfl, ⟨by simp, by simp [hd]⟩, rfl, ?_⟩
    rw [digitsValue_one hd, UInt8.toNat_ofNat_of_lt' hfits]
  · rintro ⟨ds, rfl, hds, hlen, hvalue⟩
    obtain ⟨d, rfl⟩ := List.length_eq_one_iff.mp hlen
    obtain ⟨lo, hd⟩ := Option.isSome_iff_exists.mp (hds.2 d (by simp))
    rw [digitsValue_one hd] at hvalue
    rw [← UInt8.ofNat_toNat (x := b), ← hvalue]
    exact .mk hd

/-- The length is counted in bytes, but what `from_str_radix` reads has one for each character. -/
theorem macOctet_eq_ok_iff_read {s : String} {p : List Char} {b : UInt8} :
    macOctet s p = .ok b ↔
      (p.map Char.utf8Size).sum = 2 ∧ u8FromStrRadix 16 p = some b := by
  rw [macOctet, utf8ByteSize_ofList]
  split_ifs with hlen
  · simp [hlen]
  · rw [not_not] at hlen
    cases u8FromStrRadix 16 p with
    | none => simp
    | some b' => simp [hlen]

/-- **One group is accepted if it is two digits, or a plus sign and a digit.** -/
theorem macOctet_eq_ok_iff {s : String} {p : List Char} {b : UInt8} :
    macOctet s p = .ok b ↔ HexPair p b ∨ PlusDigit p b := by
  rw [macOctet_eq_ok_iff_read, u8FromStrRadix_eq_some_iff, hexPair_iff, plusDigit_iff]
  have hplus {ds : List Char} (hds : IsDigits 16 ds) :
      (('+' :: ds).map Char.utf8Size).sum = ds.length + 1 := by
    rw [List.map_cons, List.sum_cons, utf8ByteSize_of_isDigits hds, Nat.add_comm]
    rfl
  constructor
  · rintro ⟨hlen, ds, hds, hvalue, rfl | rfl⟩
    · rw [utf8ByteSize_of_isDigits hds] at hlen
      exact .inl ⟨hds, hlen, hvalue⟩
    · rw [hplus hds] at hlen
      exact .inr ⟨ds, rfl, hds, by omega, hvalue⟩
  · rintro (⟨hds, hlen, hvalue⟩ | ⟨ds, rfl, hds, hlen, hvalue⟩)
    · exact ⟨(utf8ByteSize_of_isDigits hds).trans hlen, p, hds, hvalue, .inl rfl⟩
    · refine ⟨?_, ds, hds, hvalue, .inr rfl⟩
      rw [hplus hds, hlen]

/-! The whole text -/

theorem MacAddr.exists_octets (mac : MacAddr) :
    ∃ b₀ b₁ b₂ b₃ b₄ b₅, mac = #v[b₀, b₁, b₂, b₃, b₄, b₅] := by
  refine ⟨mac[0], mac[1], mac[2], mac[3], mac[4], mac[5], ?_⟩
  ext i hi
  rcases i with _ | _ | _ | _ | _ | _ | i
  · rfl
  · rfl
  · rfl
  · rfl
  · rfl
  · rfl
  · omega

/-- `parse_mac` succeeds if there are six groups and each is accepted. -/
theorem parseMac_eq_ok_iff {s : String} {mac : MacAddr} :
    parseMac s = .ok mac ↔
      List.Forall₂ (fun group b => HexPair group b ∨ PlusDigit group b)
        (s.toList.splitOnP isMacSeparator) mac.toList := by
  have hsplit : (s.toList.splitOnP fun c => c == ':' || c == '-') =
      s.toList.splitOnP isMacSeparator := rfl
  simp only [← macOctet_eq_ok_iff (s := s)]
  rw [parseMac, hsplit]
  constructor
  · split
    · rename_i p₀ p₁ p₂ p₃ p₄ p₅ heq
      rw [heq]
      simp only [Results.bind_ok_iff]
      rintro ⟨b₀, h₀, b₁, h₁, b₂, h₂, b₃, h₃, b₄, h₄, b₅, h₅, hmac⟩
      cases hmac
      exact .cons h₀ (.cons h₁ (.cons h₂ (.cons h₃ (.cons h₄ (.cons h₅ .nil)))))
    · intro h
      cases h
  · obtain ⟨b₀, b₁, b₂, b₃, b₄, b₅, rfl⟩ := mac.exists_octets
    have hlist : #v[b₀, b₁, b₂, b₃, b₄, b₅].toList = [b₀, b₁, b₂, b₃, b₄, b₅] := rfl
    rw [hlist]
    simp only [List.forall₂_cons_right_iff, List.forall₂_nil_right_iff]
    rintro ⟨p₀, _, h₀, ⟨p₁, _, h₁, ⟨p₂, _, h₂, ⟨p₃, _, h₃, ⟨p₄, _, h₄, ⟨p₅, _, h₅, rfl, rfl⟩, rfl⟩,
      rfl⟩, rfl⟩, rfl⟩, heq⟩
    rw [heq]
    simp only [Results.bind_ok_iff]
    exact ⟨b₀, h₀, b₁, h₁, b₂, h₂, b₃, h₃, b₄, h₄, b₅, h₅, rfl⟩

theorem HexPair.isSome {p : List Char} {b : UInt8} (h : HexPair p b) {c : Char} (hc : c ∈ p) :
    (toDigit 16 c).isSome = true :=
  (hexPair_iff.mp h).1.2 c hc

theorem HexPair.notMem {p : List Char} {b : UInt8} (h : HexPair p b) {c : Char}
    (hc : toDigit 16 c = none) : c ∉ p := by
  intro hmem
  have hsome := h.isSome hmem
  rw [hc] at hsome
  cases hsome

theorem HexPair.not_separator {p : List Char} {b : UInt8} (h : HexPair p b) :
    ∀ c ∈ p, isMacSeparator c = false := by
  intro c hc
  rw [isMacSeparator, Bool.or_eq_false_iff, beq_eq_false_iff_ne, beq_eq_false_iff_ne]
  constructor
  · rintro rfl
    exact h.notMem rfl hc
  · rintro rfl
    exact h.notMem rfl hc

/-- A text that has not both separators is cut at one of them only. -/
theorem exists_separator {x : List Char} (hone : ¬ (':' ∈ x ∧ '-' ∈ x)) :
    ∃ sep, (sep = ':' ∨ sep = '-') ∧ ∀ c ∈ x, isMacSeparator c = (c == sep) := by
  by_cases hcolon : ':' ∈ x
  · refine ⟨':', .inl rfl, fun c hc => ?_⟩
    have hne : (c == '-') = false := beq_false_of_ne fun h => hone ⟨hcolon, h ▸ hc⟩
    rw [isMacSeparator, hne, Bool.or_false]
  · refine ⟨'-', .inr rfl, fun c hc => ?_⟩
    have hne : (c == ':') = false := beq_false_of_ne fun h => hcolon (h ▸ hc)
    rw [isMacSeparator, hne, Bool.false_or]

/-- The documented form, by the groups the code finds: two digits each, and no two separators. -/
theorem macForm_iff {s : String} {mac : MacAddr} :
    MacForm s mac ↔
      List.Forall₂ HexPair (s.toList.splitOnP isMacSeparator) mac.toList ∧
        ¬ (':' ∈ s.toList ∧ '-' ∈ s.toList) := by
  constructor
  · rintro ⟨sep, groups, hsep, hs, hgroups⟩
    have hkeep : ∀ g ∈ groups, ∀ c ∈ g, isMacSeparator c = false := by
      intro g hg
      obtain ⟨b, hb⟩ := Pieces.exists_forall₂_iff.mp ⟨_, hgroups⟩ g hg
      exact hb.not_separator
    have hne : groups ≠ [] := by
      rintro rfl
      have hlen := hgroups.length_eq
      rw [Vector.length_toList] at hlen
      cases hlen
    have hisSep : isMacSeparator sep = true := by
      rcases hsep with rfl | rfl
      · rfl
      · rfl
    have honly : ∀ c ∈ s.toList, isMacSeparator c = true → c = sep := by
      intro c hc hcsep
      rw [hs] at hc
      rcases Pieces.mem_intercalate hc with rfl | ⟨g, hg, hin⟩
      · rfl
      · rw [hkeep g hg c hin] at hcsep
        cases hcsep
    constructor
    · rwa [hs, Pieces.splitOnP_intercalate hkeep hne hisSep]
    · rintro ⟨hcolon, hhyphen⟩
      have heq : ':' = '-' := (honly _ hcolon rfl).trans (honly _ hhyphen rfl).symm
      exact absurd heq (by decide)
  · rintro ⟨hgroups, hone⟩
    obtain ⟨sep, hsep, hagree⟩ := exists_separator hone
    refine ⟨sep, s.toList.splitOnP isMacSeparator, hsep, ?_, hgroups⟩
    rw [Pieces.splitOnP_congr hagree, ← List.splitOn_eq_splitOnP, List.intercalate_splitOn]

theorem SixGroups.accepted {s : String} (h : SixGroups s) : ∃ mac, parseMac s = .ok mac := by
  have heach : ∀ group ∈ s.toList.splitOnP isMacSeparator,
      ∃ b, HexPair group b ∨ PlusDigit group b := by
    intro group hgroup
    rcases h.2 group hgroup with ⟨b, hb⟩ | ⟨b, hb⟩
    · exact ⟨b, .inl hb⟩
    · exact ⟨b, .inr hb⟩
  obtain ⟨bytes, hbytes⟩ := Pieces.exists_forall₂_iff.mpr heach
  have hlen : bytes.toArray.size = 6 := by
    rw [List.size_toArray, ← hbytes.length_eq]
    exact h.1
  exact ⟨⟨bytes.toArray, hlen⟩, parseMac_eq_ok_iff.mpr hbytes⟩

theorem sixGroups_of_parseMac {s : String} {mac : MacAddr} (h : parseMac s = .ok mac) :
    SixGroups s := by
  have hgroups := parseMac_eq_ok_iff.mp h
  constructor
  · rw [hgroups.length_eq, Vector.length_toList]
  · intro group hgroup
    obtain ⟨b, hb | hb⟩ := Pieces.exists_forall₂_iff.mp ⟨_, hgroups⟩ group hgroup
    · exact .inl ⟨b, hb⟩
    · exact .inr ⟨b, hb⟩

/-- Without a plus sign every accepted group is two digits. -/
theorem forall₂_hexPair_iff {s : String} {mac : MacAddr} :
    List.Forall₂ HexPair (s.toList.splitOnP isMacSeparator) mac.toList ↔
      parseMac s = .ok mac ∧ '+' ∉ s.toList := by
  rw [parseMac_eq_ok_iff]
  constructor
  · intro h
    refine ⟨h.imp fun _ _ => .inl, fun hplus => ?_⟩
    obtain ⟨group, hgroup, hin⟩ := Pieces.exists_mem_splitOnP (p := isMacSeparator) hplus rfl
    obtain ⟨b, hb⟩ := Pieces.exists_forall₂_iff.mp ⟨_, h⟩ group hgroup
    exact hb.notMem rfl hin
  · rintro ⟨h, hplus⟩
    have hno : ∀ group ∈ s.toList.splitOnP isMacSeparator, '+' ∉ group := fun group hgroup hin =>
      hplus (Pieces.mem_of_mem_splitOnP hgroup hin).1
    refine ((List.forall₂_and_left _ _).mpr ⟨hno, h⟩).imp ?_
    rintro group b ⟨hgroup, hpair | hplusDigit⟩
    · exact hpair
    · obtain ⟨hd⟩ := hplusDigit
      exact absurd List.mem_cons_self hgroup

/-- **`parse_mac` takes exactly the documented addresses unless a group has a plus sign or the
separators differ.** -/
theorem parseMac_exact_iff (s : String) :
    (∀ mac, parseMac s = .ok mac ↔ MacForm s mac) ↔ ¬ LooseMac s := by
  have hform (mac : MacAddr) : MacForm s mac ↔ parseMac s = .ok mac ∧
      ¬ ('+' ∈ s.toList ∨ (':' ∈ s.toList ∧ '-' ∈ s.toList)) := by
    rw [macForm_iff, forall₂_hexPair_iff, and_assoc, not_or]
  constructor
  · rintro hexact ⟨hsix, hloose⟩
    obtain ⟨mac, hmac⟩ := hsix.accepted
    exact ((hform mac).mp ((hexact mac).mp hmac)).2 hloose
  · intro hstrict mac
    rw [hform]
    constructor
    · intro hmac
      exact ⟨hmac, fun hloose => hstrict ⟨sixGroups_of_parseMac hmac, hloose⟩⟩
    · exact fun h => h.1

/-- Both separators and a plus sign pass. -/
theorem loose_mac_is_accepted :
    parseMac "00-11:22-33:44:+5" = .ok #v[0x00, 0x11, 0x22, 0x33, 0x44, 0x05] ∧
      ¬ ∃ mac, MacForm "00-11:22-33:44:+5" mac := by
  refine ⟨by decide, ?_⟩
  rintro ⟨mac, hmac⟩
  exact (macForm_iff.mp hmac).2 ⟨by decide, by decide⟩

/-! ## Publishing an address and reading it back -/

namespace Vxlan

/-- `mac_to_string`. -/
def macToString (addr : MacAddr) : String :=
  ":".intercalate (addr.toList.map fun octet => Text.zeroPad 2 (Nat.toDigits 16 octet.toNat))

/-- `VXLANLeaseAttrs`, as it is written. -/
structure VXLANLeaseAttrs where
  vni : UInt32
  vtepMac : String
  deriving DecidableEq, Repr

/-- What the JSON library does: `to_string` of the attributes, `RawValue::from_string`, and reading
the two fields. -/
structure SerdeJson where
  toString : VXLANLeaseAttrs → Except String String
  rawFromString : String → Except String String
  decode : String → Option (Nat × Option String)

/-- `VXLANDevice`, with the address. -/
structure VtepDevice extends VXLANDevice where
  mac : MacAddr
  deriving DecidableEq

/-- The data of one family in `new_subnet_attrs`. -/
def leaseData (json : SerdeJson) (vni : UInt32) (mac : MacAddr) : Except String String := do
  let data ← json.toString ⟨vni, macToString mac⟩
  json.rawFromString data

/-- The IPv4 block of `new_subnet_attrs`. -/
def addIpv4Data (json : SerdeJson) (publicIp : Option IpAddr) (vni : UInt32)
    (dev : Option VtepDevice) (attrs : LeaseAttrs) : Except String LeaseAttrs :=
  match publicIp, dev with
  | some (.v4 ip), some dev => (leaseData json vni dev.mac).map fun data =>
    { attrs with
      publicIp := ip
      backendData := some data }
  | _, _ => .ok attrs

/-- The IPv6 block. -/
def addIpv6Data (json : SerdeJson) (publicIpv6 : Option IpAddr) (vni : UInt32)
    (v6Dev : Option VtepDevice) (attrs : LeaseAttrs) : Except String LeaseAttrs :=
  match publicIpv6, v6Dev with
  | some (.v6 ip), some v6Dev => (leaseData json vni v6Dev.mac).map fun data =>
    { attrs with
      publicIpv6 := some ip
      backendV6Data := some data }
  | _, _ => .ok attrs

/-- `new_subnet_attrs`. -/
def newSubnetAttrs (json : SerdeJson) (publicIp publicIpv6 : Option IpAddr) (vni : UInt32)
    (dev v6Dev : Option VtepDevice) : Except String LeaseAttrs := do
  let attrs ← addIpv4Data json publicIp vni dev { backendType := "vxlan" }
  addIpv6Data json publicIpv6 vni v6Dev attrs

/-- `extract_mac`. -/
def extractMac (value : Option String) : String :=
  match value with
  | none => ""
  | some backendData =>
    let macStr := Pieces.trimMatches (fun c => c == '"' || c == '\x7d') backendData.toList
    match Pieces.splitPair ':' '"' macStr with
    | [_, part] => String.ofList part
    | _ => ""

/-- `get_stored_mac_addresses`, on the annotations of the node, `none` if it cannot be read. -/
def getStoredMacAddresses (annotations : Annotations) (ann : Option (String → Option String)) :
    String × String :=
  match ann with
  | none => ("", "")
  | some ann =>
    (extractMac (ann annotations.backendData), extractMac (ann annotations.backendV6Data))

/-- The `hw_addr` of `create_vxlan_device`: the stored address, if it can be parsed. -/
def storedHwAddr (macStr : String) : Option MacAddr :=
  if macStr = "" then none else (parseMac macStr).toOption

/-- The text of the attributes: the two fields in the order of their declaration, without spaces. -/
def leaseText (attrs : VXLANLeaseAttrs) : String :=
  "\x7b\"VNI\":" ++ toString attrs.vni.toNat ++ ",\"VtepMAC\":\"" ++ attrs.vtepMac ++ "\"\x7d"

/-- What the library is relied on for: it writes that text, keeps it as a raw value, and reads the
fields back. -/
structure SerdeJson.Handles (json : SerdeJson) (attrs : VXLANLeaseAttrs) : Prop where
  writes : json.toString attrs = .ok (leaseText attrs)
  keeps : json.rawFromString (leaseText attrs) = .ok (leaseText attrs)
  reads : json.decode (leaseText attrs) = some (attrs.vni.toNat, some attrs.vtepMac)

/-! The text of an address -/

/-- An octet is written as two digits. -/
theorem hexPair_zeroPad (b : UInt8) :
    HexPair (Text.zeroPad 2 (Nat.toDigits 16 b.toNat)).toList b := by
  have hlt : b.toNat < 256 := b.toNat_lt
  have hpair {c d : Char} {hi lo : Nat} (hc : toDigit 16 c = some hi) (hd : toDigit 16 d = some lo)
      (hvalue : hi * 16 + lo = b.toNat) : HexPair [c, d] b := by
    have h := HexPair.mk hc hd
    rwa [hvalue, UInt8.ofNat_toNat] at h
  rw [Text.zeroPad, String.toList_ofList, Nat.toDigits_eq_if (by omega)]
  split_ifs with hsmall
  · exact hpair (c := '0') rfl (toDigit_digitChar (by omega) hsmall) (by omega)
  · have hhi : b.toNat / 16 < 16 := by omega
    rw [Nat.toDigits_of_lt_base hhi]
    exact hpair (toDigit_digitChar (by omega) hhi)
      (toDigit_digitChar (by omega) (Nat.mod_lt _ (by omega))) (by omega)

theorem macForm_macToString (mac : MacAddr) : MacForm (macToString mac) mac := by
  refine ⟨':', _, .inl rfl, String.toList_intercalate, ?_⟩
  rw [List.forall₂_map_left_iff, List.forall₂_map_left_iff]
  exact List.forall₂_same.mpr fun b _ => hexPair_zeroPad b

/-- The printed address is read back. -/
theorem parseMac_macToString (mac : MacAddr) : parseMac (macToString mac) = .ok mac := by
  obtain ⟨hpairs, -⟩ := macForm_iff.mp (macForm_macToString mac)
  exact (forall₂_hexPair_iff.mp hpairs).1

theorem macToString_ne_empty (mac : MacAddr) : macToString mac ≠ "" := by
  intro hempty
  have hparse := parseMac_macToString mac
  rw [hempty] at hparse
  cases hparse

theorem mem_macToString {mac : MacAddr} {c : Char} (hc : c ∈ (macToString mac).toList) :
    c = ':' ∨ (toDigit 16 c).isSome = true := by
  rw [macToString, String.toList_intercalate] at hc
  rcases Pieces.mem_intercalate hc with hcolon | ⟨group, hgroup, hin⟩
  · exact .inl hcolon
  · obtain ⟨text, htext, rfl⟩ := List.mem_map.mp hgroup
    obtain ⟨b, -, rfl⟩ := List.mem_map.mp htext
    exact .inr ((hexPair_zeroPad b).isSome hin)

theorem quote_notMem_macToString (mac : MacAddr) : '"' ∉ (macToString mac).toList := by
  intro hmem
  rcases mem_macToString hmem with hcolon | hdigit
  · exact absurd hcolon (by decide)
  · exact absurd hdigit (by decide)

/-! The data of the lease -/

/-- The two keys, with what stands in front of them. -/
def vniKey : List Char := ['\x7b', '"', 'V', 'N', 'I', '"']

def vtepMacKey : List Char := [',', '"', 'V', 't', 'e', 'p', 'M', 'A', 'C', '"']

/-- What stands in the text in front of the colon of the address. -/
def leaseFront (vni : UInt32) : List Char :=
  vniKey ++ ':' :: (Nat.toDigits 10 vni.toNat ++ vtepMacKey)

theorem toList_leaseText (vni : UInt32) (mac : String) :
    (leaseText ⟨vni, mac⟩).toList =
      (leaseFront vni ++ ':' :: '"' :: mac.toList) ++ ['"', '\x7d'] := by
  simp [leaseText, leaseFront, vniKey, vtepMacKey]

/-- The only `:"` of the text is the one in front of the address. -/
theorem splitPair_leaseText (vni : UInt32) {mac : List Char} (hmac : '"' ∉ mac) :
    Pieces.splitPair ':' '"' (leaseFront vni ++ ':' :: '"' :: mac) = [leaseFront vni, mac] := by
  have hdigits : ∀ c ∈ Nat.toDigits 10 vni.toNat, (toDigit 10 c).isSome = true := fun c hc =>
    isSome_toDigit_of_mem (by omega) (by omega) hc
  have hcolon : ':' ∉ Nat.toDigits 10 vni.toNat ++ vtepMacKey := by
    rw [List.mem_append]
    rintro (hmem | hmem)
    · exact absurd (hdigits _ hmem) (by decide)
    · exact absurd hmem (by decide)
  have hlone : ∀ rest, ':' :: (Nat.toDigits 10 vni.toNat ++ vtepMacKey ++
      ':' :: '"' :: mac) ≠ ':' :: '"' :: rest := by
    intro rest h
    cases hvni : Nat.toDigits 10 vni.toNat with
    | nil => exact Nat.toDigits_ne_nil hvni
    | cons c cs =>
      rw [hvni] at h hdigits
      obtain ⟨-, h⟩ := List.cons.inj h
      obtain ⟨rfl, -⟩ := List.cons.inj h
      exact absurd (hdigits '"' List.mem_cons_self) (by decide)
  rw [leaseFront, List.append_assoc, List.cons_append, Pieces.splitPair_append (by decide),
    Pieces.splitPair_cons hlone, Pieces.splitPair_append hcolon, Pieces.splitPair_pair,
    Pieces.splitPair_eq_singleton hmac]
  simp

/-- **The node finds the published address.** -/
theorem extractMac_leaseText (vni : UInt32) (mac : MacAddr) :
    extractMac (some (leaseText ⟨vni, macToString mac⟩)) = macToString mac := by
  have hne : (macToString mac).toList ≠ [] := fun h =>
    macToString_ne_empty mac (String.toList_eq_nil_iff.mp h)
  obtain ⟨init, last, hmac⟩ := (List.eq_nil_or_concat _).resolve_left hne
  rw [List.concat_eq_append] at hmac
  have hkeep : (last == '"' || last == '\x7d') = false := by
    have hmem : last ∈ (macToString mac).toList := by
      rw [hmac]
      exact List.mem_append_right _ List.mem_cons_self
    rw [Bool.or_eq_false_iff, beq_eq_false_iff_ne, beq_eq_false_iff_ne]
    constructor
    · rintro rfl
      exact quote_notMem_macToString mac hmem
    · rintro rfl
      rcases mem_macToString hmem with hcolon | hdigit
      · exact absurd hcolon (by decide)
      · exact absurd hdigit (by decide)
  have hhead : (leaseFront vni ++ ':' :: '"' :: (macToString mac).toList ++ ['"', '\x7d']).head? =
      some '\x7b' := rfl
  have hlast : (leaseFront vni ++ ':' :: '"' :: (macToString mac).toList).getLast? = some last := by
    rw [hmac]
    simp [List.getLast?_append, List.getLast?_cons]
  have htrim : Pieces.trimMatches (fun c => c == '"' || c == '\x7d')
      (leaseText ⟨vni, macToString mac⟩).toList =
      leaseFront vni ++ ':' :: '"' :: (macToString mac).toList := by
    rw [toList_leaseText]
    exact Pieces.trimMatches_append hhead (by decide) hlast hkeep (by simp)
  simp only [extractMac, htrim, splitPair_leaseText vni (quote_notMem_macToString mac),
    String.ofList_toList]

/-- The text of the lease stands for the address, on the node itself and on its peers. -/
def RoundTrips (json : SerdeJson) (data : String) (mac : MacAddr) : Prop :=
  extractMac (some data) = macToString mac ∧ parseMac (macToString mac) = .ok mac ∧
    parseBackendData json.decode (some data) = some mac

section Published

variable {json : SerdeJson} {vni : UInt32} {mac : MacAddr}

theorem leaseData_eq (h : json.Handles ⟨vni, macToString mac⟩) :
    leaseData json vni mac = .ok (leaseText ⟨vni, macToString mac⟩) := by
  rw [leaseData, h.writes]
  exact h.keeps

theorem roundTrips_leaseText (h : json.Handles ⟨vni, macToString mac⟩) :
    RoundTrips json (leaseText ⟨vni, macToString mac⟩) mac := by
  refine ⟨extractMac_leaseText vni mac, parseMac_macToString mac, ?_⟩
  simp only [parseBackendData, Option.getD_some, h.reads, Option.bind_eq_bind, Option.bind_some,
    parseMac_macToString]
  rfl

theorem RoundTrips.storedHwAddr_eq {data : String} (h : RoundTrips json data mac) :
    storedHwAddr (extractMac (some data)) = some mac := by
  rw [h.1, storedHwAddr, if_neg (macToString_ne_empty mac), h.2.1]
  rfl

/-- The data of one family: there is some exactly if the family has an address and a device. -/
def Publishes (json : SerdeJson) (data : Option String) (dev : Option VtepDevice) (hasIp : Prop) :
    Prop :=
  (hasIp → ∀ d ∈ dev, ∃ text ∈ data, RoundTrips json text d.mac) ∧
    ∀ text ∈ data, hasIp ∧ ∃ d ∈ dev, RoundTrips json text d.mac

variable (publicIp publicIpv6 : Option IpAddr) (dev v6Dev : Option VtepDevice)

theorem addIpv4Data_spec (h : ∀ d ∈ dev, json.Handles ⟨vni, macToString d.mac⟩)
    {attrs : LeaseAttrs} (hnone : attrs.backendData = none) :
    ∃ attrs', addIpv4Data json publicIp vni dev attrs = .ok attrs' ∧
      attrs'.backendV6Data = attrs.backendV6Data ∧
      ∀ text, attrs'.backendData = some text ↔ (∃ ip, publicIp = some (.v4 ip)) ∧
        ∃ d ∈ dev, text = leaseText ⟨vni, macToString d.mac⟩ := by
  unfold addIpv4Data
  split
  · rename_i ip d
    rw [leaseData_eq (h d rfl)]
    exact ⟨_, rfl, rfl, fun text => by simp [eq_comm]⟩
  · rename_i hnot
    refine ⟨attrs, rfl, rfl, fun text => ?_⟩
    rw [hnone]
    constructor
    · intro htext
      cases htext
    · rintro ⟨⟨ip, rfl⟩, d, rfl, -⟩
      exact absurd rfl (hnot ip d rfl)

theorem addIpv6Data_spec (h : ∀ d ∈ v6Dev, json.Handles ⟨vni, macToString d.mac⟩)
    {attrs : LeaseAttrs} (hnone : attrs.backendV6Data = none) :
    ∃ attrs', addIpv6Data json publicIpv6 vni v6Dev attrs = .ok attrs' ∧
      attrs'.backendData = attrs.backendData ∧
      ∀ text, attrs'.backendV6Data = some text ↔ (∃ ip, publicIpv6 = some (.v6 ip)) ∧
        ∃ d ∈ v6Dev, text = leaseText ⟨vni, macToString d.mac⟩ := by
  unfold addIpv6Data
  split
  · rename_i ip d
    rw [leaseData_eq (h d rfl)]
    exact ⟨_, rfl, rfl, fun text => by simp [eq_comm]⟩
  · rename_i hnot
    refine ⟨attrs, rfl, rfl, fun text => ?_⟩
    rw [hnone]
    constructor
    · intro htext
      cases htext
    · rintro ⟨⟨ip, rfl⟩, d, rfl, -⟩
      exact absurd rfl (hnot ip d rfl)

theorem publishes_of_text {data : Option String} {dev : Option VtepDevice} {hasIp : Prop}
    (h : ∀ d ∈ dev, json.Handles ⟨vni, macToString d.mac⟩)
    (hdata : ∀ text, data = some text ↔
      hasIp ∧ ∃ d ∈ dev, text = leaseText ⟨vni, macToString d.mac⟩) :
    Publishes json data dev hasIp := by
  constructor
  · intro hip d hd
    exact ⟨_, (hdata _).mpr ⟨hip, d, hd, rfl⟩, roundTrips_leaseText (h d hd)⟩
  · intro text htext
    obtain ⟨hip, d, hd, rfl⟩ := (hdata text).mp htext
    exact ⟨hip, d, hd, roundTrips_leaseText (h d hd)⟩

theorem Publishes.storedHwAddr_eq {data : Option String} {dev : Option VtepDevice} {hasIp : Prop}
    (h : Publishes json data dev hasIp) (hip : hasIp) {d : VtepDevice} (hd : dev = some d) :
    storedHwAddr (extractMac data) = some d.mac := by
  obtain ⟨text, rfl, htext⟩ := h.1 hip d hd
  exact htext.storedHwAddr_eq

/-- **The published address comes back**, after a restart and on the peers, in both families. -/
theorem published_mac_round_trip (h4 : ∀ d ∈ dev, json.Handles ⟨vni, macToString d.mac⟩)
    (h6 : ∀ d ∈ v6Dev, json.Handles ⟨vni, macToString d.mac⟩) :
    ∃ attrs, newSubnetAttrs json publicIp publicIpv6 vni dev v6Dev = .ok attrs ∧
      Publishes json attrs.backendData dev (∃ ip, publicIp = some (.v4 ip)) ∧
      Publishes json attrs.backendV6Data v6Dev (∃ ip, publicIpv6 = some (.v6 ip)) ∧
      ∀ (annotations : Annotations) (ann : String → Option String),
        ann annotations.backendData = attrs.backendData →
        ann annotations.backendV6Data = attrs.backendV6Data →
        let stored := getStoredMacAddresses annotations (some ann)
        (∀ ip d, publicIp = some (.v4 ip) → dev = some d → storedHwAddr stored.1 = some d.mac) ∧
        ∀ ip d, publicIpv6 = some (.v6 ip) → v6Dev = some d →
          storedHwAddr stored.2 = some d.mac := by
  have hfresh : ({ backendType := "vxlan" } : LeaseAttrs).backendData = none := rfl
  obtain ⟨first, hfirst, hnone, hdata4⟩ := addIpv4Data_spec publicIp dev h4 hfresh
  obtain ⟨attrs, hattrs, hkept, hdata6⟩ := addIpv6Data_spec publicIpv6 v6Dev h6 hnone
  rw [← hkept] at hdata4
  have hpub4 := publishes_of_text h4 hdata4
  have hpub6 := publishes_of_text h6 hdata6
  have hok : newSubnetAttrs json publicIp publicIpv6 vni dev v6Dev = .ok attrs :=
    Results.bind_ok_iff.mpr ⟨first, hfirst, hattrs⟩
  refine ⟨attrs, hok, hpub4, hpub6, fun annotations ann hann4 hann6 => ?_⟩
  simp only [getStoredMacAddresses, hann4, hann6]
  exact ⟨fun ip d hip hd => hpub4.storedHwAddr_eq ⟨ip, hip⟩ hd,
    fun ip d hip hd => hpub6.storedHwAddr_eq ⟨ip, hip⟩ hd⟩

end Published

/-- A device for each family, and the library on the data of both. -/
def sampleDevice : VtepDevice := ⟨⟨7, false⟩, #v[0x0e, 0x00, 0x5a, 0xff, 0x10, 0x01]⟩

def sampleV6Device : VtepDevice := ⟨⟨8, false⟩, #v[0xa2, 0x0b, 0x00, 0x00, 0xc3, 0x7d]⟩

def sampleJson : SerdeJson where
  toString attrs := .ok (leaseText attrs)
  rawFromString := .ok
  decode text :=
    if text = "\x7b\"VNI\":1,\"VtepMAC\":\"0e:00:5a:ff:10:01\"\x7d" then
      some (1, some "0e:00:5a:ff:10:01")
    else if text = "\x7b\"VNI\":1,\"VtepMAC\":\"a2:0b:00:00:c3:7d\"\x7d" then
      some (1, some "a2:0b:00:00:c3:7d")
    else none

theorem published_mac_round_trip_dual :
    ∃ attrs, newSubnetAttrs sampleJson (some (.v4 ⟨0x0a000001⟩)) (some (.v6 ⟨0xfc00_0001⟩)) 1
        (some sampleDevice) (some sampleV6Device) = .ok attrs ∧
      Publishes sampleJson attrs.backendData (some sampleDevice)
        (∃ ip, some (IpAddr.v4 ⟨0x0a000001⟩) = some (.v4 ip)) ∧
      Publishes sampleJson attrs.backendV6Data (some sampleV6Device)
        (∃ ip, some (IpAddr.v6 ⟨0xfc00_0001⟩) = some (.v6 ip)) := by
  have h4 : ∀ d ∈ some sampleDevice, sampleJson.Handles ⟨1, macToString d.mac⟩ := by
    rintro d ⟨⟩
    exact ⟨rfl, rfl, by decide⟩
  have h6 : ∀ d ∈ some sampleV6Device, sampleJson.Handles ⟨1, macToString d.mac⟩ := by
    rintro d ⟨⟩
    exact ⟨rfl, rfl, by decide⟩
  obtain ⟨attrs, hattrs, hpub4, hpub6, -⟩ :=
    published_mac_round_trip (some (.v4 ⟨0x0a000001⟩)) (some (.v6 ⟨0xfc00_0001⟩))
      (some sampleDevice) (some sampleV6Device) h4 h6
  exact ⟨attrs, hattrs, hpub4, hpub6⟩

end Vxlan

end Flannel
