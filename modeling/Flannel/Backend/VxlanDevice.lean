import Flannel.Backend.VtepMac
import Flannel.IpMatch.Iface
import Flannel.Lib.Run

/-!
# The device of the tunnel

`link_info.rs` and the first half of `vxlan/device.rs`: the request that makes the device, what
can be read off a link again, and `ensure_link`, which tries to make the device and then looks at
what is there.  A device that is there already is kept if it fits the settings, and it is deleted
and made anew if not.  Keeping it matters: the routes and the entries of all peers are on it, and
they go with it.

The comparison is made between the settings and what the kernel says of the device.  The port is
where the two differ in kind: it is a `u32` in the settings and a `u16` in the request, so a port
from 65536 on never comes back as it was, and the device does not fit its own settings.  Everything
that is compared comes back otherwise, and so the device survives any number of starts exactly if
the port is a port, and with any other the next start already replaces it (`link_survives_iff`).
What is not compared, the MTU among it, stays as the first start made it.
-/

namespace Flannel

namespace Vxlan

open Run

/-! ## Links -/

/-- `InfoVxlan`; `Local` and `Local6` are one, and so are `Group` and `Group6`. -/
inductive InfoVxlan where
  | id (n : UInt32)
  | link (i : UInt32)
  | localIp (ip : IpAddr)
  | group (ip : IpAddr)
  | l2Miss (b : Bool)
  | port (p : UInt16)
  | gbp
  | learning (b : Bool)
  | other
  deriving DecidableEq

/-- `InfoKind`, with the text of the other kinds. -/
inductive InfoKind where
  | vxlan
  | other (text : String)
  deriving DecidableEq, Repr

/-- `Display` of it. -/
def InfoKind.toString : InfoKind → String
  | vxlan => "vxlan"
  | other text => text

/-- `LinkInfo`. -/
inductive LinkInfo where
  | kind (k : InfoKind)
  | vxlanData (items : List InfoVxlan)
  | otherData
  | other
  deriving DecidableEq

/-- `LinkAttribute`. -/
inductive LinkAttribute where
  | ifName (name : String)
  | mtu (m : UInt32)
  | address (bytes : List UInt8)
  | linkInfo (infos : List LinkInfo)
  | other
  deriving DecidableEq

/-- `LinkMessage`, with the index of its header. -/
structure LinkMessage where
  index : Nat
  attributes : List LinkAttribute
  deriving DecidableEq

/-- `link_name`. -/
def linkName (link : LinkMessage) : String :=
  (link.attributes.findSome? fun
    | .ifName name => some name
    | _ => none).getD ""

/-- `link_mtu`. -/
def linkMtu (link : LinkMessage) : UInt32 :=
  (link.attributes.findSome? fun
    | .mtu m => some m
    | _ => none).getD 0

/-- `link_mac`. -/
def linkMac (link : LinkMessage) : Option MacAddr :=
  link.attributes.findSome? fun
    | .address bytes => if h : bytes.length = 6 then some ⟨bytes.toArray, h⟩ else none
    | _ => none

/-- The first `LinkInfo` attribute. -/
def linkInfos (link : LinkMessage) : Option (List LinkInfo) :=
  link.attributes.findSome? fun
    | .linkInfo infos => some infos
    | _ => none

/-- `link_kind`. -/
def linkKind (link : LinkMessage) : Option InfoKind :=
  link.attributes.findSome? fun
    | .linkInfo infos => infos.findSome? fun
      | .kind k => some k
      | _ => none
    | _ => none

/-- `VxlanInfo`. -/
structure VxlanInfo where
  vni : UInt32 := 0
  vtepIndex : UInt32 := 0
  vtepAddr : Option IpAddr := none
  group : Option IpAddr := none
  l2miss : Bool := false
  port : UInt32 := 0
  gbp : Bool := false
  deriving DecidableEq

/-- What one item says. -/
def VxlanInfo.set (v : VxlanInfo) : InfoVxlan → VxlanInfo
  | .id n => { v with vni := n }
  | .link i => { v with vtepIndex := i }
  | .localIp ip => { v with vtepAddr := some ip }
  | .group ip => { v with group := some ip }
  | .l2Miss b => { v with l2miss := b }
  | .port p => { v with port := p.toUInt32 }
  | .gbp => { v with gbp := true }
  | .learning _ | .other => v

/-- The loop of `vxlan_info`: whether there is the kind, and the last data. -/
def scanInfos (acc : Bool × Option LinkInfo) : LinkInfo → Bool × Option LinkInfo
  | .kind .vxlan => (true, acc.2)
  | .vxlanData items => (acc.1, some (.vxlanData items))
  | .otherData => (acc.1, some .otherData)
  | .kind (.other _) | .other => acc

/-- `vxlan_info`. -/
def vxlanInfo (link : LinkMessage) : Option VxlanInfo :=
  match linkInfos link with
  | none => none
  | some infos =>
    let (isVxlan, data) := infos.foldl scanInfos (false, none)
    if !isVxlan then none
    else
      match data with
      | some (.vxlanData items) => some (items.foldl VxlanInfo.set {})
      | _ => some {}

/-! ## The request -/

/-- `ENCAP_OVERHEAD`. -/
def encapOverhead : UInt32 := 50

/-- `VXLANAttrs`. -/
structure VXLANAttrs where
  name : String
  vni : UInt32
  mtu : UInt32
  vtepIndex : UInt32
  vtepAddr : Option IpAddr
  port : UInt32
  gbp : Bool
  learning : Bool
  hwAddr : Option MacAddr
  deriving DecidableEq

/-- The items of the request. -/
def vxlanItems (attrs : VXLANAttrs) : List InfoVxlan :=
  [.id attrs.vni, .learning attrs.learning] ++
    (if attrs.vtepIndex > 0 then [.link attrs.vtepIndex] else []) ++
    (match attrs.vtepAddr with
      | some ip => [.localIp ip]
      | none => []) ++
    (if attrs.port > 0 then [.port attrs.port.toUInt16] else []) ++
    if attrs.gbp then [.gbp] else []

/-- The MTU of the request, in `i64`. -/
def vxlanMtu (attrs : VXLANAttrs) : List LinkAttribute :=
  let mtu := (attrs.mtu.toNat : Int) - encapOverhead.toNat
  if mtu > 0 then [.mtu (UInt32.ofNat mtu.toNat)] else []

/-- `build_vxlan_link`. -/
def buildVxlanLink (attrs : VXLANAttrs) (hwAddr : MacAddr) : LinkMessage where
  index := 0
  attributes :=
    [.ifName attrs.name, .address hwAddr.toList] ++ vxlanMtu attrs ++
      [.linkInfo [.kind .vxlan, .vxlanData (vxlanItems attrs)]]

/-- `vxlan_links_incompat`. -/
def vxlanLinksIncompat (attrs : VXLANAttrs) (existing : LinkMessage) : Except String Unit :=
  match vxlanInfo existing with
  | none =>
    let kind := ((linkKind existing).map InfoKind.toString).getD "unknown"
    .error s!"link type: vxlan vs {kind}"
  | some v2 =>
    if attrs.vni ≠ v2.vni then .error s!"vni: {attrs.vni} vs {v2.vni}"
    else if attrs.vtepIndex > 0 ∧ v2.vtepIndex > 0 ∧ attrs.vtepIndex ≠ v2.vtepIndex then
      .error s!"vtep (external) interface: {attrs.vtepIndex} vs {v2.vtepIndex}"
    else
      let addrs := attrs.vtepAddr.bind fun a => v2.vtepAddr.bind fun b =>
        if a ≠ b then some (a, b) else none
      match addrs with
      | some (a, b) => .error s!"vtep (external) IP: {a.toString} vs {b.toString}"
      | none =>
        if v2.l2miss then .error s!"l2miss: false vs {v2.l2miss}"
        else if attrs.port > 0 ∧ v2.port > 0 ∧ attrs.port ≠ v2.port then
          .error s!"port: {attrs.port} vs {v2.port}"
        else if attrs.gbp ≠ v2.gbp then .error s!"gbp: {attrs.gbp} vs {v2.gbp}"
        else .ok ()

/-- `new_hardware_addr`, on the first six random bytes. -/
def newHardwareAddr (random : MacAddr) : MacAddr :=
  random.set 0 ((random[0] &&& 0xfe) ||| 0x02)

/-! ## The kernel -/

/-- How the kernel shows the link that it makes from a request, by the index it gives it. -/
structure LinkKernel where
  create : Nat → LinkMessage → LinkMessage

/-- What is relied on: the link has the name, the hardware address and the settings of the request;
only a port that was not asked for is chosen by the kernel. -/
structure LinkKernel.Documented (k : LinkKernel) : Prop where
  index : ∀ i msg, (k.create i msg).index = i
  name : ∀ i msg, linkName (k.create i msg) = linkName msg
  mac : ∀ i msg mac, linkMac msg = some mac → linkMac (k.create i msg) = some mac
  vxlan : ∀ i msg v, vxlanInfo msg = some v →
    ∃ port : UInt16, vxlanInfo (k.create i msg) = some { v with port := port.toUInt32 } ∧
      port ≠ 0 ∧ (v.port ≠ 0 → port.toUInt32 = v.port)

/-- The links of a host, and the next index. -/
structure Links where
  links : List LinkMessage
  next : Nat

/-- What becomes of a request to add a link. -/
inductive AddResult where
  | added (s : Links)
  | eexist
  | failed (e : String)

/-- What the kernel makes of a request that nothing speaks against: it does it, it finds that
another link is in the way, or it fails. -/
inductive AddAnswer where
  | ok
  | eexist
  | failed (e : String)
  deriving DecidableEq, Repr

namespace Links

/-- A request to add a link; a link of the name is in the way. -/
def add (k : LinkKernel) (answer : AddAnswer) (msg : LinkMessage) (s : Links) : AddResult :=
  match answer with
  | .failed e => .failed e
  | .eexist => .eexist
  | .ok =>
    if s.links.any fun l => linkName l == linkName msg then .eexist
    else .added ⟨s.links ++ [k.create s.next msg], s.next + 1⟩

/-- A request to delete a link. -/
def del (index : Nat) (s : Links) : Links :=
  { s with links := s.links.filter fun l => l.index != index }

end Links

/-! ## `ensure_link` -/

/-- What becomes of the requests of `ensure_link`: an error, or `none`. -/
structure EnsureAnswers where
  add : AddAnswer := .ok
  existing : Option String := none
  del : Option String := none
  readd : AddAnswer := .ok
  located : Option String := none

/-- `get_link_by_name`. -/
def getLinkByName (answer : Option String) (name : String) (s : Links) :
    Except String LinkMessage :=
  match answer with
  | some e => .error e
  | none =>
    match s.links.find? fun l => linkName l == name with
    | some link => .ok link
    | none => .error s!"no such network interface with name {name}"

/-- The end of `ensure_link`. -/
def locateLink (answer : Option String) (name : String) (s : Links) : Except String LinkMessage :=
  match getLinkByName answer name s with
  | .error e => .error s!"can't locate created vxlan device with index 0: {e}"
  | .ok link =>
    if (vxlanInfo link).isNone then
      .error s!"created vxlan device with index {link.index} is not vxlan"
    else .ok link

/-- The text of `EEXIST`. -/
def eexistText : String := "Received a netlink error message File exists (os error 17)"

/-- `ensure_link`. -/
def ensureLink (k : LinkKernel) (a : EnsureAnswers) (attrs : VXLANAttrs) (hwAddr : MacAddr)
    (s : Links) : Except String LinkMessage × Links :=
  let msg := buildVxlanLink attrs hwAddr
  match s.add k a.add msg with
  | .added s => (locateLink a.located attrs.name s, s)
  | .failed e => (.error e, s)
  | .eexist =>
    match getLinkByName a.existing attrs.name s with
    | .error e => (.error e, s)
    | .ok existing =>
      match vxlanLinksIncompat attrs existing with
      | .ok () => (.ok existing, s)
      | .error _ =>
        match a.del with
        | some e => (.error s!"failed to delete interface: {e}", s)
        | none =>
          let s := s.del existing.index
          match s.add k a.readd msg with
          | .added s => (locateLink a.located attrs.name s, s)
          | .eexist => (.error s!"failed to create vxlan interface: {eexistText}", s)
          | .failed e => (.error s!"failed to create vxlan interface: {e}", s)

/-- `VXLANDevice`, with all of its fields. -/
structure LinkedDevice extends VtepDevice where
  name : String
  mtu : UInt32
  deriving DecidableEq

/-- `new_vxlan_device`. -/
def newVxlanDevice (k : LinkKernel) (a : EnsureAnswers) (random : MacAddr) (attrs : VXLANAttrs)
    (s : Links) : Except String LinkedDevice × Links :=
  let hwAddr := attrs.hwAddr.getD (newHardwareAddr random)
  let (result, s) := ensureLink k a attrs hwAddr s
  (result.map fun link =>
    { ifindex := link.index
      directRouting := false
      mac := (linkMac link).getD hwAddr
      name := attrs.name
      mtu := linkMtu link }, s)

/-! ## What comes back -/

section Build

variable {k : LinkKernel} {attrs : VXLANAttrs} {hwAddr : MacAddr} {i : Nat}

@[simp] theorem linkName_build : linkName (buildVxlanLink attrs hwAddr) = attrs.name := rfl

@[simp] theorem linkMac_build : linkMac (buildVxlanLink attrs hwAddr) = some hwAddr := by
  have hlen : hwAddr.toList.length = 6 := Vector.length_toList
  have haddr : (⟨hwAddr.toList.toArray, hlen⟩ : MacAddr) = hwAddr := rfl
  simp [linkMac, buildVxlanLink, haddr]

/-- What the request says; a setting that is left out reads as zero. -/
theorem vxlanInfo_build : vxlanInfo (buildVxlanLink attrs hwAddr) = some
    { vni := attrs.vni
      vtepIndex := attrs.vtepIndex
      vtepAddr := attrs.vtepAddr
      port := attrs.port.toUInt16.toUInt32
      gbp := attrs.gbp } := by
  have hinfos : linkInfos (buildVxlanLink attrs hwAddr) =
      some [.kind .vxlan, .vxlanData (vxlanItems attrs)] := by
    unfold linkInfos buildVxlanLink vxlanMtu
    dsimp only
    split
    · rfl
    · rfl
  have hzero {x : UInt32} (hx : ¬ x > 0) : x = 0 := UInt32.le_zero_iff.mp (UInt32.not_lt.mp hx)
  have hlink (v : VxlanInfo) (hv : v.vtepIndex = 0) :
      (if attrs.vtepIndex > 0 then [InfoVxlan.link attrs.vtepIndex] else []).foldl VxlanInfo.set v =
        { v with vtepIndex := attrs.vtepIndex } := by
    split
    · rfl
    · rename_i hnot
      rw [hzero hnot, ← hv]
      rfl
  have haddr (v : VxlanInfo) (hv : v.vtepAddr = none) :
      (match attrs.vtepAddr with
        | some ip => [InfoVxlan.localIp ip]
        | none => []).foldl VxlanInfo.set v = { v with vtepAddr := attrs.vtepAddr } := by
    cases attrs.vtepAddr with
    | some ip => rfl
    | none =>
      show v = { v with vtepAddr := none }
      rw [← hv]
  have hport (v : VxlanInfo) (hv : v.port = 0) :
      (if attrs.port > 0 then [InfoVxlan.port attrs.port.toUInt16] else []).foldl VxlanInfo.set v =
        { v with port := attrs.port.toUInt16.toUInt32 } := by
    split
    · rfl
    · rename_i hnot
      rw [hzero hnot]
      show v = { v with port := 0 }
      rw [← hv]
  have hgbp (v : VxlanInfo) (hv : v.gbp = false) :
      (if attrs.gbp then [InfoVxlan.gbp] else []).foldl VxlanInfo.set v =
        { v with gbp := attrs.gbp } := by
    cases attrs.gbp with
    | true => rfl
    | false =>
      show v = { v with gbp := false }
      rw [← hv]
  have hitems : (vxlanItems attrs).foldl VxlanInfo.set {} =
      { vni := attrs.vni
        vtepIndex := attrs.vtepIndex
        vtepAddr := attrs.vtepAddr
        port := attrs.port.toUInt16.toUInt32
        gbp := attrs.gbp } := by
    unfold vxlanItems
    rw [List.foldl_append, List.foldl_append, List.foldl_append, List.foldl_append, hlink _ rfl,
      haddr _ rfl, hport _ rfl, hgbp _ rfl]
    rfl
  simp only [vxlanInfo, hinfos, List.foldl_cons, List.foldl_nil, scanInfos, Bool.not_true,
    Bool.false_eq_true, if_false]
  exact congrArg some hitems

/-- What the kernel shows of the link that was asked for. -/
theorem vxlanInfo_create (hk : k.Documented) :
    ∃ port : UInt16, vxlanInfo (k.create i (buildVxlanLink attrs hwAddr)) = some
        { vni := attrs.vni
          vtepIndex := attrs.vtepIndex
          vtepAddr := attrs.vtepAddr
          port := port.toUInt32
          gbp := attrs.gbp } ∧
      port ≠ 0 ∧ (attrs.port.toUInt16 ≠ 0 → port = attrs.port.toUInt16) := by
  obtain ⟨port, hinfo, hne, hport⟩ := hk.vxlan i _ _ vxlanInfo_build
  refine ⟨port, hinfo, hne, fun hasked => ?_⟩
  have hasked' : attrs.port.toUInt16.toUInt32 ≠ 0 := fun h => hasked (UInt16.toUInt32_inj.mp h)
  exact UInt16.toUInt32_inj.mp (hport hasked')

theorem linkMac_create (hk : k.Documented) :
    linkMac (k.create i (buildVxlanLink attrs hwAddr)) = some hwAddr :=
  hk.mac _ _ _ linkMac_build

theorem linkName_create (hk : k.Documented) :
    linkName (k.create i (buildVxlanLink attrs hwAddr)) = attrs.name :=
  hk.name _ _

end Build

/-! ## Which links fit -/

/-- The settings are those of the link. -/
structure Fits (attrs : VXLANAttrs) (v : VxlanInfo) : Prop where
  vni : attrs.vni = v.vni
  vtepIndex : attrs.vtepIndex > 0 → v.vtepIndex > 0 → attrs.vtepIndex = v.vtepIndex
  vtepAddr : ∀ a ∈ attrs.vtepAddr, ∀ b ∈ v.vtepAddr, a = b
  l2miss : v.l2miss = false
  port : attrs.port > 0 → v.port > 0 → attrs.port = v.port
  gbp : attrs.gbp = v.gbp

theorem vxlanLinksIncompat_eq_ok_iff {attrs : VXLANAttrs} {link : LinkMessage} :
    vxlanLinksIncompat attrs link = .ok () ↔ ∃ v, vxlanInfo link = some v ∧ Fits attrs v := by
  have haddrs {v : VxlanInfo} : (attrs.vtepAddr.bind fun a => v.vtepAddr.bind fun b =>
      if a ≠ b then some (a, b) else none) = none ↔
        ∀ a ∈ attrs.vtepAddr, ∀ b ∈ v.vtepAddr, a = b := by
    simp [Option.bind_eq_none_iff]
  unfold vxlanLinksIncompat
  cases hinfo : vxlanInfo link with
  | none => simp
  | some v =>
    simp only [Option.some.injEq, exists_eq_left']
    constructor
    · intro h
      split at h
      · cases h
      rename_i hvni
      split at h
      · cases h
      rename_i hindex
      split at h
      · cases h
      rename_i haddr
      split_ifs at h with hmiss hport hgbp
      exact ⟨not_not.mp hvni, fun h₁ h₂ => by_contra fun h₃ => hindex ⟨h₁, h₂, h₃⟩,
        haddrs.mp haddr, Bool.eq_false_iff.mpr hmiss,
        fun h₁ h₂ => by_contra fun h₃ => hport ⟨h₁, h₂, h₃⟩, not_not.mp hgbp⟩
    · intro h
      rw [if_neg (not_not.mpr h.vni), if_neg fun hne => hne.2.2 (h.vtepIndex hne.1 hne.2.1)]
      simp only [haddrs.mpr h.vtepAddr, h.l2miss, Bool.false_eq_true, if_false]
      rw [if_neg fun hne => hne.2.2 (h.port hne.1 hne.2.1), if_neg (not_not.mpr h.gbp)]

/-- The same settings, as far as they are compared. -/
structure VXLANAttrs.SameLink (attrs attrs' : VXLANAttrs) : Prop where
  name : attrs.name = attrs'.name
  vni : attrs.vni = attrs'.vni
  vtepIndex : attrs.vtepIndex = attrs'.vtepIndex
  vtepAddr : attrs.vtepAddr = attrs'.vtepAddr
  port : attrs.port = attrs'.port
  gbp : attrs.gbp = attrs'.gbp

theorem VXLANAttrs.SameLink.refl (attrs : VXLANAttrs) : attrs.SameLink attrs :=
  ⟨rfl, rfl, rfl, rfl, rfl, rfl⟩

/-- **A link fits the settings it was made from exactly if the port is a port.** -/
theorem fits_create_iff {k : LinkKernel} (hk : k.Documented) {attrs attrs' : VXLANAttrs}
    (hsame : attrs'.SameLink attrs) {hwAddr : MacAddr} {i : Nat} :
    vxlanLinksIncompat attrs' (k.create i (buildVxlanLink attrs hwAddr)) = .ok () ↔
      attrs.port.toNat < UInt16.size := by
  obtain ⟨port, hinfo, hne, hport⟩ := @vxlanInfo_create k attrs hwAddr i hk
  have hsize : port.toUInt32.toNat < UInt16.size := by
    rw [UInt16.toNat_toUInt32]
    exact port.toNat_lt
  have hpos : port.toUInt32 > 0 := by
    rw [gt_iff_lt, UInt32.lt_iff_toNat_lt, UInt16.toNat_toUInt32]
    have h0 : port.toNat ≠ 0 := fun h => hne (UInt16.toNat_inj.mp h)
    exact Nat.pos_of_ne_zero h0
  rw [vxlanLinksIncompat_eq_ok_iff]
  constructor
  · rintro ⟨v, hv, hfits⟩
    rw [hinfo, Option.some.injEq] at hv
    subst hv
    by_cases hzero : attrs.port > 0
    · have heq := hfits.port (hsame.port ▸ hzero) hpos
      rw [hsame.port] at heq
      rw [heq]
      exact hsize
    · rw [UInt32.le_zero_iff.mp (UInt32.not_lt.mp hzero)]
      decide
  · intro hlt
    have hback : attrs.port.toUInt16.toUInt32 = attrs.port := by
      apply UInt32.toNat_inj.mp
      rw [UInt16.toNat_toUInt32, UInt32.toNat_toUInt16]
      exact Nat.mod_eq_of_lt hlt
    refine ⟨_, hinfo, hsame.vni, fun _ _ => hsame.vtepIndex, ?_, rfl, fun hasked _ => ?_, hsame.gbp⟩
    · intro a ha b hb
      rw [hsame.vtepAddr] at ha
      exact Option.mem_unique ha hb
    · have hne' : attrs.port.toUInt16 ≠ 0 := by
        intro h
        rw [h] at hback
        rw [hsame.port, ← hback] at hasked
        exact absurd hasked (by decide)
      rw [hport hne', hsame.port]
      exact hback.symm

/-! ## What `ensure_link` does -/

/-- Everything that `ensure_link` can do.  In the first case it fails before it has done anything;
in the third it deletes a link that does not fit, and cannot make it anew.  In the last case it
makes a link where none of the name is left; then it may still fail to find it. -/
inductive Ensured (k : LinkKernel) (attrs : VXLANAttrs) (hwAddr : MacAddr) (s : Links) :
    Except String LinkMessage × Links → Prop
  | refused (e : String) : Ensured k attrs hwAddr s (.error e, s)
  | reused {link : LinkMessage} (hmem : link ∈ s.links) (hname : linkName link = attrs.name)
      (hfits : vxlanLinksIncompat attrs link = .ok ()) : Ensured k attrs hwAddr s (.ok link, s)
  | deleted (e : String) {old : LinkMessage} (hmem : old ∈ s.links)
      (hname : linkName old = attrs.name) (hfits : vxlanLinksIncompat attrs old ≠ .ok ()) :
      Ensured k attrs hwAddr s (.error e, s.del old.index)
  | made {r : Except String LinkMessage} {base : Links}
      (hbase : base = s ∨ ∃ old ∈ s.links, linkName old = attrs.name ∧
        vxlanLinksIncompat attrs old ≠ .ok () ∧ base = s.del old.index)
      (hfree : ∀ l ∈ base.links, linkName l ≠ attrs.name)
      (hr : (∃ e, r = .error e) ∨ r = .ok (k.create base.next (buildVxlanLink attrs hwAddr))) :
      Ensured k attrs hwAddr s
        (r, ⟨base.links ++ [k.create base.next (buildVxlanLink attrs hwAddr)], base.next + 1⟩)

section Ensure

variable {k : LinkKernel} {attrs : VXLANAttrs} {hwAddr : MacAddr} {s s' : Links}

theorem Links.add_eq_added {answer : AddAnswer} {msg : LinkMessage}
    (h : s.add k answer msg = .added s') :
    (∀ l ∈ s.links, linkName l ≠ linkName msg) ∧
      s' = ⟨s.links ++ [k.create s.next msg], s.next + 1⟩ := by
  cases answer with
  | failed e => cases h
  | eexist => cases h
  | ok =>
    simp only [add] at h
    split at h
    · cases h
    · rename_i hfree
      cases h
      refine ⟨fun l hl hname => hfree ?_, rfl⟩
      exact List.any_eq_true.mpr ⟨l, hl, beq_iff_eq.mpr hname⟩

theorem getLinkByName_eq_ok {answer : Option String} {name : String} {link : LinkMessage}
    (h : getLinkByName answer name s = .ok link) : link ∈ s.links ∧ linkName link = name := by
  cases answer with
  | some e => cases h
  | none =>
    simp only [getLinkByName] at h
    split at h
    · rename_i link' hfind
      cases h
      have hname := List.find?_some hfind
      exact ⟨List.mem_of_find?_eq_some hfind, beq_iff_eq.mp hname⟩
    · cases h

/-- A link that was added is found, if anything is. -/
theorem locateLink_added (hk : k.Documented) (hfree : ∀ l ∈ s.links, linkName l ≠ attrs.name)
    (answer : Option String) :
    (∃ e, locateLink answer attrs.name
        ⟨s.links ++ [k.create s.next (buildVxlanLink attrs hwAddr)], s.next + 1⟩ = .error e) ∨
      locateLink answer attrs.name
        ⟨s.links ++ [k.create s.next (buildVxlanLink attrs hwAddr)], s.next + 1⟩ =
          .ok (k.create s.next (buildVxlanLink attrs hwAddr)) := by
  unfold locateLink
  split
  · exact .inl ⟨_, rfl⟩
  · rename_i link hget
    obtain ⟨hmem, hname⟩ := getLinkByName_eq_ok hget
    have hlink : link = k.create s.next (buildVxlanLink attrs hwAddr) := by
      rcases List.mem_append.mp hmem with hold | hnew
      · exact absurd hname (hfree link hold)
      · exact List.mem_singleton.mp hnew
    obtain ⟨port, hinfo, -⟩ := @vxlanInfo_create k attrs hwAddr s.next hk
    rw [hlink, hinfo]
    exact .inr rfl

/-- **`ensure_link`.** -/
theorem ensureLink_ensured (hk : k.Documented) (a : EnsureAnswers) :
    Ensured k attrs hwAddr s (ensureLink k a attrs hwAddr s) := by
  unfold ensureLink
  dsimp only
  split
  · rename_i s₁ hadd
    obtain ⟨hfree, rfl⟩ := Links.add_eq_added hadd
    rw [linkName_build] at hfree
    exact .made (.inl rfl) hfree (locateLink_added hk hfree _)
  · exact .refused _
  · split
    · exact .refused _
    · rename_i existing hget
      obtain ⟨hmem, hname⟩ := getLinkByName_eq_ok hget
      split
      · rename_i hfits
        exact .reused hmem hname hfits
      · rename_i e hincompat
        have hfits : vxlanLinksIncompat attrs existing ≠ .ok () := by
          rw [hincompat]
          exact fun h => by cases h
        split
        · exact .refused _
        · split
          · rename_i s₁ hadd
            obtain ⟨hfree, rfl⟩ := Links.add_eq_added hadd
            rw [linkName_build] at hfree
            exact .made (.inr ⟨existing, hmem, hname, hfits, rfl⟩) hfree
              (locateLink_added hk hfree _)
          · exact .deleted _ hmem hname hfits
          · exact .deleted _ hmem hname hfits

theorem Ensured.mem_links {r : Except String LinkMessage × Links} (h : Ensured k attrs hwAddr s r)
    {l : LinkMessage} (hl : l ∈ r.2.links) :
    l ∈ s.links ∨ ∃ i, l = k.create i (buildVxlanLink attrs hwAddr) := by
  cases h with
  | refused e => exact .inl hl
  | reused _ _ _ => exact .inl hl
  | deleted e _ _ _ => exact .inl (List.mem_filter.mp hl).1
  | made hbase _ _ =>
    rcases List.mem_append.mp hl with hold | hnew
    · rcases hbase with rfl | ⟨old, -, -, -, rfl⟩
      · exact .inl hold
      · exact .inl (List.mem_filter.mp hold).1
    · exact .inr ⟨_, List.mem_singleton.mp hnew⟩

theorem Ensured.found (hk : k.Documented) {r : Except String LinkMessage × Links}
    (h : Ensured k attrs hwAddr s r) {link : LinkMessage} (hr : r.1 = .ok link) :
    link ∈ r.2.links ∧ linkName link = attrs.name := by
  cases h with
  | refused e => cases hr
  | reused hmem hname _ =>
    cases hr
    exact ⟨hmem, hname⟩
  | deleted e _ _ _ => cases hr
  | made _ _ hmade =>
    rcases hmade with ⟨e, rfl⟩ | rfl
    · cases hr
    · cases hr
      exact ⟨List.mem_append_right _ (List.mem_singleton_self _), linkName_create hk⟩

/-- **What `new_vxlan_device` leaves.**  The links are those that were there or of its own making,
and the device that it hands out is one of the name. -/
theorem newVxlanDevice_spec (hk : k.Documented) {a : EnsureAnswers} {random : MacAddr} :
    (∀ l ∈ (newVxlanDevice k a random attrs s).2.links, l ∈ s.links ∨
      ∃ i, l = k.create i (buildVxlanLink attrs (attrs.hwAddr.getD (newHardwareAddr random)))) ∧
    ∀ d, (newVxlanDevice k a random attrs s).1 = .ok d →
      ∃ link ∈ (newVxlanDevice k a random attrs s).2.links, linkName link = attrs.name ∧
        d.ifindex = link.index ∧
        d.mac = (linkMac link).getD (attrs.hwAddr.getD (newHardwareAddr random)) := by
  have hensured := @ensureLink_ensured k attrs (attrs.hwAddr.getD (newHardwareAddr random)) s hk a
  refine ⟨fun l hl => hensured.mem_links hl, fun d hd => ?_⟩
  obtain ⟨link, hlink, rfl⟩ := Results.map_ok_iff.mp hd
  obtain ⟨hmem, hname⟩ := hensured.found hk hlink
  exact ⟨link, hmem, hname, rfl, rfl⟩

end Ensure

/-! ## One start after another -/

/-- What happens on the host: the device is asked for, or the other links change. -/
inductive HostAction where
  | start (attrs : VXLANAttrs) (random : MacAddr) (answers : EnsureAnswers)
  | others (links : Links)

/-- The links of a host, and the devices that were handed out. -/
structure DeviceHost where
  links : Links
  devices : List LinkedDevice

namespace DeviceHost

/-- The links of a name. -/
def named (name : String) (s : Links) : List LinkMessage :=
  s.links.filter fun l => linkName l == name

/-- One action; the links of the name are nobody else's business. -/
def step (k : LinkKernel) (name : String) (s : DeviceHost) : HostAction → Option DeviceHost
  | .start attrs random answers =>
    let (result, links) := newVxlanDevice k answers random attrs s.links
    some ⟨links, s.devices ++ result.toOption.toList⟩
  | .others links =>
    if named name links = named name s.links then some { s with links := links } else none

variable {k : LinkKernel} {attrs attrs' : VXLANAttrs} {s t : DeviceHost} {link : LinkMessage}

/-- The device of a link. -/
def deviceOf (name : String) (link : LinkMessage) (hwAddr : MacAddr) : LinkedDevice where
  ifindex := link.index
  directRouting := false
  mac := (linkMac link).getD hwAddr
  name := name
  mtu := linkMtu link

theorem mem_named {name : String} {l : LinkMessage} {s : Links} :
    l ∈ named name s ↔ l ∈ s.links ∧ linkName l = name := by
  rw [named, List.mem_filter, beq_iff_eq]

/-- A start where the only link of the name fits. -/
theorem newVxlanDevice_keeps (hk : k.Documented) {s : Links} (hnamed : named attrs.name s = [link])
    (hfits : vxlanLinksIncompat attrs link = .ok ()) {a : EnsureAnswers} {random : MacAddr}
    {mac : MacAddr} (hmac : linkMac link = some mac) :
    (newVxlanDevice k a random attrs s).2 = s ∧
      ∀ d, (newVxlanDevice k a random attrs s).1 = .ok d → d = deviceOf attrs.name link mac := by
  have honly : ∀ l ∈ s.links, linkName l = attrs.name → l = link := by
    intro l hl hname
    have hmem := mem_named.mpr ⟨hl, hname⟩
    rw [hnamed] at hmem
    exact List.mem_singleton.mp hmem
  have hthere : link ∈ s.links ∧ linkName link = attrs.name :=
    mem_named.mp (hnamed ▸ List.mem_singleton_self link)
  unfold newVxlanDevice
  dsimp only
  generalize hresult : ensureLink k a attrs (attrs.hwAddr.getD (newHardwareAddr random)) s = result
  have hensured := @ensureLink_ensured k attrs (attrs.hwAddr.getD (newHardwareAddr random)) s hk a
  rw [hresult] at hensured
  cases hensured with
  | refused e => exact ⟨rfl, fun d hd => by cases hd⟩
  | reused hmem hname _ =>
    rw [honly _ hmem hname]
    refine ⟨rfl, fun d hd => ?_⟩
    cases hd
    simp [deviceOf, hmac]
  | deleted e hmem hname hnot =>
    rw [honly _ hmem hname] at hnot
    exact absurd hfits hnot
  | made hbase hfree _ =>
    rcases hbase with rfl | ⟨old, hmem, hname, hnot, -⟩
    · exact absurd hthere.2 (hfree link hthere.1)
    · rw [honly _ hmem hname] at hnot
      exact absurd hfits hnot

/-- A link that was added is found when nothing fails. -/
theorem locateLink_ok (hk : k.Documented) {s : Links} {hwAddr : MacAddr}
    (hfree : ∀ l ∈ s.links, linkName l ≠ attrs.name) :
    locateLink none attrs.name
        ⟨s.links ++ [k.create s.next (buildVxlanLink attrs hwAddr)], s.next + 1⟩ =
      .ok (k.create s.next (buildVxlanLink attrs hwAddr)) := by
  have hnone : s.links.find? (fun l => linkName l == attrs.name) = none := by
    refine List.find?_eq_none.mpr fun l hl => ?_
    simpa using hfree l hl
  obtain ⟨port, hinfo, -⟩ := @vxlanInfo_create k attrs hwAddr s.next hk
  have hget : getLinkByName none attrs.name
      ⟨s.links ++ [k.create s.next (buildVxlanLink attrs hwAddr)], s.next + 1⟩ =
        .ok (k.create s.next (buildVxlanLink attrs hwAddr)) := by
    simp [getLinkByName, List.find?_append, hnone, linkName_create hk]
  rw [locateLink, hget]
  dsimp only
  rw [hinfo]
  rfl

/-- **A start where the only link of the name does not fit**, and nothing fails. -/
theorem ensureLink_replaces (hk : k.Documented) {s : Links} {hwAddr : MacAddr}
    (hnamed : named attrs.name s = [link]) (hnot : vxlanLinksIncompat attrs link ≠ .ok ()) :
    ensureLink k {} attrs hwAddr s = (.ok (k.create s.next (buildVxlanLink attrs hwAddr)),
      ⟨(s.del link.index).links ++ [k.create s.next (buildVxlanLink attrs hwAddr)],
        s.next + 1⟩) ∧
      ∀ l ∈ (s.del link.index).links, linkName l ≠ attrs.name := by
  obtain ⟨hmem, hname⟩ : link ∈ s.links ∧ linkName link = attrs.name :=
    mem_named.mp (hnamed ▸ List.mem_singleton_self link)
  have hany : (s.links.any fun l => linkName l == attrs.name) = true :=
    List.any_eq_true.mpr ⟨link, hmem, by simp [hname]⟩
  have hadd : s.add k .ok (buildVxlanLink attrs hwAddr) = .eexist := if_pos hany
  have hget : getLinkByName none attrs.name s = .ok link := by
    have hfind : (s.links.find? fun l => linkName l == attrs.name) = some link := by
      rw [← List.head?_filter]
      exact congrArg List.head? hnamed
    simp only [getLinkByName, hfind]
  have hgone : ∀ l ∈ (s.del link.index).links, linkName l ≠ attrs.name := by
    intro l hl hlname
    obtain ⟨hin, hindex⟩ := List.mem_filter.mp hl
    have heq := mem_named.mpr ⟨hin, hlname⟩
    rw [hnamed, List.mem_singleton] at heq
    rw [heq] at hindex
    simp at hindex
  have hreadd : (s.del link.index).add k .ok (buildVxlanLink attrs hwAddr) = .added
      ⟨(s.del link.index).links ++ [k.create s.next (buildVxlanLink attrs hwAddr)],
        s.next + 1⟩ := by
    refine if_neg fun hany => ?_
    obtain ⟨l, hl, hlname⟩ := List.any_eq_true.mp hany
    exact hgone l hl (beq_iff_eq.mp hlname)
  refine ⟨?_, hgone⟩
  have hfound := @locateLink_ok k attrs hk (s.del link.index) hwAddr hgone
  unfold ensureLink
  simp only [hadd, hget]
  cases hcompat : vxlanLinksIncompat attrs link with
  | ok u => exact absurd hcompat hnot
  | error e =>
    simp only [hreadd]
    exact congrArg (·, _) hfound

/-- The first start makes the link. -/
theorem newVxlanDevice_first (hk : k.Documented) {s s₁ : Links} {a : EnsureAnswers}
    {random : MacAddr} {d : LinkedDevice} (hfree : named attrs.name s = [])
    (hfirst : newVxlanDevice k a random attrs s = (.ok d, s₁)) :
    ∃ hwAddr, s₁ = ⟨s.links ++ [k.create s.next (buildVxlanLink attrs hwAddr)], s.next + 1⟩ ∧
      d = deviceOf attrs.name (k.create s.next (buildVxlanLink attrs hwAddr)) hwAddr := by
  have hnone : ∀ l ∈ s.links, linkName l ≠ attrs.name := by
    intro l hl hname
    have hmem := mem_named.mpr ⟨hl, hname⟩
    rw [hfree] at hmem
    cases hmem
  refine ⟨attrs.hwAddr.getD (newHardwareAddr random), ?_⟩
  unfold newVxlanDevice at hfirst
  dsimp only at hfirst
  generalize attrs.hwAddr.getD (newHardwareAddr random) = hwAddr at hfirst ⊢
  have hensured := @ensureLink_ensured k attrs hwAddr s hk a
  generalize ensureLink k a attrs hwAddr s = result at hfirst hensured
  cases hensured with
  | refused e => cases hfirst
  | reused hmem hname _ => exact absurd hname (hnone _ hmem)
  | deleted e hmem hname _ => cases hfirst
  | made hbase _ hr =>
    rcases hbase with rfl | ⟨old, hmem, hname, -⟩
    · rcases hr with ⟨e, rfl⟩ | rfl
      · cases hfirst
      · cases hfirst
        exact ⟨rfl, rfl⟩
    · exact absurd hname (hnone _ hmem)

/-- The link is the only one of the name, and all devices are its. -/
structure Holds (name : String) (link : LinkMessage) (hwAddr : MacAddr) (s : DeviceHost) :
    Prop where
  named : named name s.links = [link]
  devices : ∀ d ∈ s.devices, d = deviceOf name link hwAddr

theorem Holds.step (hk : k.Documented) {i : Nat} {hwAddr : MacAddr} {act : HostAction}
    (hfits : vxlanLinksIncompat attrs (k.create i (buildVxlanLink attrs hwAddr)) = .ok ())
    (h : Holds attrs.name (k.create i (buildVxlanLink attrs hwAddr)) hwAddr s)
    (hact : ∀ attrs' random' a', act = .start attrs' random' a' → attrs'.SameLink attrs)
    (hst : DeviceHost.step k attrs.name s act = some t) :
    Holds attrs.name (k.create i (buildVxlanLink attrs hwAddr)) hwAddr t := by
  cases act with
  | others links =>
    simp only [DeviceHost.step] at hst
    split at hst
    · rename_i hsame
      cases hst
      exact ⟨hsame.trans h.named, h.devices⟩
    · cases hst
  | start attrs' random' a' =>
    have hsame := hact attrs' random' a' rfl
    have hport := (fits_create_iff hk (.refl attrs)).mp hfits
    obtain ⟨hlinks, hdevice⟩ := @newVxlanDevice_keeps k attrs' _ hk s.links (hsame.name ▸ h.named)
      ((fits_create_iff hk hsame).mpr hport) a' random' hwAddr (linkMac_create hk)
    rw [DeviceHost.step, Option.some.injEq] at hst
    subst hst
    constructor
    · show DeviceHost.named attrs.name (newVxlanDevice k a' random' attrs' s.links).2 = _
      rw [hlinks]
      exact h.named
    · intro d hd
      rcases List.mem_append.mp hd with hd | hd
      · exact h.devices d hd
      · rw [Option.mem_toList, Results.toOption_eq_some_iff] at hd
        rw [hdevice d hd, hsame.name]

theorem run_start (k : LinkKernel) (name : String) (attrs : VXLANAttrs) (random : MacAddr)
    (a : EnsureAnswers) (s : DeviceHost) :
    run (step k name) s [.start attrs random a] =
      some ⟨(newVxlanDevice k a random attrs s.links).2,
        s.devices ++ (newVxlanDevice k a random attrs s.links).1.toOption.toList⟩ := rfl

/-- The next start finds the link that the first one made, and it does not fit: the start makes
another, with another index. -/
theorem next_start_replaces (hk : k.Documented) {s : Links} {hwAddr : MacAddr} {i : Nat}
    (hnamed : named attrs.name s = [k.create i (buildVxlanLink attrs hwAddr)])
    (hsame : attrs'.SameLink attrs) (hport : ¬ attrs.port.toNat < UInt16.size)
    (random : MacAddr) :
    ∃ d, (newVxlanDevice k {} random attrs' s).1 = .ok d ∧ d.ifindex = s.next ∧
      ∀ l ∈ (newVxlanDevice k {} random attrs' s).2.links, linkName l = attrs.name →
        l.index = s.next := by
  have hnot : vxlanLinksIncompat attrs' (k.create i (buildVxlanLink attrs hwAddr)) ≠ .ok () := by
    rwa [Ne, fits_create_iff hk hsame]
  obtain ⟨heq, hgone⟩ := @ensureLink_replaces k attrs' _ hk s
    (attrs'.hwAddr.getD (newHardwareAddr random)) (hsame.name ▸ hnamed) hnot
  unfold newVxlanDevice
  dsimp only
  rw [heq]
  refine ⟨_, rfl, hk.index _ _, fun l hl hname => ?_⟩
  rcases List.mem_append.mp hl with hold | hnew
  · exact absurd (hname.trans hsame.name.symm) (hgone l hold)
  · rw [List.mem_singleton.mp hnew, hk.index]

/-- **The device survives the starts that follow exactly if its port is a port.**  A start finds no
link of the name and makes one.  Let then any number of further starts follow, failing or not, with
settings that agree in what is compared, and let the other links of the host change in any way.  If
the port is below 65536, the link is the same all along and all starts hand out the same device,
with the index, the address and the MTU of the first.  If not, even the next start replaces it,
unless a request of it fails: it hands out a device with another index, and no other link has the
name. -/
theorem link_survives_iff (hk : k.Documented) {s s₁ : Links} {a : EnsureAnswers}
    {random : MacAddr} {d : LinkedDevice} (hfree : named attrs.name s = [])
    (hfirst : newVxlanDevice k a random attrs s = (.ok d, s₁)) :
    ((∀ as t, (∀ attrs' random' a', .start attrs' random' a' ∈ as → attrs'.SameLink attrs) →
      run (step k attrs.name) ⟨s₁, [d]⟩ as = some t →
        named attrs.name t.links = named attrs.name s₁ ∧ ∀ d' ∈ t.devices, d' = d) ↔
      attrs.port.toNat < UInt16.size) ∧
    (UInt16.size ≤ attrs.port.toNat → ∀ attrs' random', attrs'.SameLink attrs →
      ∃ d', (newVxlanDevice k {} random' attrs' s₁).1 = .ok d' ∧ d'.ifindex ≠ d.ifindex ∧
        ∀ l ∈ (newVxlanDevice k {} random' attrs' s₁).2.links, linkName l = attrs.name →
          l.index = d'.ifindex) := by
  obtain ⟨hwAddr, rfl, rfl⟩ := newVxlanDevice_first hk hfree hfirst
  have hnamed : named attrs.name
      ⟨s.links ++ [k.create s.next (buildVxlanLink attrs hwAddr)], s.next + 1⟩ =
        [k.create s.next (buildVxlanLink attrs hwAddr)] := by
    have hnew := @linkName_create k attrs hwAddr s.next hk
    rw [named, List.filter_append]
    refine (congrArg₂ _ hfree ?_).trans (List.nil_append _)
    simp [hnew]
  have hreplaced : ¬ attrs.port.toNat < UInt16.size → ∀ attrs' random', attrs'.SameLink attrs →
      ∃ d', (newVxlanDevice k {} random' attrs' _).1 = .ok d' ∧ d'.ifindex = s.next + 1 ∧
        ∀ l ∈ (newVxlanDevice k {} random' attrs' _).2.links, linkName l = attrs.name →
          l.index = s.next + 1 :=
    fun hport attrs' random' hsame => next_start_replaces hk hnamed hsame hport random'
  refine ⟨⟨fun hall => ?_, fun hport as t hstarts hrun => ?_⟩, fun hport attrs' random' hsame => ?_⟩
  · by_contra hport
    obtain ⟨d', hd', hindex, -⟩ := hreplaced hport attrs random (.refl attrs)
    have hrun := run_start k attrs.name attrs random {}
      ⟨⟨s.links ++ [k.create s.next (buildVxlanLink attrs hwAddr)], s.next + 1⟩,
        [deviceOf attrs.name (k.create s.next (buildVxlanLink attrs hwAddr)) hwAddr]⟩
    rw [hd'] at hrun
    obtain ⟨-, hdevices⟩ := hall _ _
      (fun _ _ _ hmem => by cases List.mem_singleton.mp hmem; exact .refl attrs) hrun
    rw [hdevices d' (List.mem_append_right _ (List.mem_singleton_self d'))] at hindex
    have hfirst' : (deviceOf attrs.name (k.create s.next (buildVxlanLink attrs hwAddr))
        hwAddr).ifindex = s.next := hk.index _ _
    omega
  · rw [← @fits_create_iff k hk attrs attrs (.refl attrs) hwAddr s.next] at hport
    have hholds := run_invariant (Q := fun _ act => ∀ attrs' random' a',
        act = .start attrs' random' a' → attrs'.SameLink attrs)
      (fun u act v hu hact hst => Holds.step hk hport hu hact hst)
      ⟨hnamed, fun d' hd' => List.mem_singleton.mp hd'⟩
      (along_of_forall fun act hact attrs' random' a' heq =>
        hstarts attrs' random' a' (by rwa [heq] at hact)) hrun
    rw [hnamed]
    exact ⟨hholds.named, hholds.devices⟩
  · obtain ⟨d', hd', hindex, hlinks⟩ := hreplaced (Nat.not_lt.mpr hport) attrs' random' hsame
    refine ⟨d', hd', ?_, fun l hl hname => (hlinks l hl hname).trans hindex.symm⟩
    have hfirst' : (deviceOf attrs.name (k.create s.next (buildVxlanLink attrs hwAddr))
        hwAddr).ifindex = s.next := hk.index _ _
    omega

/-- The items with which a link is shown. -/
def itemsOf (v : VxlanInfo) (port : UInt16) : List InfoVxlan :=
  [.id v.vni, .link v.vtepIndex, .l2Miss v.l2miss, .port port] ++
    (v.vtepAddr.map InfoVxlan.localIp).toList ++ (v.group.map InfoVxlan.group).toList ++
    if v.gbp then [.gbp] else []

/-- A kernel that shows what it was asked for, with 8472 for the port and 1450 for the MTU if
there was nothing asked. -/
def plainKernel : LinkKernel where
  create i msg :=
    { index := i
      attributes :=
        [.ifName (linkName msg), .mtu (if linkMtu msg = 0 then 1450 else linkMtu msg)] ++
          ((linkMac msg).map fun mac => LinkAttribute.address mac.toList).toList ++
          ((vxlanInfo msg).map fun v => LinkAttribute.linkInfo [.kind .vxlan, .vxlanData
            (itemsOf v (if v.port.toUInt16 = 0 then 8472 else v.port.toUInt16))]).toList }

theorem vxlanInfo_port_lt {msg : LinkMessage} {v : VxlanInfo} (h : vxlanInfo msg = some v) :
    v.port.toNat < UInt16.size := by
  have hfold : ∀ (items : List InfoVxlan) (v : VxlanInfo), v.port.toNat < UInt16.size →
      (items.foldl VxlanInfo.set v).port.toNat < UInt16.size := by
    intro items
    induction items with
    | nil => exact fun v hv => hv
    | cons item items ih =>
      intro v hv
      refine ih (v.set item) ?_
      cases item with
      | port p => exact p.toNat_lt
      | _ => exact hv
  unfold vxlanInfo at h
  split at h
  · cases h
  · dsimp only at h
    split at h
    · cases h
    · split at h
      · cases h
        exact hfold _ _ (by decide)
      · cases h
        decide

theorem foldl_itemsOf (v : VxlanInfo) (port : UInt16) :
    (itemsOf v port).foldl VxlanInfo.set {} = { v with port := port.toUInt32 } := by
  obtain ⟨vni, vtepIndex, vtepAddr, group, l2miss, _, gbp⟩ := v
  unfold itemsOf
  cases vtepAddr <;> cases group <;> cases gbp <;> rfl

theorem plainKernel_documented : plainKernel.Documented where
  index _ _ := rfl
  name _ _ := rfl
  mac i msg mac hmac := by
    have hlen : mac.toList.length = 6 := Vector.length_toList
    have haddr : (⟨mac.toList.toArray, hlen⟩ : MacAddr) = mac := rfl
    simp only [plainKernel, hmac]
    simp [linkMac, haddr]
  vxlan i msg v hv := by
    have hback : v.port.toUInt16.toUInt32 = v.port := by
      apply UInt32.toNat_inj.mp
      rw [UInt16.toNat_toUInt32, UInt32.toNat_toUInt16]
      exact Nat.mod_eq_of_lt (vxlanInfo_port_lt hv)
    refine ⟨if v.port.toUInt16 = 0 then 8472 else v.port.toUInt16, ?_, ?_, fun hne => ?_⟩
    · have hinfos : linkInfos (plainKernel.create i msg) = some [.kind .vxlan, .vxlanData
          (itemsOf v (if v.port.toUInt16 = 0 then 8472 else v.port.toUInt16))] := by
        simp only [plainKernel, hv]
        cases linkMac msg with
        | none => rfl
        | some mac => rfl
      simp only [vxlanInfo, hinfos]
      exact congrArg some (foldl_itemsOf v _)
    · split
      · decide
      · assumption
    · have hne' : v.port.toUInt16 ≠ 0 := by
        intro h
        rw [h] at hback
        exact hne hback.symm
      rw [if_neg hne', hback]

/-- The device of the default settings, on an interface with the index 2. -/
def defaultAttrs (port : UInt32) : VXLANAttrs where
  name := "flannel.1"
  vni := 1
  mtu := 1500
  vtepIndex := 2
  vtepAddr := some (.v4 ⟨0xc0a80001⟩)
  port := port
  gbp := false
  learning := false
  hwAddr := none

/-- The default settings keep the device; with the port 74008 it is replaced, though the kernel
uses 8472 in both cases. -/
theorem default_link_survives :
    (∃ d s₁, newVxlanDevice plainKernel {} sampleDevice.mac (defaultAttrs 0) ⟨[], 3⟩ = (.ok d, s₁) ∧
      ∀ as t, (∀ attrs' random' a', .start attrs' random' a' ∈ as →
          attrs'.SameLink (defaultAttrs 0)) →
        run (step plainKernel "flannel.1") ⟨s₁, [d]⟩ as = some t →
          named "flannel.1" t.links = named "flannel.1" s₁ ∧ ∀ d' ∈ t.devices, d' = d) ∧
    ∃ d s₁, newVxlanDevice plainKernel {} sampleDevice.mac (defaultAttrs 74008) ⟨[], 3⟩ =
        (.ok d, s₁) ∧
      ∃ d', (newVxlanDevice plainKernel {} sampleDevice.mac (defaultAttrs 74008) s₁).1 = .ok d' ∧
        d'.ifindex ≠ d.ifindex := by
  refine ⟨⟨_, _, rfl, ?_⟩, ⟨_, _, rfl, ?_⟩⟩
  · exact (@link_survives_iff plainKernel (defaultAttrs 0) plainKernel_documented ⟨[], 3⟩ _ {}
      sampleDevice.mac _ rfl rfl).1.mpr (by decide)
  · obtain ⟨d', hd', hindex, -⟩ := (@link_survives_iff plainKernel (defaultAttrs 74008)
      plainKernel_documented ⟨[], 3⟩ _ {} sampleDevice.mac _ rfl rfl).2 (by decide)
      (defaultAttrs 74008) sampleDevice.mac (.refl _)
    exact ⟨d', hd', hindex⟩

end DeviceHost

end Vxlan

end Flannel
