import Flannel.Backend.ConfigFields
import Flannel.Backend.VxlanDevice
import Flannel.Kube.PublishRead

/-!
# The address of the tunnel's end

`create_vxlan_device`, and what is around it when a node starts (`register_network`) and when its
device has been deleted (`recreate_vxlan`).  The peers write the hardware address that a node
announces into their tables, so the device has to have that address.  A start announces the address
of the device it has got.  A recreation announces nothing, and its device is of use to the peers
only if it has the address they know.

There are three places where the address is: on the link, in the annotation of the node, and in
what `create_vxlan_device` hands out.  A link that fits is kept with its address; a link that is
made anew is given the address of the annotation; and what is written to the annotation is the
address of the device.  So once the three agree, they agree for good (`Known`), as long as the
annotation can be read: to `get_stored_mac_addresses` a failed request is no stored address.
-/

namespace Flannel

namespace Vxlan

open DeviceHost Run

/-! ## Both families -/

/-- `DeviceParams`, without the manager. -/
structure DeviceParams where
  enableIpv4 : Bool
  enableIpv6 : Bool
  cfg : VXLANConfig
  extIfaceIndex : UInt32
  extAddr : Option IpAddr
  extV6Addr : Option IpAddr

/-- The two devices. -/
inductive VtepFamily where
  | v4
  | v6
  deriving DecidableEq, Repr

/-- What the names of the devices begin with. -/
def devicePrefix : VtepFamily → String
  | .v4 => "flannel."
  | .v6 => "flannel-v6."

namespace DeviceParams

/-- Whether there is a device for a family. -/
def enabled (p : DeviceParams) : VtepFamily → Bool
  | .v4 => p.enableIpv4
  | .v6 => p.enableIpv6

/-- The external address for a family. -/
def address (p : DeviceParams) : VtepFamily → Option IpAddr
  | .v4 => p.extAddr
  | .v6 => p.extV6Addr

/-- The attributes of the device of a family. -/
def attrs (p : DeviceParams) (f : VtepFamily) (hwAddr : Option MacAddr) : VXLANAttrs where
  name := devicePrefix f ++ toString p.cfg.vni.toNat
  vni := p.cfg.vni
  mtu := p.cfg.mtu
  vtepIndex := p.extIfaceIndex
  vtepAddr := p.address f
  port := p.cfg.port
  gbp := p.cfg.gbp
  learning := p.cfg.learning
  hwAddr := hwAddr

end DeviceParams

/-- What the world adds to one creation: the random bytes, and what becomes of the requests. -/
structure Chance where
  random : VtepFamily → MacAddr
  answers : VtepFamily → EnsureAnswers

/-- One family of `create_vxlan_device`. -/
def createFamily (k : LinkKernel) (p : DeviceParams) (f : VtepFamily) (macStr : String)
    (c : Chance) (s : Links) : Except String (Option LinkedDevice) × Links :=
  if p.enabled f then
    let (result, s) :=
      newVxlanDevice k (c.answers f) (c.random f) (p.attrs f (storedHwAddr macStr)) s
    (result.map fun d => some { d with directRouting := p.cfg.directRouting }, s)
  else (.ok none, s)

/-- `create_vxlan_device`, on the stored addresses. -/
def createVxlanDevice (k : LinkKernel) (p : DeviceParams) (stored : String × String) (c : Chance)
    (s : Links) : Except String (Option LinkedDevice × Option LinkedDevice) × Links :=
  match createFamily k p .v4 stored.1 c s with
  | (.error e, s) => (.error e, s)
  | (.ok dev, s) =>
    match createFamily k p .v6 stored.2 c s with
    | (.error e, s) => (.error e, s)
    | (.ok v6Dev, s) => (.ok (dev, v6Dev), s)

/-! ## The node -/

/-- What happens on the node.  The manager can read the node when it is asked for the stored
addresses or not, and the patch of `acquire_lease` reaches the node or not.  Others may change any
annotation that does not hold an address, and any link, except that they make none of flannel's. -/
inductive VtepAction where
  | register (p : DeviceParams) (readable : Bool) (c : Chance) (published : Bool)
  | recreate (p : DeviceParams) (readable : Bool) (c : Chance)
  | otherLinks (links : Links)
  | otherAnnotations (ann : String → Option String)

/-- The links of the node, its annotations, and the addresses of the devices that it has had. -/
structure VtepNode where
  links : Links
  ann : String → Option String
  devices : VtepFamily → List MacAddr

/-- The key with the data of a family. -/
def dataKey (a : Annotations) : VtepFamily → String
  | .v4 => a.backendData
  | .v6 => a.backendV6Data

/-- The link has the name of a device of the family. -/
def hasPrefix (f : VtepFamily) (l : LinkMessage) : Bool :=
  (devicePrefix f).toList.isPrefixOf (linkName l).toList

namespace VtepNode

/-- The device of a family. -/
def ofFamily (devs : Option LinkedDevice × Option LinkedDevice) :
    VtepFamily → Option LinkedDevice
  | .v4 => devs.1
  | .v6 => devs.2

/-- `create_vxlan_device` on the node. -/
def create (k : LinkKernel) (a : Annotations) (p : DeviceParams) (readable : Bool) (c : Chance)
    (s : VtepNode) : Option (Option LinkedDevice × Option LinkedDevice) × VtepNode :=
  let stored := getStoredMacAddresses a (if readable then some s.ann else none)
  match createVxlanDevice k p stored c s.links with
  | (.error _, links) => (none, { s with links := links })
  | (.ok devs, links) =>
    (some devs, { s with
      links := links
      devices := fun f => s.devices f ++ ((ofFamily devs f).map fun d => d.mac).toList })

/-- The annotations after `acquire_lease`. -/
def announce (json : SerdeJson) (a : Annotations) (p : DeviceParams)
    (devs : Option LinkedDevice × Option LinkedDevice) (ann : String → Option String) :
    String → Option String :=
  match newSubnetAttrs json p.extAddr p.extV6Addr p.cfg.vni
      (devs.1.map LinkedDevice.toVtepDevice) (devs.2.map LinkedDevice.toVtepDevice) with
  | .error _ => ann
  | .ok attrs =>
    builtAnnotations a attrs ann (rawToString attrs.backendData) (rawToString attrs.backendV6Data)

/-- One action. -/
def step (k : LinkKernel) (json : SerdeJson) (a : Annotations) (s : VtepNode) :
    VtepAction → Option VtepNode
  | .register p readable c published =>
    match s.create k a p readable c with
    | (none, s) => some s
    | (some devs, s) =>
      some { s with ann := if published then announce json a p devs s.ann else s.ann }
  | .recreate p readable c => some (s.create k a p readable c).2
  | .otherLinks links =>
    if links.links.all fun l =>
        !(hasPrefix .v4 l || hasPrefix .v6 l) || decide (l ∈ s.links.links) then
      some { s with links := links }
    else none
  | .otherAnnotations ann =>
    if ann a.backendData = s.ann a.backendData ∧ ann a.backendV6Data = s.ann a.backendV6Data then
      some { s with ann := ann }
    else none

end VtepNode

/-! ## What a creation leaves -/

section Create

variable {k : LinkKernel} {p : DeviceParams} {f g : VtepFamily} {macStr : String} {c : Chance}
  {s : Links} {mac : MacAddr}

theorem hasPrefix_iff {l : LinkMessage} :
    hasPrefix f l = true ↔ (devicePrefix f).toList <+: (linkName l).toList :=
  List.isPrefixOf_iff_prefix

/-- The devices of the families have different names. -/
theorem family_eq_of_hasPrefix {l : LinkMessage} {n : Nat}
    (hname : linkName l = devicePrefix g ++ toString n) (h : hasPrefix f l = true) : f = g := by
  rw [hasPrefix_iff, hname, String.toList_append] at h
  cases f <;> cases g <;> first | rfl | (exfalso; simp [devicePrefix] at h)

/-- All links of the family have this address. -/
def AllHave (f : VtepFamily) (mac : MacAddr) (s : Links) : Prop :=
  ∀ l ∈ s.links, hasPrefix f l = true → linkMac l = some mac

/-- The creation of one family.  If it is the family in question, `mac` is what a new link gets. -/
theorem createFamily_spec (hk : k.Documented) (hall : AllHave f mac s)
    (hmac : g = f → (storedHwAddr macStr).getD (newHardwareAddr (c.random g)) = mac) :
    AllHave f mac (createFamily k p g macStr c s).2 ∧
      ∀ d, (createFamily k p g macStr c s).1 = .ok (some d) → g = f → d.mac = mac := by
  unfold createFamily
  split
  · obtain ⟨hlinks, hdevice⟩ := @newVxlanDevice_spec k (p.attrs g (storedHwAddr macStr)) s hk
      (c.answers g) (c.random g)
    dsimp only
    generalize newVxlanDevice k (c.answers g) (c.random g) (p.attrs g (storedHwAddr macStr)) s =
      result at hlinks hdevice
    have hafter : AllHave f mac result.2 := by
      intro l hl hpre
      rcases hlinks l hl with hold | ⟨i, rfl⟩
      · exact hall l hold hpre
      · obtain rfl := family_eq_of_hasPrefix (linkName_create hk) hpre
        rw [linkMac_create hk]
        exact congrArg some (hmac rfl)
    refine ⟨hafter, fun d hd hfamily => ?_⟩
    obtain ⟨d', hd', heq⟩ := Results.map_ok_iff.mp hd
    obtain ⟨link, hlink, hname, -, hlinkMac⟩ := hdevice d' hd'
    subst hfamily
    have hpre : hasPrefix g link = true := by
      rw [hasPrefix_iff, hname]
      show (devicePrefix g).toList <+: (devicePrefix g ++ toString p.cfg.vni.toNat).toList
      rw [String.toList_append]
      exact List.prefix_append _ _
    cases heq
    rw [hlinkMac, hafter link hlink hpre, Option.getD_some]
  · exact ⟨hall, fun d hd => by cases hd⟩

/-- The text of a family. -/
def storedOf (stored : String × String) : VtepFamily → String
  | .v4 => stored.1
  | .v6 => stored.2

/-- **A creation**, in which `mac` is what a new link of the family gets. -/
theorem createVxlanDevice_spec (hk : k.Documented) {stored : String × String}
    (hall : AllHave f mac s)
    (hmac : (storedHwAddr (storedOf stored f)).getD (newHardwareAddr (c.random f)) = mac) :
    AllHave f mac (createVxlanDevice k p stored c s).2 ∧
      ∀ devs, (createVxlanDevice k p stored c s).1 = .ok devs →
        ∀ d, VtepNode.ofFamily devs f = some d → d.mac = mac := by
  have hmac4 : VtepFamily.v4 = f →
      (storedHwAddr stored.1).getD (newHardwareAddr (c.random .v4)) = mac := by
    rintro rfl
    exact hmac
  have hmac6 : VtepFamily.v6 = f →
      (storedHwAddr stored.2).getD (newHardwareAddr (c.random .v6)) = mac := by
    rintro rfl
    exact hmac
  obtain ⟨hall4, hdev4⟩ := @createFamily_spec k p f .v4 stored.1 c s mac hk hall hmac4
  unfold createVxlanDevice
  generalize createFamily k p .v4 stored.1 c s = first at hall4 hdev4
  obtain ⟨_ | dev, s₁⟩ := first
  · exact ⟨hall4, fun devs hdevs => by cases hdevs⟩
  · obtain ⟨hall6, hdev6⟩ := @createFamily_spec k p f .v6 stored.2 c s₁ mac hk hall4 hmac6
    dsimp only
    generalize createFamily k p .v6 stored.2 c s₁ = second at hall6 hdev6
    obtain ⟨_ | v6Dev, s₂⟩ := second
    · exact ⟨hall6, fun devs hdevs => by cases hdevs⟩
    · refine ⟨hall6, fun devs hdevs d hd => ?_⟩
      cases hdevs
      cases f with
      | v4 => exact hdev4 d (congrArg Except.ok hd) rfl
      | v6 => exact hdev6 d (congrArg Except.ok hd) rfl

end Create

/-! ## What is announced -/

section Announce

variable {json : SerdeJson} {a : Annotations} {attrs attrs' : LeaseAttrs} {vni : UInt32}
  {ann : String → Option String} {bd v6Bd : String}

theorem addIpv4Data_type {ip : Option IpAddr} {dev : Option VtepDevice}
    (h : addIpv4Data json ip vni dev attrs = .ok attrs') :
    attrs'.backendType = attrs.backendType := by
  unfold addIpv4Data at h
  split at h
  · obtain ⟨data, -, rfl⟩ := Results.map_ok_iff.mp h
    rfl
  · cases h
    rfl

theorem addIpv6Data_type {ip : Option IpAddr} {dev : Option VtepDevice}
    (hnone : attrs.backendV6Data = none) (h : addIpv6Data json ip vni dev attrs = .ok attrs') :
    attrs'.backendType = attrs.backendType ∧
      ∀ text, attrs'.backendV6Data = some text → ∃ v6, attrs'.publicIpv6 = some v6 := by
  unfold addIpv6Data at h
  split at h
  · obtain ⟨data, -, rfl⟩ := Results.map_ok_iff.mp h
    exact ⟨rfl, fun _ _ => ⟨_, rfl⟩⟩
  · cases h
    refine ⟨rfl, fun text htext => ?_⟩
    rw [hnone] at htext
    cases htext

theorem leaseText_ne (attrs : VXLANLeaseAttrs) :
    leaseText attrs ≠ "" ∧ leaseText attrs ≠ "null" := by
  constructor
  · intro h
    have hhead := congrArg (fun t : String => t.toList.head?) h
    simp [leaseText] at hhead
  · intro h
    have hhead := congrArg (fun t : String => t.toList.head?) h
    simp [leaseText] at hhead

/-- The data of IPv4 after `acquire_lease`: that of the lease, or what was there. -/
theorem built_backendData (hkeys : a.keys.Nodup) (htype : attrs.backendType = "vxlan")
    (htext : ∀ text, attrs.backendData = some text → text ≠ "" ∧ text ≠ "null") :
    builtAnnotations a attrs ann (rawToString attrs.backendData) v6Bd a.backendData =
      attrs.backendData.or (ann a.backendData) := by
  cases hdata : attrs.backendData with
  | some text =>
    obtain ⟨hne, hnull⟩ := htext text hdata
    have hpub : publishesIpv4 attrs text = true := by simp [publishesIpv4, hnull]
    exact some_of_annotation_eq (ipv4_published hkeys hpub).1 hne
  | none =>
    have hpub : publishesIpv4 attrs "null" = false := by simp [publishesIpv4, htype]
    show builtAnnotations a attrs ann "null" v6Bd a.backendData = ann a.backendData
    rw [builtAnnotations_eq_merge hkeys]
    split
    · simp only [Annotations.keys, List.nodup_cons, List.mem_cons, not_or] at hkeys
      refine mergePatch_of_none ?_
      rw [publishedPatch_of_ipv4 (by grind) (by grind) (by grind)]
      simp only [ipv4Patch, hpub, Bool.false_eq_true, if_false]
      exact singlePatch_of_ne (by grind)
    · rfl

/-- The data of IPv6, likewise. -/
theorem built_backendV6Data (hkeys : a.keys.Nodup) (htype : attrs.backendType = "vxlan")
    (htext : ∀ text, attrs.backendV6Data = some text →
      (text ≠ "" ∧ text ≠ "null") ∧ ∃ v6, attrs.publicIpv6 = some v6) :
    builtAnnotations a attrs ann bd (rawToString attrs.backendV6Data) a.backendV6Data =
      attrs.backendV6Data.or (ann a.backendV6Data) := by
  cases hdata : attrs.backendV6Data with
  | some text =>
    obtain ⟨⟨hne, hnull⟩, v6, hv6⟩ := htext text hdata
    have hpub : publishesIpv6 attrs text = true := by simp [publishesIpv6, htype, hnull]
    exact some_of_annotation_eq (ipv6_published hkeys hv6 hpub).1 hne
  | none =>
    have hpub : publishesIpv6 attrs "null" = false := by simp [publishesIpv6, htype]
    show builtAnnotations a attrs ann bd "null" a.backendV6Data = ann a.backendV6Data
    rw [builtAnnotations_eq_merge hkeys]
    split
    · simp only [Annotations.keys, List.nodup_cons, List.mem_cons, not_or] at hkeys
      refine mergePatch_of_none ?_
      unfold publishedPatch
      rw [mergePatch_of_none (singlePatch_of_ne (by grind)), mergePatch_of_none,
        mergePatch_of_none (ipv4Patch_of_ne (by grind) (by grind) attrs ann bd)]
      · exact singlePatch_of_ne (by grind)
      · simp only [ipv6Patch, hpub, Bool.false_eq_true, if_false]
    · rfl

/-- What the data of a family comes to, over what was there. -/
theorem data_or_spec {data old : Option String} {dev : Option LinkedDevice} {hasIp : Prop}
    (hdata : ∀ text, data = some text ↔ hasIp ∧
      ∃ d ∈ dev.map LinkedDevice.toVtepDevice, text = leaseText ⟨vni, macToString d.mac⟩) :
    (∀ d, dev = some d → hasIp → data.or old = some (leaseText ⟨vni, macToString d.mac⟩)) ∧
    (data.or old = old ∨
      ∃ d, dev = some d ∧ data.or old = some (leaseText ⟨vni, macToString d.mac⟩)) := by
  constructor
  · intro d hd hip
    rw [(hdata _).mpr ⟨hip, d.toVtepDevice, by simp [hd], rfl⟩]
    rfl
  · cases htext : data with
    | none => exact .inl rfl
    | some text =>
      obtain ⟨-, d, hd, rfl⟩ := (hdata text).mp htext
      obtain ⟨d', hd', rfl⟩ := Option.map_eq_some_iff.mp hd
      exact .inr ⟨d', hd', rfl⟩

/-- The external address is of the family. -/
def DeviceParams.HasAddress (p : DeviceParams) : VtepFamily → Prop
  | .v4 => ∃ ip, p.extAddr = some (.v4 ip)
  | .v6 => ∃ ip, p.extV6Addr = some (.v6 ip)

/-- **The annotation after a start** holds the address of the device, or what it held before. -/
theorem announce_spec (hkeys : a.keys.Nodup)
    (hjson : ∀ vni mac, json.Handles ⟨vni, macToString mac⟩) (p : DeviceParams)
    (devs : Option LinkedDevice × Option LinkedDevice) (f : VtepFamily) :
    (∀ d, VtepNode.ofFamily devs f = some d → p.HasAddress f →
      VtepNode.announce json a p devs ann (dataKey a f) =
        some (leaseText ⟨p.cfg.vni, macToString d.mac⟩)) ∧
    (VtepNode.announce json a p devs ann (dataKey a f) = ann (dataKey a f) ∨
      ∃ d, VtepNode.ofFamily devs f = some d ∧
        VtepNode.announce json a p devs ann (dataKey a f) =
          some (leaseText ⟨p.cfg.vni, macToString d.mac⟩)) := by
  have hfresh : ({ backendType := "vxlan" } : LeaseAttrs).backendData = none := rfl
  obtain ⟨first, hfirst, hnone, hdata4⟩ := addIpv4Data_spec p.extAddr
    (devs.1.map LinkedDevice.toVtepDevice) (fun d _ => hjson p.cfg.vni d.mac) hfresh
  obtain ⟨attrs, hattrs, hkept, hdata6⟩ := addIpv6Data_spec p.extV6Addr
    (devs.2.map LinkedDevice.toVtepDevice) (fun d _ => hjson p.cfg.vni d.mac) hnone
  rw [← hkept] at hdata4
  obtain ⟨htype, hv6⟩ := addIpv6Data_type hnone hattrs
  rw [addIpv4Data_type hfirst] at htype
  have hok : newSubnetAttrs json p.extAddr p.extV6Addr p.cfg.vni
      (devs.1.map LinkedDevice.toVtepDevice) (devs.2.map LinkedDevice.toVtepDevice) = .ok attrs :=
    Results.bind_ok_iff.mpr ⟨first, hfirst, hattrs⟩
  simp only [VtepNode.announce, hok]
  cases f with
  | v4 =>
    have hbuilt := @built_backendData a attrs ann (rawToString attrs.backendV6Data) hkeys htype
      (fun text htext => by
        obtain ⟨-, d, -, rfl⟩ := (hdata4 text).mp htext
        exact leaseText_ne _)
    simp only [dataKey]
    rw [hbuilt]
    exact data_or_spec hdata4
  | v6 =>
    have hbuilt := @built_backendV6Data a attrs ann (rawToString attrs.backendData) hkeys htype
      (fun text htext => by
        refine ⟨?_, hv6 text htext⟩
        obtain ⟨-, d, -, rfl⟩ := (hdata6 text).mp htext
        exact leaseText_ne _)
    simp only [dataKey]
    rw [hbuilt]
    exact data_or_spec hdata6

end Announce

/-! ## The address of a node -/

namespace VtepNode

variable {k : LinkKernel} {json : SerdeJson} {a : Annotations} {p : DeviceParams} {f : VtepFamily}
  {c : Chance} {readable : Bool} {mac : MacAddr} {s t : VtepNode} {act : VtepAction}

/-- The address that a new link of a family gets. -/
def nextMac (a : Annotations) (ann : Option (String → Option String)) (c : Chance)
    (f : VtepFamily) : MacAddr :=
  (storedHwAddr (storedOf (getStoredMacAddresses a ann) f)).getD (newHardwareAddr (c.random f))

theorem nextMac_of_stored {ann : String → Option String}
    (h : storedHwAddr (extractMac (ann (dataKey a f))) = some mac) :
    nextMac a (some ann) c f = mac := by
  have hof : storedOf (getStoredMacAddresses a (some ann)) f = extractMac (ann (dataKey a f)) := by
    cases f with
    | v4 => rfl
    | v6 => rfl
  rw [nextMac, hof, h, Option.getD_some]

/-- **A creation on the node**, with links that have the address already. -/
theorem create_spec (hk : k.Documented) (hall : AllHave f mac s.links)
    (hmac : nextMac a (if readable then some s.ann else none) c f = mac) :
    AllHave f mac (s.create k a p readable c).2.links ∧
      (s.create k a p readable c).2.ann = s.ann ∧
      (∀ devs, (s.create k a p readable c).1 = some devs →
        ∀ d, ofFamily devs f = some d → d.mac = mac) ∧
      (s.create k a p readable c).2.devices f = s.devices f ++
        (((s.create k a p readable c).1.bind fun devs => ofFamily devs f).map
          fun d => d.mac).toList := by
  obtain ⟨hlinks, hdevs⟩ := @createVxlanDevice_spec k p f c s.links mac hk _ hall hmac
  unfold create
  dsimp only
  generalize createVxlanDevice k p
    (getStoredMacAddresses a (if readable then some s.ann else none)) c s.links = result
    at hlinks hdevs
  obtain ⟨_ | devs, links⟩ := result
  · refine ⟨hlinks, rfl, ?_, (List.append_nil _).symm⟩
    intro devs hd
    cases hd
  · refine ⟨hlinks, rfl, fun devs' hd => ?_, rfl⟩
    cases hd
    exact hdevs devs rfl

/-- Link, annotation and devices agree on the address of the family. -/
structure Known (a : Annotations) (f : VtepFamily) (mac : MacAddr) (s : VtepNode) : Prop where
  stored : storedHwAddr (extractMac (s.ann (dataKey a f))) = some mac
  links : AllHave f mac s.links
  devices : ∀ m ∈ s.devices f, m = mac

/-- The address is read back from the text that was announced. -/
theorem storedHwAddr_leaseText (hjson : ∀ vni mac, json.Handles ⟨vni, macToString mac⟩)
    (vni : UInt32) (mac : MacAddr) :
    storedHwAddr (extractMac (some (leaseText ⟨vni, macToString mac⟩))) = some mac :=
  (roundTrips_leaseText (hjson vni mac)).storedHwAddr_eq

/-- A creation on a node whose address is known, if the annotation can be read. -/
theorem Known.create (hk : k.Documented) (h : Known a f mac s) :
    Known a f mac (s.create k a p true c).2 ∧
      ∀ devs, (s.create k a p true c).1 = some devs →
        ∀ d, ofFamily devs f = some d → d.mac = mac := by
  obtain ⟨hlinks, hann, hdevs, hlog⟩ :=
    @create_spec k a p f c true mac s hk h.links (nextMac_of_stored h.stored)
  refine ⟨⟨?_, hlinks, fun m hm => ?_⟩, hdevs⟩
  · rw [hann]
    exact h.stored
  · rw [hlog] at hm
    rcases List.mem_append.mp hm with hm | hm
    · exact h.devices m hm
    · rw [Option.mem_toList, Option.map_eq_some_iff] at hm
      obtain ⟨d, hd, rfl⟩ := hm
      obtain ⟨devs, hdevs', hof⟩ := Option.bind_eq_some_iff.mp hd
      exact hdevs devs hdevs' d hof

/-- The annotation can be read when it is asked for. -/
def Reads : VtepAction → Prop
  | .register _ readable _ _ | .recreate _ readable _ => readable = true
  | .otherLinks _ | .otherAnnotations _ => True

theorem Known.step (hk : k.Documented) (hkeys : a.keys.Nodup)
    (hjson : ∀ vni mac, json.Handles ⟨vni, macToString mac⟩) (h : Known a f mac s)
    (hact : Reads act) (hst : VtepNode.step k json a s act = some t) : Known a f mac t := by
  cases act with
  | register p readable c published =>
    obtain rfl : readable = true := hact
    obtain ⟨hcreated, hdevs⟩ := @Known.create k a p f c mac s hk h
    simp only [VtepNode.step] at hst
    generalize s.create k a p true c = result at hst hcreated hdevs
    obtain ⟨_ | devs, u⟩ := result
    · cases hst
      exact hcreated
    · cases hst
      refine ⟨?_, hcreated.links, hcreated.devices⟩
      dsimp only
      split
      · rcases (@announce_spec json a u.ann hkeys hjson p devs f).2 with hsame | ⟨d, hd, hnew⟩
        · rw [hsame]
          exact hcreated.stored
        · rw [hnew, storedHwAddr_leaseText hjson, hdevs devs rfl d hd]
      · exact hcreated.stored
  | recreate p readable c =>
    obtain rfl : readable = true := hact
    cases hst
    exact (Known.create hk h).1
  | otherLinks links =>
    simp only [VtepNode.step] at hst
    split at hst
    · rename_i hothers
      cases hst
      refine ⟨h.stored, fun l hl hpre => ?_, h.devices⟩
      have hold := List.all_eq_true.mp hothers l hl
      have hmem : l ∈ s.links.links := by
        cases f with
        | v4 => simpa [hpre] using hold
        | v6 => simpa [hpre] using hold
      exact h.links l hmem hpre
    · cases hst
  | otherAnnotations ann =>
    simp only [VtepNode.step] at hst
    split at hst
    · rename_i hsame
      cases hst
      have hkey : ann (dataKey a f) = s.ann (dataKey a f) := by
        cases f with
        | v4 => exact hsame.1
        | v6 => exact hsame.2
      refine ⟨?_, h.links, h.devices⟩
      show storedHwAddr (extractMac (ann (dataKey a f))) = some mac
      rw [hkey]
      exact h.stored
    · cases hst

/-- **A node keeps the address of its tunnel.**  A start finds no device of the family, makes one
and announces it.  Let then anything follow: starts that succeed or fail at any request, with any
settings (another identifier gives the device another name, another port has it replaced),
recreations, links that others delete, and any change of the other annotations; only the node can
be read whenever the stored addresses are asked for.  Then every device that the node has had, each
of its links of the family and the announced address have one and the same address, the one of the
annotation if the first start found any there and else a random one. -/
theorem vtep_address_is_kept (hk : k.Documented) (hkeys : a.keys.Nodup)
    (hjson : ∀ vni mac, json.Handles ⟨vni, macToString mac⟩) {s₁ : VtepNode}
    (hfresh : ∀ l ∈ s.links.links, hasPrefix f l = false) (hnone : s.devices f = [])
    (haddr : p.HasAddress f)
    (hfirst : step k json a s (.register p readable c true) = some s₁) (hmade : s₁.devices f ≠ [])
    (as : List VtepAction) (hreads : ∀ act ∈ as, Reads act)
    (hrun : run (step k json a) s₁ as = some t) :
    let mac := nextMac a (if readable then some s.ann else none) c f
    (∀ m ∈ t.devices f, m = mac) ∧
      (∀ l ∈ t.links.links, hasPrefix f l = true → linkMac l = some mac) ∧
      storedHwAddr (extractMac (t.ann (dataKey a f))) = some mac := by
  have hvacuous : AllHave f (nextMac a (if readable then some s.ann else none) c f) s.links := by
    intro l hl hpre
    rw [hfresh l hl] at hpre
    cases hpre
  obtain ⟨hlinks, -, hdevs, hlog⟩ := @create_spec k a p f c readable _ s hk hvacuous rfl
  have hknown : Known a f (nextMac a (if readable then some s.ann else none) c f) s₁ := by
    simp only [step] at hfirst
    generalize s.create k a p readable c = result at hfirst hlinks hdevs hlog
    obtain ⟨_ | devs, u⟩ := result
    · cases hfirst
      exact absurd (hlog.trans (by rw [hnone]; rfl)) hmade
    · cases hfirst
      change u.devices f ≠ [] at hmade
      rw [hlog, hnone] at hmade
      obtain ⟨d, hd⟩ : ∃ d, ofFamily devs f = some d := by
        cases hof : ofFamily devs f with
        | none =>
          rw [Option.bind_some, hof] at hmade
          exact absurd rfl hmade
        | some d => exact ⟨d, rfl⟩
      refine ⟨?_, hlinks, fun m hm => ?_⟩
      · have hannounced := (@announce_spec json a u.ann hkeys hjson p devs f).1 d hd haddr
        show storedHwAddr (extractMac (announce json a p devs u.ann (dataKey a f))) = _
        rw [hannounced, storedHwAddr_leaseText hjson, hdevs devs rfl d hd]
      · change m ∈ u.devices f at hm
        rw [hlog, hnone, Option.bind_some, hd] at hm
        rw [List.mem_singleton.mp hm]
        exact hdevs devs rfl d hd
  have hlast : Known a f (nextMac a (if readable then some s.ann else none) c f) t :=
    run_invariant (Q := fun _ act => Reads act)
      (fun u act v hu hact hst => Known.step hk hkeys hjson hu hact hst) hknown
      (along_of_forall hreads) hrun
  exact ⟨hlast.devices, hlast.links, hlast.stored⟩

/-- A library for the data of all devices. -/
def leaseJson : SerdeJson where
  toString attrs := .ok (leaseText attrs)
  rawFromString := .ok
  decode text :=
    let digits := (text.toList.drop 7).takeWhile fun c => (StdAddr.toDigit 10 c).isSome
    some (StdAddr.digitsValue 10 digits, some (extractMac (some text)))

theorem leaseJson_handles (vni : UInt32) (mac : MacAddr) :
    leaseJson.Handles ⟨vni, macToString mac⟩ := by
  refine ⟨rfl, rfl, ?_⟩
  have hdigits : ∀ c ∈ Nat.toDigits 10 vni.toNat, (StdAddr.toDigit 10 c).isSome = true :=
    fun c hc => StdAddr.isSome_toDigit_of_mem (by omega) (by omega) hc
  have hdrop : (leaseText ⟨vni, macToString mac⟩).toList.drop 7 = Nat.toDigits 10 vni.toNat ++
      ',' :: (vtepMacKey.tail ++ ':' :: '"' :: (macToString mac).toList ++ ['"', '\x7d']) := by
    rw [toList_leaseText]
    simp [leaseFront, vniKey, vtepMacKey]
  have htake : ((leaseText ⟨vni, macToString mac⟩).toList.drop 7).takeWhile
      (fun c => (StdAddr.toDigit 10 c).isSome) = Nat.toDigits 10 vni.toNat := by
    rw [hdrop, List.takeWhile_append_of_pos hdigits, List.takeWhile_cons_of_neg (by decide),
      List.append_nil]
  simp only [leaseJson]
  rw [htake, StdAddr.digitsValue_toDigits (by omega) (by omega), extractMac_leaseText]

/-- A node with IPv4 only. -/
def v4Params : DeviceParams where
  enableIpv4 := true
  enableIpv6 := false
  cfg := ⟨1, 0, 1500, false, false, false⟩
  extIfaceIndex := 2
  extAddr := some (.v4 ⟨0xc0a80001⟩)
  extV6Addr := none

/-- Random bytes, and nothing fails. -/
def luck (random : MacAddr) : Chance := ⟨fun _ => random, fun _ => {}⟩

/-- A node without devices and without annotations. -/
def bareNode : VtepNode := ⟨⟨[], 3⟩, fun _ => none, fun _ => []⟩

/-- The same after its first start. -/
def startedNode : VtepNode :=
  (step plainKernel leaseJson (annotationsWith "flannel.alpha.coreos.com/") bareNode
    (.register v4Params true (luck sampleDevice.mac) true)).getD bareNode

/-- The device is deleted and made again: it has the address it had, not the random one. -/
theorem recreated_vtep_keeps_address :
    ∃ t, run (step plainKernel leaseJson (annotationsWith "flannel.alpha.coreos.com/")) startedNode
        [.otherLinks ⟨[], 9⟩, .recreate v4Params true (luck sampleV6Device.mac)] = some t ∧
      (t.devices .v4).length = 2 ∧ ∀ m ∈ t.devices .v4, m = newHardwareAddr sampleDevice.mac := by
  refine ⟨_, rfl, by decide, ?_⟩
  have hfirst : step plainKernel leaseJson (annotationsWith "flannel.alpha.coreos.com/") bareNode
      (.register v4Params true (luck sampleDevice.mac) true) = some startedNode := rfl
  obtain ⟨hdevices, -⟩ := @vtep_address_is_kept plainKernel leaseJson _ v4Params .v4 _ true
    bareNode _ plainKernel_documented (annotationsWith_keys_nodup _) leaseJson_handles startedNode
    (fun l hl => by cases hl) rfl ⟨_, rfl⟩ hfirst (by decide)
    [.otherLinks ⟨[], 9⟩, .recreate v4Params true (luck sampleV6Device.mac)] (by simp [Reads]) rfl
  exact hdevices

end VtepNode

end Vxlan

end Flannel
