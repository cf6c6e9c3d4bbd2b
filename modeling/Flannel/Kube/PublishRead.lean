import Flannel.Ip.Display
import Flannel.Kube.NodeView
import Flannel.Kube.Publish

/-!
# What is published is what the other nodes read

`maybe_patch_annotations` writes the attributes of the own lease, `node_to_lease` reads
them on every other node.  The writer has a test whether to write at all, guards for each
backend and an override for each family; the reader has none of these.

They agree because of what the annotations *read as* after the call
(`builtAnnotations`), whether a patch was sent or not: a call that sends nothing has
found every value in place, and its test covers the override.  This is one lemma per
family (`ipv4_published`, `ipv6_published`), and the reader is then evaluated on it.

`RawValue::from_string` is outside the repository.  What is used about it is that it
keeps the text of a raw value and of `null`, and refuses the empty text (`KeepsRaw`).
-/

namespace Flannel

open Results

/-! ## What the annotations read as -/

theorem annotation_of_some {ann : String → Option String} {key value : String}
    (h : ann key = some value) : annotationOf ann key = value := by
  unfold annotationOf
  rw [h, Option.getD_some]

theorem familyPatch_publicIp (keys : FamilyKeys) (ann : String → Option String)
    (data publicIp : String) :
    familyPatch keys ann data publicIp keys.publicIp = some (publishedIp keys ann publicIp) :=
  mergePatch_of_some (if_pos rfl)

theorem familyPatch_data {keys : FamilyKeys} (h : keys.data ≠ keys.publicIp)
    (ann : String → Option String) (data publicIp : String) :
    familyPatch keys ann data publicIp keys.data = some data := by
  unfold familyPatch
  rw [mergePatch_of_none (singlePatch_of_ne h)]
  exact if_pos rfl

/-- A family in which nothing changed reads as published. -/
theorem published_of_unchanged {a : Annotations} {keys : FamilyKeys} {ann : String → Option String}
    {backendType data publicIp : String}
    (h : familyChanged a keys ann backendType data publicIp = false) :
    annotationOf ann a.backendType = backendType ∧ annotationOf ann keys.data = data ∧
      annotationOf ann keys.publicIp = publishedIp keys ann publicIp := by
  simp only [familyChanged, Bool.or_eq_false_iff, bne_eq_false_iff_eq, Bool.and_eq_false_imp,
    bne_iff_ne] at h
  obtain ⟨⟨⟨⟨hdata, htype⟩, hip⟩, -⟩, hover⟩ := h
  refine ⟨htype, hdata, ?_⟩
  unfold publishedIp
  split
  · rename_i ho
    rw [hip, hover ho]
  · exact hip

theorem publishedIp_of_empty {keys : FamilyKeys} {ann : String → Option String}
    (h : annotationOf ann keys.overwrite = "") (publicIp : String) :
    publishedIp keys ann publicIp = publicIp :=
  if_neg (not_not.mpr h)

theorem publishedIp_of_override {keys : FamilyKeys} {ann : String → Option String}
    (h : annotationOf ann keys.overwrite ≠ "") (publicIp : String) :
    publishedIp keys ann publicIp = annotationOf ann keys.overwrite :=
  if_pos h

section Published

variable {a : Annotations} {attrs : LeaseAttrs} {ann : String → Option String} {bd v6Bd : String}

/-- A call that finds nothing to do leaves the node alone, with both families in place. -/
theorem built_of_unneeded (h : needsPatch a attrs ann bd v6Bd = false) :
    builtAnnotations a attrs ann bd v6Bd = ann ∧
      familyChanged a a.ipv4Keys ann attrs.backendType bd attrs.publicIp.toString = false ∧
      ∀ v6, attrs.publicIpv6 = some v6 →
        familyChanged a a.ipv6Keys ann attrs.backendType v6Bd v6.toString = false := by
  have hbuilt : builtAnnotations a attrs ann bd v6Bd = ann := by simp [builtAnnotations, h]
  rw [needsPatch, Bool.or_eq_false_iff] at h
  refine ⟨hbuilt, h.1, ?_⟩
  intro v6 hv6
  simpa only [hv6] using h.2

/-- A call that does something leaves what it publishes. -/
theorem built_of_needed (hkeys : a.keys.Nodup) (h : needsPatch a attrs ann bd v6Bd = true)
    {key value : String} (hvalue : publishedPatch a attrs ann bd v6Bd key = some value) :
    annotationOf (builtAnnotations a attrs ann bd v6Bd) key = value := by
  rw [builtAnnotations_eq_merge hkeys, h, if_pos rfl]
  exact annotation_of_some (mergePatch_of_some hvalue)

/-- Whatever the families publish, the backend type and what IPv4 publishes stand. -/
theorem publishedPatch_of_ipv4 {key : String} (hmanaged : key ≠ a.subnetKubeManaged)
    (hip : key ≠ a.backendPublicIpv6) (hdata : key ≠ a.backendV6Data) :
    publishedPatch a attrs ann bd v6Bd key =
      mergePatch (ipv4Patch a attrs ann bd) (singlePatch a.backendType attrs.backendType) key := by
  unfold publishedPatch
  rw [mergePatch_of_none (singlePatch_of_ne hmanaged),
    mergePatch_of_none (ipv6Patch_of_ne hip hdata attrs ann v6Bd)]

theorem type_published (hkeys : a.keys.Nodup) :
    annotationOf (builtAnnotations a attrs ann bd v6Bd) a.backendType = attrs.backendType := by
  cases hneeds : needsPatch a attrs ann bd v6Bd with
  | false =>
    obtain ⟨hbuilt, h4, -⟩ := built_of_unneeded hneeds
    rw [hbuilt]
    exact (published_of_unchanged h4).1
  | true =>
    refine built_of_needed hkeys hneeds ?_
    simp only [Annotations.keys, List.nodup_cons, List.mem_cons, not_or] at hkeys
    rw [publishedPatch_of_ipv4 (by grind) (by grind) (by grind),
      mergePatch_of_none (ipv4Patch_of_ne (by grind) (by grind) attrs ann bd)]
    exact if_pos rfl

/-- **What IPv4 publishes.** -/
theorem ipv4_published (hkeys : a.keys.Nodup) (hpub : publishesIpv4 attrs bd = true) :
    annotationOf (builtAnnotations a attrs ann bd v6Bd) a.backendData = bd ∧
      annotationOf (builtAnnotations a attrs ann bd v6Bd) a.backendPublicIp =
        publishedIp a.ipv4Keys ann attrs.publicIp.toString := by
  cases hneeds : needsPatch a attrs ann bd v6Bd with
  | false =>
    obtain ⟨hbuilt, h4, -⟩ := built_of_unneeded hneeds
    rw [hbuilt]
    exact (published_of_unchanged h4).2
  | true =>
    have hpatch : ipv4Patch a attrs ann bd =
        familyPatch a.ipv4Keys ann bd attrs.publicIp.toString := by simp [ipv4Patch, hpub]
    have hdistinct := hkeys
    simp only [Annotations.keys, List.nodup_cons, List.mem_cons, not_or] at hdistinct
    constructor
    · refine built_of_needed hkeys hneeds ?_
      rw [publishedPatch_of_ipv4 (by grind) (by grind) (by grind), hpatch]
      exact mergePatch_of_some (@familyPatch_data a.ipv4Keys
        (by simp only [Annotations.ipv4Keys]; grind) ann bd _)
    · refine built_of_needed hkeys hneeds ?_
      rw [publishedPatch_of_ipv4 (by grind) (by grind) (by grind), hpatch]
      exact mergePatch_of_some (familyPatch_publicIp a.ipv4Keys ann bd _)

/-- **What IPv6 publishes.** -/
theorem ipv6_published (hkeys : a.keys.Nodup) {v6 : IP6} (hv6 : attrs.publicIpv6 = some v6)
    (hpub : publishesIpv6 attrs v6Bd = true) :
    annotationOf (builtAnnotations a attrs ann bd v6Bd) a.backendV6Data = v6Bd ∧
      annotationOf (builtAnnotations a attrs ann bd v6Bd) a.backendPublicIpv6 =
        publishedIp a.ipv6Keys ann v6.toString := by
  cases hneeds : needsPatch a attrs ann bd v6Bd with
  | false =>
    obtain ⟨hbuilt, -, h6⟩ := built_of_unneeded hneeds
    rw [hbuilt]
    exact (published_of_unchanged (h6 v6 hv6)).2
  | true =>
    have hpatch : ipv6Patch a attrs ann v6Bd = familyPatch a.ipv6Keys ann v6Bd v6.toString := by
      simp [ipv6Patch, hpub, hv6]
    have hdistinct := hkeys
    simp only [Annotations.keys, List.nodup_cons, List.mem_cons, not_or] at hdistinct
    have hstands : ∀ key value, key ≠ a.subnetKubeManaged →
        familyPatch a.ipv6Keys ann v6Bd v6.toString key = some value →
        publishedPatch a attrs ann bd v6Bd key = some value := by
      intro key value hmanaged hvalue
      unfold publishedPatch
      rw [mergePatch_of_none (singlePatch_of_ne hmanaged), hpatch]
      exact mergePatch_of_some hvalue
    constructor
    · exact built_of_needed hkeys hneeds (hstands _ _ (by grind) (@familyPatch_data a.ipv6Keys
        (by simp only [Annotations.ipv6Keys]; grind) ann v6Bd _))
    · exact built_of_needed hkeys hneeds
        (hstands _ _ (by grind) (familyPatch_publicIp a.ipv6Keys ann v6Bd _))

end Published

/-! ## What the reader makes of it -/

/-- The node after `maybe_patch_annotations`: the patch, if one was sent, is merged into its
annotations. -/
def publishedNode (a : Annotations) (attrs : LeaseAttrs) (node : Node) : Node :=
  let ann := node.metadata.annotations
  { node with
    metadata := { node.metadata with
      annotations := mergePatch (sentPatch a attrs ann (rawToString attrs.backendData)
        (rawToString attrs.backendV6Data)) ann } }

/-- What is used of `RawValue::from_string`, for attributes with the given raw data: it keeps
the text of a raw value and of `null`, and the empty text is no value. -/
structure KeepsRaw (env : EventEnv) (data : Option String) : Prop where
  empty : env.rawFromString "" = none
  null : env.rawFromString "null" = some "null"
  text : ∀ t, data = some t → env.rawFromString t = some t

theorem KeepsRaw.rawToString {env : EventEnv} {data : Option String} (h : KeepsRaw env data) :
    env.rawFromString (rawToString data) = some (rawToString data) := by
  unfold Flannel.rawToString
  cases hd : data with
  | none => exact h.null
  | some t => exact h.text t hd

section Reader

variable {env : EventEnv} {attrs : LeaseAttrs} {node : Node}

theorem publishedNode_annotations (a : Annotations) :
    (publishedNode a attrs node).metadata.annotations =
      builtAnnotations a attrs node.metadata.annotations (rawToString attrs.backendData)
        (rawToString attrs.backendV6Data) :=
  mergePatch_sentPatch a attrs node.metadata.annotations _ _

theorem addIpv4_ok_iff (l : Lease) :
    (∃ l', addIpv4 env node l = .ok l') ↔
      (∃ ip, IP4.fromStr (annotationOf node.metadata.annotations env.annotations.backendPublicIp) =
        .ok ip) ∧ ∃ c, ipv4Cidr node = .ok (some c) := by
  simp only [addIpv4_eq_ok]
  constructor
  · rintro ⟨l', ip, c, hip, hc, -⟩
    exact ⟨⟨ip, hip⟩, c, hc⟩
  · rintro ⟨⟨ip, hip⟩, c, hc⟩
    exact ⟨_, ip, c, hip, hc, rfl⟩

theorem addIpv6_ok_iff (l : Lease) :
    (∃ l', addIpv6 env node l = .ok l') ↔
      (∃ ip, IP6.fromStr
        (annotationOf node.metadata.annotations env.annotations.backendPublicIpv6) = .ok ip) ∧
        ∃ c, ipv6Cidr node = .ok (some c) := by
  simp only [addIpv6_eq_ok]
  constructor
  · rintro ⟨l', ip, c, hip, hc, -⟩
    exact ⟨⟨ip, hip⟩, c, hc⟩
  · rintro ⟨⟨ip, hip⟩, c, hc⟩
    exact ⟨_, ip, c, hip, hc, rfl⟩

theorem whenEnabled_ok_iff {enabled : Bool} {part : Lease → Except NodeLeaseError Lease}
    (l : Lease) :
    (∃ l', whenEnabled enabled part l = .ok l') ↔ (enabled = true → ∃ l', part l = .ok l') := by
  cases enabled with
  | true => simp [whenEnabled]
  | false => simp [whenEnabled]

/-- `node_to_lease` succeeds when the part of every enabled family does. -/
theorem nodeToLease_ok_iff :
    (∃ l, nodeToLease env node = .ok l) ↔
      (env.enableIpv4 = true → ∃ l, addIpv4 env node blankLease = .ok l) ∧
        (env.enableIpv6 = true → ∃ l, addIpv6 env node blankLease = .ok l) := by
  rw [← whenEnabled_ok_iff]
  simp only [nodeToLease, bind_ok_iff]
  constructor
  · rintro ⟨l, l₁, h₁, l₂, h₂, -⟩
    refine ⟨⟨l₁, h₁⟩, fun h6 => ?_⟩
    have hpart := (whenEnabled_ok_iff l₁).mp ⟨l₂, h₂⟩ h6
    rw [addIpv6_ok_iff] at hpart ⊢
    exact hpart
  · rintro ⟨⟨l₁, h₁⟩, h6⟩
    have hpart : env.enableIpv6 = true → ∃ l₂, addIpv6 env node l₁ = .ok l₂ := by
      intro he
      have hblank := h6 he
      rw [addIpv6_ok_iff] at hblank ⊢
      exact hblank
    obtain ⟨l₂, h₂⟩ := (whenEnabled_ok_iff l₁).mpr hpart
    exact ⟨_, l₁, h₁, l₂, h₂, rfl⟩

/-- What a converted node's lease takes from the annotations. -/
theorem nodeToLease_attrs {l : Lease} (h : nodeToLease env node = .ok l) :
    l.attrs.backendType = annotationOf node.metadata.annotations env.annotations.backendType ∧
      (env.enableIpv4 = true →
        IP4.fromStr (annotationOf node.metadata.annotations env.annotations.backendPublicIp) =
            .ok l.attrs.publicIp ∧
          l.attrs.backendData = rawFromAnnotation env node.metadata.annotations
            env.annotations.backendData) ∧
      (env.enableIpv6 = true →
        (∃ ip, l.attrs.publicIpv6 = some ip ∧ IP6.fromStr
            (annotationOf node.metadata.annotations env.annotations.backendPublicIpv6) = .ok ip) ∧
          l.attrs.backendV6Data = rawFromAnnotation env node.metadata.annotations
            env.annotations.backendV6Data) := by
  simp only [nodeToLease, bind_ok_iff, whenEnabled_eq_ok, addIpv4_eq_ok, addIpv6_eq_ok] at h
  obtain ⟨l₁, h₁, l₂, h₂, h⟩ := h
  have hl := (Except.ok.inj h).symm
  subst hl
  rcases h₁ with ⟨h4, ip, c, hip, -, rfl⟩ | ⟨h4, rfl⟩ <;>
    rcases h₂ with ⟨h6, ip', c', hip', -, rfl⟩ | ⟨h6, rfl⟩ <;>
      simp_all

/-- What IPv4 published is what the reader takes for IPv4. -/
theorem ipv4_reads_back (hkeys : env.annotations.keys.Nodup)
    (hraw : KeepsRaw env attrs.backendData) (h4 : env.enableIpv4 = true)
    (hpub : publishesIpv4 attrs (rawToString attrs.backendData) = true) {l : Lease}
    (hl : nodeToLease env (publishedNode env.annotations attrs node) = .ok l) :
    l.attrs.backendData = some (rawToString attrs.backendData) ∧
      IP4.fromStr (publishedIp env.annotations.ipv4Keys node.metadata.annotations
        attrs.publicIp.toString) = .ok l.attrs.publicIp := by
  obtain ⟨hdata, hip⟩ := @ipv4_published env.annotations attrs node.metadata.annotations _
    (rawToString attrs.backendV6Data) hkeys hpub
  rw [← publishedNode_annotations] at hdata hip
  obtain ⟨-, hread, -⟩ := nodeToLease_attrs hl
  obtain ⟨hread, hdataRead⟩ := hread h4
  rw [hip] at hread
  refine ⟨?_, hread⟩
  rw [hdataRead, rawFromAnnotation_eq hraw.empty, hdata]
  exact hraw.rawToString

/-- What IPv6 published is what the reader takes for IPv6. -/
theorem ipv6_reads_back (hkeys : env.annotations.keys.Nodup)
    (hraw : KeepsRaw env attrs.backendV6Data) (h6 : env.enableIpv6 = true) {v6 : IP6}
    (hv6 : attrs.publicIpv6 = some v6)
    (hpub : publishesIpv6 attrs (rawToString attrs.backendV6Data) = true) {l : Lease}
    (hl : nodeToLease env (publishedNode env.annotations attrs node) = .ok l) :
    l.attrs.backendV6Data = some (rawToString attrs.backendV6Data) ∧
      ∃ ip, l.attrs.publicIpv6 = some ip ∧
        IP6.fromStr (publishedIp env.annotations.ipv6Keys node.metadata.annotations v6.toString) =
          .ok ip := by
  obtain ⟨hdata, hip⟩ := @ipv6_published env.annotations attrs node.metadata.annotations
    (rawToString attrs.backendData) _ hkeys v6 hv6 hpub
  rw [← publishedNode_annotations] at hdata hip
  obtain ⟨-, -, hread⟩ := nodeToLease_attrs hl
  obtain ⟨hread, hdataRead⟩ := hread h6
  rw [hip] at hread
  refine ⟨?_, hread⟩
  rw [hdataRead, rawFromAnnotation_eq hraw.empty, hdata]
  exact hraw.rawToString

/-- **What is published reads back.**  Let the pod CIDRs of a node be accepted, and let
`node'` be the node after `maybe_patch_annotations`.

IPv4: unless the backend is vxlan without data, the IPv4 part of `node_to_lease` on `node'`
succeeds exactly when the published address parses, and the lease has the backend type, the
data (`null` when absent) and the public address of the attributes, or the override when
there is one.

IPv6: the same for attributes with an IPv6 address, for vxlan and wireguard with IPv6 data,
and for host-gw and extension.

Together the parts of the enabled families decide whether there is a lease. -/
theorem published_reads_back (hkeys : env.annotations.keys.Nodup)
    (hraw4 : KeepsRaw env attrs.backendData) (hraw6 : KeepsRaw env attrs.backendV6Data)
    (hcidr4 : env.enableIpv4 = true → ∃ c, ipv4Cidr node = .ok (some c))
    (hcidr6 : env.enableIpv6 = true → ∃ c, ipv6Cidr node = .ok (some c)) :
    let a := env.annotations
    let ann := node.metadata.annotations
    let node' := publishedNode a attrs node
    (env.enableIpv4 = true →
      (attrs.backendType ≠ "vxlan" ∨ ∃ t, attrs.backendData = some t ∧ t ≠ "null") →
      ((∃ l, addIpv4 env node' blankLease = .ok l) ↔
          ∃ ip, IP4.fromStr (publishedIp a.ipv4Keys ann attrs.publicIp.toString) = .ok ip) ∧
        ∀ l, nodeToLease env node' = .ok l →
          l.attrs.backendType = attrs.backendType ∧
          l.attrs.backendData = some (rawToString attrs.backendData) ∧
          if annotationOf ann a.backendPublicIpOverwrite = "" then
            l.attrs.publicIp = attrs.publicIp
          else
            IP4.fromStr (annotationOf ann a.backendPublicIpOverwrite) = .ok l.attrs.publicIp) ∧
    (env.enableIpv6 = true → ∀ v6, attrs.publicIpv6 = some v6 →
      ((attrs.backendType = "vxlan" ∨ attrs.backendType = "wireguard") ∧
          (∃ t, attrs.backendV6Data = some t ∧ t ≠ "null") ∨
        attrs.backendType = "host-gw" ∨ attrs.backendType = "extension") →
      ((∃ l, addIpv6 env node' blankLease = .ok l) ↔
          ∃ ip, IP6.fromStr (publishedIp a.ipv6Keys ann v6.toString) = .ok ip) ∧
        ∀ l, nodeToLease env node' = .ok l →
          l.attrs.backendType = attrs.backendType ∧
          l.attrs.backendV6Data = some (rawToString attrs.backendV6Data) ∧
          if annotationOf ann a.backendPublicIpv6Overwrite = "" then
            l.attrs.publicIpv6 = some v6
          else
            ∃ ip, IP6.fromStr (annotationOf ann a.backendPublicIpv6Overwrite) = .ok ip ∧
              l.attrs.publicIpv6 = some ip) ∧
    ((∃ l, nodeToLease env node' = .ok l) ↔
      (env.enableIpv4 = true → ∃ l, addIpv4 env node' blankLease = .ok l) ∧
        (env.enableIpv6 = true → ∃ l, addIpv6 env node' blankLease = .ok l)) := by
  intro a ann node'
  have hann := @publishedNode_annotations attrs node a
  have htype : ∀ l, nodeToLease env node' = .ok l → l.attrs.backendType = attrs.backendType := by
    intro l hl
    rw [(nodeToLease_attrs hl).1, hann]
    exact type_published hkeys
  have hnull : ∀ {data : Option String}, (∃ t, data = some t ∧ t ≠ "null") →
      rawToString data ≠ "null" := by
    rintro data ⟨t, rfl, ht⟩
    exact ht
  refine ⟨fun h4 hpub => ?_, fun h6 v6 hv6 hpub => ?_, nodeToLease_ok_iff⟩
  · have hpub4 : publishesIpv4 attrs (rawToString attrs.backendData) = true := by
      rcases hpub with hpub | hpub
      · simp [publishesIpv4, hpub]
      · simp [publishesIpv4, hnull hpub]
    refine ⟨?_, fun l hl => ?_⟩
    · rw [addIpv4_ok_iff, hann, (ipv4_published hkeys hpub4).2]
      exact and_iff_left (hcidr4 h4)
    · obtain ⟨hdata, hip⟩ := ipv4_reads_back hkeys hraw4 h4 hpub4 hl
      refine ⟨htype l hl, hdata, ?_⟩
      split
      · rename_i ho
        rw [@publishedIp_of_empty a.ipv4Keys ann ho, IP4.fromStr_toString] at hip
        exact (Except.ok.inj hip).symm
      · rename_i ho
        rwa [@publishedIp_of_override a.ipv4Keys ann ho] at hip
  · have hpub6 : publishesIpv6 attrs (rawToString attrs.backendV6Data) = true := by
      rcases hpub with ⟨htype | htype, hpub⟩ | htype | htype
      · simp [publishesIpv6, htype, hnull hpub]
      · simp [publishesIpv6, htype, hnull hpub, hv6]
      · simp [publishesIpv6, htype, hv6]
      · simp [publishesIpv6, htype, hv6]
    refine ⟨?_, fun l hl => ?_⟩
    · rw [addIpv6_ok_iff, hann, (ipv6_published hkeys hv6 hpub6).2]
      exact and_iff_left (hcidr6 h6)
    · obtain ⟨hdata, ip, hlip, hip⟩ := ipv6_reads_back hkeys hraw6 h6 hv6 hpub6 hl
      refine ⟨htype l hl, hdata, ?_⟩
      split
      · rename_i ho
        rw [@publishedIp_of_empty a.ipv6Keys ann ho, IP6.fromStr_toString] at hip
        rw [hlip, Except.ok.inj hip]
      · rename_i ho
        rw [@publishedIp_of_override a.ipv6Keys ann ho] at hip
        exact ⟨ip, hip, hlip⟩

end Reader

/-- A dual-stack environment that reads a raw value as its text. -/
def dualEnv : EventEnv where
  annotations := v4Env.annotations
  enableIpv4 := true
  enableIpv6 := true
  rawFromString := fun s => if s = "" then none else some s

/-- Attributes of a vxlan backend with data for both families. -/
def vxlanAttrs : LeaseAttrs where
  publicIp := ⟨0xc0a80001⟩
  publicIpv6 := some ⟨0xfd000000000000000000000000000001⟩
  backendType := "vxlan"
  backendData := some "[1]"
  backendV6Data := some "[6]"

/-- A node that overrides its IPv4 address, and says that it had published before. -/
def overriddenNode : Node where
  metadata :=
    { name := "node1"
      annotations := annotationInsert overriddenAnnotations v4Env.annotations.backendType "vxlan" }
  spec := { podCidrs := ["10.0.1.0/24", "fc00:1::/64"] }

/-- The lease of that node, read after it has published: the override for IPv4, the own
address for IPv6. -/
theorem published_reads_back_overridden :
    ∃ l, nodeToLease dualEnv (publishedNode v4Env.annotations vxlanAttrs overriddenNode) = .ok l ∧
      l.attrs.publicIp = ⟨0xcb007107⟩ ∧ l.attrs.publicIpv6 = vxlanAttrs.publicIpv6 := by
  have hraw : ∀ t, t ≠ "" → KeepsRaw dualEnv (some t) := by
    intro t ht
    refine ⟨rfl, rfl, fun t' ht' => ?_⟩
    cases ht'
    exact if_neg ht
  obtain ⟨h4, h6, hboth⟩ := @published_reads_back dualEnv vxlanAttrs overriddenNode
    (annotationsWith_keys_nodup _) (hraw "[1]" (by decide)) (hraw "[6]" (by decide))
    (fun _ => ⟨⟨⟨0x0a000100⟩, 24⟩, rfl⟩)
    (fun _ => ⟨⟨⟨0xfc000001000000000000000000000000⟩, 64⟩, rfl⟩)
  obtain ⟨hparse4, hread4⟩ := h4 rfl (Or.inr ⟨"[1]", rfl, by decide⟩)
  obtain ⟨hparse6, hread6⟩ := h6 rfl _ rfl (Or.inl ⟨Or.inl rfl, "[6]", rfl, by decide⟩)
  have hempty : publishedIp dualEnv.annotations.ipv6Keys overriddenNode.metadata.annotations
      (IP6.toString ⟨0xfd000000000000000000000000000001⟩) =
      IP6.toString ⟨0xfd000000000000000000000000000001⟩ := publishedIp_of_empty (by decide) _
  obtain ⟨l, hl⟩ := hboth.mpr ⟨fun _ => hparse4.mpr ⟨⟨0xcb007107⟩, rfl⟩,
    fun _ => hparse6.mpr ⟨_, hempty ▸ IP6.fromStr_toString _⟩⟩
  refine ⟨l, hl, ?_, (hread6 l hl).2.2⟩
  have hip := (hread4 l hl).2.2
  exact (Except.ok.inj hip).symm

end Flannel
