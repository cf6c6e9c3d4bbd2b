import Flannel.Kube.Events
import Flannel.Lease.Keyed

/-!
# The lease of a node, and what an update says about it

`nodeView` is the lease that a node stands for: what `node_to_lease` makes of it, if
the node carries the marker of the subnet manager and the conversion succeeds.  Both
handlers are told through it: `handle_add_lease_event` reports the view, and
`handle_update_lease_event` reports the view of the new object if one of the family's
annotations changed.

The second handler looks at annotations only and reports additions only, so a watcher
that holds the old view does not always end up with the new one.
`update_reaches_view_iff` says exactly when it does.
-/

namespace Flannel

open Results

/-! ## The conversion, read backwards -/

theorem addIpv4_eq_ok {env : EventEnv} {node : Node} {l l' : Lease} :
    addIpv4 env node l = .ok l' ↔
      ∃ ip c, IP4.fromStr (annotationOf node.metadata.annotations env.annotations.backendPublicIp) =
          .ok ip ∧ ipv4Cidr node = .ok (some c) ∧
        l' = { l with
          attrs := { l.attrs with
            publicIp := ip
            backendData := rawFromAnnotation env node.metadata.annotations
              env.annotations.backendData }
          subnet := c
          enableIpv4 := true } := by
  simp only [addIpv4, bind_ok_iff, mapError_ok_iff]
  constructor
  · rintro ⟨ip, hip, c, hc, h⟩
    cases c with
    | none => simp at h
    | some c => exact ⟨ip, c, hip, hc, (Except.ok.inj h).symm⟩
  · rintro ⟨ip, c, hip, hc, rfl⟩
    exact ⟨ip, hip, some c, hc, rfl⟩

theorem addIpv6_eq_ok {env : EventEnv} {node : Node} {l l' : Lease} :
    addIpv6 env node l = .ok l' ↔
      ∃ ip c, IP6.fromStr
          (annotationOf node.metadata.annotations env.annotations.backendPublicIpv6) = .ok ip ∧
        ipv6Cidr node = .ok (some c) ∧
        l' = { l with
          attrs := { l.attrs with
            publicIpv6 := some ip
            backendV6Data := rawFromAnnotation env node.metadata.annotations
              env.annotations.backendV6Data }
          ipv6Subnet := c
          enableIpv6 := true } := by
  simp only [addIpv6, bind_ok_iff, mapError_ok_iff]
  constructor
  · rintro ⟨ip, hip, c, hc, h⟩
    cases c with
    | none => simp at h
    | some c => exact ⟨ip, c, hip, hc, (Except.ok.inj h).symm⟩
  · rintro ⟨ip, c, hip, hc, rfl⟩
    exact ⟨ip, hip, some c, hc, rfl⟩

theorem whenEnabled_eq_ok {enabled : Bool} {part : Lease → Except NodeLeaseError Lease}
    {l l' : Lease} :
    whenEnabled enabled part l = .ok l' ↔
      enabled = true ∧ part l = .ok l' ∨ enabled = false ∧ l' = l := by
  cases enabled with
  | true => simp [whenEnabled]
  | false => simp [whenEnabled, eq_comm]

/-- What a converted node's lease says: the flags are the environment's, and the subnet
of each enabled family is the node's CIDR of that family. -/
theorem nodeToLease_spec {env : EventEnv} {node : Node} {l : Lease}
    (h : nodeToLease env node = .ok l) :
    l.HasFlags env.enableIpv4 env.enableIpv6 ∧
      (if env.enableIpv4 then ipv4Cidr node = .ok (some l.subnet) else l.subnet = default) ∧
      (if env.enableIpv6 then ipv6Cidr node = .ok (some l.ipv6Subnet)
        else l.ipv6Subnet = default) := by
  simp only [nodeToLease, bind_ok_iff, whenEnabled_eq_ok, addIpv4_eq_ok, addIpv6_eq_ok] at h
  obtain ⟨l₁, h₁, l₂, h₂, h⟩ := h
  have hl := (Except.ok.inj h).symm
  subst hl
  rcases h₁ with ⟨hv4, ip, c, -, hc, rfl⟩ | ⟨hv4, rfl⟩ <;>
    rcases h₂ with ⟨hv6, ip', c', -, hc', rfl⟩ | ⟨hv6, rfl⟩ <;>
      simp_all [Lease.HasFlags, blankLease]

/-! ## The view -/

/-- The lease a node stands for. -/
def nodeView (env : EventEnv) (node : Node) : Option Lease :=
  if isManaged env node then (nodeToLease env node).toOption else none

theorem nodeView_eq_some {env : EventEnv} {node : Node} {l : Lease} :
    nodeView env node = some l ↔ isManaged env node = true ∧ nodeToLease env node = .ok l := by
  unfold nodeView
  cases hm : isManaged env node with
  | false => simp
  | true =>
    cases hl : nodeToLease env node with
    | error e => simp [Except.toOption]
    | ok l' => simp [Except.toOption]

theorem handleAddLeaseEvent_eq (env : EventEnv) (et : EventType) (node : Node) :
    handleAddLeaseEvent env et node = (nodeView env node).map fun l => ⟨et, l⟩ := by
  unfold handleAddLeaseEvent nodeView
  cases isManaged env node with
  | false => rfl
  | true =>
    cases nodeToLease env node with
    | error e => rfl
    | ok l => rfl

theorem handleUpdateLeaseEvent_eq (env : EventEnv) (old new : Node) :
    handleUpdateLeaseEvent env old new =
      if leaseChanged env old new then (nodeView env new).map fun l => ⟨.added, l⟩ else none := by
  unfold handleUpdateLeaseEvent nodeView
  cases isManaged env new with
  | false => simp
  | true =>
    cases nodeToLease env new with
    | error e => simp [Except.toOption]
    | ok l => simp [Except.toOption]

theorem nodeView_flags {env : EventEnv} {node : Node} {l : Lease}
    (h : nodeView env node = some l) : l.HasFlags env.enableIpv4 env.enableIpv6 :=
  (nodeToLease_spec (nodeView_eq_some.mp h).2).1

/-! ## What an update compares -/

/-- The annotations of the family that a single-stack manager compares. -/
def familyKeys (env : EventEnv) : List String :=
  let a := env.annotations
  if env.enableIpv4 then [a.backendData, a.backendType, a.backendPublicIp]
  else [a.backendV6Data, a.backendType, a.backendPublicIpv6]

theorem sameFamily_iff (env : EventEnv) (data publicIp : String) (old new : Node) :
    sameFamily env data publicIp old new = true ↔
      ∀ key ∈ [data, env.annotations.backendType, publicIp],
        annotationOf old.metadata.annotations key = annotationOf new.metadata.annotations key := by
  simp [sameFamily, and_assoc]

theorem leaseChanged_iff {env : EventEnv} (hstack : env.enableIpv4 ≠ env.enableIpv6)
    (old new : Node) :
    leaseChanged env old new = true ↔
      ∃ key ∈ familyKeys env,
        annotationOf old.metadata.annotations key ≠ annotationOf new.metadata.annotations key := by
  have hfamily : ∀ data publicIp, (!sameFamily env data publicIp old new) = true ↔
      ∃ key ∈ [data, env.annotations.backendType, publicIp],
        annotationOf old.metadata.annotations key ≠ annotationOf new.metadata.annotations key := by
    intro data publicIp
    rw [Bool.not_eq_true', ← Bool.not_eq_true, sameFamily_iff]
    simp only [not_forall, exists_prop, ne_eq]
  cases h4 : env.enableIpv4 with
  | true =>
    have h6 : env.enableIpv6 = false := by simpa [h4] using hstack
    have hchanged : leaseChanged env old new =
        !sameFamily env env.annotations.backendData env.annotations.backendPublicIp old new := by
      simp [leaseChanged, h4, h6]
    rw [hchanged, hfamily, familyKeys, h4, if_pos rfl]
  | false =>
    have h6 : env.enableIpv6 = true := by simpa [h4] using hstack
    have hchanged : leaseChanged env old new =
        !sameFamily env env.annotations.backendV6Data env.annotations.backendPublicIpv6
          old new := by
      simp [leaseChanged, h4, h6]
    rw [hchanged, hfamily, familyKeys, h4, if_neg (by simp)]

/-- The raw value depends only on how the annotation reads, given that the empty text is
no JSON value. -/
theorem rawFromAnnotation_eq {env : EventEnv} (hraw : env.rawFromString "" = none)
    (map : String → Option String) (key : String) :
    rawFromAnnotation env map key = env.rawFromString (annotationOf map key) := by
  unfold rawFromAnnotation annotationOf
  cases map key with
  | none => exact hraw.symm
  | some v => rfl

/-- With nothing changed, the lease is decided by the subnet. -/
theorem nodeToLease_eq_of_not_changed {env : EventEnv} {old new : Node} {l l' : Lease}
    (hstack : env.enableIpv4 ≠ env.enableIpv6) (hraw : env.rawFromString "" = none)
    (hsame : leaseChanged env old new = false) (hl : nodeToLease env old = .ok l)
    (hl' : nodeToLease env new = .ok l')
    (hsub : sameSubnet env.enableIpv4 env.enableIpv6 l l' = true) : l = l' := by
  have hread : ∀ key ∈ familyKeys env, annotationOf old.metadata.annotations key =
      annotationOf new.metadata.annotations key := by
    intro key hkey
    by_contra hne
    rw [(leaseChanged_iff hstack old new).mpr ⟨key, hkey, hne⟩] at hsame
    exact absurd hsame (by simp)
  simp only [nodeToLease, bind_ok_iff, whenEnabled_eq_ok, addIpv4_eq_ok, addIpv6_eq_ok,
    rawFromAnnotation_eq hraw] at hl hl'
  obtain ⟨l₁, h₁, l₂, h₂, h⟩ := hl
  obtain ⟨l₁', h₁', l₂', h₂', h'⟩ := hl'
  have hl := (Except.ok.inj h).symm
  have hl' := (Except.ok.inj h').symm
  cases h4 : env.enableIpv4 with
  | true =>
    have h6 : env.enableIpv6 = false := by simpa [h4] using hstack
    simp only [familyKeys, h4, if_true, List.forall_mem_cons, List.not_mem_nil, false_implies,
      implies_true, and_true] at hread
    obtain ⟨hdata, htype, hip⟩ := hread
    simp only [h4, h6, true_and, false_and, or_false, false_or, Bool.false_eq_true,
      Bool.true_eq_false] at h₁ h₁' h₂ h₂'
    obtain ⟨ip, c, hpub, -, rfl⟩ := h₁
    obtain ⟨ip', c', hpub', -, rfl⟩ := h₁'
    rw [hip, hpub'] at hpub
    cases hpub
    subst h₂ h₂' hl hl'
    rw [sameSubnet_iff, h4, h6] at hsub
    have hnet : c = c' := by simpa [Lease.key] using hsub
    rw [hnet, hdata, htype]
  | false =>
    have h6 : env.enableIpv6 = true := by simpa [h4] using hstack
    simp only [familyKeys, h4, Bool.false_eq_true, if_false, List.forall_mem_cons,
      List.not_mem_nil, false_implies, implies_true, and_true] at hread
    obtain ⟨hdata, htype, hip⟩ := hread
    simp only [h4, h6, true_and, false_and, or_false, false_or, Bool.false_eq_true,
      Bool.true_eq_false] at h₁ h₁' h₂ h₂'
    subst h₁ h₁'
    obtain ⟨ip, c, hpub, -, rfl⟩ := h₂
    obtain ⟨ip', c', hpub', -, rfl⟩ := h₂'
    rw [hip, hpub'] at hpub
    cases hpub
    subst hl hl'
    rw [sameSubnet_iff, h4, h6] at hsub
    have hnet : c = c' := by simpa [Lease.key] using hsub
    rw [hnet, hdata, htype]

/-! ## A watcher that holds the old view -/

namespace LeaseWatcher

/-- One addition to a watcher that holds at most one lease. -/
theorem update_added_toList {own l' : Lease} {held : Option Lease}
    (hown : isOwn own l' = false) :
    ((⟨own, held.toList⟩ : LeaseWatcher).update [⟨.added, l'⟩]).1.leases =
      match held with
      | none => [l']
      | some l => if matchesStored l l' then [l'] else [l, l'] := by
  rw [update_cons hown]
  cases held with
  | none => rfl
  | some l =>
    simp only [update_nil, applyEvent, add, Option.toList_some]
    by_cases hm : matchesStored l l' = true
    · rw [KeyedList.firstMatch_cons_pos (p := fun x => matchesStored x l') hm, if_pos hm]
      rfl
    · have hno : matchesStored l l' = false := Bool.eq_false_iff.mpr hm
      rw [KeyedList.firstMatch_cons_neg (p := fun x => matchesStored x l') hno, if_neg hm]
      rfl

end LeaseWatcher

/-- A managed node that loses its marker. -/
def unmanagedNode : Node :=
  { managedNode "a" "10.0.1.0/24" with metadata := { name := "a" } }

/-- A watcher that holds the old view does not always reach the new one. -/
theorem unmanaged_node_keeps_lease :
    ¬ ∀ (env : EventEnv) (own : Lease) (old new : Node), env.enableIpv4 ≠ env.enableIpv6 →
      old.metadata.name = new.metadata.name →
      (∀ l, nodeView env old = some l → isOwn own l = false) →
      (∀ l, nodeView env new = some l → isOwn own l = false) →
      ((⟨own, (nodeView env old).toList⟩ : LeaseWatcher).update
        (handleUpdateLeaseEvent env old new).toList).1.leases = (nodeView env new).toList := by
  intro h
  have hleases := h v4Env (v4Lease 0x0a00ff00) (managedNode "a" "10.0.1.0/24") unmanagedNode
    (by decide) rfl (by rintro l ⟨⟩; decide) (by rintro l ⟨⟩)
  exact absurd hleases (by decide)

/-- When an update brings a watcher from the old view to the new one. -/
theorem view_after_update_iff {env : EventEnv} {own : Lease} {old new : Node}
    (hstack : env.enableIpv4 ≠ env.enableIpv6) (hraw : env.rawFromString "" = none)
    (hown : ∀ l, nodeView env new = some l → isOwn own l = false) :
    ((⟨own, (nodeView env old).toList⟩ : LeaseWatcher).update
        (handleUpdateLeaseEvent env old new).toList).1.leases = (nodeView env new).toList ↔
      (nodeView env old = none ∧ nodeView env new = none) ∨
      (nodeView env old = none ∧ nodeView env new ≠ none ∧ ∃ key ∈ familyKeys env,
        annotationOf old.metadata.annotations key ≠ annotationOf new.metadata.annotations key) ∨
      ∃ l l', nodeView env old = some l ∧ nodeView env new = some l' ∧
        sameSubnet env.enableIpv4 env.enableIpv6 l l' = true := by
  rw [← leaseChanged_iff hstack, handleUpdateLeaseEvent_eq]
  cases hnew : nodeView env new with
  | none =>
    have hnone : (if leaseChanged env old new = true then
        (none : Option Lease).map (fun l => (⟨.added, l⟩ : Event)) else none) = none := by
      split <;> rfl
    rw [hnone, Option.toList_none, LeaseWatcher.update_nil]
    cases hold : nodeView env old with
    | none => simp
    | some l => simp
  | some l' =>
    have hflags := nodeView_flags hnew
    cases hc : leaseChanged env old new with
    | true =>
      rw [if_pos rfl, Option.map_some, Option.toList_some,
        LeaseWatcher.update_added_toList (hown l' hnew)]
      cases hold : nodeView env old with
      | none => simp
      | some l =>
        have hl := nodeView_flags hold
        by_cases hm : matchesStored l l' = true
        · have hsub : sameSubnet env.enableIpv4 env.enableIpv6 l l' = true := by
            rw [← hl.1, ← hl.2]
            exact hm
          simp [hm, hsub]
        · have hsub : sameSubnet env.enableIpv4 env.enableIpv6 l l' = false := by
            rw [← hl.1, ← hl.2]
            exact Bool.eq_false_iff.mpr hm
          simp [hm, hsub]
    | false =>
      rw [if_neg (by simp), Option.toList_none, LeaseWatcher.update_nil]
      cases hold : nodeView env old with
      | none => simp
      | some l =>
        constructor
        · intro heq
          have hll : l = l' := by simpa using heq
          refine Or.inr (Or.inr ⟨l, l', rfl, rfl, ?_⟩)
          rw [hll, sameSubnet_iff]
        · rintro (⟨h, -⟩ | ⟨h, -⟩ | ⟨x, x', hx, hx', hsub⟩)
          · simp at h
          · simp at h
          · cases hx
            cases hx'
            have heq := nodeToLease_eq_of_not_changed hstack hraw hc (nodeView_eq_some.mp hold).2
              (nodeView_eq_some.mp hnew).2 hsub
            simp [heq]

/-- **When an update brings a watcher to the new view.**  For a single-stack manager, a
watcher that holds exactly the old node's view holds exactly the new node's view after
the update in three cases and no other: neither node has a lease; only the new one has,
and an annotation of the family changed; or both have one, of the same subnet.  A lease is
never withdrawn, and nothing is said if the annotations of the family read the same, whatever
became of the pod CIDR, the marker or the conversion. -/
theorem update_reaches_view_iff {env : EventEnv} {own : Lease} {old new : Node}
    (hstack : env.enableIpv4 ≠ env.enableIpv6) (hraw : env.rawFromString "" = none)
    (hown : ∀ l, nodeView env new = some l → isOwn own l = false) :
    (((⟨own, (nodeView env old).toList⟩ : LeaseWatcher).update
        (handleUpdateLeaseEvent env old new).toList).1.leases = (nodeView env new).toList ↔
      (nodeView env old = none ∧ nodeView env new = none) ∨
      (nodeView env old = none ∧ nodeView env new ≠ none ∧ ∃ key ∈ familyKeys env,
        annotationOf old.metadata.annotations key ≠ annotationOf new.metadata.annotations key) ∨
      ∃ l l', nodeView env old = some l ∧ nodeView env new = some l' ∧
        sameSubnet env.enableIpv4 env.enableIpv6 l l' = true) ∧
    (∀ e, handleUpdateLeaseEvent env old new = some e → e.eventType = .added) ∧
    ((∀ key ∈ familyKeys env,
        annotationOf old.metadata.annotations key = annotationOf new.metadata.annotations key) →
      handleUpdateLeaseEvent env old new = none) := by
  refine ⟨view_after_update_iff hstack hraw hown, fun e he => ?_, fun hsame => ?_⟩
  · rw [handleUpdateLeaseEvent_eq] at he
    split at he
    · obtain ⟨l, -, rfl⟩ := Option.map_eq_some_iff.mp he
      rfl
    · cases he
  · have hunchanged : ¬ leaseChanged env old new = true := by
      rw [leaseChanged_iff hstack]
      rintro ⟨key, hkey, hne⟩
      exact hne (hsame key hkey)
    rw [handleUpdateLeaseEvent_eq, if_neg hunchanged]

/-- The node gets its backend type late: the marker and the public address are there, and
only the type changes. -/
theorem update_reaches_view_typed :
    let old := managedNode "a" "10.0.1.0/24"
    let new : Node := { old with
      metadata := { old.metadata with
        annotations := Function.update old.metadata.annotations v4Env.annotations.backendType
          (some "vxlan") } }
    nodeView v4Env new ≠ none ∧
      ((⟨v4Lease 0x0a00ff00, (nodeView v4Env old).toList⟩ : LeaseWatcher).update
        (handleUpdateLeaseEvent v4Env old new).toList).1.leases = (nodeView v4Env new).toList :=
  ⟨by decide, (update_reaches_view_iff (by decide) rfl (by rintro l ⟨⟩; decide)).1.mpr
    (Or.inr (Or.inr ⟨_, _, rfl, rfl, by decide⟩))⟩

end Flannel
