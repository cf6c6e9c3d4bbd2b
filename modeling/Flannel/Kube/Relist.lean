import Flannel.Kube.Informer

/-!
# A fresh list of nodes

After a watch ended the informer lists all nodes again and `reconcile_relist` tells
the watcher the difference.  The difference is found by node *name*, but a watcher
applies it by *subnet*, and all additions come before all removals.  So when a new
node has the pod CIDR of a node that vanished --- a node was replaced, and its CIDR
handed on --- the removal takes out the lease that was just added.

`relist_leases` is the exact statement: a watcher that holds the leases of the old
store holds the leases of the new list afterwards, if and only if no new node has the
subnet of a vanished one.
-/

namespace Flannel

open KeyedList Replay

/-! ## Lists of peers -/

/-- The leases of a list of nodes. -/
def leasesOf (env : EventEnv) (nodes : List Node) : List Lease := nodes.filterMap (nodeView env)

theorem mem_leasesOf {env : EventEnv} {nodes : List Node} {l : Lease} :
    l ∈ leasesOf env nodes ↔ ∃ n ∈ nodes, nodeView env n = some l :=
  List.mem_filterMap

/-- The subnet of a lease under the flags of the environment. -/
def leaseKey (env : EventEnv) (l : Lease) : SubnetKey := l.key env.enableIpv4 env.enableIpv6

/-- Nodes with distinct names, each standing for a lease of its own subnet. -/
structure PeerList (env : EventEnv) (nodes : List Node) : Prop where
  names : Distinct Node.name nodes
  viewed : ∀ n ∈ nodes, nodeView env n ≠ none
  subnets : ∀ a ∈ nodes, ∀ b ∈ nodes, ∀ l l', nodeView env a = some l →
    nodeView env b = some l' → leaseKey env l = leaseKey env l' → a = b

theorem PeerList.distinct_leases {env : EventEnv} {nodes : List Node} (h : PeerList env nodes) :
    Distinct (leaseKey env) (leasesOf env nodes) := by
  have hnodup : nodes.Nodup := List.Nodup.of_map Node.name h.names
  unfold Distinct leasesOf List.Nodup
  rw [List.pairwise_map, List.pairwise_filterMap]
  refine hnodup.imp_of_mem fun ha hb hne l hl l' hl' heq => ?_
  exact hne (h.subnets _ ha _ hb l l' hl hl' heq)

theorem leasesOf_flags {env : EventEnv} {nodes : List Node} {l : Lease}
    (h : l ∈ leasesOf env nodes) : l.HasFlags env.enableIpv4 env.enableIpv6 := by
  obtain ⟨n, -, hn⟩ := mem_leasesOf.mp h
  exact nodeView_flags hn

/-! ## The events of a fresh list -/

/-- The nodes of the list that the store does not know. -/
def freshNodes (old : NodeStore) (items : List Node) : List Node :=
  items.filter fun n => (old.get n.name).isNone

/-- The nodes of the store that the list does not have. -/
def goneNodes (old : NodeStore) (items : List Node) : List Node :=
  old.nodes.filter fun n => decide (n.name ∉ items.map Node.name)

theorem mem_freshNodes {old : NodeStore} {items : List Node} {n : Node} :
    n ∈ freshNodes old items ↔ n ∈ items ∧ old.get n.name = none := by
  simp [freshNodes]

theorem mem_goneNodes {old : NodeStore} {items : List Node} {n : Node} :
    n ∈ goneNodes old items ↔ n ∈ old.nodes ∧ n.name ∉ items.map Node.name := by
  simp only [goneNodes, List.mem_filter, decide_eq_true_eq]

/-- When the nodes in both are unchanged, the fresh nodes are announced and then the gone
ones are reported. -/
theorem reconcileRelist_eq {env : EventEnv} (henv : env.enableIpv4 = true ∨ env.enableIpv6 = true)
    {old : NodeStore} {items : List Node}
    (hsame : ∀ n ∈ items, ∀ o ∈ old.nodes, n.name = o.name → n = o) :
    reconcileRelist env old items =
      (leasesOf env (freshNodes old items)).map (Event.mk .added) ++
        (leasesOf env (goneNodes old items)).map (Event.mk .removed) := by
  simp only [reconcileRelist, leasesOf, freshNodes, goneNodes, List.map_filterMap,
    List.filterMap_filter]
  congr 1
  · refine List.filterMap_congr fun n hn => ?_
    cases ho : old.get n.name with
    | none => simp [handleAddLeaseEvent_eq]
    | some o =>
      obtain ⟨hmem, hname⟩ := NodeStore.get_eq_some_iff.mp ho
      have hno := hsame n hn o hmem hname.symm
      subst hno
      simp [handleUpdateLeaseEvent_self henv]
  · refine List.filterMap_congr fun n _ => ?_
    by_cases hn : n.name ∈ items.map Node.name
    · have hno : ¬ decide (n.name ∉ items.map Node.name) = true := by simpa using hn
      rw [if_pos hn, if_neg hno]
      rfl
    · rw [if_neg hn, if_pos (decide_eq_true hn), handleAddLeaseEvent_eq]

/-! ## What the watcher ends up with -/

/-- What the announcements write: the leases of the fresh nodes under their subnets. -/
def announced (env : EventEnv) (old : NodeStore) (items : List Node) :
    List (SubnetKey × Option Lease) :=
  (leasesOf env (freshNodes old items)).map fun l => (leaseKey env l, some l)

/-- The subnets that are reported as gone. -/
def withdrawn (env : EventEnv) (old : NodeStore) (items : List Node) : List SubnetKey :=
  (leasesOf env (goneNodes old items)).map (leaseKey env)

theorem relist_view {env : EventEnv} (henv : env.enableIpv4 = true ∨ env.enableIpv6 = true)
    {old : NodeStore} {items : List Node} {lw : LeaseWatcher}
    (hsame : ∀ n ∈ items, ∀ o ∈ old.nodes, n.name = o.name → n = o)
    (hkeyed : lw.Keyed env.enableIpv4 env.enableIpv6)
    (hown : ∀ l ∈ leasesOf env old.nodes ++ leasesOf env items, isOwn lw.ownLease l = false) :
    (lw.update (reconcileRelist env old items)).1.Keyed env.enableIpv4 env.enableIpv6 ∧
      ∀ k, (lw.update (reconcileRelist env old items)).1.view env.enableIpv4 env.enableIpv6 k =
        if k ∈ withdrawn env old items then none
        else (lastWrite k (announced env old items)).getD
          (lw.view env.enableIpv4 env.enableIpv6 k) := by
  have hsub : ∀ e ∈ reconcileRelist env old items,
      e.lease ∈ leasesOf env old.nodes ++ leasesOf env items := by
    intro e he
    rw [reconcileRelist_eq henv hsame] at he
    rcases List.mem_append.mp he with he | he
    · obtain ⟨l, hl, rfl⟩ := List.mem_map.mp he
      obtain ⟨n, hn, hv⟩ := mem_leasesOf.mp hl
      exact List.mem_append_right _ (mem_leasesOf.mpr ⟨n, (mem_freshNodes.mp hn).1, hv⟩)
    · obtain ⟨l, hl, rfl⟩ := List.mem_map.mp he
      obtain ⟨n, hn, hv⟩ := mem_leasesOf.mp hl
      exact List.mem_append_left _ (mem_leasesOf.mpr ⟨n, (mem_goneNodes.mp hn).1, hv⟩)
  have hflags : ∀ e ∈ reconcileRelist env old items,
      e.lease.HasFlags env.enableIpv4 env.enableIpv6 := by
    intro e he
    rcases List.mem_append.mp (hsub e he) with hl | hl
    · exact leasesOf_flags hl
    · exact leasesOf_flags hl
  have hforeign : LeaseWatcher.foreign lw.ownLease (reconcileRelist env old items) =
      reconcileRelist env old items := by
    rw [LeaseWatcher.foreign, List.filter_eq_self]
    intro e he
    rw [hown _ (hsub e he)]
    rfl
  obtain ⟨hk, hv, -⟩ := LeaseWatcher.update_keyed hkeyed hflags
  refine ⟨hk, fun k => ?_⟩
  rw [hv, hforeign, reconcileRelist_eq henv hsame, List.map_append, replay_append, List.map_map,
    List.map_map, replay_deletes, replay_apply]
  · simp [withdrawn, announced, Function.comp_def, Event.change, leaseKey]
  · simp [Event.change]

section Reached

variable {env : EventEnv} {old : NodeStore} {items : List Node}

/-- What the announcements say about a key is the lease of a fresh node. -/
theorem fresh_of_lastWrite {k : SubnetKey} {v : Option Lease}
    (h : lastWrite k (announced env old items) = some v) :
    ∃ n l, n ∈ items ∧ old.get n.name = none ∧ nodeView env n = some l ∧
      leaseKey env l = k ∧ v = some l := by
  obtain ⟨l, hl, heq⟩ := List.mem_map.mp (mem_of_lastWrite h)
  obtain ⟨n, hn, hv⟩ := mem_leasesOf.mp hl
  obtain ⟨hmem, hget⟩ := mem_freshNodes.mp hn
  obtain ⟨rfl, rfl⟩ := Prod.mk.inj heq
  exact ⟨n, l, hmem, hget, hv, rfl, rfl⟩

theorem lastWrite_fresh_ne_none {n : Node} {l : Lease} (hn : n ∈ items)
    (hget : old.get n.name = none) (hv : nodeView env n = some l) :
    lastWrite (leaseKey env l) (announced env old items) ≠ none := by
  rw [ne_eq, lastWrite_eq_none_iff, not_not, announced, List.map_map]
  exact List.mem_map_of_mem (mem_leasesOf.mpr ⟨n, mem_freshNodes.mpr ⟨hn, hget⟩, hv⟩)

theorem mem_withdrawn {k : SubnetKey} :
    k ∈ withdrawn env old items ↔
      ∃ o ∈ old.nodes, o.name ∉ items.map Node.name ∧
        ∃ l, nodeView env o = some l ∧ leaseKey env l = k := by
  simp only [withdrawn, List.mem_map, mem_leasesOf, mem_goneNodes]
  constructor
  · rintro ⟨l, ⟨o, ⟨ho, hgone⟩, hv⟩, hk⟩
    exact ⟨o, ho, by simpa using hgone, l, hv, hk⟩
  · rintro ⟨o, ho, hgone, l, hv, hk⟩
    exact ⟨l, ⟨o, ⟨ho, by simpa using hgone⟩, hv⟩, hk⟩

/-- No node that is new to the store has the subnet of a node that is gone. -/
def NoHandover (env : EventEnv) (old : NodeStore) (items : List Node) : Prop :=
  ∀ n ∈ items, old.get n.name = none → ∀ o ∈ old.nodes, o.name ∉ items.map Node.name →
    ∀ l l', nodeView env n = some l → nodeView env o = some l' → leaseKey env l ≠ leaseKey env l'

/-- A lease of the list is not withdrawn, unless its subnet is handed over. -/
theorem notMem_withdrawn (hold : PeerList env old.nodes)
    (hsame : ∀ n ∈ items, ∀ o ∈ old.nodes, n.name = o.name → n = o)
    (h : NoHandover env old items) {l : Lease} (hl : l ∈ leasesOf env items) :
    leaseKey env l ∉ withdrawn env old items := by
  intro hgone
  obtain ⟨n, hn, hv⟩ := mem_leasesOf.mp hl
  obtain ⟨o, ho, hno, l', hv', hkey⟩ := mem_withdrawn.mp hgone
  cases hget : old.get n.name with
  | none => exact h n hn hget o ho hno l l' hv hv' hkey.symm
  | some m =>
    obtain ⟨hm, hname⟩ := NodeStore.get_eq_some_iff.mp hget
    have hnm := hsame n hn m hm hname.symm
    subst hnm
    have hon := hold.subnets o ho n hm l' l hv' hv hkey
    subst hon
    exact hno (List.mem_map_of_mem hn)

section Announced

variable {view : SubnetKey → Option Lease}
  (hview : ∀ l, view (leaseKey env l) = some l ↔ l ∈ leasesOf env old.nodes)
  (hsame : ∀ n ∈ items, ∀ o ∈ old.nodes, n.name = o.name → n = o)

include hview hsame

/-- After the announcements every lease of the list is stored. -/
theorem announced_of_mem (hnew : PeerList env items) {l : Lease} (hl : l ∈ leasesOf env items) :
    (lastWrite (leaseKey env l) (announced env old items)).getD (view (leaseKey env l)) =
      some l := by
  obtain ⟨n, hn, hv⟩ := mem_leasesOf.mp hl
  cases hw : lastWrite (leaseKey env l) (announced env old items) with
  | some v =>
    obtain ⟨n₀, l₀, hn₀, -, hv₀, hkey, rfl⟩ := fresh_of_lastWrite hw
    have hnn := hnew.subnets n₀ hn₀ n hn l₀ l hv₀ hv hkey
    subst hnn
    rw [Option.getD_some, ← hv₀, hv]
  | none =>
    rw [Option.getD_none, hview, mem_leasesOf]
    cases hget : old.get n.name with
    | none => exact absurd hw (lastWrite_fresh_ne_none hn hget hv)
    | some m =>
      obtain ⟨hm, hname⟩ := NodeStore.get_eq_some_iff.mp hget
      rw [← hsame n hn m hm hname.symm] at hm
      exact ⟨n, hm, hv⟩

/-- What is stored after the announcements is of the list, unless it is withdrawn. -/
theorem mem_of_announced {l : Lease} (hkeep : leaseKey env l ∉ withdrawn env old items)
    (hstored : (lastWrite (leaseKey env l) (announced env old items)).getD
      (view (leaseKey env l)) = some l) : l ∈ leasesOf env items := by
  cases hw : lastWrite (leaseKey env l) (announced env old items) with
  | some v =>
    obtain ⟨n, l₀, hn, -, hv, -, rfl⟩ := fresh_of_lastWrite hw
    rw [hw, Option.getD_some] at hstored
    exact mem_leasesOf.mpr ⟨n, hn, hv.trans hstored⟩
  | none =>
    rw [hw, Option.getD_none, hview, mem_leasesOf] at hstored
    obtain ⟨o, ho, hv⟩ := hstored
    have hname : o.name ∈ items.map Node.name := by
      by_contra hno
      exact hkeep (mem_withdrawn.mpr ⟨o, ho, hno, l, hv, rfl⟩)
    obtain ⟨n, hn, hno⟩ := List.mem_map.mp hname
    rw [hsame n hn o ho hno] at hn
    exact mem_leasesOf.mpr ⟨o, hn, hv⟩

end Announced

/-- **A watcher reaches the fresh list exactly when no subnet is handed over.** -/
theorem relist_leases (henv : env.enableIpv4 = true ∨ env.enableIpv6 = true)
    (hold : PeerList env old.nodes) (hnew : PeerList env items)
    (hsame : ∀ n ∈ items, ∀ o ∈ old.nodes, n.name = o.name → n = o) {lw : LeaseWatcher}
    (hlw : lw.leases.Perm (leasesOf env old.nodes))
    (hown : ∀ l ∈ leasesOf env old.nodes ++ leasesOf env items, isOwn lw.ownLease l = false) :
    (∀ l, l ∈ (lw.update (reconcileRelist env old items)).1.leases ↔ l ∈ leasesOf env items) ↔
      NoHandover env old items := by
  have hkeyed : lw.Keyed env.enableIpv4 env.enableIpv6 :=
    ⟨fun l hl => leasesOf_flags (hlw.mem_iff.mp hl), hold.distinct_leases.perm hlw.symm⟩
  have hview : ∀ l, lw.view env.enableIpv4 env.enableIpv6 (leaseKey env l) = some l ↔
      l ∈ leasesOf env old.nodes := by
    intro l
    rw [leaseKey, ← LeaseWatcher.mem_leases_iff hkeyed, hlw.mem_iff]
  obtain ⟨hk, hafter⟩ := relist_view henv hsame hkeyed hown
  have hstored : ∀ l, l ∈ (lw.update (reconcileRelist env old items)).1.leases ↔
      (if leaseKey env l ∈ withdrawn env old items then none
        else (lastWrite (leaseKey env l) (announced env old items)).getD
          (lw.view env.enableIpv4 env.enableIpv6 (leaseKey env l))) = some l := by
    intro l
    rw [LeaseWatcher.mem_leases_iff hk, ← hafter, leaseKey]
  constructor
  · intro h n hn hget o ho hgone l l' hl hl' heq
    have hl₁ := (hstored l).mp ((h l).mpr (mem_leasesOf.mpr ⟨n, hn, hl⟩))
    rw [if_pos (mem_withdrawn.mpr ⟨o, ho, hgone, l', hl', heq.symm⟩)] at hl₁
    cases hl₁
  · intro h l
    rw [hstored]
    constructor
    · intro hl
      by_cases hgone : leaseKey env l ∈ withdrawn env old items
      · rw [if_pos hgone] at hl
        cases hl
      · rw [if_neg hgone] at hl
        exact mem_of_announced hview hsame hgone hl
    · intro hl
      rw [if_neg (notMem_withdrawn hold hsame h hl)]
      exact announced_of_mem hview hsame hnew hl

end Reached

/-! ## The IPv4-only manager -/

section Ipv4

variable {env : EventEnv}

/-- The pod CIDR of a node is the subnet of its lease. -/
theorem ipv4Cidr_of_view (h4 : env.enableIpv4 = true) {n : Node} {l : Lease}
    (h : nodeView env n = some l) : ipv4Cidr n = .ok (some l.subnet) := by
  have hspec := (nodeToLease_spec (nodeView_eq_some.mp h).2).2.1
  rwa [h4, if_pos rfl] at hspec

theorem leaseKey_ipv4 (h4 : env.enableIpv4 = true) (h6 : env.enableIpv6 = false) (l : Lease) :
    leaseKey env l = (some l.subnet, none) := by
  rw [leaseKey, h4, h6]
  rfl

theorem leaseKey_eq_iff_ipv4Cidr (h4 : env.enableIpv4 = true) (h6 : env.enableIpv6 = false)
    {a b : Node} {l l' : Lease} (ha : nodeView env a = some l) (hb : nodeView env b = some l') :
    leaseKey env l = leaseKey env l' ↔ ipv4Cidr a = ipv4Cidr b := by
  rw [leaseKey_ipv4 h4 h6, leaseKey_ipv4 h4 h6, ipv4Cidr_of_view h4 ha, ipv4Cidr_of_view h4 hb]
  simp

theorem peerList_of_ipv4 (h4 : env.enableIpv4 = true) (h6 : env.enableIpv6 = false)
    {nodes : List Node} (hnames : Distinct Node.name nodes)
    (hmanaged : ∀ n ∈ nodes, isManaged env n = true ∧ ∃ l, nodeToLease env n = .ok l)
    (hcidr : ∀ a ∈ nodes, ∀ b ∈ nodes, a ≠ b → ipv4Cidr a ≠ ipv4Cidr b) :
    PeerList env nodes := by
  refine ⟨hnames, fun n hn => ?_, fun a ha b hb l l' hl hl' heq => ?_⟩
  · obtain ⟨hm, l, hl⟩ := hmanaged n hn
    rw [nodeView_eq_some.mpr ⟨hm, hl⟩]
    exact Option.some_ne_none l
  · by_contra hne
    exact hcidr a ha b hb hne ((leaseKey_eq_iff_ipv4Cidr h4 h6 hl hl').mp heq)

theorem isOwn_eq_false_of_ipv4Cidr (h4 : env.enableIpv4 = true) (h6 : env.enableIpv6 = false)
    {own : Lease} {n : Node} {l : Lease} (hv : nodeView env n = some l)
    (hown : ipv4Cidr n ≠ .ok (some own.subnet)) : isOwn own l = false := by
  have hflags := nodeView_flags hv
  rw [h4, h6] at hflags
  rw [isOwn_eq_false_iff hflags]
  intro heq
  have hsub : l.subnet = own.subnet := by simpa [Lease.key] using heq
  exact hown (hsub ▸ ipv4Cidr_of_view h4 hv)

/-- **When a fresh list reaches the watcher.**  For an IPv4-only manager whose nodes are
all managed and convertible, with one name and one pod CIDR each, and unchanged where
they are in both lists: a watcher with the leases of the old store ends up with exactly
the leases of the new list, if and only if no node that is new to the store has the pod
CIDR of a node that the list no longer has. -/
theorem relist_reaches_list_iff (h4 : env.enableIpv4 = true) (h6 : env.enableIpv6 = false)
    {old : NodeStore} {items : List Node} {lw : LeaseWatcher}
    (hnames : Distinct Node.name items)
    (hmanaged : ∀ n ∈ old.nodes ++ items, isManaged env n = true ∧ ∃ l, nodeToLease env n = .ok l)
    (hcidrOld : ∀ a ∈ old.nodes, ∀ b ∈ old.nodes, a ≠ b → ipv4Cidr a ≠ ipv4Cidr b)
    (hcidrNew : ∀ a ∈ items, ∀ b ∈ items, a ≠ b → ipv4Cidr a ≠ ipv4Cidr b)
    (hsame : ∀ n ∈ items, ∀ o ∈ old.nodes, n.name = o.name → n = o)
    (hlw : lw.leases.Perm (leasesOf env old.nodes))
    (hown : ∀ n ∈ old.nodes ++ items, ipv4Cidr n ≠ .ok (some lw.ownLease.subnet)) :
    (∀ l, l ∈ (lw.update (reconcileRelist env old items)).1.leases ↔ l ∈ leasesOf env items) ↔
      ∀ n ∈ items, n.name ∉ old.nodes.map Node.name → ∀ o ∈ old.nodes,
        o.name ∉ items.map Node.name → ipv4Cidr n ≠ ipv4Cidr o := by
  have hpeersOld := peerList_of_ipv4 h4 h6 old.distinct
    (fun n hn => hmanaged n (List.mem_append_left _ hn)) hcidrOld
  have hpeersNew := peerList_of_ipv4 h4 h6 hnames
    (fun n hn => hmanaged n (List.mem_append_right _ hn)) hcidrNew
  have hforeign : ∀ l ∈ leasesOf env old.nodes ++ leasesOf env items,
      isOwn lw.ownLease l = false := by
    intro l hl
    rw [leasesOf, leasesOf, ← List.filterMap_append] at hl
    obtain ⟨n, hn, hv⟩ := List.mem_filterMap.mp hl
    exact isOwn_eq_false_of_ipv4Cidr h4 h6 hv (hown n hn)
  rw [relist_leases (Or.inl h4) hpeersOld hpeersNew hsame hlw hforeign]
  constructor
  · intro h n hn hfresh o ho hgone
    obtain ⟨hm, l, hl⟩ := hmanaged n (List.mem_append_right _ hn)
    obtain ⟨hm', l', hl'⟩ := hmanaged o (List.mem_append_left _ ho)
    have hv := nodeView_eq_some.mpr ⟨hm, hl⟩
    have hv' := nodeView_eq_some.mpr ⟨hm', hl'⟩
    rw [ne_eq, ← leaseKey_eq_iff_ipv4Cidr h4 h6 hv hv']
    refine h n hn ?_ o ho hgone l l' hv hv'
    exact lookup_eq_none_iff.mpr hfresh
  · intro h n hn hget o ho hgone l l' hl hl'
    rw [ne_eq, leaseKey_eq_iff_ipv4Cidr h4 h6 hl hl']
    exact h n hn (lookup_eq_none_iff.mp hget) o ho hgone

end Ipv4

/-- The store with node `x` of pod CIDR `10.0.1.0/24` only. -/
def storeOfX : NodeStore := (NodeStore.new.put (managedNode "x" "10.0.1.0/24")).1

theorem storeOfX_nodes : storeOfX.nodes = [managedNode "x" "10.0.1.0/24"] := rfl

/-- A watcher that holds the lease of `x`. -/
def watcherOfX : LeaseWatcher := ⟨v4Lease 0x0a00ff00, leasesOf v4Env storeOfX.nodes⟩

/-- Node `x` replaced by a node `y`: all that is asked of the two lists holds. -/
theorem replaced_by_y {cidr : String} {l : Lease}
    (hl : nodeToLease v4Env (managedNode "y" cidr) = .ok l)
    (hy : ipv4Cidr (managedNode "y" cidr) ≠ .ok (some watcherOfX.ownLease.subnet)) :
    (∀ n ∈ storeOfX.nodes ++ [managedNode "y" cidr],
      isManaged v4Env n = true ∧ ∃ l, nodeToLease v4Env n = .ok l) ∧
    (∀ n ∈ [managedNode "y" cidr], ∀ o ∈ storeOfX.nodes, n.name = o.name → n = o) ∧
    ∀ n ∈ storeOfX.nodes ++ [managedNode "y" cidr],
      ipv4Cidr n ≠ .ok (some watcherOfX.ownLease.subnet) := by
  have hx : ipv4Cidr (managedNode "x" "10.0.1.0/24") ≠ .ok (some watcherOfX.ownLease.subnet) := by
    rintro ⟨⟩
  refine ⟨fun n hn => ?_, fun n hn o ho hname => ?_, fun n hn => ?_⟩
  · rcases List.mem_pair.mp hn with rfl | rfl
    · exact ⟨rfl, _, rfl⟩
    · exact ⟨rfl, l, hl⟩
  · rw [List.mem_singleton.mp hn, List.mem_singleton.mp ho] at hname
    exact absurd hname (by simp [Node.name, managedNode])
  · rcases List.mem_pair.mp hn with rfl | rfl
    · exact hx
    · exact hy

/-- A node with a pod CIDR of its own takes the place of `x`. -/
theorem relist_reaches_replacement :
    watcherOfX.leases.Perm (leasesOf v4Env storeOfX.nodes) ∧
      ∀ l, l ∈ (watcherOfX.update
          (reconcileRelist v4Env storeOfX [managedNode "y" "10.0.2.0/24"])).1.leases ↔
        l ∈ leasesOf v4Env [managedNode "y" "10.0.2.0/24"] := by
  obtain ⟨hmanaged, hsame, hown⟩ := replaced_by_y
    (rfl : nodeToLease v4Env (managedNode "y" "10.0.2.0/24") = .ok _) (by rintro ⟨⟩)
  have hnames : Distinct Node.name [managedNode "y" "10.0.2.0/24"] := List.nodup_singleton _
  have hlw : watcherOfX.leases.Perm (leasesOf v4Env storeOfX.nodes) := List.Perm.refl _
  have hiff := @relist_reaches_list_iff v4Env rfl rfl _ _ watcherOfX hnames hmanaged
    (by simp [storeOfX_nodes]) (by simp) hsame hlw hown
  refine ⟨hlw, hiff.mpr ?_⟩
  have hx : ipv4Cidr (managedNode "x" "10.0.1.0/24") = .ok (some ⟨⟨0x0a000100⟩, 24⟩) := rfl
  have hy : ipv4Cidr (managedNode "y" "10.0.2.0/24") = .ok (some ⟨⟨0x0a000200⟩, 24⟩) := rfl
  intro n hn _ o ho _
  rw [List.mem_singleton.mp hn, List.mem_singleton.mp ho, hx, hy]
  simp

/-- A node replaced by another one with its pod CIDR loses its lease. -/
theorem handed_over_subnet_is_lost :
    ¬ ∀ (env : EventEnv) (old : NodeStore) (items : List Node) (lw : LeaseWatcher),
      env.enableIpv4 = true → env.enableIpv6 = false → Distinct Node.name items →
      (∀ n ∈ old.nodes ++ items, isManaged env n = true ∧ ∃ l, nodeToLease env n = .ok l) →
      (∀ a ∈ old.nodes, ∀ b ∈ old.nodes, a ≠ b → ipv4Cidr a ≠ ipv4Cidr b) →
      (∀ a ∈ items, ∀ b ∈ items, a ≠ b → ipv4Cidr a ≠ ipv4Cidr b) →
      (∀ n ∈ items, ∀ o ∈ old.nodes, n.name = o.name → n = o) →
      lw.leases.Perm (leasesOf env old.nodes) →
      (∀ n ∈ old.nodes ++ items, ipv4Cidr n ≠ .ok (some lw.ownLease.subnet)) →
      ∀ l, l ∈ (lw.update (reconcileRelist env old items)).1.leases ↔ l ∈ leasesOf env items := by
  intro h
  obtain ⟨hmanaged, hsame, hown⟩ := replaced_by_y
    (rfl : nodeToLease v4Env (managedNode "y" "10.0.1.0/24") = .ok _) (by rintro ⟨⟩)
  have hall := h v4Env storeOfX [managedNode "y" "10.0.1.0/24"] watcherOfX rfl rfl
    (List.nodup_singleton _) hmanaged (by simp [storeOfX_nodes]) (by simp) hsame
    (List.Perm.refl _) hown { v4Lease 0x0a000100 with attrs := { publicIp := ⟨0xc0a80001⟩ } }
  exact absurd hall (by decide)

end Flannel
