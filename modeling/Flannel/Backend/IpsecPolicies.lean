import Flannel.Backend.Ipsec
import Flannel.Lease.Emitted
import Flannel.Lib.Run

/-!
# The policies of the stored leases

A peer has three policies: out of the own subnet into the peer's, and back, once for the
host and once for what it forwards.  The selector of each is the two subnets and the
direction, so a lease that is announced again with another public address finds its old
policies by their selectors and replaces the templates.  A removal finds them by the
stored lease.  Nothing of an earlier version is left, and in a run from an empty kernel the
policies are those of the stored leases (`PoliciesFollow`).

Deleting gives up at the first policy that is not there.  After a complete addition that
is no loss, but a kernel where only some of the three are left --- because the addition
itself gave up, or because someone else deleted one --- keeps those that come after a
missing one.
-/

namespace Flannel

open KeyedList LeaseWatcher Xfrm

/-! ## Selectors -/

namespace Xfrm

theorem addr_v4_inj {a b : IP4} : addr (.v4 a) = addr (.v4 b) ↔ a = b := by
  refine ⟨fun h => ?_, fun h => h ▸ rfl⟩
  have hval : BitVec.extractLsb' 96 32 (a.val ++ 0#96) = BitVec.extractLsb' 96 32 (b.val ++ 0#96) :=
    congrArg (BitVec.extractLsb' 96 32) h
  rw [BitVec.extractLsb'_append_eq_left, BitVec.extractLsb'_append_eq_left] at hval
  cases a
  cases b
  exact congrArg IP4.mk hval

end Xfrm

/-- A prefix length fits into a byte. -/
theorem prefixByte_inj {m n : Nat} (hm : m ≤ 32) (hn : n ≤ 32) :
    UInt8.ofNat m = UInt8.ofNat n ↔ m = n := by
  refine ⟨fun h => ?_, fun h => h ▸ rfl⟩
  have hnat := congrArg UInt8.toNat h
  rw [UInt8.toNat_ofNat', UInt8.toNat_ofNat'] at hnat
  omega

/-- The three policies of a peer, in the order in which they are added and deleted. -/
def peerPolicies (localLease remoteLease : Lease) : List XfrmPolicySpec :=
  [policySpec localLease remoteLease dirOut defaultReqId,
    policySpec remoteLease localLease dirIn defaultReqId,
    policySpec remoteLease localLease dirFwd defaultReqId]

/-- A lease of an IPv4-only ipsec node. -/
structure Lease.IsIpsec (l : Lease) : Prop where
  flags : l.HasFlags true false
  backendType : l.attrs.backendType = "ipsec"
  prefixLen : l.subnet.prefixLen ≤ 32

section Selectors

variable {own l l' a b : Lease} {x y : XfrmPolicySpec}

theorem nodup_policyIds (own l : Lease) : ((peerPolicies own l).map policyIdMsg).Nodup := by
  simp [peerPolicies, policyIdMsg, policySpec, dirOut, dirIn, dirFwd]

/-- The outward policies of two peers. -/
theorem policyId_dst_inj (ha : a.subnet.prefixLen ≤ 32) (hb : b.subnet.prefixLen ≤ 32)
    (dir : UInt8) (reqId : Nat) :
    policyIdMsg (policySpec own a dir reqId) = policyIdMsg (policySpec own b dir reqId) ↔
      a.subnet = b.subnet := by
  simp only [policyIdMsg, policySpec, fillSelector, XfrmUserpolicyId.mk.injEq,
    XfrmSelector.mk.injEq, and_true, true_and, addr_v4_inj, prefixByte_inj ha hb]
  exact ⟨fun h => IP4Net.ext h.1 h.2, fun h => h ▸ ⟨rfl, rfl⟩⟩

/-- The inward policies of two peers. -/
theorem policyId_src_inj (ha : a.subnet.prefixLen ≤ 32) (hb : b.subnet.prefixLen ≤ 32)
    (dir : UInt8) (reqId : Nat) :
    policyIdMsg (policySpec a own dir reqId) = policyIdMsg (policySpec b own dir reqId) ↔
      a.subnet = b.subnet := by
  simp only [policyIdMsg, policySpec, fillSelector, XfrmUserpolicyId.mk.injEq,
    XfrmSelector.mk.injEq, and_true, true_and, addr_v4_inj, prefixByte_inj ha hb, familyOf]
  exact ⟨fun h => IP4Net.ext h.1 h.2, fun h => h ▸ ⟨rfl, rfl⟩⟩

theorem policyId_ne_of_dir {c d : Lease} {dir dir' : UInt8} (hdir : dir ≠ dir') (reqId : Nat) :
    policyIdMsg (policySpec a b dir reqId) ≠ policyIdMsg (policySpec c d dir' reqId) :=
  fun h => hdir (congrArg XfrmUserpolicyId.dir h)

/-- **A policy of one peer takes the place of a policy of another** exactly if they have the
same subnet. -/
theorem policyId_mem_iff (hl : l.subnet.prefixLen ≤ 32) (hl' : l'.subnet.prefixLen ≤ 32)
    (hx : x ∈ peerPolicies own l') :
    policyIdMsg x ∈ (peerPolicies own l).map policyIdMsg ↔ l'.subnet = l.subnet := by
  have houtIn : dirOut ≠ dirIn := by decide
  have houtFwd : dirOut ≠ dirFwd := by decide
  have hinFwd : dirIn ≠ dirFwd := by decide
  simp only [peerPolicies, List.mem_cons, List.not_mem_nil, or_false] at hx
  simp only [peerPolicies, List.map_cons, List.map_nil, List.mem_cons, List.not_mem_nil, or_false]
  rcases hx with rfl | rfl | rfl
  · simp only [policyId_ne_of_dir houtIn, policyId_ne_of_dir houtFwd, or_false]
    exact policyId_dst_inj hl' hl _ _
  · simp only [policyId_ne_of_dir houtIn.symm, policyId_ne_of_dir hinFwd, or_false, false_or]
    exact policyId_src_inj hl' hl _ _
  · simp only [policyId_ne_of_dir houtFwd.symm, policyId_ne_of_dir hinFwd.symm, false_or]
    exact policyId_src_inj hl' hl _ _

end Selectors

/-! ## Adding and deleting -/

section Operations

variable {ps : XfrmPolicies} {own l : Lease}

theorem addXfrmPolicy_eq (ps : XfrmPolicies) (a b : Lease) (dir : UInt8) (reqId : Nat) :
    addXfrmPolicy ps a b dir reqId =
      (Function.update ps (policyIdMsg (policySpec a b dir reqId))
        (some (userTmpl (policySpec a b dir reqId))), true) := by
  have hmsg : policyInfoMsg (policySpec a b dir reqId) =
      (policyIdMsg (policySpec a b dir reqId), userTmpl (policySpec a b dir reqId)) := rfl
  cases hget : ps (policyIdMsg (policySpec a b dir reqId)) with
  | none => simp only [addXfrmPolicy, getPolicy, hget, addPolicy, hmsg]
  | some t => simp only [addXfrmPolicy, getPolicy, hget, updatePolicy, hmsg]

/-- Adding does not fail, and it writes the three policies. -/
theorem addIpsecPolicies_eq (ps : XfrmPolicies) (own l : Lease) :
    addIpsecPolicies ps own l defaultReqId =
      (Table.writeAll policyIdMsg userTmpl ps (peerPolicies own l), true) := by
  simp only [addIpsecPolicies, addXfrmPolicy_eq, andThen, if_true]
  rfl

theorem andThen_assoc (r : XfrmPolicies × Bool) (f g : XfrmPolicies → XfrmPolicies × Bool) :
    andThen (andThen r f) g = andThen r fun ps => andThen (f ps) g := by
  obtain ⟨ps, ok⟩ := r
  cases ok with
  | true => rfl
  | false => rfl

/-- One deletion, and what is done after it. -/
theorem andThen_delXfrmPolicy {a b : Lease} {dir : UInt8}
    {next : XfrmPolicies → XfrmPolicies × Bool} {ids : List XfrmUserpolicyId}
    (hnext : ∀ ps, (next ps).1 = Table.deletePresent ps ids) (ps : XfrmPolicies) :
    (andThen (delXfrmPolicy ps a b dir defaultReqId) next).1 =
      Table.deletePresent ps (policyIdMsg (policySpec a b dir defaultReqId) :: ids) := by
  cases hget : ps (policyIdMsg (policySpec a b dir defaultReqId)) with
  | none =>
    rw [Table.deletePresent_of_absent hget]
    simp [andThen, delXfrmPolicy, delPolicy, hget]
  | some t =>
    rw [Table.deletePresent_cons (by simp [hget]), ← hnext]
    simp [andThen, delXfrmPolicy, delPolicy, hget]

theorem delXfrmPolicy_eq (a b : Lease) (dir : UInt8) (ps : XfrmPolicies) :
    (delXfrmPolicy ps a b dir defaultReqId).1 =
      Table.deletePresent ps [policyIdMsg (policySpec a b dir defaultReqId)] := by
  cases hget : ps (policyIdMsg (policySpec a b dir defaultReqId)) with
  | none =>
    rw [Table.deletePresent_of_absent hget]
    simp [delXfrmPolicy, delPolicy, hget]
  | some t =>
    rw [Table.deletePresent_cons (by simp [hget])]
    simp [delXfrmPolicy, delPolicy, hget, Table.deletePresent]

/-- Deleting takes the policies in order and stops at the first that is missing. -/
theorem deleteIpsecPolicies_eq (ps : XfrmPolicies) (own l : Lease) :
    (deleteIpsecPolicies ps own l defaultReqId).1 =
      Table.deletePresent ps ((peerPolicies own l).map policyIdMsg) := by
  rw [deleteIpsecPolicies, andThen_assoc]
  exact andThen_delXfrmPolicy (andThen_delXfrmPolicy (delXfrmPolicy_eq l own dirFwd)) ps

end Operations

/-! ## A removal -/

/-- Whether the kernel has the policies of a peer, up to some point of the order in which they
are added. -/
def LeadingPolicies (ps : XfrmPolicies) (own l : Lease) : Prop :=
  (peerPolicies own l).Pairwise fun x y =>
    ps (policyIdMsg x) = none → ps (policyIdMsg y) = none

/-- **What a removal leaves.**  For every kernel and every `Removed` event of an ipsec peer:
none of its three policies is left, and those of the other peers are as they were, exactly
if none of the three is there while an earlier one, in the order out, in, forward, is
missing. -/
theorem removed_peer_leaves_no_policy_iff (net : IPsecNetwork) (s : IpsecState) (l : Lease)
    (htype : l.attrs.backendType = "ipsec") (hlen : l.subnet.prefixLen ≤ 32)
    (hpeer : l.subnet ≠ net.lease.subnet) :
    ((∀ x ∈ peerPolicies net.lease l,
        (handleIpsecEvents net s [⟨.removed, l⟩]).policies (policyIdMsg x) = none) ∧
      ∀ l' : Lease, l'.subnet.prefixLen ≤ 32 → l'.subnet ≠ l.subnet →
        ∀ x ∈ peerPolicies net.lease l',
          (handleIpsecEvents net s [⟨.removed, l⟩]).policies (policyIdMsg x) =
            s.policies (policyIdMsg x)) ↔
      LeadingPolicies s.policies net.lease l := by
  have hpolicies : (handleIpsecEvents net s [⟨.removed, l⟩]).policies =
      Table.deletePresent s.policies ((peerPolicies net.lease l).map policyIdMsg) := by
    simp only [handleIpsecEvents, List.foldl_cons, List.foldl_nil, handleIpsecEvent, htype, ne_eq,
      not_true_eq_false, if_false, hpeer, deleteIpsecPolicies_eq]
  have hothers : ∀ l' : Lease, l'.subnet.prefixLen ≤ 32 → l'.subnet ≠ l.subnet →
      ∀ x ∈ peerPolicies net.lease l',
        Table.deletePresent s.policies ((peerPolicies net.lease l).map policyIdMsg)
          (policyIdMsg x) = s.policies (policyIdMsg x) := by
    intro l' hlen' hne x hx
    exact Table.deletePresent_of_notMem fun hmem =>
      hne ((policyId_mem_iff hlen hlen' hx).mp hmem)
  have hgone := @Table.deletePresent_eq_none_iff _ _ s.policies _ _ (nodup_policyIds net.lease l)
  rw [List.forall_mem_map, List.pairwise_map] at hgone
  rw [hpolicies, LeadingPolicies, ← hgone]
  exact and_iff_left hothers

/-- An ipsec lease of the `/24` at an address, with a public address. -/
def ipsecLease (addr publicIp : BitVec 32) : Lease :=
  { v4Lease addr with attrs := { publicIp := ⟨publicIp⟩, backendType := "ipsec" } }

/-- A node with the subnet `10.1.0.0/24`. -/
def ipsecNode : IPsecNetwork := ⟨ipsecLease 0x0a010000 0xc0a80003, false, ""⟩

/-- Its peer with the subnet `10.2.2.0/24`. -/
def ipsecPeer : Lease := ipsecLease 0x0a020200 0xc0a80001

/-- Some of the policies of the peer. -/
def somePolicies (keep : XfrmPolicySpec → Bool) : IpsecState where
  policies := Table.writeAll policyIdMsg userTmpl (fun _ => none)
    ((peerPolicies ipsecNode.lease ipsecPeer).filter keep)
  connections := fun _ => none

/-- After an addition that gave up at the last policy, the removal takes the other two. -/
theorem removed_peer_leaves_no_policy_half_added :
    LeadingPolicies (somePolicies fun x => x.dir ≠ dirFwd).policies ipsecNode.lease ipsecPeer ∧
      ∀ x ∈ peerPolicies ipsecNode.lease ipsecPeer,
        (handleIpsecEvents ipsecNode (somePolicies fun x => x.dir ≠ dirFwd)
          [⟨.removed, ipsecPeer⟩]).policies (policyIdMsg x) = none := by
  have hleading : LeadingPolicies (somePolicies fun x => x.dir ≠ dirFwd).policies
      ipsecNode.lease ipsecPeer := by
    unfold LeadingPolicies
    decide
  refine ⟨hleading, ?_⟩
  exact ((removed_peer_leaves_no_policy_iff ipsecNode (somePolicies fun x => x.dir ≠ dirFwd)
    ipsecPeer rfl (by decide) (by decide)).mpr hleading).1

/-- With the outward policy gone, the removal leaves the other two. -/
theorem inward_policy_is_left :
    ∃ x ∈ peerPolicies ipsecNode.lease ipsecPeer, x.dir = dirIn ∧
      (handleIpsecEvents ipsecNode (somePolicies fun x => x.dir ≠ dirOut)
        [⟨.removed, ipsecPeer⟩]).policies (policyIdMsg x) = some (userTmpl x) :=
  ⟨policySpec ipsecPeer ipsecNode.lease dirIn defaultReqId, by decide, rfl, by decide⟩

/-! ## The watcher and the policies -/

/-- The watcher, and what the loop it feeds has set up. -/
structure IpsecRun where
  watcher : LeaseWatcher
  state : IpsecState

/-- Before the first event, with no policies and no connections. -/
def IpsecRun.start (own : Lease) : IpsecRun :=
  ⟨LeaseWatcher.new own, ⟨fun _ => none, fun _ => none⟩⟩

/-- The events that `update` emits go to `handle_subnet_events`. -/
def ipsecStep (net : IPsecNetwork) (s : IpsecRun) (e : Event) : Option IpsecRun :=
  let u := s.watcher.update [e]
  some ⟨u.1, handleIpsecEvents net s.state u.2⟩

/-- The watcher is that of the node, and all its leases are those of ipsec peers. -/
structure IpsecRun.IsOf (net : IPsecNetwork) (s : IpsecRun) : Prop where
  own : s.watcher.ownLease = net.lease
  keyed : s.watcher.Keyed true false
  ipsec : ∀ l ∈ s.watcher.leases, l.IsIpsec

theorem isOf_start (net : IPsecNetwork) : (IpsecRun.start net.lease).IsOf net :=
  ⟨rfl, keyed_new net.lease, by simp [IpsecRun.start]⟩

/-- What a step does. -/
inductive IpsecEffect (net : IPsecNetwork) (s : IpsecRun) (e : Event) : IpsecRun → Prop where
  | nothing (hown : isOwn s.watcher.ownLease e.lease = true) : IpsecEffect net s e s
  | added (lw : LeaseWatcher) (hown : isOwn s.watcher.ownLease e.lease = false)
      (htype : e.eventType = .added)
      (hleases : ∀ x, x ∈ lw.leases ↔
        x = e.lease ∨ x ∈ s.watcher.leases ∧ x.key true false ≠ e.lease.key true false) :
      IpsecEffect net s e ⟨lw,
        ⟨Table.writeAll policyIdMsg userTmpl s.state.policies (peerPolicies net.lease e.lease),
          loadConnection s.state.connections net.espProposal net.lease e.lease defaultReqId.repr
            net.udpEncap⟩⟩
  | removed (lw : LeaseWatcher) (l : Lease) (htype : e.eventType = .removed) (hl : l.IsIpsec)
      (hstored : l ∈ s.watcher.leases ∨
        ∀ x ∈ s.watcher.leases, x.key true false ≠ l.key true false)
      (hleases : ∀ x, x ∈ lw.leases ↔
        x ∈ s.watcher.leases ∧ x.key true false ≠ l.key true false) :
      IpsecEffect net s e ⟨lw,
        ⟨Table.deletePresent s.state.policies ((peerPolicies net.lease l).map policyIdMsg),
          unloadCharonConnection s.state.connections net.lease l⟩⟩

section Step

variable {net : IPsecNetwork} {s s' : IpsecRun} {e : Event} {l : Lease} {lw : LeaseWatcher}
  {state : IpsecState}

theorem key_eq_iff_subnet_eq (l l' : Lease) :
    l.key true false = l'.key true false ↔ l.subnet = l'.subnet := by
  simp [Lease.key]

/-- The handler on an `Added` event of a peer. -/
theorem handle_ipsec_added (hl : l.IsIpsec) (hpeer : l.subnet ≠ net.lease.subnet) :
    handleIpsecEvent net state ⟨.added, l⟩ =
      ⟨Table.writeAll policyIdMsg userTmpl state.policies (peerPolicies net.lease l),
        loadConnection state.connections net.espProposal net.lease l defaultReqId.repr
          net.udpEncap⟩ := by
  simp only [handleIpsecEvent, hl.backendType, ne_eq, not_true_eq_false, if_false, hpeer,
    addIpsecPolicies_eq]

/-- The handler on a `Removed` event of a peer. -/
theorem handle_ipsec_removed (hl : l.IsIpsec) (hpeer : l.subnet ≠ net.lease.subnet) :
    handleIpsecEvent net state ⟨.removed, l⟩ =
      ⟨Table.deletePresent state.policies ((peerPolicies net.lease l).map policyIdMsg),
        unloadCharonConnection state.connections net.lease l⟩ := by
  simp only [handleIpsecEvent, hl.backendType, ne_eq, not_true_eq_false, if_false, hpeer,
    deleteIpsecPolicies_eq]

/-- **One event**, for the policies and the connections. -/
theorem ipsecStep_cases (h : s.IsOf net) (he : e.lease.IsIpsec)
    (hstep : ipsecStep net s e = some s') : s'.IsOf net ∧ IpsecEffect net s e s' := by
  obtain ⟨hkeyed, hemits⟩ := update_one h.keyed he.flags
  have hown := update_ownLease s.watcher [e]
  rw [h.own] at hown
  rw [← Option.some.inj hstep, handleIpsecEvents]
  generalize (s.watcher.update [e]).1 = lw at hkeyed hemits hown
  generalize (s.watcher.update [e]).2 = es at hemits
  have hpeer : isOwn s.watcher.ownLease e.lease = false → e.lease.subnet ≠ net.lease.subnet := by
    rw [h.own, isOwn_eq_false_iff he.flags, ne_eq, key_eq_iff_subnet_eq]
    exact id
  cases hemits with
  | nothing hskipped hsame =>
    subst hsame
    exact ⟨h, .nothing hskipped⟩
  | added hforeign htype hleases =>
    rw [List.foldl_cons, List.foldl_nil, handle_ipsec_added he (hpeer hforeign)]
    refine ⟨⟨hown, hkeyed, fun x hx => ?_⟩, .added lw hforeign htype hleases⟩
    rcases (hleases x).mp hx with rfl | ⟨hx, -⟩
    · exact he
    · exact h.ipsec x hx
  | removed hforeign htype l hflags hkey hstored hleases =>
    have hl : l.IsIpsec := by
      rcases hstored with hin | ⟨rfl, -⟩
      · exact h.ipsec l hin
      · exact he
    have hsubnet : l.subnet ≠ net.lease.subnet := by
      rw [(key_eq_iff_subnet_eq _ _).mp hkey]
      exact hpeer hforeign
    rw [← hkey] at hleases hstored
    rw [List.foldl_cons, List.foldl_nil, handle_ipsec_removed hl hsubnet]
    exact ⟨⟨hown, hkeyed, fun x hx => h.ipsec x ((hleases x).mp hx).1⟩,
      .removed lw l htype hl (hstored.imp_right And.right) hleases⟩

end Step

/-! ## The policies of the stored leases -/

/-- The policies that the stored leases ask for. -/
def IpsecRun.Wanted (net : IPsecNetwork) (s : IpsecRun) (x : XfrmPolicySpec) : Prop :=
  ∃ l ∈ s.watcher.leases, x ∈ peerPolicies net.lease l

/-- The policies of the kernel are those of the stored leases. -/
structure PoliciesFollow (net : IPsecNetwork) (s : IpsecRun) : Prop where
  isOf : s.IsOf net
  holds : Table.Holds policyIdMsg userTmpl s.state.policies (s.Wanted net)

section Policies

variable {net : IPsecNetwork} {s s' : IpsecRun} {e : Event} {l : Lease} {lw : LeaseWatcher}
  {state : IpsecState}

/-- The wanted policies with the selectors of other peers. -/
theorem PoliciesFollow.wanted_other_iff (h : PoliciesFollow net s) (hl : l.IsIpsec)
    {x : XfrmPolicySpec} :
    s.Wanted net x ∧ policyIdMsg x ∉ (peerPolicies net.lease l).map policyIdMsg ↔
      ∃ l', (l' ∈ s.watcher.leases ∧ l'.key true false ≠ l.key true false) ∧
        x ∈ peerPolicies net.lease l' := by
  have hkey : ∀ l' ∈ s.watcher.leases, x ∈ peerPolicies net.lease l' →
      (policyIdMsg x ∈ (peerPolicies net.lease l).map policyIdMsg ↔
        l'.key true false = l.key true false) := by
    intro l' hl' hx
    rw [key_eq_iff_subnet_eq]
    exact policyId_mem_iff hl.prefixLen (h.isOf.ipsec l' hl').prefixLen hx
  constructor
  · rintro ⟨⟨l', hl', hx⟩, hne⟩
    exact ⟨l', ⟨hl', fun heq => hne ((hkey l' hl' hx).mpr heq)⟩, hx⟩
  · rintro ⟨l', ⟨hl', hne⟩, hx⟩
    exact ⟨⟨l', hl', hx⟩, fun hmem => hne ((hkey l' hl' hx).mp hmem)⟩

/-- An `Added` event writes the policies of its lease. -/
theorem PoliciesFollow.added (h : PoliciesFollow net s) (hl : l.IsIpsec)
    (hleases : ∀ x, x ∈ lw.leases ↔
      x = l ∨ x ∈ s.watcher.leases ∧ x.key true false ≠ l.key true false) :
    Table.Holds policyIdMsg userTmpl
      (Table.writeAll policyIdMsg userTmpl s.state.policies (peerPolicies net.lease l))
      (IpsecRun.Wanted net ⟨lw, state⟩) := by
  refine h.holds.writeAll (nodup_policyIds net.lease l) fun x => ?_
  rw [h.wanted_other_iff hl]
  constructor
  · rintro ⟨l', hl', hx⟩
    rcases (hleases l').mp hl' with rfl | hl'
    · exact Or.inl hx
    · exact Or.inr ⟨l', hl', hx⟩
  · rintro (hx | ⟨l', hl', hx⟩)
    · exact ⟨l, (hleases l).mpr (Or.inl rfl), hx⟩
    · exact ⟨l', (hleases l').mpr (Or.inr hl'), hx⟩

/-- A `Removed` event deletes the policies of its lease: either all three are there, or none
of them is. -/
theorem PoliciesFollow.removed (h : PoliciesFollow net s) (hl : l.IsIpsec)
    (hstored : l ∈ s.watcher.leases ∨
      ∀ x ∈ s.watcher.leases, x.key true false ≠ l.key true false)
    (hleases : ∀ x, x ∈ lw.leases ↔ x ∈ s.watcher.leases ∧ x.key true false ≠ l.key true false) :
    Table.Holds policyIdMsg userTmpl
      (Table.deletePresent s.state.policies ((peerPolicies net.lease l).map policyIdMsg))
      (IpsecRun.Wanted net ⟨lw, state⟩) := by
  have hwanted : ∀ x, IpsecRun.Wanted net ⟨lw, state⟩ x ↔
      s.Wanted net x ∧ policyIdMsg x ∉ (peerPolicies net.lease l).map policyIdMsg := by
    intro x
    rw [h.wanted_other_iff hl]
    exact exists_congr fun l' => and_congr_left fun _ => hleases l'
  rcases hstored with hin | hout
  · have hpresent : ∀ id ∈ (peerPolicies net.lease l).map policyIdMsg,
        (s.state.policies id).isSome := by
      rw [List.forall_mem_map]
      intro x hx
      rw [(h.holds (policyIdMsg x) (userTmpl x)).mpr ⟨x, ⟨l, hin, hx⟩, rfl, rfl⟩]
      rfl
    rw [Table.deletePresent_eq_deleteAll (nodup_policyIds net.lease l) hpresent]
    exact h.holds.deleteAll hwanted
  · have hforeign : ∀ x, s.Wanted net x →
        policyIdMsg x ∉ (peerPolicies net.lease l).map policyIdMsg := by
      rintro x ⟨l', hl', hx⟩
      exact ((h.wanted_other_iff hl).mpr ⟨l', ⟨hl', hout l' hl'⟩, hx⟩).2
    have habsent : s.state.policies
        (policyIdMsg (policySpec net.lease l dirOut defaultReqId)) = none := by
      refine Option.eq_none_iff_forall_ne_some.mpr fun t ht => ?_
      obtain ⟨x, hx, hid, -⟩ := (h.holds _ t).mp ht
      refine hforeign x hx ?_
      rw [hid]
      exact List.mem_map_of_mem List.mem_cons_self
    have hsame : IpsecRun.Wanted net ⟨lw, state⟩ = s.Wanted net := by
      ext x
      rw [hwanted x, and_iff_left_of_imp (hforeign x)]
    rw [peerPolicies, List.map_cons, Table.deletePresent_of_absent habsent, hsame]
    exact h.holds

/-- **One event.** -/
theorem PoliciesFollow.step (h : PoliciesFollow net s) (he : e.lease.IsIpsec)
    (hstep : ipsecStep net s e = some s') : PoliciesFollow net s' := by
  obtain ⟨hisOf, heffect⟩ := ipsecStep_cases h.isOf he hstep
  cases heffect with
  | nothing => exact h
  | added lw hforeign htype hleases => exact ⟨hisOf, h.added he hleases⟩
  | removed lw l _ hl hstored hleases => exact ⟨hisOf, h.removed hl hstored hleases⟩

end Policies

/-! ## Every run -/

theorem policiesFollow_start (net : IPsecNetwork) : PoliciesFollow net (.start net.lease) := by
  refine ⟨isOf_start net, ?_⟩
  have hwanted : (IpsecRun.start net.lease).Wanted net = fun _ => False := by
    ext x
    simp [IpsecRun.Wanted, IpsecRun.start]
  rw [hwanted]
  exact Table.holds_empty

/-- **The policies follow the leases** in every run of IPv4 ipsec events: after every event
the kernel has the three policies of each stored lease, with the templates for the public
addresses of the two leases, and no others. -/
theorem ipsec_policies_follow_leases (net : IPsecNetwork) (es : List Event)
    (hes : ∀ e ∈ es, e.lease.IsIpsec) (s : IpsecRun)
    (hrun : Run.run (ipsecStep net) (.start net.lease) es = some s) :
    ∀ id tmpl, s.state.policies id = some tmpl ↔
      ∃ l ∈ s.watcher.leases, ∃ x ∈ peerPolicies net.lease l,
        policyIdMsg x = id ∧ userTmpl x = tmpl := by
  have hs : PoliciesFollow net s :=
    Run.run_invariant (fun s e t hP hQ hstep => hP.step hQ hstep) (policiesFollow_start net)
      (Run.along_of_forall hes) hrun
  intro id tmpl
  rw [hs.holds id tmpl]
  constructor
  · rintro ⟨x, ⟨l, hl, hx⟩, hid, htmpl⟩
    exact ⟨l, hl, x, hx, hid, htmpl⟩
  · rintro ⟨l, hl, x, hx, hid, htmpl⟩
    exact ⟨x, ⟨l, hl, hx⟩, hid, htmpl⟩

theorem ipsecLease_isIpsec (addr publicIp : BitVec 32) : (ipsecLease addr publicIp).IsIpsec :=
  ⟨⟨rfl, rfl⟩, rfl, by simp [ipsecLease, v4Lease]⟩

/-- The peer moves to another public address, and a subnet that was never there is removed. -/
theorem ipsec_policies_follow_leases_moved :
    ∃ s, Run.run (ipsecStep ipsecNode) (.start ipsecNode.lease)
        [⟨.added, ipsecPeer⟩, ⟨.added, ipsecLease 0x0a020200 0xc0a80002⟩,
          ⟨.removed, ipsecLease 0x0a030300 0xc0a80004⟩] = some s ∧
      s.watcher.leases = [ipsecLease 0x0a020200 0xc0a80002] ∧
      ∀ id tmpl, s.state.policies id = some tmpl ↔
        ∃ l ∈ s.watcher.leases, ∃ x ∈ peerPolicies ipsecNode.lease l,
          policyIdMsg x = id ∧ userTmpl x = tmpl := by
  refine ⟨_, rfl, by decide, ipsec_policies_follow_leases ipsecNode
    [⟨.added, ipsecPeer⟩, ⟨.added, ipsecLease 0x0a020200 0xc0a80002⟩,
      ⟨.removed, ipsecLease 0x0a030300 0xc0a80004⟩] (fun e he => ?_) _ rfl⟩
  simp only [List.mem_cons, List.not_mem_nil, or_false] at he
  rcases he with rfl | rfl | rfl
  · exact ipsecLease_isIpsec _ _
  · exact ipsecLease_isIpsec _ _
  · exact ipsecLease_isIpsec _ _

end Flannel
