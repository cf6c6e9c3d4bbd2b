import Flannel.Kube.Frames
import Flannel.Lib.Run

/-!
# The informer over whole runs

`run_node_informer` of `subnet/kube/informer.rs` lists the nodes, opens a WATCH, routes
its frames until the session ends, and lists again.  The two files before this one take
the list and the frames apart; here they are joined into one machine, and followed over
every run: failed lists, lists, frames, resyncs, sessions that end in any of the three
ways, and the cancellation.

A LIST brings every node of the cluster: the own one, nodes that flannel does not manage, and
nodes whose annotations give no lease.  All of them go into the store, and the watcher is to hold
the leases of those that are *peers*: managed, with a lease, and not the own one.  The nodes may
change in every way from one frame or list to the next --- address, backend data, pod CIDR,
marker.  What is asked of a run is only that a list has every name once and that a subnet belongs
to one peer at a time.

`informer_agrees_iff` is the exact statement for a single-stack manager: after every step the
watcher holds exactly the leases of the stored peers, if and only if every object that takes the
place of a stored one carries on with it (a peer stays one with its subnet; a node that
becomes a peer differs in what `lease_changed` compares), no `MODIFIED` frame is about a peer
that the store does not know, the object of a `DELETED` frame still has the subnet of the stored
peer, and no list hands the subnet of a peer that is gone to another node.
`missed_lease_stays_missed` says what happens when it goes wrong: nothing the informer does
later repairs it, as long as the object of the node stays the same.
-/

namespace Flannel

open KeyedList Replay Run

/-! ## The machine -/

/-- Where the loop of `run_node_informer` is. -/
inductive InformerPhase where
  /-- before the next LIST, or in the backoff in front of it -/
  | listing
  /-- in a WATCH session that has reached this resource version -/
  | watching (rv : Option String)
  | stopped
  deriving DecidableEq, Repr

/-- `WatchEnd`, without the cancellation. -/
inductive WatchEnd where
  | ended
  | gone
  | failed
  deriving DecidableEq, Repr

/-- The informer: the store with its sync signal, and the events handed to
`enqueue_lease_event` so far. -/
structure Informer where
  store : NodeStore
  synced : Bool
  phase : InformerPhase
  enqueued : List Event

/-- What can happen to the informer. -/
inductive InformerAction where
  | listFailed
  /-- LIST answered with these nodes and this resource version -/
  | listed (items : List Node) (rv : Option String)
  /-- a frame, with the resource version of its object -/
  | frame (event : WatchEvent) (rv : Option String)
  /-- the resync timer fired -/
  | resync
  /-- the WATCH could not be opened, or its stream ended -/
  | watchEnded (why : WatchEnd)
  | cancelled

namespace Informer

/-- The informer before its first LIST. -/
def new : Informer := ⟨NodeStore.new, false, .listing, []⟩

/-- One step of `run_node_informer` and `run_watch`; `none` when it cannot happen now. -/
def step (env : EventEnv) (s : Informer) : InformerAction → Option Informer
  | .listFailed =>
    match s.phase with
    | .listing => some s
    | _ => none
  | .listed items rv =>
    match s.phase with
    | .listing =>
      let (store, events) := relist env s.store items
      some ⟨store, true, .watching rv, s.enqueued ++ events⟩
    | _ => none
  | .frame event rv =>
    match s.phase with
    | .watching current =>
      let (store, evt) := dispatch env s.store event
      some { s with
        store := store
        phase := .watching (rv.or current)
        enqueued := s.enqueued ++ evt.toList }
    | _ => none
  | .resync =>
    match s.phase with
    | .watching _ => some { s with enqueued := s.enqueued ++ Flannel.resync env s.store }
    | _ => none
  | .watchEnded _ =>
    match s.phase with
    | .watching _ => some { s with phase := .listing }
    | _ => none
  | .cancelled =>
    match s.phase with
    | .stopped => none
    | _ => some { s with phase := .stopped }

/-- The store after a step, and what the step hands to the queue. -/
def effect (env : EventEnv) (store : NodeStore) : InformerAction → NodeStore × List Event
  | .listed items _ => relist env store items
  | .frame event _ => ((dispatch env store event).1, (dispatch env store event).2.toList)
  | .resync => (store, Flannel.resync env store)
  | .listFailed | .watchEnded _ | .cancelled => (store, [])

/-- **What a step does** to the store and the queue. -/
theorem effect_of_step {env : EventEnv} {s t : Informer} {a : InformerAction}
    (h : step env s a = some t) :
    t.store = (effect env s.store a).1 ∧ t.enqueued = s.enqueued ++ (effect env s.store a).2 := by
  cases a with
  | listFailed =>
    cases hp : s.phase <;> simp only [step, hp, Option.some.injEq, reduceCtorEq] at h
    subst h
    exact ⟨rfl, (List.append_nil _).symm⟩
  | listed items rv =>
    cases hp : s.phase <;> simp only [step, hp, Option.some.injEq, reduceCtorEq] at h
    subst h
    exact ⟨rfl, rfl⟩
  | frame event rv =>
    cases hp : s.phase <;> simp only [step, hp, Option.some.injEq, reduceCtorEq] at h
    subst h
    exact ⟨rfl, rfl⟩
  | resync =>
    cases hp : s.phase <;> simp only [step, hp, Option.some.injEq, reduceCtorEq] at h
    subst h
    exact ⟨rfl, rfl⟩
  | watchEnded why =>
    cases hp : s.phase <;> simp only [step, hp, Option.some.injEq, reduceCtorEq] at h
    subst h
    exact ⟨rfl, (List.append_nil _).symm⟩
  | cancelled =>
    cases hp : s.phase <;> simp only [step, hp, Option.some.injEq, reduceCtorEq] at h
    all_goals
      subst h
      exact ⟨rfl, (List.append_nil _).symm⟩

/-- The watcher that has processed everything the informer enqueued, in order. -/
def watcher (own : Lease) (s : Informer) : LeaseWatcher :=
  ((LeaseWatcher.new own).update s.enqueued).1

theorem watcher_of_step {env : EventEnv} (own : Lease) {s t : Informer} {a : InformerAction}
    (h : step env s a = some t) :
    t.watcher own = ((s.watcher own).update (effect env s.store a).2).1 := by
  rw [watcher, (effect_of_step h).2, LeaseWatcher.update_append]
  rfl

end Informer

/-! ## Peers -/

/-- The lease of a node that is a peer: the node is managed and has a lease, and that is not the
own one. -/
def peerView (env : EventEnv) (own : Lease) (n : Node) : Option Lease :=
  (nodeView env n).filter fun l => !isOwn own l

theorem peerView_eq_some {env : EventEnv} {own : Lease} {n : Node} {l : Lease} :
    peerView env own n = some l ↔ nodeView env n = some l ∧ isOwn own l = false := by
  simp [peerView, Option.filter_eq_some_iff]

/-- The subnet of a peer. -/
def peerSubnet (env : EventEnv) (own : Lease) (n : Node) : Option SubnetKey :=
  (peerView env own n).map (leaseKey env)

theorem peerSubnet_of_view {env : EventEnv} {own : Lease} {n : Node} {l : Lease}
    (h : peerView env own n = some l) : peerSubnet env own n = some (leaseKey env l) := by
  rw [peerSubnet, h, Option.map_some]

theorem peerSubnet_eq_some {env : EventEnv} {own : Lease} {n : Node} {k : SubnetKey} :
    peerSubnet env own n = some k ↔ ∃ l, peerView env own n = some l ∧ leaseKey env l = k :=
  Option.map_eq_some_iff

/-- The peers among these nodes have different subnets. -/
def Apart (env : EventEnv) (own : Lease) (nodes : List Node) : Prop :=
  ∀ a ∈ nodes, ∀ b ∈ nodes, ∀ k, peerSubnet env own a = some k → peerSubnet env own b = some k →
    a.name = b.name

/-- No other one of these nodes is a peer with the subnet of the node. -/
def Fits (env : EventEnv) (own : Lease) (nodes : List Node) (n : Node) : Prop :=
  ∀ o ∈ nodes, o.name ≠ n.name → ∀ k, peerSubnet env own o = some k → peerSubnet env own n ≠ some k

/-- The watcher holds exactly the leases of the peers in the store. -/
def AgreesOnPeers (env : EventEnv) (own : Lease) (store : NodeStore) (lw : LeaseWatcher) : Prop :=
  ∀ l, l ∈ lw.leases ↔ ∃ n ∈ store.nodes, peerView env own n = some l

/-- The watcher keeps one lease per subnet, for its own lease, and agrees with the store. -/
structure FollowsPeers (env : EventEnv) (own : Lease) (store : NodeStore) (lw : LeaseWatcher) :
    Prop where
  keyed : lw.Keyed env.enableIpv4 env.enableIpv6
  ownLease : lw.ownLease = own
  agrees : AgreesOnPeers env own store lw

/-- What becomes of a stored node when this object takes its place, if the watcher is to follow:
a peer stays one with its subnet, and a node that becomes a peer differs in what `lease_changed`
compares. -/
def Carries (env : EventEnv) (own : Lease) (old n : Node) : Prop :=
  match peerView env own old, peerView env own n with
  | none, none => True
  | none, some _ => leaseChanged env old n = true
  | some _, none => False
  | some l, some l' => leaseKey env l = leaseKey env l'

instance (env : EventEnv) (own : Lease) (nodes : List Node) : Decidable (Apart env own nodes) :=
  decidable_of_iff
    (∀ a ∈ nodes, ∀ b ∈ nodes, (peerSubnet env own a).isSome = true →
      peerSubnet env own a = peerSubnet env own b → a.name = b.name) <| by
    simp only [Apart, Option.isSome_iff_exists]
    constructor
    · exact fun h a ha b hb k hka hkb => h a ha b hb ⟨k, hka⟩ (hka.trans hkb.symm)
    · rintro h a ha b hb ⟨k, hka⟩ heq
      exact h a ha b hb k hka (heq ▸ hka)

instance (env : EventEnv) (own : Lease) (nodes : List Node) (n : Node) :
    Decidable (Fits env own nodes n) :=
  decidable_of_iff
    (∀ o ∈ nodes, o.name ≠ n.name → (peerSubnet env own o).isSome = true →
      peerSubnet env own n ≠ peerSubnet env own o) <| by
    simp only [Fits, Option.isSome_iff_exists]
    constructor
    · exact fun h o ho hname k hk heq => h o ho hname ⟨k, hk⟩ (heq.trans hk.symm)
    · rintro h o ho hname ⟨k, hk⟩ heq
      exact h o ho hname k hk (heq.trans hk)

instance (env : EventEnv) (own : Lease) (old n : Node) : Decidable (Carries env own old n) :=
  match h₀ : peerView env own old, hn : peerView env own n with
  | none, none => .isTrue (by simp [Carries, h₀, hn])
  | none, some _ => decidable_of_iff (leaseChanged env old n = true) (by simp [Carries, h₀, hn])
  | some _, none => .isFalse (by simp [Carries, h₀, hn])
  | some l, some l' =>
    decidable_of_iff (leaseKey env l = leaseKey env l') (by simp [Carries, h₀, hn])

namespace Informer

/-- What a cluster promises: a list has every name once, the peers that exist at one time have
different subnets, and a subnet goes to another node only when its node is gone. -/
def WellFormed (env : EventEnv) (own : Lease) (s : Informer) : InformerAction → Prop
  | .listed items _ =>
    Distinct Node.name items ∧ Apart env own items ∧
      ∀ n ∈ items, Fits env own (s.store.nodes.filter fun o => o.name ∈ items.map Node.name) n
  | .frame event _ => event.isNodeFrame = true → Fits env own s.store.nodes event.object
  | .listFailed | .resync | .watchEnded _ | .cancelled => True

/-- When a step brings the watcher what it brings the store.  An object that takes the place of a
stored one carries on with it; a `MODIFIED` frame of a node that is not stored is not about a
peer; the object of a `DELETED` frame still has the subnet of the stored peer; and a list hands
no subnet on from a node that is gone. -/
def Delivered (env : EventEnv) (own : Lease) (s : Informer) : InformerAction → Prop
  | .listed items _ =>
    (∀ n ∈ items, ∀ o ∈ s.store.nodes, o.name = n.name → Carries env own o n) ∧
      ∀ n ∈ items, ∀ o ∈ s.store.nodes, o.name ∉ items.map Node.name →
        ∀ k, peerSubnet env own o = some k → peerSubnet env own n ≠ some k
  | .frame event _ =>
    match event.eventType, s.store.get event.object.name with
    | .added, none => True
    | .added, some old => Carries env own old event.object
    | .modified, none => peerView env own event.object = none
    | .modified, some old => Carries env own old event.object
    | .deleted, none => True
    | .deleted, some old =>
      ∀ k, peerSubnet env own old = some k → peerSubnet env own event.object = some k
    | .bookmark, _ => True
    | .error, _ => True
  | .listFailed | .resync | .watchEnded _ | .cancelled => True

end Informer

/-! ## One object -/

section Objects

variable {env : EventEnv} {own : Lease} {store : NodeStore} {lw lw' : LeaseWatcher} {n old : Node}
  {l : Lease}

/-- Putting an object that fits keeps the peers apart. -/
theorem Apart.put (h : Apart env own store.nodes) (hfits : Fits env own store.nodes n) :
    Apart env own (store.put n).1.nodes := by
  intro a ha b hb k hka hkb
  rcases NodeStore.mem_put_iff.mp ha with ⟨hsa, hna⟩ | rfl
  · rcases NodeStore.mem_put_iff.mp hb with ⟨hsb, hnb⟩ | rfl
    · exact h a hsa b hsb k hka hkb
    · exact absurd hkb (hfits a hsa hna k hka)
  · rcases NodeStore.mem_put_iff.mp hb with ⟨hsb, hnb⟩ | rfl
    · exact absurd hka (hfits b hsb hnb k hkb)
    · rfl

theorem Apart.subset {nodes nodes' : List Node} (h : Apart env own nodes)
    (hsub : ∀ n ∈ nodes', n ∈ nodes) : Apart env own nodes' :=
  fun a ha b hb => h a (hsub a ha) b (hsub b hb)

/-- The peers of a store that an object was put into. -/
theorem exists_put_iff {x : Lease} :
    (∃ o ∈ (store.put n).1.nodes, peerView env own o = some x) ↔
      peerView env own n = some x ∨
        ∃ o ∈ store.nodes, o.name ≠ n.name ∧ peerView env own o = some x := by
  constructor
  · rintro ⟨o, ho, hv⟩
    rcases NodeStore.mem_put_iff.mp ho with ⟨ho, hname⟩ | rfl
    · exact Or.inr ⟨o, ho, hname, hv⟩
    · exact Or.inl hv
  · rintro (hv | ⟨o, ho, hname, hv⟩)
    · exact ⟨n, NodeStore.mem_put_iff.mpr (Or.inr rfl), hv⟩
    · exact ⟨o, NodeStore.mem_put_iff.mpr (Or.inl ⟨ho, hname⟩), hv⟩

/-- An event of a node that is no peer passes the watcher by. -/
theorem update_of_no_peer (hown : lw.ownLease = own) (h : peerView env own n = none)
    (et : EventType) :
    (lw.update ((nodeView env n).map fun l => Event.mk et l).toList).1 = lw := by
  cases hv : nodeView env n with
  | none => rfl
  | some l =>
    have hl : isOwn lw.ownLease l = true := by
      rw [hown]
      by_contra hno
      have hpeer := peerView_eq_some.mpr ⟨hv, by simpa using hno⟩
      rw [h] at hpeer
      cases hpeer
    show (lw.update [⟨et, l⟩]).1 = lw
    rw [LeaseWatcher.update_cons_own hl, LeaseWatcher.update_nil]

/-- An event of a peer. -/
theorem toList_of_peer (h : peerView env own n = some l) (et : EventType) :
    ((nodeView env n).map fun l => Event.mk et l).toList = [⟨et, l⟩] := by
  rw [(peerView_eq_some.mp h).1]
  rfl

/-- Announcing the peer that is put keeps the watcher in step, if its name had no other subnet. -/
theorem follows_announced (hlw : FollowsPeers env own store lw)
    (hfits : Fits env own store.nodes n) (hl : peerView env own n = some l)
    (hkey : ∀ o ∈ store.nodes, o.name = n.name → ∀ l', peerView env own o = some l' →
      leaseKey env l' = leaseKey env l) :
    FollowsPeers env own (store.put n).1 (lw.update [⟨.added, l⟩]).1 := by
  obtain ⟨hview, hown⟩ := peerView_eq_some.mp hl
  rw [← hlw.ownLease] at hown
  obtain ⟨hk, hmem⟩ := LeaseWatcher.update_added hlw.keyed (nodeView_flags hview) hown
  refine ⟨hk, by rw [LeaseWatcher.update_ownLease, hlw.ownLease], fun x => ?_⟩
  rw [hmem, hlw.agrees, exists_put_iff, hl, Option.some_inj, eq_comm (a := l)]
  refine or_congr_right ?_
  constructor
  · rintro ⟨⟨o, ho, hv⟩, hne⟩
    exact ⟨o, ho, fun hname => hne (hkey o ho hname x hv), hv⟩
  · rintro ⟨o, ho, hname, hv⟩
    refine ⟨⟨o, ho, hv⟩, fun heq => hfits o ho hname _ (peerSubnet_of_view hv) ?_⟩
    rw [peerSubnet_of_view hl]
    exact congrArg some heq.symm

/-- Without an event the watcher stays in step if the object has the lease of the stored one. -/
theorem follows_same (hlw : FollowsPeers env own store lw)
    (hsame : ∀ x, peerView env own n = some x ↔
      ∃ o ∈ store.nodes, o.name = n.name ∧ peerView env own o = some x) :
    FollowsPeers env own (store.put n).1 lw := by
  refine ⟨hlw.keyed, hlw.ownLease, fun x => ?_⟩
  rw [hlw.agrees, exists_put_iff, hsame]
  constructor
  · rintro ⟨o, ho, hv⟩
    by_cases hname : o.name = n.name
    · exact Or.inl ⟨o, ho, hname, hv⟩
    · exact Or.inr ⟨o, ho, hname, hv⟩
  · rintro (⟨o, ho, -, hv⟩ | ⟨o, ho, -, hv⟩)
    · exact ⟨o, ho, hv⟩
    · exact ⟨o, ho, hv⟩

/-- The lease of a stored peer that is still held although the object put has another one. -/
theorem not_agrees_of_held (hapart : Apart env own store.nodes) (hold : old ∈ store.nodes)
    (hname : old.name = n.name) (hl : peerView env own old = some l)
    (hgone : peerView env own n ≠ some l) (hheld : l ∈ lw'.leases) :
    ¬ AgreesOnPeers env own (store.put n).1 lw' := by
  intro hagrees
  rcases exists_put_iff.mp ((hagrees l).mp hheld) with hn | ⟨o, ho, hne, hv⟩
  · exact hgone hn
  · refine hne ?_
    rw [← hname]
    exact hapart o ho old hold _ (peerSubnet_of_view hv) (peerSubnet_of_view hl)

/-- A peer that is put without an event, and whose lease its name did not have before. -/
theorem not_agrees_of_missed (hlw : FollowsPeers env own store lw)
    (hfits : Fits env own store.nodes n) (hl : peerView env own n = some l)
    (hnew : ∀ o ∈ store.nodes, o.name = n.name → peerView env own o ≠ some l) :
    ¬ AgreesOnPeers env own (store.put n).1 lw := by
  intro hagrees
  have hheld := (hagrees l).mpr (exists_put_iff.mpr (Or.inl hl))
  obtain ⟨o, ho, hv⟩ := (hlw.agrees l).mp hheld
  by_cases hname : o.name = n.name
  · exact hnew o ho hname hv
  · exact hfits o ho hname _ (peerSubnet_of_view hv) (peerSubnet_of_view hl)

/-- The stored node of a name. -/
theorem eq_stored (hold : store.get n.name = some old) {o : Node} (ho : o ∈ store.nodes)
    (hname : o.name = n.name) : o = old := by
  obtain ⟨hmem, hold⟩ := NodeStore.get_eq_some_iff.mp hold
  exact store.distinct.eq_of_key ho hmem (hname.trans hold.symm)

/-- Two objects of a peer with one subnet that compare equal have one lease. -/
theorem peerView_eq_of_not_changed (hstack : env.enableIpv4 ≠ env.enableIpv6)
    (hraw : env.rawFromString "" = none) {l₀ : Lease} (hl₀ : peerView env own old = some l₀)
    (hl : peerView env own n = some l) (hkey : leaseKey env l₀ = leaseKey env l)
    (hsame : leaseChanged env old n = false) : l₀ = l :=
  nodeToLease_eq_of_not_changed hstack hraw hsame
    (nodeView_eq_some.mp (peerView_eq_some.mp hl₀).1).2
    (nodeView_eq_some.mp (peerView_eq_some.mp hl).1).2 ((sameSubnet_iff l₀ l).mpr hkey)

/-- **An object takes the place of a stored one.**  The watcher stays in step exactly if the object
carries on. -/
theorem update_agrees_iff (hstack : env.enableIpv4 ≠ env.enableIpv6)
    (hraw : env.rawFromString "" = none) (hapart : Apart env own store.nodes)
    (hlw : FollowsPeers env own store lw) (hfits : Fits env own store.nodes n)
    (hold : store.get n.name = some old) :
    (AgreesOnPeers env own (store.put n).1
        (lw.update (handleUpdateLeaseEvent env old n).toList).1 ↔ Carries env own old n) ∧
      (Carries env own old n → FollowsPeers env own (store.put n).1
        (lw.update (handleUpdateLeaseEvent env old n).toList).1) := by
  obtain ⟨hmem, hname⟩ := NodeStore.get_eq_some_iff.mp hold
  rw [handleUpdateLeaseEvent_eq, Carries]
  -- the watcher when the object is no peer, whether it compares equal or not
  have hquiet : peerView env own n = none →
      (lw.update (if leaseChanged env old n then (nodeView env n).map fun l => Event.mk .added l
        else none).toList).1 = lw := by
    intro hn
    split
    · exact update_of_no_peer hlw.ownLease hn .added
    · rfl
  cases h₀ : peerView env own old with
  | none =>
    cases hn : peerView env own n with
    | none =>
      rw [hquiet hn]
      have hfollows : FollowsPeers env own (store.put n).1 lw := by
        refine follows_same hlw fun x => ?_
        rw [hn]
        refine iff_of_false (by simp) ?_
        rintro ⟨o, ho, hno, hv⟩
        rw [eq_stored hold ho hno, h₀] at hv
        cases hv
      exact ⟨iff_of_true hfollows.agrees trivial, fun _ => hfollows⟩
    | some l =>
      have hnone : ∀ o ∈ store.nodes, o.name = n.name → peerView env own o = none := by
        intro o ho hno
        rw [eq_stored hold ho hno, h₀]
      cases hchanged : leaseChanged env old n with
      | true =>
        rw [if_pos rfl, toList_of_peer hn]
        have hfollows := follows_announced hlw hfits hn fun o ho hno l' hv => by
          rw [hnone o ho hno] at hv
          cases hv
        exact ⟨iff_of_true hfollows.agrees rfl, fun _ => hfollows⟩
      | false =>
        rw [if_neg Bool.false_ne_true]
        refine ⟨iff_of_false ?_ Bool.false_ne_true, fun h => absurd h Bool.false_ne_true⟩
        refine not_agrees_of_missed hlw hfits hn fun o ho hno => ?_
        rw [hnone o ho hno]
        exact nofun
  | some l₀ =>
    have hheld : l₀ ∈ lw.leases := (hlw.agrees l₀).mpr ⟨old, hmem, h₀⟩
    cases hn : peerView env own n with
    | none =>
      rw [hquiet hn]
      refine ⟨iff_of_false ?_ id, fun h => h.elim⟩
      exact not_agrees_of_held hapart hmem hname h₀ (by rw [hn]; exact nofun) hheld
    | some l =>
      obtain ⟨hview, hown⟩ := peerView_eq_some.mp hn
      rw [← hlw.ownLease] at hown
      by_cases hkey : leaseKey env l₀ = leaseKey env l
      · cases hchanged : leaseChanged env old n with
        | true =>
          rw [if_pos rfl, toList_of_peer hn]
          have hfollows := follows_announced hlw hfits hn fun o ho hno l' hv => by
            rw [eq_stored hold ho hno, h₀] at hv
            exact Option.some.inj hv ▸ hkey
          exact ⟨iff_of_true hfollows.agrees hkey, fun _ => hfollows⟩
        | false =>
          rw [if_neg Bool.false_ne_true]
          have hsame := peerView_eq_of_not_changed hstack hraw h₀ hn hkey hchanged
          have hfollows : FollowsPeers env own (store.put n).1 lw := by
            refine follows_same hlw fun x => ?_
            rw [hn, ← hsame, ← h₀]
            constructor
            · exact fun hx => ⟨old, hmem, hname, hx⟩
            · rintro ⟨o, ho, hno, hv⟩
              rw [← eq_stored hold ho hno]
              exact hv
          exact ⟨iff_of_true hfollows.agrees hkey, fun _ => hfollows⟩
      · refine ⟨iff_of_false ?_ hkey, fun h => absurd h hkey⟩
        refine not_agrees_of_held hapart hmem hname h₀ ?_ ?_
        · rw [hn]
          exact fun heq => hkey (Option.some.inj heq ▸ rfl)
        · split
          · rw [toList_of_peer hn]
            exact ((LeaseWatcher.update_added hlw.keyed (nodeView_flags hview) hown).2 l₀).mpr
              (Or.inr ⟨hheld, hkey⟩)
          · exact hheld

/-- **An object of a new node.** -/
theorem follows_new (hlw : FollowsPeers env own store lw) (hfits : Fits env own store.nodes n)
    (hnew : store.get n.name = none) :
    FollowsPeers env own (store.put n).1
      (lw.update (handleAddLeaseEvent env .added n).toList).1 := by
  have hother : ∀ o ∈ store.nodes, o.name ≠ n.name := NodeStore.get_eq_none_iff.mp hnew
  rw [handleAddLeaseEvent_eq]
  cases hn : peerView env own n with
  | none =>
    rw [update_of_no_peer hlw.ownLease hn]
    refine follows_same hlw fun x => ?_
    rw [hn]
    exact iff_of_false (by simp) fun ⟨o, ho, hno, _⟩ => hother o ho hno
  | some l =>
    rw [toList_of_peer hn]
    exact follows_announced hlw hfits hn fun o ho hno => absurd hno (hother o ho)

/-- **A `MODIFIED` object of a node that is not stored** is compared with itself, and nothing is
handed on. -/
theorem unknown_agrees_iff (hflag : env.enableIpv4 = true ∨ env.enableIpv6 = true)
    (hlw : FollowsPeers env own store lw) (hfits : Fits env own store.nodes n)
    (hnew : store.get n.name = none) :
    (AgreesOnPeers env own (store.put n).1 (lw.update (handleUpdateLeaseEvent env n n).toList).1 ↔
        peerView env own n = none) ∧
      (peerView env own n = none → FollowsPeers env own (store.put n).1
        (lw.update (handleUpdateLeaseEvent env n n).toList).1) := by
  have hother : ∀ o ∈ store.nodes, o.name ≠ n.name := NodeStore.get_eq_none_iff.mp hnew
  rw [handleUpdateLeaseEvent_self hflag]
  show (AgreesOnPeers env own (store.put n).1 lw ↔ _) ∧
    (_ → FollowsPeers env own (store.put n).1 lw)
  cases hn : peerView env own n with
  | none =>
    have hfollows : FollowsPeers env own (store.put n).1 lw := by
      refine follows_same hlw fun x => ?_
      rw [hn]
      exact iff_of_false (by simp) fun ⟨o, ho, hno, _⟩ => hother o ho hno
    exact ⟨iff_of_true hfollows.agrees rfl, fun _ => hfollows⟩
  | some l =>
    have hno := not_agrees_of_missed hlw hfits hn fun o ho hname => absurd hname (hother o ho)
    exact ⟨iff_of_false hno nofun, nofun⟩

/-- **A removal** is reported with the subnet of the object that the frame carries. -/
theorem removal_agrees_iff (hapart : Apart env own store.nodes)
    (hlw : FollowsPeers env own store lw) (hfits : Fits env own store.nodes n) :
    (AgreesOnPeers env own (store.remove n.name).1
        (lw.update (handleAddLeaseEvent env .removed n).toList).1 ↔
      ∀ o ∈ store.nodes, o.name = n.name → ∀ k, peerSubnet env own o = some k →
        peerSubnet env own n = some k) ∧
      ((∀ o ∈ store.nodes, o.name = n.name → ∀ k, peerSubnet env own o = some k →
          peerSubnet env own n = some k) →
        FollowsPeers env own (store.remove n.name).1
          (lw.update (handleAddLeaseEvent env .removed n).toList).1) := by
  -- what the watcher holds afterwards
  have hheld : (lw.update (handleAddLeaseEvent env .removed n).toList).1.Keyed env.enableIpv4
        env.enableIpv6 ∧
      ∀ x, x ∈ (lw.update (handleAddLeaseEvent env .removed n).toList).1.leases ↔
        x ∈ lw.leases ∧ peerSubnet env own n ≠ some (leaseKey env x) := by
    rw [handleAddLeaseEvent_eq]
    cases hn : peerView env own n with
    | none =>
      rw [update_of_no_peer hlw.ownLease hn]
      exact ⟨hlw.keyed, fun x => by simp [peerSubnet, hn]⟩
    | some l =>
      obtain ⟨hview, hown⟩ := peerView_eq_some.mp hn
      rw [← hlw.ownLease] at hown
      rw [toList_of_peer hn]
      obtain ⟨hk, hmem⟩ := LeaseWatcher.update_removed hlw.keyed (nodeView_flags hview) hown
      refine ⟨hk, fun x => ?_⟩
      rw [hmem, peerSubnet_of_view hn, ne_eq, ne_eq, Option.some_inj, leaseKey, leaseKey, eq_comm]
  obtain ⟨hkeyed, hheld⟩ := hheld
  have hiff : AgreesOnPeers env own (store.remove n.name).1
      (lw.update (handleAddLeaseEvent env .removed n).toList).1 ↔
      ∀ o ∈ store.nodes, o.name = n.name → ∀ k, peerSubnet env own o = some k →
        peerSubnet env own n = some k := by
    constructor
    · intro hagrees o ho hname k hk
      by_contra hno
      obtain ⟨l, hl, rfl⟩ := peerSubnet_eq_some.mp hk
      have hin := (hheld l).mpr ⟨(hlw.agrees l).mpr ⟨o, ho, hl⟩, hno⟩
      obtain ⟨o', ho', hv⟩ := (hagrees l).mp hin
      obtain ⟨ho', hne⟩ := NodeStore.mem_remove_iff.mp ho'
      exact hne ((hapart o' ho' o ho _ (peerSubnet_of_view hv) hk).trans hname)
    · intro hkey x
      rw [hheld, hlw.agrees]
      constructor
      · rintro ⟨⟨o, ho, hv⟩, hne⟩
        refine ⟨o, NodeStore.mem_remove_iff.mpr ⟨ho, fun hname => hne ?_⟩, hv⟩
        exact hkey o ho hname _ (peerSubnet_of_view hv)
      · rintro ⟨o, ho, hv⟩
        obtain ⟨ho, hname⟩ := NodeStore.mem_remove_iff.mp ho
        exact ⟨⟨o, ho, hv⟩, hfits o ho hname _ (peerSubnet_of_view hv)⟩
  refine ⟨hiff, fun h => ⟨hkeyed, ?_, hiff.mpr h⟩⟩
  rw [LeaseWatcher.update_ownLease, hlw.ownLease]

end Objects

/-! ## A fresh list -/

/-- What a list makes of one of its nodes. -/
def listedEvent (env : EventEnv) (old : NodeStore) (n : Node) : Option Event :=
  match old.get n.name with
  | none => handleAddLeaseEvent env .added n
  | some prev => handleUpdateLeaseEvent env prev n

section List

variable {env : EventEnv} {own : Lease} {old : NodeStore} {items : List Node} {lw : LeaseWatcher}

/-- An event of a listed node announces its lease. -/
theorem eq_of_listedEvent {n : Node} {e : Event} (h : listedEvent env old n = some e) :
    ∃ l, nodeView env n = some l ∧ e = ⟨.added, l⟩ := by
  unfold listedEvent at h
  cases hget : old.get n.name with
  | none =>
    rw [hget] at h
    simp only [handleAddLeaseEvent_eq, Option.map_eq_some_iff] at h
    obtain ⟨l, hl, rfl⟩ := h
    exact ⟨l, hl, rfl⟩
  | some prev =>
    rw [hget] at h
    simp only [handleUpdateLeaseEvent_eq] at h
    split at h
    · obtain ⟨l, hl, rfl⟩ := Option.map_eq_some_iff.mp h
      exact ⟨l, hl, rfl⟩
    · cases h

/-- A peer without an event is stored, and compares equal. -/
theorem stored_of_listedEvent_none {n : Node} {l : Lease} (hl : peerView env own n = some l)
    (h : listedEvent env old n = none) :
    ∃ prev, old.get n.name = some prev ∧ leaseChanged env prev n = false := by
  have hview := (peerView_eq_some.mp hl).1
  unfold listedEvent at h
  cases hget : old.get n.name with
  | none =>
    rw [hget] at h
    simp [handleAddLeaseEvent_eq, hview] at h
  | some prev =>
    rw [hget] at h
    exact ⟨prev, rfl, by simpa [handleUpdateLeaseEvent_eq, hview] using h⟩

/-- The announcements of peers in a list, as changes of the map of leases. -/
def listedChanges (env : EventEnv) (own : Lease) (old : NodeStore) (items : List Node) :
    List (SubnetKey × Option Lease) :=
  (LeaseWatcher.foreign own (items.filterMap (listedEvent env old))).map
    (Event.change env.enableIpv4 env.enableIpv6)

/-- The subnets of the peers that a list does not have any more. -/
def goneKeys (env : EventEnv) (own : Lease) (old : NodeStore) (items : List Node) :
    List SubnetKey :=
  ((leasesOf env (goneNodes old items)).filter fun l => !isOwn own l).map (leaseKey env)

theorem mem_goneKeys {k : SubnetKey} :
    k ∈ goneKeys env own old items ↔
      ∃ o ∈ old.nodes, o.name ∉ items.map Node.name ∧ peerSubnet env own o = some k := by
  simp only [goneKeys, List.mem_map, List.mem_filter, mem_leasesOf, mem_goneNodes,
    Bool.not_eq_true', peerSubnet_eq_some, peerView_eq_some]
  constructor
  · rintro ⟨l, ⟨⟨o, ⟨ho, hgone⟩, hv⟩, hown⟩, rfl⟩
    exact ⟨o, ho, hgone, l, ⟨hv, hown⟩, rfl⟩
  · rintro ⟨o, ho, hgone, l, ⟨hv, hown⟩, rfl⟩
    exact ⟨l, ⟨⟨o, ⟨ho, hgone⟩, hv⟩, hown⟩, rfl⟩

theorem reconcileRelist_split (env : EventEnv) (old : NodeStore) (items : List Node) :
    reconcileRelist env old items = items.filterMap (listedEvent env old) ++
      (leasesOf env (goneNodes old items)).map (Event.mk .removed) := by
  simp only [reconcileRelist, leasesOf, goneNodes, List.map_filterMap, List.filterMap_filter]
  congr 1
  refine List.filterMap_congr fun n _ => ?_
  by_cases hn : n.name ∈ items.map Node.name
  · have hno : ¬ decide (n.name ∉ items.map Node.name) = true := by simpa using hn
    rw [if_pos hn, if_neg hno]
    rfl
  · rw [if_neg hn, if_pos (decide_eq_true hn), handleAddLeaseEvent_eq]

/-- The events of a list have the manager's flags. -/
theorem flags_of_mem_reconcileRelist {e : Event} (he : e ∈ reconcileRelist env old items) :
    e.lease.HasFlags env.enableIpv4 env.enableIpv6 := by
  rw [reconcileRelist_split] at he
  rcases List.mem_append.mp he with he | he
  · obtain ⟨n, -, hev⟩ := List.mem_filterMap.mp he
    obtain ⟨l, hl, rfl⟩ := eq_of_listedEvent hev
    exact nodeView_flags hl
  · obtain ⟨l, hl, rfl⟩ := List.mem_map.mp he
    obtain ⟨n, -, hv⟩ := mem_leasesOf.mp hl
    exact nodeView_flags hv

/-- The map of leases after a list: the announcements, then the withdrawals, those about the own
node left out. -/
theorem view_after_list (hlw : FollowsPeers env own old lw) :
    (lw.update (reconcileRelist env old items)).1.Keyed env.enableIpv4 env.enableIpv6 ∧
      ∀ k, (lw.update (reconcileRelist env old items)).1.view env.enableIpv4 env.enableIpv6 k =
        if k ∈ goneKeys env own old items then none
        else (lastWrite k (listedChanges env own old items)).getD
          (lw.view env.enableIpv4 env.enableIpv6 k) := by
  have hflags : ∀ e ∈ reconcileRelist env old items,
      e.lease.HasFlags env.enableIpv4 env.enableIpv6 := fun e he => flags_of_mem_reconcileRelist he
  obtain ⟨hk, hv, -⟩ := LeaseWatcher.update_keyed hlw.keyed hflags
  refine ⟨hk, fun k => ?_⟩
  rw [hv, hlw.ownLease, reconcileRelist_split, LeaseWatcher.foreign, List.filter_append,
    List.map_append, replay_append, List.filter_map, List.map_map, replay_deletes, replay_apply]
  · simp only [goneKeys, listedChanges, LeaseWatcher.foreign, List.map_map]
    rfl
  · intro c hc
    obtain ⟨l, -, rfl⟩ := List.mem_map.mp hc
    rfl

/-- A change that the announcements make is the lease of a listed peer with an event. -/
theorem listed_of_lastWrite {k : SubnetKey} {v : Option Lease}
    (h : lastWrite k (listedChanges env own old items) = some v) :
    ∃ n ∈ items, ∃ l, peerView env own n = some l ∧ leaseKey env l = k ∧ v = some l ∧
      listedEvent env old n ≠ none := by
  obtain ⟨e, he, heq⟩ := List.mem_map.mp (mem_of_lastWrite h)
  obtain ⟨he, hown⟩ := List.mem_filter.mp he
  obtain ⟨n, hn, hev⟩ := List.mem_filterMap.mp he
  obtain ⟨l, hl, rfl⟩ := eq_of_listedEvent hev
  obtain ⟨rfl, rfl⟩ := Prod.mk.inj heq
  have hev' : listedEvent env old n ≠ none := by
    rw [hev]
    exact nofun
  exact ⟨n, hn, l, peerView_eq_some.mpr ⟨hl, by simpa using hown⟩, rfl, rfl, hev'⟩

/-- A subnet that the announcements do not mention belongs to no announced peer. -/
theorem listedEvent_none_of_lastWrite {n : Node} (hn : n ∈ items) {l : Lease}
    (hl : peerView env own n = some l)
    (h : lastWrite (leaseKey env l) (listedChanges env own old items) = none) :
    listedEvent env old n = none := by
  obtain ⟨hview, hown⟩ := peerView_eq_some.mp hl
  rw [Option.eq_none_iff_forall_ne_some]
  intro e hev
  obtain ⟨l', hl', rfl⟩ := eq_of_listedEvent hev
  rw [hview, Option.some.injEq] at hl'
  subst hl'
  have hmem : (⟨.added, l⟩ : Event) ∈
      LeaseWatcher.foreign own (items.filterMap (listedEvent env old)) :=
    List.mem_filter.mpr ⟨List.mem_filterMap.mpr ⟨n, hn, hev⟩, by rw [hown]; rfl⟩
  exact lastWrite_eq_none_iff.mp h (List.mem_map.mpr ⟨_, List.mem_map_of_mem hmem, rfl⟩)

/-- The store after a list holds the nodes of the list. -/
theorem mem_replaceAll (store : NodeStore) (hnames : Distinct Node.name items) {n : Node} :
    n ∈ (store.replaceAll items).1.nodes ↔ n ∈ items := by
  show n ∈ (items.foldl (fun s node => (s.put node).1) NodeStore.new).nodes ↔ n ∈ items
  induction items using List.reverseRecOn with
  | nil => simp [NodeStore.new]
  | append_singleton items m ih =>
    unfold Distinct at hnames
    rw [List.map_append, List.nodup_append] at hnames
    obtain ⟨hnames, -, hne⟩ := hnames
    rw [List.foldl_append, List.foldl_cons, List.foldl_nil, NodeStore.mem_put_iff, ih hnames,
      List.mem_append, List.mem_singleton]
    refine or_congr_left (and_iff_left_of_imp fun hn => ?_)
    exact hne n.name (List.mem_map_of_mem hn) m.name (by simp)

/-- What the watcher holds under the subnet of a lease. -/
theorem FollowsPeers.view_iff (hlw : FollowsPeers env own old lw) {l : Lease} :
    lw.view env.enableIpv4 env.enableIpv6 (leaseKey env l) = some l ↔
      ∃ o ∈ old.nodes, peerView env own o = some l := by
  rw [leaseKey, ← LeaseWatcher.mem_leases_iff hlw.keyed, hlw.agrees]

section Reached

variable (hold : Apart env own old.nodes) (hnew : Apart env own items)
  (hnames : Distinct Node.name items)
  (hfits : ∀ n ∈ items, Fits env own (old.nodes.filter fun o => o.name ∈ items.map Node.name) n)
  (hlw : FollowsPeers env own old lw)

/-- Every node carries on with the object of the list. -/
def AllCarry (env : EventEnv) (own : Lease) (old : NodeStore) (items : List Node) : Prop :=
  ∀ n ∈ items, ∀ o ∈ old.nodes, o.name = n.name → Carries env own o n

/-- No node of the list has the subnet of a peer that is gone. -/
def NoneHandedOn (env : EventEnv) (own : Lease) (old : NodeStore) (items : List Node) : Prop :=
  ∀ n ∈ items, ∀ o ∈ old.nodes, o.name ∉ items.map Node.name →
    ∀ k, peerSubnet env own o = some k → peerSubnet env own n ≠ some k

/-- A listed peer without an event had its lease before. -/
theorem stored_of_quiet (hstack : env.enableIpv4 ≠ env.enableIpv6)
    (hraw : env.rawFromString "" = none) (hcarry : AllCarry env own old items) {n : Node}
    (hn : n ∈ items) {l : Lease} (hl : peerView env own n = some l)
    (h : listedEvent env old n = none) :
    ∃ o ∈ old.nodes, o.name = n.name ∧ peerView env own o = some l := by
  obtain ⟨prev, hget, hsame⟩ := stored_of_listedEvent_none hl h
  obtain ⟨hmem, hname⟩ := NodeStore.get_eq_some_iff.mp hget
  have hcarries := hcarry n hn prev hmem hname
  refine ⟨prev, hmem, hname, ?_⟩
  rw [Carries, hl] at hcarries
  cases hprev : peerView env own prev with
  | none =>
    rw [hprev, hsame] at hcarries
    cases hcarries
  | some l₀ =>
    rw [hprev] at hcarries
    rw [peerView_eq_of_not_changed hstack hraw hprev hl hcarries hsame]

include hnew hnames hlw in
/-- After the announcements every lease of the list is held. -/
theorem announced_of_listed (hstack : env.enableIpv4 ≠ env.enableIpv6)
    (hraw : env.rawFromString "" = none) (hcarry : AllCarry env own old items) {n : Node}
    (hn : n ∈ items) {l : Lease} (hl : peerView env own n = some l) :
    (lastWrite (leaseKey env l) (listedChanges env own old items)).getD
      (lw.view env.enableIpv4 env.enableIpv6 (leaseKey env l)) = some l := by
  cases hw : lastWrite (leaseKey env l) (listedChanges env own old items) with
  | some v =>
    obtain ⟨n', hn', l', hv', hkey, rfl, -⟩ := listed_of_lastWrite hw
    have hname : n'.name = n.name :=
      hnew n' hn' n hn _ (peerSubnet_of_view hv') (by rw [peerSubnet_of_view hl, hkey])
    rw [hnames.eq_of_key hn' hn hname, hl] at hv'
    rw [Option.getD_some, hv']
  | none =>
    rw [Option.getD_none, hlw.view_iff]
    obtain ⟨o, ho, -, hv⟩ := stored_of_quiet hstack hraw hcarry hn hl
      (listedEvent_none_of_lastWrite hn hl hw)
    exact ⟨o, ho, hv⟩

include hlw in
/-- What is held after the announcements is of the list, unless it is withdrawn. -/
theorem listed_of_announced (hstack : env.enableIpv4 ≠ env.enableIpv6)
    (hraw : env.rawFromString "" = none) (hcarry : AllCarry env own old items) {l : Lease}
    (hkeep : leaseKey env l ∉ goneKeys env own old items)
    (h : (lastWrite (leaseKey env l) (listedChanges env own old items)).getD
      (lw.view env.enableIpv4 env.enableIpv6 (leaseKey env l)) = some l) :
    ∃ n ∈ items, peerView env own n = some l := by
  cases hw : lastWrite (leaseKey env l) (listedChanges env own old items) with
  | some v =>
    obtain ⟨n, hn, l', hv, -, rfl, -⟩ := listed_of_lastWrite hw
    rw [hw, Option.getD_some] at h
    exact ⟨n, hn, hv.trans h⟩
  | none =>
    rw [hw, Option.getD_none, hlw.view_iff] at h
    obtain ⟨o, ho, hvo⟩ := h
    have hlisted : o.name ∈ items.map Node.name := by
      by_contra hgone
      exact hkeep (mem_goneKeys.mpr ⟨o, ho, hgone, peerSubnet_of_view hvo⟩)
    obtain ⟨n, hn, hname⟩ := List.mem_map.mp hlisted
    have hcarries := hcarry n hn o ho hname.symm
    rw [Carries, hvo] at hcarries
    cases hv : peerView env own n with
    | none =>
      rw [hv] at hcarries
      exact hcarries.elim
    | some l' =>
      rw [hv] at hcarries
      have hkey : leaseKey env l = leaseKey env l' := hcarries
      -- the node of the list had no event, so its lease is the one that was stored for it
      have hquiet := listedEvent_none_of_lastWrite hn hv (by rw [← hkey]; exact hw)
      obtain ⟨o', ho', hname', hv'⟩ := stored_of_quiet hstack hraw hcarry hn hv hquiet
      rw [old.distinct.eq_of_key ho' ho (hname'.trans hname), hvo] at hv'
      exact ⟨n, hn, by rw [hv, hv']⟩

include hfits in
/-- A subnet of a stored peer that is still listed is that of no other node of the list. -/
theorem name_eq_of_listed {n o : Node} (hn : n ∈ items) (ho : o ∈ old.nodes)
    (hlisted : o.name ∈ items.map Node.name) {k : SubnetKey} (hk : peerSubnet env own o = some k)
    (hnk : peerSubnet env own n = some k) : o.name = n.name := by
  by_contra hne
  exact hfits n hn o (List.mem_filter.mpr ⟨ho, by simpa using hlisted⟩) hne k hk hnk

include hold in
/-- The subnet of a peer that is still listed is not withdrawn. -/
theorem not_mem_goneKeys_of_listed {o : Node} (ho : o ∈ old.nodes)
    (hlisted : o.name ∈ items.map Node.name) {k : SubnetKey} (hk : peerSubnet env own o = some k) :
    k ∉ goneKeys env own old items := by
  intro hgone
  obtain ⟨o', ho', hno, hk'⟩ := mem_goneKeys.mp hgone
  exact hno (hold o' ho' o ho k hk' hk ▸ hlisted)

/-- What the watcher holds under a subnet after a list. -/
def heldAfter (env : EventEnv) (own : Lease) (old : NodeStore) (items : List Node)
    (lw : LeaseWatcher) (k : SubnetKey) : Option Lease :=
  if k ∈ goneKeys env own old items then none
  else (lastWrite k (listedChanges env own old items)).getD
    (lw.view env.enableIpv4 env.enableIpv6 k)

/-- All leases of the list are held after it, and no others. -/
def HoldsList (env : EventEnv) (own : Lease) (old : NodeStore) (items : List Node)
    (lw : LeaseWatcher) : Prop :=
  ∀ l, heldAfter env own old items lw (leaseKey env l) = some l ↔
    ∃ n ∈ items, peerView env own n = some l

include hnames hlw in
/-- The watcher agrees with the store after a list when it holds the leases of the list. -/
theorem agrees_after_list_iff :
    AgreesOnPeers env own (old.replaceAll items).1 (lw.update (reconcileRelist env old items)).1 ↔
      HoldsList env own old items lw := by
  obtain ⟨hk, hafter⟩ := @view_after_list env own old items lw hlw
  refine forall_congr' fun l => ?_
  simp only [mem_replaceAll old hnames]
  rw [LeaseWatcher.mem_leases_iff hk, hafter]
  rfl

include hold hnames hfits hlw in
/-- If the leases of the list are held, a stored peer that is still listed has its subnet there:
its old lease would be held otherwise. -/
theorem peerSubnet_of_holdsList (h : HoldsList env own old items lw) {n o : Node} (hn : n ∈ items)
    (ho : o ∈ old.nodes) (hname : o.name = n.name) {l : Lease} (hl : peerView env own o = some l) :
    peerSubnet env own n = some (leaseKey env l) := by
  have hlisted : o.name ∈ items.map Node.name := hname ▸ List.mem_map_of_mem hn
  -- a listed peer with that subnet is the node itself
  have hsame : ∀ m ∈ items, peerSubnet env own m = some (leaseKey env l) → m = n := by
    intro m hm hmk
    have hom := name_eq_of_listed hfits hm ho hlisted (peerSubnet_of_view hl) hmk
    exact hnames.eq_of_key hm hn (hom.symm.trans hname)
  by_contra hno
  have hkeep := not_mem_goneKeys_of_listed hold ho hlisted (peerSubnet_of_view hl)
  have hnowrite : lastWrite (leaseKey env l) (listedChanges env own old items) = none := by
    by_contra hsome
    obtain ⟨v, hv⟩ := Option.ne_none_iff_exists'.mp hsome
    obtain ⟨m, hm, l', hv', hk', -, -⟩ := listed_of_lastWrite hv
    have hmk : peerSubnet env own m = some (leaseKey env l) := by rw [peerSubnet_of_view hv', hk']
    exact hno (hsame m hm hmk ▸ hmk)
  have hheld : heldAfter env own old items lw (leaseKey env l) = some l := by
    rw [heldAfter, if_neg hkeep, hnowrite, Option.getD_none, hlw.view_iff]
    exact ⟨o, ho, hl⟩
  obtain ⟨m, hm, hv⟩ := (h l).mp hheld
  exact hno (hsame m hm (peerSubnet_of_view hv) ▸ peerSubnet_of_view hv)

include hnew hnames hfits hlw in
/-- If the leases of the list are held, a stored node that becomes a peer compares different:
nothing else brings its lease. -/
theorem leaseChanged_of_holdsList (h : HoldsList env own old items lw) {n o : Node}
    (hn : n ∈ items) (ho : o ∈ old.nodes) (hname : o.name = n.name)
    (hnone : peerView env own o = none) {l : Lease} (hl : peerView env own n = some l) :
    leaseChanged env o n = true := by
  by_contra hsame
  have hquiet : listedEvent env old n = none := by
    have hget : old.get n.name = some o := NodeStore.get_eq_some_iff.mpr ⟨ho, hname⟩
    simp [listedEvent, hget, handleUpdateLeaseEvent_eq, hsame]
  have hheld := (h l).mpr ⟨n, hn, hl⟩
  rw [heldAfter] at hheld
  split at hheld
  · cases hheld
  · rename_i hkeep
    cases hw : lastWrite (leaseKey env l) (listedChanges env own old items) with
    | some v =>
      obtain ⟨m, hm, l', hv', hkey, -, hev⟩ := listed_of_lastWrite hw
      have hmn : m.name = n.name :=
        hnew m hm n hn _ (peerSubnet_of_view hv') (by rw [peerSubnet_of_view hl, hkey])
      exact hev (hnames.eq_of_key hm hn hmn ▸ hquiet)
    | none =>
      rw [hw, Option.getD_none, hlw.view_iff] at hheld
      obtain ⟨o', ho', hv'⟩ := hheld
      have hlisted : o'.name ∈ items.map Node.name := by
        by_contra hgone
        exact hkeep (mem_goneKeys.mpr ⟨o', ho', hgone, peerSubnet_of_view hv'⟩)
      have hname' := name_eq_of_listed hfits hn ho' hlisted (peerSubnet_of_view hv')
        (peerSubnet_of_view hl)
      rw [old.distinct.eq_of_key ho' ho (hname'.trans hname.symm), hnone] at hv'
      cases hv'

include hold hnew hnames hfits hlw in
/-- The leases of the list are held exactly when every node carries on and no subnet is handed
on. -/
theorem holdsList_iff (hstack : env.enableIpv4 ≠ env.enableIpv6)
    (hraw : env.rawFromString "" = none) :
    HoldsList env own old items lw ↔
      AllCarry env own old items ∧ NoneHandedOn env own old items := by
  constructor
  · intro h
    refine ⟨fun n hn o ho hname => ?_, fun n hn o ho hgone k hok hnk => ?_⟩
    · unfold Carries
      cases hvo : peerView env own o with
      | none =>
        cases hvn : peerView env own n with
        | none => trivial
        | some l => exact leaseChanged_of_holdsList hnew hnames hfits hlw h hn ho hname hvo hvn
      | some l =>
        obtain ⟨l', hl', hkey⟩ :=
          peerSubnet_eq_some.mp (peerSubnet_of_holdsList hold hnames hfits hlw h hn ho hname hvo)
        rw [hl']
        exact hkey.symm
    · obtain ⟨l, hl, rfl⟩ := peerSubnet_eq_some.mp hnk
      have hheld := (h l).mpr ⟨n, hn, hl⟩
      rw [heldAfter, if_pos (mem_goneKeys.mpr ⟨o, ho, hgone, hok⟩)] at hheld
      cases hheld
  · rintro ⟨hcarry, hnone⟩ l
    constructor
    · intro hl
      by_cases hgone : leaseKey env l ∈ goneKeys env own old items
      · rw [heldAfter, if_pos hgone] at hl
        cases hl
      · rw [heldAfter, if_neg hgone] at hl
        exact listed_of_announced hlw hstack hraw hcarry hgone hl
    · rintro ⟨n, hn, hl⟩
      have hkeep : leaseKey env l ∉ goneKeys env own old items := by
        intro hgone
        obtain ⟨o, ho, hno, hok⟩ := mem_goneKeys.mp hgone
        exact hnone n hn o ho hno _ hok (peerSubnet_of_view hl)
      rw [heldAfter, if_neg hkeep]
      exact announced_of_listed hnew hnames hlw hstack hraw hcarry hn hl

include hold hnew hnames hfits hlw in
/-- **A list keeps the watcher in step** exactly when every node carries on and no subnet is
handed on. -/
theorem list_agrees_iff (hstack : env.enableIpv4 ≠ env.enableIpv6)
    (hraw : env.rawFromString "" = none) :
    (AgreesOnPeers env own (relist env old items).1 (lw.update (relist env old items).2).1 ↔
      AllCarry env own old items ∧ NoneHandedOn env own old items) ∧
    (AllCarry env own old items ∧ NoneHandedOn env own old items →
      FollowsPeers env own (relist env old items).1 (lw.update (relist env old items).2).1) := by
  have hiff := (agrees_after_list_iff hnames hlw).trans
    (holdsList_iff hold hnew hnames hfits hlw hstack hraw)
  refine ⟨hiff, fun h => ⟨(view_after_list hlw).1, ?_, hiff.mpr h⟩⟩
  rw [LeaseWatcher.update_ownLease, hlw.ownLease]

end Reached

end List

/-! ## Runs -/

namespace Informer

variable {env : EventEnv} {own : Lease}

/-- The state in which nothing has gone wrong yet: the stored peers have different subnets, and
the watcher follows them. -/
structure InStep (env : EventEnv) (own : Lease) (s : Informer) : Prop where
  apart : Apart env own s.store.nodes
  follows : FollowsPeers env own s.store (s.watcher own)

theorem inStep_new (env : EventEnv) (own : Lease) : InStep env own new where
  apart := fun a ha => by cases ha
  follows := ⟨LeaseWatcher.keyed_new own, rfl, fun l => by simp [new, watcher, NodeStore.new]⟩

/-- A step, by what it does to the store and hands on. -/
theorem agrees_iff_of_effect {s t : Informer} {a : InformerAction} {store : NodeStore}
    {events : List Event} {P : Prop} (h : step env s a = some t)
    (heffect : effect env s.store a = (store, events)) (hapart : Apart env own store.nodes)
    (hiff : (AgreesOnPeers env own store ((s.watcher own).update events).1 ↔ P) ∧
      (P → FollowsPeers env own store ((s.watcher own).update events).1)) :
    (AgreesOnPeers env own t.store (t.watcher own) ↔ P) ∧ (P → InStep env own t) := by
  obtain ⟨hstore, -⟩ := effect_of_step h
  have hwatcher := watcher_of_step own h
  rw [heffect] at hstore hwatcher
  rw [hstore, hwatcher]
  refine ⟨hiff.1, fun hP => ⟨?_, ?_⟩⟩
  · rw [hstore]
    exact hapart
  · rw [hstore, hwatcher]
    exact hiff.2 hP

/-- A step that touches nothing. -/
theorem agrees_iff_of_quiet {s t : Informer} {a : InformerAction} {P : Prop} (hs : InStep env own s)
    (h : step env s a = some t) (hquiet : effect env s.store a = (s.store, [])) (hP : P) :
    (AgreesOnPeers env own t.store (t.watcher own) ↔ P) ∧ (P → InStep env own t) :=
  agrees_iff_of_effect h hquiet hs.apart
    ⟨iff_of_true hs.follows.agrees hP, fun _ => hs.follows⟩

/-! ### Frames -/

section Frames

variable {f : WatchEvent} {rv : Option String}

theorem effect_bookmark (env : EventEnv) (rv : Option String) (hf : f.isNodeFrame = false)
    (store : NodeStore) : effect env store (.frame f rv) = (store, []) := by
  cases he : f.eventType with
  | bookmark => simp [effect, dispatch, he]
  | error => simp [effect, dispatch, he]
  | _ => simp [WatchEvent.isNodeFrame, he] at hf

theorem effect_added (hf : f.eventType = .added) (store : NodeStore) :
    effect env store (.frame f rv) =
      ((store.put f.object).1, (listedEvent env store f.object).toList) := by
  refine Prod.ext ?_ ?_
  · cases hget : store.get f.object.name with
    | none => simp [effect, dispatch, hf, NodeStore.put, hget]
    | some old => simp [effect, dispatch, hf, NodeStore.put, hget]
  · cases hget : store.get f.object.name with
    | none => simp only [effect, dispatch_event, hf, listedEvent, hget]
    | some old => simp only [effect, dispatch_event, hf, listedEvent, hget]

theorem effect_modified (hf : f.eventType = .modified) (store : NodeStore) :
    effect env store (.frame f rv) = ((store.put f.object).1,
      (handleUpdateLeaseEvent env ((store.get f.object.name).getD f.object) f.object).toList) := by
  simp [effect, dispatch, hf, NodeStore.put]

theorem effect_deleted (hf : f.eventType = .deleted) (store : NodeStore) :
    effect env store (.frame f rv) = ((store.remove f.object.name).1,
      (handleAddLeaseEvent env .removed f.object).toList) := by
  simp [effect, dispatch, hf]

end Frames

theorem enabled_of_single_stack (hstack : env.enableIpv4 ≠ env.enableIpv6) :
    env.enableIpv4 = true ∨ env.enableIpv6 = true := by
  cases h4 : env.enableIpv4 with
  | true => exact Or.inl rfl
  | false =>
    rw [h4] at hstack
    exact Or.inr (Bool.ne_false_iff.mp hstack.symm)

/-- **One frame** keeps the watcher in step exactly when it is delivered. -/
theorem frame_agrees_iff (hstack : env.enableIpv4 ≠ env.enableIpv6)
    (hraw : env.rawFromString "" = none) {s t : Informer} {f : WatchEvent} {rv : Option String}
    (hs : InStep env own s) (hwf : WellFormed env own s (.frame f rv))
    (h : step env s (.frame f rv) = some t) :
    (AgreesOnPeers env own t.store (t.watcher own) ↔ Delivered env own s (.frame f rv)) ∧
      (Delivered env own s (.frame f rv) → InStep env own t) := by
  cases hf : f.eventType with
  | bookmark =>
    have hnode : f.isNodeFrame = false := by simp [WatchEvent.isNodeFrame, hf]
    exact agrees_iff_of_quiet hs h (effect_bookmark env rv hnode s.store) (by simp [Delivered, hf])
  | error =>
    have hnode : f.isNodeFrame = false := by simp [WatchEvent.isNodeFrame, hf]
    exact agrees_iff_of_quiet hs h (effect_bookmark env rv hnode s.store) (by simp [Delivered, hf])
  | deleted =>
    have hfits := hwf (by simp [WatchEvent.isNodeFrame, hf])
    have hiff := removal_agrees_iff hs.apart hs.follows hfits
    have hdelivered : Delivered env own s (.frame f rv) ↔
        ∀ o ∈ s.store.nodes, o.name = f.object.name → ∀ k, peerSubnet env own o = some k →
          peerSubnet env own f.object = some k := by
      simp only [Delivered, hf]
      cases hget : s.store.get f.object.name with
      | none =>
        exact iff_of_true trivial fun o ho hname => absurd hname
          (NodeStore.get_eq_none_iff.mp hget o ho)
      | some old =>
        obtain ⟨hmem, hname⟩ := NodeStore.get_eq_some_iff.mp hget
        constructor
        · intro hk o ho hno
          rw [eq_stored hget ho hno]
          exact hk
        · exact fun hk => hk old hmem hname
    rw [hdelivered]
    exact agrees_iff_of_effect h (effect_deleted hf s.store)
      (hs.apart.subset fun n hn => (NodeStore.mem_remove_iff.mp hn).1) hiff
  | added =>
    have hfits := hwf (by simp [WatchEvent.isNodeFrame, hf])
    refine agrees_iff_of_effect h (effect_added hf s.store) (hs.apart.put hfits) ?_
    cases hget : s.store.get f.object.name with
    | none =>
      have hfollows := follows_new hs.follows hfits hget
      simp only [Delivered, hf, listedEvent, hget]
      exact ⟨iff_of_true hfollows.agrees trivial, fun _ => hfollows⟩
    | some old =>
      simp only [Delivered, hf, listedEvent, hget]
      exact update_agrees_iff hstack hraw hs.apart hs.follows hfits hget
  | modified =>
    have hfits := hwf (by simp [WatchEvent.isNodeFrame, hf])
    refine agrees_iff_of_effect h (effect_modified hf s.store) (hs.apart.put hfits) ?_
    cases hget : s.store.get f.object.name with
    | none =>
      simp only [Delivered, hf, hget, Option.getD_none]
      exact unknown_agrees_iff (enabled_of_single_stack hstack) hs.follows hfits hget
    | some old =>
      simp only [Delivered, hf, hget, Option.getD_some]
      exact update_agrees_iff hstack hraw hs.apart hs.follows hfits hget

/-! ### All steps -/

/-- **One step.**  From a state where nothing has gone wrong, a step keeps the watcher in
step exactly when it is delivered. -/
theorem step_agrees_iff (hstack : env.enableIpv4 ≠ env.enableIpv6)
    (hraw : env.rawFromString "" = none) {s t : Informer} {a : InformerAction}
    (hs : InStep env own s) (hwf : WellFormed env own s a) (h : step env s a = some t) :
    (AgreesOnPeers env own t.store (t.watcher own) ↔ Delivered env own s a) ∧
      (Delivered env own s a → InStep env own t) := by
  cases a with
  | listFailed => exact agrees_iff_of_quiet hs h rfl trivial
  | watchEnded why => exact agrees_iff_of_quiet hs h rfl trivial
  | cancelled => exact agrees_iff_of_quiet hs h rfl trivial
  | resync =>
    refine agrees_iff_of_quiet hs h ?_ trivial
    rw [effect, resync_eq_nil (enabled_of_single_stack hstack)]
  | frame f rv => exact frame_agrees_iff hstack hraw hs hwf h
  | listed items rv =>
    obtain ⟨hnames, hapart, hfits⟩ := hwf
    refine agrees_iff_of_effect h rfl (hapart.subset fun n hn => ?_)
      (list_agrees_iff hs.apart hapart hnames hfits hs.follows hstack hraw)
    exact (mem_replaceAll s.store hnames).mp hn

/-- **When the watcher follows the informer.**  For a single-stack manager and every run of lists,
frames, resyncs and session ends, the own node and nodes without a lease included: after
every step the watcher holds exactly the leases of the stored peers, if and only if every object
that takes the place of a stored one carries on with it, no `MODIFIED` frame is about a peer
that is not stored, every `DELETED` frame still has the subnet of the stored peer, and no list
hands on the subnet of a peer that is gone.  What is asked of the run is that a list has every
name once and that a subnet belongs to one peer at a time. -/
theorem informer_agrees_iff (hstack : env.enableIpv4 ≠ env.enableIpv6)
    (hraw : env.rawFromString "" = none) {as : List InformerAction} {s : Informer}
    (hrun : run (step env) new as = some s)
    (hwf : Along (step env) (WellFormed env own) new as) :
    (∀ pre, pre <+: as → ∀ t, run (step env) new pre = some t →
      AgreesOnPeers env own t.store (t.watcher own)) ↔
      Along (step env) (Delivered env own) new as :=
  forall_prefix_iff_along (fun _ _ _ hs hw h => step_agrees_iff hstack hraw hs hw h)
    (fun _ hs => hs.follows.agrees) (inStep_new env own) hwf hrun

/-- Node `x` after its public address changed. -/
def movedX : Node where
  metadata :=
    { name := "x"
      annotations := fun key =>
        if key = v4Env.annotations.subnetKubeManaged then some "true"
        else if key = v4Env.annotations.backendPublicIp then some "192.168.0.7"
        else none }
  spec := { podCidr := some "10.0.1.0/24", podCidrs := ["10.0.1.0/24"] }

/-- The node of the manager, and one that flannel does not manage. -/
def bystanders : List Node := [managedNode "self" "10.0.255.0/24", unmanagedNode]

/-- `x` is listed beside the own node and an unmanaged one, moves, and is found again by a list
that has a new node too. -/
def movingRun : List InformerAction :=
  [.listFailed, .listed (managedNode "x" "10.0.1.0/24" :: bystanders) (some "1"),
    .frame ⟨.modified, movedX⟩ (some "2"), .resync, .watchEnded .gone,
    .listed (movedX :: managedNode "y" "10.0.2.0/24" :: bystanders) (some "5"), .cancelled]


/-- The lease of the own node of `movingRun`. -/
def selfLease : Lease := v4Lease 0x0a00ff00

theorem wellFormed_movingRun :
    Along (step v4Env) (WellFormed v4Env selfLease) new movingRun := by
  refine ⟨trivial, fun t₀ h₀ => ?_⟩
  cases h₀
  refine ⟨⟨by unfold KeyedList.Distinct; decide, by decide, by simp [new, NodeStore.new, Fits]⟩,
    fun t₁ h₁ => ?_⟩
  cases h₁
  refine ⟨fun _ => by decide, fun t₂ h₂ => ?_⟩
  cases h₂
  refine ⟨trivial, fun t₃ h₃ => ?_⟩
  cases h₃
  refine ⟨trivial, fun t₄ h₄ => ?_⟩
  cases h₄
  exact ⟨⟨by unfold KeyedList.Distinct; decide, by decide, by decide⟩,
    fun t₅ h₅ => ⟨trivial, fun _ _ => trivial⟩⟩

/-- The run, in which everything is delivered. -/
theorem informer_agrees_moving :
    Along (step v4Env) (Delivered v4Env selfLease) new movingRun ∧
      ∀ pre, pre <+: movingRun → ∀ t, run (step v4Env) new pre = some t →
        AgreesOnPeers v4Env selfLease t.store (t.watcher selfLease) := by
  have hdelivered : Along (step v4Env) (Delivered v4Env selfLease) new movingRun := by
    refine ⟨trivial, fun t₀ h₀ => ?_⟩
    cases h₀
    refine ⟨by simp [Delivered, new, NodeStore.new], fun t₁ h₁ => ?_⟩
    cases h₁
    have hcarries : Carries v4Env selfLease (managedNode "x" "10.0.1.0/24") movedX := by decide
    refine ⟨hcarries, fun t₂ h₂ => ?_⟩
    cases h₂
    refine ⟨trivial, fun t₃ h₃ => ?_⟩
    cases h₃
    refine ⟨trivial, fun t₄ h₄ => ?_⟩
    cases h₄
    refine ⟨⟨by decide, ?_⟩, fun t₅ h₅ => ⟨trivial, fun _ _ => trivial⟩⟩
    intro n hn o ho hgone
    refine absurd ?_ hgone
    revert o
    decide
  exact ⟨hdelivered,
    (informer_agrees_iff (by decide) rfl (rfl : run (step v4Env) new movingRun = some _)
      wellFormed_movingRun).mpr hdelivered⟩

/-! ## What is missed -/

/-- In this step the object of the node stays the same, and no other node has its lease. -/
def Unchanged (env : EventEnv) (n : Node) (_ : Informer) : InformerAction → Prop
  | .listed items _ =>
    Distinct Node.name items ∧ n ∈ items ∧ ∀ m ∈ items, nodeView env m = nodeView env n → m = n
  | .frame event _ => event.isNodeFrame = true →
    (event.object.name = n.name → event.object = n ∧ event.eventType ≠ .deleted) ∧
      (event.object.name ≠ n.name → nodeView env event.object ≠ nodeView env n)
  | .listFailed | .resync | .watchEnded _ | .cancelled => True

end Informer

namespace LeaseWatcher

/-- A watcher learns of a lease from an announcement only. -/
theorem mem_update {lw : LeaseWatcher} {es : List Event} {x : Lease}
    (h : x ∈ (lw.update es).1.leases) : x ∈ lw.leases ∨ ⟨.added, x⟩ ∈ es := by
  induction es generalizing lw with
  | nil => exact Or.inl h
  | cons e es ih =>
    cases hown : isOwn lw.ownLease e.lease with
    | true =>
      rw [update_cons_own hown] at h
      exact (ih h).imp_right (List.mem_cons_of_mem e)
    | false =>
      rw [update_cons hown] at h
      rcases ih h with hx | hx
      · obtain ⟨type, l⟩ := e
        cases type with
        | added =>
          have hadd : x ∈ (lw.add l).1.leases := hx
          unfold add at hadd
          split at hadd
          · rename_i pre y post hm
            obtain ⟨hsplit, -, -⟩ := firstMatch_eq_some hm
            rcases List.mem_append.mp hadd with hx | hx
            · exact Or.inl (by rw [hsplit]; simp [hx])
            · rcases List.mem_cons.mp hx with rfl | hx
              · exact Or.inr List.mem_cons_self
              · exact Or.inl (by rw [hsplit]; simp [hx])
          · rcases List.mem_append.mp hadd with hx | hx
            · exact Or.inl hx
            · rw [List.mem_singleton.mp hx]
              exact Or.inr List.mem_cons_self
        | removed =>
          have hremove : x ∈ (lw.remove l).1.leases := hx
          unfold remove at hremove
          split at hremove
          · rename_i pre y post hm
            obtain ⟨hsplit, -, -⟩ := firstMatch_eq_some hm
            refine Or.inl ?_
            rw [hsplit]
            rcases List.mem_append.mp hremove with hx | hx
            · simp [hx]
            · simp [hx]
          · exact Or.inl hremove
      · exact Or.inr (List.mem_cons_of_mem e hx)

end LeaseWatcher

namespace Informer

variable {env : EventEnv}

section Missed

variable {s : Informer} {n : Node} {l : Lease}
  (hflag : env.enableIpv4 = true ∨ env.enableIpv6 = true) (hn : n ∈ s.store.nodes)

include hflag hn

/-- A node that is compared with itself is not announced. -/
theorem listedEvent_unchanged : listedEvent env s.store n = none := by
  have hget : s.store.get n.name = some n := NodeStore.get_eq_some_iff.mpr ⟨hn, rfl⟩
  simp only [listedEvent, hget, handleUpdateLeaseEvent_self hflag]

/-- A frame with the object that is stored. -/
theorem effect_same_object {f : WatchEvent} (rv : Option String) (hobj : f.object = n)
    (hdel : f.eventType ≠ .deleted) :
    n ∈ (effect env s.store (.frame f rv)).1.nodes ∧ (effect env s.store (.frame f rv)).2 = [] := by
  have hget : s.store.get n.name = some n := NodeStore.get_eq_some_iff.mpr ⟨hn, rfl⟩
  cases hf : f.eventType with
  | added =>
    rw [effect_added hf, hobj, listedEvent_unchanged hflag hn]
    exact ⟨NodeStore.mem_put_iff.mpr (Or.inr rfl), rfl⟩
  | modified =>
    rw [effect_modified hf, hobj, hget, Option.getD_some, handleUpdateLeaseEvent_self hflag]
    exact ⟨NodeStore.mem_put_iff.mpr (Or.inr rfl), rfl⟩
  | deleted => exact absurd hf hdel
  | bookmark =>
    rw [effect_bookmark env rv (by simp [WatchEvent.isNodeFrame, hf])]
    exact ⟨hn, rfl⟩
  | error =>
    rw [effect_bookmark env rv (by simp [WatchEvent.isNodeFrame, hf])]
    exact ⟨hn, rfl⟩

omit hflag in
/-- A frame of another node announces at most the lease of that node. -/
theorem effect_other_object {f : WatchEvent} {rv : Option String} (hname : f.object.name ≠ n.name)
    (hview : nodeView env f.object ≠ some l) :
    n ∈ (effect env s.store (.frame f rv)).1.nodes ∧
      ⟨.added, l⟩ ∉ (effect env s.store (.frame f rv)).2 := by
  have hne : n.name ≠ f.object.name := fun heq => hname heq.symm
  cases hf : f.eventType with
  | added =>
    rw [effect_added hf]
    refine ⟨NodeStore.mem_put_iff.mpr (Or.inl ⟨hn, hne⟩), fun hmem => ?_⟩
    obtain ⟨l', hl', heq⟩ := eq_of_listedEvent (Option.mem_toList.mp hmem)
    cases heq
    exact hview hl'
  | modified =>
    rw [effect_modified hf]
    refine ⟨NodeStore.mem_put_iff.mpr (Or.inl ⟨hn, hne⟩), fun hmem => ?_⟩
    rw [Option.mem_toList, handleUpdateLeaseEvent_eq] at hmem
    split at hmem
    · obtain ⟨l', hl', heq⟩ := Option.map_eq_some_iff.mp hmem
      cases heq
      exact hview hl'
    · cases hmem
  | deleted =>
    rw [effect_deleted hf]
    refine ⟨NodeStore.mem_remove_iff.mpr ⟨hn, hne⟩, fun hmem => ?_⟩
    rw [Option.mem_toList, handleAddLeaseEvent_eq] at hmem
    obtain ⟨l', -, heq⟩ := Option.map_eq_some_iff.mp hmem
    cases heq
  | bookmark =>
    rw [effect_bookmark env rv (by simp [WatchEvent.isNodeFrame, hf])]
    exact ⟨hn, by simp⟩
  | error =>
    rw [effect_bookmark env rv (by simp [WatchEvent.isNodeFrame, hf])]
    exact ⟨hn, by simp⟩

/-- A step in which the node does not change keeps it stored and does not announce it. -/
theorem effect_unchanged {a : InformerAction} (hl : nodeView env n = some l)
    (hsame : Unchanged env n s a) :
    n ∈ (effect env s.store a).1.nodes ∧ ⟨.added, l⟩ ∉ (effect env s.store a).2 := by
  cases a with
  | listFailed => exact ⟨hn, by simp [effect]⟩
  | watchEnded why => exact ⟨hn, by simp [effect]⟩
  | cancelled => exact ⟨hn, by simp [effect]⟩
  | resync => exact ⟨hn, by simp [effect, resync_eq_nil hflag]⟩
  | listed items rv =>
    obtain ⟨hnames, hlisted, hlease⟩ := hsame
    refine ⟨(mem_replaceAll s.store hnames).mpr hlisted, fun hmem => ?_⟩
    have hmem' : (⟨.added, l⟩ : Event) ∈ reconcileRelist env s.store items := hmem
    rw [reconcileRelist_split] at hmem'
    rcases List.mem_append.mp hmem' with he | he
    · obtain ⟨m, hm, hev⟩ := List.mem_filterMap.mp he
      obtain ⟨l', hl', heq⟩ := eq_of_listedEvent hev
      cases heq
      rw [hlease m hm (hl'.trans hl.symm), listedEvent_unchanged hflag hn] at hev
      cases hev
    · simp at he
  | frame f rv =>
    cases hnode : f.isNodeFrame with
    | false =>
      rw [effect_bookmark env rv hnode]
      exact ⟨hn, by simp⟩
    | true =>
      obtain ⟨hown, hother⟩ := hsame hnode
      by_cases hname : f.object.name = n.name
      · obtain ⟨hobj, hdel⟩ := hown hname
        obtain ⟨hstored, hevents⟩ := effect_same_object hflag hn rv hobj hdel
        exact ⟨hstored, by rw [hevents]; simp⟩
      · exact effect_other_object hn hname fun hview => hother hname (hview.trans hl.symm)

end Missed

/-- **A lease that was missed stays missed.**  When the store has a node whose lease the
watcher does not hold, no sequence of lists, frames, resyncs and session ends brings the
lease to the watcher, as long as the node is there and its object does not change. -/
theorem missed_lease_stays_missed (hflag : env.enableIpv4 = true ∨ env.enableIpv6 = true)
    {own : Lease} {s t : Informer} {as : List InformerAction} {n : Node} {l : Lease}
    (hn : n ∈ s.store.nodes) (hl : nodeView env n = some l) (hmiss : l ∉ (s.watcher own).leases)
    (hrun : run (step env) s as = some t) (hsame : Along (step env) (Unchanged env n) s as) :
    n ∈ t.store.nodes ∧ l ∉ (t.watcher own).leases := by
  refine run_invariant (P := fun u => n ∈ u.store.nodes ∧ l ∉ (u.watcher own).leases)
    (Q := Unchanged env n) (fun u a v hu ha hstep => ?_) ⟨hn, hmiss⟩ hsame hrun
  obtain ⟨hstored, hquiet⟩ := effect_unchanged hflag hu.1 hl ha
  obtain ⟨hstore, -⟩ := effect_of_step hstep
  refine ⟨by rw [hstore]; exact hstored, fun hheld => ?_⟩
  rw [watcher_of_step own hstep] at hheld
  rcases LeaseWatcher.mem_update hheld with hheld | hannounced
  · exact hu.2 hheld
  · exact hquiet hannounced

/-- The informer after a `MODIFIED` frame of a node that it had not listed. -/
def afterMissed : Informer :=
  ⟨(NodeStore.new.put (managedNode "x" "10.0.1.0/24")).1, true, .watching (some "2"), []⟩

/-- Neither the resync nor another list tells the watcher of the node. -/
theorem missed_lease_after_relist :
    run (step v4Env) new [.listed [] (some "1"),
        .frame ⟨.modified, managedNode "x" "10.0.1.0/24"⟩ (some "2")] = some afterMissed ∧
      ∃ t, run (step v4Env) afterMissed [.resync, .watchEnded .ended,
          .listed [managedNode "x" "10.0.1.0/24"] (some "3")] = some t ∧
        (managedNode "x" "10.0.1.0/24") ∈ t.store.nodes ∧
        { v4Lease 0x0a000100 with attrs := { publicIp := ⟨0xc0a80001⟩ } } ∉
          (t.watcher (v4Lease 0x0a00ff00)).leases := by
  refine ⟨rfl, _, rfl, ?_⟩
  refine @missed_lease_stays_missed v4Env (Or.inl rfl) (v4Lease 0x0a00ff00) afterMissed _
    [.resync, .watchEnded .ended, .listed [managedNode "x" "10.0.1.0/24"] (some "3")] _ _
    (List.mem_singleton.mpr rfl) rfl (by decide) rfl ?_
  refine ⟨trivial, fun t₁ _ => ⟨trivial, fun t₂ _ => ⟨⟨List.nodup_singleton _, by simp, ?_⟩,
    fun _ _ => trivial⟩⟩⟩
  intro m hm _
  exact List.mem_singleton.mp hm

end Informer

end Flannel
