import Flannel.Kube.Relist
import Mathlib.Data.List.Induction

/-!
# A sequence of watch frames

`dispatch` keeps two things: the node store, and --- through the events it hands on ---
the leases of the watcher.  This file follows both over a whole sequence of frames,
for a manager whose node objects do not change, so that only the coming and going of
nodes is at stake.

The store is right after every frame: it holds a node exactly when its last frame was
not a `DELETED` one.  The watcher is right as long as every `MODIFIED` frame is about a
node that the store knows.  For a node the store does not know, `dispatch` puts the
object in and then compares it with itself, finds nothing changed, and hands on no
event; the watcher never learns of the node.
-/

namespace Flannel

open KeyedList

/-- Whether the frame says something about a node. -/
def WatchEvent.isNodeFrame (f : WatchEvent) : Bool :=
  match f.eventType with
  | .added | .modified | .deleted => true
  | .bookmark | .error => false

/-- The last frame about the node of this name. -/
def lastFrame (name : String) (frames : List WatchEvent) : Option WatchEvent :=
  (frames.filter fun f => f.isNodeFrame && f.object.name == name).getLast?

/-- The node was seen, and its last frame was not a `DELETED` one. -/
def Live (name : String) (frames : List WatchEvent) : Prop :=
  ∃ f, lastFrame name frames = some f ∧ f.eventType ≠ .deleted

/-- The store holds exactly the live nodes, as their last frames have them. -/
def StoreAgrees (frames : List WatchEvent) (store : NodeStore) : Prop :=
  ∀ n, n ∈ store.nodes ↔
    ∃ f, lastFrame n.name frames = some f ∧ f.eventType ≠ .deleted ∧ f.object = n

/-- The watcher stores exactly the leases of the stored nodes. -/
def WatcherAgrees (env : EventEnv) (store : NodeStore) (lw : LeaseWatcher) : Prop :=
  ∀ l, l ∈ lw.leases ↔ l ∈ leasesOf env store.nodes

/-- The store and the watcher after a sequence of frames, from nothing. -/
def informed (env : EventEnv) (own : Lease) (frames : List WatchEvent) :
    NodeStore × LeaseWatcher :=
  let r := dispatchAll env NodeStore.new frames
  (r.1, ((LeaseWatcher.new own).update r.2).1)

/-! ## One more frame -/

theorem dispatchAll_snoc (env : EventEnv) (store : NodeStore) (frames : List WatchEvent)
    (f : WatchEvent) :
    dispatchAll env store (frames ++ [f]) =
      ((dispatch env (dispatchAll env store frames).1 f).1,
        (dispatchAll env store frames).2 ++
          (dispatch env (dispatchAll env store frames).1 f).2.toList) := by
  induction frames generalizing store with
  | nil => simp [dispatchAll]
  | cons g frames ih => simp only [List.cons_append, dispatchAll, ih, List.append_assoc]

theorem informed_snoc (env : EventEnv) (own : Lease) (frames : List WatchEvent) (f : WatchEvent) :
    informed env own (frames ++ [f]) =
      ((dispatch env (informed env own frames).1 f).1,
        ((informed env own frames).2.update
          (dispatch env (informed env own frames).1 f).2.toList).1) := by
  simp only [informed, dispatchAll_snoc, LeaseWatcher.update_append]

theorem lastFrame_snoc_of_ne {name : String} {f : WatchEvent} (h : f.object.name ≠ name)
    (frames : List WatchEvent) : lastFrame name (frames ++ [f]) = lastFrame name frames := by
  simp [lastFrame, List.filter_append, h]

theorem lastFrame_snoc_of_not {name : String} {f : WatchEvent} (h : f.isNodeFrame = false)
    (frames : List WatchEvent) : lastFrame name (frames ++ [f]) = lastFrame name frames := by
  simp [lastFrame, List.filter_append, h]

theorem lastFrame_snoc_self {f : WatchEvent} (h : f.isNodeFrame = true)
    (frames : List WatchEvent) : lastFrame f.object.name (frames ++ [f]) = some f := by
  simp [lastFrame, List.filter_append, h]

theorem mem_of_lastFrame {name : String} {frames : List WatchEvent} {f : WatchEvent}
    (h : lastFrame name frames = some f) :
    f ∈ frames ∧ f.isNodeFrame = true ∧ f.object.name = name := by
  have hmem := List.mem_of_getLast? h
  simpa [and_assoc] using List.mem_filter.mp hmem

/-! ## The store -/

/-- **The store is right after every frame.** -/
theorem storeAgrees_dispatch {env : EventEnv} {frames : List WatchEvent} {store : NodeStore}
    (h : StoreAgrees frames store) (f : WatchEvent) :
    StoreAgrees (frames ++ [f]) (dispatch env store f).1 := by
  intro n
  rw [mem_dispatch_iff]
  by_cases hname : f.object.name = n.name
  · have hself : f.isNodeFrame = true → lastFrame n.name (frames ++ [f]) = some f :=
      fun hnode => hname ▸ lastFrame_snoc_self hnode frames
    cases hf : f.eventType with
    | added =>
      rw [hself (by simp [WatchEvent.isNodeFrame, hf])]
      simp [hf, hname, eq_comm]
    | modified =>
      rw [hself (by simp [WatchEvent.isNodeFrame, hf])]
      simp [hf, hname, eq_comm]
    | deleted =>
      rw [hself (by simp [WatchEvent.isNodeFrame, hf])]
      simp [hf, hname]
    | bookmark =>
      rw [lastFrame_snoc_of_not (by simp [WatchEvent.isNodeFrame, hf])]
      exact h n
    | error =>
      rw [lastFrame_snoc_of_not (by simp [WatchEvent.isNodeFrame, hf])]
      exact h n
  · have hne : n.name ≠ f.object.name := fun heq => hname heq.symm
    have hobj : n ≠ f.object := fun heq => hne (heq ▸ rfl)
    rw [lastFrame_snoc_of_ne hname, ← h n]
    cases f.eventType with
    | added => simp [hne, hobj]
    | modified => simp [hne, hobj]
    | deleted => simp [hne]
    | bookmark => exact Iff.rfl
    | error => exact Iff.rfl

theorem storeAgrees_informed (env : EventEnv) (own : Lease) (frames : List WatchEvent) :
    StoreAgrees frames (informed env own frames).1 := by
  induction frames using List.reverseRecOn with
  | nil => simp [StoreAgrees, informed, dispatchAll, NodeStore.new, lastFrame]
  | append_singleton frames f ih =>
    rw [informed_snoc]
    exact storeAgrees_dispatch ih f

theorem get_eq_none_iff_not_live {frames : List WatchEvent} {store : NodeStore}
    (h : StoreAgrees frames store) {name : String} :
    store.get name = none ↔ ¬ Live name frames := by
  rw [NodeStore.get_eq_none_iff]
  constructor
  · rintro hno ⟨f, hf, hdel⟩
    obtain ⟨-, -, hname⟩ := mem_of_lastFrame hf
    exact hno f.object ((h f.object).mpr ⟨f, hname ▸ hf, hdel, rfl⟩) hname
  · intro hdead n hn hname
    obtain ⟨f, hf, hdel, -⟩ := (h n).mp hn
    exact hdead ⟨f, hname ▸ hf, hdel⟩

/-! ## The watcher -/

/-- All frames of one node carry the same managed, convertible object, and different
nodes have different pod CIDRs, none of them the own subnet. -/
structure SteadyNodes (env : EventEnv) (own : Lease) (frames : List WatchEvent) : Prop where
  managed : ∀ f ∈ frames, f.isNodeFrame = true →
    isManaged env f.object = true ∧ ∃ l, nodeToLease env f.object = .ok l
  same : ∀ f ∈ frames, ∀ g ∈ frames, f.isNodeFrame = true → g.isNodeFrame = true →
    f.object.name = g.object.name → f.object = g.object
  cidrs : ∀ f ∈ frames, ∀ g ∈ frames, f.isNodeFrame = true → g.isNodeFrame = true →
    f.object.name ≠ g.object.name → ipv4Cidr f.object ≠ ipv4Cidr g.object
  foreign : ∀ f ∈ frames, f.isNodeFrame = true → ipv4Cidr f.object ≠ .ok (some own.subnet)

theorem SteadyNodes.of_isPrefix {env : EventEnv} {own : Lease} {frames pre : List WatchEvent}
    (h : SteadyNodes env own frames) (hpre : pre <+: frames) : SteadyNodes env own pre where
  managed f hf := h.managed f (hpre.subset hf)
  same f hf g hg := h.same f (hpre.subset hf) g (hpre.subset hg)
  cidrs f hf g hg := h.cidrs f (hpre.subset hf) g (hpre.subset hg)
  foreign f hf := h.foreign f (hpre.subset hf)

section Step

variable {env : EventEnv} {own : Lease} {frames : List WatchEvent} {f : WatchEvent}
  {store : NodeStore} {lw : LeaseWatcher}

/-- What is stored came with an earlier frame. -/
theorem exists_frame_of_mem (hstore : StoreAgrees frames store) {n : Node} (hn : n ∈ store.nodes) :
    ∃ g ∈ frames ++ [f], g.isNodeFrame = true ∧ g.object = n := by
  obtain ⟨g, hg, -, rfl⟩ := (hstore n).mp hn
  obtain ⟨hmem, hnode, -⟩ := mem_of_lastFrame hg
  exact ⟨g, List.mem_append_left _ hmem, hnode, rfl⟩

theorem eq_object_of_name (hs : SteadyNodes env own (frames ++ [f]))
    (hstore : StoreAgrees frames store) (hf : f.isNodeFrame = true) {n : Node}
    (hn : n ∈ store.nodes) (hname : n.name = f.object.name) : n = f.object := by
  obtain ⟨g, hg, hnode, rfl⟩ := exists_frame_of_mem (f := f) hstore hn
  exact hs.same g hg f (List.mem_append_right _ List.mem_cons_self) hnode hf hname

theorem key_ne_of_name (h4 : env.enableIpv4 = true) (h6 : env.enableIpv6 = false)
    (hs : SteadyNodes env own (frames ++ [f])) (hstore : StoreAgrees frames store)
    (hf : f.isNodeFrame = true) {n : Node} (hn : n ∈ store.nodes)
    (hname : n.name ≠ f.object.name) {l l' : Lease} (hl : nodeView env f.object = some l)
    (hl' : nodeView env n = some l') : leaseKey env l' ≠ leaseKey env l := by
  obtain ⟨g, hg, hnode, rfl⟩ := exists_frame_of_mem (f := f) hstore hn
  rw [ne_eq, leaseKey_eq_iff_ipv4Cidr h4 h6 hl' hl]
  exact hs.cidrs g hg f (List.mem_append_right _ List.mem_cons_self) hnode hf hname

/-- The view of the frame's object, and that it is not the own lease. -/
theorem view_of_frame (h4 : env.enableIpv4 = true) (h6 : env.enableIpv6 = false)
    (hs : SteadyNodes env own (frames ++ [f])) (hf : f.isNodeFrame = true) :
    ∃ l, nodeView env f.object = some l ∧ isOwn own l = false := by
  have hmem : f ∈ frames ++ [f] := List.mem_append_right _ List.mem_cons_self
  obtain ⟨hm, l, hl⟩ := hs.managed f hmem hf
  have hv := nodeView_eq_some.mpr ⟨hm, hl⟩
  exact ⟨l, hv, isOwn_eq_false_of_ipv4Cidr h4 h6 hv (hs.foreign f hmem hf)⟩

/-- A frame about a stored node that is not a removal changes neither the set of stored
nodes nor the watcher. -/
theorem dispatch_known (h4 : env.enableIpv4 = true) (hs : SteadyNodes env own (frames ++ [f]))
    (hstore : StoreAgrees frames store) (hf : f.eventType = .added ∨ f.eventType = .modified)
    (hlive : Live f.object.name frames) :
    (dispatch env store f).2 = none ∧
      ∀ n, n ∈ (dispatch env store f).1.nodes ↔ n ∈ store.nodes := by
  have hnode : f.isNodeFrame = true := by
    rcases hf with hf | hf <;> simp [WatchEvent.isNodeFrame, hf]
  have hget : store.get f.object.name ≠ none := by
    rw [ne_eq, get_eq_none_iff_not_live hstore, not_not]
    exact hlive
  obtain ⟨old, hold⟩ := Option.ne_none_iff_exists'.mp hget
  obtain ⟨hmem, hname⟩ := NodeStore.get_eq_some_iff.mp hold
  have hobj := eq_object_of_name hs hstore hnode hmem hname
  rw [hobj] at hold hmem
  constructor
  · rw [dispatch_event, hold]
    rcases hf with hf | hf
    · rw [hf]
      exact handleUpdateLeaseEvent_self (Or.inl h4) _
    · rw [hf]
      exact handleUpdateLeaseEvent_self (Or.inl h4) _
  · intro n
    have hiff : n ∈ store.nodes ∧ n.name ≠ f.object.name ∨ n = f.object ↔ n ∈ store.nodes := by
      constructor
      · rintro (⟨hn, -⟩ | rfl)
        · exact hn
        · exact hmem
      · intro hn
        by_cases hnn : n.name = f.object.name
        · exact Or.inr (eq_object_of_name hs hstore hnode hn hnn)
        · exact Or.inl ⟨hn, hnn⟩
    rw [mem_dispatch_iff]
    rcases hf with hf | hf
    · rw [hf]
      exact hiff
    · rw [hf]
      exact hiff

/-- The watcher keeps one lease per subnet, for its own lease, and agrees with the store. -/
structure Follows (env : EventEnv) (own : Lease) (store : NodeStore) (lw : LeaseWatcher) :
    Prop where
  keyed : lw.Keyed env.enableIpv4 env.enableIpv6
  ownLease : lw.ownLease = own
  agrees : WatcherAgrees env store lw

/-- A new node is announced. -/
theorem follows_added (h4 : env.enableIpv4 = true) (h6 : env.enableIpv6 = false)
    (hs : SteadyNodes env own (frames ++ [f])) (hstore : StoreAgrees frames store)
    (hlw : Follows env own store lw) (hf : f.eventType = .added)
    (hnew : ¬ Live f.object.name frames) :
    Follows env own (dispatch env store f).1 (lw.update (dispatch env store f).2.toList).1 := by
  have hnode : f.isNodeFrame = true := by simp [WatchEvent.isNodeFrame, hf]
  obtain ⟨l, hl, hown⟩ := view_of_frame h4 h6 hs hnode
  rw [← get_eq_none_iff_not_live hstore] at hnew
  have hevent : (dispatch env store f).2 = some ⟨.added, l⟩ := by
    rw [dispatch_event, hf, hnew]
    simp only [handleAddLeaseEvent_eq, hl, Option.map_some]
  rw [hevent, Option.toList_some]
  rw [← hlw.ownLease] at hown
  obtain ⟨hk, hmem⟩ := LeaseWatcher.update_added hlw.keyed (nodeView_flags hl) hown
  refine ⟨hk, by rw [LeaseWatcher.update_ownLease, hlw.ownLease], fun x => ?_⟩
  rw [hmem, hlw.agrees, mem_leasesOf, mem_leasesOf]
  constructor
  · rintro (rfl | ⟨⟨n, hn, hv⟩, -⟩)
    · exact ⟨f.object, by rw [mem_dispatch_iff, hf]; exact Or.inr rfl, hl⟩
    · refine ⟨n, ?_, hv⟩
      rw [mem_dispatch_iff, hf]
      exact Or.inl ⟨hn, NodeStore.get_eq_none_iff.mp hnew n hn⟩
  · rintro ⟨n, hn, hv⟩
    rw [mem_dispatch_iff, hf] at hn
    rcases hn with ⟨hn, hname⟩ | rfl
    · exact Or.inr ⟨⟨n, hn, hv⟩, key_ne_of_name h4 h6 hs hstore hnode hn hname hl hv⟩
    · exact Or.inl (Option.some.inj (hv.symm.trans hl))

/-- A deleted node is reported, stored or not. -/
theorem follows_deleted (h4 : env.enableIpv4 = true) (h6 : env.enableIpv6 = false)
    (hs : SteadyNodes env own (frames ++ [f])) (hstore : StoreAgrees frames store)
    (hlw : Follows env own store lw) (hf : f.eventType = .deleted) :
    Follows env own (dispatch env store f).1 (lw.update (dispatch env store f).2.toList).1 := by
  have hnode : f.isNodeFrame = true := by simp [WatchEvent.isNodeFrame, hf]
  obtain ⟨l, hl, hown⟩ := view_of_frame h4 h6 hs hnode
  have hevent : (dispatch env store f).2 = some ⟨.removed, l⟩ := by
    rw [dispatch_event, hf]
    simp only [handleAddLeaseEvent_eq, hl, Option.map_some]
  rw [hevent, Option.toList_some]
  rw [← hlw.ownLease] at hown
  obtain ⟨hk, hmem⟩ := LeaseWatcher.update_removed hlw.keyed (nodeView_flags hl) hown
  refine ⟨hk, by rw [LeaseWatcher.update_ownLease, hlw.ownLease], fun x => ?_⟩
  rw [hmem, hlw.agrees, mem_leasesOf, mem_leasesOf]
  constructor
  · rintro ⟨⟨n, hn, hv⟩, hne⟩
    refine ⟨n, ?_, hv⟩
    rw [mem_dispatch_iff, hf]
    refine ⟨hn, fun hname => hne ?_⟩
    rw [eq_object_of_name hs hstore hnode hn hname, hl] at hv
    rw [Option.some.inj hv]
  · rintro ⟨n, hn, hv⟩
    rw [mem_dispatch_iff, hf] at hn
    exact ⟨⟨n, hn.1, hv⟩, key_ne_of_name h4 h6 hs hstore hnode hn.1 hn.2 hl hv⟩

/-- **One frame keeps the watcher in step**, if a `MODIFIED` frame finds its node in the
store. -/
theorem follows_dispatch (h4 : env.enableIpv4 = true) (h6 : env.enableIpv6 = false)
    (hs : SteadyNodes env own (frames ++ [f])) (hstore : StoreAgrees frames store)
    (hlw : Follows env own store lw)
    (hknown : f.eventType = .modified → Live f.object.name frames) :
    Follows env own (dispatch env store f).1 (lw.update (dispatch env store f).2.toList).1 := by
  have hquiet : (dispatch env store f).2 = none →
      (∀ n, n ∈ (dispatch env store f).1.nodes ↔ n ∈ store.nodes) →
      Follows env own (dispatch env store f).1 (lw.update (dispatch env store f).2.toList).1 := by
    intro hevent hnodes
    rw [hevent]
    refine ⟨hlw.keyed, hlw.ownLease, fun l => ?_⟩
    rw [Option.toList_none, LeaseWatcher.update_nil, hlw.agrees, mem_leasesOf, mem_leasesOf]
    simp only [hnodes]
  cases hf : f.eventType with
  | added =>
    by_cases hlive : Live f.object.name frames
    · obtain ⟨hevent, hnodes⟩ := dispatch_known h4 hs hstore (Or.inl hf) hlive
      exact hquiet hevent hnodes
    · exact follows_added h4 h6 hs hstore hlw hf hlive
  | modified =>
    obtain ⟨hevent, hnodes⟩ := dispatch_known h4 hs hstore (Or.inr hf) (hknown hf)
    exact hquiet hevent hnodes
  | deleted => exact follows_deleted h4 h6 hs hstore hlw hf
  | bookmark => exact hquiet (by rw [dispatch_event, hf]) fun n => by rw [mem_dispatch_iff, hf]
  | error => exact hquiet (by rw [dispatch_event, hf]) fun n => by rw [mem_dispatch_iff, hf]

/-- A `MODIFIED` frame of a node that the store does not know puts them out of step. -/
theorem not_agrees_of_unknown (h4 : env.enableIpv4 = true) (h6 : env.enableIpv6 = false)
    (hs : SteadyNodes env own (frames ++ [f])) (hstore : StoreAgrees frames store)
    (hagrees : WatcherAgrees env store lw) (hf : f.eventType = .modified)
    (hnew : ¬ Live f.object.name frames) :
    ¬ WatcherAgrees env (dispatch env store f).1
      (lw.update (dispatch env store f).2.toList).1 := by
  have hnode : f.isNodeFrame = true := by simp [WatchEvent.isNodeFrame, hf]
  obtain ⟨l, hl, -⟩ := view_of_frame h4 h6 hs hnode
  rw [← get_eq_none_iff_not_live hstore] at hnew
  have hevent : (dispatch env store f).2 = none := by
    rw [dispatch_event, hf, hnew]
    exact handleUpdateLeaseEvent_self (Or.inl h4) _
  intro hafter
  rw [hevent, Option.toList_none, LeaseWatcher.update_nil] at hafter
  have hstored : f.object ∈ (dispatch env store f).1.nodes := by
    rw [mem_dispatch_iff, hf]
    exact Or.inr rfl
  have hheld := (hafter l).mpr (mem_leasesOf.mpr ⟨f.object, hstored, hl⟩)
  obtain ⟨n, hn, hv⟩ := mem_leasesOf.mp ((hagrees l).mp hheld)
  exact key_ne_of_name h4 h6 hs hstore hnode hn (NodeStore.get_eq_none_iff.mp hnew n hn) hl hv rfl

end Step

/-! ## Whole sequences -/

/-- Every `MODIFIED` frame is about a node whose last earlier frame exists and was not a
`DELETED` one. -/
def ModifiesKnown (frames : List WatchEvent) : Prop :=
  ∀ pre f post, frames = pre ++ f :: post → f.eventType = .modified → Live f.object.name pre

theorem isPrefix_of_snoc {frames pre : List WatchEvent} {f : WatchEvent}
    (h : pre ++ [f] <+: frames) : ∃ post, frames = pre ++ f :: post := by
  obtain ⟨post, rfl⟩ := h
  exact ⟨post, by rw [List.append_assoc, List.singleton_append]⟩

theorem follows_informed {env : EventEnv} {own : Lease} {frames : List WatchEvent}
    (h4 : env.enableIpv4 = true) (h6 : env.enableIpv6 = false)
    (hs : SteadyNodes env own frames) (hknown : ModifiesKnown frames) {pre : List WatchEvent}
    (hpre : pre <+: frames) :
    Follows env own (informed env own pre).1 (informed env own pre).2 := by
  induction pre using List.reverseRecOn with
  | nil =>
    refine ⟨LeaseWatcher.keyed_new own, rfl, fun l => ?_⟩
    simp [informed, dispatchAll, NodeStore.new, leasesOf]
  | append_singleton pre f ih =>
    obtain ⟨post, hsplit⟩ := isPrefix_of_snoc hpre
    have hpre' : pre <+: frames := (List.prefix_append pre [f]).trans hpre
    rw [informed_snoc]
    exact follows_dispatch h4 h6 (hs.of_isPrefix hpre) (storeAgrees_informed env own pre) (ih hpre')
      (hknown pre f post hsplit)

/-- **When store and watcher agree after every frame.**  For an IPv4-only manager whose
nodes do not change: the store always holds exactly the nodes whose last frame was not a
`DELETED` one, and after every frame the watcher stores exactly the leases of these nodes,
if and only if every `MODIFIED` frame is about a node that the store knows. -/
theorem frames_agree_iff {env : EventEnv} {own : Lease} {frames : List WatchEvent}
    (h4 : env.enableIpv4 = true) (h6 : env.enableIpv6 = false)
    (hs : SteadyNodes env own frames) :
    (∀ pre, pre <+: frames → StoreAgrees pre (informed env own pre).1 ∧
      WatcherAgrees env (informed env own pre).1 (informed env own pre).2) ↔
      ModifiesKnown frames := by
  constructor
  · intro h pre f post hsplit hf
    by_contra hnew
    have hsnoc : pre ++ [f] <+: frames := ⟨post, by rw [hsplit]; simp⟩
    have hpre : pre <+: frames := (List.prefix_append pre [f]).trans hsnoc
    have hafter := (h _ hsnoc).2
    rw [informed_snoc] at hafter
    exact not_agrees_of_unknown h4 h6 (hs.of_isPrefix hsnoc) (h pre hpre).1 (h pre hpre).2 hf hnew
      hafter
  · intro h pre hpre
    exact ⟨storeAgrees_informed env own pre, (follows_informed h4 h6 hs h hpre).agrees⟩

/-! ## Frames of one node -/

/-- A frame of node `x`. -/
def frameOfX (t : WatchEventType) : WatchEvent := ⟨t, managedNode "x" "10.0.1.0/24"⟩

theorem steadyNodes_frameOfX (ts : List WatchEventType) :
    SteadyNodes v4Env (v4Lease 0x0a00ff00) (ts.map frameOfX) := by
  have hobj : ∀ f ∈ ts.map frameOfX, f.object = managedNode "x" "10.0.1.0/24" := by
    intro f hf
    obtain ⟨t, -, rfl⟩ := List.mem_map.mp hf
    rfl
  refine ⟨fun f hf _ => ?_, fun f hf g hg _ _ _ => ?_, fun f hf g hg _ _ hne => ?_,
    fun f hf _ => ?_⟩
  · rw [hobj f hf]
    exact ⟨rfl, _, rfl⟩
  · rw [hobj f hf, hobj g hg]
  · rw [hobj f hf, hobj g hg] at hne
    exact absurd rfl hne
  · rw [hobj f hf]
    rintro ⟨⟩

/-- A node first seen by a `MODIFIED` frame never reaches the watcher. -/
theorem node_first_seen_modified_is_missed :
    ¬ ∀ (env : EventEnv) (own : Lease) (frames : List WatchEvent), env.enableIpv4 = true →
      env.enableIpv6 = false → SteadyNodes env own frames →
      ∀ pre, pre <+: frames → StoreAgrees pre (informed env own pre).1 ∧
        WatcherAgrees env (informed env own pre).1 (informed env own pre).2 := by
  intro h
  have hagrees := (h v4Env (v4Lease 0x0a00ff00) ([.modified].map frameOfX) rfl rfl
    (steadyNodes_frameOfX _) _ List.prefix_rfl).2
  have hheld := (hagrees { v4Lease 0x0a000100 with attrs := { publicIp := ⟨0xc0a80001⟩ } }).mpr
    (by decide)
  exact absurd hheld (by decide)

theorem modifiesKnown_snoc {frames : List WatchEvent} {f : WatchEvent} (h : ModifiesKnown frames)
    (hf : f.eventType = .modified → Live f.object.name frames) :
    ModifiesKnown (frames ++ [f]) := by
  intro pre g post hsplit hg
  rcases List.eq_nil_or_concat post with rfl | ⟨post, x, rfl⟩
  · obtain ⟨rfl, heq⟩ := List.append_inj' hsplit rfl
    cases heq
    exact hf hg
  · have hsplit' : frames ++ [f] = (pre ++ g :: post) ++ [x] := by
      rw [hsplit, List.concat_eq_append, List.append_assoc, List.cons_append]
    exact h pre g post (List.append_inj' hsplit' rfl).1 hg

theorem frames_agree_of_known_node :
    ModifiesKnown ([.added, .modified, .bookmark, .deleted].map frameOfX) ∧
      ∀ pre, pre <+: [.added, .modified, .bookmark, .deleted].map frameOfX →
        StoreAgrees pre (informed v4Env (v4Lease 0x0a00ff00) pre).1 ∧
        WatcherAgrees v4Env (informed v4Env (v4Lease 0x0a00ff00) pre).1
          (informed v4Env (v4Lease 0x0a00ff00) pre).2 := by
  have hknown : ModifiesKnown ([.added, .modified, .bookmark, .deleted].map frameOfX) := by
    have h0 : ModifiesKnown [] := by
      intro pre f post hsplit
      simp at hsplit
    have h1 := modifiesKnown_snoc (f := frameOfX .added) h0 (by rintro ⟨⟩)
    have h2 := modifiesKnown_snoc (f := frameOfX .modified) h1
      fun _ => ⟨frameOfX .added, rfl, by rintro ⟨⟩⟩
    have h3 := modifiesKnown_snoc (f := frameOfX .bookmark) h2 (by rintro ⟨⟩)
    exact modifiesKnown_snoc (f := frameOfX .deleted) h3 (by rintro ⟨⟩)
  exact ⟨hknown, (frames_agree_iff rfl rfl (steadyNodes_frameOfX _)).mpr hknown⟩

end Flannel
