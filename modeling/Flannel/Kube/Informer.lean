import Flannel.Kube.NodeView

/-!
# The node informer

The node store and the two places of `subnet/kube/informer.rs` that turn node objects
into lease events: `reconcile_relist`, which compares a fresh LIST with the store, and
`dispatch`, which routes one WATCH frame.  The resync of `run_watch` is the third.

The store is a hash map from names to nodes.  Every node is stored under its own
name, so it is a list of nodes with distinct names; the list also stands for the
order in which the map is walked, which is arbitrary, and every statement is about
every such list.
-/

namespace Flannel

open KeyedList

/-- The name a node is stored under. -/
def Node.name (n : Node) : String := n.metadata.name

/-- `NodeStore`, without its sync signal. -/
structure NodeStore where
  nodes : List Node
  distinct : Distinct Node.name nodes

namespace NodeStore

/-- `NodeStore::new`. -/
def new : NodeStore := ⟨[], List.nodup_nil⟩

/-- `NodeStore::get`. -/
def get (store : NodeStore) (name : String) : Option Node := lookup Node.name name store.nodes

/-- `NodeStore::put`: the store with the node, and what was there before. -/
def put (store : NodeStore) (node : Node) : NodeStore × Option Node :=
  (⟨insert Node.name node store.nodes, store.distinct.insert node⟩, store.get node.name)

/-- `NodeStore::remove`. -/
def remove (store : NodeStore) (name : String) : NodeStore × Option Node :=
  (⟨erase Node.name name store.nodes, store.distinct.erase name⟩, store.get name)

/-- `NodeStore::replace_all`: the new store, and the content before. -/
def replaceAll (store : NodeStore) (items : List Node) : NodeStore × NodeStore :=
  (items.foldl (fun s node => (s.put node).1) new, store)

end NodeStore

/-- `reconcile_relist`: the events of a LIST that replaces the store. -/
def reconcileRelist (env : EventEnv) (old : NodeStore) (items : List Node) : List Event :=
  let seen := items.map Node.name
  let changed := items.filterMap fun node =>
    match old.get node.name with
    | none => handleAddLeaseEvent env .added node
    | some prev => handleUpdateLeaseEvent env prev node
  let missing := old.nodes.filterMap fun node =>
    if node.name ∈ seen then none else handleAddLeaseEvent env .removed node
  changed ++ missing

/-- One LIST of `run_node_informer`: the new store and the events. -/
def relist (env : EventEnv) (store : NodeStore) (items : List Node) : NodeStore × List Event :=
  let (store, old) := store.replaceAll items
  (store, reconcileRelist env old items)

/-- The resync of `run_watch`: every stored node as its own update. -/
def resync (env : EventEnv) (store : NodeStore) : List Event :=
  store.nodes.filterMap fun node => handleUpdateLeaseEvent env node node

/-- `WatchEventType`. -/
inductive WatchEventType where
  | added
  | modified
  | deleted
  | bookmark
  | error
  deriving DecidableEq, Repr

/-- `WatchEvent`: one watch frame. -/
structure WatchEvent where
  eventType : WatchEventType
  object : Node

/-- `dispatch`: the store after a frame, and the event handed to the queue. -/
def dispatch (env : EventEnv) (store : NodeStore) (event : WatchEvent) :
    NodeStore × Option Event :=
  match event.eventType with
  | .added =>
    match store.put event.object with
    | (store, none) => (store, handleAddLeaseEvent env .added event.object)
    | (store, some old) => (store, handleUpdateLeaseEvent env old event.object)
  | .modified =>
    let (store, previous) := store.put event.object
    (store, handleUpdateLeaseEvent env (previous.getD event.object) event.object)
  | .bookmark => (store, none)
  | .deleted =>
    ((store.remove event.object.name).1, handleAddLeaseEvent env .removed event.object)
  | .error => (store, none)

/-- The frames of a WATCH, one after another. -/
def dispatchAll (env : EventEnv) (store : NodeStore) : List WatchEvent → NodeStore × List Event
  | [] => (store, [])
  | event :: events =>
    let (store, evt) := dispatch env store event
    let (store, evts) := dispatchAll env store events
    (store, evt.toList ++ evts)

/-! ## The store -/

namespace NodeStore

theorem mem_put_iff {store : NodeStore} {node n : Node} :
    n ∈ (store.put node).1.nodes ↔ n ∈ store.nodes ∧ n.name ≠ node.name ∨ n = node :=
  mem_insert_iff

theorem mem_remove_iff {store : NodeStore} {name : String} {n : Node} :
    n ∈ (store.remove name).1.nodes ↔ n ∈ store.nodes ∧ n.name ≠ name :=
  mem_erase_iff

theorem get_eq_some_iff {store : NodeStore} {name : String} {n : Node} :
    store.get name = some n ↔ n ∈ store.nodes ∧ n.name = name :=
  lookup_eq_some_iff store.distinct

theorem get_eq_none_iff {store : NodeStore} {name : String} :
    store.get name = none ↔ ∀ n ∈ store.nodes, n.name ≠ name := by
  rw [get, lookup_eq_none_iff]
  simp

end NodeStore

/-! ## What a frame does -/

/-- The store after a frame. -/
theorem mem_dispatch_iff {env : EventEnv} {store : NodeStore} {f : WatchEvent} {n : Node} :
    n ∈ (dispatch env store f).1.nodes ↔
      match f.eventType with
      | .added | .modified => n ∈ store.nodes ∧ n.name ≠ f.object.name ∨ n = f.object
      | .deleted => n ∈ store.nodes ∧ n.name ≠ f.object.name
      | .bookmark | .error => n ∈ store.nodes := by
  unfold dispatch
  cases f.eventType with
  | added =>
    rw [← NodeStore.mem_put_iff]
    rcases store.put f.object with ⟨s, _ | old⟩
    · exact Iff.rfl
    · exact Iff.rfl
  | modified => exact NodeStore.mem_put_iff
  | deleted => exact NodeStore.mem_remove_iff
  | bookmark => exact Iff.rfl
  | error => exact Iff.rfl

/-- The event that a frame hands on. -/
theorem dispatch_event (env : EventEnv) (store : NodeStore) (f : WatchEvent) :
    (dispatch env store f).2 =
      match f.eventType with
      | .added =>
        match store.get f.object.name with
        | none => handleAddLeaseEvent env .added f.object
        | some old => handleUpdateLeaseEvent env old f.object
      | .modified =>
        handleUpdateLeaseEvent env ((store.get f.object.name).getD f.object) f.object
      | .deleted => handleAddLeaseEvent env .removed f.object
      | .bookmark | .error => none := by
  unfold dispatch
  cases f.eventType with
  | added =>
    have hput : (store.put f.object).2 = store.get f.object.name := rfl
    rw [← hput]
    rcases store.put f.object with ⟨s, _ | old⟩
    · rfl
    · rfl
  | modified => rfl
  | deleted => rfl
  | bookmark => rfl
  | error => rfl

/-! ## Updates that change nothing -/

/-- An object compared with itself has nothing changed. -/
theorem leaseChanged_self {env : EventEnv} (h : env.enableIpv4 = true ∨ env.enableIpv6 = true)
    (n : Node) : leaseChanged env n n = false := by
  rcases h with h | h
  · simp [leaseChanged, sameFamily, h]
  · simp [leaseChanged, sameFamily, h]

theorem handleUpdateLeaseEvent_self {env : EventEnv}
    (h : env.enableIpv4 = true ∨ env.enableIpv6 = true) (n : Node) :
    handleUpdateLeaseEvent env n n = none := by
  rw [handleUpdateLeaseEvent_eq, leaseChanged_self h]
  rfl

/-- The resync hands nothing to the queue. -/
theorem resync_eq_nil {env : EventEnv} (h : env.enableIpv4 = true ∨ env.enableIpv6 = true)
    (store : NodeStore) : resync env store = [] := by
  rw [resync, List.filterMap_eq_nil_iff]
  intro n _
  exact handleUpdateLeaseEvent_self h n

end Flannel
