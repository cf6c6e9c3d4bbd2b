import Flannel.Lease.Basic
import Flannel.Lib.Replay

/-!
# The watcher as a map from subnets to leases

When every lease of a run carries the same enable flags --- as the leases of one
subnet manager do --- `sameSubnet` is equality of keys, where the key of a lease
is the subnet or the pair of subnets the flags select.  The watcher's list is
then a finite map, an event is a change of one key, and `update` is the replay of
the changes that pass the own-lease filter.

The batches `update` emits say the same thing as the events it consumed: the
changes of the emitted batch *are* the changes of the filtered input
(`update_emitted`).  A `Removed` event may carry a different lease --- the stored
one, or one that was never stored --- but never a different key.
-/

namespace Flannel

open KeyedList Replay

/-- The subnets compared under a pair of enable flags. -/
abbrev SubnetKey := Option IP4Net × Option IP6Net

/-- The key of a lease under a pair of enable flags. -/
def Lease.key (v4 v6 : Bool) (l : Lease) : SubnetKey :=
  match v4, v6 with
  | true, false => (some l.subnet, none)
  | false, true => (none, some l.ipv6Subnet)
  | true, true => (some l.subnet, some l.ipv6Subnet)
  | false, false => (some l.subnet, none)

/-- The lease carries these enable flags. -/
def Lease.HasFlags (v4 v6 : Bool) (l : Lease) : Prop :=
  l.enableIpv4 = v4 ∧ l.enableIpv6 = v6

/-- Every lease of the result carries these enable flags. -/
def LeaseWatchResult.HasFlags (v4 v6 : Bool) (wr : LeaseWatchResult) : Prop :=
  (∀ e ∈ wr.events, e.lease.HasFlags v4 v6) ∧ ∀ l ∈ wr.snapshot, l.HasFlags v4 v6

instance (v4 v6 : Bool) (l : Lease) : Decidable (l.HasFlags v4 v6) :=
  inferInstanceAs (Decidable (_ ∧ _))

instance (v4 v6 : Bool) (wr : LeaseWatchResult) : Decidable (wr.HasFlags v4 v6) :=
  inferInstanceAs (Decidable (_ ∧ _))

/-- The change an event makes to a map from keys to leases: `Added` sets the key of
its lease, `Removed` deletes it. -/
def Event.change (v4 v6 : Bool) (e : Event) : SubnetKey × Option Lease :=
  (e.lease.key v4 v6,
    match e.eventType with
    | .added => some e.lease
    | .removed => none)

variable {v4 v6 : Bool}

/-- **`sameSubnet` is equality of keys.** -/
theorem sameSubnet_iff (a b : Lease) :
    sameSubnet v4 v6 a b = true ↔ a.key v4 v6 = b.key v4 v6 := by
  cases v4 <;> cases v6 <;> simp [sameSubnet, Lease.key]

theorem isOwn_iff {own l : Lease} (h : l.HasFlags v4 v6) :
    isOwn own l = true ↔ l.key v4 v6 = own.key v4 v6 := by
  rw [isOwn, h.1, h.2, sameSubnet_iff, eq_comm]

theorem isOwn_eq_false_iff {own l : Lease} (h : l.HasFlags v4 v6) :
    isOwn own l = false ↔ l.key v4 v6 ≠ own.key v4 v6 := by
  rw [ne_eq, ← isOwn_iff h, Bool.not_eq_true]

theorem matchesStored_iff {stored l : Lease} (h : stored.HasFlags v4 v6) :
    matchesStored stored l = true ↔ stored.key v4 v6 = l.key v4 v6 := by
  rw [matchesStored, h.1, h.2, sameSubnet_iff]

/-- A scan for a key that fails says the key is not stored. -/
theorem key_notMem_of_firstMatch {leases : List Lease} {l : Lease}
    (hf : ∀ x ∈ leases, x.HasFlags v4 v6)
    (h : firstMatch (fun x => matchesStored x l) leases = none) :
    l.key v4 v6 ∉ leases.map (Lease.key v4 v6) := by
  intro hk
  obtain ⟨x, hx, he⟩ := List.mem_map.mp hk
  have hno := firstMatch_eq_none.mp h x hx
  rw [(matchesStored_iff (hf x hx)).mpr he] at hno
  exact absurd hno (by simp)

/-- A scan for a key that succeeds splits the list at the entry of that key. -/
theorem key_eq_of_firstMatch {leases pre post : List Lease} {l x : Lease}
    (hf : ∀ x ∈ leases, x.HasFlags v4 v6)
    (h : firstMatch (fun x => matchesStored x l) leases = some (pre, x, post)) :
    leases = pre ++ x :: post ∧ x.key v4 v6 = l.key v4 v6 := by
  obtain ⟨hsplit, hx, -⟩ := firstMatch_eq_some h
  refine ⟨hsplit, (matchesStored_iff (hf x ?_)).mp hx⟩
  rw [hsplit]
  simp

namespace LeaseWatcher

/-- The state a watcher is in when all its leases carry one pair of flags and no
subnet is stored twice. -/
structure Keyed (v4 v6 : Bool) (lw : LeaseWatcher) : Prop where
  flags : ∀ l ∈ lw.leases, l.HasFlags v4 v6
  distinct : Distinct (Lease.key v4 v6) lw.leases

/-- The map a watcher stores. -/
def view (v4 v6 : Bool) (lw : LeaseWatcher) (k : SubnetKey) : Option Lease :=
  lookup (Lease.key v4 v6) k lw.leases

theorem keyed_new (own : Lease) : (new own).Keyed v4 v6 :=
  ⟨by simp, List.nodup_nil⟩

/-- The stored leases are the values of the map. -/
theorem mem_leases_iff {lw : LeaseWatcher} (h : lw.Keyed v4 v6) {l : Lease} :
    l ∈ lw.leases ↔ lw.view v4 v6 (l.key v4 v6) = some l := by
  rw [view, lookup_eq_some_iff h.distinct]
  simp

/-! ## One event -/

/-- `add` sets the key of its lease. -/
theorem add_keyed {lw : LeaseWatcher} {l : Lease} (h : lw.Keyed v4 v6)
    (hl : l.HasFlags v4 v6) :
    (lw.add l).1.Keyed v4 v6 ∧
      (lw.add l).1.view v4 v6 = Replay.apply (lw.view v4 v6) (l.key v4 v6, some l) := by
  unfold add
  split
  · rename_i pre x post hm
    obtain ⟨hsplit, hk⟩ := key_eq_of_firstMatch h.flags hm
    have hd : Distinct (Lease.key v4 v6) (pre ++ x :: post) := hsplit ▸ h.distinct
    refine ⟨⟨?_, hd.replace hk.symm⟩, ?_⟩
    · intro y hy
      rcases List.mem_append.mp hy with hy | hy
      · exact h.flags y (by rw [hsplit]; simp [hy])
      · rcases List.mem_cons.mp hy with rfl | hy
        · exact hl
        · exact h.flags y (by rw [hsplit]; simp [hy])
    · funext k
      rw [view, lookup_replace hd hk.symm, Replay.apply, Function.update_apply, view, hsplit]
  · rename_i hm
    have hk := key_notMem_of_firstMatch h.flags hm
    refine ⟨⟨?_, h.distinct.snoc hk⟩, ?_⟩
    · intro y hy
      rcases List.mem_append.mp hy with hy | hy
      · exact h.flags y hy
      · rw [List.mem_singleton.mp hy]
        exact hl
    · funext k
      rw [view, lookup_snoc h.distinct hk, Replay.apply, Function.update_apply, view]

/-- `remove` deletes the key of its lease, and the lease it reports has that key. -/
theorem remove_keyed {lw : LeaseWatcher} (h : lw.Keyed v4 v6) (l : Lease) :
    (lw.remove l).1.Keyed v4 v6 ∧
      (lw.remove l).1.view v4 v6 = Replay.apply (lw.view v4 v6) (l.key v4 v6, none) ∧
      (lw.remove l).2.change v4 v6 = (l.key v4 v6, none) := by
  unfold remove
  split
  · rename_i pre x post hm
    obtain ⟨hsplit, hk⟩ := key_eq_of_firstMatch h.flags hm
    have hd : Distinct (Lease.key v4 v6) (pre ++ x :: post) := hsplit ▸ h.distinct
    refine ⟨⟨?_, hd.drop⟩, ?_, by rw [Event.change, hk]⟩
    · intro y hy
      refine h.flags y ?_
      rw [hsplit]
      rcases List.mem_append.mp hy with hy | hy <;> simp [hy]
    · funext k
      rw [view, lookup_drop hd, Replay.apply, Function.update_apply, view, hsplit, hk]
  · rename_i hm
    have hk := key_notMem_of_firstMatch h.flags hm
    refine ⟨h, ?_, rfl⟩
    funext k
    rw [Replay.apply, Function.update_apply]
    split
    · rename_i he
      rw [view, he, lookup_eq_none_iff.mpr hk]
    · rfl

/-- One event: the state stays keyed, the map takes the event's change, and the
event reported has the same change. -/
theorem applyEvent_keyed {lw : LeaseWatcher} {e : Event} (h : lw.Keyed v4 v6)
    (he : e.lease.HasFlags v4 v6) :
    (lw.applyEvent e).1.Keyed v4 v6 ∧
      (lw.applyEvent e).1.view v4 v6 = Replay.apply (lw.view v4 v6) (e.change v4 v6) ∧
      (lw.applyEvent e).2.change v4 v6 = e.change v4 v6 := by
  obtain ⟨ty, l⟩ := e
  cases ty with
  | added =>
    obtain ⟨hk, hv⟩ := add_keyed h he
    exact ⟨hk, hv, by simp [applyEvent, Event.change]⟩
  | removed => exact remove_keyed h l

/-! ## A batch of events -/

/-- The events of a batch that pass the own-lease filter. -/
def foreign (own : Lease) (es : List Event) : List Event :=
  es.filter fun e => !isOwn own e.lease

theorem foreign_cons_own {own : Lease} {e : Event} (h : isOwn own e.lease = true)
    (es : List Event) : foreign own (e :: es) = foreign own es := by
  simp [foreign, h]

theorem foreign_cons {own : Lease} {e : Event} (h : isOwn own e.lease = false)
    (es : List Event) : foreign own (e :: es) = e :: foreign own es := by
  simp [foreign, h]

/-- **`update` is the replay of the filtered changes**, and the batch it emits says
the same changes again. -/
theorem update_keyed {lw : LeaseWatcher} {es : List Event} (h : lw.Keyed v4 v6)
    (hes : ∀ e ∈ es, e.lease.HasFlags v4 v6) :
    (lw.update es).1.Keyed v4 v6 ∧
      (lw.update es).1.view v4 v6 =
        replay (lw.view v4 v6) ((foreign lw.ownLease es).map (Event.change v4 v6)) ∧
      (lw.update es).2.map (Event.change v4 v6) =
        (foreign lw.ownLease es).map (Event.change v4 v6) := by
  induction es generalizing lw with
  | nil => exact ⟨h, rfl, rfl⟩
  | cons e es ih =>
    have hrest : ∀ e ∈ es, e.lease.HasFlags v4 v6 :=
      fun x hx => hes x (List.mem_cons_of_mem _ hx)
    cases hown : isOwn lw.ownLease e.lease with
    | true =>
      rw [update_cons_own hown, foreign_cons_own hown]
      exact ih h hrest
    | false =>
      obtain ⟨hk, hv, hc⟩ := applyEvent_keyed h (hes e List.mem_cons_self)
      obtain ⟨ihk, ihv, ihc⟩ := ih hk hrest
      rw [update_cons hown, foreign_cons hown]
      rw [applyEvent_ownLease] at ihv ihc
      refine ⟨ihk, ?_, ?_⟩
      · rw [ihv, hv, List.map_cons, replay_cons]
      · rw [List.map_cons, List.map_cons, hc, ihc]

theorem update_view {lw : LeaseWatcher} {es : List Event} (h : lw.Keyed v4 v6)
    (hes : ∀ e ∈ es, e.lease.HasFlags v4 v6) :
    (lw.update es).1.view v4 v6 =
      replay (lw.view v4 v6) ((foreign lw.ownLease es).map (Event.change v4 v6)) :=
  (update_keyed h hes).2.1

theorem update_emitted {lw : LeaseWatcher} {es : List Event} (h : lw.Keyed v4 v6)
    (hes : ∀ e ∈ es, e.lease.HasFlags v4 v6) :
    (lw.update es).2.map (Event.change v4 v6) =
      (foreign lw.ownLease es).map (Event.change v4 v6) :=
  (update_keyed h hes).2.2

/-- An own key is never stored by `update`, so a replay of filtered changes leaves
it alone. -/
theorem own_notMem_foreign {own : Lease} {es : List Event}
    (hes : ∀ e ∈ es, e.lease.HasFlags v4 v6) :
    own.key v4 v6 ∉ ((foreign own es).map (Event.change v4 v6)).map Prod.fst := by
  intro hk
  simp only [List.map_map, List.mem_map, Function.comp_def, Event.change, foreign,
    List.mem_filter, Bool.not_eq_true'] at hk
  obtain ⟨e, ⟨he, hown⟩, hkey⟩ := hk
  exact (isOwn_eq_false_iff (hes e he)).mp hown hkey

/-- Two keyed watchers store the same leases exactly when they store the same map. -/
theorem mem_leases_iff_view_eq {lw lw' : LeaseWatcher} (h : lw.Keyed v4 v6)
    (h' : lw'.Keyed v4 v6) :
    (∀ l, l ∈ lw.leases ↔ l ∈ lw'.leases) ↔ ∀ k, lw.view v4 v6 k = lw'.view v4 v6 k :=
  mem_iff_iff_lookup_eq h.distinct h'.distinct

/-- What a watcher that starts empty stores after a history. -/
theorem update_new_view (own : Lease) {es : List Event}
    (hes : ∀ e ∈ es, e.lease.HasFlags v4 v6) :
    ((new own).update es).1.Keyed v4 v6 ∧
      ((new own).update es).1.view v4 v6 =
        replay (fun _ => none) ((foreign own es).map (Event.change v4 v6)) :=
  ⟨(update_keyed (keyed_new own) hes).1, update_view (keyed_new own) hes⟩

/-- One addition: the lease is stored in place of what its key held. -/
theorem update_added {lw : LeaseWatcher} (h : lw.Keyed v4 v6) {l : Lease}
    (hl : l.HasFlags v4 v6) (hown : isOwn lw.ownLease l = false) :
    (lw.update [⟨.added, l⟩]).1.Keyed v4 v6 ∧
      ∀ x, x ∈ (lw.update [⟨.added, l⟩]).1.leases ↔
        x = l ∨ x ∈ lw.leases ∧ x.key v4 v6 ≠ l.key v4 v6 := by
  rw [update_cons hown]
  obtain ⟨hk, hv, -⟩ := applyEvent_keyed (e := ⟨.added, l⟩) h hl
  refine ⟨hk, fun x => ?_⟩
  rw [update_nil, mem_leases_iff hk, hv, Replay.apply, Function.update_apply, mem_leases_iff h]
  by_cases heq : x.key v4 v6 = l.key v4 v6
  · simp [Event.change, heq, eq_comm]
  · have hne : x ≠ l := fun hx => heq (hx ▸ rfl)
    simp [Event.change, heq, hne]

/-- One removal: the key of the lease is given up. -/
theorem update_removed {lw : LeaseWatcher} (h : lw.Keyed v4 v6) {l : Lease}
    (hl : l.HasFlags v4 v6) (hown : isOwn lw.ownLease l = false) :
    (lw.update [⟨.removed, l⟩]).1.Keyed v4 v6 ∧
      ∀ x, x ∈ (lw.update [⟨.removed, l⟩]).1.leases ↔
        x ∈ lw.leases ∧ x.key v4 v6 ≠ l.key v4 v6 := by
  rw [update_cons hown]
  obtain ⟨hk, hv, -⟩ := applyEvent_keyed (e := ⟨.removed, l⟩) h hl
  refine ⟨hk, fun x => ?_⟩
  rw [update_nil, mem_leases_iff hk, hv, Replay.apply, Function.update_apply, mem_leases_iff h]
  by_cases heq : x.key v4 v6 = l.key v4 v6
  · simp [Event.change, heq]
  · simp [Event.change, heq]

end LeaseWatcher

end Flannel
