import Flannel.Lease.OwnLease

/-!
# A consumer of the watcher's batches

A backend never sees the watcher's list.  It sees the batches, and keeps its own
table: an `Added` event inserts or replaces the lease under its key, a `Removed`
event deletes the key if it is there.  This file shows that the table follows the
watcher: after every step of every run the consumer holds exactly the keys the
watcher stores, less the own lease's key.

A batch of events changes the table exactly as it changes the watcher
(`update_emitted`), so the work is in the snapshots.  `resetLoop_spec` says what
the two loops of `reset` produce when neither the stored leases nor the snapshot
repeat a key: the leases of the snapshot whose key is new are announced, and the
stored leases whose key nobody in the snapshot claims are reported.  The own
lease enters only as an exception that the table never holds in the first place.
-/

namespace Flannel

open KeyedList Replay

variable {v4 v6 : Bool}

/-- The consumer's table after one batch. -/
def consume (v4 v6 : Bool) (held : SubnetKey → Option Lease) (batch : List Event) :
    SubnetKey → Option Lease :=
  replay held (batch.map (Event.change v4 v6))

/-- The consumer's table after a run of batches. -/
def consumeAll (v4 v6 : Bool) (held : SubnetKey → Option Lease)
    (batches : List (List Event)) : SubnetKey → Option Lease :=
  batches.foldl (consume v4 v6) held

namespace LeaseWatcher

/-! ## What a snapshot does -/

/-- **The two loops of `reset`.**  With distinct keys on both sides, the leases left
over are the stored ones that no foreign snapshot lease shares its key with, and
the leases announced are the foreign snapshot leases whose key is not stored. -/
theorem resetLoop_spec {own : Lease} {stored ls : List Lease}
    (hs : ∀ l ∈ stored, l.HasFlags v4 v6) (hls : ∀ l ∈ ls, l.HasFlags v4 v6)
    (hds : Distinct (Lease.key v4 v6) stored) (hdl : Distinct (Lease.key v4 v6) ls) :
    (∀ l, l ∈ (resetLoop own stored ls).1 ↔
      l ∈ stored ∧ ∀ nl ∈ ls, isOwn own nl = false → nl.key v4 v6 ≠ l.key v4 v6) ∧
    (resetLoop own stored ls).2 =
      (ls.filter fun nl => !isOwn own nl &&
        decide (nl.key v4 v6 ∉ stored.map (Lease.key v4 v6))).map fun nl => ⟨.added, nl⟩ := by
  induction ls generalizing stored with
  | nil => simp
  | cons nl ls ih =>
    obtain ⟨hnew, hdl'⟩ := distinct_cons.mp hdl
    have hls' := fun x hx => hls x (List.mem_cons_of_mem _ hx)
    cases hown : isOwn own nl with
    | true =>
      obtain ⟨ih₁, ih₂⟩ := ih hs hls' hds hdl'
      rw [resetLoop_own hown]
      refine ⟨fun l => ?_, ?_⟩
      · rw [ih₁ l]
        simp [hown]
      · rw [ih₂, List.filter_cons_of_neg (by simp [hown])]
    | false =>
      cases hm : firstMatch (fun ol => matchesStored ol nl) stored with
      | some r =>
        obtain ⟨pre, x, post⟩ := r
        obtain ⟨rfl, hk⟩ := key_eq_of_firstMatch hs hm
        have hsub : ∀ l ∈ pre ++ post, l.HasFlags v4 v6 := fun l hl =>
          hs l ((hds.mem_drop_iff l).mp hl).1
        obtain ⟨ih₁, ih₂⟩ := ih hsub hls' hds.drop hdl'
        rw [resetLoop_taken hown hm]
        refine ⟨fun l => ?_, ?_⟩
        · rw [ih₁ l, hds.mem_drop_iff, hk]
          simp only [List.mem_cons, forall_eq_or_imp, hown, forall_const]
          tauto
        · have hstored : nl.key v4 v6 ∈ (pre ++ x :: post).map (Lease.key v4 v6) := by
            rw [← hk]
            exact List.mem_map_of_mem (by simp)
          rw [ih₂, List.filter_cons_of_neg (by simp only [hstored]; simp)]
          congr 1
          -- the key taken out belongs to no later lease of the snapshot
          refine List.filter_congr fun y hy => ?_
          have hy' : y.key v4 v6 ≠ x.key v4 v6 := fun he =>
            hnew (by rw [← hk, ← he]; exact List.mem_map_of_mem hy)
          simp only [hds.mem_keys_drop_iff, ne_eq, hy', not_false_eq_true, and_true]
      | none =>
        have hk := key_notMem_of_firstMatch hs hm
        obtain ⟨ih₁, ih₂⟩ := ih hs hls' hds hdl'
        rw [resetLoop_announced hown hm]
        refine ⟨fun l => ?_, ?_⟩
        · rw [ih₁ l]
          simp only [List.mem_cons, forall_eq_or_imp, hown, forall_const]
          constructor
          · rintro ⟨hl, hrest⟩
            exact ⟨hl, fun he => hk (he ▸ List.mem_map_of_mem hl), hrest⟩
          · rintro ⟨hl, -, hrest⟩
            exact ⟨hl, hrest⟩
        · rw [ih₂, List.filter_cons_of_pos (by simpa [hown] using hk), List.map_cons]

/-- The consumer's table holds the keys of the watcher, less the own key. -/
def Tracks (v4 v6 : Bool) (held : SubnetKey → Option Lease) (lw : LeaseWatcher) : Prop :=
  ∀ k, held k ≠ none ↔
    k ∈ lw.leases.map (Lease.key v4 v6) ∧ k ≠ lw.ownLease.key v4 v6

/-- **A snapshot keeps the consumer in step.** -/
theorem reset_tracks {lw : LeaseWatcher} {ls : List Lease}
    {held : SubnetKey → Option Lease} (h : lw.Keyed v4 v6)
    (hls : ∀ l ∈ ls, l.HasFlags v4 v6) (hdl : Distinct (Lease.key v4 v6) ls)
    (ht : Tracks v4 v6 held lw) :
    Tracks v4 v6 (consume v4 v6 held (lw.reset ls).2) (lw.reset ls).1 := by
  obtain ⟨hleft, hadded⟩ := @resetLoop_spec v4 v6 lw.ownLease _ _ h.flags hls h.distinct hdl
  have hsets : ∀ c ∈ (resetLoop lw.ownLease lw.leases ls).2.map (Event.change v4 v6),
      c.2 ≠ none := by
    intro c hc
    rw [hadded, List.map_map] at hc
    obtain ⟨nl, -, rfl⟩ := List.mem_map.mp hc
    exact Option.some_ne_none nl
  intro k
  rw [reset_leases, reset_ownLease, consume, reset_events, List.map_append, replay_append,
    replay_deletes_ne_none (by simp [Event.change]), replay_sets_ne_none hsets, ht k, hadded]
  simp only [List.map_map, Function.comp_def, Event.change, List.mem_map, List.mem_filter,
    Bool.and_eq_true, Bool.not_eq_true', decide_eq_true_eq, hleft]
  constructor
  · rintro ⟨hkeep, ⟨nl, ⟨hnl, hown, -⟩, rfl⟩ | ⟨⟨l, hl, rfl⟩, hne⟩⟩
    · exact ⟨⟨nl, hnl, rfl⟩, (isOwn_eq_false_iff (hls nl hnl)).mp hown⟩
    · -- a key held before and not reported is claimed by the snapshot
      by_contra hno
      refine hkeep ⟨l, ⟨hl, fun nl hnl _ he => hno ⟨⟨nl, hnl, he⟩, hne⟩⟩, rfl⟩
  · rintro ⟨⟨nl, hnl, rfl⟩, hne⟩
    have hown := (isOwn_eq_false_iff (hls nl hnl)).mpr hne
    refine ⟨?_, ?_⟩
    · rintro ⟨l, ⟨-, hl⟩, he⟩
      exact hl nl hnl hown he.symm
    · by_cases hst : ∃ l ∈ lw.leases, l.key v4 v6 = nl.key v4 v6
      · exact Or.inr ⟨hst, hne⟩
      · exact Or.inl ⟨nl, ⟨hnl, hown, hst⟩, rfl⟩

/-! ## What a batch of events does -/

/-- **A batch of events keeps the consumer in step.** -/
theorem update_tracks {lw : LeaseWatcher} {es : List Event}
    {held : SubnetKey → Option Lease} (h : lw.Keyed v4 v6)
    (hes : ∀ e ∈ es, e.lease.HasFlags v4 v6) (ht : Tracks v4 v6 held lw) :
    Tracks v4 v6 (consume v4 v6 held (lw.update es).2) (lw.update es).1 := by
  intro k
  have hview := congrFun (update_view h hes) k
  rw [mem_keys_iff, ← view, hview, update_ownLease, consume, update_emitted h hes]
  by_cases hk : k ∈ ((foreign lw.ownLease es).map (Event.change v4 v6)).map Prod.fst
  · have hne : k ≠ lw.ownLease.key v4 v6 := by
      rintro rfl
      exact own_notMem_foreign hes hk
    rw [replay_eq_of_mem hk]
    exact ⟨fun hh => ⟨hh, hne⟩, fun hh => hh.1⟩
  · rw [replay_of_notMem hk, replay_of_notMem hk, ht k, mem_keys_iff]
    rfl

/-! ## Runs -/

/-- One result, with the watcher keyed: it stays keyed and the consumer stays in
step. -/
theorem reduce_tracks {lw : LeaseWatcher} {wr : LeaseWatchResult}
    {held : SubnetKey → Option Lease} (h : lw.Keyed v4 v6) (hwr : wr.HasFlags v4 v6)
    (hd : wr.events = [] → Distinct (Lease.key v4 v6) wr.snapshot)
    (ht : Tracks v4 v6 held lw) :
    (lw.reduce wr).1.Keyed v4 v6 ∧
      Tracks v4 v6 (consume v4 v6 held (lw.reduce wr).2) (lw.reduce wr).1 := by
  by_cases hev : wr.events = []
  · rw [reduce_of_snapshot hev]
    exact ⟨⟨hwr.2, hd hev⟩, reset_tracks h hwr.2 (hd hev) ht⟩
  · rw [reduce_of_events hev]
    exact ⟨(update_keyed h hwr.1).1, update_tracks h hwr.1 ht⟩

theorem reduceAll_tracks {lw : LeaseWatcher} {wrs : List LeaseWatchResult}
    {held : SubnetKey → Option Lease} (h : lw.Keyed v4 v6)
    (hwrs : ∀ wr ∈ wrs, wr.HasFlags v4 v6)
    (hd : ∀ wr ∈ wrs, wr.events = [] → Distinct (Lease.key v4 v6) wr.snapshot)
    (ht : Tracks v4 v6 held lw) :
    (lw.reduceAll wrs).1.Keyed v4 v6 ∧
      Tracks v4 v6 (consumeAll v4 v6 held (lw.reduceAll wrs).2) (lw.reduceAll wrs).1 := by
  induction wrs generalizing lw held with
  | nil => exact ⟨h, ht⟩
  | cons wr wrs ih =>
    obtain ⟨hk, ht'⟩ := reduce_tracks h (hwrs wr List.mem_cons_self)
      (hd wr List.mem_cons_self) ht
    exact ih hk (fun w hw => hwrs w (List.mem_cons_of_mem _ hw))
      (fun w hw => hd w (List.mem_cons_of_mem _ hw)) ht'

/-- In a run of event batches the consumer's table *is* the watcher's map. -/
theorem reduceAll_events_view {lw : LeaseWatcher} {wrs : List LeaseWatchResult}
    (h : lw.Keyed v4 v6) (hwrs : ∀ wr ∈ wrs, wr.HasFlags v4 v6)
    (hev : ∀ wr ∈ wrs, wr.events ≠ []) :
    consumeAll v4 v6 (lw.view v4 v6) (lw.reduceAll wrs).2 =
      (lw.reduceAll wrs).1.view v4 v6 := by
  induction wrs generalizing lw with
  | nil => rfl
  | cons wr wrs ih =>
    have hwr := hwrs wr List.mem_cons_self
    have hstep : consume v4 v6 (lw.view v4 v6) (lw.reduce wr).2 =
        (lw.reduce wr).1.view v4 v6 := by
      rw [reduce_of_events (hev wr List.mem_cons_self), consume, update_emitted h hwr.1,
        update_view h hwr.1]
    have hk : (lw.reduce wr).1.Keyed v4 v6 := by
      rw [reduce_of_events (hev wr List.mem_cons_self)]
      exact (update_keyed h hwr.1).1
    rw [reduceAll_cons, consumeAll, List.foldl_cons, hstep]
    exact ih hk (fun w hw => hwrs w (List.mem_cons_of_mem _ hw))
      (fun w hw => hev w (List.mem_cons_of_mem _ hw))

/-- **The consumer follows the watcher.**  Let all leases of a run carry the same
flags and let no snapshot it uses repeat a key.  After every step of the run --- after
every initial part `done` of it --- a consumer that started empty holds exactly the
keys of the watcher's leases other than the own lease's key, and the watcher stores
no key twice.  If the run has no snapshot, the consumer holds under each key the
very lease the watcher stores. -/
theorem consumer_follows_watcher (v4 v6 : Bool) (own : Lease)
    (wrs : List LeaseWatchResult) (hflags : ∀ wr ∈ wrs, wr.HasFlags v4 v6)
    (hsnap : ∀ wr ∈ wrs, wr.events = [] → Distinct (Lease.key v4 v6) wr.snapshot)
    (done : List LeaseWatchResult) (hdone : done <+: wrs) :
    (∀ k, consumeAll v4 v6 (fun _ => none) ((new own).reduceAll done).2 k ≠ none ↔
        k ∈ ((new own).reduceAll done).1.leases.map (Lease.key v4 v6) ∧
          k ≠ own.key v4 v6) ∧
      Distinct (Lease.key v4 v6) ((new own).reduceAll done).1.leases ∧
      ((∀ wr ∈ wrs, wr.events ≠ []) →
        ∀ k, consumeAll v4 v6 (fun _ => none) ((new own).reduceAll done).2 k =
          lookup (Lease.key v4 v6) k ((new own).reduceAll done).1.leases) := by
  have hsub : ∀ wr ∈ done, wr ∈ wrs := fun wr hwr => hdone.subset hwr
  have hf := fun wr hwr => hflags wr (hsub wr hwr)
  obtain ⟨hk, ht⟩ := reduceAll_tracks (keyed_new own) hf
    (fun wr hwr => hsnap wr (hsub wr hwr))
    (show Tracks v4 v6 (fun _ => none) (new own) by intro k; simp)
  refine ⟨fun k => ?_, hk.distinct, fun hev k => ?_⟩
  · rw [ht k, reduceAll_ownLease, new_ownLease]
  · exact congrFun (reduceAll_events_view (keyed_new own) hf
      fun wr hwr => hev wr (hsub wr hwr)) k

/-- Two peers learned from a snapshot that lists the own lease too, one of them
removed by an event, the other moved to a new address. -/
def mixedRun : List LeaseWatchResult :=
  [{ snapshot := [v4Lease 0x0a010200, v4Lease 0x0a010300, v4Lease 0x0a010400] },
    { events := [⟨.removed, v4Lease 0x0a010300⟩] },
    { events := [⟨.added, { v4Lease 0x0a010400 with attrs := ⟨⟨7⟩, none, "", none, none⟩ }⟩] }]

/-- The run after two of its three steps. -/
theorem consumer_follows_watcher_mixed_run :
    mixedRun.take 2 <+: mixedRun ∧
      ∀ k, consumeAll true false (fun _ => none)
          ((new (v4Lease 0x0a010200)).reduceAll (mixedRun.take 2)).2 k ≠ none ↔
        k ∈ ((new (v4Lease 0x0a010200)).reduceAll (mixedRun.take 2)).1.leases.map
              (Lease.key true false) ∧
          k ≠ (v4Lease 0x0a010200).key true false :=
  ⟨List.take_prefix 2 mixedRun,
    (consumer_follows_watcher true false (v4Lease 0x0a010200) mixedRun
      (by decide) (by unfold Distinct; decide) _ (List.take_prefix 2 mixedRun)).1⟩

end LeaseWatcher

end Flannel
