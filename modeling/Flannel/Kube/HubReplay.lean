import Flannel.Kube.HubDelivery
import Flannel.Lease.Keyed

/-!
# What a late subscriber can reconstruct

The hub's backlog is a window of raw events, not of state.  A watcher that subscribes
after more events than the window holds never sees the older ones, so whether it
ends up with the leases of the whole history depends on what the forgotten part
left behind.

`missed_history` is the statement about watchers: folding only the later part of a
history gives the same leases as folding all of it exactly when every lease that the
earlier part leaves stored is addressed again in the later part.  Together with what
the hub sends, this is the exact condition for a late subscriber.

A watcher that subscribes *again* has the opposite trouble: the window overlaps what it
has processed already.  The replay rolls its leases back to older versions before it
catches up.  In the end this does no harm, whatever the overlap, as long as there is no
gap (`overlapping_history`).
-/

namespace Flannel

open Replay Run

namespace LeaseWatcher

variable {v4 v6 : Bool}

theorem foreign_append (own : Lease) (es fs : List Event) :
    foreign own (es ++ fs) = foreign own es ++ foreign own fs :=
  List.filter_append _ _

theorem mem_foreign_keys {own : Lease} {es : List Event} {k : SubnetKey}
    (hes : ∀ e ∈ es, e.lease.HasFlags v4 v6) (hk : k ≠ own.key v4 v6) :
    k ∈ ((foreign own es).map (Event.change v4 v6)).map Prod.fst ↔
      ∃ e ∈ es, e.lease.key v4 v6 = k := by
  simp only [List.map_map, List.mem_map, Function.comp_def, Event.change, foreign,
    List.mem_filter, Bool.not_eq_true']
  constructor
  · rintro ⟨e, ⟨he, -⟩, hkey⟩
    exact ⟨e, he, hkey⟩
  · rintro ⟨e, he, rfl⟩
    exact ⟨e, ⟨he, (isOwn_eq_false_iff (hes e he)).mpr hk⟩, rfl⟩

/-- A watcher that starts empty never stores a lease of the own subnet. -/
theorem key_ne_own {own : Lease} {es : List Event} (hes : ∀ e ∈ es, e.lease.HasFlags v4 v6)
    {l : Lease} (hl : l ∈ ((new own).update es).1.leases) : l.key v4 v6 ≠ own.key v4 v6 := by
  obtain ⟨hk, hv⟩ := update_new_view own hes
  rw [mem_leases_iff hk, hv] at hl
  intro heq
  rw [heq, replay_of_notMem (own_notMem_foreign hes)] at hl
  exact absurd hl (by simp)

/-- **Missing the older part of a history.** -/
theorem missed_history (own : Lease) {old es : List Event}
    (hold : ∀ e ∈ old, e.lease.HasFlags v4 v6) (hes : ∀ e ∈ es, e.lease.HasFlags v4 v6) :
    (∀ l, l ∈ ((new own).update es).1.leases ↔ l ∈ ((new own).update (old ++ es)).1.leases) ↔
      ∀ l ∈ ((new own).update old).1.leases, ∃ e ∈ es, e.lease.key v4 v6 = l.key v4 v6 := by
  have hall : ∀ e ∈ old ++ es, e.lease.HasFlags v4 v6 := by
    intro e he
    rcases List.mem_append.mp he with he | he
    · exact hold e he
    · exact hes e he
  obtain ⟨hk, hv⟩ := update_new_view own hes
  obtain ⟨hka, hva⟩ := update_new_view own hall
  obtain ⟨hko, hvo⟩ := update_new_view own hold
  rw [mem_leases_iff_view_eq hk hka, hv, hva, foreign_append, List.map_append,
    replay_append_eq_iff, ← hvo]
  constructor
  · intro h l hl
    have hown := key_ne_own hold hl
    rw [← mem_foreign_keys hes hown]
    refine h _ ?_
    rw [(mem_leases_iff hko).mp hl]
    exact Option.some_ne_none l
  · intro h k hstored
    obtain ⟨l, hl⟩ := Option.ne_none_iff_exists'.mp hstored
    obtain ⟨hmem, rfl⟩ := KeyedList.mem_of_lookup hl
    exact (mem_foreign_keys hes (key_ne_own hold hmem)).mpr (h l hmem)

/-- **A stretch of a history twice.**  The watcher has processed `old` and `both`, and then
gets `both` again, and what follows. -/
theorem overlapping_history (own : Lease) {old both es : List Event}
    (hflags : ∀ e ∈ old ++ both ++ es, e.lease.HasFlags v4 v6) :
    (((new own).update (old ++ both)).1.update (both ++ es)).1.view v4 v6 =
      ((new own).update (old ++ both ++ es)).1.view v4 v6 := by
  have hfirst : ∀ e ∈ old ++ both, e.lease.HasFlags v4 v6 :=
    fun e he => hflags e (List.mem_append_left _ he)
  have hagain : ∀ e ∈ both ++ es, e.lease.HasFlags v4 v6 := by
    intro e he
    refine hflags e ?_
    rw [List.append_assoc]
    exact List.mem_append_right _ he
  obtain ⟨hkeyed, hview⟩ := update_new_view own hfirst
  rw [update_view hkeyed hagain, hview, (update_new_view own hflags).2, update_ownLease,
    new_ownLease]
  simp only [foreign_append, List.map_append]
  exact replay_overlap _ _ _ _

/-- **Sessions that are established again.**  A watcher that has processed the first `k`
events of a history and then processes the last `m` of it, with no gap between them, stores
the same leases as one that has processed the history once. -/
theorem resubscribed_state (own : Lease) (history : List Event)
    (hflags : ∀ e ∈ history, e.lease.HasFlags v4 v6) (k m : Nat) (hgap : history.length - m ≤ k)
    (hk : k ≤ history.length) :
    let once := ((new own).update history).1
    let again := (((new own).update (history.take k)).1.update
      (history.drop (history.length - m))).1
    (∀ key, again.view v4 v6 key = once.view v4 v6 key) ∧
      ∀ l, l ∈ again.leases ↔ l ∈ once.leases := by
  intro once again
  -- the history is what comes before the replay, what is processed twice, and the rest
  obtain ⟨old, both, es, hhistory, hold, hboth⟩ : ∃ old both es, history = old ++ both ++ es ∧
      old.length = history.length - m ∧ (old ++ both).length = k := by
    have hfirst : (history.take k).take (history.length - m) =
        history.take (history.length - m) := by
      rw [List.take_take, Nat.min_eq_left hgap]
    refine ⟨(history.take k).take (history.length - m),
      (history.take k).drop (history.length - m), history.drop k, ?_, ?_, ?_⟩
    · rw [List.take_append_drop, List.take_append_drop]
    · rw [hfirst, List.length_take]
      omega
    · rw [List.take_append_drop, List.length_take]
      omega
  have htake : history.take k = old ++ both := by
    rw [hhistory, ← hboth, List.take_left]
  have hdrop : history.drop (history.length - m) = both ++ es := by
    rw [← hold, hhistory, List.append_assoc, List.drop_left]
  have hview : again.view v4 v6 = once.view v4 v6 := by
    unfold again once
    rw [htake, hdrop, hhistory]
    exact overlapping_history own (hhistory ▸ hflags)
  refine ⟨fun key => congrFun hview key, ?_⟩
  have honce : once.Keyed v4 v6 := (update_new_view own hflags).1
  have hagain : again.Keyed v4 v6 := by
    have htaken : ∀ e ∈ history.take k, e.lease.HasFlags v4 v6 :=
      fun e he => hflags e (List.mem_of_mem_take he)
    have hdropped : ∀ e ∈ history.drop (history.length - m), e.lease.HasFlags v4 v6 :=
      fun e he => hflags e (List.mem_of_mem_drop he)
    exact (update_keyed (update_new_view own htaken).1 hdropped).1
  exact (mem_leases_iff_view_eq hagain honce).mpr fun key => congrFun hview key

/-- The first peer is removed and the second moves; the replay starts at the beginning, when
both were as before. -/
def overlappingHistory : List Event :=
  [⟨.added, v4Lease 0x0a000100⟩, ⟨.added, v4Lease 0x0a000200⟩, ⟨.removed, v4Lease 0x0a000100⟩,
    ⟨.added, { v4Lease 0x0a000200 with attrs := { publicIp := ⟨0xc0a80002⟩ } }⟩]

theorem resubscribed_state_moved :
    (∀ e ∈ overlappingHistory, e.lease.HasFlags true false) ∧
      ∀ l, l ∈ (((new (v4Lease 0x0a00ff00)).update (overlappingHistory.take 3)).1.update
          (overlappingHistory.drop 0)).1.leases ↔
        l = { v4Lease 0x0a000200 with attrs := { publicIp := ⟨0xc0a80002⟩ } } := by
  have hflags : ∀ e ∈ overlappingHistory, e.lease.HasFlags true false := by decide
  obtain ⟨-, hleases⟩ := resubscribed_state (v4Lease 0x0a00ff00) overlappingHistory hflags 3 4
    (by decide) (by decide)
  refine ⟨hflags, fun l => (hleases l).trans ?_⟩
  have honce : ((new (v4Lease 0x0a00ff00)).update overlappingHistory).1.leases =
      [{ v4Lease 0x0a000200 with attrs := { publicIp := ⟨0xc0a80002⟩ } }] := by decide
  rw [honce, List.mem_singleton]

end LeaseWatcher

namespace EventHub

theorem capacity_step {hub hub' : EventHub} {a : Action} (h : hub.step a = some hub') :
    hub'.capacity = hub.capacity := by
  cases move_of_step h with
  | _ => rfl

theorem capacity_run {hub hub' : EventHub} {as : List Action} (h : run step hub as = some hub') :
    hub'.capacity = hub.capacity :=
  run_preserves (P := fun g => g.capacity = hub.capacity)
    (fun _ _ _ hg hst => (capacity_step hst).trans hg) rfl h

/-- The events that a run publishes, in order. -/
def publishedBy (as : List Action) : List Event := as.filterMap Action.event

/-- The events of a history that a hub of this capacity has let go. -/
def forgotten (capacity : Nat) (es : List Event) : List Event :=
  es.take (es.length - max capacity 1)

/-- The events of a history that a hub of this capacity can still replay. -/
def remembered (capacity : Nat) (es : List Event) : List Event :=
  es.drop (es.length - max capacity 1)

theorem forgotten_append_remembered (capacity : Nat) (es : List Event) :
    forgotten capacity es ++ remembered capacity es = es :=
  List.take_append_drop _ _

theorem remembered_of_le {capacity : Nat} {es : List Event} (h : es.length ≤ max capacity 1) :
    remembered capacity es = es := by
  rw [remembered, Nat.sub_eq_zero_of_le h, List.drop_zero]

/-- The backlog is the last events published, as many as the capacity allows. -/
theorem backlog_eq {capacity : Nat} {as : List Action} {hub : EventHub}
    (h : run step (new capacity) as = some hub) :
    hub.backlog = remembered capacity (publishedBy as) := by
  have hpub : hub.published = publishedBy as := by
    simpa [new, publishedBy] using published_run h
  rw [(registered_run h).window, hpub, capacity_run h]
  rfl

/-- A window of one event: the peer of the first event is gone when the subscriber
comes. -/
def shortWindowRun : List Action :=
  [.publish ⟨.added, v4Lease 0x0a000100⟩, .retire, .publish ⟨.added, v4Lease 0x0a000200⟩, .retire]

/-- A late subscriber does not always end up with the leases of the whole history. -/
theorem late_subscriber_misses_peer :
    ¬ ∀ (capacity : Nat) (own : Lease) (pre post : List Action) (g hub : EventHub)
      (c : Channel Event), run step (new capacity) pre = some g →
        run step g (.subscribe :: post) = some hub → .drop g.chans.length ∉ post →
        hub.publishing = none → hub.chans[g.chans.length]? = some c →
        ∀ l, l ∈ ((LeaseWatcher.new own).update c.sent).1.leases ↔
          l ∈ ((LeaseWatcher.new own).update (publishedBy pre ++ publishedBy post)).1.leases := by
  intro h
  have hmem := h 1 (v4Lease 0x0a00ff00) shortWindowRun [] _ _ _ rfl rfl (by simp) rfl rfl
    (v4Lease 0x0a000100)
  exact absurd hmem (by decide)

/-- **What a late subscriber reconstructs.**  When no `publish` is under way, a subscriber
that kept its receiver was sent the last events published before it came, as many as
the hub remembers, and all later ones.  If the hub had let go of none, the watcher fed
with them is the one fed with the whole history, batches included.  In general, for
leases of one pair of flags, both store the same leases exactly when every lease that
the forgotten events leave stored is addressed again by an event sent to the
subscriber. -/
theorem late_subscriber_state {capacity : Nat} {pre post : List Action} {g hub : EventHub}
    {c : Channel Event} (own : Lease) (hg : run step (new capacity) pre = some g)
    (h : run step g (.subscribe :: post) = some hub) (hkeep : .drop g.chans.length ∉ post)
    (hidle : hub.publishing = none) (hc : hub.chans[g.chans.length]? = some c) :
    c.sent = remembered capacity (publishedBy pre) ++ publishedBy post ∧
      ((publishedBy pre).length ≤ max capacity 1 →
        (LeaseWatcher.new own).update c.sent =
          (LeaseWatcher.new own).update (publishedBy pre ++ publishedBy post)) ∧
      ∀ v4 v6, (∀ e ∈ publishedBy pre ++ publishedBy post, e.lease.HasFlags v4 v6) →
        ((∀ l, l ∈ ((LeaseWatcher.new own).update c.sent).1.leases ↔
            l ∈ ((LeaseWatcher.new own).update (publishedBy pre ++ publishedBy post)).1.leases) ↔
          ∀ l ∈ ((LeaseWatcher.new own).update (forgotten capacity (publishedBy pre))).1.leases,
            ∃ e ∈ c.sent, sameSubnet v4 v6 e.lease l = true) := by
  have hsent : c.sent = remembered capacity (publishedBy pre) ++ publishedBy post := by
    obtain ⟨d, hd, hs⟩ := sent_after_subscribe hg h hkeep
    rw [hc] at hd
    cases hd
    rw [owed_of_idle hidle, List.append_nil, backlog_eq hg] at hs
    exact hs
  refine ⟨hsent, fun hle => ?_, fun v4 v6 hflags => ?_⟩
  · rw [hsent, remembered_of_le hle]
  · have hsplit : publishedBy pre ++ publishedBy post =
        forgotten capacity (publishedBy pre) ++ c.sent := by
      rw [hsent, ← List.append_assoc, forgotten_append_remembered]
    rw [hsplit] at hflags ⊢
    simp only [sameSubnet_iff]
    exact LeaseWatcher.missed_history own (fun e he => hflags e (List.mem_append_left _ he))
      (fun e he => hflags e (List.mem_append_right _ he))

/-- The forgotten peer is announced once more after the subscriber came. -/
def announcedAgain : List Action :=
  [.publish ⟨.added, v4Lease 0x0a000100⟩, .send, .retire]

theorem late_subscriber_catches_up :
    ∃ g hub c, run step (new 1) shortWindowRun = some g ∧
      run step g (.subscribe :: announcedAgain) = some hub ∧
      hub.chans[g.chans.length]? = some c ∧
      ∀ l, l ∈ ((LeaseWatcher.new (v4Lease 0x0a00ff00)).update c.sent).1.leases ↔
        l ∈ ((LeaseWatcher.new (v4Lease 0x0a00ff00)).update
          (publishedBy shortWindowRun ++ publishedBy announcedAgain)).1.leases := by
  obtain ⟨-, -, hiff⟩ := late_subscriber_state (v4Lease 0x0a00ff00)
    (rfl : run step (new 1) shortWindowRun = some _)
    (rfl : run step _ (.subscribe :: announcedAgain) = some _) (by decide) rfl rfl
  exact ⟨_, _, _, rfl, rfl, rfl, (hiff true false (by decide)).mpr (by decide)⟩

end EventHub

end Flannel
