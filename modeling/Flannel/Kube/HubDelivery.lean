import Flannel.Kube.Hub

/-!
# What a subscriber of the hub is sent

Between the locked step of a `publish` and its sends the lock is free, so a
subscriber can come or go in the gap.  The reason nothing is lost or doubled is that
the locked step decides two things at once: the event is in the backlog, and the
senders that will get it are the ones registered now.  A later subscriber has the
event in its backlog and its sender is not in the copied list; an earlier one has it
the other way round.

`Served` states this for one subscriber: what was sent to it, together with the event
that the current `publish` still owes it, is its backlog and everything published
since.  It survives every step but the dropping of the receiver.  `Registered` is
what it needs to know about the rest of the hub.
-/

namespace Flannel

open Run

namespace EventHub

/-- The event an action publishes. -/
def Action.event : Action → Option Event
  | .publish event => some event
  | _ => none

/-- What the current `publish` still owes the `i`-th subscriber. -/
def owed (hub : EventHub) (i : Nat) : List Event :=
  match hub.publishing with
  | some p => if i ∈ p.remaining then [p.event] else []
  | none => []

/-! ## The senders of the hub -/

/-- The invariant of the subscriber list and of the current `publish`. -/
structure Registered (hub : EventHub) : Prop where
  known : ∀ i ∈ hub.subscribers, i < hub.chans.length
  nodup : hub.subscribers.Nodup
  remaining : ∀ p ∈ hub.publishing, p.remaining.Nodup ∧ ∀ i ∈ p.remaining, i < hub.chans.length
  retired : ∀ p ∈ hub.publishing, ∀ i ∈ p.retired,
    ∃ c, hub.chans[i]? = some c ∧ c.closed = true
  window : hub.backlog = hub.published.drop (hub.published.length - hub.capacity)

theorem registered_new (capacity : Nat) : Registered (new capacity) where
  known := by simp [new]
  nodup := by simp [new]
  remaining := by simp [new]
  retired := by simp [new]
  window := by simp [new]

/-- A closed channel stays closed when a channel is replaced by a later state of it. -/
theorem closed_set {chans : List (Channel Event)} {i j : Nat} {c d : Channel Event}
    (hi : chans[i]? = some c) (hd : c.closed = true → d.closed = true)
    (h : ∃ x, chans[j]? = some x ∧ x.closed = true) :
    ∃ x, (chans.set i d)[j]? = some x ∧ x.closed = true := by
  obtain ⟨x, hx, hclosed⟩ := h
  by_cases hij : i = j
  · subst hij
    rw [hi] at hx
    cases hx
    obtain ⟨hlt, -⟩ := List.getElem?_eq_some_iff.mp hi
    exact ⟨d, List.getElem?_set_self hlt, hd hclosed⟩
  · exact ⟨x, by rw [List.getElem?_set_ne hij]; exact hx, hclosed⟩

/-- Replacing a channel by a later state of it keeps the invariant. -/
theorem Registered.set {hub : EventHub} (h : Registered hub) {i : Nat} {c d : Channel Event}
    (hi : hub.chans[i]? = some c) (hd : c.closed = true → d.closed = true) :
    Registered { hub with chans := hub.chans.set i d } where
  known j hj := by simpa using h.known j hj
  nodup := h.nodup
  remaining p hp := by simpa using h.remaining p hp
  retired p hp j hj := closed_set hi hd (h.retired p hp j hj)
  window := h.window

/-- The senders that are left after the next one. -/
theorem Registered.rest {hub : EventHub} (h : Registered hub) {e : Event} {i : Nat}
    {rest retired : List Nat} (hpub : hub.publishing = some ⟨e, i :: rest, retired⟩) :
    rest.Nodup ∧ ∀ j ∈ rest, j < hub.chans.length := by
  obtain ⟨hnd, hlt⟩ := h.remaining _ hpub
  exact ⟨(List.nodup_cons.mp hnd).2, fun j hj => hlt j (List.mem_cons_of_mem _ hj)⟩

theorem registered_subscribe {hub : EventHub} (h : Registered hub) :
    Registered hub.subscribe := by
  have hgrow : hub.subscribe.chans.length = hub.chans.length + 1 := by simp [subscribe]
  refine ⟨fun i hi => ?_, ?_, fun p hp => ?_, fun p hp i hi => ?_, h.window⟩
  · rcases List.mem_append.mp hi with hi | hi
    · have hlt := h.known i hi
      omega
    · rw [List.mem_singleton.mp hi]
      omega
  · show (hub.subscribers ++ [hub.chans.length]).Nodup
    rw [List.nodup_append]
    refine ⟨h.nodup, List.nodup_singleton _, fun i hi j hj heq => ?_⟩
    have hlt := h.known i hi
    rw [List.mem_singleton] at hj
    omega
  · obtain ⟨hnd, hlt⟩ := h.remaining p hp
    refine ⟨hnd, fun i hi => ?_⟩
    have hi' := hlt i hi
    omega
  · obtain ⟨c, hc, hclosed⟩ := h.retired p hp i hi
    obtain ⟨hlt, -⟩ := List.getElem?_eq_some_iff.mp hc
    exact ⟨c, (List.getElem?_append_left hlt).trans hc, hclosed⟩

theorem registered_step {hub hub' : EventHub} {a : Action} (h : Registered hub)
    (hs : hub.step a = some hub') : Registered hub' := by
  cases move_of_step hs with
  | @published e hidle =>
    refine ⟨h.known, h.nodup, fun p hp => ?_, fun p hp => ?_, ?_⟩
    · cases hp
      exact ⟨h.nodup, h.known⟩
    · cases hp
      simp
    · show trim hub.capacity (hub.backlog ++ [e]) = _
      rw [h.window]
      exact trim_window hub.capacity hub.published e
  | @sent e i rest retired c d hpub hchan hsend =>
    have hset := h.set (d := d) hchan (fun hc => by simp [(Channel.trySend_ok hsend).2.2.2.1] at hc)
    refine ⟨hset.known, hset.nodup, fun p hp => ?_, fun p hp => ?_, hset.window⟩
    · cases hp
      exact hset.rest hpub
    · cases hp
      exact hset.retired ⟨e, i :: rest, retired⟩ hpub
  | @refused e i rest retired c hpub hchan hclosed =>
    refine ⟨h.known, h.nodup, fun p hp => ?_, fun p hp => ?_, h.window⟩
    · cases hp
      exact h.rest hpub
    · cases hp
      intro j hj
      rcases List.mem_append.mp hj with hj | hj
      · exact h.retired _ hpub j hj
      · rw [List.mem_singleton.mp hj]
        exact ⟨c, hchan, hclosed⟩
  | @retired e retired hpub =>
    exact ⟨fun i hi => h.known i (List.mem_of_mem_filter hi), h.nodup.filter _, by simp, by simp,
      h.window⟩
  | subscribed => exact registered_subscribe h
  | received hchan hrecv =>
    exact h.set hchan (fun hc => (Channel.recv_eq_some hrecv).2.2.1 ▸ hc)
  | dropped hchan => exact h.set hchan (fun _ => rfl)

theorem registered_run {capacity : Nat} {as : List Action} {hub : EventHub}
    (h : run step (new capacity) as = some hub) : Registered hub :=
  run_preserves (fun _ _ _ hr hst => registered_step hr hst) (registered_new capacity) h

/-! ## One subscriber -/

/-- The `i`-th subscriber, which found `backlog` when `since` events had been published,
has its receiver and got everything it should have by now. -/
structure Served (i : Nat) (backlog : List Event) (since : Nat) (hub : EventHub) : Prop where
  sent : ∃ c, hub.chans[i]? = some c ∧ c.closed = false ∧
    c.sent ++ hub.owed i = backlog ++ hub.published.drop since
  registered : i ∈ hub.subscribers
  since_le : since ≤ hub.published.length

theorem owed_of_idle {hub : EventHub} (h : hub.publishing = none) (i : Nat) : hub.owed i = [] := by
  simp [owed, h]

theorem owed_of_publishing {hub : EventHub} {p : Publication} (h : hub.publishing = some p)
    (i : Nat) : hub.owed i = if i ∈ p.remaining then [p.event] else [] := by
  simp [owed, h]

/-- A step that leaves the channel, the debt and the history alone keeps the subscriber
served. -/
theorem Served.of_eq {i since : Nat} {backlog : List Event} {hub hub' : EventHub}
    (h : Served i backlog since hub) (hchan : hub'.chans[i]? = hub.chans[i]?)
    (howed : hub'.owed i = hub.owed i) (hpub : hub'.published = hub.published)
    (hreg : i ∈ hub'.subscribers) : Served i backlog since hub' := by
  obtain ⟨c, hc, hopen, hsent⟩ := h.sent
  refine ⟨⟨c, hchan.trans hc, hopen, ?_⟩, hreg, ?_⟩
  · rw [howed, hpub]
    exact hsent
  · rw [hpub]
    exact h.since_le

theorem served_step {i since : Nat} {backlog : List Event} {hub hub' : EventHub} {a : Action}
    (hreg : Registered hub) (h : Served i backlog since hub) (hkeep : a ≠ .drop i)
    (hs : hub.step a = some hub') : Served i backlog since hub' := by
  obtain ⟨c, hc, hopen, hsent⟩ := h.sent
  obtain ⟨hlt, -⟩ := List.getElem?_eq_some_iff.mp hc
  cases move_of_step hs with
  | @published e hidle =>
    refine ⟨⟨c, hc, hopen, ?_⟩, h.registered, ?_⟩
    · have howed : (hub.publish e).owed i = [e] := by
        rw [owed_of_publishing (p := ⟨e, hub.subscribers, []⟩) rfl, if_pos h.registered]
      rw [owed_of_idle hidle, List.append_nil] at hsent
      show c.sent ++ (hub.publish e).owed i = backlog ++ (hub.published ++ [e]).drop since
      rw [howed, hsent, List.drop_append_of_le_length h.since_le, List.append_assoc]
    · show since ≤ (hub.published ++ [e]).length
      have hle := h.since_le
      rw [List.length_append]
      omega
  | @sent e j rest retired x d hpub hchan hsend =>
    obtain ⟨hnd, -⟩ := hreg.remaining _ hpub
    rw [owed_of_publishing hpub] at hsent
    by_cases hij : j = i
    · -- the send to this subscriber pays the debt
      subst hij
      rw [hc] at hchan
      cases hchan
      obtain ⟨hd, -, -, -, hdo, -⟩ := Channel.trySend_ok hsend
      refine ⟨⟨d, List.getElem?_set_self hlt, hdo, ?_⟩, h.registered, h.since_le⟩
      rw [owed_of_publishing (p := ⟨e, rest, retired⟩) rfl, if_neg (List.nodup_cons.mp hnd).1,
        List.append_nil, hd]
      rw [if_pos List.mem_cons_self] at hsent
      exact hsent
    · refine h.of_eq (List.getElem?_set_ne hij) ?_ rfl h.registered
      rw [owed_of_publishing hpub, owed_of_publishing (p := ⟨e, rest, retired⟩) rfl]
      simp [Ne.symm hij]
  | @refused e j rest retired x hpub hchan hclosed =>
    have hij : i ≠ j := by
      rintro rfl
      rw [hc] at hchan
      cases hchan
      simp [hopen] at hclosed
    refine h.of_eq rfl ?_ rfl h.registered
    rw [owed_of_publishing hpub, owed_of_publishing (p := ⟨e, rest, retired ++ [j]⟩) rfl]
    simp [hij]
  | @retired e retired hpub =>
    refine h.of_eq rfl ?_ rfl ?_
    · rw [owed_of_publishing hpub, owed_of_idle rfl]
      simp
    · refine List.mem_filter.mpr ⟨h.registered, decide_eq_true fun hmem => ?_⟩
      obtain ⟨x, hx, hclosed⟩ := hreg.retired _ hpub i hmem
      rw [hc] at hx
      cases hx
      simp [hopen] at hclosed
  | subscribed =>
    exact h.of_eq (List.getElem?_append_left hlt) rfl rfl (List.mem_append_left _ h.registered)
  | @received j x d hchan hrecv =>
    by_cases hij : j = i
    · subst hij
      rw [hc] at hchan
      cases hchan
      obtain ⟨-, hd, hdo, -⟩ := Channel.recv_eq_some hrecv
      refine ⟨⟨d, List.getElem?_set_self hlt, hdo.trans hopen, ?_⟩, h.registered, h.since_le⟩
      rw [hd]
      exact hsent
    · exact h.of_eq (List.getElem?_set_ne hij) rfl rfl h.registered
  | @dropped j x hchan =>
    have hij : j ≠ i := fun heq => hkeep (heq ▸ rfl)
    exact h.of_eq (List.getElem?_set_ne hij) rfl rfl h.registered

/-- The replay fits into the new channel. -/
theorem replayed_spec (hub : EventHub) :
    hub.replayed.1.sent = hub.backlog ∧ hub.replayed.1.closed = false ∧ hub.replayed.2 = [] := by
  have hfit : hub.replayed.1.sent = [] ++ hub.backlog ∧ hub.replayed.1.closed = false ∧
      hub.replayed.2 = [] :=
    Channel.trySendAll_of_le rfl (by simp [Channel.new])
  simpa using hfit

/-- A new subscriber is served. -/
theorem served_subscribe {hub : EventHub} (hreg : Registered hub) :
    Served hub.chans.length hub.backlog hub.published.length hub.subscribe := by
  obtain ⟨hsent, hopen, -⟩ := replayed_spec hub
  refine ⟨⟨hub.replayed.1, ?_, hopen, ?_⟩, List.mem_append_right _ (List.mem_singleton_self _),
    Nat.le_refl _⟩
  · show (hub.chans ++ [hub.replayed.1])[hub.chans.length]? = _
    rw [List.getElem?_append_right (Nat.le_refl _), Nat.sub_self]
    rfl
  · have howed : hub.subscribe.owed hub.chans.length = [] := by
      unfold owed
      split
      · rename_i p hp
        refine if_neg fun hmem => ?_
        have hlt := (hreg.remaining p hp).2 _ hmem
        omega
      · rfl
    rw [howed, hsent]
    show _ = hub.backlog ++ hub.published.drop hub.published.length
    rw [List.drop_length]

/-! ## Whole runs -/

theorem published_step {hub hub' : EventHub} {a : Action} (h : hub.step a = some hub') :
    hub'.published = hub.published ++ a.event.toList := by
  cases move_of_step h with
  | published => rfl
  | _ => exact (List.append_nil _).symm

theorem published_run {hub hub' : EventHub} {as : List Action}
    (h : run step hub as = some hub') :
    hub'.published = hub.published ++ as.filterMap Action.event :=
  run_history (fun _ _ _ hst => published_step hst) h

theorem served_run {i since : Nat} {backlog : List Event} {hub hub' : EventHub}
    {as : List Action} (hreg : Registered hub) (h : Served i backlog since hub)
    (hkeep : .drop i ∉ as) (hrun : run step hub as = some hub') : Served i backlog since hub' := by
  have hne : ∀ a ∈ as, a ≠ .drop i := fun a ha heq => hkeep (heq ▸ ha)
  have hinv : Registered hub' ∧ Served i backlog since hub' :=
    run_invariant (P := fun g => Registered g ∧ Served i backlog since g)
      (Q := fun _ a => a ≠ .drop i)
      (fun g a g' hg ha hst => ⟨registered_step hg.1 hst, served_step hg.1 hg.2 ha hst⟩)
      ⟨hreg, h⟩ (along_of_forall hne) hrun
  exact hinv.2

/-- The receiver of the `i`-th channel, if there is such a channel, was not dropped. -/
def IsOpen (i : Nat) (hub : EventHub) : Prop := ∀ c, hub.chans[i]? = some c → c.closed = false

theorem IsOpen.set {i j : Nat} {hub : EventHub} {c d : Channel Event} (h : IsOpen i hub)
    (hj : hub.chans[j]? = some c) (hd : j = i → d.closed = c.closed) :
    IsOpen i { hub with chans := hub.chans.set j d } := by
  intro x hx
  by_cases hij : j = i
  · subst hij
    obtain ⟨hlt, -⟩ := List.getElem?_eq_some_iff.mp hj
    rw [List.getElem?_set_self hlt] at hx
    cases hx
    exact (hd rfl).trans (h c hj)
  · rw [List.getElem?_set_ne hij] at hx
    exact h x hx

theorem isOpen_step {i : Nat} {hub hub' : EventHub} {a : Action} (h : IsOpen i hub)
    (hkeep : a ≠ .drop i) (hs : hub.step a = some hub') : IsOpen i hub' := by
  cases move_of_step hs with
  | published => exact h
  | sent hpub hchan hsend =>
    obtain ⟨-, -, -, hc, hd, -⟩ := Channel.trySend_ok hsend
    exact h.set hchan fun _ => hd.trans hc.symm
  | refused => exact h
  | retired => exact h
  | subscribed =>
    intro x hx
    change (hub.chans ++ [hub.replayed.1])[i]? = some x at hx
    by_cases hlt : i < hub.chans.length
    · rw [List.getElem?_append_left hlt] at hx
      exact h x hx
    · rw [List.getElem?_append_right (Nat.le_of_not_lt hlt)] at hx
      rw [List.mem_singleton.mp (List.mem_of_getElem? hx)]
      exact (replayed_spec hub).2.1
  | received hchan hrecv => exact h.set hchan fun _ => (Channel.recv_eq_some hrecv).2.2.1
  | dropped hchan => exact h.set hchan fun heq => absurd (heq ▸ rfl) hkeep

/-- A receiver found gone was dropped. -/
theorem drop_mem_of_closed {capacity i : Nat} {as : List Action} {hub : EventHub}
    {c : Channel Event} (h : run step (new capacity) as = some hub) (hc : hub.chans[i]? = some c)
    (hclosed : c.closed = true) : .drop i ∈ as := by
  by_contra hkeep
  have hne : ∀ a ∈ as, a ≠ .drop i := fun a ha heq => hkeep (heq ▸ ha)
  have hopen : IsOpen i hub :=
    run_invariant (Q := fun _ a => a ≠ .drop i) (fun _ _ _ hg ha hst => isOpen_step hg ha hst)
      (by simp [IsOpen, new]) (along_of_forall hne) h
  rw [hopen c hc] at hclosed
  exact absurd hclosed (by simp)

/-- The end of a `publish` takes out only senders whose receiver is gone. -/
theorem closed_of_retire {hub hub' : EventHub} (hreg : Registered hub)
    (h : hub.step .retire = some hub') {i : Nat} (hi : i ∈ hub.subscribers)
    (hi' : i ∉ hub'.subscribers) : ∃ c, hub.chans[i]? = some c ∧ c.closed = true := by
  cases move_of_step h with
  | @retired e retired hpub =>
    refine hreg.retired _ hpub i ?_
    by_contra hmem
    exact hi' (List.mem_filter.mpr ⟨hi, decide_eq_true hmem⟩)

/-- What was sent to a subscriber that kept its receiver. -/
theorem sent_after_subscribe {capacity : Nat} {pre post : List Action} {g hub : EventHub}
    (hg : run step (new capacity) pre = some g) (h : run step g (.subscribe :: post) = some hub)
    (hkeep : .drop g.chans.length ∉ post) :
    ∃ c, hub.chans[g.chans.length]? = some c ∧
      c.sent ++ hub.owed g.chans.length = g.backlog ++ post.filterMap Action.event := by
  obtain ⟨m, hm, hpost⟩ := run_cons_eq_some.mp h
  cases Option.some.inj hm
  have hreg := registered_run hg
  have hserved := served_run (registered_step hreg hm) (served_subscribe hreg) hkeep hpost
  obtain ⟨c, hc, -, hsent⟩ := hserved.sent
  have hnew : hub.published.drop g.published.length = post.filterMap Action.event := by
    rw [published_run hpost]
    exact List.drop_left
  rw [hnew] at hsent
  exact ⟨c, hc, hsent⟩

/-- **Every subscriber is sent every event once, in order.**  In every interleaving of
one publisher with any number of subscribers: what was sent to a subscriber whose
receiver was not dropped is a beginning of the backlog it found, followed by all events
published since, and is all of it when no `publish` is under way; a replay into a new
channel meets no error; and the end of a `publish` takes out only senders whose
receiver was dropped. -/
theorem subscriber_gets_every_event (capacity : Nat) {as : List Action} {hub : EventHub}
    (h : run step (new capacity) as = some hub) :
    (∀ pre post g, as = pre ++ .subscribe :: post → run step (new capacity) pre = some g →
      .drop g.chans.length ∉ post →
        ∃ c, hub.chans[g.chans.length]? = some c ∧
          c.sent <+: g.backlog ++ post.filterMap Action.event ∧
          (hub.publishing = none → c.sent = g.backlog ++ post.filterMap Action.event)) ∧
      hub.replayed.2 = [] ∧
      ∀ hub', hub.step .retire = some hub' →
        ∀ i ∈ hub.subscribers, i ∉ hub'.subscribers → .drop i ∈ as := by
  refine ⟨?_, (replayed_spec hub).2.2, ?_⟩
  · intro pre post g has hg hkeep
    subst has
    obtain ⟨g', hg', hrest⟩ := run_append_eq_some.mp h
    rw [hg] at hg'
    cases hg'
    obtain ⟨c, hc, hsent⟩ := sent_after_subscribe hg hrest hkeep
    refine ⟨c, hc, ⟨_, hsent⟩, fun hidle => ?_⟩
    rw [owed_of_idle hidle, List.append_nil] at hsent
    exact hsent
  · intro hub' hret i hi hi'
    obtain ⟨c, hc, hclosed⟩ := closed_of_retire (registered_run h) hret hi hi'
    exact drop_mem_of_closed h hc hclosed

/-- Two subscribers, one of them in the gap of a `publish`, and the first one's receiver
dropped while the second event is under way. -/
def gapRun : List Action :=
  [.publish ⟨.added, v4Lease 0x0a000100⟩, .retire, .subscribe,
    .publish ⟨.added, v4Lease 0x0a000200⟩, .subscribe, .drop 0, .send]

/-- Where that run ends. -/
def gapEnd : EventHub := (run step (new 1) gapRun).getD (new 1)

theorem gapRun_gets_every_event :
    run step (new 1) gapRun = some gapEnd ∧
      (∃ c, gapEnd.chans[1]? = some c ∧ c.sent <+: [⟨.added, v4Lease 0x0a000200⟩]) ∧
      ∀ hub', gapEnd.step .retire = some hub' →
        ∀ i ∈ gapEnd.subscribers, i ∉ hub'.subscribers → .drop i ∈ gapRun := by
  have hend : run step (new 1) gapRun = some gapEnd := rfl
  obtain ⟨hsub, -, hret⟩ := subscriber_gets_every_event 1 hend
  obtain ⟨c, hc, hpre, -⟩ := hsub (gapRun.take 4) (gapRun.drop 5) _ rfl rfl (by decide)
  exact ⟨hend, ⟨c, hc, hpre⟩, hret⟩

end EventHub

end Flannel
