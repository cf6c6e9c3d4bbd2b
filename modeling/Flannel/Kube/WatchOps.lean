import Flannel.Kube.HubReplay
import Flannel.Subnet.WatchLeases
import Mathlib.Data.List.Induction

/-!
# From the event hub to a backend

`watch_leases` of `subnet/kube/watch_ops.rs` is the manager's side of the long-term watch:
it subscribes to the event hub and forwards every event as an item of one result with one
event, until the token is cancelled.  `Subnet.WatchLeases` is the other side.  This file
puts the two together with the hub, and says what a backend at the far end knows about the
events that were published.

The future of the manager's watch is polled by the task only, so its steps need the task to
be `Polled`; between two of them it holds at most one event.  It is dropped when the task
returns, and with it the hub's receiver.  It never ends without an error: the hub keeps the
sender of a subscriber whose receiver is there, and the session channel lives as long as the
task.  It fails only after cancellation, so there is one session.

`since` records how many events had been published when the session subscribed, and is read
by no step.
-/

namespace Flannel

open Run

/-- The hub, a call of `watch_leases`, and the future of the manager's watch in it. -/
structure KubeWatch where
  hub : EventHub
  task : WatchLeases
  /-- the channel of the session, once it has subscribed -/
  sub : Option Nat
  /-- the event that `forward` is sending -/
  inHand : Option Event
  since : Nat

/-- The atomic steps. -/
inductive KubeWatchAction where
  /-- the publisher, or another watcher -/
  | hub (a : EventHub.Action)
  /-- the session subscribes -/
  | subscribe
  /-- the session reads an event -/
  | recv
  /-- the session sends it on -/
  | forward
  /-- the session sees the token -/
  | fail
  /-- the task, its backend, or the token -/
  | task (a : WatchAction)
  deriving DecidableEq

namespace KubeWatch

/-- The item that `forward` makes of an event. -/
def forwarded (event : Event) : List LeaseWatchResult := [{ events := [event] }]

/-- A call of `watch_leases` on this hub. -/
def start (hub : EventHub) (own : Lease) (receiver : Channel (List Event)) : KubeWatch where
  hub := hub
  task := WatchLeases.start own receiver
  sub := none
  inHand := none
  since := 0

/-- The hub once the future is dropped, and the receiver in it. -/
def release (k : KubeWatch) : EventHub :=
  match k.sub with
  | none => k.hub
  | some i => (k.hub.step (.drop i)).getD k.hub

/-- The steps of the hub that only the session can make. -/
def IsOwnStep (k : KubeWatch) (a : EventHub.Action) : Prop :=
  ∃ i ∈ k.sub, a = .recv i ∨ a = .drop i

instance (k : KubeWatch) (a : EventHub.Action) : Decidable (k.IsOwnStep a) :=
  match h : k.sub with
  | none => isFalse (by simp [IsOwnStep, h])
  | some i => decidable_of_iff (a = .recv i ∨ a = .drop i) (by simp [IsOwnStep, h])

/-- The steps of the task that the manager makes. -/
def isManagerStep : WatchAction → Bool
  | .offer _ => true
  | .hangUp => true
  | .finish _ => true
  | _ => false

/-- The call is over. -/
def isReturned (s : WatchLeases) : Bool :=
  match s.phase with
  | .returned _ => true
  | _ => false

/-- What an action does; `none` when it cannot happen in this state. -/
def step (k : KubeWatch) : KubeWatchAction → Option KubeWatch
  | .hub a => if k.IsOwnStep a then none else (k.hub.step a).map fun g => { k with hub := g }
  | .subscribe =>
    if k.task.Polled ∧ k.sub = none then
      some { k with
        hub := k.hub.subscribe
        sub := some k.hub.chans.length
        since := k.hub.published.length }
    else
      none
  | .recv =>
    match k.sub, k.inHand with
    | some i, none =>
      if k.task.Polled then
        (k.hub.chans[i]?).bind fun c => c.queue.head?.bind fun event =>
          (k.hub.step (.recv i)).map fun g => { k with hub := g, inHand := some event }
      else
        none
    | _, _ => none
  | .forward =>
    k.inHand.bind fun event =>
      (k.task.step (.offer (forwarded event))).map fun t => { k with task := t, inHand := none }
  | .fail =>
    if k.sub ≠ none ∧ k.inHand = none ∧ k.task.cancelled = true then
      (k.task.step (.finish .err)).map fun t => { k with hub := k.release, task := t }
    else
      none
  | .task a =>
    if isManagerStep a then
      none
    else
      (k.task.step a).map fun t =>
        if isReturned t then
          { k with hub := k.release, task := t }
        else if a = .wake then
          { k with task := t, sub := none, inHand := none }
        else
          { k with task := t }

end KubeWatch

/-! ## The receivers of the hub -/

namespace EventHub

theorem trySendAll_received {α : Type*} (c : Channel α) (xs : List α) :
    (c.trySendAll xs).1.received = c.received := by
  induction xs generalizing c with
  | nil => rfl
  | cons x xs ih =>
    rw [Channel.trySendAll]
    cases h : c.trySend x with
    | ok d => exact (ih d).trans (Channel.trySend_ok h).2.1
    | error e => exact ih c

/-- Only a read changes what a receiver has read. -/
theorem received_step {hub hub' : EventHub} {a : Action} {i : Nat} {c : Channel Event}
    (h : hub.step a = some hub') (ha : a ≠ .recv i) (hc : hub.chans[i]? = some c) :
    ∃ d, hub'.chans[i]? = some d ∧ d.received = c.received := by
  obtain ⟨hlt, -⟩ := List.getElem?_eq_some_iff.mp hc
  have hset : ∀ (j : Nat) (x d : Channel Event), hub.chans[j]? = some x →
      d.received = x.received →
        ∃ y, (hub.chans.set j d)[i]? = some y ∧ y.received = c.received := by
    intro j x d hx hd
    by_cases hij : j = i
    · subst hij
      rw [hc] at hx
      cases hx
      exact ⟨d, List.getElem?_set_self hlt, hd⟩
    · exact ⟨c, (List.getElem?_set_ne hij).trans hc, rfl⟩
  cases move_of_step h with
  | sent _ hchan hsend => exact hset _ _ _ hchan (Channel.trySend_ok hsend).2.1
  | subscribed => exact ⟨c, (List.getElem?_append_left hlt).trans hc, rfl⟩
  | @received j x d hchan hrecv =>
    have hij : j ≠ i := fun heq => ha (heq ▸ rfl)
    exact ⟨c, (List.getElem?_set_ne hij).trans hc, rfl⟩
  | dropped hchan => exact hset _ _ _ hchan rfl
  | _ => exact ⟨c, hc, rfl⟩

end EventHub

namespace KubeWatch

/-! ## The link -/

/-- The future of the manager's watch is there. -/
def Open (k : KubeWatch) : Prop := k.task.finished = none ∧ isReturned k.task = false

/-- The events that a session can get to see when `since` events had been published before it
subscribed: the ones the hub remembered then, and all later ones. -/
def visible (hub : EventHub) (since : Nat) : List Event :=
  hub.published.drop (since - hub.capacity)

/-- What a session that is open knows about its channel: it was sent everything visible, but
for what is owed, and it read exactly the events `es`. -/
structure Reads (hub : EventHub) (since i : Nat) (es : List Event) : Prop where
  served : ∃ backlog, EventHub.Served i backlog since hub ∧
    backlog ++ hub.published.drop since = visible hub since
  received : ∃ c, hub.chans[i]? = some c ∧ c.received = es

/-- The invariant: the task was offered exactly the events read, less the one in hand. -/
structure Linked (own : Lease) (k : KubeWatch) : Prop where
  accounted : k.task.Accounted own
  registered : k.hub.Registered
  hungUp : k.task.hungUp = false
  finished : k.task.finished ≠ some .ok
  cancelled : k.task.finished = some .err → k.task.cancelled = true
  awake : k.task.phase ≠ .sleeping
  session : k.task.session.closed = false
  since : k.since ≤ k.hub.published.length
  fresh : k.sub = none → k.task.offered = [] ∧ k.inHand = none
  read : ∃ es, k.task.offered = es.map forwarded ∧ es ++ k.inHand.toList <+: visible k.hub k.since ∧
    (k.Open → ∀ i ∈ k.sub, Reads k.hub k.since i (es ++ k.inHand.toList))

theorem linked_start {hub : EventHub} (own : Lease) {receiver : Channel (List Event)}
    (hhub : hub.Registered) (hnew : receiver.sent = []) : Linked own (start hub own receiver) where
  accounted := WatchLeases.accounted_start own hnew
  registered := hhub
  hungUp := rfl
  finished := by simp [start, WatchLeases.start]
  cancelled := by simp [start, WatchLeases.start]
  awake := by simp [start, WatchLeases.start]
  session := rfl
  since := Nat.zero_le _
  fresh := fun _ => ⟨rfl, rfl⟩
  read := ⟨[], rfl, List.nil_prefix, by simp [start]⟩

/-- What can be seen grows with what is published. -/
theorem visible_step {hub g : EventHub} {a : EventHub.Action} {since : Nat}
    (h : hub.step a = some g) (hsince : since ≤ hub.published.length) :
    visible g since = visible hub since ++ a.event.toList := by
  unfold visible
  rw [EventHub.published_step h, EventHub.capacity_step h,
    List.drop_append_of_le_length (by omega)]

theorem release_spec (k : KubeWatch) (h : k.hub.Registered) :
    k.release.Registered ∧ k.release.published = k.hub.published ∧
      k.release.capacity = k.hub.capacity := by
  unfold release
  cases k.sub with
  | none => exact ⟨h, rfl, rfl⟩
  | some i =>
    dsimp only
    cases hd : k.hub.step (.drop i) with
    | none => exact ⟨h, rfl, rfl⟩
    | some g =>
      rw [Option.getD_some]
      refine ⟨EventHub.registered_step h hd, ?_, EventHub.capacity_step hd⟩
      rw [EventHub.published_step hd]
      exact List.append_nil _

section Step

variable {own : Lease} {k k' : KubeWatch}

theorem linked_hub (h : Linked own k) {a : EventHub.Action} {g : EventHub}
    (hown : ¬ k.IsOwnStep a) (hst : k.hub.step a = some g) : Linked own { k with hub := g } := by
  obtain ⟨es, hoffered, hprefix, hreads⟩ := h.read
  have hvisible := visible_step hst h.since
  have hpub := EventHub.published_step hst
  refine { h with
    registered := EventHub.registered_step h.registered hst
    since := ?_
    read := ⟨es, hoffered, ?_, fun hopen i hi => ?_⟩ }
  · show k.since ≤ g.published.length
    have hle := h.since
    rw [hpub, List.length_append]
    omega
  · rw [hvisible]
    exact hprefix.trans (List.prefix_append _ _)
  · have hne : a ≠ .recv i ∧ a ≠ .drop i :=
      ⟨fun heq => hown ⟨i, hi, Or.inl heq⟩, fun heq => hown ⟨i, hi, Or.inr heq⟩⟩
    obtain ⟨⟨backlog, hserved, hback⟩, c, hc, hread⟩ := hreads hopen i hi
    obtain ⟨d, hd, hdread⟩ := EventHub.received_step hst hne.1 hc
    refine ⟨⟨backlog, EventHub.served_step h.registered hserved hne.2 hst, ?_⟩,
      d, hd, hdread.trans hread⟩
    rw [hvisible, ← hback, hpub, List.drop_append_of_le_length h.since, List.append_assoc]

theorem linked_subscribe (h : Linked own k) (hsub : k.sub = none) :
    Linked own { k with
      hub := k.hub.subscribe
      sub := some k.hub.chans.length
      since := k.hub.published.length } := by
  obtain ⟨hoffered, hhand⟩ := h.fresh hsub
  have hwindow : visible k.hub.subscribe k.hub.published.length = k.hub.backlog :=
    h.registered.window.symm
  have hserved := EventHub.served_subscribe h.registered
  refine { h with
    registered := EventHub.registered_subscribe h.registered
    since := Nat.le_refl _
    fresh := by simp
    read := ⟨[], by simp [hoffered], by simp [hhand], fun _ i hi => ?_⟩ }
  cases hi
  refine ⟨⟨k.hub.backlog, hserved, ?_⟩, k.hub.replayed.1, ?_, ?_⟩
  · rw [hwindow]
    show k.hub.backlog ++ k.hub.published.drop k.hub.published.length = _
    rw [List.drop_length, List.append_nil]
  · exact (List.getElem?_append_right (Nat.le_refl _)).trans (by simp)
  · rw [EventHub.replayed, EventHub.trySendAll_received, hhand]
    rfl

theorem linked_recv (h : Linked own k) {i : Nat} {c : Channel Event} {event : Event}
    {g : EventHub} (hpolled : k.task.Polled) (hsub : k.sub = some i) (hhand : k.inHand = none)
    (hc : k.hub.chans[i]? = some c) (hhead : c.queue.head? = some event)
    (hst : k.hub.step (.recv i) = some g) :
    Linked own { k with hub := g, inHand := some event } := by
  obtain ⟨es, hoffered, hprefix, hreads⟩ := h.read
  have hopen : k.Open := ⟨hpolled.2, by simp [isReturned, hpolled.1]⟩
  obtain ⟨⟨backlog, hserved, hback⟩, c', hc', hread⟩ := hreads hopen i hsub
  rw [hc] at hc'
  cases hc'
  have hpub : g.published = k.hub.published :=
    (EventHub.published_step hst).trans (List.append_nil _)
  have hcap := EventHub.capacity_step hst
  have hserved' := EventHub.served_step h.registered hserved (by simp) hst
  -- the read moves the head of the queue
  obtain ⟨d, hd, hdread⟩ : ∃ d, g.chans[i]? = some d ∧ d.received = es ++ [event] := by
    cases EventHub.move_of_step hst with
    | @received _ x d hchan hrecv =>
      rw [hc] at hchan
      cases hchan
      obtain ⟨⟨y, hy, hyread⟩, -⟩ := Channel.recv_eq_some hrecv
      obtain ⟨hlt, -⟩ := List.getElem?_eq_some_iff.mp hc
      rw [hy, List.head?_cons] at hhead
      cases hhead
      refine ⟨d, List.getElem?_set_self hlt, ?_⟩
      rw [hyread, hread, hhand]
      simp
  have hvisible : visible g k.since = visible k.hub k.since := by
    unfold visible
    rw [hpub, hcap]
  refine { h with
    registered := EventHub.registered_step h.registered hst
    since := hpub ▸ h.since
    fresh := by simp [hsub]
    read := ⟨es, hoffered, ?_, fun _ j hj => ?_⟩ }
  · -- what was read is a beginning of what was sent
    obtain ⟨x, hx, -, hsent⟩ := hserved'.sent
    rw [hd] at hx
    cases hx
    rw [hvisible, ← hback, ← hpub, ← hsent, Channel.sent, hdread, Option.toList_some,
      List.append_assoc (es ++ [event])]
    exact List.prefix_append _ _
  · rw [show j = i from Option.some.inj (hj.symm.trans hsub)]
    refine ⟨⟨backlog, hserved', ?_⟩, d, hd, hdread⟩
    rw [hvisible, hpub, hback]

theorem linked_forward (h : Linked own k) {event : Event} {t : WatchLeases}
    (hhand : k.inHand = some event) (hst : k.task.step (.offer (forwarded event)) = some t) :
    Linked own { k with task := t, inHand := none } := by
  obtain ⟨es, hoffered, hprefix, hreads⟩ := h.read
  have haccounted := WatchLeases.accounted_step h.accounted hst
  rw [hhand, Option.toList_some] at hprefix hreads
  cases WatchLeases.move_of_step hst with
  | offered hpolled hsend =>
    refine { h with
      accounted := haccounted
      session := (Channel.trySend_ok hsend).2.2.2.2.1
      fresh := fun hsub => ?_
      read := ⟨es ++ [event], by simp [hoffered], by simpa using hprefix, fun hopen i hi => ?_⟩ }
    · have hnone := (h.fresh hsub).2
      rw [hhand] at hnone
      cases hnone
    · rw [Option.toList_none, List.append_nil]
      exact hreads hopen i hi

/-- Once the future is dropped, only the past matters. -/
theorem linked_release (h : Linked own k) {t : WatchLeases} (haccounted : t.Accounted own)
    (hhungUp : t.hungUp = false) (hfinished : t.finished ≠ some .ok)
    (hcancelled : t.finished = some .err → t.cancelled = true) (hawake : t.phase ≠ .sleeping)
    (hsession : t.session.closed = false) (hoffered : t.offered = k.task.offered)
    (hclosed : t.finished ≠ none ∨ isReturned t = true) :
    Linked own { k with hub := k.release, task := t } := by
  obtain ⟨hreg, hpub, hcap⟩ := release_spec k h.registered
  obtain ⟨es, hes, hprefix, -⟩ := h.read
  refine ⟨haccounted, hreg, hhungUp, hfinished, hcancelled, hawake, hsession, hpub ▸ h.since, ?_,
    es, hoffered.trans hes, ?_, fun hopen => ?_⟩
  · intro hsub
    exact ⟨hoffered.trans (h.fresh hsub).1, (h.fresh hsub).2⟩
  · show _ <+: k.release.published.drop (k.since - k.release.capacity)
    rw [hpub, hcap]
    exact hprefix
  · exfalso
    rcases hclosed with hfin | hret
    · exact hfin hopen.1
    · exact absurd hopen.2 (by simp [hret])

theorem linked_fail (h : Linked own k) {t : WatchLeases} (hcancel : k.task.cancelled = true)
    (hst : k.task.step (.finish .err) = some t) :
    Linked own { k with hub := k.release, task := t } := by
  have haccounted := WatchLeases.accounted_step h.accounted hst
  cases WatchLeases.move_of_step hst with
  | finished _ =>
    exact linked_release h haccounted h.hungUp (by simp) (fun _ => hcancel) h.awake h.session rfl
      (Or.inl (by simp))

/-- What a step of the task does to the side of the manager. -/
theorem task_step {a : WatchAction} {t : WatchLeases} (h : Linked own k)
    (hmanager : isManagerStep a = false) (hst : k.task.step a = some t) :
    t.hungUp = false ∧ t.finished = k.task.finished ∧
      (k.task.cancelled = true → t.cancelled = true) ∧ t.phase ≠ .sleeping ∧
      t.offered = k.task.offered ∧ a ≠ .wake := by
  cases WatchLeases.move_of_step hst with
  | offered _ _ => cases hmanager
  | hungUp _ => cases hmanager
  | finished _ => cases hmanager
  | ended hphase _ hnext =>
    refine ⟨h.hungUp, rfl, id, ?_, rfl, by simp⟩
    rintro rfl
    rcases hnext with ⟨-, hno, ⟨-, hup⟩ | herr⟩ | ⟨hp, -⟩ | ⟨hp, -⟩
    · simp [h.hungUp] at hup
    · simp [h.cancelled herr] at hno
    · cases hp
    · cases hp
  | woken hphase _ => exact absurd hphase h.awake
  | taken _ _ _ _ => exact ⟨h.hungUp, rfl, id, by simp, rfl, by simp⟩
  | itemDone _ => exact ⟨h.hungUp, rfl, id, by simp, rfl, by simp⟩
  | silent _ _ => exact ⟨h.hungUp, rfl, id, by simp, rfl, by simp⟩
  | batched _ _ => exact ⟨h.hungUp, rfl, id, by simp, rfl, by simp⟩
  | delivered _ _ => exact ⟨h.hungUp, rfl, id, by simp, rfl, by simp⟩
  | refused _ _ => exact ⟨h.hungUp, rfl, id, by simp, rfl, by simp⟩
  | noticed _ _ => exact ⟨h.hungUp, rfl, id, by simp, rfl, by simp⟩
  | cancelled => exact ⟨h.hungUp, rfl, fun _ => rfl, h.awake, rfl, by simp⟩
  | consumed _ => exact ⟨h.hungUp, rfl, id, h.awake, rfl, by simp⟩
  | dropped => exact ⟨h.hungUp, rfl, id, h.awake, rfl, by simp⟩

theorem linked_task (h : Linked own k) {a : WatchAction} {t : WatchLeases}
    (hmanager : isManagerStep a = false) (hst : k.task.step a = some t)
    (hrunning : isReturned t = false) : Linked own { k with task := t } := by
  obtain ⟨hup, hfin, hcancel, hawake, hoffered, -⟩ := task_step h hmanager hst
  obtain ⟨es, hes, hprefix, hreads⟩ := h.read
  refine ⟨WatchLeases.accounted_step h.accounted hst, h.registered, hup, hfin ▸ h.finished,
    fun herr => hcancel (h.cancelled (hfin ▸ herr)), hawake,
    WatchLeases.session_closed_step hst h.session, h.since, ?_,
    es, hoffered.trans hes, hprefix, fun hopen => hreads ⟨hfin ▸ hopen.1, ?_⟩⟩
  · intro hsub
    exact ⟨hoffered.trans (h.fresh hsub).1, (h.fresh hsub).2⟩
  · -- a call that had returned before would still be
    cases hp : k.task.phase with
    | returned r =>
      simp [isReturned, WatchLeases.returned_step hst hp] at hrunning
    | _ => simp [isReturned, hp]

/-- **Every step keeps the link.** -/
theorem linked_step {a : KubeWatchAction} (h : Linked own k) (hst : k.step a = some k') :
    Linked own k' := by
  cases a with
  | hub a =>
    obtain ⟨hown, heq⟩ := Option.ite_none_left_eq_some.mp hst
    obtain ⟨g, hg, rfl⟩ := Option.map_eq_some_iff.mp heq
    exact linked_hub h hown hg
  | subscribe =>
    obtain ⟨⟨-, hsub⟩, heq⟩ := Option.ite_none_right_eq_some.mp hst
    cases heq
    exact linked_subscribe h hsub
  | recv =>
    cases hsub : k.sub with
    | none => simp [step, hsub] at hst
    | some i =>
      cases hhand : k.inHand with
      | some e => simp [step, hsub, hhand] at hst
      | none =>
        simp only [step, hsub, hhand] at hst
        obtain ⟨hpolled, heq⟩ := Option.ite_none_right_eq_some.mp hst
        obtain ⟨c, hc, heq⟩ := Option.bind_eq_some_iff.mp heq
        obtain ⟨e, he, heq⟩ := Option.bind_eq_some_iff.mp heq
        obtain ⟨g, hg, rfl⟩ := Option.map_eq_some_iff.mp heq
        rw [← hsub]
        exact linked_recv h hpolled hsub hhand hc he hg
  | forward =>
    obtain ⟨e, he, heq⟩ := Option.bind_eq_some_iff.mp hst
    obtain ⟨t, ht, rfl⟩ := Option.map_eq_some_iff.mp heq
    exact linked_forward h he ht
  | fail =>
    obtain ⟨⟨-, -, hcancel⟩, heq⟩ := Option.ite_none_right_eq_some.mp hst
    obtain ⟨t, ht, rfl⟩ := Option.map_eq_some_iff.mp heq
    exact linked_fail h hcancel ht
  | task a =>
    obtain ⟨hmanager, heq⟩ := Option.ite_none_left_eq_some.mp hst
    rw [Bool.not_eq_true] at hmanager
    obtain ⟨t, ht, rfl⟩ := Option.map_eq_some_iff.mp heq
    obtain ⟨hup, hfin, hcancel, hawake, hoffered, hwake⟩ := task_step h hmanager ht
    cases hret : isReturned t with
    | true =>
      exact linked_release h (WatchLeases.accounted_step h.accounted ht) hup (hfin ▸ h.finished)
        (fun herr => hcancel (h.cancelled (hfin ▸ herr))) hawake
        (WatchLeases.session_closed_step ht h.session) hoffered (Or.inr hret)
    | false =>
      rw [if_neg (by simp), if_neg hwake]
      exact linked_task h hmanager ht hret

theorem linked_run {capacity : Nat} {pre : List EventHub.Action} {hub : EventHub}
    {receiver : Channel (List Event)} {as : List KubeWatchAction}
    (hpre : run EventHub.step (EventHub.new capacity) pre = some hub) (hnew : receiver.sent = [])
    (h : run step (start hub own receiver) as = some k) : Linked own k :=
  run_preserves (fun _ _ _ hi hst => linked_step hi hst)
    (linked_start own (EventHub.registered_run hpre) hnew) h

end Step

/-! ## What the backend holds -/

section Table

variable {v4 v6 : Bool} {own : Lease}

/-- The table of a backend that has taken these batches. -/
def table (v4 v6 : Bool) (batches : List (List Event)) : SubnetKey → Option Lease :=
  consumeAll v4 v6 (fun _ => none) batches

/-- The one result of an item that `forward` makes. -/
def single (event : Event) : LeaseWatchResult := { events := [event] }

@[simp] theorem flatten_forwarded (es : List Event) :
    (es.map forwarded).flatten = es.map single := by
  induction es with
  | nil => rfl
  | cons e es ih => rw [List.map_cons, List.flatten_cons, ih]; rfl

theorem reduceAll_single (lw : LeaseWatcher) (es : List Event) :
    (lw.reduceAll (es.map single)).1 = (lw.update es).1 := by
  induction es generalizing lw with
  | nil => rfl
  | cons e es ih =>
    have hreduce : lw.reduce (single e) = lw.update [e] :=
      LeaseWatcher.reduce_of_events (by simp [single]) lw
    have happend := LeaseWatcher.update_append lw [e] es
    rw [List.singleton_append] at happend
    rw [List.map_cons, LeaseWatcher.reduceAll_cons, ih, happend, hreduce]

/-- An empty batch would change nothing. -/
theorem consumeAll_filter (held : SubnetKey → Option Lease) (batches : List (List Event)) :
    consumeAll v4 v6 held (batches.filter fun batch => batch ≠ []) =
      consumeAll v4 v6 held batches := by
  induction batches generalizing held with
  | nil => rfl
  | cons batch batches ih =>
    by_cases hb : batch = []
    · subst hb
      rw [List.filter_cons_of_neg (by simp), ih]
      rfl
    · rw [List.filter_cons_of_pos (by simpa using hb)]
      exact ih _

/-- **The table of a run of single events** is the map of the watcher. -/
theorem table_batchesOf {es : List Event} (hes : ∀ e ∈ es, e.lease.HasFlags v4 v6) :
    table v4 v6 (WatchLeases.batchesOf own (es.map single)) =
      ((LeaseWatcher.new own).update es).1.view v4 v6 := by
  have hflags : ∀ wr ∈ es.map single, wr.HasFlags v4 v6 := by
    intro wr hwr
    obtain ⟨e, he, rfl⟩ := List.mem_map.mp hwr
    exact ⟨by simpa [single] using hes e he, by simp [single]⟩
  have hevents : ∀ wr ∈ es.map single, wr.events ≠ [] := by
    intro wr hwr
    obtain ⟨e, -, rfl⟩ := List.mem_map.mp hwr
    simp [single]
  rw [table, WatchLeases.batchesOf, consumeAll_filter, ← reduceAll_single,
    ← LeaseWatcher.reduceAll_events_view (LeaseWatcher.keyed_new own) hflags hevents]
  rfl

/-- The batches of the first results are the first batches. -/
theorem exists_prefix_batchesOf {wrs : List LeaseWatchResult} {batches : List (List Event)}
    (h : batches <+: WatchLeases.batchesOf own wrs) :
    ∃ done, done <+: wrs ∧ batches = WatchLeases.batchesOf own done := by
  induction wrs using List.reverseRecOn with
  | nil => exact ⟨[], List.nil_prefix, List.prefix_nil.mp h⟩
  | append_singleton wrs wr ih =>
    have hshort : batches <+: WatchLeases.batchesOf own wrs →
        ∃ done, done <+: wrs ++ [wr] ∧ batches = WatchLeases.batchesOf own done := by
      intro hprefix
      obtain ⟨done, hdone, heq⟩ := ih hprefix
      exact ⟨done, hdone.trans (List.prefix_append _ _), heq⟩
    have hconcat := @WatchLeases.batchesOf_concat own wrs _ rfl wr
    rw [hconcat] at h
    split at h
    · rw [List.append_nil] at h
      exact hshort h
    · rename_i hb
      rcases List.prefix_concat_iff.mp h with heq | hprefix
      · refine ⟨wrs ++ [wr], List.prefix_refl _, ?_⟩
        rw [hconcat, if_neg hb]
        exact heq
      · exact hshort hprefix

/-- **What the backend holds at any time**: the leases of a beginning of the visible events. -/
theorem exists_table {k : KubeWatch} (h : Linked own k)
    (hflags : ∀ e ∈ k.hub.published, e.lease.HasFlags v4 v6) :
    ∃ done, done <+: visible k.hub k.since ∧ table v4 v6 k.task.receiver.received =
      ((LeaseWatcher.new own).update done).1.view v4 v6 := by
  obtain ⟨es, hoffered, hprefix, -⟩ := h.read
  have hfed : k.task.fed <+: es.map single := by
    rw [← flatten_forwarded, ← hoffered, h.accounted.offered, List.append_assoc]
    exact List.prefix_append _ _
  have hreceived : k.task.receiver.received <+: WatchLeases.batchesOf own k.task.fed := by
    rw [← h.accounted.batches, Channel.sent, List.append_assoc]
    exact List.prefix_append _ _
  obtain ⟨results, hresults, heq⟩ := exists_prefix_batchesOf hreceived
  obtain ⟨done, hdone, rfl⟩ : ∃ done, done <+: es ∧ results = done.map single := by
    have hle := hresults.trans hfed
    refine ⟨es.take results.length, List.take_prefix _ _, ?_⟩
    rw [List.map_take]
    exact List.prefix_iff_eq_take.mp hle
  have hvisible : done <+: visible k.hub k.since :=
    hdone.trans ((List.prefix_append _ _).trans hprefix)
  refine ⟨done, hvisible, ?_⟩
  rw [heq]
  exact table_batchesOf fun e he => hflags e (List.mem_of_mem_drop (hvisible.subset he))

end Table

/-! ## Nothing gets stuck -/

/-- The steps of the session that read and forward, of the task on what it has, and of the
backend. -/
def IsForwarding (a : KubeWatchAction) : Prop :=
  a = .recv ∨ a = .forward ∨ ∃ b, WatchLeases.IsDelivery b ∧ a = .task b

/-- The events in the channel of the session. -/
def unread (k : KubeWatch) : List Event :=
  match k.sub.bind fun i => k.hub.chans[i]? with
  | some c => c.queue
  | none => []

/-- A bound on the steps until the backend has everything. -/
def weight (k : KubeWatch) : Nat :=
  7 * k.unread.length + 6 * k.inHand.toList.length + k.task.weight

/-- The session has subscribed, nobody has given up, and nothing is being published. -/
structure Live (own : Lease) (published seen : List Event) (k : KubeWatch) : Prop where
  linked : Linked own k
  task : k.task.Live
  sub : k.sub ≠ none
  idle : k.hub.publishing = none
  published : k.hub.published = published
  seen : visible k.hub k.since = seen

section Progress

variable {own : Lease} {published seen : List Event} {k : KubeWatch}

theorem Live.not_finished (h : Live own published seen k) : k.task.finished = none := by
  cases hf : k.task.finished with
  | none => rfl
  | some res =>
    cases res with
    | ok => exact absurd hf h.linked.finished
    | err =>
      have hcancel := h.linked.cancelled hf
      rw [h.task.token] at hcancel
      cases hcancel

theorem Live.isReturned_eq (h : Live own published seen k) : isReturned k.task = false := by
  cases hp : k.task.phase with
  | returned r => exact absurd hp (h.task.running r)
  | _ => simp [isReturned, hp]

/-- The session knows its channel. -/
theorem Live.reads (h : Live own published seen k) :
    ∃ i c es, k.sub = some i ∧ k.hub.chans[i]? = some c ∧ c.closed = false ∧
      k.unread = c.queue ∧ c.received = es ++ k.inHand.toList ∧
      k.task.offered = es.map forwarded ∧ c.sent = visible k.hub k.since := by
  obtain ⟨i, hi⟩ := Option.ne_none_iff_exists'.mp h.sub
  obtain ⟨es, hoffered, -, hreads⟩ := h.linked.read
  obtain ⟨⟨backlog, hserved, hback⟩, c, hc, hread⟩ := hreads ⟨h.not_finished, h.isReturned_eq⟩ i hi
  obtain ⟨c', hc', hopen, hsent⟩ := hserved.sent
  rw [hc] at hc'
  cases hc'
  rw [EventHub.owed_of_idle h.idle, List.append_nil, hback] at hsent
  exact ⟨i, c, es, hi, hc, hopen, by simp [unread, hi, hc], hread, hoffered, hsent⟩

/-- A delivery by the task. -/
theorem Live.deliver (h : Live own published seen k) {b : WatchAction} {t : WatchLeases}
    (hb : WatchLeases.IsDelivery b) (hst : k.task.step b = some t) (ht : t.Live)
    (hlt : t.weight < k.task.weight) :
    ∃ k', k.step (.task b) = some k' ∧ Live own published seen k' ∧ k'.weight < k.weight := by
  have hmanager : isManagerStep b = false ∧ b ≠ .wake := by
    rcases hb with rfl | rfl | rfl | rfl
    all_goals simp [isManagerStep]
  have hrunning : isReturned t = false := by
    cases hp : t.phase with
    | returned r => exact absurd hp (ht.running r)
    | _ => simp [isReturned, hp]
  have hstep : k.step (.task b) = some { k with task := t } := by
    simp [step, hmanager.1, hmanager.2, hst, hrunning]
  refine ⟨_, hstep, ⟨linked_step h.linked hstep, ht, h.sub, h.idle, h.published, h.seen⟩, ?_⟩
  show 7 * k.unread.length + 6 * k.inHand.toList.length + t.weight < k.weight
  unfold weight
  omega

/-- The session forwards the event it has in hand. -/
theorem Live.forward (h : Live own published seen k) (hs : k.task.Settled) {event : Event}
    (hhand : k.inHand = some event) :
    ∃ k', k.step .forward = some k' ∧ Live own published seen k' ∧ k'.weight < k.weight := by
  have hready : k.task.phase = .ready := hs.phase.resolve_right h.linked.awake
  cases hsend : k.task.session.trySend (forwarded event) with
  | error e =>
    exfalso
    cases e with
    | closed =>
      rw [Channel.trySend_closed, h.task.session] at hsend
      cases hsend
    | full =>
      have hlen := (Channel.trySend_full.mp hsend).2
      have hpos := k.task.session.capacity_pos
      rw [hs.session, List.length_nil] at hlen
      omega
  | ok c =>
    obtain ⟨-, -, hqueue, -, hopen, -⟩ := Channel.trySend_ok hsend
    have hstep : k.step .forward = some { k with
        task := { k.task with session := c, offered := k.task.offered ++ [forwarded event] }
        inHand := none } := by
      simp [step, hhand, WatchLeases.step, WatchLeases.Polled, hready, h.not_finished,
        h.linked.hungUp, hsend]
    refine ⟨_, hstep, ⟨linked_step h.linked hstep,
      ⟨h.task.running, h.task.token, hopen, h.task.receiver, ?_⟩,
      h.sub, h.idle, h.published, h.seen⟩, ?_⟩
    · intro hsleep
      exact absurd hsleep h.linked.awake
    · show 7 * k.unread.length + 6 * 0 + WatchLeases.weight _ < k.weight
      simp only [weight, WatchLeases.weight, hhand, hqueue, hs.session, forwarded]
      simp
      omega

/-- The session reads an event. -/
theorem Live.recv (h : Live own published seen k) (hs : k.task.Settled) (hhand : k.inHand = none)
    (hunread : k.unread ≠ []) :
    ∃ k', k.step .recv = some k' ∧ Live own published seen k' ∧ k'.weight < k.weight := by
  have hready : k.task.phase = .ready := hs.phase.resolve_right h.linked.awake
  obtain ⟨i, c, es, hi, hc, hopen, hqueue, -⟩ := h.reads
  obtain ⟨event, rest, hcons⟩ := List.exists_cons_of_ne_nil (hqueue ▸ hunread)
  obtain ⟨d, hd, hrest, -⟩ := WatchLeases.recv_of_queue hcons hopen
  obtain ⟨hlt, -⟩ := List.getElem?_eq_some_iff.mp hc
  have hstep : k.step .recv = some { k with
      hub := { k.hub with chans := k.hub.chans.set i d }
      inHand := some event } := by
    simp [step, hi, hhand, WatchLeases.Polled, hready, h.not_finished, hc, hcons, EventHub.step, hd]
  refine ⟨_, hstep, ⟨linked_step h.linked hstep, h.task, h.sub, h.idle, h.published, h.seen⟩, ?_⟩
  have hunread' : unread { k with
      hub := { k.hub with chans := k.hub.chans.set i d }
      inHand := some event } = rest := by
    simp [unread, hi, List.getElem?_set_self hlt, hrest]
  simp only [weight, hunread', hqueue, hcons, hhand, List.length_cons, Option.toList_some,
    Option.toList_none, List.length_nil]
  omega

/-- The backend has everything that can be seen. -/
structure Settled (k : KubeWatch) : Prop where
  task : k.task.Settled
  inHand : k.inHand = none
  unread : k.unread = []

theorem settled_or_step (h : Live own published seen k) :
    k.Settled ∨ ∃ a k', IsForwarding a ∧ k.step a = some k' ∧ Live own published seen k' ∧
      k'.weight < k.weight := by
  rcases WatchLeases.settled_or_step h.task with hs | ⟨b, t, hb, hst, ht, hlt⟩
  · cases hhand : k.inHand with
    | some event =>
      obtain ⟨k', hk'⟩ := h.forward hs hhand
      exact Or.inr ⟨.forward, k', Or.inr (Or.inl rfl), hk'⟩
    | none =>
      by_cases hunread : k.unread = []
      · exact Or.inl ⟨hs, hhand, hunread⟩
      · obtain ⟨k', hk'⟩ := h.recv hs hhand hunread
        exact Or.inr ⟨.recv, k', Or.inl rfl, hk'⟩
  · obtain ⟨k', hk'⟩ := h.deliver hb hst ht hlt
    exact Or.inr ⟨.task b, k', Or.inr (Or.inr ⟨b, hb, rfl⟩), hk'⟩

/-- **What the backend holds in the end.** -/
theorem table_of_settled {v4 v6 : Bool} (h : Live own published seen k) (hs : k.Settled)
    (hflags : ∀ e ∈ k.hub.published, e.lease.HasFlags v4 v6) :
    table v4 v6 k.task.receiver.received =
      ((LeaseWatcher.new own).update seen).1.view v4 v6 := by
  obtain ⟨i, c, es, -, -, -, hqueue, hread, hoffered, hsent⟩ := h.reads
  have hes : es = visible k.hub k.since := by
    rw [← hsent, Channel.sent, hread, ← hqueue, hs.unread, hs.inHand]
    simp
  rw [h.linked.accounted.received_of_settled hs.task, h.linked.accounted.fed_of_settled hs.task,
    hoffered, flatten_forwarded, hes, ← h.seen]
  exact table_batchesOf fun e he => hflags e (List.mem_of_mem_drop he)

end Progress

/-- **From the hub to a backend.**  Take any interleaving of the publisher, other watchers, the
session of a long-term watch, its task, its backend and cancellation, on a hub with any past;
let all leases published carry the same flags.  At any time the backend's table is the map of
a watcher that was given a beginning of the visible events --- those the hub remembered when
the session subscribed, and all later ones --- so no event is missed, repeated or overtaken on
the way.  As long as the watch is not cancelled, the backend keeps its receiver and no
`publish` is under way, steps of the session, the task and the backend alone bring the table
up to date with all visible events.  And this is the map of the whole history exactly when
every lease that the earlier events leave stored is addressed again by a visible one. -/
theorem backend_follows_hub {v4 v6 : Bool} {capacity : Nat} {pre : List EventHub.Action}
    {hub : EventHub} {own : Lease} {receiver : Channel (List Event)} {as : List KubeWatchAction}
    {k : KubeWatch} (hpre : run EventHub.step (EventHub.new capacity) pre = some hub)
    (hnew : receiver.sent = []) (h : run step (start hub own receiver) as = some k)
    (hflags : ∀ e ∈ k.hub.published, e.lease.HasFlags v4 v6) :
    (∃ done, done <+: visible k.hub k.since ∧ table v4 v6 k.task.receiver.received =
        ((LeaseWatcher.new own).update done).1.view v4 v6) ∧
      (k.sub ≠ none → k.task.cancelled = false → k.task.receiver.closed = false →
        k.hub.publishing = none →
        ∃ bs k', (∀ b ∈ bs, IsForwarding b) ∧ run step k bs = some k' ∧
          k'.hub.published = k.hub.published ∧ table v4 v6 k'.task.receiver.received =
            ((LeaseWatcher.new own).update (visible k.hub k.since)).1.view v4 v6) ∧
      (((LeaseWatcher.new own).update (visible k.hub k.since)).1.view v4 v6 =
          ((LeaseWatcher.new own).update k.hub.published).1.view v4 v6 ↔
        ∀ l ∈ ((LeaseWatcher.new own).update
            (k.hub.published.take (k.since - k.hub.capacity))).1.leases,
          ∃ e ∈ visible k.hub k.since, e.lease.key v4 v6 = l.key v4 v6) := by
  have hlinked := linked_run hpre hnew h
  refine ⟨exists_table hlinked hflags, ?_, ?_⟩
  · intro hsub hrunning hopen hidle
    have hlive : Live own k.hub.published (visible k.hub k.since) k := by
      refine ⟨hlinked, ⟨fun r hr => ?_, hrunning, hlinked.session, hopen, ?_⟩, hsub, hidle, rfl,
        rfl⟩
      · have hreason := hlinked.accounted.reason r hr
        cases r with
        | cancelled =>
          rw [hrunning] at hreason
          cases hreason
        | clean => exact hlinked.finished hreason
        | receiverGone _ _ =>
          rw [hopen] at hreason
          cases hreason
      · exact fun hsleep => absurd hsleep hlinked.awake
    obtain ⟨bs, k', hbs, hk', hlive', hsettled⟩ :=
      exists_run_of_measure weight (fun _ hu => settled_or_step hu) hlive
    exact ⟨bs, k', hbs, hk', hlive'.published, table_of_settled hlive' hsettled fun e he =>
      hflags e (hlive'.published ▸ he)⟩
  · have hsplit : k.hub.published.take (k.since - k.hub.capacity) ++ visible k.hub k.since =
        k.hub.published := List.take_append_drop _ _
    have hold : ∀ e ∈ k.hub.published.take (k.since - k.hub.capacity),
        e.lease.HasFlags v4 v6 := fun e he => hflags e (List.mem_of_mem_take he)
    have hvisible : ∀ e ∈ visible k.hub k.since, e.lease.HasFlags v4 v6 :=
      fun e he => hflags e (List.mem_of_mem_drop he)
    have hmissed := LeaseWatcher.missed_history own hold hvisible
    rw [hsplit] at hmissed
    rw [← hmissed, funext_iff, LeaseWatcher.mem_leases_iff_view_eq
      (LeaseWatcher.update_new_view own hvisible).1 (LeaseWatcher.update_new_view own hflags).1]

/-- A session on a hub that has forgotten the first peer; the peer is announced again while
the second one is on its way to the backend. -/
def lateWatch : List KubeWatchAction :=
  [.subscribe, .recv, .hub (.publish ⟨.added, v4Lease 0x0a000100⟩), .forward, .task .take,
    .hub .send, .hub .retire, .task .feed]

/-- The hub before that session. -/
def lateHub : EventHub :=
  (run EventHub.step (EventHub.new 1) EventHub.shortWindowRun).getD (EventHub.new 1)

/-- Where that session stands afterwards. -/
def lateEnd : KubeWatch :=
  (run step (start lateHub (v4Lease 0x0a00ff00) (Channel.new 1 Nat.one_pos)) lateWatch).getD
    (start lateHub (v4Lease 0x0a00ff00) (Channel.new 1 Nat.one_pos))

theorem lateWatch_follows_hub :
    lateEnd.hub.published.length = 3 ∧ (visible lateEnd.hub lateEnd.since).length = 2 ∧
      ∃ bs k', run step lateEnd bs = some k' ∧ table true false k'.task.receiver.received =
        ((LeaseWatcher.new (v4Lease 0x0a00ff00)).update lateEnd.hub.published).1.view true
          false := by
  have hpre : run EventHub.step (EventHub.new 1) EventHub.shortWindowRun = some lateHub := rfl
  have hend : run step (start lateHub (v4Lease 0x0a00ff00) (Channel.new 1 Nat.one_pos)) lateWatch =
      some lateEnd := rfl
  have hflags : ∀ e ∈ lateEnd.hub.published, e.lease.HasFlags true false := by decide
  obtain ⟨-, hprogress, hwhole⟩ := backend_follows_hub hpre rfl hend hflags
  obtain ⟨bs, k', -, hk', -, htable⟩ := hprogress (by decide) rfl rfl rfl
  exact ⟨rfl, rfl, bs, k', hk', htable.trans (hwhole.mpr (by decide))⟩

end KubeWatch

end Flannel
