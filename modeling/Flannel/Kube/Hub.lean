import Flannel.Lease.Basic
import Flannel.Lib.Channel
import Flannel.Lib.Run

/-!
# The event hub

`EventHub` of `subnet/kube/mod.rs`: the `fan_out` task publishes the lease events one
after another, and every watcher subscribes to get a channel of its own, into which
a bounded backlog is replayed first.

`publish` takes the lock twice and releases it in between, so it is three kinds of
atomic step: the locked step that records the event and copies the subscriber list,
one send per copied sender, and the locked step that retires the senders whose
receiver was gone.  `subscribe` holds the lock throughout and is one step.  Reading
from a receiver and dropping it are steps of the watchers and can happen anywhere.

Senders are cloned and compared by the channel they belong to, so a sender is the
number of its channel, and `chans` lists all channels that were ever made.  A send to
a full channel waits, so it is not enabled; a send to a channel whose receiver is
gone fails.  `published` lists all events ever published and is read by no step.
-/

namespace Flannel

open Run

/-- A `publish` between its two locked steps. -/
structure Publication where
  event : Event
  /-- the senders that were not served yet -/
  remaining : List Nat
  retired : List Nat
  deriving DecidableEq

/-- The hub, with the channels it made. -/
structure EventHub where
  backlog : List Event
  capacity : Nat
  subscribers : List Nat
  chans : List (Channel Event)
  publishing : Option Publication
  published : List Event
  capacity_pos : 0 < capacity

namespace EventHub

/-- `EventHub::new`. -/
def new (capacity : Nat) : EventHub where
  backlog := []
  capacity := max capacity 1
  subscribers := []
  chans := []
  publishing := none
  published := []
  capacity_pos := Nat.lt_of_lt_of_le Nat.one_pos (Nat.le_max_right _ _)

/-- The `while` loop of `publish`: pop from the front while there is too much. -/
def trim (capacity : Nat) : List Event → List Event
  | [] => []
  | e :: es => if capacity < (e :: es).length then trim capacity es else e :: es

/-- The first locked step of `publish`. -/
def publish (hub : EventHub) (event : Event) : EventHub :=
  { hub with
    backlog := trim hub.capacity (hub.backlog ++ [event])
    publishing := some ⟨event, hub.subscribers, []⟩
    published := hub.published ++ [event] }

/-- The send of `publish` to the next sender `i`, whose channel is `c`. -/
def send (hub : EventHub) (event : Event) (i : Nat) (rest retired : List Nat)
    (c : Channel Event) : Option EventHub :=
  match c.trySend event with
  | .ok d =>
    some { hub with
      chans := hub.chans.set i d
      publishing := some ⟨event, rest, retired⟩ }
  | .error .closed => some { hub with publishing := some ⟨event, rest, retired ++ [i]⟩ }
  | .error .full => none

/-- The end of `publish`: the second locked step, when there is anybody to retire. -/
def retire (hub : EventHub) (retired : List Nat) : EventHub :=
  if retired.isEmpty then
    { hub with publishing := none }
  else
    { hub with
      subscribers := hub.subscribers.filter fun tx => !retired.any fun r => r == tx
      publishing := none }

/-- The channel of a new subscriber, with the backlog sent to it, and the errors of
these sends (which the source ignores). -/
def replayed (hub : EventHub) : Channel Event × List TrySendError :=
  (Channel.new (hub.capacity + hub.backlog.length)
    (Nat.lt_of_lt_of_le hub.capacity_pos (Nat.le_add_right _ _))).trySendAll hub.backlog

/-- `subscribe`. -/
def subscribe (hub : EventHub) : EventHub :=
  { hub with
    chans := hub.chans ++ [hub.replayed.1]
    subscribers := hub.subscribers ++ [hub.chans.length] }

/-- The atomic steps of the publisher and the watchers. -/
inductive Action where
  /-- the first locked step of a `publish` -/
  | publish (event : Event)
  /-- the next send of the current `publish` -/
  | send
  /-- the end of the current `publish` -/
  | retire
  | subscribe
  /-- a value is read from the `i`-th receiver -/
  | recv (i : Nat)
  /-- the `i`-th receiver is dropped -/
  | drop (i : Nat)
  deriving DecidableEq

/-- What an action does; `none` when it cannot happen in this state. -/
def step (hub : EventHub) : Action → Option EventHub
  | .publish event =>
    match hub.publishing with
    | none => some (hub.publish event)
    | some _ => none
  | .send =>
    match hub.publishing with
    | some ⟨event, i :: rest, retired⟩ => (hub.chans[i]?).bind (hub.send event i rest retired)
    | _ => none
  | .retire =>
    match hub.publishing with
    | some ⟨_, [], retired⟩ => some (hub.retire retired)
    | _ => none
  | .subscribe => some hub.subscribe
  | .recv i =>
    (hub.chans[i]?).bind fun c => c.recv.map fun d => { hub with chans := hub.chans.set i d }
  | .drop i => (hub.chans[i]?).map fun c => { hub with chans := hub.chans.set i c.close }

/-! ## The moves -/

/-- The steps, one constructor for each way a step can go. -/
inductive Move (hub : EventHub) : Action → EventHub → Prop
  | published {e : Event} (hidle : hub.publishing = none) : Move hub (.publish e) (hub.publish e)
  | sent {e : Event} {i : Nat} {rest retired : List Nat} {c d : Channel Event}
      (hpub : hub.publishing = some ⟨e, i :: rest, retired⟩) (hchan : hub.chans[i]? = some c)
      (hsend : c.trySend e = .ok d) :
      Move hub .send
        { hub with
          chans := hub.chans.set i d
          publishing := some ⟨e, rest, retired⟩ }
  | refused {e : Event} {i : Nat} {rest retired : List Nat} {c : Channel Event}
      (hpub : hub.publishing = some ⟨e, i :: rest, retired⟩) (hchan : hub.chans[i]? = some c)
      (hclosed : c.closed = true) :
      Move hub .send { hub with publishing := some ⟨e, rest, retired ++ [i]⟩ }
  | retired {e : Event} {retired : List Nat} (hpub : hub.publishing = some ⟨e, [], retired⟩) :
      Move hub .retire
        { hub with
          subscribers := hub.subscribers.filter fun tx => decide (tx ∉ retired)
          publishing := none }
  | subscribed : Move hub .subscribe hub.subscribe
  | received {i : Nat} {c d : Channel Event} (hchan : hub.chans[i]? = some c)
      (hrecv : c.recv = some d) : Move hub (.recv i) { hub with chans := hub.chans.set i d }
  | dropped {i : Nat} {c : Channel Event} (hchan : hub.chans[i]? = some c) :
      Move hub (.drop i) { hub with chans := hub.chans.set i c.close }

theorem retire_eq (hub : EventHub) (retired : List Nat) :
    hub.retire retired =
      { hub with
        subscribers := hub.subscribers.filter fun tx => decide (tx ∉ retired)
        publishing := none } := by
  unfold retire
  split
  · rename_i hempty
    rw [List.isEmpty_iff] at hempty
    subst hempty
    simp
  · congr 1
    refine List.filter_congr fun tx _ => ?_
    rw [Bool.eq_iff_iff]
    simp only [Bool.not_eq_true', List.any_eq_false, beq_iff_eq, decide_eq_true_eq]
    exact ⟨fun hno hmem => hno tx hmem rfl, fun hno x hx heq => hno (heq ▸ hx)⟩

/-- **Every step is a move.** -/
theorem move_of_step {hub hub' : EventHub} {a : Action} (h : hub.step a = some hub') :
    Move hub a hub' := by
  cases a with
  | publish e =>
    cases hp : hub.publishing with
    | none =>
      simp only [step, hp, Option.some.injEq] at h
      subst h
      exact .published hp
    | some p => simp [step, hp] at h
  | send =>
    cases hp : hub.publishing with
    | none => simp [step, hp] at h
    | some p =>
      obtain ⟨e, remaining, retired⟩ := p
      cases remaining with
      | nil => simp [step, hp] at h
      | cons i rest =>
        simp only [step, hp] at h
        obtain ⟨c, hc, hsend⟩ := Option.bind_eq_some_iff.mp h
        unfold send at hsend
        cases ht : c.trySend e with
        | ok d =>
          simp only [ht, Option.some.injEq] at hsend
          subst hsend
          exact .sent hp hc ht
        | error err =>
          cases err with
          | closed =>
            simp only [ht, Option.some.injEq] at hsend
            subst hsend
            exact .refused hp hc (Channel.trySend_closed.mp ht)
          | full => simp [ht] at hsend
  | retire =>
    cases hp : hub.publishing with
    | none => simp [step, hp] at h
    | some p =>
      obtain ⟨e, remaining, retired⟩ := p
      cases remaining with
      | nil =>
        simp only [step, hp, Option.some.injEq, retire_eq] at h
        subst h
        exact .retired hp
      | cons i rest => simp [step, hp] at h
  | subscribe =>
    rw [← Option.some.inj h]
    exact .subscribed
  | recv i =>
    obtain ⟨c, hc, hmap⟩ := Option.bind_eq_some_iff.mp h
    obtain ⟨d, hd, rfl⟩ := Option.map_eq_some_iff.mp hmap
    exact .received hc hd
  | drop i =>
    obtain ⟨c, hc, rfl⟩ := Option.map_eq_some_iff.mp h
    exact .dropped hc

/-! ## The backlog -/

/-- The loop keeps the last `capacity` events. -/
theorem trim_eq_drop (capacity : Nat) (es : List Event) :
    trim capacity es = es.drop (es.length - capacity) := by
  induction es with
  | nil => simp [trim]
  | cons e es ih =>
    unfold trim
    rw [List.length_cons]
    by_cases h : capacity < es.length + 1
    · have hsucc : es.length + 1 - capacity = (es.length - capacity) + 1 := by omega
      rw [if_pos h, ih, hsucc, List.drop_succ_cons]
    · have hzero : es.length + 1 - capacity = 0 := by omega
      rw [if_neg h, hzero, List.drop_zero]

/-- Trimming a window of a list that grows is trimming the list. -/
theorem trim_window (capacity : Nat) (es : List Event) (e : Event) :
    trim capacity (es.drop (es.length - capacity) ++ [e]) =
      (es ++ [e]).drop ((es ++ [e]).length - capacity) := by
  rw [trim_eq_drop, ← List.drop_append_of_le_length (Nat.sub_le _ _), List.drop_drop]
  congr 1
  simp only [List.length_drop, List.length_append, List.length_singleton]
  omega

end EventHub

end Flannel
