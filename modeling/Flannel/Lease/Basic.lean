import Flannel.Ip.Net
import Flannel.Lib.KeyedList

/-!
# Leases, lease events and the lease watcher

The data types of `lease/mod.rs`, its `LeaseWatcher`, and the `reduce` of
`subnet/watch.rs` that feeds the watcher.

A watcher keeps the leases it knows as a plain list and compares leases with
`sameSubnet`, whose meaning depends on a pair of enable flags.  Which lease
supplies the flags differs from place to place, and it matters: against the own
lease the *incoming* lease supplies them, against a stored lease the *stored* one
does.  Both tests are written here as the source has them.

The watcher's own lease is optional in the source because a default watcher has
none; every method that reads it expects it, and the only constructor sets it,
so here it is a plain field.
-/

namespace Flannel

open KeyedList

/-! ## Leases and events -/

/-- `EventType`. -/
inductive EventType where
  | added
  | removed
  deriving DecidableEq, Repr

/-- `LeaseAttrs`.  A raw JSON value is compared by its text, so it is its text. -/
structure LeaseAttrs where
  publicIp : IP4 := default
  publicIpv6 : Option IP6 := none
  backendType : String := ""
  backendData : Option String := none
  backendV6Data : Option String := none
  deriving DecidableEq, Repr

/-- `Lease`; the expiration is in seconds since the epoch. -/
structure Lease where
  enableIpv4 : Bool
  enableIpv6 : Bool
  subnet : IP4Net
  ipv6Subnet : IP6Net
  attrs : LeaseAttrs := {}
  expiration : Int := 0
  asof : Int := 0
  deriving DecidableEq, Repr

/-- `Event`. -/
structure Event where
  eventType : EventType
  lease : Lease
  deriving DecidableEq, Repr

/-- `LeaseWatchResult`: a batch of events, or a snapshot when there are none. -/
structure LeaseWatchResult where
  events : List Event := []
  snapshot : List Lease := []
  deriving DecidableEq, Repr

/-- An IPv4-only lease of the `/24` at an address, for use in concrete runs. -/
def v4Lease (addr : BitVec 32) : Lease :=
  { enableIpv4 := true, enableIpv6 := false, subnet := ⟨⟨addr⟩, 24⟩, ipv6Subnet := default }

/-- `same_subnet`: the subnets that the enable flags select agree.  With both flags
off (the etcd case) the IPv4 subnets are compared. -/
def sameSubnet (ipv4Enabled ipv6Enabled : Bool) (first second : Lease) : Bool :=
  (ipv4Enabled && !ipv6Enabled && first.subnet == second.subnet) ||
  (!ipv4Enabled && ipv6Enabled && first.ipv6Subnet == second.ipv6Subnet) ||
  (ipv4Enabled && ipv6Enabled && first.subnet == second.subnet &&
    first.ipv6Subnet == second.ipv6Subnet) ||
  (!ipv4Enabled && !ipv6Enabled && first.subnet == second.subnet)

/-- The own-lease filter: the flags are those of the lease that arrives. -/
def isOwn (own l : Lease) : Bool := sameSubnet l.enableIpv4 l.enableIpv6 own l

/-- The test against a stored lease: the flags are those of the stored lease. -/
def matchesStored (stored l : Lease) : Bool :=
  sameSubnet stored.enableIpv4 stored.enableIpv6 stored l

/-! ## The watcher -/

/-- `LeaseWatcher`. -/
structure LeaseWatcher where
  ownLease : Lease
  leases : List Lease
  deriving DecidableEq, Repr

namespace LeaseWatcher

/-- `LeaseWatcher::new`. -/
def new (ownLease : Lease) : LeaseWatcher := ⟨ownLease, []⟩

/-- `LeaseWatcher::add`: overwrite the first stored lease of the same subnet, or
append. -/
def add (lw : LeaseWatcher) (lease : Lease) : LeaseWatcher × Event :=
  match firstMatch (fun l => matchesStored l lease) lw.leases with
  | some (pre, _, post) => ({ lw with leases := pre ++ lease :: post }, ⟨.added, lease⟩)
  | none => ({ lw with leases := lw.leases ++ [lease] }, ⟨.added, lease⟩)

/-- `LeaseWatcher::remove`: drop the first stored lease of the same subnet and
report *it*; with none stored, report the lease passed in. -/
def remove (lw : LeaseWatcher) (lease : Lease) : LeaseWatcher × Event :=
  match firstMatch (fun l => matchesStored l lease) lw.leases with
  | some (pre, l, post) => ({ lw with leases := pre ++ post }, ⟨.removed, l⟩)
  | none => (lw, ⟨.removed, lease⟩)

/-- One unfiltered event of `LeaseWatcher::update`. -/
def applyEvent (lw : LeaseWatcher) (e : Event) : LeaseWatcher × Event :=
  match e.eventType with
  | .added => lw.add e.lease
  | .removed => lw.remove e.lease

/-- `LeaseWatcher::update`. -/
def update (lw : LeaseWatcher) : List Event → LeaseWatcher × List Event
  | [] => (lw, [])
  | e :: es =>
      if isOwn lw.ownLease e.lease then lw.update es
      else
        let r := lw.applyEvent e
        let t := r.1.update es
        (t.1, r.2 :: t.2)

/-- The first loop of `LeaseWatcher::reset`: every snapshot lease that is not the
own one takes the first stored lease it matches out of the list, and is announced
if there is none.  Returns the stored leases nobody took, and the announcements. -/
def resetLoop (own : Lease) (stored : List Lease) : List Lease → List Lease × List Event
  | [] => (stored, [])
  | nl :: leases =>
      if isOwn own nl then resetLoop own stored leases
      else
        match firstMatch (fun ol => matchesStored ol nl) stored with
        | some (pre, _, post) => resetLoop own (pre ++ post) leases
        | none =>
            let r := resetLoop own stored leases
            (r.1, ⟨.added, nl⟩ :: r.2)

/-- `LeaseWatcher::reset`: announce what is new, report what nobody took as removed,
and store the whole snapshot. -/
def reset (lw : LeaseWatcher) (leases : List Lease) : LeaseWatcher × List Event :=
  let r := resetLoop lw.ownLease lw.leases leases
  ({ lw with leases := leases }, r.2 ++ r.1.map fun l => ⟨.removed, l⟩)

/-- `reduce` of `subnet/watch.rs`. -/
def reduce (lw : LeaseWatcher) (wr : LeaseWatchResult) : LeaseWatcher × List Event :=
  if wr.events ≠ [] then lw.update wr.events else lw.reset wr.snapshot

/-- What `watch_leases` does with everything its sessions deliver: one `reduce`
after another over one watcher, one batch of events for each result. -/
def reduceAll (lw : LeaseWatcher) : List LeaseWatchResult → LeaseWatcher × List (List Event)
  | [] => (lw, [])
  | wr :: wrs =>
      let r := lw.reduce wr
      let t := r.1.reduceAll wrs
      (t.1, r.2 :: t.2)

/-! ## What each operation does -/

@[simp] theorem new_ownLease (own : Lease) : (new own).ownLease = own := rfl

@[simp] theorem new_leases (own : Lease) : (new own).leases = [] := rfl

@[simp] theorem add_ownLease (lw : LeaseWatcher) (l : Lease) :
    (lw.add l).1.ownLease = lw.ownLease := by
  unfold add
  split <;> rfl

@[simp] theorem add_event (lw : LeaseWatcher) (l : Lease) :
    (lw.add l).2 = ⟨.added, l⟩ := by
  unfold add
  split <;> rfl

@[simp] theorem remove_ownLease (lw : LeaseWatcher) (l : Lease) :
    (lw.remove l).1.ownLease = lw.ownLease := by
  unfold remove
  split <;> rfl

@[simp] theorem applyEvent_ownLease (lw : LeaseWatcher) (e : Event) :
    (lw.applyEvent e).1.ownLease = lw.ownLease := by
  unfold applyEvent
  split <;> simp

@[simp] theorem update_nil (lw : LeaseWatcher) : lw.update [] = (lw, []) := rfl

theorem update_cons_own {lw : LeaseWatcher} {e : Event}
    (h : isOwn lw.ownLease e.lease = true) (es : List Event) :
    lw.update (e :: es) = lw.update es := by
  rw [update, if_pos h]

theorem update_cons {lw : LeaseWatcher} {e : Event}
    (h : isOwn lw.ownLease e.lease = false) (es : List Event) :
    lw.update (e :: es) =
      (((lw.applyEvent e).1.update es).1,
        (lw.applyEvent e).2 :: ((lw.applyEvent e).1.update es).2) := by
  rw [update, if_neg (by simp [h])]

@[simp] theorem update_ownLease (lw : LeaseWatcher) (es : List Event) :
    (lw.update es).1.ownLease = lw.ownLease := by
  induction es generalizing lw with
  | nil => rfl
  | cons e es ih =>
    cases h : isOwn lw.ownLease e.lease with
    | true => rw [update_cons_own h, ih]
    | false => rw [update_cons h, ih, applyEvent_ownLease]

/-- Updating with a concatenation is updating twice. -/
theorem update_append (lw : LeaseWatcher) (es fs : List Event) :
    (lw.update (es ++ fs)).1 = ((lw.update es).1.update fs).1 := by
  induction es generalizing lw with
  | nil => rfl
  | cons e es ih =>
    rw [List.cons_append]
    cases h : isOwn lw.ownLease e.lease with
    | true => rw [update_cons_own h, update_cons_own h, ih]
    | false => rw [update_cons h, update_cons h, ih]

@[simp] theorem reset_ownLease (lw : LeaseWatcher) (ls : List Lease) :
    (lw.reset ls).1.ownLease = lw.ownLease := rfl

@[simp] theorem reset_leases (lw : LeaseWatcher) (ls : List Lease) :
    (lw.reset ls).1.leases = ls := rfl

@[simp] theorem resetLoop_nil (own : Lease) (stored : List Lease) :
    resetLoop own stored [] = (stored, []) := rfl

/-- An own lease of the snapshot is passed over. -/
theorem resetLoop_own {own nl : Lease} (h : isOwn own nl = true) (stored ls : List Lease) :
    resetLoop own stored (nl :: ls) = resetLoop own stored ls := by
  rw [resetLoop, if_pos h]

/-- A foreign lease takes the first stored lease it matches. -/
theorem resetLoop_taken {own nl x : Lease} {stored pre post : List Lease}
    (h : isOwn own nl = false)
    (hm : firstMatch (fun ol => matchesStored ol nl) stored = some (pre, x, post))
    (ls : List Lease) :
    resetLoop own stored (nl :: ls) = resetLoop own (pre ++ post) ls := by
  rw [resetLoop, if_neg (by simp [h]), hm]

/-- A foreign lease that matches nothing is announced. -/
theorem resetLoop_announced {own nl : Lease} {stored : List Lease}
    (h : isOwn own nl = false)
    (hm : firstMatch (fun ol => matchesStored ol nl) stored = none) (ls : List Lease) :
    resetLoop own stored (nl :: ls) =
      ((resetLoop own stored ls).1, ⟨.added, nl⟩ :: (resetLoop own stored ls).2) := by
  rw [resetLoop, if_neg (by simp [h]), hm]

theorem reset_events (lw : LeaseWatcher) (ls : List Lease) :
    (lw.reset ls).2 =
      (resetLoop lw.ownLease lw.leases ls).2 ++
        (resetLoop lw.ownLease lw.leases ls).1.map fun l => ⟨.removed, l⟩ := rfl

theorem reduce_of_events {wr : LeaseWatchResult} (h : wr.events ≠ []) (lw : LeaseWatcher) :
    lw.reduce wr = lw.update wr.events := by
  rw [reduce, if_pos h]

theorem reduce_of_snapshot {wr : LeaseWatchResult} (h : wr.events = [])
    (lw : LeaseWatcher) : lw.reduce wr = lw.reset wr.snapshot := by
  rw [reduce, if_neg (by simp [h])]

@[simp] theorem reduce_ownLease (lw : LeaseWatcher) (wr : LeaseWatchResult) :
    (lw.reduce wr).1.ownLease = lw.ownLease := by
  unfold reduce
  split <;> simp

@[simp] theorem reduceAll_nil (lw : LeaseWatcher) : lw.reduceAll [] = (lw, []) := rfl

@[simp] theorem reduceAll_cons (lw : LeaseWatcher) (wr : LeaseWatchResult)
    (wrs : List LeaseWatchResult) :
    lw.reduceAll (wr :: wrs) =
      (((lw.reduce wr).1.reduceAll wrs).1,
        (lw.reduce wr).2 :: ((lw.reduce wr).1.reduceAll wrs).2) := rfl

end LeaseWatcher

end Flannel
