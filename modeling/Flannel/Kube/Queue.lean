import Flannel.Lease.Basic
import Flannel.Lib.Channel
import Flannel.Lib.Run

/-!
# The event queue and its retry tasks

`enqueue_lease_event` of `subnet/kube/events.rs`, run against the channel and the
semaphore that `new_kube_subnet_manager` makes, with the `fan_out` loop at the
receiving end.

The node handlers call `enqueue_lease_event` one call at a time.  A call first tries
to put its event into the channel.  When the channel is full the call waits for one
of the `ASYNC_SEND_SLOTS` permits, and hands event and permit to a task of its own
that keeps retrying; the call then returns, and the next one may start.  So four
kinds of party interleave: the caller, the retry tasks, the consumer, and whoever
cancels the context or drops the receiver.  Their atomic steps are the actions
below; between two steps of one party any number of steps of the others can happen.

Time is not modelled.  A retry task sleeps before each attempt, and a sleep can end
at any moment, so the backoff it computes is kept but decides nothing.  The
`select!`s poll the context first, but the context can be cancelled between the
polls of one `select!`, so after a cancellation both outcomes stay possible.  The
semaphore is never closed, so acquiring a permit does not fail.

Two events may be equal, so the state numbers the calls and what travels through the
queue is a call: number, node name and event.  `calls` lists all of them and
`dropped` those that were given up; neither is read by any step.
-/

namespace Flannel

open Run

/-- One call of `enqueue_lease_event`. -/
structure Enqueued where
  call : Nat
  nodeName : String
  evt : Event
  deriving DecidableEq, Repr

/-- A spawned retry task: the event it holds and its backoff in milliseconds.  It also
owns one permit. -/
structure RetryTask where
  item : Enqueued
  backoff : Nat
  deriving DecidableEq, Repr

/-- `ASYNC_SEND_SLOTS`. -/
def asyncSendSlots : Nat := 100

/-- The first backoff of a retry task, in milliseconds. -/
def minBackoff : Nat := 100

/-- `max_backoff`, in milliseconds. -/
def maxBackoff : Nat := 5000

/-- The queue with everybody who works on it. -/
structure EventQueue where
  tx : Channel Enqueued
  /-- the free permits of the semaphore -/
  permits : Nat
  tasks : List RetryTask
  /-- the caller, when it waits for a permit -/
  producer : Option Enqueued
  cancelled : Bool
  calls : List Enqueued
  dropped : List Enqueued
  deriving DecidableEq

namespace EventQueue

/-- The queue that `new_kube_subnet_manager` makes. -/
def new (capacity : Nat) (h : 0 < capacity) : EventQueue where
  tx := Channel.new capacity h
  permits := asyncSendSlots
  tasks := []
  producer := none
  cancelled := false
  calls := []
  dropped := []

/-- The call that comes next, for a node and an event. -/
def nextCall (q : EventQueue) (nodeName : String) (evt : Event) : Enqueued :=
  ⟨q.calls.length, nodeName, evt⟩

/-- `enqueue_lease_event`, up to the first point where it can wait. -/
def enqueueLeaseEvent (q : EventQueue) (nodeName : String) (evt : Event) : EventQueue :=
  let x := q.nextCall nodeName evt
  match q.tx.trySend x with
  | .ok tx => { q with tx := tx, calls := q.calls ++ [x] }
  | .error .closed => { q with calls := q.calls ++ [x], dropped := q.dropped ++ [x] }
  | .error .full => { q with calls := q.calls ++ [x], producer := some x }

/-- One attempt of the `i`-th retry task, which is `t`, after its sleep. -/
def retryTask (q : EventQueue) (i : Nat) (t : RetryTask) : EventQueue :=
  match q.tx.trySend t.item with
  | .ok tx => { q with tx := tx, tasks := q.tasks.eraseIdx i, permits := q.permits + 1 }
  | .error .closed =>
    { q with
      tasks := q.tasks.eraseIdx i
      permits := q.permits + 1
      dropped := q.dropped ++ [t.item] }
  | .error .full =>
    { q with tasks := q.tasks.set i { t with backoff := min (t.backoff * 2) maxBackoff } }

/-- The atomic steps of the parties. -/
inductive Action where
  /-- the next call of `enqueue_lease_event` -/
  | enqueue (nodeName : String) (evt : Event)
  /-- the waiting call gets a permit, spawns its task and returns -/
  | acquire
  /-- the waiting call sees the cancellation and returns -/
  | acquireCancelled
  /-- the `i`-th retry task wakes up and tries to send -/
  | retry (i : Nat)
  /-- the `i`-th retry task sees the cancellation and ends -/
  | retryCancelled (i : Nat)
  /-- `fan_out` takes the oldest event -/
  | recv
  /-- the context is cancelled -/
  | cancel
  /-- the receiver is dropped -/
  | close
  deriving DecidableEq

/-- What an action does; `none` when it cannot happen in this state. -/
def step (q : EventQueue) : Action → Option EventQueue
  | .enqueue nodeName evt =>
    match q.producer with
    | none => some (q.enqueueLeaseEvent nodeName evt)
    | some _ => none
  | .acquire =>
    match q.producer with
    | none => none
    | some x =>
      if 0 < q.permits then
        some { q with
          producer := none
          permits := q.permits - 1
          tasks := q.tasks ++ [⟨x, minBackoff⟩] }
      else
        none
  | .acquireCancelled =>
    match q.producer with
    | none => none
    | some x =>
      if q.cancelled then
        some { q with producer := none, dropped := q.dropped ++ [x] }
      else
        none
  | .retry i => (q.tasks[i]?).map (q.retryTask i)
  | .retryCancelled i =>
    match q.tasks[i]? with
    | none => none
    | some t =>
      if q.cancelled then
        some { q with
          tasks := q.tasks.eraseIdx i
          permits := q.permits + 1
          dropped := q.dropped ++ [t.item] }
      else
        none
  | .recv => q.tx.recv.map fun tx => { q with tx := tx }
  | .cancel => some { q with cancelled := true }
  | .close => some { q with tx := q.tx.close }

/-! ## The moves

All that a step can do, once and for all.  Each fact about steps below is a case
analysis on the move. -/

/-- The steps, one constructor for each way a step can go. -/
inductive Move (q : EventQueue) : Action → EventQueue → Prop
  | sent {n : String} {e : Event} {tx : Channel Enqueued} (hidle : q.producer = none)
      (hsend : q.tx.trySend (q.nextCall n e) = .ok tx) :
      Move q (.enqueue n e) { q with tx := tx, calls := q.calls ++ [q.nextCall n e] }
  | refused {n : String} {e : Event} (hidle : q.producer = none) (hclosed : q.tx.closed = true) :
      Move q (.enqueue n e)
        { q with
          calls := q.calls ++ [q.nextCall n e]
          dropped := q.dropped ++ [q.nextCall n e] }
  | blocked {n : String} {e : Event} (hidle : q.producer = none) :
      Move q (.enqueue n e)
        { q with calls := q.calls ++ [q.nextCall n e], producer := some (q.nextCall n e) }
  | spawned {x : Enqueued} (hwait : q.producer = some x) (hfree : 0 < q.permits) :
      Move q .acquire
        { q with
          producer := none
          permits := q.permits - 1
          tasks := q.tasks ++ [⟨x, minBackoff⟩] }
  | abandoned {x : Enqueued} (hwait : q.producer = some x) (hcancel : q.cancelled = true) :
      Move q .acquireCancelled { q with producer := none, dropped := q.dropped ++ [x] }
  | requeued {i : Nat} {t : RetryTask} {tx : Channel Enqueued} (htask : q.tasks[i]? = some t)
      (hsend : q.tx.trySend t.item = .ok tx) :
      Move q (.retry i)
        { q with tx := tx, tasks := q.tasks.eraseIdx i, permits := q.permits + 1 }
  | lost {i : Nat} {t : RetryTask} (htask : q.tasks[i]? = some t) (hclosed : q.tx.closed = true) :
      Move q (.retry i)
        { q with
          tasks := q.tasks.eraseIdx i
          permits := q.permits + 1
          dropped := q.dropped ++ [t.item] }
  | backedOff {i : Nat} {t : RetryTask} (htask : q.tasks[i]? = some t) :
      Move q (.retry i)
        { q with tasks := q.tasks.set i { t with backoff := min (t.backoff * 2) maxBackoff } }
  | ended {i : Nat} {t : RetryTask} (htask : q.tasks[i]? = some t) (hcancel : q.cancelled = true) :
      Move q (.retryCancelled i)
        { q with
          tasks := q.tasks.eraseIdx i
          permits := q.permits + 1
          dropped := q.dropped ++ [t.item] }
  | delivered {tx : Channel Enqueued} (hrecv : q.tx.recv = some tx) :
      Move q .recv { q with tx := tx }
  | cancelled : Move q .cancel { q with cancelled := true }
  | closed : Move q .close { q with tx := q.tx.close }

theorem move_enqueueLeaseEvent {q : EventQueue} (h : q.producer = none) (n : String) (e : Event) :
    Move q (.enqueue n e) (q.enqueueLeaseEvent n e) := by
  unfold enqueueLeaseEvent
  cases hs : q.tx.trySend (q.nextCall n e) with
  | ok tx =>
    simp only [hs]
    exact .sent h hs
  | error err =>
    cases err with
    | closed =>
      simp only [hs]
      exact .refused h (Channel.trySend_closed.mp hs)
    | full =>
      simp only [hs]
      exact .blocked h

theorem move_retryTask {q : EventQueue} {i : Nat} {t : RetryTask} (h : q.tasks[i]? = some t) :
    Move q (.retry i) (q.retryTask i t) := by
  unfold retryTask
  cases hs : q.tx.trySend t.item with
  | ok tx =>
    simp only
    exact .requeued h hs
  | error err =>
    cases err with
    | closed =>
      simp only
      exact .lost h (Channel.trySend_closed.mp hs)
    | full =>
      simp only
      exact .backedOff h

/-- **Every step is a move.** -/
theorem move_of_step {q r : EventQueue} {a : Action} (h : q.step a = some r) : Move q a r := by
  cases a with
  | enqueue n e =>
    cases hp : q.producer with
    | none =>
      simp only [step, hp, Option.some.injEq] at h
      subst h
      exact move_enqueueLeaseEvent hp n e
    | some x => simp [step, hp] at h
  | acquire =>
    cases hp : q.producer with
    | none => simp [step, hp] at h
    | some x =>
      simp only [step, hp, Option.ite_none_right_eq_some, Option.some.injEq] at h
      obtain ⟨hfree, rfl⟩ := h
      exact .spawned hp hfree
  | acquireCancelled =>
    cases hp : q.producer with
    | none => simp [step, hp] at h
    | some x =>
      simp only [step, hp, Option.ite_none_right_eq_some, Option.some.injEq] at h
      obtain ⟨hcancel, rfl⟩ := h
      exact .abandoned hp hcancel
  | retry i =>
    obtain ⟨t, ht, rfl⟩ := Option.map_eq_some_iff.mp h
    exact move_retryTask ht
  | retryCancelled i =>
    cases ht : q.tasks[i]? with
    | none => simp [step, ht] at h
    | some t =>
      simp only [step, ht, Option.ite_none_right_eq_some, Option.some.injEq] at h
      obtain ⟨hcancel, rfl⟩ := h
      exact .ended ht hcancel
  | recv =>
    obtain ⟨tx, htx, rfl⟩ := Option.map_eq_some_iff.mp h
    exact .delivered htx
  | cancel =>
    rw [← Option.some.inj h]
    exact .cancelled
  | close =>
    rw [← Option.some.inj h]
    exact .closed

end EventQueue

end Flannel
