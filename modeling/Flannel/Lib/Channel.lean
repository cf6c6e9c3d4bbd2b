import Mathlib.Data.List.Basic
import Mathlib.Tactic.Common

/-!
# Bounded channels

A bounded multi-producer channel with one receiver, as an async runtime offers it.
A sender can try to send, which succeeds at once or says why it cannot; a blocking
send is the same operation that waits while the answer is `full`.  The receiver
takes the oldest value, waits while there is none, and can be dropped, after which
every send fails and nothing is received any more.

What the receiver has taken so far is kept in the state, so that the *sent* values
--- taken or still queued, in order --- are a function of the channel.  Every
operation either leaves `sent` alone or appends to it, which is all that ordering
arguments about a channel use.
-/

/-- A bounded channel.  A channel without room for a single value cannot be made, and
no channel holds more than its capacity. -/
structure Channel (α : Type*) where
  capacity : Nat
  received : List α
  queue : List α
  closed : Bool
  capacity_pos : 0 < capacity
  queue_le : queue.length ≤ capacity
  deriving DecidableEq

/-- Why a value could not be sent. -/
inductive TrySendError where
  | full
  | closed
  deriving DecidableEq, Repr

namespace Channel

variable {α : Type*}

/-- An empty channel. -/
def new (capacity : Nat) (h : 0 < capacity) : Channel α where
  capacity := capacity
  received := []
  queue := []
  closed := false
  capacity_pos := h
  queue_le := Nat.zero_le _

/-- Everything sent so far, in order. -/
def sent (c : Channel α) : List α := c.received ++ c.queue

/-- Send without waiting. -/
def trySend (c : Channel α) (x : α) : Except TrySendError (Channel α) :=
  if c.closed then
    .error .closed
  else if h : c.queue.length < c.capacity then
    .ok { c with queue := c.queue ++ [x], queue_le := by rw [List.length_append]; exact h }
  else
    .error .full

/-- Send a list of values without waiting, and list the errors. -/
def trySendAll (c : Channel α) : List α → Channel α × List TrySendError
  | [] => (c, [])
  | x :: xs =>
    match c.trySend x with
    | .ok d => d.trySendAll xs
    | .error e => ((c.trySendAll xs).1, e :: (c.trySendAll xs).2)

/-- Take the oldest value; nothing happens while there is none, or once the receiver
is gone. -/
def recv (c : Channel α) : Option (Channel α) :=
  match hq : c.queue with
  | [] => none
  | x :: xs =>
    if c.closed then
      none
    else
      some { c with
        received := c.received ++ [x]
        queue := xs
        queue_le := by
          have hle := c.queue_le
          rw [hq, List.length_cons] at hle
          omega }

/-- Drop the receiver.  What is queued stays in the record and is never received. -/
def close (c : Channel α) : Channel α := { c with closed := true }

/-! ## What the operations do to the sent values -/

@[simp] theorem sent_new (n : Nat) (h : 0 < n) : (new n h : Channel α).sent = [] := rfl

theorem trySend_ok {c d : Channel α} {x : α} (h : c.trySend x = .ok d) :
    d.sent = c.sent ++ [x] ∧ d.received = c.received ∧ d.queue = c.queue ++ [x] ∧
      c.closed = false ∧ d.closed = false ∧ d.capacity = c.capacity := by
  unfold trySend at h
  split at h
  · simp at h
  · rename_i hc
    split at h
    · have hd := Except.ok.inj h
      subst hd
      simp [sent, hc]
    · simp at h

theorem trySend_closed {c : Channel α} {x : α} :
    c.trySend x = .error .closed ↔ c.closed = true := by
  unfold trySend
  cases c.closed with
  | true => simp
  | false =>
    by_cases hroom : c.queue.length < c.capacity
    · simp [hroom]
    · simp [hroom]

theorem trySend_full {c : Channel α} {x : α} :
    c.trySend x = .error .full ↔ c.closed = false ∧ c.queue.length = c.capacity := by
  have hle := c.queue_le
  unfold trySend
  cases c.closed with
  | true => simp
  | false =>
    by_cases hroom : c.queue.length < c.capacity
    · have hne : c.queue.length ≠ c.capacity := by omega
      simp [hroom, hne]
    · have heq : c.queue.length = c.capacity := by omega
      simp [heq]

theorem recv_eq_some {c d : Channel α} (h : c.recv = some d) :
    (∃ x, c.queue = x :: d.queue ∧ d.received = c.received ++ [x]) ∧
      d.sent = c.sent ∧ d.closed = c.closed ∧ d.capacity = c.capacity := by
  unfold recv at h
  split at h
  · simp at h
  · rename_i x xs hq
    split at h
    · simp at h
    · have hd := Option.some.inj h
      subst hd
      refine ⟨⟨x, hq, rfl⟩, ?_, rfl, rfl⟩
      simp [sent, hq]

/-- **A list that fits is sent whole.** -/
theorem trySendAll_of_le {c : Channel α} {xs : List α} (hopen : c.closed = false)
    (hfit : c.queue.length + xs.length ≤ c.capacity) :
    (c.trySendAll xs).1.sent = c.sent ++ xs ∧ (c.trySendAll xs).1.closed = false ∧
      (c.trySendAll xs).2 = [] := by
  induction xs generalizing c with
  | nil => simp [trySendAll, hopen]
  | cons x xs ih =>
    rw [List.length_cons] at hfit
    cases h : c.trySend x with
    | error e =>
      exfalso
      cases e with
      | full =>
        have hlen := (trySend_full.mp h).2
        omega
      | closed => simp [trySend_closed.mp h] at hopen
    | ok d =>
      obtain ⟨hsent, -, hqueue, -, hd, hcap⟩ := trySend_ok h
      have hfit' : d.queue.length + xs.length ≤ d.capacity := by
        rw [hqueue, hcap, List.length_append, List.length_singleton]
        omega
      obtain ⟨h1, h2, h3⟩ := ih hd hfit'
      simp only [trySendAll, h]
      refine ⟨?_, h2, h3⟩
      rw [h1, hsent, List.append_assoc, List.singleton_append]

end Channel
