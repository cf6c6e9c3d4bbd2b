import Flannel.Kube.Queue
import Mathlib.Data.List.Perm.Basic
import Mathlib.Data.List.Nodup

/-!
# Every event is in exactly one place

An event handed to `enqueue_lease_event` is cloned into each `try_send`, moved into
a task together with a permit, and let go on three different exits.  The invariant
`Custody` says that none of this loses or doubles it: counted over the sent values
of the channel, the retry tasks, the waiting caller and the events given up, every
call occurs as often as it was made, and the permits in use are the live tasks.

`Custody` holds in every run, with cancellation and with a dropped receiver.
Events are given up only after one of these two (`Undisturbed`), so in a run
without them every call is delivered, queued, held by one task, or held by the
waiting caller.
-/

namespace Flannel

open Run

namespace EventQueue

/-- The invariant of the queue. -/
structure Custody (q : EventQueue) : Prop where
  located : ∀ x, q.tx.sent.count x + (q.tasks.map RetryTask.item).count x +
    q.producer.toList.count x + q.dropped.count x = q.calls.count x
  numbered : q.calls.map Enqueued.call = List.range q.calls.length
  slots : q.tasks.length + q.permits = asyncSendSlots
  backoff : ∀ t ∈ q.tasks, minBackoff ≤ t.backoff ∧ t.backoff ≤ maxBackoff

theorem custody_new (n : Nat) (h : 0 < n) : Custody (new n h) where
  located x := by simp [new]
  numbered := by simp [new]
  slots := by simp [new]
  backoff t ht := by simp [new] at ht

/-! ## Taking a task out of the list -/

theorem count_items_eraseIdx {ts : List RetryTask} {i : Nat} {t : RetryTask}
    (h : ts[i]? = some t) (x : Enqueued) :
    ((ts.eraseIdx i).map RetryTask.item).count x + [t.item].count x =
      (ts.map RetryTask.item).count x := by
  obtain ⟨hi, rfl⟩ := List.getElem?_eq_some_iff.mp h
  have hperm := (List.getElem_cons_eraseIdx_perm hi).map RetryTask.item
  have hcount := hperm.count_eq x
  rw [List.map_cons, List.count_cons] at hcount
  rw [← hcount, List.count_singleton]

theorem length_eraseIdx_task {ts : List RetryTask} {i : Nat} {t : RetryTask}
    (h : ts[i]? = some t) : (ts.eraseIdx i).length + 1 = ts.length := by
  obtain ⟨hi, -⟩ := List.getElem?_eq_some_iff.mp h
  exact List.length_eraseIdx_add_one hi

theorem items_set {ts : List RetryTask} {i : Nat} {t : RetryTask} (h : ts[i]? = some t)
    (b : Nat) : (ts.set i { t with backoff := b }).map RetryTask.item =
      ts.map RetryTask.item := by
  obtain ⟨hi, rfl⟩ := List.getElem?_eq_some_iff.mp h
  have hi' : i < (ts.map RetryTask.item).length := by simpa using hi
  have hself := List.set_getElem_self hi'
  rw [List.getElem_map] at hself
  rw [List.map_set]
  exact hself

/-! ## One step -/

theorem numbered_snoc {q : EventQueue} (h : q.calls.map Enqueued.call = List.range q.calls.length)
    (n : String) (e : Event) :
    (q.calls ++ [q.nextCall n e]).map Enqueued.call =
      List.range (q.calls ++ [q.nextCall n e]).length := by
  rw [List.map_append, h, List.length_append, List.length_singleton, List.range_succ]
  rfl

/-- A call is made, and its event goes to the channel, to the waiting caller or away. -/
theorem Custody.called {q : EventQueue} (hq : Custody q) (n : String) (e : Event)
    {tx : Channel Enqueued} {producer : Option Enqueued} {dropped : List Enqueued}
    (hput : ∀ x, tx.sent.count x + producer.toList.count x + dropped.count x =
      q.tx.sent.count x + q.producer.toList.count x + q.dropped.count x +
        [q.nextCall n e].count x) :
    Custody { q with
      tx := tx
      producer := producer
      calls := q.calls ++ [q.nextCall n e]
      dropped := dropped } where
  located x := by
    have hx := hq.located x
    have hin := hput x
    simp only [List.count_append]
    omega
  numbered := numbered_snoc hq.numbered n e
  slots := hq.slots
  backoff := hq.backoff

/-- A retry task ends, and its event goes to the channel or away. -/
theorem Custody.taskEnded {q : EventQueue} (hq : Custody q) {i : Nat} {t : RetryTask}
    (htask : q.tasks[i]? = some t) {tx : Channel Enqueued} {dropped : List Enqueued}
    (hput : ∀ x, tx.sent.count x + dropped.count x =
      q.tx.sent.count x + q.dropped.count x + [t.item].count x) :
    Custody { q with
      tx := tx
      tasks := q.tasks.eraseIdx i
      permits := q.permits + 1
      dropped := dropped } where
  located x := by
    have hx := hq.located x
    have hin := hput x
    have hout := count_items_eraseIdx htask x
    simp only
    omega
  numbered := hq.numbered
  slots := by
    have hlen := length_eraseIdx_task htask
    have hslots := hq.slots
    simp only
    omega
  backoff u hu := hq.backoff u (List.mem_of_mem_eraseIdx hu)

/-- **A step keeps the invariant.** -/
theorem custody_step {q r : EventQueue} {a : Action} (hq : Custody q) (h : q.step a = some r) :
    Custody r := by
  have hloc := hq.located
  have hslots := hq.slots
  have hback := hq.backoff
  cases move_of_step h with
  | @sent n e tx hidle hsend =>
    refine hq.called n e fun x => ?_
    rw [(Channel.trySend_ok hsend).1, List.count_append]
    omega
  | @refused n e hidle hclosed =>
    refine hq.called n e fun x => ?_
    rw [List.count_append]
    omega
  | @blocked n e hidle =>
    refine hq.called n e fun x => ?_
    rw [hidle, Option.toList_none, Option.toList_some, List.count_nil]
    omega
  | @spawned y hwait hfree =>
    refine ⟨fun x => ?_, hq.numbered, ?_, fun t ht => ?_⟩
    · have hx := hloc x
      simp only [hwait, Option.toList_none, List.count_nil, Option.toList_some, List.map_append,
        List.map_cons, List.map_nil, List.count_append] at hx ⊢
      omega
    · simp only [List.length_append, List.length_singleton]
      omega
    · rcases List.mem_append.mp ht with ht | ht
      · exact hback t ht
      · rw [List.mem_singleton.mp ht]
        exact ⟨Nat.le_refl _, by simp [minBackoff, maxBackoff]⟩
  | @abandoned y hwait hcancel =>
    refine ⟨fun x => ?_, hq.numbered, hslots, hback⟩
    have hx := hloc x
    simp only [hwait, Option.toList_none, List.count_nil, Option.toList_some,
      List.count_append] at hx ⊢
    omega
  | @requeued i t tx htask hsend =>
    refine hq.taskEnded htask fun x => ?_
    rw [(Channel.trySend_ok hsend).1, List.count_append]
    omega
  | @lost i t htask hclosed =>
    refine hq.taskEnded htask fun x => ?_
    rw [List.count_append]
    omega
  | @backedOff i t htask =>
    refine ⟨fun x => ?_, hq.numbered, ?_, fun u hu => ?_⟩
    · simp only [items_set htask]
      exact hloc x
    · simp only [List.length_set]
      exact hslots
    · rcases List.mem_or_eq_of_mem_set hu with hu | rfl
      · exact hback u hu
      · have ht := hback t (List.mem_of_getElem? htask)
        simp only [minBackoff, maxBackoff] at ht ⊢
        omega
  | @ended i t htask hcancel =>
    refine hq.taskEnded htask fun x => ?_
    rw [List.count_append]
    omega
  | @delivered tx hrecv =>
    refine ⟨fun x => ?_, hq.numbered, hslots, hback⟩
    simp only [(Channel.recv_eq_some hrecv).2.1]
    exact hloc x
  | cancelled => exact ⟨hloc, hq.numbered, hslots, hback⟩
  | closed => exact ⟨hloc, hq.numbered, hslots, hback⟩

/-- Nobody has cancelled, nobody has dropped the receiver, and nothing is given up. -/
def Undisturbed (q : EventQueue) : Prop :=
  q.cancelled = false ∧ q.tx.closed = false ∧ q.dropped = []

/-- The actions of a run without cancellation and with the receiver open. -/
def Action.IsWork (a : Action) : Prop := a ≠ .cancel ∧ a ≠ .close

theorem undisturbed_step {q r : EventQueue} {a : Action} (hq : Undisturbed q) (ha : a.IsWork)
    (h : q.step a = some r) : Undisturbed r := by
  obtain ⟨hc, ho, hd⟩ := hq
  cases move_of_step h with
  | sent hidle hsend => exact ⟨hc, (Channel.trySend_ok hsend).2.2.2.2.1, hd⟩
  | refused hidle hclosed => simp [ho] at hclosed
  | blocked hidle => exact ⟨hc, ho, hd⟩
  | spawned hwait hfree => exact ⟨hc, ho, hd⟩
  | abandoned hwait hcancel => simp [hc] at hcancel
  | requeued htask hsend => exact ⟨hc, (Channel.trySend_ok hsend).2.2.2.2.1, hd⟩
  | lost htask hclosed => simp [ho] at hclosed
  | backedOff htask => exact ⟨hc, ho, hd⟩
  | ended htask hcancel => simp [hc] at hcancel
  | delivered hrecv => exact ⟨hc, (Channel.recv_eq_some hrecv).2.2.1 ▸ ho, hd⟩
  | cancelled => exact absurd rfl ha.1
  | closed => exact absurd rfl ha.2

theorem capacity_step {q r : EventQueue} {a : Action} (h : q.step a = some r) :
    r.tx.capacity = q.tx.capacity := by
  cases move_of_step h with
  | sent hidle hsend => exact (Channel.trySend_ok hsend).2.2.2.2.2
  | requeued htask hsend => exact (Channel.trySend_ok hsend).2.2.2.2.2
  | delivered hrecv => exact (Channel.recv_eq_some hrecv).2.2.2
  | _ => rfl

/-! ## Whole runs -/

/-- The node and event that an action hands to `enqueue_lease_event`. -/
def Action.handed : Action → Option (String × Event)
  | .enqueue nodeName evt => some (nodeName, evt)
  | _ => none

theorem calls_step {q r : EventQueue} {a : Action} (h : q.step a = some r) :
    r.calls.map (fun x => (x.nodeName, x.evt)) =
      q.calls.map (fun x => (x.nodeName, x.evt)) ++ a.handed.toList := by
  cases move_of_step h with
  | sent | refused | blocked => simp [Action.handed, nextCall]
  | _ => simp [Action.handed]

/-- The calls of a run are what its actions handed in, in order. -/
theorem calls_run {q r : EventQueue} {as : List Action} (h : run step q as = some r) :
    r.calls.map (fun x => (x.nodeName, x.evt)) =
      q.calls.map (fun x => (x.nodeName, x.evt)) ++ as.filterMap Action.handed :=
  run_history (f := fun q => q.calls.map fun x => (x.nodeName, x.evt))
    (fun _ _ _ hst => calls_step hst) h

theorem custody_run {n : Nat} {hn : 0 < n} {as : List Action} {q : EventQueue}
    (h : run step (new n hn) as = some q) : Custody q :=
  run_preserves (fun _ _ _ hs hst => custody_step hs hst) (custody_new n hn) h

theorem undisturbed_run {q r : EventQueue} {as : List Action} (hq : Undisturbed q)
    (hwork : ∀ a ∈ as, a.IsWork) (h : run step q as = some r) : Undisturbed r :=
  run_invariant (Q := fun _ a => a.IsWork) (fun _ _ _ hs ha hst => undisturbed_step hs ha hst) hq
    (along_of_forall hwork) h

theorem capacity_run {q r : EventQueue} {as : List Action} (h : run step q as = some r) :
    r.tx.capacity = q.tx.capacity :=
  run_preserves (P := fun s => s.tx.capacity = q.tx.capacity)
    (fun _ _ _ hs hst => (capacity_step hst).trans hs) rfl h

theorem Custody.calls_nodup {q : EventQueue} (h : Custody q) : q.calls.Nodup := by
  refine List.Nodup.of_map Enqueued.call ?_
  rw [h.numbered]
  exact List.nodup_range

/-- **Exactly one place.**  In every interleaving of the caller, the retry tasks and
the consumer, every call of `enqueue_lease_event` is at every moment counted once
among what was delivered, what is in the channel, what the retry tasks hold and what
the waiting caller holds, and nothing else is there; the live retry tasks are the
permits taken, never more than the slots; and the channel stays within its
capacity. -/
theorem enqueued_exactly_one_place {capacity : Nat} (hcap : 0 < capacity) {as : List Action}
    {q : EventQueue} (hwork : ∀ a ∈ as, a.IsWork) (h : run step (new capacity hcap) as = some q) :
    q.calls.map (fun x => (x.nodeName, x.evt)) = as.filterMap Action.handed ∧
      q.calls.Nodup ∧
      (∀ x ∈ q.calls, q.tx.received.count x + q.tx.queue.count x +
        (q.tasks.map RetryTask.item).count x + q.producer.toList.count x = 1) ∧
      (∀ x, x ∈ q.tx.received ∨ x ∈ q.tx.queue ∨ x ∈ q.tasks.map RetryTask.item ∨
        x ∈ q.producer.toList → x ∈ q.calls) ∧
      q.tasks.length = asyncSendSlots - q.permits ∧
      q.tasks.length ≤ asyncSendSlots ∧
      q.tx.queue.length ≤ capacity := by
  have hq := custody_run h
  have hdropped := (undisturbed_run ⟨rfl, rfl, rfl⟩ hwork h).2.2
  have hcount : ∀ x, q.tx.received.count x + q.tx.queue.count x +
      (q.tasks.map RetryTask.item).count x + q.producer.toList.count x = q.calls.count x := by
    intro x
    have hx := hq.located x
    rw [hdropped, Channel.sent, List.count_append, List.count_nil] at hx
    omega
  have hslots := hq.slots
  refine ⟨by simpa [new] using calls_run h, hq.calls_nodup, ?_, ?_, by omega, by omega, ?_⟩
  · intro x hx
    rw [hcount x, List.count_eq_one_of_mem hq.calls_nodup hx]
  · intro x hx
    simp only [← List.count_pos_iff] at hx ⊢
    have hx' := hcount x
    omega
  · have hle := q.tx.queue_le
    have hc := capacity_run h
    simp only [new, Channel.new] at hc
    omega

/-- A channel of one place under pressure: the second call finds it full and its event
goes to a task, the third waits for its permit. -/
def pressedRun : List Action :=
  [.enqueue "a" ⟨.added, v4Lease 0x0a000100⟩, .enqueue "b" ⟨.added, v4Lease 0x0a000200⟩, .acquire,
    .retry 0, .enqueue "a" ⟨.removed, v4Lease 0x0a000100⟩]

theorem pressedRun_exactly_one_place :
    ∃ q, run step (new 1 Nat.one_pos) pressedRun = some q ∧
      q.calls.length = 3 ∧ q.tx.queue.length = 1 ∧ q.tasks.length = 1 ∧ q.producer.isSome = true ∧
      q.tasks.length = asyncSendSlots - q.permits ∧
      ∀ x ∈ q.calls, q.tx.received.count x + q.tx.queue.count x +
        (q.tasks.map RetryTask.item).count x + q.producer.toList.count x = 1 := by
  have hwork : ∀ a ∈ pressedRun, a.IsWork := by
    simp [pressedRun, Action.IsWork]
  obtain ⟨-, -, hplace, -, hslots, -, -⟩ := enqueued_exactly_one_place Nat.one_pos hwork rfl
  exact ⟨_, rfl, rfl, rfl, rfl, rfl, hslots, hplace⟩

end EventQueue

end Flannel
