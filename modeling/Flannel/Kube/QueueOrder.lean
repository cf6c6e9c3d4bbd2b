import Flannel.Kube.QueueCustody

/-!
# In which order events leave the queue

A retry task is scheduled on its own, so an event that found the channel full can be
overtaken by later ones that did not, also by a later event of its own node.  What
the queue does keep is the order of everything that was sent: the sent values only
grow at the end.  So a call is overtaken only by calls made while a retry task held
it (`delivered_after`), and when no call for a node is made while a task holds an
event of that node, the node's events come out in call order, none skipped
(`delivered_in_order`).
-/

namespace Flannel

open Run

namespace EventQueue

/-! ## The sent values grow at the end -/

theorem sent_step {q r : EventQueue} {a : Action} (h : q.step a = some r) :
    q.tx.sent <+: r.tx.sent := by
  cases move_of_step h with
  | sent hidle hsend =>
    rw [(Channel.trySend_ok hsend).1]
    exact List.prefix_append _ _
  | requeued htask hsend =>
    rw [(Channel.trySend_ok hsend).1]
    exact List.prefix_append _ _
  | delivered hrecv =>
    exact (Channel.recv_eq_some hrecv).2.1.symm ▸ List.prefix_rfl
  | _ => exact List.prefix_rfl

theorem sent_run {q r : EventQueue} {as : List Action} (h : run step q as = some r) :
    q.tx.sent <+: r.tx.sent :=
  run_preserves (P := fun s => q.tx.sent <+: s.tx.sent)
    (fun _ _ _ hs hst => hs.trans (sent_step hst)) List.prefix_rfl h

/-- What was sent before is delivered before: a value delivered later that was not yet
sent comes after every value that was. -/
theorem sublist_received {q r : EventQueue} {x y : Enqueued} (hgrow : q.tx.sent <+: r.tx.sent)
    (hx : x ∈ q.tx.sent) (hy : y ∉ q.tx.sent) (hyr : y ∈ r.tx.received) :
    [x, y].Sublist r.tx.received := by
  have hreceived : r.tx.received <+: r.tx.sent := List.prefix_append _ _
  rcases List.prefix_or_prefix_of_prefix hgrow hreceived with hle | hle
  · obtain ⟨tail, htail⟩ := hle
    have hyt : y ∈ tail := by
      rw [← htail, List.mem_append] at hyr
      exact hyr.resolve_left hy
    rw [← htail]
    exact (List.singleton_sublist.mpr hx).append (List.singleton_sublist.mpr hyt)
  · exact absurd (hle.subset hyr) hy

/-! ## Two calls -/

theorem nextCall_notMem {q : EventQueue} (hq : Custody q) (n : String) (e : Event) :
    q.nextCall n e ∉ q.calls := by
  intro hmem
  have hnum := List.mem_map_of_mem (f := Enqueued.call) hmem
  rw [hq.numbered, List.mem_range] at hnum
  exact absurd hnum (Nat.lt_irrefl _)

theorem mem_sent_of_notHeld {q : EventQueue} (hq : Custody q) (hu : Undisturbed q)
    (hidle : q.producer = none) {x : Enqueued} (hx : x ∈ q.calls)
    (hfree : x ∉ q.tasks.map RetryTask.item) : x ∈ q.tx.sent := by
  have hloc := hq.located x
  rw [hidle, hu.2.2, List.count_eq_zero.mpr hfree, Option.toList_none, List.count_nil] at hloc
  rw [← List.count_pos_iff] at hx ⊢
  omega

theorem mem_calls_of_sent {q : EventQueue} (hq : Custody q) {x : Enqueued}
    (hx : x ∈ q.tx.sent) : x ∈ q.calls := by
  have hloc := hq.located x
  rw [← List.count_pos_iff] at hx ⊢
  omega

theorem producer_of_enqueue {q r : EventQueue} {n : String} {e : Event}
    (h : q.step (.enqueue n e) = some r) : q.producer = none := by
  cases move_of_step h with
  | sent hidle _ => exact hidle
  | refused hidle _ => exact hidle
  | blocked hidle => exact hidle

/-- A call that no retry task holds when a later call is made is delivered before
it. -/
theorem delivered_after {n : Nat} {hn : 0 < n} {pre post : List Action} {q r : EventQueue}
    {node : String} {evt : Event} (hwork : ∀ a ∈ pre ++ .enqueue node evt :: post, a.IsWork)
    (hq : run step (new n hn) pre = some q)
    (hr : run step (new n hn) (pre ++ .enqueue node evt :: post) = some r) {x : Enqueued}
    (hx : x ∈ q.calls) (hfree : x ∉ q.tasks.map RetryTask.item)
    (hy : q.nextCall node evt ∈ r.tx.received) :
    [x, q.nextCall node evt].Sublist r.tx.received := by
  have hcq := custody_run hq
  have huq : Undisturbed q :=
    undisturbed_run ⟨rfl, rfl, rfl⟩ (fun a ha => hwork a (List.mem_append_left _ ha)) hq
  obtain ⟨q', hq', hrest⟩ := run_append_eq_some.mp hr
  rw [hq] at hq'
  cases hq'
  obtain ⟨m, hm, -⟩ := run_cons_eq_some.mp hrest
  have hxs : x ∈ q.tx.sent := mem_sent_of_notHeld hcq huq (producer_of_enqueue hm) hx hfree
  have hys : q.nextCall node evt ∉ q.tx.sent :=
    fun hmem => nextCall_notMem hcq node evt (mem_calls_of_sent hcq hmem)
  exact sublist_received (sent_run hrest) hxs hys hy

/-! ## All calls for a node -/

/-- The calls for one node. -/
def ofNode (node : String) (xs : List Enqueued) : List Enqueued :=
  xs.filter fun x => x.nodeName = node

/-- What a task or the waiting caller holds. -/
def pending (q : EventQueue) : List Enqueued := q.tasks.map RetryTask.item ++ q.producer.toList

/-- The invariant behind the order of one node's events: at most one of its calls is
pending, and it is the last one made. -/
structure InOrder (node : String) (q : EventQueue) : Prop where
  split : ofNode node q.tx.sent ++ ofNode node q.pending = ofNode node q.calls
  single : (ofNode node q.pending).length ≤ 1

/-- No call for the node is made while a task holds an event of the node. -/
def Quiet (node : String) (q : EventQueue) (a : Action) : Prop :=
  ∀ x ∈ a.handed, x.1 = node → ∀ t ∈ q.tasks, t.item.nodeName ≠ node

instance (node : String) (q : EventQueue) (a : Action) : Decidable (Quiet node q a) :=
  inferInstanceAs (Decidable (∀ x ∈ a.handed, x.1 = node → ∀ t ∈ q.tasks, t.item.nodeName ≠ node))

theorem ofNode_append (node : String) (xs ys : List Enqueued) :
    ofNode node (xs ++ ys) = ofNode node xs ++ ofNode node ys :=
  List.filter_append _ _

theorem eq_of_perm_of_length_le_one {xs ys : List Enqueued} (h : xs.Perm ys)
    (hlen : xs.length ≤ 1) : xs = ys := by
  rcases Nat.le_one_iff_eq_zero_or_eq_one.mp hlen with h0 | h1
  · rw [List.length_eq_zero_iff] at h0
    subst h0
    exact h.nil_eq
  · obtain ⟨x, rfl⟩ := List.length_eq_one_iff.mp h1
    exact List.singleton_perm.mp h

theorem pending_perm_eraseIdx {q : EventQueue} {i : Nat} {t : RetryTask}
    (h : q.tasks[i]? = some t) :
    q.pending.Perm
      ([t.item] ++ ((q.tasks.eraseIdx i).map RetryTask.item ++ q.producer.toList)) := by
  obtain ⟨hi, rfl⟩ := List.getElem?_eq_some_iff.mp h
  have hperm := (List.getElem_cons_eraseIdx_perm hi).map RetryTask.item
  exact hperm.symm.append_right q.producer.toList

/-- When a call for the node is made quietly, none of its calls is pending. -/
theorem ofNode_pending_of_quiet {node : String} {q : EventQueue} (hidle : q.producer = none)
    (hquiet : ∀ t ∈ q.tasks, t.item.nodeName ≠ node) : ofNode node q.pending = [] := by
  unfold ofNode pending
  rw [hidle, Option.toList_none, List.append_nil, List.filter_eq_nil_iff]
  intro x hx
  obtain ⟨t, ht, rfl⟩ := List.mem_map.mp hx
  simpa using hquiet t ht

/-- A new call either is for another node, or finds none of the node's calls pending. -/
theorem ofNode_pending_enqueue {node n : String} {e : Event} {q : EventQueue}
    (hidle : q.producer = none) (hquiet : Quiet node q (.enqueue n e)) :
    ofNode node [q.nextCall n e] = [] ∨ ofNode node q.pending = [] := by
  by_cases hn : n = node
  · subst hn
    exact Or.inr (ofNode_pending_of_quiet hidle (hquiet (n, e) rfl rfl))
  · exact Or.inl (by simp [ofNode, nextCall, hn])

theorem inOrder_new (node : String) (n : Nat) (hn : 0 < n) : InOrder node (new n hn) where
  split := by simp [new, pending, ofNode]
  single := by simp [new, pending, ofNode]

theorem inOrder_step {node : String} {q r : EventQueue} {a : Action} (hq : InOrder node q)
    (hu : Undisturbed q) (hquiet : Quiet node q a) (ha : a.IsWork) (h : q.step a = some r) :
    InOrder node r := by
  obtain ⟨hsplit, hsingle⟩ := hq
  obtain ⟨hc, ho, -⟩ := hu
  cases move_of_step h with
  | @sent n e tx hidle hsend =>
    refine ⟨?_, hsingle⟩
    show ofNode node tx.sent ++ ofNode node q.pending = ofNode node (q.calls ++ [q.nextCall n e])
    rw [(Channel.trySend_ok hsend).1, ofNode_append, ofNode_append, ← hsplit]
    rcases ofNode_pending_enqueue hidle hquiet with hnone | hnone
    · rw [hnone, List.append_nil, List.append_nil]
    · rw [hnone, List.append_nil, List.append_nil]
  | refused hidle hclosed => simp [ho] at hclosed
  | @blocked n e hidle =>
    have hpend : ∀ x, ofNode node (q.tasks.map RetryTask.item ++ [x]) =
        ofNode node q.pending ++ ofNode node [x] := by
      intro x
      rw [ofNode_append, pending, hidle, Option.toList_none, List.append_nil]
    constructor
    · show ofNode node q.tx.sent ++ ofNode node (q.tasks.map RetryTask.item ++ [q.nextCall n e]) =
        ofNode node (q.calls ++ [q.nextCall n e])
      rw [hpend, ofNode_append, ← hsplit, List.append_assoc]
    · show (ofNode node (q.tasks.map RetryTask.item ++ [q.nextCall n e])).length ≤ 1
      rw [hpend, List.length_append]
      have hone : (ofNode node [q.nextCall n e]).length ≤ 1 := List.length_filter_le _ _
      rcases ofNode_pending_enqueue hidle hquiet with hnone | hnone
      · rw [hnone, List.length_nil]
        omega
      · rw [hnone, List.length_nil]
        omega
  | @spawned x hwait hfree =>
    have hpend : q.pending = (q.tasks ++ [RetryTask.mk x minBackoff]).map RetryTask.item ++ [] := by
      simp [pending, hwait]
    rw [hpend] at hsplit hsingle
    exact ⟨hsplit, hsingle⟩
  | abandoned hwait hcancel => simp [hc] at hcancel
  | @requeued i t tx htask hsend =>
    have hperm := (pending_perm_eraseIdx htask).filter fun x => x.nodeName = node
    have heq : ofNode node q.pending = ofNode node [t.item] ++
        ofNode node ((q.tasks.eraseIdx i).map RetryTask.item ++ q.producer.toList) := by
      rw [← ofNode_append]
      exact eq_of_perm_of_length_le_one hperm hsingle
    constructor
    · show ofNode node tx.sent ++
        ofNode node ((q.tasks.eraseIdx i).map RetryTask.item ++ q.producer.toList) =
          ofNode node q.calls
      rw [(Channel.trySend_ok hsend).1, ofNode_append, List.append_assoc, ← heq, hsplit]
    · show (ofNode node ((q.tasks.eraseIdx i).map RetryTask.item ++ q.producer.toList)).length ≤ 1
      rw [heq, List.length_append] at hsingle
      omega
  | lost htask hclosed => simp [ho] at hclosed
  | @backedOff i t htask =>
    have hpend : q.pending =
        (q.tasks.set i { t with backoff := min (t.backoff * 2) maxBackoff }).map
          RetryTask.item ++ q.producer.toList := by
      rw [items_set htask, pending]
    rw [hpend] at hsplit hsingle
    exact ⟨hsplit, hsingle⟩
  | ended htask hcancel => simp [hc] at hcancel
  | @delivered tx hrecv =>
    refine ⟨?_, hsingle⟩
    show ofNode node tx.sent ++ ofNode node q.pending = ofNode node q.calls
    rw [(Channel.recv_eq_some hrecv).2.1, hsplit]
  | cancelled => exact absurd rfl ha.1
  | closed => exact absurd rfl ha.2

/-- With only quiet calls for a node, what was delivered for it is a beginning of what
was handed in for it. -/
theorem delivered_in_order {n : Nat} {hn : 0 < n} {as : List Action} {q : EventQueue}
    {node : String} (hwork : ∀ a ∈ as, a.IsWork) (hquiet : Along step (Quiet node) (new n hn) as)
    (h : run step (new n hn) as = some q) :
    ofNode node q.tx.received <+: ofNode node q.calls := by
  have hinv : Undisturbed q ∧ InOrder node q :=
    run_invariant (P := fun s => Undisturbed s ∧ InOrder node s)
      (Q := fun s a => Quiet node s a ∧ a.IsWork)
      (fun s a t hs ha hst =>
        ⟨undisturbed_step hs.1 ha.2 hst, inOrder_step hs.2 hs.1 ha.1 ha.2 hst⟩)
      ⟨⟨rfl, rfl, rfl⟩, inOrder_new node n hn⟩ (hquiet.and (along_of_forall hwork)) h
  rw [← hinv.2.split, Channel.sent, ofNode_append, List.append_assoc]
  exact List.prefix_append _ _

/-! ## The order of delivery -/

/-- A channel of one place: the `added` of node `b` finds it full and goes to a task, the
`removed` of `b` takes the fast path once the channel is drained, and the task comes
last. -/
def overtakingRun : List Action :=
  [.enqueue "a" ⟨.added, v4Lease 0x0a000100⟩, .enqueue "b" ⟨.added, v4Lease 0x0a000200⟩, .acquire,
    .recv, .enqueue "b" ⟨.removed, v4Lease 0x0a000200⟩, .recv, .retry 0, .recv]

/-- The events of one node do not always leave the queue in call order. -/
theorem removed_overtakes_added :
    ¬ ∀ (capacity : Nat) (hcap : 0 < capacity) (as : List Action) (q : EventQueue),
      (∀ a ∈ as, a.IsWork) → run step (new capacity hcap) as = some q →
        ∀ node, ((ofNode node q.tx.received).map Enqueued.call).Pairwise (· < ·) := by
  intro h
  have hwork : ∀ a ∈ overtakingRun, a.IsWork := by
    simp [overtakingRun, Action.IsWork]
  have hpair := h 1 Nat.one_pos overtakingRun _ hwork rfl "b"
  exact absurd hpair (by decide)

/-- **The order of delivery.**  In every interleaving of the caller, the retry tasks and
the consumer, a call is delivered before every later call that was made when no retry
task held it; so, when no call for a node is made while a task holds an event of that
node, the delivered calls of the node are the first ones handed in for it, in that
order.  No call is delivered twice. -/
theorem delivery_order {capacity : Nat} (hcap : 0 < capacity) {as : List Action} {r : EventQueue}
    (hwork : ∀ a ∈ as, a.IsWork) (hr : run step (new capacity hcap) as = some r) :
    r.tx.received.Nodup ∧
      (∀ pre node evt post q x, as = pre ++ .enqueue node evt :: post →
        run step (new capacity hcap) pre = some q → x ∈ q.calls →
        x ∉ q.tasks.map RetryTask.item → q.nextCall node evt ∈ r.tx.received →
        [x, q.nextCall node evt].Sublist r.tx.received) ∧
      ∀ node, Along step (Quiet node) (new capacity hcap) as →
        ofNode node r.tx.received <+: ofNode node r.calls := by
  refine ⟨?_, ?_, fun node hquiet => delivered_in_order hwork hquiet hr⟩
  · have hc := custody_run hr
    refine List.nodup_iff_count_le_one.mpr fun x => ?_
    have hloc := hc.located x
    have hone := List.nodup_iff_count_le_one.mp hc.calls_nodup x
    rw [Channel.sent, List.count_append] at hloc
    omega
  · intro pre node evt post q x has hq hx hfree hy
    subst has
    exact delivered_after hwork hq hr hx hfree hy

/-- Two events of node `b`, the first one retried and delivered before the second is
handed in. -/
def retriedRun : List Action :=
  [.enqueue "a" ⟨.added, v4Lease 0x0a000100⟩, .enqueue "b" ⟨.added, v4Lease 0x0a000200⟩, .acquire,
    .recv, .retry 0, .enqueue "b" ⟨.removed, v4Lease 0x0a000200⟩, .acquire, .recv, .retry 0, .recv]

/-- Where that run ends. -/
def retriedEnd : EventQueue :=
  (run step (new 1 Nat.one_pos) retriedRun).getD (new 1 Nat.one_pos)

theorem retriedRun_delivery_order :
    run step (new 1 Nat.one_pos) retriedRun = some retriedEnd ∧
      [(⟨1, "b", ⟨.added, v4Lease 0x0a000200⟩⟩ : Enqueued),
        ⟨2, "b", ⟨.removed, v4Lease 0x0a000200⟩⟩].Sublist retriedEnd.tx.received ∧
      ofNode "b" retriedEnd.tx.received <+: ofNode "b" retriedEnd.calls := by
  have hwork : ∀ a ∈ retriedRun, a.IsWork := by
    simp [retriedRun, Action.IsWork]
  have hend : run step (new 1 Nat.one_pos) retriedRun = some retriedEnd := rfl
  obtain ⟨-, hpair, hall⟩ := delivery_order Nat.one_pos hwork hend
  refine ⟨hend, ?_, hall "b" (by decide +kernel)⟩
  exact hpair (retriedRun.take 5) "b" ⟨.removed, v4Lease 0x0a000200⟩ (retriedRun.drop 6) _
    ⟨1, "b", ⟨.added, v4Lease 0x0a000200⟩⟩ rfl rfl (by decide) (by decide) (by decide)

end EventQueue

end Flannel
