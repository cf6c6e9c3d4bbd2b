import Flannel.Lease.Keyed

/-!
# When the own subnet leaks

`watch_leases` promises its consumer that no event is about the local node's own
subnet, removals included.  Three places filter for it: the announcing loop of
`reset`, and both event kinds of `update`.  The reporting loop of `reset` does
not, because it only reports stored leases --- and `reset` has stored the whole
snapshot, the own lease in it.  So a snapshot that lists the own lease sets a trap
for the next one: the announcing loop skips the own lease and therefore never
takes the stored copy, and the reporting loop removes it.

`update` cannot store an own lease, so what a step may leak is decided by what is
stored when it begins.  `StepSafe` is that condition, `reduce_not_own` says that
it is enough for one step, and `not_stepSafe_leaks` that for leases with one pair
of flags it is also necessary.
-/

namespace Flannel

open KeyedList

namespace LeaseWatcher

/-- The condition on a step, read off the stored leases and the result that
arrives.  A snapshot finds no own lease stored, and no `Removed` event that
passes the filter addresses a stored own lease. -/
def StepSafe (lw : LeaseWatcher) (wr : LeaseWatchResult) : Prop :=
  (wr.events = [] → ∀ l ∈ lw.leases, isOwn lw.ownLease l = false) ∧
  ∀ e ∈ wr.events, e.eventType = .removed → isOwn lw.ownLease e.lease = false →
    ∀ l ∈ lw.leases, isOwn lw.ownLease l = true → matchesStored l e.lease = false

/-- Every step of a run is safe in the state it starts from. -/
def RunSafe (own : Lease) (wrs : List LeaseWatchResult) : Prop :=
  ∀ done wr rest, wrs = done ++ wr :: rest → StepSafe ((new own).reduceAll done).1 wr

/-- No event of any emitted batch is about the own subnet. -/
def NoOwnEvent (own : Lease) (batches : List (List Event)) : Prop :=
  ∀ batch ∈ batches, ∀ e ∈ batch, isOwn own e.lease = false

/-! ## One step -/

/-- `add` never stores an own lease it was not already given. -/
theorem mem_add {lw : LeaseWatcher} {l x : Lease} (h : x ∈ (lw.add l).1.leases) :
    x = l ∨ x ∈ lw.leases := by
  unfold add at h
  split at h
  · rename_i pre y post hm
    obtain ⟨hsplit, -, -⟩ := firstMatch_eq_some hm
    rw [hsplit]
    simp only [List.mem_append, List.mem_cons] at h ⊢
    tauto
  · simp only [List.mem_append, List.mem_singleton] at h
    tauto

theorem mem_remove {lw : LeaseWatcher} {l x : Lease} (h : x ∈ (lw.remove l).1.leases) :
    x ∈ lw.leases := by
  unfold remove at h
  split at h
  · rename_i pre y post hm
    obtain ⟨hsplit, -, -⟩ := firstMatch_eq_some hm
    rw [hsplit]
    simp only [List.mem_append, List.mem_cons] at h ⊢
    tauto
  · exact h

/-- What an unfiltered event leaves stored: its own lease, or what was there. -/
theorem mem_applyEvent {lw : LeaseWatcher} {e : Event} {x : Lease}
    (h : x ∈ (lw.applyEvent e).1.leases) : x = e.lease ∨ x ∈ lw.leases := by
  unfold applyEvent at h
  split at h
  · exact mem_add h
  · exact Or.inr (mem_remove h)

/-- The lease an unfiltered event reports: the event's, or the stored lease that a
removal found. -/
theorem applyEvent_lease (lw : LeaseWatcher) (e : Event) :
    (lw.applyEvent e).2.lease = e.lease ∨
      e.eventType = .removed ∧ (lw.applyEvent e).2.lease ∈ lw.leases ∧
        matchesStored (lw.applyEvent e).2.lease e.lease = true := by
  obtain ⟨ty, l⟩ := e
  cases ty with
  | added => exact Or.inl (by simp [applyEvent])
  | removed =>
    simp only [applyEvent, remove]
    split
    · rename_i pre x post hm
      obtain ⟨hsplit, hx, -⟩ := firstMatch_eq_some hm
      refine Or.inr ⟨trivial, ?_, hx⟩
      rw [hsplit]
      simp
    · exact Or.inl rfl

/-- `update` reports no own lease, provided no removal of the batch addresses a
stored own lease.  The hypothesis speaks of the leases stored at the start: the
batch itself stores nothing that is the own lease's. -/
theorem update_not_own {lw : LeaseWatcher} {es : List Event}
    (h : ∀ e ∈ es, e.eventType = .removed → isOwn lw.ownLease e.lease = false →
      ∀ l ∈ lw.leases, isOwn lw.ownLease l = true → matchesStored l e.lease = false) :
    ∀ e ∈ (lw.update es).2, isOwn lw.ownLease e.lease = false := by
  induction es generalizing lw with
  | nil => simp
  | cons e es ih =>
    have hrest := fun x hx => h x (List.mem_cons_of_mem _ hx)
    cases hown : isOwn lw.ownLease e.lease with
    | true =>
      rw [update_cons_own hown]
      exact ih hrest
    | false =>
      rw [update_cons hown]
      intro r hr
      rcases List.mem_cons.mp hr with rfl | hr
      · rcases applyEvent_lease lw e with hl | ⟨hty, hmem, hmatch⟩
        · rw [hl]
          exact hown
        · by_contra hne
          have hno := h e List.mem_cons_self hty hown _ hmem (by simpa using hne)
          rw [hmatch] at hno
          exact absurd hno (by simp)
      · have hstep := @ih (lw.applyEvent e).1
        rw [applyEvent_ownLease] at hstep
        refine hstep ?_ r hr
        intro x hx hxt hxo l hl hlo
        rcases mem_applyEvent hl with rfl | hl
        · rw [hown] at hlo
          exact absurd hlo (by simp)
        · exact hrest x hx hxt hxo l hl hlo

/-- The announcing loop of `reset` announces only leases that are not own. -/
theorem resetLoop_added {own : Lease} {stored ls : List Lease} :
    ∀ e ∈ (resetLoop own stored ls).2, isOwn own e.lease = false := by
  induction ls generalizing stored with
  | nil => simp
  | cons nl ls ih =>
    cases hown : isOwn own nl with
    | true =>
      rw [resetLoop_own hown]
      exact ih
    | false =>
      cases hm : firstMatch (fun ol => matchesStored ol nl) stored with
      | some r =>
        rw [resetLoop_taken hown hm]
        exact ih
      | none =>
        rw [resetLoop_announced hown hm]
        intro e he
        rcases List.mem_cons.mp he with rfl | he
        · exact hown
        · exact ih e he

/-- What the announcing loop leaves was stored before. -/
theorem resetLoop_subset {own : Lease} {stored ls : List Lease} :
    ∀ l ∈ (resetLoop own stored ls).1, l ∈ stored := by
  induction ls generalizing stored with
  | nil => simp
  | cons nl ls ih =>
    cases hown : isOwn own nl with
    | true =>
      rw [resetLoop_own hown]
      exact ih
    | false =>
      cases hm : firstMatch (fun ol => matchesStored ol nl) stored with
      | some r =>
        obtain ⟨hsplit, -, -⟩ := firstMatch_eq_some hm
        rw [resetLoop_taken hown hm]
        intro l hl
        have hmem := ih l hl
        rw [hsplit]
        simp only [List.mem_append, List.mem_cons] at hmem ⊢
        tauto
      | none =>
        rw [resetLoop_announced hown hm]
        exact ih

/-- **A safe step reports nothing about the own subnet.** -/
theorem reduce_not_own {lw : LeaseWatcher} {wr : LeaseWatchResult} (h : StepSafe lw wr) :
    ∀ e ∈ (lw.reduce wr).2, isOwn lw.ownLease e.lease = false := by
  by_cases hev : wr.events = []
  · rw [reduce_of_snapshot hev, reset_events]
    intro e he
    rcases List.mem_append.mp he with he | he
    · exact resetLoop_added e he
    · obtain ⟨l, hl, rfl⟩ := List.mem_map.mp he
      exact h.1 hev l (resetLoop_subset l hl)
  · rw [reduce_of_events hev]
    exact update_not_own h.2

/-! ## Leases with one pair of flags -/

variable {v4 v6 : Bool}

/-- With one pair of flags the announcing loop never takes a stored own lease: a
snapshot lease that matched it would be own itself, and is skipped. -/
theorem mem_resetLoop_of_own {own : Lease} {stored ls : List Lease}
    (hs : ∀ l ∈ stored, l.HasFlags v4 v6) (hls : ∀ l ∈ ls, l.HasFlags v4 v6)
    {l : Lease} (hl : l ∈ stored) (hown : isOwn own l = true) :
    l ∈ (resetLoop own stored ls).1 := by
  induction ls generalizing stored with
  | nil => exact hl
  | cons nl ls ih =>
    have hls' := fun x hx => hls x (List.mem_cons_of_mem _ hx)
    cases hnl : isOwn own nl with
    | true =>
      rw [resetLoop_own hnl]
      exact ih hs hls' hl
    | false =>
      cases hm : firstMatch (fun ol => matchesStored ol nl) stored with
      | some r =>
        obtain ⟨pre, x, post⟩ := r
        obtain ⟨hsplit, hk⟩ := key_eq_of_firstMatch hs hm
        have hne : l ≠ x := by
          rintro rfl
          rw [isOwn_iff (hs l hl), hk, ← isOwn_iff (hls nl List.mem_cons_self), hnl] at hown
          exact absurd hown (by simp)
        rw [resetLoop_taken hnl hm]
        refine ih (fun y hy => hs y ?_) hls' ?_
        · rw [hsplit]
          simp only [List.mem_append, List.mem_cons] at hy ⊢
          tauto
        · rw [hsplit] at hl
          simp only [List.mem_append, List.mem_cons] at hl ⊢
          tauto
      | none =>
        rw [resetLoop_announced hnl hm]
        exact ih hs hls' hl

/-- **With one pair of flags an unsafe step leaks.** -/
theorem not_stepSafe_leaks {lw : LeaseWatcher} {wr : LeaseWatchResult}
    (hf : ∀ l ∈ lw.leases, l.HasFlags v4 v6) (hwr : wr.HasFlags v4 v6)
    (h : ∀ e ∈ (lw.reduce wr).2, isOwn lw.ownLease e.lease = false) : StepSafe lw wr := by
  constructor
  · intro hev l hl
    by_contra hown
    rw [Bool.not_eq_false] at hown
    rw [reduce_of_snapshot hev, reset_events] at h
    have hleft := mem_resetLoop_of_own hf hwr.2 hl hown
    have hno := h ⟨.removed, l⟩ (List.mem_append_right _ (List.mem_map_of_mem hleft))
    rw [hown] at hno
    exact absurd hno (by simp)
  · intro e he _ hown l hl hlo
    by_contra hmatch
    rw [Bool.not_eq_false, matchesStored_iff (hf l hl)] at hmatch
    rw [isOwn_iff (hf l hl), hmatch, ← isOwn_iff (hwr.1 e he), hown] at hlo
    exact absurd hlo (by simp)

/-! ## Runs -/

@[simp] theorem reduceAll_ownLease (lw : LeaseWatcher) (wrs : List LeaseWatchResult) :
    (lw.reduceAll wrs).1.ownLease = lw.ownLease := by
  induction wrs generalizing lw with
  | nil => rfl
  | cons wr wrs ih => rw [reduceAll_cons, ih, reduce_ownLease]

/-- The batches of a run are the batches of its steps. -/
theorem mem_reduceAll_iff {lw : LeaseWatcher} {wrs : List LeaseWatchResult}
    {batch : List Event} :
    batch ∈ (lw.reduceAll wrs).2 ↔
      ∃ done wr rest, wrs = done ++ wr :: rest ∧
        batch = ((lw.reduceAll done).1.reduce wr).2 := by
  induction wrs generalizing lw with
  | nil => simp
  | cons w ws ih =>
    rw [reduceAll_cons, List.mem_cons, ih]
    constructor
    · rintro (rfl | ⟨done, wr, rest, rfl, rfl⟩)
      · exact ⟨[], w, ws, rfl, rfl⟩
      · exact ⟨w :: done, wr, rest, rfl, rfl⟩
    · rintro ⟨done, wr, rest, hsplit, rfl⟩
      cases done with
      | nil =>
        obtain ⟨rfl, rfl⟩ := List.cons.inj hsplit
        exact Or.inl rfl
      | cons d done =>
        obtain ⟨rfl, rfl⟩ := List.cons.inj hsplit
        exact Or.inr ⟨done, wr, rest, rfl, rfl⟩

/-- Every lease a run with one pair of flags stores carries these flags. -/
theorem reduceAll_flags {lw : LeaseWatcher} {wrs : List LeaseWatchResult}
    (hf : ∀ l ∈ lw.leases, l.HasFlags v4 v6) (hwrs : ∀ wr ∈ wrs, wr.HasFlags v4 v6) :
    ∀ l ∈ (lw.reduceAll wrs).1.leases, l.HasFlags v4 v6 := by
  have hupdate : ∀ (es : List Event) (lw : LeaseWatcher),
      (∀ l ∈ lw.leases, l.HasFlags v4 v6) → (∀ e ∈ es, e.lease.HasFlags v4 v6) →
      ∀ l ∈ (lw.update es).1.leases, l.HasFlags v4 v6 := by
    intro es
    induction es with
    | nil => intro lw h _; exact h
    | cons e es ih =>
      intro lw h hes
      have hes' := fun x hx => hes x (List.mem_cons_of_mem _ hx)
      cases hown : isOwn lw.ownLease e.lease with
      | true =>
        rw [update_cons_own hown]
        exact ih lw h hes'
      | false =>
        rw [update_cons hown]
        refine ih _ (fun l hl => ?_) hes'
        rcases mem_applyEvent hl with rfl | hl
        · exact hes e List.mem_cons_self
        · exact h l hl
  induction wrs generalizing lw with
  | nil => exact hf
  | cons wr wrs ih =>
    rw [reduceAll_cons]
    refine ih ?_ fun w hw => hwrs w (List.mem_cons_of_mem _ hw)
    have hwr := hwrs wr List.mem_cons_self
    by_cases hev : wr.events = []
    · rw [reduce_of_snapshot hev]
      exact hwr.2
    · rw [reduce_of_events hev]
      exact hupdate wr.events lw hf hwr.1

/-- **No own event in a safe run, and with one pair of flags in no other.**  Feeding
any sequence of results to a fresh watcher, if every step is safe in the state it
starts from then no emitted event is about the own subnet; and if all leases
carry the same flags, a run that emits no such event has only safe steps. -/
theorem runSafe_noOwnEvent (own : Lease) (wrs : List LeaseWatchResult) :
    (RunSafe own wrs → NoOwnEvent own ((new own).reduceAll wrs).2) ∧
      ∀ v4 v6, (∀ wr ∈ wrs, wr.HasFlags v4 v6) →
        (NoOwnEvent own ((new own).reduceAll wrs).2 ↔ RunSafe own wrs) := by
  have hsafe : RunSafe own wrs → NoOwnEvent own ((new own).reduceAll wrs).2 := by
    intro h batch hbatch
    obtain ⟨done, wr, rest, hsplit, rfl⟩ := mem_reduceAll_iff.mp hbatch
    have hstep := reduce_not_own (h done wr rest hsplit)
    rwa [reduceAll_ownLease, new_ownLease] at hstep
  refine ⟨hsafe, fun v4 v6 hflags => ⟨fun hno done wr rest hsplit => ?_, hsafe⟩⟩
  have hdone : ∀ w ∈ done, w.HasFlags v4 v6 := fun w hw =>
    hflags w (by rw [hsplit]; exact List.mem_append_left _ hw)
  refine not_stepSafe_leaks (reduceAll_flags (by simp) hdone)
    (hflags wr (by rw [hsplit]; simp)) ?_
  rw [reduceAll_ownLease, new_ownLease]
  exact hno _ (mem_reduceAll_iff.mpr ⟨done, wr, rest, hsplit, rfl⟩)

/-- A run that is safe: the peer is learned from a snapshot, replaced by an event and
gone from the next snapshot. -/
theorem runSafe_noOwnEvent_snapshots :
    NoOwnEvent (v4Lease 0x0a010200)
      ((new (v4Lease 0x0a010200)).reduceAll
        [{ snapshot := [v4Lease 0x0a010300] },
          { events := [⟨.added, v4Lease 0x0a010300⟩, ⟨.removed, v4Lease 0x0a010200⟩] },
          { snapshot := [v4Lease 0x0a010200] }]).2 := by
  refine ((runSafe_noOwnEvent _ _).2 true false (by decide)).mpr ?_
  intro done wr rest hsplit
  match done with
  | [] =>
    simp only [List.nil_append, List.cons.injEq] at hsplit
    obtain ⟨rfl, -⟩ := hsplit
    unfold StepSafe
    decide
  | [_] =>
    simp only [List.cons_append, List.nil_append, List.cons.injEq] at hsplit
    obtain ⟨rfl, rfl, -⟩ := hsplit
    unfold StepSafe
    decide
  | [_, _] =>
    simp only [List.cons_append, List.nil_append, List.cons.injEq] at hsplit
    obtain ⟨rfl, rfl, rfl, -⟩ := hsplit
    unfold StepSafe
    decide
  | _ :: _ :: _ :: _ => simp at hsplit

/-- **Two snapshots that both list the own lease leak its removal.** -/
theorem own_lease_leaks_on_second_snapshot :
    ¬ NoOwnEvent (v4Lease 0x0a010200)
      ((new (v4Lease 0x0a010200)).reduceAll
        [{ snapshot := [v4Lease 0x0a010200] }, { snapshot := [v4Lease 0x0a010200] }]).2 := by
  unfold NoOwnEvent
  decide

end LeaseWatcher

end Flannel
