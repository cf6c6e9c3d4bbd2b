import Flannel.Lease.Consumer
import Flannel.Lib.Channel
import Flannel.Lib.Run
import Mathlib.Algebra.Order.Ring.Nat

/-!
# The long-term watch

`watch_leases` of `subnet/watch.rs`, the task between a subnet manager and a backend.
It drives the manager's watch in the same task, over a channel with room for one item,
feeds every result of every item through one `LeaseWatcher`, and sends the non-empty
batches to the backend.  When the manager's future fails, or hangs up, the watch is
established again after a delay that doubles up to half a minute.

The manager is not modelled here: it is whatever sends items and ends.  It is polled only
by the `select!` of a session, so it moves only while the task is `ready` and its future
has not finished.  The `select!` is biased: cancellation first, then the channel, then the
manager.  So once the token is cancelled, a session takes nothing more from the channel: the
task returns, and what waits there is dropped.  The manager can still be polled in the poll that
looked at the token before it was cancelled.  An item that is in the channel when the future
ends was sent in the same poll, and the loop over `try_recv`, which does not look at the token,
picks it up.  Cancellation can come at any time, and is noticed only where the source looks at
it: by the `select!` of a session, by the one around the sleep, and when the future has failed.
A send to the backend waits while its channel is full, and does not watch for cancellation.

`offered`, `fed` and `sessions` record the past and are read by no step.
-/

namespace Flannel

open Run

/-- How the future of the manager's watch ended. -/
inductive SessionEnd where
  | ok
  | err
  deriving DecidableEq, Repr

/-- Why `watch_leases` returned. -/
inductive WatchReturn where
  | cancelled
  /-- the manager's watch ended without an error -/
  | clean
  /-- the batch could not be sent, and what was left of its item was dropped with it -/
  | receiverGone (batch : List Event) (todo : List LeaseWatchResult)
  deriving DecidableEq

/-- Where the task stands. -/
inductive WatchPhase where
  /-- in the `select!` of a session, or in the `try_recv` loop once the manager is done -/
  | ready
  /-- in `handle_batch_results`, before the next result -/
  | feeding (todo : List LeaseWatchResult)
  /-- in `handle_batch_results`, awaiting the send -/
  | sending (batch : List Event) (todo : List LeaseWatchResult)
  /-- before the next session -/
  | sleeping
  | returned (reason : WatchReturn)
  deriving DecidableEq

/-- The batches that were made and not sent. -/
def WatchPhase.pending : WatchPhase → List (List Event)
  | .sending batch _ => [batch]
  | .returned (.receiverGone batch _) => [batch]
  | _ => []

/-- The results that were taken from the channel and not fed. -/
def WatchPhase.todo : WatchPhase → List LeaseWatchResult
  | .feeding todo => todo
  | .sending _ todo => todo
  | .returned (.receiverGone _ todo) => todo
  | _ => []

/-- A call of `watch_leases`. -/
structure WatchLeases where
  watcher : LeaseWatcher
  /-- the next delay, in seconds -/
  backoff : Nat
  phase : WatchPhase
  session : Channel (List LeaseWatchResult)
  /-- the result of the manager's future, once it is done -/
  finished : Option SessionEnd
  /-- the manager dropped its sender before its future was done -/
  hungUp : Bool
  receiver : Channel (List Event)
  cancelled : Bool
  offered : List (List LeaseWatchResult)
  fed : List LeaseWatchResult
  sessions : Nat
  deriving DecidableEq

/-- The atomic steps of the task, the manager, the backend and the token. -/
inductive WatchAction where
  /-- the manager sends an item -/
  | offer (item : List LeaseWatchResult)
  /-- the manager drops its sender -/
  | hangUp
  /-- the manager's future is done -/
  | finish (res : SessionEnd)
  /-- `recv` or `try_recv` gives an item -/
  | take
  /-- `recv` gives `None`, or the `try_recv` loop is over -/
  | endSession
  /-- the next result of the item -/
  | feed
  /-- the send to the backend ends -/
  | deliver
  /-- a `select!` sees the token -/
  | noticeCancel
  /-- the sleep is over -/
  | wake
  | cancel
  /-- the backend takes a batch -/
  | consume
  /-- the backend drops its receiver -/
  | dropReceiver
  deriving DecidableEq

namespace WatchLeases

/-- `WATCH_CHAN_CAP`. -/
def watchChanCap : Nat := 1

/-- `WATCH_RETRY_DELAY`, in seconds. -/
def watchRetryDelay : Nat := 1

/-- `WATCH_RETRY_MAX`, in seconds. -/
def watchRetryMax : Nat := 30

/-- A call of `watch_leases` with this own lease and this receiver, in its first session. -/
def start (own : Lease) (receiver : Channel (List Event)) : WatchLeases where
  watcher := LeaseWatcher.new own
  backoff := watchRetryDelay
  phase := .ready
  session := Channel.new watchChanCap Nat.one_pos
  finished := none
  hungUp := false
  receiver := receiver
  cancelled := false
  offered := []
  fed := []
  sessions := 1

/-- The manager's future is polled only here. -/
def Polled (s : WatchLeases) : Prop := s.phase = .ready ∧ s.finished = none

instance (s : WatchLeases) : Decidable s.Polled := inferInstanceAs (Decidable (_ ∧ _))

/-- What an action does; `none` when it cannot happen in this state. -/
def step (s : WatchLeases) : WatchAction → Option WatchLeases
  | .offer item =>
    if s.Polled ∧ s.hungUp = false then
      match s.session.trySend item with
      | .ok session => some { s with session := session, offered := s.offered ++ [item] }
      | .error _ => none
    else
      none
  | .hangUp => if s.Polled then some { s with hungUp := true } else none
  | .finish res => if s.Polled then some { s with finished := some res } else none
  | .take =>
    -- the biased `select!` looks at the token first, the `try_recv` loop does not
    if s.phase = .ready ∧ (s.finished = none → s.cancelled = false) then
      match s.session.queue with
      | [] => none
      | item :: _ => s.session.recv.map fun c => { s with session := c, phase := .feeding item }
    else
      none
  | .endSession =>
    if s.phase = .ready ∧ s.session.queue = [] then
      match s.finished with
      | none =>
        if s.hungUp = true ∧ s.cancelled = false then some { s with phase := .sleeping } else none
      | some .ok => some { s with phase := .returned .clean }
      | some .err =>
        some { s with phase := if s.cancelled then .returned .cancelled else .sleeping }
    else
      none
  | .feed =>
    match s.phase with
    | .feeding [] => some { s with phase := .ready }
    | .feeding (wr :: todo) =>
      let r := s.watcher.reduce wr
      some { s with
        watcher := r.1
        fed := s.fed ++ [wr]
        phase := if r.2 = [] then .feeding todo else .sending r.2 todo }
    | _ => none
  | .deliver =>
    match s.phase with
    | .sending batch todo =>
      match s.receiver.trySend batch with
      | .ok c => some { s with receiver := c, phase := .feeding todo }
      | .error .closed => some { s with phase := .returned (.receiverGone batch todo) }
      | .error .full => none
    | _ => none
  | .noticeCancel =>
    if s.cancelled ∧ (s.Polled ∨ s.phase = .sleeping) then
      some { s with phase := .returned .cancelled }
    else
      none
  | .wake =>
    if s.phase = .sleeping ∧ s.cancelled = false then
      some { s with
        backoff := min (s.backoff * 2) watchRetryMax
        phase := .ready
        session := Channel.new watchChanCap Nat.one_pos
        finished := none
        hungUp := false
        sessions := s.sessions + 1 }
    else
      none
  | .cancel => some { s with cancelled := true }
  | .consume => s.receiver.recv.map fun c => { s with receiver := c }
  | .dropReceiver => some { s with receiver := s.receiver.close }

/-! ## The moves -/

/-- The steps, one constructor for each way a step can go. -/
inductive Move (s : WatchLeases) : WatchAction → WatchLeases → Prop
  | offered {item : List LeaseWatchResult} {c : Channel (List LeaseWatchResult)}
      (hpolled : s.Polled) (hsend : s.session.trySend item = .ok c) :
      Move s (.offer item) { s with session := c, offered := s.offered ++ [item] }
  | hungUp (hpolled : s.Polled) : Move s .hangUp { s with hungUp := true }
  | finished {res : SessionEnd} (hpolled : s.Polled) :
      Move s (.finish res) { s with finished := some res }
  | taken {item : List LeaseWatchResult} {c : Channel (List LeaseWatchResult)}
      (hphase : s.phase = .ready) (htoken : s.finished = none → s.cancelled = false)
      (hqueue : s.session.queue = item :: c.queue) (hrecv : s.session.recv = some c) :
      Move s .take { s with session := c, phase := .feeding item }
  | ended {phase : WatchPhase} (hphase : s.phase = .ready) (hqueue : s.session.queue = [])
      (hnext : phase = .sleeping ∧ s.cancelled = false ∧
          (s.finished = none ∧ s.hungUp = true ∨ s.finished = some .err) ∨
        phase = .returned .clean ∧ s.finished = some .ok ∨
        phase = .returned .cancelled ∧ s.finished = some .err ∧ s.cancelled = true) :
      Move s .endSession { s with phase := phase }
  | itemDone (hphase : s.phase = .feeding []) : Move s .feed { s with phase := .ready }
  | silent {wr : LeaseWatchResult} {todo : List LeaseWatchResult}
      (hphase : s.phase = .feeding (wr :: todo)) (hbatch : (s.watcher.reduce wr).2 = []) :
      Move s .feed
        { s with
          watcher := (s.watcher.reduce wr).1
          fed := s.fed ++ [wr]
          phase := .feeding todo }
  | batched {wr : LeaseWatchResult} {todo : List LeaseWatchResult}
      (hphase : s.phase = .feeding (wr :: todo)) (hbatch : (s.watcher.reduce wr).2 ≠ []) :
      Move s .feed
        { s with
          watcher := (s.watcher.reduce wr).1
          fed := s.fed ++ [wr]
          phase := .sending (s.watcher.reduce wr).2 todo }
  | delivered {batch : List Event} {todo : List LeaseWatchResult} {c : Channel (List Event)}
      (hphase : s.phase = .sending batch todo) (hsend : s.receiver.trySend batch = .ok c) :
      Move s .deliver { s with receiver := c, phase := .feeding todo }
  | refused {batch : List Event} {todo : List LeaseWatchResult}
      (hphase : s.phase = .sending batch todo) (hclosed : s.receiver.closed = true) :
      Move s .deliver { s with phase := .returned (.receiverGone batch todo) }
  | noticed (hcancel : s.cancelled = true) (hphase : s.Polled ∨ s.phase = .sleeping) :
      Move s .noticeCancel { s with phase := .returned .cancelled }
  | woken (hphase : s.phase = .sleeping) (hcancel : s.cancelled = false) :
      Move s .wake
        { s with
          backoff := min (s.backoff * 2) watchRetryMax
          phase := .ready
          session := Channel.new watchChanCap Nat.one_pos
          finished := none
          hungUp := false
          sessions := s.sessions + 1 }
  | cancelled : Move s .cancel { s with cancelled := true }
  | consumed {c : Channel (List Event)} (hrecv : s.receiver.recv = some c) :
      Move s .consume { s with receiver := c }
  | dropped : Move s .dropReceiver { s with receiver := s.receiver.close }

/-- **Every step is a move.** -/
theorem move_of_step {s t : WatchLeases} {a : WatchAction} (h : s.step a = some t) :
    Move s a t := by
  cases a with
  | offer item =>
    simp only [step] at h
    split at h
    · rename_i hp
      cases hsend : s.session.trySend item with
      | error e => simp [hsend] at h
      | ok c =>
        rw [hsend] at h
        cases h
        exact .offered hp.1 hsend
    · cases h
  | hangUp =>
    obtain ⟨hp, heq⟩ := Option.ite_none_right_eq_some.mp h
    cases heq
    exact .hungUp hp
  | finish res =>
    obtain ⟨hp, heq⟩ := Option.ite_none_right_eq_some.mp h
    cases heq
    exact .finished hp
  | take =>
    obtain ⟨hp, heq⟩ := Option.ite_none_right_eq_some.mp h
    cases hq : s.session.queue with
    | nil => simp [hq] at heq
    | cons item rest =>
      rw [hq] at heq
      obtain ⟨c, hc, rfl⟩ := Option.map_eq_some_iff.mp heq
      obtain ⟨⟨x, hx, -⟩, -⟩ := Channel.recv_eq_some hc
      have hitem : x = item := by
        rw [hq] at hx
        exact (List.cons.inj hx).1.symm
      subst hitem
      exact .taken hp.1 hp.2 hx hc
  | endSession =>
    obtain ⟨⟨hp, hq⟩, heq⟩ := Option.ite_none_right_eq_some.mp h
    cases hf : s.finished with
    | none =>
      rw [hf] at heq
      obtain ⟨hup, heq⟩ := Option.ite_none_right_eq_some.mp heq
      cases heq
      rw [← hf]
      exact .ended hp hq (Or.inl ⟨rfl, hup.2, Or.inl ⟨hf, hup.1⟩⟩)
    | some res =>
      rw [hf] at heq
      cases res with
      | ok =>
        cases heq
        rw [← hf]
        exact .ended hp hq (Or.inr (Or.inl ⟨rfl, hf⟩))
      | err =>
        cases heq
        rw [← hf]
        refine .ended hp hq ?_
        cases hc : s.cancelled with
        | true => exact Or.inr (Or.inr ⟨if_pos rfl, hf, rfl⟩)
        | false => exact Or.inl ⟨if_neg (by simp), rfl, Or.inr hf⟩
  | feed =>
    cases hp : s.phase with
    | feeding todo =>
      cases todo with
      | nil =>
        simp only [step, hp] at h
        cases h
        exact .itemDone hp
      | cons wr todo =>
        simp only [step, hp] at h
        cases h
        by_cases hb : (s.watcher.reduce wr).2 = []
        · rw [if_pos hb]
          exact .silent hp hb
        · rw [if_neg hb]
          exact .batched hp hb
    | _ => simp [step, hp] at h
  | deliver =>
    cases hp : s.phase with
    | sending batch todo =>
      simp only [step, hp] at h
      cases hsend : s.receiver.trySend batch with
      | ok c =>
        rw [hsend] at h
        cases h
        exact .delivered hp hsend
      | error e =>
        rw [hsend] at h
        cases e with
        | closed =>
          cases h
          exact .refused hp (Channel.trySend_closed.mp hsend)
        | full => cases h
    | _ => simp [step, hp] at h
  | noticeCancel =>
    obtain ⟨⟨hc, hp⟩, heq⟩ := Option.ite_none_right_eq_some.mp h
    cases heq
    exact .noticed hc hp
  | wake =>
    obtain ⟨hp, heq⟩ := Option.ite_none_right_eq_some.mp h
    cases heq
    exact .woken hp.1 hp.2
  | cancel =>
    cases h
    exact .cancelled
  | consume =>
    obtain ⟨c, hc, rfl⟩ := Option.map_eq_some_iff.mp h
    exact .consumed hc
  | dropReceiver =>
    cases h
    exact .dropped

/-! ## Nothing is lost -/

/-- The batches of a run of results that are sent to the backend. -/
def batchesOf (own : Lease) (wrs : List LeaseWatchResult) : List (List Event) :=
  ((LeaseWatcher.new own).reduceAll wrs).2.filter fun batch => batch ≠ []

/-- Everything the managers have sent is accounted for: it was fed to the watcher, or it is
what is left of the current item, or it waits in the channel of the session. -/
structure Accounted (own : Lease) (s : WatchLeases) : Prop where
  watcher : s.watcher = ((LeaseWatcher.new own).reduceAll s.fed).1
  batches : s.receiver.sent ++ s.phase.pending = batchesOf own s.fed
  offered : s.offered.flatten = s.fed ++ s.phase.todo ++ s.session.queue.flatten
  drained : s.phase = .sleeping ∨ s.phase = .returned .clean → s.session.queue = []
  backoff : s.backoff = min (2 ^ (s.sessions - 1)) watchRetryMax
  sessions : 0 < s.sessions
  reason : ∀ r, s.phase = .returned r →
    match r with
    | .cancelled => s.cancelled = true
    | .clean => s.finished = some .ok
    | .receiverGone _ _ => s.receiver.closed = true

theorem accounted_start (own : Lease) {receiver : Channel (List Event)} (h : receiver.sent = []) :
    Accounted own (start own receiver) where
  watcher := rfl
  batches := by simp [start, batchesOf, WatchPhase.pending, h]
  offered := rfl
  drained := fun _ => rfl
  backoff := rfl
  sessions := Nat.one_pos
  reason := by simp [start]

theorem reduceAll_concat (lw : LeaseWatcher) (wrs : List LeaseWatchResult)
    (wr : LeaseWatchResult) :
    lw.reduceAll (wrs ++ [wr]) =
      (((lw.reduceAll wrs).1.reduce wr).1,
        (lw.reduceAll wrs).2 ++ [((lw.reduceAll wrs).1.reduce wr).2]) := by
  induction wrs generalizing lw with
  | nil => rfl
  | cons w wrs ih =>
    rw [List.cons_append, LeaseWatcher.reduceAll_cons, ih]
    rfl

/-- One more result adds its batch, unless it is empty. -/
theorem batchesOf_concat {own : Lease} {fed : List LeaseWatchResult} {lw : LeaseWatcher}
    (hw : lw = ((LeaseWatcher.new own).reduceAll fed).1) (wr : LeaseWatchResult) :
    batchesOf own (fed ++ [wr]) =
      batchesOf own fed ++ if (lw.reduce wr).2 = [] then [] else [(lw.reduce wr).2] := by
  rw [batchesOf, reduceAll_concat, List.filter_append, ← hw]
  by_cases hb : (lw.reduce wr).2 = []
  · simp [batchesOf, hb]
  · simp [batchesOf, hb]

theorem accounted_step {own : Lease} {s t : WatchLeases} {a : WatchAction}
    (h : Accounted own s) (hst : s.step a = some t) : Accounted own t := by
  obtain ⟨hw, hb, ho, hd, hback, hsess, hr⟩ := h
  cases move_of_step hst with
  | offered hpolled hsend =>
    obtain ⟨-, -, hqueue, -⟩ := Channel.trySend_ok hsend
    refine ⟨hw, hb, ?_, ?_, hback, hsess, hr⟩
    · simp [hqueue, ho]
    · simp [hpolled.1]
  | hungUp _ => exact ⟨hw, hb, ho, hd, hback, hsess, hr⟩
  | finished hpolled => exact ⟨hw, hb, ho, hd, hback, hsess, by simp [hpolled.1]⟩
  | taken hphase _ hqueue _ =>
    refine ⟨hw, ?_, ?_, by simp, hback, hsess, by simp⟩
    · rw [← hb, hphase]
      rfl
    · rw [ho, hphase, hqueue]
      simp [WatchPhase.todo]
  | ended hphase hqueue hnext =>
    have hquiet : ∀ p : WatchPhase, p = .sleeping ∨ p = .returned .clean ∨
        p = .returned .cancelled → p.pending = [] ∧ p.todo = [] := by
      rintro p (rfl | rfl | rfl)
      all_goals exact ⟨rfl, rfl⟩
    obtain ⟨hpending, htodo⟩ := hquiet _ (by tauto)
    refine ⟨hw, ?_, ?_, fun _ => hqueue, hback, hsess, ?_⟩
    · rw [← hb, hphase, hpending]
      rfl
    · rw [ho, hphase, htodo]
      rfl
    · rintro r hret
      rcases hnext with ⟨rfl, -⟩ | ⟨rfl, hfin⟩ | ⟨rfl, -, hcancel⟩
      · cases hret
      · cases hret
        exact hfin
      · cases hret
        exact hcancel
  | itemDone hphase =>
    refine ⟨hw, ?_, ?_, by simp, hback, hsess, by simp⟩
    · rw [← hb, hphase]
      rfl
    · rw [ho, hphase]
      rfl
  | silent hphase hbatch =>
    refine ⟨?_, ?_, ?_, by simp, hback, hsess, by simp⟩
    · rw [reduceAll_concat, ← hw]
    · rw [batchesOf_concat hw, if_pos hbatch, List.append_nil, ← hb, hphase]
      rfl
    · rw [ho, hphase]
      simp [WatchPhase.todo]
  | batched hphase hbatch =>
    refine ⟨?_, ?_, ?_, by simp, hback, hsess, by simp⟩
    · rw [reduceAll_concat, ← hw]
    · rw [batchesOf_concat hw, if_neg hbatch, ← hb, hphase]
      simp [WatchPhase.pending]
    · rw [ho, hphase]
      simp [WatchPhase.todo]
  | delivered hphase hsend =>
    obtain ⟨hsent, -⟩ := Channel.trySend_ok hsend
    refine ⟨hw, ?_, ?_, by simp, hback, hsess, by simp⟩
    · rw [← hb, hphase, hsent]
      simp [WatchPhase.pending]
    · rw [ho, hphase]
      rfl
  | refused hphase hclosed =>
    refine ⟨hw, ?_, ?_, by simp, hback, hsess, ?_⟩
    · rw [← hb, hphase]
      rfl
    · rw [ho, hphase]
      rfl
    · intro r hret
      cases hret
      exact hclosed
  | noticed hcancel hphase =>
    have hquiet : s.phase.pending = [] ∧ s.phase.todo = [] := by
      rcases hphase with ⟨hp, -⟩ | hp
      all_goals
        rw [hp]
        exact ⟨rfl, rfl⟩
    refine ⟨hw, ?_, ?_, by simp, hback, hsess, ?_⟩
    · rw [← hb, hquiet.1]
      rfl
    · rw [ho, hquiet.2]
      rfl
    · intro r hret
      cases hret
      exact hcancel
  | woken hphase _ =>
    have hqueue := hd (Or.inl hphase)
    refine ⟨hw, ?_, ?_, by simp, ?_, Nat.succ_pos _, by simp⟩
    · rw [← hb, hphase]
      rfl
    · rw [ho, hphase, hqueue]
      rfl
    · have hpow : 2 ^ (s.sessions + 1 - 1) = 2 ^ (s.sessions - 1) * 2 := by
        rw [← Nat.pow_succ]
        congr 1
        omega
      show min (s.backoff * 2) watchRetryMax = min (2 ^ (s.sessions + 1 - 1)) watchRetryMax
      rw [hback, hpow]
      omega
  | cancelled =>
    refine ⟨hw, hb, ho, hd, hback, hsess, fun r hret => ?_⟩
    have hreason := hr r hret
    cases r with
    | cancelled => rfl
    | clean => exact hreason
    | receiverGone _ _ => exact hreason
  | consumed hrecv =>
    obtain ⟨-, hsent, hclosed, -⟩ := Channel.recv_eq_some hrecv
    refine ⟨hw, by rw [hsent, hb], ho, hd, hback, hsess, fun r hret => ?_⟩
    rw [hclosed]
    exact hr r hret
  | dropped =>
    refine ⟨hw, hb, ho, hd, hback, hsess, fun r hret => ?_⟩
    have hreason := hr r hret
    cases r with
    | cancelled => exact hreason
    | clean => exact hreason
    | receiverGone _ _ => rfl

theorem accounted_run {own : Lease} {receiver : Channel (List Event)} {as : List WatchAction}
    {s : WatchLeases} (hnew : receiver.sent = []) (h : run step (start own receiver) as = some s) :
    Accounted own s :=
  run_preserves (fun _ _ _ hi hst => accounted_step hi hst) (accounted_start own hnew) h

/-! ## Nothing gets stuck -/

/-- The steps of the task on what it has, and of the backend. -/
def IsDelivery (a : WatchAction) : Prop := a = .take ∨ a = .feed ∨ a = .deliver ∨ a = .consume

/-- The backend has taken everything that was made of what was offered. -/
structure Settled (s : WatchLeases) : Prop where
  phase : s.phase = .ready ∨ s.phase = .sleeping
  session : s.session.queue = []
  receiver : s.receiver.queue = []

theorem Settled.pending {s : WatchLeases} (h : s.Settled) : s.phase.pending = [] := by
  rcases h.phase with hp | hp
  all_goals
    rw [hp]
    rfl

theorem Settled.todo {s : WatchLeases} (h : s.Settled) : s.phase.todo = [] := by
  rcases h.phase with hp | hp
  all_goals
    rw [hp]
    rfl

/-- The steps that a phase still has to make, the one of the backend included. -/
def WatchPhase.weight : WatchPhase → Nat
  | .feeding todo => 3 * todo.length + 1
  | .sending _ todo => 3 * todo.length + 3
  | _ => 0

/-- A bound on the steps of the task and of the backend until everything is delivered. -/
def weight (s : WatchLeases) : Nat :=
  (s.session.queue.map fun item => 3 * item.length + 2).sum + WatchPhase.weight s.phase +
    s.receiver.queue.length

/-- The task is running and not cancelled, and the backend and the session have their
channels. -/
structure Live (s : WatchLeases) : Prop where
  running : ∀ r, s.phase ≠ .returned r
  token : s.cancelled = false
  session : s.session.closed = false
  receiver : s.receiver.closed = false
  drained : s.phase = .sleeping → s.session.queue = []

theorem recv_of_queue {α : Type*} {c : Channel α} {x : α} {xs : List α} (hq : c.queue = x :: xs)
    (hopen : c.closed = false) : ∃ d, c.recv = some d ∧ d.queue = xs ∧ d.closed = false := by
  cases hr : c.recv with
  | none =>
    unfold Channel.recv at hr
    split at hr
    · rename_i hnil
      rw [hq] at hnil
      cases hnil
    · simp [hopen] at hr
  | some d =>
    obtain ⟨⟨y, hy, -⟩, -, hclosed, -⟩ := Channel.recv_eq_some hr
    rw [hq] at hy
    exact ⟨d, rfl, (List.cons.inj hy).2.symm, hclosed.trans hopen⟩

/-- The backend can take a batch whenever there is one. -/
theorem consume_of_queue {s : WatchLeases} (hs : s.Live) (hq : s.receiver.queue ≠ []) :
    ∃ t, s.step .consume = some t ∧ t.Live ∧ t.weight < s.weight := by
  obtain ⟨batch, rest, hq⟩ := List.exists_cons_of_ne_nil hq
  obtain ⟨c, hc, hrest, hopen⟩ := recv_of_queue hq hs.receiver
  refine ⟨{ s with receiver := c }, by simp [step, hc],
    ⟨hs.running, hs.token, hs.session, hopen, hs.drained⟩, ?_⟩
  simp only [weight, hrest, hq, List.length_cons]
  omega

/-- **A delivery step is enabled until everything is delivered.** -/
theorem settled_or_step {s : WatchLeases} (hs : s.Live) :
    s.Settled ∨ ∃ a t, IsDelivery a ∧ s.step a = some t ∧ t.Live ∧ t.weight < s.weight := by
  by_cases hq : s.receiver.queue = []
  swap
  · obtain ⟨t, ht⟩ := consume_of_queue hs hq
    exact Or.inr ⟨.consume, t, Or.inr (Or.inr (Or.inr rfl)), ht⟩
  cases hp : s.phase with
  | ready =>
    cases hqueue : s.session.queue with
    | nil => exact Or.inl ⟨Or.inl hp, hqueue, hq⟩
    | cons item rest =>
      obtain ⟨c, hc, hrest, hopen⟩ := recv_of_queue hqueue hs.session
      refine Or.inr ⟨.take, { s with session := c, phase := .feeding item }, Or.inl rfl,
        by simp [step, hp, hs.token, hqueue, hc],
        ⟨by simp, hs.token, hopen, hs.receiver, by simp⟩, ?_⟩
      simp only [weight, hrest, hqueue, hp, WatchPhase.weight, List.map_cons, List.sum_cons]
      omega
  | feeding todo =>
    cases todo with
    | nil =>
      refine Or.inr ⟨.feed, { s with phase := .ready }, Or.inr (Or.inl rfl),
        by simp [step, hp], ⟨by simp, hs.token, hs.session, hs.receiver, by simp⟩, ?_⟩
      simp only [weight, hp, WatchPhase.weight]
      omega
    | cons wr todo =>
      by_cases hb : (s.watcher.reduce wr).2 = []
      · refine Or.inr ⟨.feed, { s with
            watcher := (s.watcher.reduce wr).1
            fed := s.fed ++ [wr]
            phase := .feeding todo }, Or.inr (Or.inl rfl), by simp [step, hp, hb],
          ⟨by simp, hs.token, hs.session, hs.receiver, by simp⟩, ?_⟩
        simp only [weight, hp, WatchPhase.weight, List.length_cons]
        omega
      · refine Or.inr ⟨.feed, { s with
            watcher := (s.watcher.reduce wr).1
            fed := s.fed ++ [wr]
            phase := .sending (s.watcher.reduce wr).2 todo }, Or.inr (Or.inl rfl),
          by simp [step, hp, hb], ⟨by simp, hs.token, hs.session, hs.receiver, by simp⟩, ?_⟩
        simp only [weight, hp, WatchPhase.weight, List.length_cons]
        omega
  | sending batch todo =>
    -- the backend's channel is empty, so there is room
    cases hsend : s.receiver.trySend batch with
    | ok c =>
      obtain ⟨-, -, hqueue, -, hopen, -⟩ := Channel.trySend_ok hsend
      refine Or.inr ⟨.deliver, { s with receiver := c, phase := .feeding todo },
        Or.inr (Or.inr (Or.inl rfl)), by simp [step, hp, hsend],
        ⟨by simp, hs.token, hs.session, hopen, by simp⟩, ?_⟩
      simp only [weight, hp, WatchPhase.weight, hqueue, List.length_append, List.length_singleton]
      omega
    | error e =>
      cases e with
      | closed =>
        rw [Channel.trySend_closed, hs.receiver] at hsend
        cases hsend
      | full =>
        have hlen := (Channel.trySend_full.mp hsend).2
        have hpos := s.receiver.capacity_pos
        rw [hq, List.length_nil] at hlen
        omega
  | sleeping => exact Or.inl ⟨Or.inr hp, hs.drained hp, hq⟩
  | returned r => exact absurd hp (hs.running r)

/-- Once everything is delivered, the backend has every batch. -/
theorem Accounted.received_of_settled {own : Lease} {s : WatchLeases} (h : Accounted own s)
    (hs : s.Settled) : s.receiver.received = batchesOf own s.fed := by
  have hbatches := h.batches
  rw [hs.pending, Channel.sent, hs.receiver] at hbatches
  simpa using hbatches

theorem Accounted.fed_of_settled {own : Lease} {s : WatchLeases} (h : Accounted own s)
    (hs : s.Settled) : s.fed = s.offered.flatten := by
  rw [h.offered, hs.todo, hs.session]
  simp

/-! ## Runs -/

/-- The item that an action offers. -/
def item : WatchAction → Option (List LeaseWatchResult)
  | .offer item => some item
  | _ => none

/-- Everything that the managers of a run send, over all sessions. -/
def offeredBy (as : List WatchAction) : List LeaseWatchResult := (as.filterMap item).flatten

theorem offered_step {s t : WatchLeases} {a : WatchAction} (h : s.step a = some t) :
    t.offered = s.offered ++ (item a).toList := by
  cases move_of_step h with
  | offered _ _ => rfl
  | _ => exact (List.append_nil _).symm

theorem offered_run {s t : WatchLeases} {as : List WatchAction} (h : run step s as = some t) :
    t.offered = s.offered ++ as.filterMap item :=
  run_history (fun _ _ _ hst => offered_step hst) h

theorem session_closed_step {s t : WatchLeases} {a : WatchAction} (h : s.step a = some t)
    (hs : s.session.closed = false) : t.session.closed = false := by
  cases move_of_step h with
  | offered _ hsend => exact (Channel.trySend_ok hsend).2.2.2.2.1
  | taken _ _ _ hrecv => exact (Channel.recv_eq_some hrecv).2.2.1.trans hs
  | woken _ _ => rfl
  | _ => exact hs

/-- A call that has returned does nothing any more. -/
theorem returned_step {s t : WatchLeases} {a : WatchAction} {r : WatchReturn}
    (h : s.step a = some t) (hs : s.phase = .returned r) : t.phase = .returned r := by
  cases move_of_step h with
  | offered _ _ => exact hs
  | hungUp _ => exact hs
  | finished _ => exact hs
  | cancelled => exact hs
  | consumed _ => exact hs
  | dropped => exact hs
  | noticed _ hphase =>
    exfalso
    rcases hphase with ⟨hp, -⟩ | hp
    all_goals simp [hs] at hp
  | _ => simp_all

theorem cancel_mem {s t : WatchLeases} {as : List WatchAction} (hs : s.cancelled = false)
    (h : run step s as = some t) (ht : t.cancelled = true) : .cancel ∈ as := by
  refine mem_of_run (F := fun u => u.cancelled = true) ?_ (by simp [hs]) h ht
  intro u b v hb hu hst
  cases move_of_step hst with
  | cancelled => exact absurd rfl hb
  | _ => exact hu

theorem dropReceiver_mem {s t : WatchLeases} {as : List WatchAction}
    (hs : s.receiver.closed = false) (h : run step s as = some t)
    (ht : t.receiver.closed = true) : .dropReceiver ∈ as := by
  refine mem_of_run (F := fun u => u.receiver.closed = true) ?_ (by simp [hs]) h ht
  intro u b v hb hu hst
  cases move_of_step hst with
  | dropped => exact absurd rfl hb
  | delivered _ hsend => simp [(Channel.trySend_ok hsend).2.2.2.2.1]
  | consumed hrecv => rwa [(Channel.recv_eq_some hrecv).2.2.1]
  | _ => exact hu

theorem finish_mem {s t : WatchLeases} {as : List WatchAction} (hs : s.finished = none)
    (h : run step s as = some t) (ht : t.finished = some .ok) : .finish .ok ∈ as := by
  refine mem_of_run (F := fun u => u.finished = some .ok) ?_ (by simp [hs]) h ht
  intro u b v hb hu hst
  cases move_of_step hst with
  | finished _ =>
    intro heq
    cases heq
    exact hb rfl
  | woken _ _ => simp
  | _ => exact hu

/-- **No result is lost between a manager and a backend.**  In every interleaving of the
managers' sends, failures and hang-ups with the task, the backend and cancellation, over any
number of sessions: the results offered so far are, in order, those fed to the one watcher,
those left of the current item, and those in the channel of the session; the batches sent are
the non-empty ones of the results fed, in order, less at most the one being sent.  While the
task runs, nobody has cancelled it and the backend keeps its receiver, steps of these two alone
deliver what everything offered amounts to.  The call returns only after cancellation, after the
backend dropped its receiver, or after a session that ended without an error and of which every
result was fed; and the delay after the current session is the power of two of the number of
sessions before the current one, at most half a minute. -/
theorem watch_leases_loses_nothing (own : Lease) {receiver : Channel (List Event)}
    {as : List WatchAction} {s : WatchLeases} (hnew : receiver.sent = [])
    (hopen : receiver.closed = false) (h : run step (start own receiver) as = some s) :
    offeredBy as = s.fed ++ s.phase.todo ++ s.session.queue.flatten ∧
      s.watcher = ((LeaseWatcher.new own).reduceAll s.fed).1 ∧
      s.receiver.sent ++ s.phase.pending = batchesOf own s.fed ∧
      ((∀ r, s.phase ≠ .returned r) → s.cancelled = false → .dropReceiver ∉ as →
        ∃ bs t, (∀ b ∈ bs, IsDelivery b) ∧ run step s bs = some t ∧
          t.receiver.received = batchesOf own (offeredBy as)) ∧
      ((∃ r, s.phase = .returned r) → .cancel ∈ as ∨ .dropReceiver ∈ as ∨
        .finish .ok ∈ as ∧ s.fed = offeredBy as) ∧
      s.backoff = min (2 ^ (s.sessions - 1)) watchRetryMax := by
  have hacc := accounted_run hnew h
  have hoffered : s.offered = as.filterMap item := offered_run h
  have hall : offeredBy as = s.fed ++ s.phase.todo ++ s.session.queue.flatten := by
    rw [offeredBy, ← hoffered, hacc.offered]
  refine ⟨hall, hacc.watcher, hacc.batches, ?_, ?_, hacc.backoff⟩
  · intro hrunning htoken hkeep
    have hlive : s.Live := by
      refine ⟨hrunning, htoken, ?_, ?_, fun hp => hacc.drained (Or.inl hp)⟩
      · exact run_preserves (P := fun u => u.session.closed = false)
          (fun _ _ _ hu hst => session_closed_step hst hu) rfl h
      · rw [← Bool.not_eq_true]
        exact fun hclosed => hkeep (dropReceiver_mem hopen h hclosed)
    obtain ⟨bs, t, hbs, ht, -, hsettled⟩ := exists_run_of_measure weight
      (fun _ hu => settled_or_step hu) hlive
    refine ⟨bs, t, hbs, ht, ?_⟩
    -- nothing is offered by a delivery, so all that was offered has been fed
    have htacc : Accounted own t :=
      run_preserves (fun _ _ _ hi hst => accounted_step hi hst) hacc ht
    have hnone : bs.filterMap item = [] := by
      refine List.filterMap_eq_nil_iff.mpr fun b hb => ?_
      rcases hbs b hb with rfl | rfl | rfl | rfl
      all_goals rfl
    have hfed : t.fed = offeredBy as := by
      rw [htacc.fed_of_settled hsettled, offered_run ht, hnone, hoffered, List.append_nil,
        offeredBy]
    rw [← hfed]
    exact htacc.received_of_settled hsettled
  · rintro ⟨r, hr⟩
    have hreason := hacc.reason r hr
    cases r with
    | cancelled => exact Or.inl (cancel_mem rfl h hreason)
    | clean =>
      refine Or.inr (Or.inr ⟨finish_mem rfl h hreason, ?_⟩)
      rw [hall, hr, hacc.drained (Or.inr hr)]
      simp [WatchPhase.todo]
    | receiverGone batch todo => exact Or.inr (Or.inl (dropReceiver_mem hopen h hreason))

/-- A session delivers a snapshot and fails with an item in its channel; the second session
reports the removal of a peer while the backend's channel is full. -/
def failingRun : List WatchAction :=
  [.offer [{ snapshot := [v4Lease 0x0a010200, v4Lease 0x0a010300] }], .take, .feed, .deliver, .feed,
    .offer [{ events := [⟨.added, v4Lease 0x0a010400⟩] }], .finish .err, .take, .consume, .feed,
    .deliver, .feed, .endSession, .wake,
    .offer [{ events := [⟨.removed, v4Lease 0x0a010300⟩] }], .take, .feed]

/-- Where that run ends. -/
def failingEnd : WatchLeases :=
  (run step (start (v4Lease 0x0a010200) (Channel.new 1 Nat.one_pos)) failingRun).getD
    (start (v4Lease 0x0a010200) (Channel.new 1 Nat.one_pos))

theorem failingRun_loses_nothing :
    failingEnd.phase = .sending [⟨.removed, v4Lease 0x0a010300⟩] [] ∧ failingEnd.backoff = 2 ∧
      (∃ bs t, (∀ b ∈ bs, IsDelivery b) ∧ run step failingEnd bs = some t ∧
        t.receiver.received =
          [[⟨.added, v4Lease 0x0a010300⟩], [⟨.added, v4Lease 0x0a010400⟩],
            [⟨.removed, v4Lease 0x0a010300⟩]]) := by
  have hend : run step (start (v4Lease 0x0a010200) (Channel.new 1 Nat.one_pos)) failingRun =
      some failingEnd := rfl
  have hphase : failingEnd.phase = .sending [⟨.removed, v4Lease 0x0a010300⟩] [] := by decide
  obtain ⟨-, -, -, hdeliver, -, hback⟩ :=
    watch_leases_loses_nothing (v4Lease 0x0a010200) rfl rfl hend
  obtain ⟨bs, t, hbs, ht, hreceived⟩ := hdeliver (by simp [hphase]) (by decide) (by decide)
  exact ⟨hphase, hback, bs, t, hbs, ht, hreceived.trans (by decide)⟩

end WatchLeases

end Flannel
