import Flannel.Backend.RouteCheck

/-!
# The tracked lists in every interleaving

The event loop, the check and everyone else on the host take their steps in any order.  But the
check does not touch the tracked lists, and nobody else does.  So in every interleaving they
are what `handle_subnet_events` makes of the events one after the other; the interleaving only
decides which answers it gets from the kernel.

An event is a list of jobs, at most one for each family.  While a job is being done the
lists are those before it, or those with the route added, or those after it (`Doing`); this is the
relation that every step of the system keeps.
-/

namespace Flannel

/-- The IPv6 job of an event. -/
def v6Jobs (nw : RouteNetwork) (evt : Event) : List RouteJob :=
  if evt.lease.enableIpv6 then
    match nw.getV6Route with
    | none => []
    | some gr6 => [⟨evt.eventType, .inet6, gr6 evt.lease⟩]
  else []

/-- What an event asks for. -/
def eventJobs (nw : RouteNetwork) (evt : Event) : List RouteJob :=
  if evt.lease.attrs.backendType ≠ nw.backendType then []
  else if evt.lease.enableIpv4 then
    match nw.getRoute with
    | none => []
    | some gr => ⟨evt.eventType, .inet, gr evt.lease⟩ :: v6Jobs nw evt
  else v6Jobs nw evt

/-- A job done without interruption, as far as the lists go. -/
def handleJob (s : RouteLists) (p : RouteJob × AddReplies) : RouteLists :=
  match p.1.eventType with
  | .added => s.set p.1.family (routeAdd (s.of p.1.family) p.1.route p.1.family p.2).1
  | .removed => s.set p.1.family (removeFromRouteList (s.of p.1.family) p.1.route)

theorem handleV6_of_jobs (nw : RouteNetwork) (evt : Event) (ps : List (RouteJob × AddReplies))
    (hps : ps.map Prod.fst = v6Jobs nw evt) :
    ∃ r6, ∀ (s : RouteLists) (r4 : AddReplies),
      (handleV6 nw s evt ⟨r4, r6⟩).1 = ps.foldl handleJob s := by
  unfold v6Jobs at hps
  split at hps
  · rename_i hv6
    cases hgr : nw.getV6Route with
    | none =>
      rw [hgr] at hps
      obtain rfl := List.map_eq_nil_iff.mp hps
      exact ⟨⟨none, false, none⟩, fun s r4 => by simp [handleV6, hv6, hgr]⟩
    | some gr6 =>
      rw [hgr] at hps
      obtain ⟨⟨job, r6⟩, rfl, hjob⟩ := List.map_eq_singleton_iff.mp hps
      obtain rfl : job = ⟨evt.eventType, .inet6, gr6 evt.lease⟩ := hjob
      refine ⟨r6, fun s r4 => ?_⟩
      cases hevt : evt.eventType with
      | added => simp [handleV6, hv6, hgr, hevt, handleJob, RouteLists.set, RouteLists.of]
      | removed => simp [handleV6, hv6, hgr, hevt, handleJob, RouteLists.set, RouteLists.of]
  · rename_i hv6
    obtain rfl := List.map_eq_nil_iff.mp hps
    exact ⟨⟨none, false, none⟩, fun s r4 => by simp [handleV6, hv6]⟩

/-- An event is its jobs, with the answers to each. -/
theorem handleSubnetEvent_of_jobs (nw : RouteNetwork) (s : RouteLists) (evt : Event)
    (ps : List (RouteJob × AddReplies)) (hps : ps.map Prod.fst = eventJobs nw evt) :
    ∃ r, (handleSubnetEvent nw s evt r).1 = ps.foldl handleJob s := by
  have hnone : ∀ r : EventReplies, ps = [] → (handleSubnetEvent nw s evt r).1 = s →
      ∃ r, (handleSubnetEvent nw s evt r).1 = ps.foldl handleJob s := by
    rintro r rfl h
    exact ⟨r, h⟩
  unfold eventJobs at hps
  split at hps
  · rename_i htype
    refine hnone ⟨⟨none, false, none⟩, ⟨none, false, none⟩⟩ (List.map_eq_nil_iff.mp hps) ?_
    rw [handleSubnetEvent, if_pos htype]
  · rename_i htype
    split at hps
    · rename_i hv4
      cases hgr : nw.getRoute with
      | none =>
        rw [hgr] at hps
        refine hnone ⟨⟨none, false, none⟩, ⟨none, false, none⟩⟩ (List.map_eq_nil_iff.mp hps) ?_
        rw [handleSubnetEvent, if_neg htype, if_pos hv4, hgr]
      | some gr =>
        rw [hgr] at hps
        obtain ⟨⟨job, r4⟩, ps, rfl, hjob, hrest⟩ := List.map_eq_cons_iff.mp hps
        obtain rfl : job = ⟨evt.eventType, .inet, gr evt.lease⟩ := hjob
        obtain ⟨r6, hr6⟩ := handleV6_of_jobs nw evt ps hrest
        refine ⟨⟨r4, r6⟩, ?_⟩
        rw [handleSubnetEvent, if_neg htype, if_pos hv4, hgr, List.foldl_cons]
        cases hevt : evt.eventType with
        | added => exact hr6 _ r4
        | removed => exact hr6 _ r4
    · rename_i hv4
      obtain ⟨r6, hr6⟩ := handleV6_of_jobs nw evt ps hps
      refine ⟨⟨⟨none, false, none⟩, r6⟩, ?_⟩
      rw [handleSubnetEvent, if_neg htype, if_neg hv4]
      exact hr6 s _

/-- So are the events of a batch. -/
theorem handleSubnetEvents_of_jobs (nw : RouteNetwork) (s : RouteLists) (evts : List Event)
    (ps : List (RouteJob × AddReplies)) (hps : ps.map Prod.fst = evts.flatMap (eventJobs nw)) :
    ∃ batch, batch.map Prod.fst = evts ∧
      (handleSubnetEvents nw s batch).1 = ps.foldl handleJob s := by
  induction evts generalizing s ps with
  | nil =>
    obtain rfl := List.map_eq_nil_iff.mp hps
    exact ⟨[], rfl, rfl⟩
  | cons evt evts ih =>
    rw [List.flatMap_cons] at hps
    obtain ⟨first, rest, rfl, hfirst, hrest⟩ := List.map_eq_append_iff.mp hps
    obtain ⟨r, hr⟩ := handleSubnetEvent_of_jobs nw s evt first hfirst
    obtain ⟨batch, rfl, hbatch⟩ := ih (first.foldl handleJob s) rest hrest
    refine ⟨(evt, r) :: batch, rfl, ?_⟩
    rw [List.foldl_append, ← hbatch, handleSubnetEvents, hr]

namespace RouteSystem

/-- The lists of a system, where the jobs before the one in hand made `base` of them. -/
def Doing (base : RouteLists) (s : RouteSystem) : Prop :=
  match s.events.stage with
  | .next => s.lists = base
  | .listing job => job.eventType = .added ∧
      s.lists = base.set job.family (addToRouteList (base.of job.family) job.route)
  | .deleting job first => job.eventType = .added ∧
      s.lists = base.set job.family (addToRouteList (base.of job.family) job.route) ∧
      routeMsgMatches first job.route = false ∧
      ∃ listed, (listRoutesByDst listed job.family job.route).head? = some first
  | .untracking job first => job.eventType = .added ∧
      s.lists = base.set job.family (addToRouteList (base.of job.family) job.route) ∧
      routeMsgMatches first job.route = false ∧
      ∃ listed, (listRoutesByDst listed job.family job.route).head? = some first
  | .relisting job => ∃ r, s.lists = handleJob base (job, r)
  | .adding job => ∃ r, s.lists = handleJob base (job, r)
  | .confirming job => ∃ r, s.lists = handleJob base (job, r)
  | .withdrawing job => ∃ r, s.lists = handleJob base (job, r)

/-- The jobs that were received. -/
def received : List RouteSystemAction → List RouteJob
  | [] => []
  | .receive jobs :: as => jobs ++ received as
  | _ :: as => received as

section Refinement

variable {s t : RouteSystem} {ok : Bool} {base : RouteLists}

/-- A job that is installed without a deletion. -/
theorem handleJob_added {job : RouteJob} (htype : job.eventType = .added) :
    handleJob base (job, ⟨none, false, none⟩) =
      base.set job.family (addToRouteList (base.of job.family) job.route) := by
  simp [handleJob, htype, routeAdd, listRoutesByDst, dumpRoutes]

/-- A job that is installed in the place of another route. -/
theorem handleJob_replaced {job : RouteJob} {first : RouteMessage}
    {listed : Option (List RouteMessage)} (htype : job.eventType = .added)
    (hhead : (listRoutesByDst listed job.family job.route).head? = some first)
    (hno : routeMsgMatches first job.route = false) :
    handleJob base (job, ⟨listed, true, none⟩) = base.set job.family
      (removeMsgFromRouteList (addToRouteList (base.of job.family) job.route) first) := by
  simp [handleJob, htype, routeAdd, hhead, hno]

/-- The stages of a job up to its end, in the order of `route_add`. -/
theorem Doing.event (h : Doing base s) (hmoves : EventMoves s ok t) :
    ∃ ps : List (RouteJob × AddReplies), s.events.held = ps.map Prod.fst ++ t.events.held ∧
      Doing (ps.foldl handleJob base) t := by
  unfold Doing at h
  cases hmoves with
  | track job jobs hevents htype =>
    rw [hevents] at h
    refine ⟨[], by simp [hevents, EventTask.held, EventStage.job], htype, ?_⟩
    rw [List.foldl_nil, ← h]
  | untrack job jobs hevents htype =>
    rw [hevents] at h
    refine ⟨[], by simp [hevents, EventTask.held, EventStage.job], ⟨none, false, none⟩, ?_⟩
    simp only [List.foldl_nil, handleJob, htype]
    rw [← h]
  | other job first hstage hhead hno =>
    rw [hstage] at h
    exact ⟨[], by simp [hstage, EventTask.held, EventStage.job], h.1, h.2, hno, _, hhead⟩
  | noOther job hstage =>
    rw [hstage] at h
    refine ⟨[], by simp [hstage, EventTask.held, EventStage.job], ⟨none, false, none⟩, ?_⟩
    rw [List.foldl_nil, handleJob_added h.1]
    exact h.2
  | deleted job first hstage =>
    rw [hstage] at h
    exact ⟨[], by simp [hstage, EventTask.held, EventStage.job], h⟩
  | notDeleted job first hstage =>
    rw [hstage] at h
    refine ⟨[(job, ⟨none, false, none⟩)], by simp [hstage, EventTask.held, EventStage.job], ?_⟩
    show s.lists = handleJob base (job, _)
    rw [handleJob_added h.1]
    exact h.2.1
  | forget job first hstage =>
    rw [hstage] at h
    obtain ⟨htype, hlists, hno, listed, hhead⟩ := h
    refine ⟨[], by simp [hstage, EventTask.held, EventStage.job], ⟨listed, true, none⟩, ?_⟩
    rw [List.foldl_nil, handleJob_replaced htype hhead hno]
    show s.lists.set _ _ = _
    rw [hlists, RouteLists.of_set_self, RouteLists.set_set]
  | there job hstage =>
    rw [hstage] at h
    exact ⟨[], by simp [hstage, EventTask.held, EventStage.job], h⟩
  | notThere job hstage =>
    rw [hstage] at h
    exact ⟨[], by simp [hstage, EventTask.held, EventStage.job], h⟩
  | added job hstage =>
    rw [hstage] at h
    exact ⟨[], by simp [hstage, EventTask.held, EventStage.job], h⟩
  | notAdded job hstage =>
    rw [hstage] at h
    obtain ⟨r, hr⟩ := h
    exact ⟨[(job, r)], by simp [hstage, EventTask.held, EventStage.job], hr⟩
  | done job hstage =>
    rw [hstage] at h
    obtain ⟨r, hr⟩ := h
    exact ⟨[(job, r)], by simp [hstage, EventTask.held, EventStage.job], hr⟩
  | withdrawn job hstage =>
    rw [hstage] at h
    obtain ⟨r, hr⟩ := h
    exact ⟨[(job, r)], by simp [hstage, EventTask.held, EventStage.job], hr⟩

/-- The steps of the others are no steps of a job. -/
theorem Doing.congr (h : Doing base s) (hlists : t.lists = s.lists)
    (hevents : t.events = s.events) : Doing base t := by
  unfold Doing
  rw [hevents, hlists]
  exact h

/-- **One step**, in the terms of the jobs. -/
theorem Doing.step {a : RouteSystemAction} (h : Doing base s) (hst : s.step a = some t) :
    ∃ ps : List (RouteJob × AddReplies),
      s.events.held ++ received [a] = ps.map Prod.fst ++ t.events.held ∧
        Doing (ps.foldl handleJob base) t := by
  cases a with
  | receive jobs =>
    simp only [RouteSystem.step] at hst
    split at hst
    · rename_i hidle
      rw [← Option.some.inj hst]
      unfold Doing at h
      rw [hidle] at h
      exact ⟨[], by simp [hidle, EventTask.held, EventStage.job, received], h⟩
    · cases hst
  | event ok =>
    obtain ⟨ps, hps, hdoing⟩ := h.event (eventStep_moves hst)
    exact ⟨ps, by rw [← hps]; exact List.append_nil _, hdoing⟩
  | wake =>
    simp only [RouteSystem.step] at hst
    split at hst
    · rw [← Option.some.inj hst]
      exact ⟨[], by simp [received], h.congr rfl rfl⟩
    · cases hst
  | check ok =>
    obtain ⟨hlists, hevents, -⟩ := (checkStep_moves hst).frame
    exact ⟨[], by simp [received, hevents], h.congr hlists hevents⟩
  | outside table =>
    rw [← Option.some.inj hst]
    exact ⟨[], by simp [received], h.congr rfl rfl⟩

theorem received_cons (a : RouteSystemAction) (as : List RouteSystemAction) :
    received (a :: as) = received [a] ++ received as := by
  cases a <;> simp [received]

/-- **Every run**, in the terms of the jobs: those that are done were done one after the other. -/
theorem Doing.run {as : List RouteSystemAction} (h : Doing base s)
    (hrun : Run.run RouteSystem.step s as = some t) :
    ∃ ps : List (RouteJob × AddReplies),
      s.events.held ++ received as = ps.map Prod.fst ++ t.events.held ∧
        Doing (ps.foldl handleJob base) t := by
  induction as generalizing s base with
  | nil =>
    rw [Run.run_nil] at hrun
    rw [← Option.some.inj hrun]
    exact ⟨[], by simp [received], h⟩
  | cons a as ih =>
    obtain ⟨u, hu, hrest⟩ := Run.run_cons_eq_some.mp hrun
    obtain ⟨ps, hps, hdoing⟩ := h.step hu
    obtain ⟨qs, hqs, hend⟩ := ih hdoing hrest
    refine ⟨ps ++ qs, ?_, by rw [List.foldl_append]; exact hend⟩
    rw [received_cons, ← List.append_assoc, hps, List.append_assoc, hqs, List.map_append,
      List.append_assoc]

/-- **The tracked lists in every interleaving.**  Let the two tasks and everyone else on the host
take any steps, and let the event loop be done with the events it received.  Then the
lists are those that `handle_subnet_events` makes of these events one after the other, with some
answers of the kernel: neither the check nor the others can make more of them. -/
theorem interleaved_lists_refine (nw : RouteNetwork) (table : List RouteMessage)
    (evts : List Event) (as : List RouteSystemAction)
    (hevts : received as = evts.flatMap (eventJobs nw)) (s : RouteSystem)
    (hrun : Run.run RouteSystem.step (start table) as = some s) (hidle : s.events = ⟨.next, []⟩) :
    ∃ batch, batch.map Prod.fst = evts ∧ s.lists = (handleSubnetEvents nw ⟨[], []⟩ batch).1 := by
  have hstart : Doing ⟨[], []⟩ (start table) := rfl
  obtain ⟨ps, hps, hdoing⟩ := hstart.run hrun
  have hjobs : ps.map Prod.fst = evts.flatMap (eventJobs nw) := by
    rw [← hevts]
    simpa [hidle, start, EventTask.held, EventStage.job] using hps.symm
  obtain ⟨batch, hbatch, hlists⟩ := handleSubnetEvents_of_jobs nw ⟨[], []⟩ evts ps hjobs
  refine ⟨batch, hbatch, ?_⟩
  unfold Doing at hdoing
  rw [hidle] at hdoing
  rw [hlists]
  exact hdoing

example :
    ∃ s batch, Run.run RouteSystem.step (start []) overtaken = some s ∧
      batch.map Prod.fst = [⟨.added, peerBefore⟩, ⟨.removed, peerBefore⟩] ∧
      s.lists = (handleSubnetEvents (hostgwNetwork 2 true false) ⟨[], []⟩ batch).1 := by
  obtain ⟨batch, hbatch, hlists⟩ := interleaved_lists_refine (hostgwNetwork 2 true false) []
    [⟨.added, peerBefore⟩, ⟨.removed, peerBefore⟩] overtaken (by decide) _ rfl (by decide)
  exact ⟨_, batch, rfl, hbatch, hlists⟩

end Refinement

end RouteSystem

end Flannel
