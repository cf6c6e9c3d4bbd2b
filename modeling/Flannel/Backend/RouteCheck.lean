import Flannel.Backend.RouteTracking

/-!
# The event loop and the route check over one routing table

`run_route_network` runs two tasks beside each other: the loop over the lease events, which
tracks, installs and withdraws routes, and `route_check`, which every ten seconds installs again
what is tracked and missing.  They share the tracked lists under a lock, and the routing table of
the kernel, which they share with everyone on the host.

The lock is held for single accesses only.  The check copies the list, asks the kernel for its
routes, and installs what it finds missing, one request after the other; the loop may do
anything in between.  So the steps of the system are the moments at which one of the tasks touches
the list or has an answer of the kernel, and they come in any order.

The kernel's part of a step is its answer, `true` if it can do what it is asked.  A dump of
the table counts as one moment.  A route is kept under its network, and one of length zero is
listed without a destination; so a route is found again exactly if it leads to a network of
positive length (`RouteSpec.Proper`).

Two things follow.  A round of the check brings back every route it copied that nobody takes away.
And a route that was withdrawn comes back exactly if a check that copied the list
before still has it before it: the check does not look at the list again, and what it then
installs is tracked by nobody.
-/

namespace Flannel

open KeyedList LeaseWatcher

/-! ## The routing table -/

/-- `ip4_of`. -/
def ip4Of : IpAddr → IP4
  | .v4 a => a
  | .v6 _ => default

/-- `ip6_of`. -/
def ip6Of : IpAddr → IP6
  | .v6 a => a
  | .v4 _ => default

/-- `RouteSpec::to_message`. -/
def RouteSpec.toMessage (r : RouteSpec) : RouteMessage :=
  match r.family with
  | .inet =>
    { addressFamily := .inet
      destinationPrefixLength := r.prefixLen
      dst := some (.v4 (ip4Of r.dst))
      gateway := match r.gateway with
        | .v4 g => some (.v4 g)
        | .v6 _ => none
      oif := some r.linkIndex }
  | _ =>
    { addressFamily := .inet6
      destinationPrefixLength := r.prefixLen
      dst := some (.v6 (ip6Of r.dst))
      gateway := match r.gateway with
        | .v6 g => some (.v6 g)
        | .v4 _ => none
      oif := some r.linkIndex }

/-- An address without the bits behind a prefix. -/
def IpAddr.masked (len : Nat) : IpAddr → IpAddr
  | .v4 a => .v4 (IP4Net.network ⟨a, len⟩).ip
  | .v6 a => .v6 (IP6Net.network ⟨a, len⟩).ip

/-- A route as the kernel keeps it. -/
def RouteMessage.kept (m : RouteMessage) : RouteMessage :=
  if m.destinationPrefixLength = 0 then { m with dst := none }
  else { m with dst := m.dst.map (IpAddr.masked m.destinationPrefixLength) }

/-- A route that the kernel lists as what it was added. -/
def RouteSpec.Proper (r : RouteSpec) : Prop := routeMsgMatches r.toMessage.kept r = true

instance (r : RouteSpec) : Decidable r.Proper := inferInstanceAs (Decidable (_ = true))

/-- The kernel has the route. -/
def hasRoute (table : List RouteMessage) (r : RouteSpec) : Bool :=
  table.any fun m => routeMsgMatches m r

/-- A request to add a route.  It is exclusive: what is there already is refused. -/
def tableAdd (table : List RouteMessage) (r : RouteSpec) (ok : Bool) : Option (List RouteMessage) :=
  if ok && !table.contains r.toMessage.kept then some (table ++ [r.toMessage.kept]) else none

/-- A request to delete a route. -/
def tableDel (table : List RouteMessage) (m : RouteMessage) (ok : Bool) :
    Option (List RouteMessage) :=
  if ok && table.contains m then some (table.erase m) else none

/-- The answer to a dump of the table. -/
def answered (table : List RouteMessage) (ok : Bool) : Option (List RouteMessage) :=
  if ok then some table else none

/-! ## The two tasks -/

/-- What an event asks for in one family. -/
structure RouteJob where
  eventType : EventType
  family : AddressFamily
  route : RouteSpec
  deriving DecidableEq, Repr

/-- Where the event loop is: between two jobs, or at one of the awaits of `route_add` or of a
withdrawal. -/
inductive EventStage where
  | next
  | listing (job : RouteJob)
  | deleting (job : RouteJob) (first : RouteMessage)
  | untracking (job : RouteJob) (first : RouteMessage)
  | relisting (job : RouteJob)
  | adding (job : RouteJob)
  | confirming (job : RouteJob)
  | withdrawing (job : RouteJob)
  deriving DecidableEq, Repr

/-- The event loop: its place, and the jobs it has left of the batch. -/
structure EventTask where
  stage : EventStage
  jobs : List RouteJob
  deriving DecidableEq, Repr

/-- `route_check`: it sleeps, or it is in `check_subnet_exist_in_routes` for one of the
families. -/
inductive CheckTask where
  | asleep
  | copying (family : AddressFamily)
  | dumping (family : AddressFamily) (routes : List RouteSpec)
  | adding (family : AddressFamily) (rest : List RouteSpec)
  deriving DecidableEq, Repr

/-- The tracked list of a family. -/
def RouteLists.of (s : RouteLists) : AddressFamily → List RouteSpec
  | .inet => s.routes
  | _ => s.v6Routes

/-- The lists with that of a family changed. -/
def RouteLists.set (s : RouteLists) (family : AddressFamily) (routes : List RouteSpec) :
    RouteLists :=
  match family with
  | .inet => { s with routes := routes }
  | _ => { s with v6Routes := routes }

/-- The network of `run_route_network`: the lists, the kernel's table and the two tasks. -/
structure RouteSystem where
  lists : RouteLists
  table : List RouteMessage
  events : EventTask
  check : CheckTask
  deriving DecidableEq, Repr

/-- What can happen. -/
inductive RouteSystemAction where
  | receive (jobs : List RouteJob)
  | event (ok : Bool)
  | wake
  | check (ok : Bool)
  | outside (table : List RouteMessage)
  deriving DecidableEq, Repr

namespace RouteSystem

/-- The next step of the event loop. -/
def eventStep (s : RouteSystem) (ok : Bool) : Option RouteSystem :=
  let goto (stage : EventStage) : EventTask := { s.events with stage := stage }
  match s.events.stage with
  | .next =>
    match s.events.jobs with
    | [] => none
    | job :: jobs =>
      match job.eventType with
      | .added => some { s with
          lists := s.lists.set job.family (addToRouteList (s.lists.of job.family) job.route)
          events := ⟨.listing job, jobs⟩ }
      | .removed => some { s with
          lists := s.lists.set job.family (removeFromRouteList (s.lists.of job.family) job.route)
          events := ⟨.withdrawing job, jobs⟩ }
  | .listing job =>
    match (listRoutesByDst (answered s.table ok) job.family job.route).head? with
    | some first =>
      if !routeMsgMatches first job.route then some { s with events := goto (.deleting job first) }
      else some { s with events := goto (.relisting job) }
    | none => some { s with events := goto (.relisting job) }
  | .deleting job first =>
    match tableDel s.table first ok with
    | some table => some { s with table := table, events := goto (.untracking job first) }
    -- the error is logged and `route_add` returns
    | none => some { s with events := goto .next }
  | .untracking job first => some { s with
      lists := s.lists.set job.family (removeMsgFromRouteList (s.lists.of job.family) first)
      events := goto (.relisting job) }
  | .relisting job =>
    match (listRoutesByDst (answered s.table ok) job.family job.route).head? with
    | some first =>
      if routeMsgMatches first job.route then some { s with events := goto (.confirming job) }
      else some { s with events := goto (.adding job) }
    | none => some { s with events := goto (.adding job) }
  | .adding job =>
    match tableAdd s.table job.route ok with
    | some table => some { s with table := table, events := goto (.confirming job) }
    | none => some { s with events := goto .next }
  | .confirming _ => some { s with events := goto .next }
  | .withdrawing job => some { s with
      table := (tableDel s.table job.route.toMessage.kept ok).getD s.table
      events := goto .next }

/-- The next step of the check. -/
def checkStep (s : RouteSystem) (ok : Bool) : Option RouteSystem :=
  match s.check with
  | .asleep => none
  | .copying family => some { s with check := .dumping family (s.lists.of family) }
  | .dumping family routes => some { s with
      check := .adding family (checkSubnetExistInRoutes routes family (answered s.table ok)) }
  | .adding .inet [] => some { s with check := .copying .inet6 }
  | .adding _ [] => some { s with check := .asleep }
  | .adding family (r :: rest) => some { s with
      table := (tableAdd s.table r ok).getD s.table
      check := .adding family rest }

/-- One step.  A batch is received when the one before is done. -/
def step (s : RouteSystem) : RouteSystemAction → Option RouteSystem
  | .receive jobs =>
    if s.events = ⟨.next, []⟩ then some { s with events := ⟨.next, jobs⟩ } else none
  | .event ok => s.eventStep ok
  | .wake => if s.check = .asleep then some { s with check := .copying .inet } else none
  | .check ok => s.checkStep ok
  | .outside table => some { s with table := table }

/-- When `run_route_network` begins, on the host's table. -/
def start (table : List RouteMessage) : RouteSystem := ⟨⟨[], []⟩, table, ⟨.next, []⟩, .asleep⟩

/-! ## What a step of the event loop does -/

/-- The outcomes of a step of the event loop. -/
inductive EventMoves (s : RouteSystem) (ok : Bool) : RouteSystem → Prop
  | track (job : RouteJob) (jobs : List RouteJob) (hevents : s.events = ⟨.next, job :: jobs⟩)
      (htype : job.eventType = .added) :
      EventMoves s ok { s with
        lists := s.lists.set job.family (addToRouteList (s.lists.of job.family) job.route)
        events := ⟨.listing job, jobs⟩ }
  | untrack (job : RouteJob) (jobs : List RouteJob) (hevents : s.events = ⟨.next, job :: jobs⟩)
      (htype : job.eventType = .removed) :
      EventMoves s ok { s with
        lists := s.lists.set job.family (removeFromRouteList (s.lists.of job.family) job.route)
        events := ⟨.withdrawing job, jobs⟩ }
  | other (job : RouteJob) (first : RouteMessage) (hstage : s.events.stage = .listing job)
      (hhead : (listRoutesByDst (answered s.table ok) job.family job.route).head? = some first)
      (hno : routeMsgMatches first job.route = false) :
      EventMoves s ok { s with events := { s.events with stage := .deleting job first } }
  | noOther (job : RouteJob) (hstage : s.events.stage = .listing job)
      (hhead : ∀ first ∈ (listRoutesByDst (answered s.table ok) job.family job.route).head?,
        routeMsgMatches first job.route = true) :
      EventMoves s ok { s with events := { s.events with stage := .relisting job } }
  | deleted (job : RouteJob) (first : RouteMessage) (hstage : s.events.stage = .deleting job first)
      (table : List RouteMessage) (htable : tableDel s.table first ok = some table) :
      EventMoves s ok { s with
        table := table, events := { s.events with stage := .untracking job first } }
  | notDeleted (job : RouteJob) (first : RouteMessage)
      (hstage : s.events.stage = .deleting job first) (htable : tableDel s.table first ok = none) :
      EventMoves s ok { s with events := { s.events with stage := .next } }
  | forget (job : RouteJob) (first : RouteMessage)
      (hstage : s.events.stage = .untracking job first) :
      EventMoves s ok { s with
        lists := s.lists.set job.family (removeMsgFromRouteList (s.lists.of job.family) first)
        events := { s.events with stage := .relisting job } }
  | there (job : RouteJob) (hstage : s.events.stage = .relisting job) :
      EventMoves s ok { s with events := { s.events with stage := .confirming job } }
  | notThere (job : RouteJob) (hstage : s.events.stage = .relisting job) :
      EventMoves s ok { s with events := { s.events with stage := .adding job } }
  | added (job : RouteJob) (hstage : s.events.stage = .adding job) (table : List RouteMessage)
      (htable : tableAdd s.table job.route ok = some table) :
      EventMoves s ok { s with
        table := table, events := { s.events with stage := .confirming job } }
  | notAdded (job : RouteJob) (hstage : s.events.stage = .adding job)
      (htable : tableAdd s.table job.route ok = none) :
      EventMoves s ok { s with events := { s.events with stage := .next } }
  | done (job : RouteJob) (hstage : s.events.stage = .confirming job) :
      EventMoves s ok { s with events := { s.events with stage := .next } }
  | withdrawn (job : RouteJob) (hstage : s.events.stage = .withdrawing job) :
      EventMoves s ok { s with
        table := (tableDel s.table job.route.toMessage.kept ok).getD s.table
        events := { s.events with stage := .next } }

theorem eventStep_moves {s t : RouteSystem} {ok : Bool} (h : s.eventStep ok = some t) :
    EventMoves s ok t := by
  unfold eventStep at h
  cases hstage : s.events.stage with
  | next =>
    have hevents : s.events = ⟨.next, s.events.jobs⟩ := by rw [← hstage]
    cases hjobs : s.events.jobs with
    | nil => simp [hstage, hjobs] at h
    | cons job jobs =>
      rw [hjobs] at hevents
      cases htype : job.eventType with
      | added =>
        simp only [hstage, hjobs, htype, Option.some.injEq] at h
        exact h ▸ .track job jobs hevents htype
      | removed =>
        simp only [hstage, hjobs, htype, Option.some.injEq] at h
        exact h ▸ .untrack job jobs hevents htype
  | listing job =>
    simp only [hstage] at h
    cases hhead : (listRoutesByDst (answered s.table ok) job.family job.route).head? with
    | none =>
      simp only [hhead, Option.some.injEq] at h
      exact h ▸ .noOther job hstage (by simp [hhead])
    | some first =>
      cases hmatch : routeMsgMatches first job.route with
      | true =>
        simp only [hhead, hmatch] at h
        exact Option.some.inj h ▸ .noOther job hstage (by simp [hhead, hmatch])
      | false =>
        simp only [hhead, hmatch] at h
        exact Option.some.inj h ▸ .other job first hstage hhead hmatch
  | deleting job first =>
    simp only [hstage] at h
    cases htable : tableDel s.table first ok with
    | none =>
      simp only [htable, Option.some.injEq] at h
      exact h ▸ .notDeleted job first hstage htable
    | some table =>
      simp only [htable, Option.some.injEq] at h
      exact h ▸ .deleted job first hstage table htable
  | untracking job first =>
    simp only [hstage, Option.some.injEq] at h
    exact h ▸ .forget job first hstage
  | relisting job =>
    simp only [hstage] at h
    split at h
    · split at h
      · exact Option.some.inj h ▸ .there job hstage
      · exact Option.some.inj h ▸ .notThere job hstage
    · exact Option.some.inj h ▸ .notThere job hstage
  | adding job =>
    simp only [hstage] at h
    cases htable : tableAdd s.table job.route ok with
    | none =>
      simp only [htable, Option.some.injEq] at h
      exact h ▸ .notAdded job hstage htable
    | some table =>
      simp only [htable, Option.some.injEq] at h
      exact h ▸ .added job hstage table htable
  | confirming job =>
    simp only [hstage, Option.some.injEq] at h
    exact h ▸ .done job hstage
  | withdrawing job =>
    simp only [hstage, Option.some.injEq] at h
    exact h ▸ .withdrawn job hstage

end RouteSystem

/-! ## Routes in lists and in the table -/

section Tables

variable {table table' : List RouteMessage} {q r : RouteSpec} {m : RouteMessage} {ok : Bool}

theorem mem_of_mem_addToRouteList {routes : List RouteSpec} {x : RouteSpec}
    (h : x ∈ addToRouteList routes r) : x ∈ routes ∨ x = r := by
  unfold addToRouteList at h
  split at h
  · exact Or.inl h
  · simpa using h

theorem RouteLists.of_set (s : RouteLists) (f g : AddressFamily) (routes : List RouteSpec) :
    (s.set f routes).of g = routes ∧ s.of f = s.of g ∨ (s.set f routes).of g = s.of g := by
  cases f <;> cases g <;> simp [RouteLists.set, RouteLists.of]

theorem RouteLists.of_set_self (s : RouteLists) (f : AddressFamily) (routes : List RouteSpec) :
    (s.set f routes).of f = routes := by
  cases f <;> rfl

theorem RouteLists.set_set (s : RouteLists) (f : AddressFamily) (routes routes' : List RouteSpec) :
    (s.set f routes).set f routes' = s.set f routes' := by
  cases f <;> rfl

theorem hasRoute_iff : hasRoute table r = true ↔ ∃ m ∈ table, routeMsgMatches m r = true := by
  rw [hasRoute, List.any_eq_true]

/-- Equal routes match the same messages. -/
theorem routeMsgMatches_congr (h : routeSpecEqual q r = true) :
    routeMsgMatches m q = routeMsgMatches m r := by
  simp only [routeSpecEqual, Bool.and_eq_true, beq_iff_eq] at h
  obtain ⟨⟨⟨hdst, hlen⟩, hgateway⟩, hlink⟩ := h
  rw [routeMsgMatches, routeMsgMatches, hdst, hlen, hgateway, hlink]

/-- The message of a proper route matches the routes equal to it. -/
theorem matches_kept_iff (hq : q.Proper) :
    routeMsgMatches q.toMessage.kept r = true ↔ routeSpecEqual q r = true := by
  constructor
  · exact routeSpecEqual_of_msg hq
  · intro h
    rw [← routeMsgMatches_congr h]
    exact hq

theorem hasRoute_add (hq : q.Proper) (h : tableAdd table q ok = some table') :
    hasRoute table' r = true ↔ hasRoute table r = true ∨ routeSpecEqual q r = true := by
  unfold tableAdd at h
  split at h
  · rw [← Option.some.inj h, ← matches_kept_iff hq]
    simp [hasRoute]
  · cases h

/-- A route that the kernel is able to add is there afterwards. -/
theorem hasRoute_of_tableAdd (hq : q.Proper) :
    hasRoute ((tableAdd table q true).getD table) q = true := by
  have hmsg : routeMsgMatches q.toMessage.kept q = true := hq
  rw [hasRoute_iff]
  by_cases hmem : q.toMessage.kept ∈ table
  · exact ⟨q.toMessage.kept, by simp [tableAdd, hmem], hmsg⟩
  · exact ⟨q.toMessage.kept, by simp [tableAdd, hmem], hmsg⟩

theorem eq_erase_of_tableDel (h : tableDel table m ok = some table') : table' = table.erase m := by
  unfold tableDel at h
  split at h
  · exact (Option.some.inj h).symm
  · cases h

theorem hasRoute_of_tableDel (h : tableDel table m ok = some table')
    (hr : hasRoute table' r = true) : hasRoute table r = true := by
  rw [eq_erase_of_tableDel h] at hr
  obtain ⟨m', hm', hmatch⟩ := hasRoute_iff.mp hr
  exact hasRoute_iff.mpr ⟨m', List.mem_of_mem_erase hm', hmatch⟩

/-- A route stays when a message that does not match it is deleted. -/
theorem hasRoute_tableDel (h : tableDel table m ok = some table')
    (hm : routeMsgMatches m r = false) (hr : hasRoute table r = true) :
    hasRoute table' r = true := by
  rw [eq_erase_of_tableDel h]
  obtain ⟨m', hm', hmatch⟩ := hasRoute_iff.mp hr
  have hne : m' ≠ m := by
    rintro rfl
    rw [hm] at hmatch
    cases hmatch
  exact hasRoute_iff.mpr ⟨m', (List.mem_erase_of_ne hne).mpr hm', hmatch⟩

/-- What the check installs again: the routes that the dump does not have. -/
theorem mem_of_mem_check {routes : List RouteSpec} {f : AddressFamily}
    {listed : Option (List RouteMessage)} (h : r ∈ checkSubnetExistInRoutes routes f listed) :
    r ∈ routes := by
  unfold checkSubnetExistInRoutes at h
  split at h
  · cases h
  · exact List.mem_of_mem_filter h

theorem mem_check_of_missing {routes : List RouteSpec} {f : AddressFamily} (h : q ∈ routes)
    (hmissing : hasRoute table q = false) :
    q ∈ checkSubnetExistInRoutes routes f (some table) := by
  simp only [checkSubnetExistInRoutes, List.mem_filter, h, true_and, Bool.not_eq_true']
  rw [← Bool.not_eq_true, List.any_eq_true]
  rintro ⟨m, hm, hmatch⟩
  have hlisted : m ∈ table := List.mem_of_mem_filter hm
  rw [hasRoute, List.any_eq_false] at hmissing
  rw [Bool.and_eq_true] at hmatch
  exact hmissing m hlisted hmatch.2

end Tables

/-! ## What the tasks have in hand -/

/-- The job of a stage. -/
def EventStage.job : EventStage → Option RouteJob
  | .next => none
  | .listing job => some job
  | .deleting job _ => some job
  | .untracking job _ => some job
  | .relisting job => some job
  | .adding job => some job
  | .confirming job => some job
  | .withdrawing job => some job

/-- The jobs the event loop has in hand. -/
def EventTask.held (e : EventTask) : List RouteJob := e.stage.job.toList ++ e.jobs

/-- The routes the check has in hand: those it copied, and later those it is going to
install. -/
def CheckTask.pending : CheckTask → List RouteSpec
  | .asleep => []
  | .copying _ => []
  | .dumping _ routes => routes
  | .adding _ rest => rest

/-- A stage fits its job: a route is installed for an `Added` event, and what is deleted before
leads to the same network. -/
def EventStage.Fits : EventStage → Prop
  | .next => True
  | .listing job => job.eventType = .added
  | .deleting job first => job.eventType = .added ∧ first.dst = some job.route.dst ∧
      first.destinationPrefixLength = job.route.prefixLen
  | .untracking job _ => job.eventType = .added
  | .relisting job => job.eventType = .added
  | .adding job => job.eventType = .added
  | .confirming job => job.eventType = .added
  | .withdrawing job => job.eventType = .removed

/-- The jobs of a batch have proper routes. -/
def RouteSystemAction.Proper : RouteSystemAction → Prop
  | .receive jobs => ∀ job ∈ jobs, job.route.Proper
  | _ => True

namespace RouteSystem

/-- Every route the system has in hand is proper. -/
structure Sound (s : RouteSystem) : Prop where
  tracked : ∀ f, ∀ x ∈ s.lists.of f, x.Proper
  jobs : ∀ job ∈ s.events.held, job.route.Proper
  pending : ∀ x ∈ s.check.pending, x.Proper
  stage : s.events.stage.Fits

section Steps

variable {s t : RouteSystem} {a : RouteSystemAction} {r : RouteSpec} {ok : Bool}

/-- The event loop leaves the check alone, takes no new jobs, and tracks only routes of
`Added` jobs. -/
theorem EventMoves.frame (h : EventMoves s ok t) :
    t.check = s.check ∧ (∀ job ∈ t.events.held, job ∈ s.events.held) ∧
      ∀ f, ∀ x ∈ t.lists.of f, x ∈ s.lists.of f ∨
        ∃ job ∈ s.events.held, job.eventType = .added ∧ x = job.route := by
  have hsame : ∀ f, ∀ x ∈ s.lists.of f, x ∈ s.lists.of f ∨
      ∃ job ∈ s.events.held, job.eventType = .added ∧ x = job.route := fun _ _ hx => Or.inl hx
  -- a list of which something was taken away
  have hless : ∀ (p : RouteSpec → Bool) (g f : AddressFamily), ∀ x ∈
      (s.lists.set g ((s.lists.of g).eraseP p)).of f, x ∈ s.lists.of f ∨
        ∃ job ∈ s.events.held, job.eventType = .added ∧ x = job.route := by
    intro p g f x hx
    rcases s.lists.of_set g f ((s.lists.of g).eraseP p) with ⟨hof, hfam⟩ | hof
    · rw [hof] at hx
      exact Or.inl (hfam ▸ List.mem_of_mem_eraseP hx)
    · exact Or.inl (hof ▸ hx)
  cases h with
  | track job jobs hevents htype =>
    have hmem : job ∈ s.events.held := by simp [hevents, EventTask.held, EventStage.job]
    refine ⟨rfl, by simp [hevents, EventTask.held, EventStage.job], fun f x hx => ?_⟩
    rcases s.lists.of_set job.family f (addToRouteList (s.lists.of job.family) job.route)
      with ⟨hof, hfam⟩ | hof
    · rw [hof] at hx
      rcases mem_of_mem_addToRouteList hx with hx | rfl
      · exact Or.inl (hfam ▸ hx)
      · exact Or.inr ⟨job, hmem, htype, rfl⟩
    · exact Or.inl (hof ▸ hx)
  | untrack job jobs hevents htype =>
    exact ⟨rfl, by simp [hevents, EventTask.held, EventStage.job], hless _ _⟩
  | other job first hstage => exact ⟨rfl, by simp [hstage, EventTask.held, EventStage.job], hsame⟩
  | noOther job hstage => exact ⟨rfl, by simp [hstage, EventTask.held, EventStage.job], hsame⟩
  | deleted job first hstage => exact ⟨rfl, by simp [hstage, EventTask.held, EventStage.job], hsame⟩
  | notDeleted job first hstage =>
    exact ⟨rfl, by simp +contextual [hstage, EventTask.held, EventStage.job], hsame⟩
  | forget job first hstage =>
    exact ⟨rfl, by simp [hstage, EventTask.held, EventStage.job], hless _ _⟩
  | there job hstage => exact ⟨rfl, by simp [hstage, EventTask.held, EventStage.job], hsame⟩
  | notThere job hstage => exact ⟨rfl, by simp [hstage, EventTask.held, EventStage.job], hsame⟩
  | added job hstage => exact ⟨rfl, by simp [hstage, EventTask.held, EventStage.job], hsame⟩
  | notAdded job hstage =>
    exact ⟨rfl, by simp +contextual [hstage, EventTask.held, EventStage.job], hsame⟩
  | done job hstage =>
    exact ⟨rfl, by simp +contextual [hstage, EventTask.held, EventStage.job], hsame⟩
  | withdrawn job hstage =>
    exact ⟨rfl, by simp +contextual [hstage, EventTask.held, EventStage.job], hsame⟩

theorem EventMoves.fits (h : EventMoves s ok t) (hfits : s.events.stage.Fits) :
    t.events.stage.Fits := by
  cases h with
  | track job jobs hevents htype => exact htype
  | untrack job jobs hevents htype => exact htype
  | other job first hstage hhead =>
    rw [hstage] at hfits
    have hmem := List.mem_of_mem_head? hhead
    rw [listRoutesByDst, List.mem_filter, Bool.and_eq_true, beq_iff_eq, beq_iff_eq] at hmem
    exact ⟨hfits, hmem.2⟩
  | noOther job hstage =>
    rw [hstage] at hfits
    exact hfits
  | deleted job first hstage =>
    rw [hstage] at hfits
    exact hfits.1
  | notDeleted => trivial
  | forget job first hstage =>
    rw [hstage] at hfits
    exact hfits
  | there job hstage =>
    rw [hstage] at hfits
    exact hfits
  | notThere job hstage =>
    rw [hstage] at hfits
    exact hfits
  | added job hstage =>
    rw [hstage] at hfits
    exact hfits
  | notAdded => trivial
  | done => trivial
  | withdrawn => trivial

/-- What the event loop does to the table: nothing, or it deletes a message of the network of a
job, or it adds the route of an `Added` job. -/
theorem Sound.event_table (hs : s.Sound) (h : EventMoves s ok t) :
    t.table = s.table ∨
      (∃ m, tableDel s.table m ok = some t.table ∧ ∃ job ∈ s.events.held,
        ∀ r, routeMsgMatches m r = true → r.destination = job.route.destination) ∨
      ∃ job ∈ s.events.held, job.eventType = .added ∧
        tableAdd s.table job.route ok = some t.table := by
  have hfits := hs.stage
  cases h with
  | deleted job first hstage table htable =>
    rw [hstage] at hfits
    refine Or.inr (Or.inl ⟨first, htable, job, ?_, fun r hr => ?_⟩)
    · simp [hstage, EventTask.held, EventStage.job]
    · obtain ⟨hdst, hlen, -⟩ := routeMsgMatches_iff.mp hr
      rw [RouteSpec.destination, RouteSpec.destination,
        Option.some.inj (hdst.symm.trans hfits.2.1), ← hlen, hfits.2.2]
  | added job hstage table htable =>
    rw [hstage] at hfits
    refine Or.inr (Or.inr ⟨job, ?_, hfits, htable⟩)
    simp [hstage, EventTask.held, EventStage.job]
  | withdrawn job hstage =>
    have hmem : job ∈ s.events.held := by simp [hstage, EventTask.held, EventStage.job]
    cases htable : tableDel s.table job.route.toMessage.kept ok with
    | none => exact Or.inl rfl
    | some table =>
      refine Or.inr (Or.inl ⟨job.route.toMessage.kept, htable, job, hmem, fun r hr => ?_⟩)
      exact (routeSpecEqual_iff.mp ((matches_kept_iff (hs.jobs job hmem)).mp hr)).1.symm
  | _ => exact Or.inl rfl

/-- The outcomes of a step of the check. -/
inductive CheckMoves (s : RouteSystem) (ok : Bool) : RouteSystem → Prop
  | copied (f : AddressFamily) (hcheck : s.check = .copying f) :
      CheckMoves s ok { s with check := .dumping f (s.lists.of f) }
  | dumped (f : AddressFamily) (routes : List RouteSpec) (hcheck : s.check = .dumping f routes) :
      CheckMoves s ok { s with
        check := .adding f (checkSubnetExistInRoutes routes f (answered s.table ok)) }
  | ended (c : CheckTask) (hcheck : s.check.pending = []) (hpending : c.pending = []) :
      CheckMoves s ok { s with check := c }
  | recovered (f : AddressFamily) (q : RouteSpec) (rest : List RouteSpec)
      (hcheck : s.check = .adding f (q :: rest)) :
      CheckMoves s ok { s with
        table := (tableAdd s.table q ok).getD s.table, check := .adding f rest }

theorem checkStep_moves (h : s.checkStep ok = some t) : CheckMoves s ok t := by
  unfold checkStep at h
  split at h
  · cases h
  · rename_i f hcheck
    exact Option.some.inj h ▸ .copied f hcheck
  · rename_i f routes hcheck
    exact Option.some.inj h ▸ .dumped f routes hcheck
  · rename_i hcheck
    exact Option.some.inj h ▸ .ended _ (by rw [hcheck]; rfl) rfl
  · rename_i hcheck
    exact Option.some.inj h ▸ .ended _ (by rw [hcheck]; rfl) rfl
  · rename_i f q rest hcheck
    exact Option.some.inj h ▸ .recovered f q rest hcheck

/-- The check leaves the lists and the event loop alone, and has only routes in hand that it
had or that are tracked. -/
theorem CheckMoves.frame (h : CheckMoves s ok t) :
    t.lists = s.lists ∧ t.events = s.events ∧
      ∀ x ∈ t.check.pending, x ∈ s.check.pending ∨ ∃ f, x ∈ s.lists.of f := by
  cases h with
  | copied f hcheck => exact ⟨rfl, rfl, fun x hx => Or.inr ⟨f, hx⟩⟩
  | dumped f routes hcheck =>
    exact ⟨rfl, rfl, fun x hx => Or.inl (by rw [hcheck]; exact mem_of_mem_check hx)⟩
  | ended c hcheck hpending =>
    refine ⟨rfl, rfl, fun x hx => ?_⟩
    rw [show ({ s with check := c } : RouteSystem).check.pending = [] from hpending] at hx
    cases hx
  | recovered f q rest hcheck =>
    exact ⟨rfl, rfl, fun x hx => Or.inl (by rw [hcheck]; exact List.mem_cons_of_mem _ hx)⟩

/-- What the check does to the table: nothing, or it adds a route it has in hand. -/
theorem CheckMoves.table (h : CheckMoves s ok t) :
    t.table = s.table ∨ ∃ q ∈ s.check.pending, tableAdd s.table q ok = some t.table := by
  cases h with
  | recovered f q rest hcheck =>
    cases htable : tableAdd s.table q ok with
    | none => exact Or.inl rfl
    | some table => exact Or.inr ⟨q, by rw [hcheck]; exact List.mem_cons_self, htable⟩
  | _ => exact Or.inl rfl

/-- **One step keeps the system sound.** -/
theorem Sound.step (hs : s.Sound) (ha : a.Proper) (h : s.step a = some t) : t.Sound := by
  cases a with
  | receive jobs =>
    simp only [RouteSystem.step] at h
    split at h
    · rename_i hidle
      rw [← Option.some.inj h]
      exact ⟨hs.tracked, ha, hs.pending, trivial⟩
    · cases h
  | event ok =>
    have hmoves := eventStep_moves h
    obtain ⟨hcheck, hheld, hlists⟩ := hmoves.frame
    refine ⟨fun f x hx => ?_, fun job hjob => hs.jobs job (hheld job hjob), hcheck ▸ hs.pending,
      hmoves.fits hs.stage⟩
    rcases hlists f x hx with hx | ⟨job, hjob, -, rfl⟩
    · exact hs.tracked f x hx
    · exact hs.jobs job hjob
  | wake =>
    simp only [RouteSystem.step] at h
    split at h
    · rw [← Option.some.inj h]
      exact ⟨hs.tracked, hs.jobs, by simp [CheckTask.pending], hs.stage⟩
    · cases h
  | check ok =>
    obtain ⟨hlists, hevents, hpending⟩ := (checkStep_moves h).frame
    refine ⟨hlists ▸ hs.tracked, hevents ▸ hs.jobs, fun x hx => ?_, hevents ▸ hs.stage⟩
    rcases hpending x hx with hx | ⟨f, hx⟩
    · exact hs.pending x hx
    · exact hs.tracked f x hx
  | outside table =>
    rw [← Option.some.inj h]
    exact ⟨hs.tracked, hs.jobs, hs.pending, hs.stage⟩

theorem sound_start (table : List RouteMessage) : (start table).Sound := by
  refine ⟨fun f x hx => ?_, ?_, ?_, trivial⟩
  · cases f <;> cases hx
  · simp [start, EventTask.held, EventStage.job]
  · simp [start, CheckTask.pending]

theorem Sound.run (hs : s.Sound) {as : List RouteSystemAction} (has : ∀ a ∈ as, a.Proper)
    (h : Run.run RouteSystem.step s as = some t) : t.Sound :=
  Run.run_invariant (P := Sound) (Q := fun _ a => a.Proper) (fun _ _ _ hP hQ hst => hP.step hQ hst)
    hs (Run.along_of_forall has) h

/-! ## A route that was withdrawn -/

/-- Nobody but the check installs the route: there is no `Added` job for it, and nobody outside
brings it. -/
def Spares (r : RouteSpec) (s : RouteSystem) : RouteSystemAction → Prop
  | .receive jobs => ∀ job ∈ jobs, job.eventType = .added → routeSpecEqual job.route r = false
  | .outside table => hasRoute table r = true → hasRoute s.table r = true
  | _ => True

/-- Nobody has the route in hand. -/
structure Forgotten (r : RouteSpec) (s : RouteSystem) : Prop where
  untracked : ∀ f, ∀ x ∈ s.lists.of f, routeSpecEqual x r = false
  jobs : ∀ job ∈ s.events.held, job.eventType = .added → routeSpecEqual job.route r = false
  pending : ∀ x ∈ s.check.pending, routeSpecEqual x r = false
  missing : hasRoute s.table r = false

/-- Adding another route does not bring this one. -/
theorem Forgotten.missing_add (h : s.Forgotten r) {q : RouteSpec} (hq : q.Proper)
    (hother : routeSpecEqual q r = false) {table : List RouteMessage}
    (htable : tableAdd s.table q ok = some table) : hasRoute table r = false := by
  rw [← Bool.not_eq_true, hasRoute_add hq htable, h.missing, hother]
  simp

/-- **What nobody has in hand stays forgotten.** -/
theorem Forgotten.step (h : s.Forgotten r) (hs : s.Sound) (ha : Spares r s a)
    (hst : s.step a = some t) : t.Forgotten r := by
  cases a with
  | receive jobs =>
    simp only [RouteSystem.step] at hst
    split at hst
    · rw [← Option.some.inj hst]
      exact ⟨h.untracked, ha, h.pending, h.missing⟩
    · cases hst
  | event ok =>
    have hmoves := eventStep_moves hst
    obtain ⟨hcheck, hheld, hlists⟩ := hmoves.frame
    refine ⟨fun f x hx => ?_, fun job hjob => h.jobs job (hheld job hjob), hcheck ▸ h.pending, ?_⟩
    · rcases hlists f x hx with hx | ⟨job, hjob, htype, rfl⟩
      · exact h.untracked f x hx
      · exact h.jobs job hjob htype
    · rcases hs.event_table hmoves with htable | ⟨m, htable, -⟩ | ⟨job, hjob, htype, htable⟩
      · rw [htable]
        exact h.missing
      · rw [← Bool.not_eq_true]
        intro hr
        have hbefore := hasRoute_of_tableDel htable hr
        rw [h.missing] at hbefore
        cases hbefore
      · exact h.missing_add (hs.jobs job hjob) (h.jobs job hjob htype) htable
  | wake =>
    simp only [RouteSystem.step] at hst
    split at hst
    · rw [← Option.some.inj hst]
      exact ⟨h.untracked, h.jobs, by simp [CheckTask.pending], h.missing⟩
    · cases hst
  | check ok =>
    have hmoves := checkStep_moves hst
    obtain ⟨hlists, hevents, hpending⟩ := hmoves.frame
    refine ⟨hlists ▸ h.untracked, hevents ▸ h.jobs, fun x hx => ?_, ?_⟩
    · rcases hpending x hx with hx | ⟨f, hx⟩
      · exact h.pending x hx
      · exact h.untracked f x hx
    · rcases hmoves.table with htable | ⟨q, hq, htable⟩
      · rw [htable]
        exact h.missing
      · exact h.missing_add (hs.pending q hq) (h.pending q hq) htable
  | outside table =>
    rw [← Option.some.inj hst]
    refine ⟨h.untracked, h.jobs, h.pending, ?_⟩
    rw [← Bool.not_eq_true]
    intro hr
    have hbefore := ha hr
    rw [h.missing] at hbefore
    cases hbefore

/-- The check installs, one after the other, what it has in hand. -/
theorem run_check_adding {f : AddressFamily} (pre : List RouteSpec) (q : RouteSpec)
    (rest : List RouteSpec) (hcheck : s.check = .adding f (pre ++ q :: rest)) (hq : q.Proper) :
    ∃ t, Run.run RouteSystem.step s (List.replicate (pre.length + 1) (.check true)) = some t ∧
      hasRoute t.table q = true := by
  induction pre generalizing s with
  | nil =>
    refine ⟨{ s with
      table := (tableAdd s.table q true).getD s.table, check := .adding f rest }, ?_,
      hasRoute_of_tableAdd hq⟩
    simp [Run.run, RouteSystem.step, checkStep, hcheck]
  | cons p pre ih =>
    obtain ⟨t, hrun, hr⟩ := @ih { s with
      table := (tableAdd s.table p true).getD s.table, check := .adding f (pre ++ q :: rest) } rfl
    refine ⟨t, ?_, hr⟩
    rw [List.length_cons, List.replicate_succ, Run.run_cons_eq_some]
    exact ⟨_, by simp [RouteSystem.step, checkStep, hcheck], hrun⟩

theorem spares_check {n : Nat} :
    Run.Along RouteSystem.step (Spares r) s (List.replicate n (.check true)) := by
  induction n generalizing s with
  | zero => trivial
  | succ n ih => exact ⟨trivial, fun t _ => ih⟩

/-- A check that has the route in hand and finds it missing brings it. -/
theorem exists_run_of_pending (hs : s.Sound) {x : RouteSpec} (hx : x ∈ s.check.pending)
    (hmissing : hasRoute s.table x = false) :
    ∃ n t, Run.run RouteSystem.step s (List.replicate n (.check true)) = some t ∧
      hasRoute t.table x = true := by
  cases hcheck : s.check with
  | asleep =>
    rw [hcheck] at hx
    cases hx
  | copying f =>
    rw [hcheck] at hx
    cases hx
  | dumping f routes =>
    have hroutes : x ∈ routes := by
      rw [hcheck] at hx
      exact hx
    -- the dump does not have it
    have hrest := mem_check_of_missing (f := f) hroutes hmissing
    obtain ⟨pre, rest, hsplit⟩ := List.append_of_mem hrest
    obtain ⟨t, hrun, hr⟩ := run_check_adding (s := { s with
      check := .adding f (checkSubnetExistInRoutes routes f (some s.table)) }) pre x rest
      (by rw [hsplit]) (hs.pending x hx)
    refine ⟨pre.length + 1 + 1, t, ?_, hr⟩
    rw [List.replicate_succ, Run.run_cons_eq_some]
    exact ⟨_, by simp [RouteSystem.step, checkStep, hcheck, answered], hrun⟩
  | adding f rest =>
    have hrest : x ∈ rest := by
      rw [hcheck] at hx
      exact hx
    obtain ⟨pre, rest, rfl⟩ := List.append_of_mem hrest
    obtain ⟨t, hrun, hr⟩ := run_check_adding pre x rest hcheck (hs.pending x hx)
    exact ⟨pre.length + 1, t, hrun, hr⟩

/-! ## A route that nobody takes away -/

/-- No job of the event loop is about the network of the route. -/
def Away (r : RouteSpec) (s : RouteSystem) : Prop :=
  ∀ job ∈ s.events.held, job.route.destination ≠ r.destination

/-- Nobody takes the route away: no batch has an event of its network, and what others do
to the table leaves it. -/
def Leaves (r : RouteSpec) (s : RouteSystem) : RouteSystemAction → Prop
  | .receive jobs => ∀ job ∈ jobs, job.route.destination ≠ r.destination
  | .outside table => hasRoute s.table r = true → hasRoute table r = true
  | _ => True

theorem Away.step (h : Away r s) (ha : Leaves r s a) (hst : s.step a = some t) : Away r t := by
  cases a with
  | receive jobs =>
    simp only [RouteSystem.step] at hst
    split at hst
    · rw [← Option.some.inj hst]
      exact ha
    · cases hst
  | event ok => exact fun job hjob => h job ((eventStep_moves hst).frame.2.1 job hjob)
  | wake =>
    simp only [RouteSystem.step] at hst
    split at hst
    · rw [← Option.some.inj hst]
      exact h
    · cases hst
  | check ok =>
    rw [Away, (checkStep_moves hst).frame.2.1]
    exact h
  | outside table =>
    rw [← Option.some.inj hst]
    exact h

/-- **A route that is there stays.** -/
theorem hasRoute_step (hs : s.Sound) (haway : Away r s) (ha : Leaves r s a)
    (hr : hasRoute s.table r = true) (hst : s.step a = some t) : hasRoute t.table r = true := by
  cases a with
  | receive jobs =>
    simp only [RouteSystem.step] at hst
    split at hst
    · rw [← Option.some.inj hst]
      exact hr
    · cases hst
  | event ok =>
    rcases hs.event_table (eventStep_moves hst) with htable | ⟨m, htable, job, hjob, hm⟩ |
      ⟨job, hjob, -, htable⟩
    · rw [htable]
      exact hr
    · refine hasRoute_tableDel htable ?_ hr
      rw [← Bool.not_eq_true]
      exact fun hmatch => haway job hjob (hm r hmatch).symm
    · exact (hasRoute_add (hs.jobs job hjob) htable).mpr (Or.inl hr)
  | wake =>
    simp only [RouteSystem.step] at hst
    split at hst
    · rw [← Option.some.inj hst]
      exact hr
    · cases hst
  | check ok =>
    rcases (checkStep_moves hst).table with htable | ⟨q, hq, htable⟩
    · rw [htable]
      exact hr
    · exact (hasRoute_add (hs.pending q hq) htable).mpr (Or.inl hr)
  | outside table =>
    rw [← Option.some.inj hst]
    exact ha hr

/-- A route that is there, or that a check is going to look for. -/
def Coming (r : RouteSpec) (s : RouteSystem) : Prop :=
  hasRoute s.table r = true ∨ r ∈ s.check.pending

/-- **A check does not lose what it has in hand**, if the kernel is able to do what it asks. -/
theorem Coming.step (h : Coming r s) (hs : s.Sound) (haway : Away r s) (ha : Leaves r s a)
    (hok : ∀ ok, a = .check ok → ok = true) (hst : s.step a = some t) : Coming r t := by
  by_cases hr : hasRoute s.table r = true
  · exact Or.inl (hasRoute_step hs haway ha hr hst)
  have hpending : r ∈ s.check.pending := h.resolve_left hr
  cases a with
  | receive jobs =>
    simp only [RouteSystem.step] at hst
    split at hst
    · rw [← Option.some.inj hst]
      exact Or.inr hpending
    · cases hst
  | event ok => exact Or.inr ((eventStep_moves hst).frame.1 ▸ hpending)
  | wake =>
    simp only [RouteSystem.step] at hst
    split at hst
    · rename_i hasleep
      rw [hasleep] at hpending
      cases hpending
    · cases hst
  | check ok =>
    cases hok ok rfl
    cases checkStep_moves hst with
    | copied f hcheck =>
      rw [hcheck] at hpending
      cases hpending
    | dumped f routes hcheck =>
      rw [hcheck] at hpending
      exact Or.inr (mem_check_of_missing hpending (by simpa using hr))
    | ended c hcheck =>
      rw [hcheck] at hpending
      cases hpending
    | recovered f q rest hcheck =>
      rw [hcheck] at hpending
      rcases List.mem_cons.mp hpending with rfl | hrest
      · exact Or.inl (hasRoute_of_tableAdd (hs.pending r (by rw [hcheck]; exact hpending)))
      · exact Or.inr hrest
  | outside table =>
    rw [← Option.some.inj hst]
    exact Or.inr hpending

end Steps

/-! ## Every run -/

/-- **When a withdrawn route comes back.**  In every state that the two tasks and everyone else on
the host can reach, let a route be tracked by nobody and missing in the kernel, and no job in
hand be about its network.  Then it can come back without an `Added` event for it exactly if a
check under way has it in hand.  And once it is back, nothing takes it away but an event
of its network or someone outside: the check does not. -/
theorem withdrawn_route_returns_iff (table : List RouteMessage) (as : List RouteSystemAction)
    (has : ∀ a ∈ as, a.Proper) (s : RouteSystem)
    (hrun : Run.run step (start table) as = some s) (r : RouteSpec)
    (huntracked : ∀ f, ∀ x ∈ s.lists.of f, routeSpecEqual x r = false) (haway : Away r s)
    (hmissing : hasRoute s.table r = false) :
    ((∃ bs t, (∀ b ∈ bs, b.Proper) ∧ Run.Along step (Spares r) s bs ∧ Run.run step s bs = some t ∧
        hasRoute t.table r = true) ↔ ∃ x ∈ s.check.pending, routeSpecEqual x r = true) ∧
      ∀ bs t cs u, (∀ b ∈ bs ++ cs, b.Proper) → Run.Along step (Leaves r) s (bs ++ cs) →
        Run.run step s bs = some t → hasRoute t.table r = true → Run.run step t cs = some u →
        hasRoute u.table r = true := by
  have hs : s.Sound := (sound_start table).run has hrun
  refine ⟨⟨?_, ?_⟩, ?_⟩
  · rintro ⟨bs, t, hbs, hspares, ht, hr⟩
    by_contra hno
    have hforgotten : s.Forgotten r := by
      refine ⟨huntracked, fun job hjob _ => ?_, fun x hx => ?_, hmissing⟩
      · rw [← Bool.not_eq_true]
        exact fun heq => haway job hjob (routeSpecEqual_iff.mp heq).1
      · rw [← Bool.not_eq_true]
        exact fun heq => hno ⟨x, hx, heq⟩
    have hend : t.Sound ∧ t.Forgotten r :=
      Run.run_invariant (P := fun u => u.Sound ∧ u.Forgotten r)
        (fun u a v hP hQ hst => ⟨hP.1.step hQ.2 hst, hP.2.step hP.1 hQ.1 hst⟩) ⟨hs, hforgotten⟩
        (hspares.and (Run.along_of_forall hbs)) ht
    rw [hend.2.missing] at hr
    cases hr
  · rintro ⟨x, hx, heq⟩
    have hsame : ∀ u : RouteSystem, hasRoute u.table x = hasRoute u.table r := by
      intro u
      simp only [hasRoute, routeMsgMatches_congr heq]
    obtain ⟨n, t, ht, hr⟩ := exists_run_of_pending hs hx ((hsame s).trans hmissing)
    refine ⟨List.replicate n (.check true), t, ?_, spares_check, ht, (hsame t).symm.trans hr⟩
    intro b hb
    rw [List.eq_of_mem_replicate hb]
    trivial
  · intro bs t cs u hproper hleaves ht hr hu
    have hboth : u.Sound ∧ Away r u ∧ (hasRoute u.table r = true) := by
      have hmid : t.Sound ∧ Away r t := by
        refine Run.run_invariant (P := fun v => v.Sound ∧ Away r v)
          (fun v a w hP hQ hst => ⟨hP.1.step hQ.2 hst, hP.2.step hQ.1 hst⟩) ⟨hs, haway⟩
          ((Run.along_append.mp hleaves).1.and (Run.along_of_forall fun b hb => ?_)) ht
        exact hproper b (List.mem_append_left cs hb)
      refine Run.run_invariant (P := fun v => v.Sound ∧ Away r v ∧ hasRoute v.table r = true)
        (fun v a w hP hQ hst => ⟨hP.1.step hQ.2 hst, hP.2.1.step hQ.1 hst,
          hasRoute_step hP.1 hP.2.1 hQ.1 hP.2.2 hst⟩) ⟨hmid.1, hmid.2, hr⟩
        (((Run.along_append.mp hleaves).2 t ht).and (Run.along_of_forall fun b hb => ?_)) hu
      exact hproper b (List.mem_append_right bs hb)
    exact hboth.2.2

/-- The events of a peer that comes and leaves, with a check that copies the list while the route
is being installed. -/
def overtaken : List RouteSystemAction :=
  [.receive [⟨.added, .inet, hostgwGetRoute 2 peerBefore⟩], .event true, .wake, .check true,
    .check true, .event true, .event true, .event true, .event true,
    .receive [⟨.removed, .inet, hostgwGetRoute 2 peerBefore⟩], .event true, .event true]

/-- The check brings the route of a peer that is gone. -/
example :
    ∃ s, Run.run step (start []) overtaken = some s ∧ s.lists = ⟨[], []⟩ ∧ s.table = [] ∧
      ∃ bs t, Run.Along step (Spares (hostgwGetRoute 2 peerBefore)) s bs ∧
        Run.run step s bs = some t ∧ hasRoute t.table (hostgwGetRoute 2 peerBefore) = true := by
  have hproper : ∀ a ∈ overtaken, a.Proper := by
    have hroute : (hostgwGetRoute 2 peerBefore).Proper := by decide
    simp [overtaken, RouteSystemAction.Proper, hroute]
  obtain ⟨bs, t, -, hspares, ht, hr⟩ := (withdrawn_route_returns_iff [] overtaken hproper _ rfl
    (hostgwGetRoute 2 peerBefore) (fun f x hx => by cases f <;> cases hx)
    (fun job hjob => by cases hjob) (by decide)).1.mpr
      ⟨hostgwGetRoute 2 peerBefore, by decide, by decide⟩
  exact ⟨_, rfl, by decide, by decide, bs, t, hspares, ht, hr⟩

/-- **A round of the check brings back what is missing.**  Let the check have copied the list
with a route in it, in any state that can be reached.  If the kernel does what the check
asks and nobody takes the route away, then the route is in the kernel whenever the check
has nothing in hand any more, whatever the event loop and the others do meanwhile. -/
theorem check_restores_route (table : List RouteMessage) (as : List RouteSystemAction)
    (has : ∀ a ∈ as, a.Proper) (s : RouteSystem)
    (hrun : Run.run step (start table) as = some s) (r : RouteSpec) (f : AddressFamily)
    (routes : List RouteSpec) (hcheck : s.check = .dumping f routes) (hr : r ∈ routes)
    (haway : Away r s) (bs : List RouteSystemAction) (hbs : ∀ b ∈ bs, b.Proper)
    (hleaves : Run.Along step (Leaves r) s bs) (hok : ∀ ok, .check ok ∈ bs → ok = true)
    (t : RouteSystem) (ht : Run.run step s bs = some t) (hover : t.check.pending = []) :
    hasRoute t.table r = true := by
  have hs : s.Sound := (sound_start table).run has hrun
  have hcoming : Coming r s := by
    refine Or.inr ?_
    rw [hcheck]
    exact hr
  have hend : t.Sound ∧ Away r t ∧ Coming r t := by
    refine Run.run_invariant (P := fun v => v.Sound ∧ Away r v ∧ Coming r v)
      (fun v a w hP hQ hst => ⟨hP.1.step hQ.2.1 hst, hP.2.1.step hQ.1 hst,
        hP.2.2.step hP.1 hP.2.1 hQ.1 hQ.2.2 hst⟩) ⟨hs, haway, hcoming⟩
      (hleaves.and (Run.along_of_forall (Q := fun b => b.Proper ∧ ∀ ok, b = .check ok → ok = true)
        fun b hb => ⟨hbs b hb, fun ok heq => ?_⟩)) ht
    exact hok ok (heq ▸ hb)
  rcases hend.2.2 with hthere | hpending
  · exact hthere
  · rw [hover] at hpending
    cases hpending

/-- A route that was installed, and that someone deletes before the check copies the list. -/
def lost : List RouteSystemAction :=
  [.receive [⟨.added, .inet, hostgwGetRoute 2 peerBefore⟩], .event true, .event true, .event true,
    .event true, .event true, .outside [], .wake, .check true]

example :
    ∃ s t, Run.run step (start []) lost = some s ∧ s.table = [] ∧
      Run.run step s (List.replicate 3 (.check true)) = some t ∧
      hasRoute t.table (hostgwGetRoute 2 peerBefore) = true := by
  have hproper : ∀ a ∈ lost, a.Proper := by
    have hroute : (hostgwGetRoute 2 peerBefore).Proper := by decide
    simp [lost, RouteSystemAction.Proper, hroute]
  refine ⟨_, _, rfl, by decide, rfl, ?_⟩
  refine check_restores_route [] lost hproper _ rfl (hostgwGetRoute 2 peerBefore) .inet
    [hostgwGetRoute 2 peerBefore] (by decide) (by decide) (fun job hjob => ?_)
    (List.replicate 3 (.check true)) (fun b hb => ?_) ?_ (fun ok hb => ?_) _ rfl (by decide)
  · cases hjob
  · rw [List.eq_of_mem_replicate hb]
    trivial
  · exact ⟨trivial, fun _ _ => ⟨trivial, fun _ _ => ⟨trivial, fun _ _ => trivial⟩⟩⟩
  · exact RouteSystemAction.check.inj (List.eq_of_mem_replicate hb)

end RouteSystem

/-! ## The routes of host-gw and ipip -/

section Backends

variable {l : Lease}

/-- A route of IPv4 to a network of positive length is proper. -/
theorem proper_of_network {n : IP4Net} (hnet : n.network = n) (hpos : 0 < n.prefixLen)
    (hlen : n.prefixLen ≤ 32) (gateway : IP4) (linkIndex : Nat) (onlink : Bool) :
    RouteSpec.Proper ⟨.v4 n.ip, n.prefixLen % 256, .v4 gateway, linkIndex, .inet, onlink⟩ := by
  have hmod : n.prefixLen % 256 = n.prefixLen := Nat.mod_eq_of_lt (by omega)
  have hip : (IP4Net.network ⟨n.ip, n.prefixLen⟩).ip = n.ip := congrArg IP4Net.ip hnet
  simp [RouteSpec.Proper, RouteSpec.toMessage, RouteMessage.kept, hmod, Nat.ne_of_gt hpos,
    routeMsgMatches, ip4Of, IpAddr.masked, hip]

theorem hostgwGetRoute_proper (linkIndex : Nat) (hnet : l.subnet.network = l.subnet)
    (hpos : 0 < l.subnet.prefixLen) (hlen : l.subnet.prefixLen ≤ 32) :
    (hostgwGetRoute linkIndex l).Proper :=
  proper_of_network hnet hpos hlen _ _ _

/-- `ipip_get_route`, with what `direct_routing` answers about a gateway, `none` if it fails. -/
def ipipGetRoute (isDirectRouting : Bool) (tunnelIndex extIndex : Nat)
    (directRouting : IpAddr → Option Bool) (lease : Lease) : RouteSpec where
  dst := .v4 lease.subnet.ip
  prefixLen := lease.subnet.prefixLen % 256
  gateway := .v4 lease.attrs.publicIp
  linkIndex :=
    if isDirectRouting && directRouting (.v4 lease.attrs.publicIp) == some true then extIndex
    else tunnelIndex
  family := .inet
  onlink := true

/-- The network of the ipip backend. -/
def ipipNetwork (isDirectRouting : Bool) (tunnelIndex extIndex : Nat)
    (directRouting : IpAddr → Option Bool) : RouteNetwork where
  backendType := "ipip"
  getRoute := some (ipipGetRoute isDirectRouting tunnelIndex extIndex directRouting)
  getV6Route := none

theorem ipipGetRoute_proper (isDirectRouting : Bool) (tunnelIndex extIndex : Nat)
    (directRouting : IpAddr → Option Bool) (hnet : l.subnet.network = l.subnet)
    (hpos : 0 < l.subnet.prefixLen) (hlen : l.subnet.prefixLen ≤ 32) :
    (ipipGetRoute isDirectRouting tunnelIndex extIndex directRouting l).Proper :=
  proper_of_network hnet hpos hlen _ _ _

end Backends

end Flannel
