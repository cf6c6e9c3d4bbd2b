import Flannel.Lib.Run
import Mathlib.Data.List.Nodup
import Mathlib.Logic.Function.Basic

/-!
# Routes in a shared cloud table

`backend/tencentvpc`: every node of the cluster has one route in a route table of the cloud, for
the subnet of its lease and with its own address as gateway.  When a daemon starts, it reads the
table, deletes its routes that are disabled, and creates one if none is enabled, by one request
after the other; any request can fail, and ends the start.

The nodes share the table and do not wait for each other, so a table is changed by others between
the requests of a node.  What makes this safe is an equation: the requests that a node has still
to send are the ones it would compute from the table as it is now (`Agrees`).  Requests of other
nodes do not concern its routes, and its own take the computed list down from the front.  So a
node that has sent everything has nothing left to do, also when it looks again.

The cloud is not modelled: it is any service that does what its documentation says of a request
that it serves (`VpcService.Documented`).  Whether it serves one is its own affair.  A request has
been served, lost or refused before the node that sent it starts again: none of an earlier start
is still under way.
-/

namespace Flannel

namespace TencentVpc

open Run

/-! ## The source's functions -/

/-- `Route`. -/
structure Route where
  routeId : String
  destinationCidrBlock : String
  gatewayId : String
  gatewayType : String
  routeType : String
  enabled : Bool
  deriving DecidableEq, Repr

/-- `RouteTable`. -/
structure RouteTable where
  routeTableId : String
  routeSet : List Route

/-- `GATEWAY_TYPE`. -/
def gatewayType : String := "NORMAL_CVM"

/-- `ROUTE_TYPE`. -/
def routeType : String := "USER"

/-- The requests to the cloud that change a table: `create_routes` and `delete_routes`. -/
inductive Request where
  | createRoutes (routeTableId dstCidr gatewayId : String)
  | deleteRoutes (routeTableId routeId : String)
  deriving DecidableEq, Repr

/-- The test of a route in `reconcile_routes`. -/
def isOurs (subnet gateway : String) (route : Route) : Bool :=
  route.destinationCidrBlock = subnet && route.gatewayId = gateway &&
    route.gatewayType = gatewayType && route.routeType = routeType

/-- The loop of `reconcile_routes`, and what follows it: the requests in their order. -/
def reconcileLoop (routeTableId subnet gateway : String) : Bool → List Route → List Request
  | found, [] => if found then [] else [.createRoutes routeTableId subnet gateway]
  | found, route :: routes =>
    if isOurs subnet gateway route then
      if route.enabled then reconcileLoop routeTableId subnet gateway true routes
      else .deleteRoutes routeTableId route.routeId ::
        reconcileLoop routeTableId subnet gateway found routes
    else reconcileLoop routeTableId subnet gateway found routes

/-- `reconcile_routes`: the requests that are sent, one after the other, while none fails. -/
def reconcileRoutes (routeTable : RouteTable) (subnet gateway : String) : List Request :=
  reconcileLoop routeTable.routeTableId subnet gateway false routeTable.routeSet

/-! ## The requests of a table -/

section Requests

variable {table subnet gateway : String} {routes routes' : List Route}

/-- The disabled routes of a node. -/
def disabledOurs (subnet gateway : String) (routes : List Route) : List Route :=
  routes.filter fun r => isOurs subnet gateway r && !r.enabled

/-- The enabled routes of a node. -/
def enabledOurs (subnet gateway : String) (routes : List Route) : List Route :=
  routes.filter fun r => isOurs subnet gateway r && r.enabled

theorem reconcileLoop_eq (found : Bool) :
    reconcileLoop table subnet gateway found routes =
      (disabledOurs subnet gateway routes).map (fun r => .deleteRoutes table r.routeId) ++
        if found = true ∨ enabledOurs subnet gateway routes ≠ [] then []
        else [.createRoutes table subnet gateway] := by
  induction routes generalizing found with
  | nil => cases found <;> simp [reconcileLoop, disabledOurs, enabledOurs]
  | cons r routes ih =>
    rw [reconcileLoop]
    cases hours : isOurs subnet gateway r with
    | false =>
      rw [if_neg (by simp), ih]
      simp [disabledOurs, enabledOurs, hours]
    | true =>
      rw [if_pos rfl]
      cases hen : r.enabled with
      | true =>
        rw [if_pos rfl, ih]
        simp [disabledOurs, enabledOurs, hours, hen]
      | false =>
        rw [if_neg (by simp), ih]
        simp [disabledOurs, enabledOurs, hours, hen]

/-- **The requests**: a deletion for each disabled route, and a creation if none is enabled. -/
theorem reconcileRoutes_eq :
    reconcileRoutes ⟨table, routes⟩ subnet gateway =
      (disabledOurs subnet gateway routes).map (fun r => .deleteRoutes table r.routeId) ++
        if enabledOurs subnet gateway routes = [] then [.createRoutes table subnet gateway]
        else [] := by
  rw [reconcileRoutes, reconcileLoop_eq]
  by_cases h : enabledOurs subnet gateway routes = []
  · simp [h]
  · simp [h]

/-- The routes of a node are all enabled, and there is one. -/
def Healthy (subnet gateway : String) (routes : List Route) : Prop :=
  enabledOurs subnet gateway routes ≠ [] ∧ disabledOurs subnet gateway routes = []

theorem reconcileRoutes_eq_nil_iff :
    reconcileRoutes ⟨table, routes⟩ subnet gateway = [] ↔ Healthy subnet gateway routes := by
  rw [reconcileRoutes_eq, Healthy]
  by_cases h : enabledOurs subnet gateway routes = []
  · simp [h]
  · simp [h]

theorem filter_isOurs_disabled :
    disabledOurs subnet gateway routes =
      (routes.filter (isOurs subnet gateway)).filter fun r => !r.enabled := by
  rw [disabledOurs, List.filter_filter]
  exact List.filter_congr fun r _ => Bool.and_comm _ _

theorem filter_isOurs_enabled :
    enabledOurs subnet gateway routes =
      (routes.filter (isOurs subnet gateway)).filter fun r => r.enabled := by
  rw [enabledOurs, List.filter_filter]
  exact List.filter_congr fun r _ => Bool.and_comm _ _

/-- The requests only depend on the node's own routes. -/
theorem reconcileRoutes_congr
    (h : routes'.filter (isOurs subnet gateway) = routes.filter (isOurs subnet gateway)) :
    reconcileRoutes ⟨table, routes'⟩ subnet gateway =
      reconcileRoutes ⟨table, routes⟩ subnet gateway := by
  rw [reconcileRoutes_eq, reconcileRoutes_eq, filter_isOurs_disabled, filter_isOurs_enabled, h,
    ← filter_isOurs_disabled, ← filter_isOurs_enabled]

theorem isOurs_inj {r : Route} {subnet' gateway' : String} (h : isOurs subnet gateway r = true)
    (h' : isOurs subnet' gateway' r = true) : subnet' = subnet ∧ gateway' = gateway := by
  simp only [isOurs, Bool.and_eq_true, decide_eq_true_eq] at h h'
  exact ⟨h'.1.1.1.symm.trans h.1.1.1, h'.1.1.2.symm.trans h.1.1.2⟩

end Requests

/-! ## The cloud and the nodes -/

/-- The route tables of the cloud, by their identifiers. -/
abbrev Tables := String → Option (List Route)

/-- The VPC service: its states, the tables that `DescribeRouteTables` reads in a state, and what
it does for a request, if it serves it; the identifier of a new route, for one, is its choice. -/
structure VpcService where
  State : Type
  Choice : Type
  tables : State → Tables
  serve : State → Choice → Request → Option State

/-- What the documentation of the service says. -/
structure VpcService.Documented (svc : VpcService) : Prop where
  /-- a `RouteId` names one route of its table -/
  distinct : ∀ cloud table routes, svc.tables cloud table = some routes →
    (routes.map (·.routeId)).Nodup
  /-- `CreateRoutes` adds the route that was asked for to the table, as a route of a user -/
  created : ∀ {cloud choice table dstCidr gatewayId cloud'},
    svc.serve cloud choice (.createRoutes table dstCidr gatewayId) = some cloud' →
      ∃ before after routeId, svc.tables cloud table = some (before ++ after) ∧
        svc.tables cloud' = Function.update (svc.tables cloud) table (some (before ++
          ⟨routeId, dstCidr, gatewayId, gatewayType, routeType, true⟩ :: after))
  /-- `DeleteRoutes` takes the route with this identifier out of the table -/
  deleted : ∀ {cloud choice table routeId cloud'},
    svc.serve cloud choice (.deleteRoutes table routeId) = some cloud' →
      ∃ routes, svc.tables cloud table = some routes ∧
        svc.tables cloud' = Function.update (svc.tables cloud) table
          (some (routes.filter fun r => r.routeId ≠ routeId))

/-- Where a node is: at rest, or in a start, with the requests it has still to send. -/
inductive Phase where
  | idle
  | working (table subnet gateway : String) (requests : List Request)

/-- The cloud and the nodes. -/
structure Vpc (svc : VpcService) (ν : Type*) where
  cloud : svc.State
  phase : ν → Phase

/-- What can happen. -/
inductive VpcAction (svc : VpcService) (ν : Type*) where
  /-- a node starts, with a lease and an address, and reads the tables; the first is `table` -/
  | describe (i : ν) (table subnet gateway : String)
  /-- the next request of a node is served -/
  | served (i : ν) (choice : svc.Choice)
  /-- it is served, but the node gets an error instead of the reply, or is gone -/
  | lost (i : ν) (choice : svc.Choice)
  /-- it is not served -/
  | refused (i : ν)
  /-- the daemon of a node ends -/
  | stop (i : ν)
  /-- somebody else changes the tables -/
  | outside (cloud : svc.State)

namespace Vpc

section Steps

variable {svc : VpcService} {ν : Type*} [DecidableEq ν]

/-- The route tables as they are. -/
def tables (s : Vpc svc ν) : Tables := svc.tables s.cloud

/-- What an action does; `none` if it cannot happen. -/
def step (s : Vpc svc ν) : VpcAction svc ν → Option (Vpc svc ν)
  | .describe i table subnet gateway =>
    (s.tables table).map fun routes =>
      { s with
        phase := Function.update s.phase i
          (.working table subnet gateway (reconcileRoutes ⟨table, routes⟩ subnet gateway)) }
  | .served i choice =>
    match s.phase i with
    | .working table subnet gateway (request :: requests) =>
      (svc.serve s.cloud choice request).map fun cloud =>
        ⟨cloud, Function.update s.phase i (.working table subnet gateway requests)⟩
    | _ => none
  | .lost i choice =>
    match s.phase i with
    | .working _ _ _ (request :: _) =>
      (svc.serve s.cloud choice request).map fun cloud =>
        ⟨cloud, Function.update s.phase i .idle⟩
    | _ => none
  | .refused i =>
    match s.phase i with
    | .working _ _ _ (_ :: _) => some { s with phase := Function.update s.phase i .idle }
    | _ => none
  | .stop i => some { s with phase := Function.update s.phase i .idle }
  | .outside cloud => some { s with cloud := cloud }

/-- A node has requests to send for a subnet and an address. -/
def Pending (s : Vpc svc ν) (i : ν) (table subnet gateway : String) : Prop :=
  ∃ request requests, s.phase i = .working table subnet gateway (request :: requests)

/-- The routes for a subnet and an address stay as they are. -/
def Spares (tables tables' : Tables) (table subnet gateway : String) : Prop :=
  ∀ routes, tables table = some routes → ∃ routes', tables' table = some routes' ∧
    routes'.filter (isOurs subnet gateway) = routes.filter (isOurs subnet gateway)

/-- No two nodes work for the same subnet and address at the same time, and others leave the
routes alone for which a node is at work. -/
def Careful (s : Vpc svc ν) : VpcAction svc ν → Prop
  | .describe i table subnet gateway => ∀ j, j ≠ i → ¬ s.Pending j table subnet gateway
  | .outside cloud => ∀ i table subnet gateway, s.Pending i table subnet gateway →
      Spares s.tables (svc.tables cloud) table subnet gateway
  | _ => True

/-- **The equation**: the requests that a node has still to send are those it would compute
now. -/
def Agrees (tables : Tables) : Phase → Prop
  | .working table subnet gateway (request :: requests) => ∃ routes, tables table = some routes ∧
    reconcileRoutes ⟨table, routes⟩ subnet gateway = request :: requests
  | _ => True

/-- The invariant. -/
structure Sound (s : Vpc svc ν) : Prop where
  agrees : ∀ i, Agrees s.tables (s.phase i)
  apart : ∀ i j table subnet gateway, s.Pending i table subnet gateway →
    s.Pending j table subnet gateway → i = j

end Steps

end Vpc

/-! ## One request -/

section Serve

variable {svc : VpcService} {table subnet gateway : String} {routes : List Route}
  {request : Request} {requests : List Request}

/-- What a request of a node does to its table. -/
structure Progress (subnet gateway table : String) (requests : List Request)
    (routes routes' : List Route) : Prop where
  /-- the requests that are left are those of the new table -/
  left : reconcileRoutes ⟨table, routes'⟩ subnet gateway = requests
  /-- the routes of others stay -/
  others : routes'.filter (fun r => !isOurs subnet gateway r) =
    routes.filter fun r => !isOurs subnet gateway r
  /-- there are not more routes of the node than before, if there were any -/
  count : (routes'.filter (isOurs subnet gateway)).length ≤
    max 1 (routes.filter (isOurs subnet gateway)).length

theorem progress_delete {r : Route} (hnodup : (routes.map (·.routeId)).Nodup)
    (hmem : r ∈ routes) (hours : isOurs subnet gateway r = true) (hen : r.enabled = false)
    (hrequests : reconcileRoutes ⟨table, routes⟩ subnet gateway =
      .deleteRoutes table r.routeId :: requests) :
    Progress subnet gateway table requests routes
      (routes.filter fun x => x.routeId ≠ r.routeId) := by
  have hinj : ∀ x ∈ routes, x.routeId = r.routeId → x = r := by
    intro x hx heq
    exact List.inj_on_of_nodup_map hnodup hx hmem heq
  have hdisabled : disabledOurs subnet gateway (routes.filter fun x => x.routeId ≠ r.routeId) =
      (disabledOurs subnet gateway routes).filter fun x => x.routeId ≠ r.routeId := by
    rw [disabledOurs, disabledOurs, List.filter_filter, List.filter_filter]
    exact List.filter_congr fun x _ => Bool.and_comm _ _
  have henabled : enabledOurs subnet gateway (routes.filter fun x => x.routeId ≠ r.routeId) =
      enabledOurs subnet gateway routes := by
    rw [enabledOurs, enabledOurs, List.filter_filter]
    refine List.filter_congr fun x hx => ?_
    by_cases heq : x.routeId = r.routeId
    · rw [hinj x hx heq, hen]
      simp
    · simp [heq]
  refine ⟨?_, ?_, ?_⟩
  · rw [reconcileRoutes_eq] at hrequests ⊢
    rw [hdisabled, henabled]
    cases hd : disabledOurs subnet gateway routes with
    | nil =>
      have hnone : r ∉ disabledOurs subnet gateway routes := by
        rw [hd]
        exact List.not_mem_nil
      exact absurd (List.mem_filter.mpr ⟨hmem, by simp [hours, hen]⟩) hnone
    | cons d ds =>
      rw [hd, List.map_cons, List.cons_append, List.cons.injEq] at hrequests
      obtain ⟨hfirst, hrest⟩ := hrequests
      have hid : d.routeId = r.routeId := by
        injection hfirst
      -- identifiers are distinct, so only the first disabled route goes
      have hds : ds.filter (fun x => x.routeId ≠ r.routeId) = ds := by
        rw [List.filter_eq_self]
        intro x hx
        have hsub : (d :: ds).Sublist routes := hd ▸ List.filter_sublist
        have hnodup' : (List.map (·.routeId) (d :: ds)).Nodup := hnodup.sublist (hsub.map _)
        rw [List.map_cons, List.nodup_cons] at hnodup'
        rw [decide_eq_true_eq, ← hid]
        intro heq
        exact hnodup'.1 (heq ▸ List.mem_map_of_mem hx)
      rw [List.filter_cons_of_neg (by simp [hid]), hds]
      exact hrest
  · rw [List.filter_filter]
    refine List.filter_congr fun x hx => ?_
    by_cases heq : x.routeId = r.routeId
    · rw [hinj x hx heq, hours]
      simp
    · simp [heq]
  · have hsub : ((routes.filter fun x => x.routeId ≠ r.routeId).filter
        (isOurs subnet gateway)).Sublist (routes.filter (isOurs subnet gateway)) :=
      List.filter_sublist.filter _
    exact Nat.le_trans hsub.length_le (Nat.le_max_right _ _)

/-- A creation comes when no route of the node is left. -/
theorem none_left_of_create
    (hrequests : reconcileRoutes ⟨table, routes⟩ subnet gateway =
      .createRoutes table subnet gateway :: requests) :
    routes.filter (isOurs subnet gateway) = [] ∧ requests = [] := by
  have hnone : disabledOurs subnet gateway routes = [] ∧ enabledOurs subnet gateway routes = [] ∧
      requests = [] := by
    rw [reconcileRoutes_eq] at hrequests
    cases hd : disabledOurs subnet gateway routes with
    | cons d ds =>
      rw [hd, List.map_cons, List.cons_append, List.cons.injEq] at hrequests
      cases hrequests.1
    | nil =>
      rw [hd, List.map_nil, List.nil_append] at hrequests
      by_cases hen : enabledOurs subnet gateway routes = []
      · rw [if_pos hen, List.cons.injEq] at hrequests
        exact ⟨rfl, hen, hrequests.2.symm⟩
      · rw [if_neg hen] at hrequests
        cases hrequests
  obtain ⟨hd, hen, rfl⟩ := hnone
  refine ⟨List.filter_eq_nil_iff.mpr fun r hr hours => ?_, rfl⟩
  cases henabled : r.enabled with
  | true =>
    have hmem : r ∈ enabledOurs subnet gateway routes :=
      List.mem_filter.mpr ⟨hr, by simp [hours, henabled]⟩
    rw [hen] at hmem
    cases hmem
  | false =>
    have hmem : r ∈ disabledOurs subnet gateway routes :=
      List.mem_filter.mpr ⟨hr, by simp [hours, henabled]⟩
    rw [hd] at hmem
    cases hmem

theorem progress_create (id : String) {before after : List Route}
    (hrequests : reconcileRoutes ⟨table, before ++ after⟩ subnet gateway =
      .createRoutes table subnet gateway :: requests) :
    Progress subnet gateway table requests (before ++ after)
      (before ++ ⟨id, subnet, gateway, gatewayType, routeType, true⟩ :: after) := by
  have hours :
      isOurs subnet gateway ⟨id, subnet, gateway, gatewayType, routeType, true⟩ = true := by
    simp [isOurs]
  obtain ⟨hempty, rfl⟩ := none_left_of_create hrequests
  -- so the new route is the only one
  have honly : (before ++ (⟨id, subnet, gateway, gatewayType, routeType, true⟩ : Route) ::
      after).filter (isOurs subnet gateway) =
        [⟨id, subnet, gateway, gatewayType, routeType, true⟩] := by
    rw [List.filter_append, List.append_eq_nil_iff] at hempty
    rw [List.filter_append, List.filter_cons_of_pos hours, hempty.1, hempty.2, List.nil_append]
  refine ⟨?_, ?_, ?_⟩
  · rw [reconcileRoutes_eq_nil_iff, Healthy, filter_isOurs_enabled, filter_isOurs_disabled, honly]
    simp
  · rw [List.filter_append, List.filter_append, List.filter_cons_of_neg (by simp [hours])]
  · rw [honly]
    exact Nat.le_max_left _ _

/-- What a request that a node would send now is about: a disabled route of its own that is in the
table, or, when the table has no route of its own, a new one. -/
theorem request_cases
    (hrequests : reconcileRoutes ⟨table, routes⟩ subnet gateway = request :: requests) :
    (∃ r ∈ routes, isOurs subnet gateway r = true ∧ r.enabled = false ∧
      request = .deleteRoutes table r.routeId) ∨
    routes.filter (isOurs subnet gateway) = [] ∧ requests = [] ∧
      request = .createRoutes table subnet gateway := by
  have hfirst : request ∈ reconcileRoutes ⟨table, routes⟩ subnet gateway := by
    rw [hrequests]
    exact List.mem_cons_self
  rw [reconcileRoutes_eq, List.mem_append, List.mem_map] at hfirst
  rcases hfirst with ⟨r, hr, rfl⟩ | hcreate
  · rw [disabledOurs, List.mem_filter, Bool.and_eq_true, Bool.not_eq_true'] at hr
    exact Or.inl ⟨r, hr.1, hr.2.1, hr.2.2, rfl⟩
  · have hreq : request = .createRoutes table subnet gateway := by
      split at hcreate
      · exact List.mem_singleton.mp hcreate
      · cases hcreate
    rw [hreq] at hrequests
    exact Or.inr ⟨(none_left_of_create hrequests).1, (none_left_of_create hrequests).2, hreq⟩

/-- **One request.**  What the cloud does for the next request of a node whose requests agree
with its table. -/
theorem serve_progress (hdoc : svc.Documented) {cloud cloud' : svc.State} {choice : svc.Choice}
    (htable : svc.tables cloud table = some routes)
    (hrequests : reconcileRoutes ⟨table, routes⟩ subnet gateway = request :: requests)
    (hserve : svc.serve cloud choice request = some cloud') :
    ∃ routes', svc.tables cloud' = Function.update (svc.tables cloud) table (some routes') ∧
      Progress subnet gateway table requests routes routes' := by
  rcases request_cases hrequests with ⟨r, hmem, hours, hen, rfl⟩ | ⟨-, -, rfl⟩
  · obtain ⟨routes₀, htable₀, htables⟩ := hdoc.deleted hserve
    rw [htable] at htable₀
    cases htable₀
    exact ⟨_, htables, progress_delete (hdoc.distinct _ _ _ htable) hmem hours hen hrequests⟩
  · obtain ⟨before, after, id, htable₀, htables⟩ := hdoc.created hserve
    rw [htable] at htable₀
    cases htable₀
    exact ⟨_, htables, progress_create id hrequests⟩

end Serve

/-! ## Steps -/

namespace Vpc

section Sound

variable {svc : VpcService} {ν : Type*} [DecidableEq ν] {s t : Vpc svc ν} {a : VpcAction svc ν}
  {i : ν}
variable {table subnet gateway : String} {tables tables' : Tables}
  {routes routes' : List Route} {request : Request} {requests : List Request}

/-- A request of a node spares the routes of all others. -/
theorem spares_of_progress (htable : tables table = some routes)
    (hprogress : Progress subnet gateway table requests routes routes')
    {table' subnet' gateway' : String}
    (hne : ¬ (table' = table ∧ subnet' = subnet ∧ gateway' = gateway)) :
    Spares tables (Function.update tables table (some routes')) table' subnet' gateway' := by
  intro routes₀ hroutes₀
  by_cases ht : table' = table
  · subst ht
    rw [htable] at hroutes₀
    cases hroutes₀
    refine ⟨routes', Function.update_self .., ?_⟩
    -- a route of another node is not one of this node
    have hother : ∀ l : List Route, l.filter (isOurs subnet' gateway') =
        (l.filter fun r => !isOurs subnet gateway r).filter (isOurs subnet' gateway') := by
      intro l
      rw [List.filter_filter]
      refine List.filter_congr fun r _ => ?_
      cases h' : isOurs subnet' gateway' r with
      | false => rfl
      | true =>
        cases h : isOurs subnet gateway r with
        | false => rfl
        | true => exact absurd ⟨rfl, isOurs_inj h h'⟩ hne
    rw [hother routes', hother routes, hprogress.others]
  · exact ⟨routes₀, by rw [Function.update_of_ne ht, hroutes₀], rfl⟩

theorem agrees_of_spares {p : Phase} (h : Agrees tables p)
    (hspares : ∀ table subnet gateway request requests,
      p = .working table subnet gateway (request :: requests) →
        Spares tables tables' table subnet gateway) : Agrees tables' p := by
  match p, h, hspares with
  | .idle, _, _ => trivial
  | .working _ _ _ [], _, _ => trivial
  | .working table subnet gateway (request :: requests), ⟨routes, htable, hrequests⟩, hspares =>
    obtain ⟨routes', htable', hfilter⟩ := hspares _ _ _ _ _ rfl routes htable
    exact ⟨routes', htable', (reconcileRoutes_congr hfilter).trans hrequests⟩

/-- What a request that has been served leads to, with the reply or without it. -/
theorem Sound.serve (hdoc : svc.Documented) (h : Sound s)
    (hphase : s.phase i = .working table subnet gateway (request :: requests))
    {choice : svc.Choice} {cloud' : svc.State}
    (hserve : svc.serve s.cloud choice request = some cloud') :
    ∃ routes routes', s.tables table = some routes ∧
      svc.tables cloud' = Function.update s.tables table (some routes') ∧
      reconcileRoutes ⟨table, routes⟩ subnet gateway ≠ [] ∧
      Progress subnet gateway table requests routes routes' ∧
      ∀ p, p = .idle ∨ p = .working table subnet gateway requests →
        Sound ⟨cloud', Function.update s.phase i p⟩ := by
  have hagrees := h.agrees i
  rw [hphase] at hagrees
  obtain ⟨routes, htable, hrequests⟩ := hagrees
  obtain ⟨routes', htables, hprogress⟩ := serve_progress hdoc htable hrequests hserve
  refine ⟨routes, routes', htable, htables, by rw [hrequests]; exact List.cons_ne_nil _ _,
    hprogress, fun p hp => ⟨fun j => ?_, ?_⟩⟩
  · show Agrees (svc.tables cloud') (Function.update s.phase i p j)
    rw [htables]
    by_cases hj : j = i
    · subst hj
      rw [Function.update_self]
      rcases hp with rfl | rfl
      · trivial
      · match requests, hprogress with
        | [], _ => trivial
        | request' :: requests, hprogress =>
          exact ⟨routes', Function.update_self .., hprogress.left⟩
    · rw [Function.update_of_ne hj]
      refine agrees_of_spares (h.agrees j) fun table' subnet' gateway' request' requests' hj' => ?_
      refine spares_of_progress htable hprogress ?_
      rintro ⟨rfl, rfl, rfl⟩
      exact hj (h.apart j i _ _ _ ⟨_, _, hj'⟩ ⟨_, _, hphase⟩)
  · -- who is at work now was at work before, for the same subnet and address
    have hpending : ∀ j table' subnet' gateway',
        Pending ⟨cloud', Function.update s.phase i p⟩ j table' subnet' gateway' →
        s.Pending j table' subnet' gateway' := by
      rintro j table' subnet' gateway' ⟨request', requests', hj⟩
      by_cases hji : j = i
      · subst hji
        change Function.update s.phase j p j = _ at hj
        rw [Function.update_self] at hj
        rcases hp with rfl | rfl
        · cases hj
        · cases hj
          exact ⟨_, _, hphase⟩
      · change Function.update s.phase i p j = _ at hj
        rw [Function.update_of_ne hji] at hj
        exact ⟨_, _, hj⟩
    intro j k table' subnet' gateway' hj hk
    exact h.apart j k _ _ _ (hpending _ _ _ _ hj) (hpending _ _ _ _ hk)

theorem Sound.rest (h : Sound s) (i : ν) :
    Sound { s with phase := Function.update s.phase i .idle } := by
  have hphase : ∀ j, Function.update s.phase i .idle j = .idle ∨
      Function.update s.phase i .idle j = s.phase j := by
    intro j
    by_cases hj : j = i
    · subst hj
      exact Or.inl (Function.update_self ..)
    · exact Or.inr (Function.update_of_ne hj ..)
  have hpending : ∀ j table subnet gateway,
      Pending { s with phase := Function.update s.phase i .idle } j table subnet gateway →
      s.Pending j table subnet gateway := by
    rintro j table subnet gateway ⟨request, requests, hj⟩
    change Function.update s.phase i .idle j = _ at hj
    rcases hphase j with hidle | hsame
    · rw [hidle] at hj
      cases hj
    · exact ⟨_, _, hsame.symm.trans hj⟩
  refine ⟨fun j => ?_, fun j k _ _ _ hj hk =>
    h.apart j k _ _ _ (hpending _ _ _ _ hj) (hpending _ _ _ _ hk)⟩
  show Agrees s.tables (Function.update s.phase i .idle j)
  rcases hphase j with hidle | hsame
  · rw [hidle]
    trivial
  · rw [hsame]
    exact h.agrees j

theorem Sound.describe (h : Sound s) (htable : s.tables table = some routes)
    (hapart : ∀ j, j ≠ i → ¬ s.Pending j table subnet gateway) :
    Sound { s with
      phase := Function.update s.phase i
        (.working table subnet gateway (reconcileRoutes ⟨table, routes⟩ subnet gateway)) } := by
  refine ⟨fun j => ?_, ?_⟩
  · by_cases hj : j = i
    · subst hj
      show Agrees s.tables (Function.update s.phase j _ j)
      rw [Function.update_self]
      cases hrequests : reconcileRoutes ⟨table, routes⟩ subnet gateway with
      | nil => trivial
      | cons request requests => exact ⟨routes, htable, hrequests⟩
    · show Agrees s.tables (Function.update s.phase i _ j)
      rw [Function.update_of_ne hj]
      exact h.agrees j
  · rintro j k table' subnet' gateway' ⟨request, requests, hj⟩ ⟨request', requests', hk⟩
    dsimp only at hj hk
    by_cases hji : j = i
    · by_cases hki : k = i
      · rw [hji, hki]
      · subst hji
        rw [Function.update_self] at hj
        rw [Function.update_of_ne hki] at hk
        injection hj with htable' hsubnet hgateway
        subst htable' hsubnet hgateway
        exact absurd ⟨_, _, hk⟩ (hapart k hki)
    · rw [Function.update_of_ne hji] at hj
      by_cases hki : k = i
      · subst hki
        rw [Function.update_self] at hk
        injection hk with htable' hsubnet hgateway
        subst htable' hsubnet hgateway
        exact absurd ⟨_, _, hj⟩ (hapart j hji)
      · rw [Function.update_of_ne hki] at hk
        exact h.apart j k _ _ _ ⟨_, _, hj⟩ ⟨_, _, hk⟩

/-- What an action does to the tables: nothing, a request of a node that is at work, or what
others do. -/
theorem step_tables (hdoc : svc.Documented) (h : Sound s) (hst : s.step a = some t) :
    t.tables = s.tables ∨
    (∃ table subnet gateway requests routes routes', s.tables table = some routes ∧
      reconcileRoutes ⟨table, routes⟩ subnet gateway ≠ [] ∧
      t.tables = Function.update s.tables table (some routes') ∧
      Progress subnet gateway table requests routes routes') ∨
    ∃ cloud, a = .outside cloud ∧ t.tables = svc.tables cloud := by
  cases a with
  | describe i table subnet gateway =>
    obtain ⟨routes, -, rfl⟩ := Option.map_eq_some_iff.mp hst
    exact Or.inl rfl
  | served i choice =>
    simp only [step] at hst
    split at hst
    · rename_i hphase
      obtain ⟨cloud', hserve, rfl⟩ := Option.map_eq_some_iff.mp hst
      obtain ⟨routes, routes', htable, htables, hne, hprogress, -⟩ := h.serve hdoc hphase hserve
      exact Or.inr (Or.inl ⟨_, _, _, _, routes, routes', htable, hne, htables, hprogress⟩)
    · cases hst
  | lost i choice =>
    simp only [step] at hst
    split at hst
    · rename_i hphase
      obtain ⟨cloud', hserve, rfl⟩ := Option.map_eq_some_iff.mp hst
      obtain ⟨routes, routes', htable, htables, hne, hprogress, -⟩ := h.serve hdoc hphase hserve
      exact Or.inr (Or.inl ⟨_, _, _, _, routes, routes', htable, hne, htables, hprogress⟩)
    · cases hst
  | refused i =>
    simp only [step] at hst
    split at hst
    · cases hst
      exact Or.inl rfl
    · cases hst
  | stop i =>
    cases hst
    exact Or.inl rfl
  | outside cloud =>
    cases hst
    exact Or.inr (Or.inr ⟨cloud, rfl, rfl⟩)

theorem sound_step (hdoc : svc.Documented) (h : Sound s) (hcareful : Careful s a)
    (hst : s.step a = some t) : Sound t := by
  cases a with
  | describe i table subnet gateway =>
    obtain ⟨routes, htable, rfl⟩ := Option.map_eq_some_iff.mp hst
    exact h.describe htable hcareful
  | served i choice =>
    simp only [step] at hst
    split at hst
    · rename_i hphase
      obtain ⟨cloud', hserve, rfl⟩ := Option.map_eq_some_iff.mp hst
      obtain ⟨-, -, -, -, -, -, hsound⟩ := h.serve hdoc hphase hserve
      exact hsound _ (Or.inr rfl)
    · cases hst
  | lost i choice =>
    simp only [step] at hst
    split at hst
    · rename_i hphase
      obtain ⟨cloud', hserve, rfl⟩ := Option.map_eq_some_iff.mp hst
      obtain ⟨-, -, -, -, -, -, hsound⟩ := h.serve hdoc hphase hserve
      exact hsound _ (Or.inl rfl)
    · cases hst
  | refused i =>
    simp only [step] at hst
    split at hst
    · cases hst
      exact h.rest i
    · cases hst
  | stop i =>
    cases hst
    exact h.rest i
  | outside cloud =>
    cases hst
    refine ⟨fun i => ?_, fun i j _ _ _ hi hj => h.apart i j _ _ _ hi hj⟩
    exact agrees_of_spares (h.agrees i) fun _ _ _ _ _ hi => hcareful i _ _ _ ⟨_, _, hi⟩

/-- The routes for a subnet and an address are as they should be. -/
def HealthyAt (tables : Tables) (table subnet gateway : String) : Prop :=
  ∃ routes, tables table = some routes ∧ Healthy subnet gateway routes

/-- The number of routes for a subnet and an address. -/
def numOurs (tables : Tables) (table subnet gateway : String) : Nat :=
  (((tables table).getD []).filter (isOurs subnet gateway)).length

/-- Others leave the routes for a subnet and an address alone. -/
def Leaves (table subnet gateway : String) (s : Vpc svc ν) : VpcAction svc ν → Prop
  | .outside cloud => Spares s.tables (svc.tables cloud) table subnet gateway
  | _ => True

/-- **What a step does to the routes of a node**: it leaves them alone, or it is a request for
these routes, and they were not healthy. -/
theorem step_ours (hdoc : svc.Documented) (h : Sound s) (hleaves : Leaves table subnet gateway s a)
    (hst : s.step a = some t) :
    Spares s.tables t.tables table subnet gateway ∨
      ∃ requests routes routes', s.tables table = some routes ∧
        t.tables table = some routes' ∧ ¬ Healthy subnet gateway routes ∧
        Progress subnet gateway table requests routes routes' := by
  rcases step_tables hdoc h hst with hsame | ⟨table', subnet', gateway', requests, routes, routes',
    htable, hrequests, htables, hprogress⟩ | ⟨cloud, rfl, htables⟩
  · exact Or.inl fun routes hroutes => ⟨routes, by rw [hsame, hroutes], rfl⟩
  · by_cases hkey : table = table' ∧ subnet = subnet' ∧ gateway = gateway'
    · obtain ⟨rfl, rfl, rfl⟩ := hkey
      refine Or.inr ⟨requests, routes, routes', htable, ?_, ?_, hprogress⟩
      · rw [htables, Function.update_self]
      · intro hhealthy
        exact hrequests (reconcileRoutes_eq_nil_iff.mpr hhealthy)
    · rw [htables]
      exact Or.inl (spares_of_progress htable hprogress hkey)
  · rw [htables]
    exact Or.inl hleaves

theorem healthyAt_of_spares (hspares : Spares tables tables' table subnet gateway)
    (h : HealthyAt tables table subnet gateway) : HealthyAt tables' table subnet gateway := by
  obtain ⟨routes, htable, hhealthy⟩ := h
  obtain ⟨routes', htable', hfilter⟩ := hspares routes htable
  refine ⟨routes', htable', ?_⟩
  rw [← @reconcileRoutes_eq_nil_iff table, reconcileRoutes_congr hfilter,
    reconcileRoutes_eq_nil_iff]
  exact hhealthy

theorem healthyAt_step (hdoc : svc.Documented) (h : Sound s)
    (hleaves : Leaves table subnet gateway s a) (hst : s.step a = some t)
    (hhealthy : HealthyAt s.tables table subnet gateway) :
    HealthyAt t.tables table subnet gateway := by
  rcases step_ours hdoc h hleaves hst with hspares | ⟨requests, routes, routes', htable, -, hnot, -⟩
  · exact healthyAt_of_spares hspares hhealthy
  · obtain ⟨routes₀, htable₀, hhealthy⟩ := hhealthy
    rw [htable] at htable₀
    cases htable₀
    exact absurd hhealthy hnot

theorem numOurs_step (hdoc : svc.Documented) (h : Sound s)
    (hleaves : Leaves table subnet gateway s a) (hst : s.step a = some t)
    (hthere : (s.tables table).isSome = true) :
    (t.tables table).isSome = true ∧
      numOurs t.tables table subnet gateway ≤ max 1 (numOurs s.tables table subnet gateway) := by
  obtain ⟨routes, htable⟩ := Option.isSome_iff_exists.mp hthere
  rcases step_ours hdoc h hleaves hst with hspares |
    ⟨requests, routes₀, routes', htable₀, htable', -, hprogress⟩
  · obtain ⟨routes', htable', hfilter⟩ := hspares routes htable
    refine ⟨by rw [htable']; rfl, ?_⟩
    rw [numOurs, numOurs, htable, htable', Option.getD_some, Option.getD_some, hfilter]
    exact Nat.le_max_right _ _
  · refine ⟨by rw [htable']; rfl, ?_⟩
    rw [htable] at htable₀
    cases htable₀
    rw [numOurs, numOurs, htable, htable', Option.getD_some, Option.getD_some]
    exact hprogress.count

/-- Only a node that moves gets done. -/
theorem of_update_done {j : ν} {p : Phase}
    (hdone : Function.update s.phase j p i = .working table subnet gateway [])
    (hbefore : s.phase i ≠ .working table subnet gateway []) :
    i = j ∧ p = .working table subnet gateway [] := by
  by_cases hj : i = j
  · subst hj
    rw [Function.update_self] at hdone
    exact ⟨rfl, hdone⟩
  · rw [Function.update_of_ne hj] at hdone
    exact absurd hdone hbefore

/-- **Who is done is healthy.** -/
theorem healthyAt_of_done (hdoc : svc.Documented) (h : Sound s) (hst : s.step a = some t)
    (hdone : t.phase i = .working table subnet gateway [])
    (hbefore : s.phase i ≠ .working table subnet gateway []) :
    HealthyAt t.tables table subnet gateway := by
  cases a with
  | describe j table' subnet' gateway' =>
    obtain ⟨routes, htable, rfl⟩ := Option.map_eq_some_iff.mp hst
    obtain ⟨rfl, hp⟩ := of_update_done hdone hbefore
    injection hp with htable' hsubnet hgateway hrequests
    subst htable' hsubnet hgateway
    exact ⟨routes, htable, reconcileRoutes_eq_nil_iff.mp hrequests⟩
  | served j choice =>
    simp only [step] at hst
    split at hst
    · rename_i table' subnet' gateway' request requests hphase
      obtain ⟨cloud', hserve, rfl⟩ := Option.map_eq_some_iff.mp hst
      obtain ⟨routes, routes', -, htables, -, hprogress, -⟩ := h.serve hdoc hphase hserve
      obtain ⟨rfl, hp⟩ := of_update_done hdone hbefore
      injection hp with htable' hsubnet hgateway hrequests
      subst htable' hsubnet hgateway hrequests
      refine ⟨routes', ?_, reconcileRoutes_eq_nil_iff.mp hprogress.left⟩
      rw [tables, htables, Function.update_self]
    · cases hst
  | lost j choice =>
    simp only [step] at hst
    split at hst
    · obtain ⟨cloud', -, rfl⟩ := Option.map_eq_some_iff.mp hst
      cases (of_update_done hdone hbefore).2
    · cases hst
  | refused j =>
    simp only [step] at hst
    split at hst
    · cases hst
      cases (of_update_done hdone hbefore).2
    · cases hst
  | stop j =>
    cases hst
    cases (of_update_done hdone hbefore).2
  | outside cloud =>
    cases hst
    exact absurd hdone hbefore

/-- **A node whose requests are served gets done.** -/
theorem done_of_served (hdoc : svc.Documented) (h : Sound s)
    (hphase : s.phase i = .working table subnet gateway (request :: requests))
    {bs : List (VpcAction svc ν)} (hbs : ∀ b ∈ bs, ∃ choice, b = .served i choice)
    (hlen : bs.length = requests.length + 1) (hrun : run step s bs = some t) :
    t.phase i = .working table subnet gateway [] ∧ HealthyAt t.tables table subnet gateway := by
  induction bs generalizing s request requests with
  | nil => cases hlen
  | cons b bs ih =>
    obtain ⟨choice, rfl⟩ := hbs b List.mem_cons_self
    obtain ⟨u, hstep, hrun⟩ := run_cons_eq_some.mp hrun
    have hsound := sound_step hdoc h (show Careful s (.served i choice) from trivial) hstep
    have hphase' : u.phase i = .working table subnet gateway requests := by
      simp only [step, hphase] at hstep
      obtain ⟨cloud', -, rfl⟩ := Option.map_eq_some_iff.mp hstep
      exact Function.update_self ..
    cases requests with
    | nil =>
      have hnil : bs = [] := List.length_eq_zero_iff.mp (by simpa using hlen)
      subst hnil
      cases hrun
      exact ⟨hphase', healthyAt_of_done hdoc h hstep hphase' (by rw [hphase]; simp)⟩
    | cons request' requests =>
      exact ih hsound hphase' (fun b hb => hbs b (List.mem_cons_of_mem _ hb))
        (by simpa using hlen) hrun

/-- All nodes at rest. -/
def atRest (cloud : svc.State) : Vpc svc ν := ⟨cloud, fun _ => .idle⟩

omit [DecidableEq ν] in
theorem sound_atRest (cloud : svc.State) : Sound (atRest cloud : Vpc svc ν) :=
  ⟨fun _ => trivial, fun _ _ _ _ _ hi => by obtain ⟨_, _, hi⟩ := hi; cases hi⟩

theorem sound_run (hdoc : svc.Documented) {cloud : svc.State} {as : List (VpcAction svc ν)}
    (hq : Along step Careful (atRest cloud) as) (h : run step (atRest cloud) as = some s) :
    Sound s :=
  run_invariant (P := Sound) (fun _ _ _ hi ha hst => sound_step hdoc hi ha hst)
    (sound_atRest cloud) hq h

/-- **The routes converge.**  Take any service that does what its documentation says of the
requests it serves, and any number of nodes on its route tables, that start, send their requests,
fail at any of them, whether it was served or not, and start again, in any interleaving, such that
no two are at work for the same subnet and address at the same time; and let others change the
tables as they like, except for the routes for which a node is at work.  Then

* whenever a node gets done, its routes are all enabled and there is one;
* the next request of a node at work is about what is there, whatever the others have done since it
  read the table --- a disabled route of its own in the table, or a new one when the table has none
  of its own --- and the node gets done when the requests it has left are served, one after the
  other;
* routes that are as they should be stay so, whatever the nodes do, until others change them, and
  a node that starts for them has nothing to send. -/
theorem routes_converge (hdoc : svc.Documented) {cloud : svc.State}
    {as : List (VpcAction svc ν)} (hq : Along step Careful (atRest cloud) as)
    (h : run step (atRest cloud) as = some s) :
    (∀ a t i table subnet gateway, s.step a = some t →
      t.phase i = .working table subnet gateway [] →
      s.phase i ≠ .working table subnet gateway [] → HealthyAt t.tables table subnet gateway) ∧
    (∀ i table subnet gateway request requests,
      s.phase i = .working table subnet gateway (request :: requests) →
      (∃ routes, s.tables table = some routes ∧
        ((∃ r ∈ routes, isOurs subnet gateway r = true ∧ r.enabled = false ∧
            request = .deleteRoutes table r.routeId) ∨
          routes.filter (isOurs subnet gateway) = [] ∧
            request = .createRoutes table subnet gateway)) ∧
      ∀ bs t, (∀ b ∈ bs, ∃ choice, b = .served i choice) → bs.length = requests.length + 1 →
        run step s bs = some t →
        t.phase i = .working table subnet gateway [] ∧
          HealthyAt t.tables table subnet gateway) ∧
    ∀ table subnet gateway bs t, HealthyAt s.tables table subnet gateway →
      Along step (fun s a => Careful s a ∧ Leaves table subnet gateway s a) s bs →
      run step s bs = some t → HealthyAt t.tables table subnet gateway ∧
        ∀ i, ∃ u, t.step (.describe i table subnet gateway) = some u ∧ u.tables = t.tables ∧
          u.phase i = .working table subnet gateway [] := by
  have hsound := sound_run hdoc hq h
  refine ⟨fun a t i table subnet gateway hst hdone hbefore =>
    healthyAt_of_done hdoc hsound hst hdone hbefore, ?_, ?_⟩
  · intro i table subnet gateway request requests hphase
    refine ⟨?_, fun bs t hbs hlen hrun => done_of_served hdoc hsound hphase hbs hlen hrun⟩
    have hagrees := hsound.agrees i
    rw [hphase] at hagrees
    obtain ⟨routes, htable, hrequests⟩ := hagrees
    refine ⟨routes, htable, ?_⟩
    rcases request_cases hrequests with hdelete | ⟨hnone, -, hcreate⟩
    · exact Or.inl hdelete
    · exact Or.inr ⟨hnone, hcreate⟩
  · intro table subnet gateway bs t hhealthy hbs hrun
    have hkeep : Sound t ∧ HealthyAt t.tables table subnet gateway :=
      run_invariant (P := fun s => Sound s ∧ HealthyAt s.tables table subnet gateway)
        (fun _ _ _ hi ha hst => ⟨sound_step hdoc hi.1 ha.1 hst,
          healthyAt_step hdoc hi.1 ha.2 hst hi.2⟩) ⟨hsound, hhealthy⟩ hbs hrun
    refine ⟨hkeep.2, fun i => ?_⟩
    obtain ⟨routes, htable, hroutes⟩ := hkeep.2
    refine ⟨{ t with phase := Function.update t.phase i (.working table subnet gateway []) }, ?_,
      rfl, Function.update_self ..⟩
    rw [step, htable, Option.map_some, reconcileRoutes_eq_nil_iff.mpr hroutes]

/-- **No route twice.**  In any such run, and also when replies are lost and daemons start again
in between, the number of routes for a subnet and an address never gets larger than it was, or
than one, as long as others add none. -/
theorem routes_not_duplicated (hdoc : svc.Documented) {cloud : svc.State}
    {as : List (VpcAction svc ν)} (hthere : (svc.tables cloud table).isSome = true)
    (hq : Along step (fun s a => Careful s a ∧ Leaves table subnet gateway s a) (atRest cloud) as)
    (h : run step (atRest cloud) as = some s) :
    numOurs s.tables table subnet gateway ≤
      max 1 (numOurs (svc.tables cloud) table subnet gateway) := by
  have hkeep : Sound s ∧ (s.tables table).isSome = true ∧ numOurs s.tables table subnet gateway ≤
      max 1 (numOurs (svc.tables cloud) table subnet gateway) := by
    refine run_invariant (P := fun s : Vpc svc ν => Sound s ∧ (s.tables table).isSome = true ∧
      numOurs s.tables table subnet gateway ≤
        max 1 (numOurs (svc.tables cloud) table subnet gateway))
      (fun u a v hi ha hst => ?_) ⟨sound_atRest cloud, hthere, Nat.le_max_right _ _⟩ hq h
    obtain ⟨hsome, hnum⟩ := numOurs_step hdoc hi.1 ha.2 hst hi.2.1
    refine ⟨sound_step hdoc hi.1 ha.1 hst, hsome, ?_⟩
    omega
  exact hkeep.2.2

end Sound

/-! ### A service -/

/-- Route tables whose identifiers are distinct. -/
structure CloudTables where
  tables : Tables
  distinct : ∀ table routes, tables table = some routes → (routes.map (·.routeId)).Nodup

/-- Tables of which one is replaced. -/
def CloudTables.replace (cloud : CloudTables) (table : String) (routes : List Route)
    (hnodup : (routes.map (·.routeId)).Nodup) : CloudTables where
  tables := Function.update cloud.tables table (some routes)
  distinct := by
    intro table' routes' hroutes'
    by_cases ht : table' = table
    · subst ht
      rw [Function.update_self] at hroutes'
      cases hroutes'
      exact hnodup
    · rw [Function.update_of_ne ht] at hroutes'
      exact cloud.distinct table' routes' hroutes'

theorem nodup_concat {routes : List Route} {r : Route} (h : (routes.map (·.routeId)).Nodup)
    (hfresh : r.routeId ∉ routes.map (·.routeId)) :
    ((routes ++ [r]).map (·.routeId)).Nodup := by
  rw [List.map_append, List.map_singleton]
  exact List.nodup_append.mpr ⟨h, List.nodup_singleton _, fun a ha b hb heq =>
    hfresh (List.mem_singleton.mp hb ▸ heq ▸ ha)⟩

/-- A service that puts new routes at the end, and refuses to give an identifier twice or to
delete what is not there. -/
def plainService : VpcService where
  State := CloudTables
  Choice := String
  tables := CloudTables.tables
  serve := fun cloud routeId request =>
    match request with
    | .createRoutes table dstCidr gatewayId =>
      match h : cloud.tables table with
      | none => none
      | some routes =>
        if hfresh : routeId ∉ routes.map (·.routeId) then
          some (cloud.replace table
            (routes ++ [⟨routeId, dstCidr, gatewayId, gatewayType, routeType, true⟩])
            (nodup_concat (cloud.distinct _ _ h) hfresh))
        else none
    | .deleteRoutes table routeId' =>
      match h : cloud.tables table with
      | none => none
      | some routes =>
        if routeId' ∈ routes.map (·.routeId) then
          some (cloud.replace table (routes.filter fun r => r.routeId ≠ routeId')
            ((cloud.distinct _ _ h).sublist (List.filter_sublist.map _)))
        else none

theorem plainService_documented : plainService.Documented where
  distinct := CloudTables.distinct
  created := by
    intro cloud routeId table dstCidr gatewayId cloud' hserve
    simp only [plainService] at hserve
    split at hserve
    · cases hserve
    · rename_i routes htable
      split at hserve
      · cases hserve
        exact ⟨routes, [], routeId, by rw [List.append_nil]; exact htable, rfl⟩
      · cases hserve
  deleted := by
    intro cloud _ table routeId cloud' hserve
    simp only [plainService] at hserve
    split at hserve
    · cases hserve
    · rename_i routes htable
      split at hserve
      · cases hserve
        exact ⟨routes, htable, rfl⟩
      · cases hserve

/-- One empty table for every identifier. -/
def emptyTables : CloudTables := ⟨fun _ => some [], by rintro _ _ ⟨⟩; exact List.nodup_nil⟩

/-- Two nodes have read the same empty table. -/
def bothRead : List (VpcAction plainService Bool) :=
  [.describe false "rtb" "10.244.1.0/24" "192.168.0.1",
    .describe true "rtb" "10.244.2.0/24" "192.168.0.2"]

/-- Their next steps do not wait for each other, and others do nothing to the routes. -/
theorem along_bothRead (table subnet gateway : String) :
    Along step (fun s a => Careful s a ∧ Leaves table subnet gateway s a)
      (atRest emptyTables : Vpc plainService Bool) bothRead := by
  refine ⟨⟨fun j _ hj => ?_, trivial⟩, ?_⟩
  · obtain ⟨_, _, hj⟩ := hj
    cases hj
  · rintro t ⟨⟩
    refine ⟨⟨fun j hj hpending => ?_, trivial⟩, fun _ _ => trivial⟩
    obtain ⟨_, _, hphase⟩ := hpending
    cases j with
    | true => exact hj rfl
    | false =>
      dsimp only at hphase
      rw [Function.update_self] at hphase
      injection hphase with _ hsubnet
      exact absurd hsubnet (by decide)

/-- The first one is done once its only request is served. -/
theorem bothRead_converge :
    ∃ s t : Vpc plainService Bool, run step (atRest emptyTables) bothRead = some s ∧
      run step s [.served false "rte-1"] = some t ∧
      t.phase false = .working "rtb" "10.244.1.0/24" "192.168.0.1" [] ∧
      HealthyAt t.tables "rtb" "10.244.1.0/24" "192.168.0.1" := by
  have hcareful : Along step Careful (atRest emptyTables : Vpc plainService Bool) bothRead := by
    have halong := along_bothRead "" "" ""
    exact ⟨halong.1.1, fun t ht => ⟨(halong.2 t ht).1.1, fun _ _ => trivial⟩⟩
  have hrun : ∃ s : Vpc plainService Bool, run step (atRest emptyTables) bothRead = some s ∧
      s.phase false = .working "rtb" "10.244.1.0/24" "192.168.0.1"
        [.createRoutes "rtb" "10.244.1.0/24" "192.168.0.1"] ∧
      ∃ t, run step s [.served false "rte-1"] = some t := by
    refine ⟨_, rfl, ?_, _, rfl⟩
    dsimp only
    rw [Function.update_of_ne (by decide), Function.update_self]
    rfl
  obtain ⟨s, hrun, hphase, t, hserved⟩ := hrun
  obtain ⟨-, hdone⟩ :=
    (routes_converge plainService_documented hcareful hrun).2.1 _ _ _ _ _ _ hphase
  refine ⟨s, t, hrun, hserved, hdone _ t (fun b hb => ?_) rfl hserved⟩
  exact ⟨"rte-1", List.mem_singleton.mp hb⟩

/-- And each node has at most one route. -/
theorem bothRead_not_duplicated :
    ∃ s : Vpc plainService Bool, run step (atRest emptyTables) bothRead = some s ∧
      numOurs s.tables "rtb" "10.244.1.0/24" "192.168.0.1" ≤ 1 := by
  have hrun : ∃ s : Vpc plainService Bool, run step (atRest emptyTables) bothRead = some s :=
    ⟨_, rfl⟩
  obtain ⟨s, hrun⟩ := hrun
  exact ⟨s, hrun,
    routes_not_duplicated plainService_documented rfl (along_bothRead _ _ _) hrun⟩

end Vpc

end TencentVpc

end Flannel
