import Flannel.Backend.RouteNetwork

/-!
# The tracked routes and the leases they stand for

The tracked list is what the periodic check installs again, so a route that stays in it
after its peer is gone comes back for ever.  The list identifies a route by its
destination, its gateway and its link.  The events and the kernel identify it by the
destination only: a lease whose public address changed is announced again, as one more
`Added`, and the old gateway's route is taken from the list only on one branch of
`route_add`, namely when the kernel lists that route first for the destination and
deletes it.

So the list follows the leases exactly as long as every such change finds the kernel in
this state (`Replaces`).  Then the tracked routes are the routes of the stored leases,
one for each (`Tracks`), after every event.
-/

namespace Flannel

open KeyedList LeaseWatcher

/-! ## A list with one route for each destination -/

/-- The destination network of a route. -/
def RouteSpec.destination (r : RouteSpec) : IpAddr × Nat := (r.dst, r.prefixLen)

/-- No destination occurs twice. -/
def OnePerDestination (routes : List RouteSpec) : Prop :=
  Distinct RouteSpec.destination routes

theorem routeSpecEqual_iff {x y : RouteSpec} :
    routeSpecEqual x y = true ↔
      x.destination = y.destination ∧ x.gateway = y.gateway ∧ x.linkIndex = y.linkIndex := by
  simp [routeSpecEqual, RouteSpec.destination, and_assoc]

theorem routeMsgMatches_iff {msg : RouteMessage} {x : RouteSpec} :
    routeMsgMatches msg x = true ↔
      msg.dst = some x.dst ∧ msg.destinationPrefixLength = x.prefixLen ∧
        msg.gateway = some x.gateway ∧ msg.oif = some x.linkIndex := by
  simp [routeMsgMatches, and_assoc]

/-- Two routes that one message matches are equal to `route_spec_equal`. -/
theorem routeSpecEqual_of_msg {msg : RouteMessage} {x y : RouteSpec}
    (hx : routeMsgMatches msg x = true) (hy : routeMsgMatches msg y = true) :
    routeSpecEqual x y = true := by
  rw [routeMsgMatches_iff] at hx hy
  obtain ⟨hdst, hlen, hgw, hoif⟩ := hx
  rw [hdst, hlen, hgw, hoif] at hy
  obtain ⟨hdst', hlen', hgw', hoif'⟩ := hy
  rw [routeSpecEqual_iff, RouteSpec.destination, RouteSpec.destination, Option.some.inj hdst',
    hlen']
  exact ⟨rfl, Option.some.inj hgw', Option.some.inj hoif'⟩

theorem destination_of_listed {listed : Option (List RouteMessage)} {family : AddressFamily}
    {route x : RouteSpec} {msg : RouteMessage} (hmsg : msg ∈ listRoutesByDst listed family route)
    (hx : routeMsgMatches msg x = true) : x.destination = route.destination := by
  rw [listRoutesByDst, List.mem_filter, Bool.and_eq_true, beq_iff_eq, beq_iff_eq] at hmsg
  rw [routeMsgMatches_iff] at hx
  obtain ⟨-, hdst, hlen⟩ := hmsg
  rw [hx.1] at hdst
  rw [hx.2.1] at hlen
  rw [RouteSpec.destination, RouteSpec.destination, Option.some.inj hdst, hlen]

section Lists

variable {routes : List RouteSpec} {route : RouteSpec}

/-- Taking out the first route that a test of one destination accepts takes out all of
them. -/
theorem mem_eraseP_iff (hone : OnePerDestination routes) {p : RouteSpec → Bool} {d : IpAddr × Nat}
    (hp : ∀ x ∈ routes, p x = true → x.destination = d) {x : RouteSpec} :
    x ∈ routes.eraseP p ↔ x ∈ routes ∧ p x = false := by
  induction routes with
  | nil => simp
  | cons y routes ih =>
    obtain ⟨hy, hone'⟩ := List.nodup_cons.mp hone
    have hp' : ∀ x ∈ routes, p x = true → x.destination = d :=
      fun x hx => hp x (List.mem_cons_of_mem _ hx)
    cases hpy : p y with
    | true =>
      rw [List.eraseP_cons_of_pos hpy]
      constructor
      · intro hx
        refine ⟨List.mem_cons_of_mem _ hx, ?_⟩
        rw [← Bool.not_eq_true]
        intro hpx
        have hd : x.destination = y.destination := by
          rw [hp' x hx hpx, hp y List.mem_cons_self hpy]
        exact hy (List.mem_map.mpr ⟨x, hx, hd⟩)
      · rintro ⟨hx, hpx⟩
        rcases List.mem_cons.mp hx with rfl | hx
        · rw [hpy] at hpx
          cases hpx
        · exact hx
    | false =>
      rw [List.eraseP_cons_of_neg (by simp [hpy]), List.mem_cons, List.mem_cons, ih hone' hp']
      constructor
      · rintro (rfl | ⟨hx, hpx⟩)
        · exact ⟨Or.inl rfl, hpy⟩
        · exact ⟨Or.inr hx, hpx⟩
      · rintro ⟨rfl | hx, hpx⟩
        · exact Or.inl rfl
        · exact Or.inr ⟨hx, hpx⟩

theorem eraseP_snoc {p : RouteSpec → Bool} (hp : p route = false) :
    (routes ++ [route]).eraseP p = routes.eraseP p ++ [route] := by
  induction routes with
  | nil => simp [hp]
  | cons y routes ih =>
    cases hpy : p y with
    | true => rw [List.cons_append, List.eraseP_cons_of_pos hpy, List.eraseP_cons_of_pos hpy]
    | false =>
      rw [List.cons_append, List.eraseP_cons_of_neg (by simp [hpy]),
        List.eraseP_cons_of_neg (by simp [hpy]), ih, List.cons_append]

/-- The tracked routes are told apart by what `route_spec_equal` compares. -/
def Comparable (routes : List RouteSpec) : Prop :=
  ∀ x ∈ routes, ∀ y ∈ routes, routeSpecEqual x y = true → x = y

theorem addToRouteList_of_mem (h : route ∈ routes) : addToRouteList routes route = routes := by
  have hany : (routes.any fun r => routeSpecEqual r route) = true :=
    List.any_eq_true.mpr ⟨route, h, routeSpecEqual_iff.mpr ⟨rfl, rfl, rfl⟩⟩
  rw [addToRouteList, if_pos hany]

theorem addToRouteList_of_not_mem (hcomp : Comparable (route :: routes)) (h : route ∉ routes) :
    addToRouteList routes route = routes ++ [route] := by
  rw [addToRouteList, if_neg]
  intro hany
  obtain ⟨x, hx, heq⟩ := List.any_eq_true.mp hany
  have hsame := hcomp x (List.mem_cons_of_mem _ hx) route List.mem_cons_self heq
  exact h (hsame ▸ hx)

/-- What `route_add` leaves in the list: what it was with the route, or that without what
the first listed message matches --- which is deleted, and not the route. -/
theorem routeAdd_eq (routes : List RouteSpec) (route : RouteSpec) (family : AddressFamily)
    (r : AddReplies) :
    (routeAdd routes route family r).1 = addToRouteList routes route ∨
      ∃ msg, (listRoutesByDst r.listed family route).head? = some msg ∧
        routeMsgMatches msg route = false ∧ r.deleted = true ∧
        (routeAdd routes route family r).1 =
          removeMsgFromRouteList (addToRouteList routes route) msg := by
  unfold routeAdd
  cases hhead : (listRoutesByDst r.listed family route).head? with
  | none => exact Or.inl rfl
  | some msg =>
    dsimp only
    split
    · rename_i hmatch
      split
      · rename_i hdel
        exact Or.inr ⟨msg, rfl, by simpa using hmatch, hdel, rfl⟩
      · exact Or.inl rfl
    · exact Or.inl rfl

/-- A route that is tracked already stays where it is, and nothing else goes: no other route
has its destination. -/
theorem routeAdd_of_mem (hone : OnePerDestination routes) (hmem : route ∈ routes)
    (family : AddressFamily) (r : AddReplies) : (routeAdd routes route family r).1 = routes := by
  have hlist := addToRouteList_of_mem hmem
  rcases routeAdd_eq routes route family r with h | ⟨msg, hhead, hno, -, h⟩
  · rw [h, hlist]
  · rw [h, hlist, removeMsgFromRouteList, List.eraseP_of_forall_not]
    intro x hx hmatch
    have hmsg := List.mem_of_mem_head? hhead
    have hx' := Distinct.eq_of_key hone hx hmem (destination_of_listed hmsg hmatch)
    rw [hx', hno] at hmatch
    cases hmatch

/-- A route to a new destination is appended. -/
theorem routeAdd_fresh (hcomp : Comparable (route :: routes))
    (hnew : ∀ x ∈ routes, x.destination ≠ route.destination) (family : AddressFamily)
    (r : AddReplies) : (routeAdd routes route family r).1 = routes ++ [route] := by
  have hlist := addToRouteList_of_not_mem hcomp fun hmem => hnew route hmem rfl
  rcases routeAdd_eq routes route family r with h | ⟨msg, hhead, hno, -, h⟩
  · rw [h, hlist]
  · rw [h, hlist, removeMsgFromRouteList, eraseP_snoc hno, List.eraseP_of_forall_not]
    intro x hx hmatch
    exact hnew x hx (destination_of_listed (List.mem_of_mem_head? hhead) hmatch)

/-- A route whose destination is tracked through another gateway replaces that one, if the
kernel lists it first and deletes it. -/
theorem routeAdd_replaces {family : AddressFamily} {r : AddReplies}
    (hone : OnePerDestination routes) (hcomp : Comparable (route :: routes))
    (hnot : route ∉ routes) {old : RouteSpec} (hold : old ∈ routes)
    (hd : old.destination = route.destination) {msg : RouteMessage}
    (hhead : (listRoutesByDst r.listed family route).head? = some msg)
    (hmatch : routeMsgMatches msg old = true) (hdel : r.deleted = true) :
    ∃ rest, (routeAdd routes route family r).1 = rest ++ [route] ∧ rest.Sublist routes ∧
      ∀ x, x ∈ rest ↔ x ∈ routes ∧ x.destination ≠ route.destination := by
  have hlist := addToRouteList_of_not_mem hcomp hnot
  have hmsg := List.mem_of_mem_head? hhead
  have hno : routeMsgMatches msg route = false := by
    rw [← Bool.not_eq_true]
    intro h
    have hsame := hcomp old (List.mem_cons_of_mem _ hold) route List.mem_cons_self
      (routeSpecEqual_of_msg hmatch h)
    exact hnot (hsame ▸ hold)
  have hresult : (routeAdd routes route family r).1 =
      routes.eraseP (fun x => routeMsgMatches msg x) ++ [route] := by
    rw [← eraseP_snoc (p := fun x => routeMsgMatches msg x) hno, ← hlist]
    simp [routeAdd, hhead, hno, hdel, removeMsgFromRouteList]
  refine ⟨_, hresult, List.eraseP_sublist, fun x => ?_⟩
  rw [mem_eraseP_iff hone fun x _ h => destination_of_listed hmsg h]
  refine and_congr_right fun hx => ⟨fun hp hdx => ?_, fun hdx => ?_⟩
  · rw [Distinct.eq_of_key hone hx hold (hdx.trans hd.symm), hmatch] at hp
    cases hp
  · rw [← Bool.not_eq_true]
    exact fun hp => hdx (destination_of_listed hmsg hp)

/-- **Installing a route.**  If every other tracked route of the destination is listed first
by the kernel and deleted, then the route takes the place of what was tracked for its
destination. -/
theorem routeAdd_tracked {family : AddressFamily} {r : AddReplies} (hone : OnePerDestination routes)
    (hcomp : Comparable (route :: routes))
    (hold : ∀ x ∈ routes, x.destination = route.destination → x ≠ route →
      ∃ msg, (listRoutesByDst r.listed family route).head? = some msg ∧
        routeMsgMatches msg x = true ∧ r.deleted = true) :
    OnePerDestination (routeAdd routes route family r).1 ∧
      ∀ x, x ∈ (routeAdd routes route family r).1 ↔
        x = route ∨ x ∈ routes ∧ x.destination ≠ route.destination := by
  by_cases hmem : route ∈ routes
  · rw [routeAdd_of_mem hone hmem]
    refine ⟨hone, fun x => ⟨fun hx => ?_, ?_⟩⟩
    · by_cases hd : x.destination = route.destination
      · exact Or.inl (Distinct.eq_of_key hone hx hmem hd)
      · exact Or.inr ⟨hx, hd⟩
    · rintro (rfl | ⟨hx, -⟩)
      · exact hmem
      · exact hx
  · -- the routes that are left in front of the new one
    have hsplit : ∃ rest, (routeAdd routes route family r).1 = rest ++ [route] ∧
        rest.Sublist routes ∧
        ∀ x, x ∈ rest ↔ x ∈ routes ∧ x.destination ≠ route.destination := by
      by_cases hx : ∃ x ∈ routes, x.destination = route.destination
      · obtain ⟨old, hxmem, hd⟩ := hx
        obtain ⟨msg, hhead, hmatch, hdel⟩ := hold old hxmem hd fun h => hmem (h ▸ hxmem)
        exact routeAdd_replaces hone hcomp hmem hxmem hd hhead hmatch hdel
      · have hnew : ∀ x ∈ routes, x.destination ≠ route.destination :=
          fun x hxmem h => hx ⟨x, hxmem, h⟩
        exact ⟨routes, routeAdd_fresh hcomp hnew family r, List.Sublist.refl _,
          fun x => ⟨fun h => ⟨h, hnew x h⟩, And.left⟩⟩
    obtain ⟨rest, hresult, hsub, hrest⟩ := hsplit
    rw [hresult]
    have hnew : route.destination ∉ rest.map RouteSpec.destination := by
      intro hd
      obtain ⟨x, hx, hd⟩ := List.mem_map.mp hd
      exact ((hrest x).mp hx).2 hd
    refine ⟨Distinct.snoc ((hsub.map _).nodup hone) hnew, fun x => ?_⟩
    rw [List.mem_append, List.mem_singleton, hrest]
    exact or_comm

/-- **Withdrawing a route.**  If the tracked route of the destination is the route, the
destination is given up. -/
theorem removeFromRouteList_tracked (hone : OnePerDestination routes)
    (hroute : ∀ x ∈ routes, x.destination = route.destination → routeSpecEqual x route = true) :
    OnePerDestination (removeFromRouteList routes route) ∧
      ∀ x, x ∈ removeFromRouteList routes route ↔
        x ∈ routes ∧ x.destination ≠ route.destination := by
  have hp : ∀ x ∈ routes, routeSpecEqual x route = true → x.destination = route.destination :=
    fun x _ h => (routeSpecEqual_iff.mp h).1
  refine ⟨(List.eraseP_sublist.map _).nodup hone, fun x => ?_⟩
  rw [removeFromRouteList, mem_eraseP_iff hone hp]
  refine and_congr_right fun hx => ⟨fun h hd => ?_, fun hd => ?_⟩
  · rw [hroute x hx hd] at h
    cases h
  · rw [← Bool.not_eq_true]
    exact fun h => hd (hp x hx h)

/-- What is tracked after `route_add` unless the kernel deleted its route: the route, and
everything that was tracked before. -/
theorem mem_routeAdd_of_kept {family : AddressFamily} {r : AddReplies} {x : RouteSpec}
    (hcomp : Comparable (route :: routes)) (hx : x = route ∨ x ∈ routes)
    (hkept : x ≠ route → ∀ msg, (listRoutesByDst r.listed family route).head? = some msg →
      routeMsgMatches msg x = true → r.deleted = false) :
    x ∈ (routeAdd routes route family r).1 := by
  have hmem : x ∈ addToRouteList routes route := by
    by_cases hroute : route ∈ routes
    · rw [addToRouteList_of_mem hroute]
      rcases hx with rfl | hx
      · exact hroute
      · exact hx
    · rw [addToRouteList_of_not_mem hcomp hroute, List.mem_append, List.mem_singleton]
      exact hx.symm
  rcases routeAdd_eq routes route family r with h | ⟨msg, hhead, hno, hdel, h⟩
  · rw [h]
    exact hmem
  · rw [h, removeMsgFromRouteList]
    refine (List.mem_eraseP_of_neg ?_).mpr hmem
    intro hmatch
    by_cases hroute : x = route
    · rw [hroute, hno] at hmatch
      cases hmatch
    · rw [hkept hroute msg hhead hmatch] at hdel
      cases hdel

end Lists

/-! ## The routes of host-gw leases -/

/-- A lease of an IPv4-only host-gw node. -/
structure Lease.IsHostgw (l : Lease) : Prop where
  flags : l.HasFlags true false
  backendType : l.attrs.backendType = "host-gw"
  prefixLen : l.subnet.prefixLen ≤ 32

section Hostgw

variable {linkIndex : Nat} {l l' : Lease}

theorem hostgw_destination (hl : l.IsHostgw) :
    (hostgwGetRoute linkIndex l).destination = (.v4 l.subnet.ip, l.subnet.prefixLen) := by
  have hlen : l.subnet.prefixLen % 256 = l.subnet.prefixLen :=
    Nat.mod_eq_of_lt (by have := hl.prefixLen; omega)
  rw [RouteSpec.destination, hostgwGetRoute, hlen]

/-- The destination of a route is the subnet of its lease. -/
theorem hostgw_destination_iff (hl : l.IsHostgw) (hl' : l'.IsHostgw) :
    (hostgwGetRoute linkIndex l).destination = (hostgwGetRoute linkIndex l').destination ↔
      l.key true false = l'.key true false := by
  rw [hostgw_destination hl, hostgw_destination hl', Lease.key, Lease.key, Prod.mk.injEq,
    IpAddr.v4.injEq]
  constructor
  · rintro ⟨hip, hlen⟩
    rw [IP4Net.ext hip hlen]
  · intro hkey
    rw [Option.some.inj (Prod.mk.inj hkey).1]
    exact ⟨rfl, rfl⟩

/-- Two routes of one subnet differ only in the public address. -/
theorem hostgwGetRoute_inj (hnet : l.subnet = l'.subnet) :
    hostgwGetRoute linkIndex l = hostgwGetRoute linkIndex l' ↔
      l.attrs.publicIp = l'.attrs.publicIp := by
  simp [hostgwGetRoute, hnet]

theorem hostgw_comparable {routes : List RouteSpec}
    (h : ∀ x ∈ routes, ∃ l, x = hostgwGetRoute linkIndex l) : Comparable routes := by
  intro x hx y hy heq
  obtain ⟨l, rfl⟩ := h x hx
  obtain ⟨l', rfl⟩ := h y hy
  obtain ⟨hd, hgw, -⟩ := routeSpecEqual_iff.mp heq
  simp only [RouteSpec.destination, hostgwGetRoute, Prod.mk.injEq] at hd hgw
  simp only [hostgwGetRoute, hd.1, hd.2, hgw]

variable {v6 : Bool} {s : RouteLists} {r : EventReplies}

theorem handle_hostgw_added (hl : l.IsHostgw) :
    (handleSubnetEvents (hostgwNetwork linkIndex true v6) s [(⟨.added, l⟩, r)]).1 =
      { s with routes := (routeAdd s.routes (hostgwGetRoute linkIndex l) .inet r.v4).1 } := by
  simp [handleSubnetEvents, handleSubnetEvent, handleV6, hostgwNetwork, hl.backendType, hl.flags.1,
    hl.flags.2]

theorem handle_hostgw_removed (hl : l.IsHostgw) :
    (handleSubnetEvents (hostgwNetwork linkIndex true v6) s [(⟨.removed, l⟩, r)]).1 =
      { s with routes := removeFromRouteList s.routes (hostgwGetRoute linkIndex l) } := by
  simp [handleSubnetEvents, handleSubnetEvent, handleV6, hostgwNetwork, hl.backendType, hl.flags.1,
    hl.flags.2]

end Hostgw

/-! ## The watcher and the event loop -/

/-- The watcher, and the tracked lists of the loop it feeds. -/
structure RouteState where
  watcher : LeaseWatcher
  lists : RouteLists
  deriving DecidableEq, Repr

/-- An event that reaches the watcher, and the kernel's answers while it is handled. -/
structure RouteAction where
  event : Event
  replies : EventReplies

/-- The events that `update` emits go to `handle_subnet_events`. -/
def routeStep (nw : RouteNetwork) (s : RouteState) (a : RouteAction) : Option RouteState :=
  let u := s.watcher.update [a.event]
  some ⟨u.1, (handleSubnetEvents nw s.lists (u.2.map fun e => (e, a.replies))).1⟩

/-- Before the first event. -/
def RouteState.start (own : Lease) : RouteState := ⟨LeaseWatcher.new own, ⟨[], []⟩⟩

/-- The condition on a step.  If an `Added` event finds its subnet stored with another
public address, then the kernel lists the old address's route first for the
destination, and deletes it. -/
def Replaces (linkIndex : Nat) (s : RouteState) (a : RouteAction) : Prop :=
  isOwn s.watcher.ownLease a.event.lease = false → a.event.eventType = .added →
    ∀ l ∈ s.watcher.leases, l.subnet = a.event.lease.subnet →
      l.attrs.publicIp ≠ a.event.lease.attrs.publicIp →
      ∃ msg,
        (listRoutesByDst a.replies.v4.listed .inet
          (hostgwGetRoute linkIndex a.event.lease)).head? = some msg ∧
        routeMsgMatches msg (hostgwGetRoute linkIndex l) = true ∧ a.replies.v4.deleted = true

/-- The tracked routes are the routes of the stored leases, one for each destination. -/
structure Tracks (linkIndex : Nat) (s : RouteState) : Prop where
  keyed : s.watcher.Keyed true false
  hostgw : ∀ l ∈ s.watcher.leases, l.IsHostgw
  routes : ∀ r, r ∈ s.lists.routes ↔ ∃ l ∈ s.watcher.leases, r = hostgwGetRoute linkIndex l
  one : OnePerDestination s.lists.routes

section Step

variable {linkIndex : Nat} {v6 : Bool} {s t : RouteState} {a : RouteAction} {lw : LeaseWatcher}
  {l : Lease}

theorem Tracks.comparable (h : Tracks linkIndex s) (l : Lease) :
    Comparable (hostgwGetRoute linkIndex l :: s.lists.routes) := by
  apply hostgw_comparable
  intro x hx
  rcases List.mem_cons.mp hx with rfl | hx
  · exact ⟨l, rfl⟩
  · obtain ⟨l', -, rfl⟩ := (h.routes x).mp hx
    exact ⟨l', rfl⟩

/-- A tracked route of another destination belongs to a lease of another subnet. -/
theorem Tracks.mem_other_iff (h : Tracks linkIndex s) (hl : l.IsHostgw) {x : RouteSpec} :
    x ∈ s.lists.routes ∧ x.destination ≠ (hostgwGetRoute linkIndex l).destination ↔
      ∃ l', (l' ∈ s.watcher.leases ∧ l'.key true false ≠ l.key true false) ∧
        x = hostgwGetRoute linkIndex l' := by
  rw [h.routes]
  constructor
  · rintro ⟨⟨l', hmem, rfl⟩, hd⟩
    rw [ne_eq, hostgw_destination_iff (h.hostgw l' hmem) hl] at hd
    exact ⟨l', ⟨hmem, hd⟩, rfl⟩
  · rintro ⟨l', ⟨hmem, hkey⟩, rfl⟩
    rw [ne_eq, hostgw_destination_iff (h.hostgw l' hmem) hl]
    exact ⟨⟨l', hmem, rfl⟩, hkey⟩

/-- An `Added` event, when the old address's route is replaced. -/
theorem Tracks.added (h : Tracks linkIndex s) (hl : l.IsHostgw) {r : AddReplies}
    (hkeyed : lw.Keyed true false)
    (hleases : ∀ x, x ∈ lw.leases ↔
      x = l ∨ x ∈ s.watcher.leases ∧ x.key true false ≠ l.key true false)
    (hrepl : ∀ l' ∈ s.watcher.leases, l'.subnet = l.subnet → l'.attrs.publicIp ≠ l.attrs.publicIp →
      ∃ msg, (listRoutesByDst r.listed .inet (hostgwGetRoute linkIndex l)).head? = some msg ∧
        routeMsgMatches msg (hostgwGetRoute linkIndex l') = true ∧ r.deleted = true) :
    Tracks linkIndex
      ⟨lw, { s.lists with
        routes := (routeAdd s.lists.routes (hostgwGetRoute linkIndex l) .inet r).1 }⟩ := by
  have hold : ∀ x ∈ s.lists.routes, x.destination = (hostgwGetRoute linkIndex l).destination →
      x ≠ hostgwGetRoute linkIndex l →
      ∃ msg, (listRoutesByDst r.listed .inet (hostgwGetRoute linkIndex l)).head? = some msg ∧
        routeMsgMatches msg x = true ∧ r.deleted = true := by
    intro x hx hd hne
    obtain ⟨l', hl', rfl⟩ := (h.routes x).mp hx
    have hkey := (hostgw_destination_iff (h.hostgw l' hl') hl).mp hd
    have hnet : l'.subnet = l.subnet := Option.some.inj (Prod.mk.inj hkey).1
    rw [ne_eq, hostgwGetRoute_inj hnet] at hne
    exact hrepl l' hl' hnet hne
  obtain ⟨hone, hmem⟩ := routeAdd_tracked h.one (h.comparable l) hold
  refine ⟨hkeyed, fun x hx => ?_, fun x => ?_, hone⟩
  · rcases (hleases x).mp hx with rfl | ⟨hx, -⟩
    · exact hl
    · exact h.hostgw x hx
  · rw [hmem, h.mem_other_iff hl]
    constructor
    · rintro (rfl | ⟨l', hl', rfl⟩)
      · exact ⟨l, (hleases l).mpr (Or.inl rfl), rfl⟩
      · exact ⟨l', (hleases l').mpr (Or.inr hl'), rfl⟩
    · rintro ⟨l', hl', rfl⟩
      rcases (hleases l').mp hl' with rfl | hl'
      · exact Or.inl rfl
      · exact Or.inr ⟨l', hl', rfl⟩

/-- A `Removed` event.  It carries the stored lease, so the route it withdraws is the
tracked one. -/
theorem Tracks.removed (h : Tracks linkIndex s) (hl : l.IsHostgw)
    (hstored : l ∈ s.watcher.leases ∨
      ∀ x ∈ s.watcher.leases, x.key true false ≠ l.key true false)
    (hkeyed : lw.Keyed true false)
    (hleases : ∀ x, x ∈ lw.leases ↔ x ∈ s.watcher.leases ∧ x.key true false ≠ l.key true false) :
    Tracks linkIndex
      ⟨lw, { s.lists with
        routes := removeFromRouteList s.lists.routes (hostgwGetRoute linkIndex l) }⟩ := by
  have hroute : ∀ x ∈ s.lists.routes, x.destination = (hostgwGetRoute linkIndex l).destination →
      routeSpecEqual x (hostgwGetRoute linkIndex l) = true := by
    intro x hx hd
    obtain ⟨l', hl', rfl⟩ := (h.routes x).mp hx
    have hkey := (hostgw_destination_iff (h.hostgw l' hl') hl).mp hd
    rcases hstored with hin | hout
    · rw [Distinct.eq_of_key h.keyed.distinct hl' hin hkey]
      exact routeSpecEqual_iff.mpr ⟨rfl, rfl, rfl⟩
    · exact absurd hkey (hout l' hl')
  obtain ⟨hone, hmem⟩ := removeFromRouteList_tracked h.one hroute
  refine ⟨hkeyed, fun x hx => h.hostgw x ((hleases x).mp hx).1, fun x => ?_, hone⟩
  rw [hmem, h.mem_other_iff hl]
  simp only [hleases]

/-- **One event.** -/
theorem Tracks.step (h : Tracks linkIndex s) (he : a.event.lease.IsHostgw)
    (hrepl : Replaces linkIndex s a)
    (hstep : routeStep (hostgwNetwork linkIndex true v6) s a = some t) : Tracks linkIndex t := by
  obtain ⟨hkeyed, hemits⟩ := update_one h.keyed he.flags
  rw [← Option.some.inj hstep]
  generalize (s.watcher.update [a.event]).1 = lw at hkeyed hemits
  generalize (s.watcher.update [a.event]).2 = es at hemits
  cases hemits with
  | nothing _ hsame =>
    subst hsame
    exact h
  | added hown htype hleases =>
    rw [List.map_singleton, handle_hostgw_added he]
    exact h.added he hkeyed hleases (hrepl hown htype)
  | removed _ _ l hflags hkey hstored hleases =>
    have hl : l.IsHostgw := by
      rcases hstored with hin | ⟨rfl, -⟩
      · exact h.hostgw l hin
      · exact he
    rw [List.map_singleton, handle_hostgw_removed hl]
    refine h.removed hl (hstored.imp_right fun hout => ?_) hkeyed fun x => ?_
    · rw [hkey]
      exact hout.2
    · rw [hkey]
      exact hleases x

/-- The condition cannot be weakened: a step that does not meet it leaves two routes for
the subnet. -/
theorem Tracks.one_iff_replaces (h : Tracks linkIndex s) (he : a.event.lease.IsHostgw)
    (hstep : routeStep (hostgwNetwork linkIndex true v6) s a = some t) :
    OnePerDestination t.lists.routes ↔ Replaces linkIndex s a := by
  refine ⟨fun hone hown htype l hl hnet hip => ?_, fun hrepl => (h.step he hrepl hstep).one⟩
  by_contra hno
  have hroutes : t.lists.routes = (routeAdd s.lists.routes
      (hostgwGetRoute linkIndex a.event.lease) .inet a.replies.v4).1 := by
    have hevents : (s.watcher.update [a.event]).2 = [⟨.added, a.event.lease⟩] := by
      rw [update_single hown, applyEvent, htype]
      simp
    rw [← Option.some.inj hstep, hevents, List.map_singleton, handle_hostgw_added he]
  have hne : hostgwGetRoute linkIndex l ≠ hostgwGetRoute linkIndex a.event.lease := by
    rw [ne_eq, hostgwGetRoute_inj hnet]
    exact hip
  -- neither the old route nor the new one is taken out
  have hold : hostgwGetRoute linkIndex l ∈ t.lists.routes := by
    rw [hroutes]
    refine mem_routeAdd_of_kept (h.comparable _) (Or.inr ((h.routes _).mpr ⟨l, hl, rfl⟩)) ?_
    intro _ msg hhead hmatch
    rw [← Bool.not_eq_true]
    exact fun hdel => hno ⟨msg, hhead, hmatch, hdel⟩
  have hnew : hostgwGetRoute linkIndex a.event.lease ∈ t.lists.routes := by
    rw [hroutes]
    exact mem_routeAdd_of_kept (h.comparable _) (Or.inl rfl) fun hsame => absurd rfl hsame
  have hkey : l.key true false = a.event.lease.key true false := by
    rw [Lease.key, Lease.key, hnet]
  exact hne (Distinct.eq_of_key hone hold hnew
    ((hostgw_destination_iff (h.hostgw l hl) he).mpr hkey))

end Step

/-! ## Every run -/

theorem tracks_start (linkIndex : Nat) (own : Lease) : Tracks linkIndex (.start own) :=
  ⟨keyed_new own, by simp [RouteState.start], by simp [RouteState.start], List.nodup_nil⟩

/-- **The tracked routes follow the leases** in every run whose changes of a public address
all find the old route in the kernel and delete it.  Then the list holds the routes of the
stored leases, one for each destination; after a `Removed` event nothing is left of the
subnet; and what the periodic check installs again is the route of a stored lease. -/
theorem tracked_routes_follow_leases (linkIndex : Nat) (v6 : Bool) (own : Lease)
    (as : List RouteAction) (has : ∀ a ∈ as, a.event.lease.IsHostgw)
    (hcond : Run.Along (routeStep (hostgwNetwork linkIndex true v6)) (Replaces linkIndex)
      (.start own) as)
    (s : RouteState)
    (hrun : Run.run (routeStep (hostgwNetwork linkIndex true v6)) (.start own) as = some s) :
    OnePerDestination s.lists.routes ∧
      (∀ r, r ∈ s.lists.routes ↔ ∃ l ∈ s.watcher.leases, r = hostgwGetRoute linkIndex l) ∧
      (∀ a t, a.event.lease.IsHostgw → a.event.eventType = .removed →
        isOwn s.watcher.ownLease a.event.lease = false →
        routeStep (hostgwNetwork linkIndex true v6) s a = some t →
        ∀ r ∈ t.lists.routes,
          r.destination ≠ (.v4 a.event.lease.subnet.ip, a.event.lease.subnet.prefixLen)) ∧
      ∀ listed, ∀ r ∈ checkSubnetExistInRoutes s.lists.routes .inet listed,
        ∃ l ∈ s.watcher.leases, r = hostgwGetRoute linkIndex l := by
  have hs : Tracks linkIndex s :=
    Run.run_invariant (fun s a t hP hQ hstep => Tracks.step hP hQ.2 hQ.1 hstep)
      (tracks_start linkIndex own) (hcond.and (Run.along_of_forall has)) hrun
  refine ⟨hs.one, hs.routes, fun a t he htype hown hstep r hr hd => ?_, fun listed r hr => ?_⟩
  · have ht : Tracks linkIndex t :=
      hs.step he (fun _ hadded => absurd (htype.symm.trans hadded) (by simp)) hstep
    obtain ⟨l, hl, rfl⟩ := (ht.routes r).mp hr
    rw [← hostgw_destination he, hostgw_destination_iff (ht.hostgw l hl) he] at hd
    have hleases := (update_removed hs.keyed he.flags hown).2 l
    have hevent : a.event = ⟨.removed, a.event.lease⟩ := by
      rw [← htype]
    rw [← hevent] at hleases
    rw [← Option.some.inj hstep] at hl
    exact (hleases.mp hl).2 hd
  · unfold checkSubnetExistInRoutes at hr
    split at hr
    · cases hr
    · exact (hs.routes r).mp (List.mem_of_mem_filter hr)

/-! ## A peer that moves -/

/-- A host-gw lease of the `/24` at an address, with its public address. -/
def hostgwLease (addr publicIp : BitVec 32) : Lease :=
  { v4Lease addr with attrs := { publicIp := ⟨publicIp⟩, backendType := "host-gw" } }

/-- An event for which the kernel lists these routes and deletes what it is asked to. -/
def withListed (eventType : EventType) (lease : Lease) (listed : List RouteMessage) :
    RouteAction where
  event := ⟨eventType, lease⟩
  replies := ⟨⟨some listed, true, some []⟩, ⟨some [], true, some []⟩⟩

/-- `10.2.2.0/24` behind `192.168.0.1`, and later behind `192.168.0.2`. -/
def peerBefore : Lease := hostgwLease 0x0a020200 0xc0a80001

@[inherit_doc peerBefore]
def peerAfter : Lease := hostgwLease 0x0a020200 0xc0a80002

/-- The kernel's route to the peer before it moved. -/
def peerRoute : RouteMessage where
  addressFamily := .inet
  destinationPrefixLength := 24
  dst := some (.v4 ⟨0x0a020200⟩)
  gateway := some (.v4 ⟨0xc0a80001⟩)
  oif := some 2

theorem peerBefore_isHostgw : peerBefore.IsHostgw :=
  ⟨by decide, by decide, by decide⟩

theorem peerAfter_isHostgw : peerAfter.IsHostgw :=
  ⟨by decide, by decide, by decide⟩

/-- The peer moves; what the kernel lists for it at that moment varies. -/
def peerMoves (listed : List RouteMessage) : List RouteAction :=
  [withListed .added peerBefore [], withListed .added peerAfter listed]

/-- The peer moves while its route is in the kernel: it is replaced. -/
theorem tracked_routes_follow_leases_moved :
    ∃ s, Run.run (routeStep (hostgwNetwork 2 true false)) (.start (v4Lease 0x0a010000))
        (peerMoves [peerRoute]) = some s ∧
      s.lists.routes = [hostgwGetRoute 2 peerAfter] ∧ OnePerDestination s.lists.routes := by
  have hevents : ∀ a ∈ peerMoves [peerRoute], a.event.lease.IsHostgw := by
    simp [peerMoves, withListed, peerBefore_isHostgw, peerAfter_isHostgw]
  refine ⟨_, rfl, by decide, (tracked_routes_follow_leases 2 false (v4Lease 0x0a010000) _
    hevents ?_ _ rfl).1⟩
  refine ⟨?_, fun t ht => ⟨?_, fun u _ => trivial⟩⟩
  · intro _ _ l hl
    cases hl
  · obtain rfl := Option.some.inj ht
    intro _ _ l hl _ _
    obtain rfl : l = peerBefore := List.mem_singleton.mp hl
    exact ⟨peerRoute, by decide, by decide, rfl⟩

/-- The peer moves after its route was deleted by someone else.  Both gateways are tracked
then, and after the peer is gone the check keeps installing the route through the first. -/
theorem moved_peer_leaves_its_route :
    (∃ s, Run.run (routeStep (hostgwNetwork 2 true false)) (.start (v4Lease 0x0a010000))
        (peerMoves []) = some s ∧ ¬ OnePerDestination s.lists.routes) ∧
    ∃ s, Run.run (routeStep (hostgwNetwork 2 true false)) (.start (v4Lease 0x0a010000))
        (peerMoves [] ++ [withListed .removed peerAfter []]) = some s ∧
      s.watcher.leases = [] ∧
      checkSubnetExistInRoutes s.lists.routes .inet (some []) = [hostgwGetRoute 2 peerBefore] := by
  refine ⟨⟨_, rfl, ?_⟩, _, rfl, by decide, by decide⟩
  unfold OnePerDestination Distinct
  decide

end Flannel
