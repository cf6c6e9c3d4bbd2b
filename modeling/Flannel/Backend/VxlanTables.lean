import Flannel.Backend.VxlanAtomic
import Flannel.Lease.Emitted
import Flannel.Lib.Run

/-!
# The VXLAN tables and the leases they stand for

With no failures, an event either writes the three entries of a tunnel or deletes them,
and the three tables should hold the entries of the stored leases, no more and no less.
But they have different keys.  A lease that is announced again finds its old route by the
subnet and its old ARP entry by the subnet's address, and overwrites them.  The old
forwarding entry is found by the VTEP address, and if that is what has changed, it stays
for good: the event carries the new version of the lease only, and so will the removal.
The other way round, two subnets with one network address share an ARP entry.

So what matters is whether the three keys agree on who is replaced.  `SameKeys` says it
for two leases: they share the network address, and the VTEP address, exactly if they
have the same subnet.  As long as each lease that comes in is in this relation to the
stored ones, the tables follow the leases.
-/

namespace Flannel

open KeyedList LeaseWatcher

/-! ## Tables and tunnels -/

namespace NetTables

/-- All three entries are deleted. -/
def withdraw (k : NetTables) (t : Tunnel) : NetTables where
  arp := Function.update k.arp t.arpKey none
  fdb := Function.update k.fdb t.fdbKey none
  routes := Function.update k.routes t.routeKey none

/-- The tables hold the entries of these tunnels and nothing else. -/
structure InSync (k : NetTables) (S : Tunnel → Prop) : Prop where
  arp : Table.Holds Tunnel.arpKey Tunnel.mac k.arp S
  fdb : Table.Holds Tunnel.fdbKey Tunnel.vtep k.fdb S
  routes : Table.Holds Tunnel.routeKey Tunnel.route k.routes S

theorem inSync_empty : empty.InSync fun _ => False :=
  ⟨Table.holds_empty, Table.holds_empty, Table.holds_empty⟩

end NetTables

/-- The three keys agree on whether the one takes the other's place. -/
def Tunnel.SameKeys (x t : Tunnel) : Prop :=
  (x.arpKey = t.arpKey ↔ x.routeKey = t.routeKey) ∧ (x.fdbKey = t.fdbKey ↔ x.routeKey = t.routeKey)

section Sync

variable {k : NetTables} {S S' : Tunnel → Prop} {t : Tunnel}

theorem NetTables.InSync.install (h : k.InSync S) (hkeys : ∀ x, S x → x.SameKeys t)
    (hrows : ∀ x, S' x ↔ x = t ∨ S x ∧ x.routeKey ≠ t.routeKey) : (k.install t).InSync S' := by
  refine ⟨h.arp.insert fun x => ?_, h.fdb.insert fun x => ?_, h.routes.insert hrows⟩
  · rw [hrows]
    exact or_congr_right (and_congr_right fun hx => not_congr (hkeys x hx).1.symm)
  · rw [hrows]
    exact or_congr_right (and_congr_right fun hx => not_congr (hkeys x hx).2.symm)

theorem NetTables.InSync.withdraw (h : k.InSync S) (hkeys : ∀ x, S x → x.SameKeys t)
    (hrows : ∀ x, S' x ↔ S x ∧ x.routeKey ≠ t.routeKey) : (k.withdraw t).InSync S' := by
  refine ⟨h.arp.erase fun x => ?_, h.fdb.erase fun x => ?_, h.routes.erase hrows⟩
  · rw [hrows]
    exact and_congr_right fun hx => not_congr (hkeys x hx).1.symm
  · rw [hrows]
    exact and_congr_right fun hx => not_congr (hkeys x hx).2.symm

end Sync

/-! ## Events that succeed -/

section Succeed

variable {env : NetEnv} {net : Net} {p : SubnetPlan}

theorem retryDo_of_succeeds (hok : ∀ n op, env.succeeds n op = true) (op : NetOp) (net : Net) :
    retryDo env op net = (net.after op true (net.attempts + 1), true) := by
  have hattempt : attempt env op net =
      (⟨op.apply net.kernel, net.attempts + 1, net.results⟩, true) := by
    simp [attempt, hok]
  simp [retryDo, retryLoop, hattempt, record, Net.after]

theorem addSubnet_of_succeeds (hok : ∀ n op, env.succeeds n op = true)
    {cleanUp : NetOp → Net → Net × Bool} (hdirect : p.directOk = false) :
    (addSubnet env cleanUp p net).1.kernel = net.kernel.install p.tunnel := by
  rw [addSubnet_eq hdirect]
  simp only [retryDo_of_succeeds hok]
  rfl

theorem removeSubnet_of_succeeds (hok : ∀ n op, env.succeeds n op = true)
    (hdirect : p.directOk = false) :
    (removeSubnet env p net).kernel = net.kernel.withdraw p.tunnel := by
  rw [removeSubnet, if_neg (by simp [hdirect])]
  simp only [retryDo_of_succeeds hok]
  rfl

end Succeed

/-! ## The tunnels of IPv4 leases -/

/-- A lease of an IPv4-only VXLAN node. -/
structure Lease.IsVxlan (l : Lease) : Prop where
  flags : l.HasFlags true false
  backendType : l.attrs.backendType = "vxlan"
  prefixLen : l.subnet.prefixLen ≤ 32

/-- The VTEP address of a lease, if its data can be read. -/
def vtepMac (decode : String → Option (Nat × Option String)) (l : Lease) : Option MacAddr :=
  parseBackendData decode l.attrs.backendData

/-- Network address and VTEP address both say which subnet it is. -/
def Lease.SameKeys (decode : String → Option (Nat × Option String)) (l l' : Lease) : Prop :=
  (l.subnet.ip = l'.subnet.ip ↔ l.subnet = l'.subnet) ∧
    (vtepMac decode l = vtepMac decode l' ↔ l.subnet = l'.subnet)

theorem Lease.SameKeys.symm {decode : String → Option (Nat × Option String)} {l l' : Lease}
    (h : l.SameKeys decode l') : l'.SameKeys decode l := by
  unfold SameKeys at h ⊢
  rw [eq_comm, eq_comm (a := l'.subnet), eq_comm (a := vtepMac decode l')]
  exact h

section Leases

variable {decode : String → Option (Nat × Option String)} {env : NetEnv} {d : VXLANDevice}
  {l l' : Lease} {t x : Tunnel}

theorem v4Tunnel_eq_some_iff :
    v4Tunnel decode d l = some t ↔
      vtepMac decode l = some t.mac ∧ t.ifindex = d.ifindex ∧ t.gw = .v4 l.subnet.ip ∧
        t.vtep = .v4 l.attrs.publicIp ∧ t.route = v4VxlanRoute d.ifindex l.subnet := by
  rw [v4Tunnel, Option.map_eq_some_iff]
  constructor
  · rintro ⟨mac, hmac, rfl⟩
    exact ⟨hmac, rfl, rfl, rfl, rfl⟩
  · rintro ⟨hmac, hif, hgw, hvtep, hroute⟩
    refine ⟨t.mac, hmac, ?_⟩
    rw [← hgw, ← hvtep, ← hroute, ← hif]

theorem v4Tunnel_routeKey (hl : l.IsVxlan) (ht : v4Tunnel decode d l = some t) :
    t.routeKey = (.v4 l.subnet.ip, l.subnet.prefixLen) := by
  obtain ⟨-, -, -, -, hroute⟩ := v4Tunnel_eq_some_iff.mp ht
  have hlen : l.subnet.prefixLen % UInt8.size = l.subnet.prefixLen :=
    Nat.mod_eq_of_lt (by have := hl.prefixLen; simp only [UInt8.size]; omega)
  rw [Tunnel.routeKey, hroute, v4VxlanRoute, vxlanRoute, NetRoute.destination, hlen]

/-- The route's key is the subnet. -/
theorem routeKey_eq_iff (hl : l.IsVxlan) (hl' : l'.IsVxlan) (hx : v4Tunnel decode d l = some x)
    (ht : v4Tunnel decode d l' = some t) : x.routeKey = t.routeKey ↔ l.subnet = l'.subnet := by
  rw [v4Tunnel_routeKey hl hx, v4Tunnel_routeKey hl' ht, Prod.mk.injEq, IpAddr.v4.injEq]
  exact ⟨fun h => IP4Net.ext h.1 h.2, fun h => h ▸ ⟨rfl, rfl⟩⟩

/-- The keys of tunnels agree where those of the leases do. -/
theorem sameKeys_of_leases (hl : l.IsVxlan) (hl' : l'.IsVxlan) (hx : v4Tunnel decode d l = some x)
    (ht : v4Tunnel decode d l' = some t) (h : l.SameKeys decode l') : x.SameKeys t := by
  obtain ⟨hmac, hif, hgw, -, -⟩ := v4Tunnel_eq_some_iff.mp hx
  obtain ⟨hmac', hif', hgw', -, -⟩ := v4Tunnel_eq_some_iff.mp ht
  obtain ⟨hip, hvtep⟩ := h
  rw [hmac, hmac', Option.some.injEq] at hvtep
  refine ⟨?_, ?_⟩
  · rw [routeKey_eq_iff hl hl' hx ht, ← hip, Tunnel.arpKey, Tunnel.arpKey, hif, hif', hgw, hgw']
    simp
  · rw [routeKey_eq_iff hl hl' hx ht, ← hvtep, Tunnel.fdbKey, Tunnel.fdbKey, hif, hif']
    simp

variable {v6Dev : Option VXLANDevice} {net : Net}

/-- The handler on an IPv4-only lease without direct routing. -/
theorem handle_vxlan (hok : ∀ n op, env.succeeds n op = true) (hd : d.directRouting = false)
    (hl : l.IsVxlan) (et : EventType) :
    (handleVxlanEvents decode env ⟨some d, v6Dev⟩ [⟨et, l⟩] net).kernel =
      match v4Tunnel decode d l with
      | none => net.kernel
      | some t =>
        match et with
        | .added => net.kernel.install t
        | .removed => net.kernel.withdraw t := by
  have hv4 : v4Plan decode env (some d) l = (v4Tunnel decode d l).map fun t =>
      some ⟨t, v4DirectRoute l.subnet l.attrs.publicIp, false⟩ := by
    simp only [v4Plan, hl.flags.1, directOk, hd, Bool.false_and]
  have hv6 : v6Plan decode env v6Dev l = some none := by
    simp only [v6Plan, hl.flags.2]
  simp only [handleVxlanEvents, List.foldl_cons, List.foldl_nil, handleVxlanEvent, hl.backendType,
    ne_eq, not_true_eq_false, if_false, hv4, hv6]
  cases v4Tunnel decode d l with
  | none => rfl
  | some t =>
    cases et with
    | added =>
      -- there is no IPv6 half, so it does not matter that this one succeeds
      refine (congrArg Net.kernel (ite_self _)).trans ?_
      exact addSubnet_of_succeeds hok rfl
    | removed =>
      dsimp only [Option.map_some, removeFamily]
      rw [removeSubnet_of_succeeds hok rfl]

end Leases

/-! ## The watcher and the tables -/

/-- The watcher, and the tables behind the loop it feeds. -/
structure VxlanState where
  watcher : LeaseWatcher
  net : Net

/-- Before the first event, with nothing in the tables. -/
def VxlanState.start (own : Lease) : VxlanState := ⟨LeaseWatcher.new own, ⟨.empty, 0, []⟩⟩

/-- The events that `update` emits go to `handle_subnet_events`. -/
def vxlanStep (decode : String → Option (Nat × Option String)) (env : NetEnv) (state : NetState)
    (s : VxlanState) (e : Event) : Option VxlanState :=
  let u := s.watcher.update [e]
  some ⟨u.1, handleVxlanEvents decode env state u.2 s.net⟩

/-- The entries that the stored leases ask for. -/
def VxlanState.Wanted (decode : String → Option (Nat × Option String)) (d : VXLANDevice)
    (s : VxlanState) (t : Tunnel) : Prop :=
  ∃ l ∈ s.watcher.leases, v4Tunnel decode d l = some t

/-- The condition on a step.  The lease that comes in shares its network address and its
VTEP address with the stored leases of its subnet and with no others --- unless it is
removed, and either its subnet is stored or its data cannot be read. -/
def KeysAgree (decode : String → Option (Nat × Option String)) (s : VxlanState) (e : Event) :
    Prop :=
  isOwn s.watcher.ownLease e.lease = false →
    (e.eventType = .removed →
      (∀ l ∈ s.watcher.leases, l.subnet ≠ e.lease.subnet) ∧ (vtepMac decode e.lease).isSome) →
    ∀ l ∈ s.watcher.leases, l.SameKeys decode e.lease

/-- The tables hold the entries of the stored leases. -/
structure TablesFollow (decode : String → Option (Nat × Option String)) (d : VXLANDevice)
    (s : VxlanState) : Prop where
  keyed : s.watcher.Keyed true false
  vxlan : ∀ l ∈ s.watcher.leases, l.IsVxlan
  sameKeys : ∀ l ∈ s.watcher.leases, ∀ l' ∈ s.watcher.leases, l.SameKeys decode l'
  inSync : s.net.kernel.InSync (s.Wanted decode d)

section Step

variable {decode : String → Option (Nat × Option String)} {env : NetEnv} {d : VXLANDevice}
  {v6Dev : Option VXLANDevice} {s s' : VxlanState} {e : Event} {lw : LeaseWatcher} {l : Lease}
  {k : NetTables} {t : Tunnel}

/-- The wanted entries whose route another subnet has. -/
theorem TablesFollow.wanted_other_iff (h : TablesFollow decode d s) (hl : l.IsVxlan)
    (ht : v4Tunnel decode d l = some t) {x : Tunnel} :
    s.Wanted decode d x ∧ x.routeKey ≠ t.routeKey ↔
      ∃ l', (l' ∈ s.watcher.leases ∧ l'.key true false ≠ l.key true false) ∧
        v4Tunnel decode d l' = some x := by
  have hkey : ∀ l' ∈ s.watcher.leases, v4Tunnel decode d l' = some x →
      (x.routeKey = t.routeKey ↔ l'.key true false = l.key true false) := by
    intro l' hl' hx
    rw [routeKey_eq_iff (h.vxlan l' hl') hl hx ht]
    simp [Lease.key]
  constructor
  · rintro ⟨⟨l', hl', hx⟩, hne⟩
    exact ⟨l', ⟨hl', fun heq => hne ((hkey l' hl' hx).mpr heq)⟩, hx⟩
  · rintro ⟨l', ⟨hl', hne⟩, hx⟩
    exact ⟨⟨l', hl', hx⟩, fun heq => hne ((hkey l' hl' hx).mp heq)⟩

theorem TablesFollow.sameKeys_tunnel (h : TablesFollow decode d s) (hl : l.IsVxlan)
    (ht : v4Tunnel decode d l = some t) (hkeys : ∀ l' ∈ s.watcher.leases, l'.SameKeys decode l)
    {x : Tunnel} (hx : s.Wanted decode d x) : x.SameKeys t := by
  obtain ⟨l', hl', hx⟩ := hx
  exact sameKeys_of_leases (h.vxlan l' hl') hl hx ht (hkeys l' hl')

/-- An `Added` event of a lease whose keys agree with the stored ones. -/
theorem TablesFollow.added (h : TablesFollow decode d s) (hl : l.IsVxlan)
    (ht : v4Tunnel decode d l = some t) (hkeys : ∀ l' ∈ s.watcher.leases, l'.SameKeys decode l)
    (hkeyed : lw.Keyed true false)
    (hleases : ∀ x, x ∈ lw.leases ↔
      x = l ∨ x ∈ s.watcher.leases ∧ x.key true false ≠ l.key true false)
    {net : Net} (hnet : net.kernel = s.net.kernel.install t) : TablesFollow decode d ⟨lw, net⟩ := by
  refine ⟨hkeyed, fun x hx => ?_, fun x hx y hy => ?_, ?_⟩
  · rcases (hleases x).mp hx with rfl | ⟨hx, -⟩
    · exact hl
    · exact h.vxlan x hx
  · rcases (hleases x).mp hx with rfl | ⟨hx, -⟩
    · rcases (hleases y).mp hy with rfl | ⟨hy, -⟩
      · exact ⟨Iff.intro (fun _ => rfl) fun _ => rfl, Iff.intro (fun _ => rfl) fun _ => rfl⟩
      · exact (hkeys y hy).symm
    · rcases (hleases y).mp hy with rfl | ⟨hy, -⟩
      · exact hkeys x hx
      · exact h.sameKeys x hx y hy
  · rw [hnet]
    refine h.inSync.install (fun x hx => h.sameKeys_tunnel hl ht hkeys hx) fun x => ?_
    rw [h.wanted_other_iff hl ht]
    constructor
    · rintro ⟨l', hl', hx⟩
      rcases (hleases l').mp hl' with rfl | hl'
      · exact Or.inl (Option.some.inj (hx.symm.trans ht))
      · exact Or.inr ⟨l', hl', hx⟩
    · rintro (rfl | ⟨l', hl', hx⟩)
      · exact ⟨l, (hleases l).mpr (Or.inl rfl), ht⟩
      · exact ⟨l', (hleases l').mpr (Or.inr hl'), hx⟩

/-- A `Removed` event of a lease whose keys agree with the stored ones. -/
theorem TablesFollow.removed (h : TablesFollow decode d s) (hl : l.IsVxlan)
    (ht : v4Tunnel decode d l = some t) (hkeys : ∀ l' ∈ s.watcher.leases, l'.SameKeys decode l)
    (hkeyed : lw.Keyed true false)
    (hleases : ∀ x, x ∈ lw.leases ↔ x ∈ s.watcher.leases ∧ x.key true false ≠ l.key true false)
    {net : Net} (hnet : net.kernel = s.net.kernel.withdraw t) :
    TablesFollow decode d ⟨lw, net⟩ := by
  refine ⟨hkeyed, fun x hx => h.vxlan x ((hleases x).mp hx).1,
    fun x hx y hy => h.sameKeys x ((hleases x).mp hx).1 y ((hleases y).mp hy).1, ?_⟩
  rw [hnet]
  refine h.inSync.withdraw (fun x hx => h.sameKeys_tunnel hl ht hkeys hx) fun x => ?_
  rw [h.wanted_other_iff hl ht]
  constructor
  · rintro ⟨l', hl', hx⟩
    exact ⟨l', (hleases l').mp hl', hx⟩
  · rintro ⟨l', hl', hx⟩
    exact ⟨l', (hleases l').mpr hl', hx⟩

/-- A `Removed` event whose data cannot be read: nothing is deleted, and nothing was there. -/
theorem TablesFollow.removed_unreadable (h : TablesFollow decode d s)
    (ht : v4Tunnel decode d l = none)
    (hstored : l ∈ s.watcher.leases ∨
      ∀ x ∈ s.watcher.leases, x.key true false ≠ l.key true false)
    (hkeyed : lw.Keyed true false)
    (hleases : ∀ x, x ∈ lw.leases ↔ x ∈ s.watcher.leases ∧ x.key true false ≠ l.key true false)
    {net : Net} (hnet : net.kernel = s.net.kernel) : TablesFollow decode d ⟨lw, net⟩ := by
  have hwanted : VxlanState.Wanted decode d ⟨lw, net⟩ = s.Wanted decode d := by
    ext t
    refine ⟨fun ⟨l', hl', hx⟩ => ⟨l', ((hleases l').mp hl').1, hx⟩, ?_⟩
    rintro ⟨l', hl', hx⟩
    refine ⟨l', (hleases l').mpr ⟨hl', fun hkey => ?_⟩, hx⟩
    rcases hstored with hin | hout
    · rw [Distinct.eq_of_key h.keyed.distinct hl' hin hkey, ht] at hx
      cases hx
    · exact hout l' hl' hkey
  refine ⟨hkeyed, fun x hx => h.vxlan x ((hleases x).mp hx).1,
    fun x hx y hy => h.sameKeys x ((hleases x).mp hx).1 y ((hleases y).mp hy).1, ?_⟩
  rw [hwanted, hnet]
  exact h.inSync

/-- **One event.** -/
theorem TablesFollow.step (hok : ∀ n op, env.succeeds n op = true) (hd : d.directRouting = false)
    (h : TablesFollow decode d s) (he : e.lease.IsVxlan)
    (hdata : e.eventType = .added → (vtepMac decode e.lease).isSome)
    (hkeys : KeysAgree decode s e)
    (hstep : vxlanStep decode env ⟨some d, v6Dev⟩ s e = some s') : TablesFollow decode d s' := by
  obtain ⟨hkeyed, hemits⟩ := update_one h.keyed he.flags
  rw [← Option.some.inj hstep]
  generalize (s.watcher.update [e]).1 = lw at hkeyed hemits
  generalize (s.watcher.update [e]).2 = es at hemits
  cases hemits with
  | nothing _ hsame =>
    subst hsame
    exact h
  | added hown htype hleases =>
    obtain ⟨t, ht⟩ : ∃ t, v4Tunnel decode d e.lease = some t := by
      obtain ⟨mac, hmac⟩ := Option.isSome_iff_exists.mp (hdata htype)
      exact ⟨_, Option.map_eq_some_iff.mpr ⟨mac, hmac, rfl⟩⟩
    refine h.added he ht (hkeys hown fun hremoved => ?_) hkeyed hleases ?_
    · rw [htype] at hremoved
      cases hremoved
    · rw [handle_vxlan hok hd he, ht]
  | removed hown htype l hflags hkey hstored hleases =>
    have hl : l.IsVxlan := by
      rcases hstored with hin | ⟨rfl, -⟩
      · exact h.vxlan l hin
      · exact he
    have hstored' : l ∈ s.watcher.leases ∨
        ∀ x ∈ s.watcher.leases, x.key true false ≠ l.key true false := by
      rw [hkey]
      exact hstored.imp_right And.right
    rw [← hkey] at hleases
    cases ht : v4Tunnel decode d l with
    | some t =>
      refine h.removed hl ht ?_ hkeyed hleases ?_
      · -- the stored lease agrees with the others; one that was not stored has to
        rcases hstored with hin | ⟨rfl, hout⟩
        · exact fun l' hl' => h.sameKeys l' hl' l hin
        · refine hkeys hown fun _ => ⟨fun l' hl' hnet => hout l' hl' ?_, ?_⟩
          · rw [Lease.key, Lease.key, hnet]
          · rw [(v4Tunnel_eq_some_iff.mp ht).1]
            rfl
      · rw [handle_vxlan hok hd hl, ht]
    | none => exact h.removed_unreadable ht hstored' hkeyed hleases (by
        rw [handle_vxlan hok hd hl, ht])

end Step

/-! ## Every run -/

theorem tablesFollow_start (decode : String → Option (Nat × Option String)) (d : VXLANDevice)
    (own : Lease) : TablesFollow decode d (.start own) := by
  refine ⟨keyed_new own, by simp [VxlanState.start], by simp [VxlanState.start], ?_⟩
  have hwanted : (VxlanState.start own).Wanted decode d = fun _ => False := by
    ext t
    simp [VxlanState.Wanted, VxlanState.start]
  rw [hwanted]
  exact NetTables.inSync_empty

/-- **The tables follow the leases** in every run of IPv4 VXLAN events with readable data in
which the keys of each lease that comes in agree with the stored ones: after every event,
the ARP entries, the forwarding entries and the routes are those of the stored leases, and
there are no others. -/
theorem vxlan_tables_follow_leases (decode : String → Option (Nat × Option String)) (env : NetEnv)
    (hok : ∀ n op, env.succeeds n op = true) (d : VXLANDevice) (hd : d.directRouting = false)
    (v6Dev : Option VXLANDevice) (own : Lease) (es : List Event)
    (hes : ∀ e ∈ es, e.lease.IsVxlan ∧ (e.eventType = .added → (vtepMac decode e.lease).isSome))
    (hkeys : Run.Along (vxlanStep decode env ⟨some d, v6Dev⟩) (KeysAgree decode) (.start own) es)
    (s : VxlanState)
    (hrun : Run.run (vxlanStep decode env ⟨some d, v6Dev⟩) (.start own) es = some s) :
    s.net.kernel.InSync fun t => ∃ l ∈ s.watcher.leases, v4Tunnel decode d l = some t := by
  have hs : TablesFollow decode d s :=
    Run.run_invariant (fun s e t hP hQ hstep => hP.step hok hd hQ.2.1 hQ.2.2 hQ.1 hstep)
      (tablesFollow_start decode d own) (hkeys.and (Run.along_of_forall hes)) hrun
  exact hs.inSync

/-! ## A peer that is set up again -/

/-- `10.2.2.0/24` with a VTEP address and a public address. -/
def vtepLease (mac : String) (publicIp : BitVec 32) : Lease :=
  { v4Lease 0x0a020200 with
    attrs :=
      { publicIp := ⟨publicIp⟩
        backendType := "vxlan"
        backendData := some (vtepData mac) } }

/-- Everything works. -/
def allSucceed : NetEnv := ⟨fun _ _ => true, fun _ => false, fun _ => none⟩

theorem vtepLease_isVxlan (mac : String) (publicIp : BitVec 32) :
    (vtepLease mac publicIp).IsVxlan :=
  ⟨⟨rfl, rfl⟩, rfl, by simp [vtepLease, v4Lease]⟩

/-- A peer that is announced twice. -/
def announcedTwice (first second : Lease) : List Event := [⟨.added, first⟩, ⟨.added, second⟩]

/-- The peer comes back with another public address: its entries are replaced. -/
theorem vxlan_tables_follow_leases_moved :
    ∃ s, Run.run (vxlanStep decodePeers allSucceed ⟨some ⟨5, false⟩, none⟩)
        (.start (v4Lease 0x0a010000))
        (announcedTwice (vtepLease "0a:00:00:00:00:01" 0xc0a80001)
          (vtepLease "0a:00:00:00:00:01" 0xc0a80002)) = some s ∧
      s.net.kernel.fdb (5, #v[10, 0, 0, 0, 0, 1]) = some (.v4 ⟨0xc0a80002⟩) ∧
      s.net.kernel.InSync fun t =>
        ∃ l ∈ s.watcher.leases, v4Tunnel decodePeers ⟨5, false⟩ l = some t := by
  have hevents : ∀ e ∈ announcedTwice (vtepLease "0a:00:00:00:00:01" 0xc0a80001)
      (vtepLease "0a:00:00:00:00:01" 0xc0a80002),
      e.lease.IsVxlan ∧ (e.eventType = .added → (vtepMac decodePeers e.lease).isSome) := by
    intro e he
    simp only [announcedTwice, List.mem_cons, List.not_mem_nil, or_false] at he
    rcases he with rfl | rfl
    · exact ⟨vtepLease_isVxlan _ _, fun _ => by decide⟩
    · exact ⟨vtepLease_isVxlan _ _, fun _ => by decide⟩
  refine ⟨_, rfl, by decide, vxlan_tables_follow_leases decodePeers allSucceed (fun _ _ => rfl)
    ⟨5, false⟩ rfl none (v4Lease 0x0a010000) _ hevents ?_ _ rfl⟩
  refine ⟨fun _ _ l hl => ?_, fun t ht => ⟨fun _ _ l hl => ?_, fun _ _ => trivial⟩⟩
  · cases hl
  · obtain rfl := Option.some.inj ht
    obtain rfl : l = vtepLease "0a:00:00:00:00:01" 0xc0a80001 := List.mem_singleton.mp hl
    exact ⟨by decide, by decide⟩

/-- The peer comes back with another VTEP address: the old forwarding entry stays. -/
theorem stale_fdb_entry_is_left :
    ∃ s, Run.run (vxlanStep decodePeers allSucceed ⟨some ⟨5, false⟩, none⟩)
        (.start (v4Lease 0x0a010000))
        (announcedTwice (vtepLease "0a:00:00:00:00:01" 0xc0a80001)
          (vtepLease "0a:00:00:00:00:02" 0xc0a80001)) = some s ∧
      s.watcher.leases = [vtepLease "0a:00:00:00:00:02" 0xc0a80001] ∧
      s.net.kernel.fdb (5, #v[10, 0, 0, 0, 0, 1]) = some (.v4 ⟨0xc0a80001⟩) ∧
      ¬ s.net.kernel.InSync fun t =>
        ∃ l ∈ s.watcher.leases, v4Tunnel decodePeers ⟨5, false⟩ l = some t := by
  refine ⟨_, rfl, by decide, by decide, fun hsync => ?_⟩
  obtain ⟨t, ⟨l, hl, ht⟩, hkey, -⟩ :=
    (hsync.fdb (5, #v[10, 0, 0, 0, 0, 1]) (.v4 ⟨0xc0a80001⟩)).mp (by decide)
  obtain rfl : l = vtepLease "0a:00:00:00:00:02" 0xc0a80001 := List.mem_singleton.mp hl
  have hmac : vtepMac decodePeers (vtepLease "0a:00:00:00:00:02" 0xc0a80001) =
      some #v[10, 0, 0, 0, 0, 2] := by decide
  rw [(v4Tunnel_eq_some_iff.mp ht).1] at hmac
  have hold : t.mac = #v[10, 0, 0, 0, 0, 1] := (Prod.mk.inj hkey).2
  rw [hold] at hmac
  exact absurd hmac (by decide)

end Flannel
