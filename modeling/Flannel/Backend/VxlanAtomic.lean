import Flannel.Backend.VxlanEvents
import Flannel.Lib.Table

/-!
# A peer is programmed completely or not at all

An `Added` event writes three entries for each family, one after another, and each of them
may fail for good.  What was written before has to be taken back, or traffic to the peer
runs into a hole that nobody looks at again: the next event for the subnet may never come.

`Adds` lists everything that one family's half can do (`addSubnet_adds`).  Under the condition
that the subnet has no entries yet and that the deletions succeed, this leaves two results: the
three entries are there, or the tables are as they were (`Adds.added`, `Adds.failed`).  The
handler only goes on to the IPv6 half after the first, and so the event as a whole has three
(`added_outcome`), of which each leaves a family with all of its entries or with none.
-/

namespace Flannel

/-! ## Operations -/

/-- The operation on the tables, if it succeeds. -/
def NetOp.applyIf (op : NetOp) (ok : Bool) (k : NetTables) : NetTables :=
  if ok then op.apply k else k

@[simp] theorem NetOp.applyIf_true (op : NetOp) (k : NetTables) : op.applyIf true k = op.apply k :=
  rfl

@[simp] theorem NetOp.applyIf_false (op : NetOp) (k : NetTables) : op.applyIf false k = k :=
  rfl

/-- The state after an operation that came to `ok` and with it to `a` attempts. -/
def Net.after (net : Net) (op : NetOp) (ok : Bool) (a : Nat) : Net :=
  ⟨op.applyIf ok net.kernel, a, net.results ++ [(op, ok)]⟩

/-- The call is one operation, done or not. -/
def Performs (call : NetOp → Net → Net × Bool) : Prop :=
  ∀ op net, ∃ ok a, call op net = (net.after op ok a, ok)

theorem retryLoop_eq (env : NetEnv) (op : NetOp) (n : Nat) (net : Net) :
    ∃ ok a, retryLoop env op n net = (⟨op.applyIf ok net.kernel, a, net.results⟩, ok) := by
  induction n generalizing net with
  | zero => exact ⟨env.succeeds net.attempts op, net.attempts + 1, rfl⟩
  | succ n ih =>
    unfold retryLoop
    dsimp only
    split
    · exact ⟨env.succeeds net.attempts op, net.attempts + 1, rfl⟩
    · rename_i hfail
      split
      · exact ⟨env.succeeds net.attempts op, net.attempts + 1, rfl⟩
      · -- a failed attempt has left the tables alone
        obtain ⟨ok, a, h⟩ := ih (attempt env op net).1
        have hkernel : (attempt env op net).1.kernel = net.kernel := by
          have hno : env.succeeds net.attempts op = false := by
            simpa [attempt] using hfail
          simp [attempt, hno]
        rw [hkernel] at h
        exact ⟨ok, a, h⟩

/-- **Retries.**  However many attempts it takes, the operation is done once or not at
all. -/
theorem retryDo_performs (env : NetEnv) : Performs (retryDo env) := by
  intro op net
  obtain ⟨ok, a, h⟩ := retryLoop_eq env op 9 net
  exact ⟨ok, a, by rw [retryDo, h, record, Net.after]⟩

theorem once_performs (env : NetEnv) : Performs (once env) := by
  intro op net
  exact ⟨env.succeeds net.attempts op, net.attempts + 1, rfl⟩

/-! ## The entries of a tunnel -/

namespace Tunnel

/-- The key of the ARP entry. -/
def arpKey (t : Tunnel) : Nat × IpAddr := (t.ifindex, t.gw)

/-- The key of the forwarding entry. -/
def fdbKey (t : Tunnel) : Nat × MacAddr := (t.ifindex, t.mac)

/-- The key of the route. -/
def routeKey (t : Tunnel) : IpAddr × Nat := t.route.destination

/-- The operations, bound to the tunnel. -/
def addArp (t : Tunnel) : NetOp := .addArp t.ifindex t.mac t.gw

@[inherit_doc addArp]
def delArp (t : Tunnel) : NetOp := .delArp t.ifindex t.mac t.gw

@[inherit_doc addArp]
def addFdb (t : Tunnel) : NetOp := .addFdb t.ifindex t.mac t.vtep

@[inherit_doc addArp]
def delFdb (t : Tunnel) : NetOp := .delFdb t.ifindex t.mac t.vtep

@[inherit_doc addArp]
def addRoute (t : Tunnel) : NetOp := .routeReplace t.route

/-- What an `Added` event does for the tunnel. -/
def additions (t : Tunnel) : List NetOp := [t.addArp, t.addFdb, t.addRoute]

end Tunnel

namespace NetTables

/-- All three entries are written. -/
def install (k : NetTables) (t : Tunnel) : NetTables where
  arp := Function.update k.arp t.arpKey (some t.mac)
  fdb := Function.update k.fdb t.fdbKey (some t.vtep)
  routes := Function.update k.routes t.routeKey (some t.route)

/-- All three entries are there. -/
def HasAll (k : NetTables) (t : Tunnel) : Prop :=
  k.arp t.arpKey = some t.mac ∧ k.fdb t.fdbKey = some t.vtep ∧ k.routes t.routeKey = some t.route

/-- None of the entries is there. -/
def HasNone (k : NetTables) (t : Tunnel) : Prop :=
  k.arp t.arpKey = none ∧ k.fdb t.fdbKey = none ∧ k.routes t.routeKey = none

/-- The tables agree on every entry that is not one of these tunnels'. -/
def AgreeOff (ts : List Tunnel) (k k' : NetTables) : Prop :=
  (∀ key, (∀ t ∈ ts, t.arpKey ≠ key) → k'.arp key = k.arp key) ∧
    (∀ key, (∀ t ∈ ts, t.fdbKey ≠ key) → k'.fdb key = k.fdb key) ∧
    ∀ key, (∀ t ∈ ts, t.routeKey ≠ key) → k'.routes key = k.routes key

theorem apply_additions (k : NetTables) (t : Tunnel) :
    t.addRoute.apply (t.addFdb.apply (t.addArp.apply k)) = k.install t := rfl

theorem install_hasAll (k : NetTables) (t : Tunnel) : (k.install t).HasAll t := by
  simp [HasAll, install]

theorem AgreeOff.refl (ts : List Tunnel) (k : NetTables) : AgreeOff ts k k :=
  ⟨fun _ _ => rfl, fun _ _ => rfl, fun _ _ => rfl⟩

theorem AgreeOff.install {ts : List Tunnel} {k k' : NetTables} (h : AgreeOff ts k k') {t : Tunnel}
    (ht : t ∈ ts) : AgreeOff ts k (k'.install t) := by
  obtain ⟨harp, hfdb, hroutes⟩ := h
  refine ⟨fun key hkey => ?_, fun key hkey => ?_, fun key hkey => ?_⟩
  · rw [← harp key hkey]
    exact Function.update_of_ne (hkey t ht).symm _ _
  · rw [← hfdb key hkey]
    exact Function.update_of_ne (hkey t ht).symm _ _
  · rw [← hroutes key hkey]
    exact Function.update_of_ne (hkey t ht).symm _ _

/-- A tunnel with other keys does not notice. -/
theorem install_apart {k : NetTables} {t u : Tunnel} (harp : u.arpKey ≠ t.arpKey)
    (hfdb : u.fdbKey ≠ t.fdbKey) (hroute : u.routeKey ≠ t.routeKey) :
    (k.install t).arp u.arpKey = k.arp u.arpKey ∧ (k.install t).fdb u.fdbKey = k.fdb u.fdbKey ∧
      (k.install t).routes u.routeKey = k.routes u.routeKey :=
  ⟨Function.update_of_ne harp _ _, Function.update_of_ne hfdb _ _,
    Function.update_of_ne hroute _ _⟩

end NetTables

/-! ## One family -/

/-- Everything that the encapsulated half of an `Added` event can do, with what it notes
about its operations. -/
inductive Adds (t : Tunnel) (net : Net) : Net × Bool → Prop where
  | done (a : Nat) : Adds t net
      (⟨net.kernel.install t, a,
        net.results ++ [(t.addArp, true), (t.addFdb, true), (t.addRoute, true)]⟩, true)
  | arpFailed (a : Nat) : Adds t net (⟨net.kernel, a, net.results ++ [(t.addArp, false)]⟩, false)
  | fdbFailed (a : Nat) (d : Bool) : Adds t net
      (⟨t.delArp.applyIf d (t.addArp.apply net.kernel), a,
        net.results ++ [(t.addArp, true), (t.addFdb, false), (t.delArp, d)]⟩, false)
  | routeFailed (a : Nat) (d d' : Bool) : Adds t net
      (⟨t.delFdb.applyIf d' (t.delArp.applyIf d (t.addFdb.apply (t.addArp.apply net.kernel))), a,
        net.results ++ [(t.addArp, true), (t.addFdb, true), (t.addRoute, false), (t.delArp, d),
          (t.delFdb, d')]⟩, false)

/-- The deletions that were asked for were done. -/
def DeletesSucceed (results : List (NetOp × Bool)) : Prop :=
  ∀ x ∈ results, x.1.isDelete = true → x.2 = true

section Family

variable {env : NetEnv} {cleanUp : NetOp → Net → Net × Bool} {p : SubnetPlan} {net : Net}

/-- The source's text with the operations bound to the tunnel. -/
theorem addSubnet_eq (hdirect : p.directOk = false) :
    addSubnet env cleanUp p net =
      if !(retryDo env p.tunnel.addArp net).2 then ((retryDo env p.tunnel.addArp net).1, false)
      else
        let fdb := retryDo env p.tunnel.addFdb (retryDo env p.tunnel.addArp net).1
        if !fdb.2 then ((retryDo env p.tunnel.delArp fdb.1).1, false)
        else
          let route := retryDo env p.tunnel.addRoute fdb.1
          if !route.2 then
            ((cleanUp p.tunnel.delFdb (cleanUp p.tunnel.delArp route.1).1).1, false)
          else route := by
  rw [addSubnet, if_neg (by simp [hdirect])]
  rfl

theorem addSubnet_adds (hclean : Performs cleanUp) (hdirect : p.directOk = false) :
    Adds p.tunnel net (addSubnet env cleanUp p net) := by
  have hretry := retryDo_performs env
  rw [addSubnet_eq hdirect]
  obtain ⟨ok₁, a₁, harp⟩ := hretry p.tunnel.addArp net
  rw [harp]
  cases ok₁ with
  | false => exact .arpFailed a₁
  | true =>
    obtain ⟨ok₂, a₂, hfdb⟩ := hretry p.tunnel.addFdb (net.after p.tunnel.addArp true a₁)
    dsimp only
    rw [hfdb]
    cases ok₂ with
    | false =>
      obtain ⟨d, a₃, hdel⟩ := hretry p.tunnel.delArp
        ((net.after p.tunnel.addArp true a₁).after p.tunnel.addFdb false a₂)
      dsimp only
      rw [hdel]
      simpa [Net.after] using Adds.fdbFailed a₃ d
    | true =>
      obtain ⟨ok₃, a₃, hroute⟩ := hretry p.tunnel.addRoute
        ((net.after p.tunnel.addArp true a₁).after p.tunnel.addFdb true a₂)
      dsimp only
      rw [hroute]
      cases ok₃ with
      | false =>
        obtain ⟨d, a₄, hdel⟩ := hclean p.tunnel.delArp
          (((net.after p.tunnel.addArp true a₁).after p.tunnel.addFdb true a₂).after
            p.tunnel.addRoute false a₃)
        dsimp only
        rw [hdel]
        obtain ⟨d', a₅, hdel'⟩ := hclean p.tunnel.delFdb
          ((((net.after p.tunnel.addArp true a₁).after p.tunnel.addFdb true a₂).after
            p.tunnel.addRoute false a₃).after p.tunnel.delArp d a₄)
        dsimp only
        rw [hdel']
        simpa [Net.after] using Adds.routeFailed a₅ d d'
      | true => simpa [Net.after, NetTables.apply_additions] using Adds.done a₃

/-- A half that succeeds has written all three entries. -/
theorem Adds.added {t : Tunnel} {r : Net × Bool} (h : Adds t net r) (hok : r.2 = true) :
    r.1.kernel = net.kernel.install t ∧
      ∀ op, (op, false) ∈ r.1.results → (op, false) ∈ net.results := by
  cases h with
  | done a => exact ⟨rfl, fun op hop => by simpa using hop⟩
  | arpFailed a => cases hok
  | fdbFailed a d => cases hok
  | routeFailed a d d' => cases hok

/-- A half that fails has taken back what it had written. -/
theorem Adds.failed {t : Tunnel} {r : Net × Bool} (h : Adds t net r) (hfail : r.2 = false)
    (hnone : net.kernel.HasNone t) (hdel : DeletesSucceed r.1.results) :
    r.1.kernel = net.kernel := by
  obtain ⟨harp, hfdb, -⟩ := hnone
  cases h with
  | done a => cases hfail
  | arpFailed a => rfl
  | fdbFailed a d =>
    obtain rfl : d = true := hdel (t.delArp, d) (by simp) rfl
    have hundo := Table.update_undo (v := t.mac) harp
    simp only [NetOp.applyIf_true, Tunnel.addArp, Tunnel.delArp, NetOp.apply]
    rw [show (t.ifindex, t.gw) = t.arpKey from rfl, hundo]
  | routeFailed a d d' =>
    obtain rfl : d = true := hdel (t.delArp, d) (by simp) rfl
    obtain rfl : d' = true := hdel (t.delFdb, d') (by simp) rfl
    have hundo := Table.update_undo (v := t.mac) harp
    have hundo' := Table.update_undo (v := t.vtep) hfdb
    simp only [NetOp.applyIf_true, Tunnel.addArp, Tunnel.delArp, Tunnel.addFdb, Tunnel.delFdb,
      NetOp.apply]
    rw [show (t.ifindex, t.gw) = t.arpKey from rfl, show (t.ifindex, t.mac) = t.fdbKey from rfl,
      hundo, hundo']

/-- Every operation that was noted on the way is one of the tunnel's. -/
theorem Adds.results_eq {t : Tunnel} {r : Net × Bool} (h : Adds t net r) :
    ∃ more, r.1.results = net.results ++ more ∧
      ∀ x ∈ more, x.1 ∈ t.additions ∨ x.1.isDelete = true := by
  cases h with
  | done a => exact ⟨_, rfl, by simp [Tunnel.additions]⟩
  | arpFailed a => exact ⟨_, rfl, by simp [Tunnel.additions]⟩
  | fdbFailed a d => exact ⟨_, rfl, by simp [Tunnel.additions, Tunnel.delArp, NetOp.isDelete]⟩
  | routeFailed a d d' =>
    exact ⟨_, rfl, by simp [Tunnel.additions, Tunnel.delArp, Tunnel.delFdb, NetOp.isDelete]⟩

end Family

/-! ## The whole event -/

section Event

variable {decode : String → Option (Nat × Option String)} {env : NetEnv} {state : NetState}
  {lease : Lease}

/-- The IPv4 entries that a lease has on this node, if the family is enabled. -/
def NetState.v4Tunnel (decode : String → Option (Nat × Option String)) (state : NetState)
    (lease : Lease) : Option Tunnel :=
  if lease.enableIpv4 then state.dev.bind fun d => Flannel.v4Tunnel decode d lease else none

/-- The IPv6 entries that a lease has on this node, if the family is enabled and the subnet
is not empty. -/
def NetState.v6Tunnel (decode : String → Option (Nat × Option String)) (state : NetState)
    (lease : Lease) : Option Tunnel :=
  if lease.enableIpv6 && !lease.ipv6Subnet.empty then
    state.v6Dev.bind fun d => Flannel.v6Tunnel decode d lease
  else none

theorem v4Plan_tunnel {p : Option SubnetPlan} (h : v4Plan decode env state.dev lease = some p) :
    p.map (·.tunnel) = state.v4Tunnel decode lease := by
  unfold v4Plan at h
  split at h
  · rename_i d hen hdev
    rw [NetState.v4Tunnel, if_pos hen, hdev, Option.bind_some]
    obtain ⟨t, ht, rfl⟩ := Option.map_eq_some_iff.mp h
    rw [ht, Option.map_some]
  · rename_i hno
    obtain rfl := Option.some.inj h
    rw [NetState.v4Tunnel]
    split
    · rename_i hen
      cases hdev : state.dev with
      | none => rfl
      | some d => exact absurd hdev (hno d hen)
    · rfl

theorem v6Plan_tunnel {p : Option SubnetPlan} (h : v6Plan decode env state.v6Dev lease = some p) :
    p.map (·.tunnel) = state.v6Tunnel decode lease := by
  unfold v6Plan at h
  split at h
  · rename_i d hen hdev
    rw [NetState.v6Tunnel, hen, Bool.true_and, hdev, Option.bind_some]
    obtain ⟨t, ht, rfl⟩ := Option.map_eq_some_iff.mp h
    cases lease.ipv6Subnet.empty with
    | true => rfl
    | false =>
      rw [ht]
      rfl
  · rename_i hno
    obtain rfl := Option.some.inj h
    rw [NetState.v6Tunnel]
    split
    · rename_i hen
      cases hdev : state.v6Dev with
      | none => rfl
      | some d => exact absurd hdev (hno d (Bool.and_eq_true_iff.mp hen).1)
    · rfl

theorem v4Plan_directOk {p : SubnetPlan} (h : v4Plan decode env state.dev lease = some (some p))
    (hdirect : ∀ d ∈ state.dev, directOk env d (.v4 lease.attrs.publicIp) = false) :
    p.directOk = false := by
  unfold v4Plan at h
  split at h
  · rename_i d _ hdev
    obtain ⟨t, -, hp⟩ := Option.map_eq_some_iff.mp h
    rw [← Option.some.inj hp]
    exact hdirect d hdev
  · cases h

theorem v6Plan_directOk {p : SubnetPlan} (h : v6Plan decode env state.v6Dev lease = some (some p))
    (hdirect : ∀ d ∈ state.v6Dev,
      directOk env d (.v6 (lease.attrs.publicIpv6.getD default)) = false) :
    p.directOk = false := by
  unfold v6Plan at h
  split at h
  · rename_i d _ hdev
    obtain ⟨t, -, hp⟩ := Option.map_eq_some_iff.mp h
    split at hp
    · cases hp
    · rw [← Option.some.inj hp]
      exact hdirect d hdev
  · cases h

/-- The entries of the two families have different keys, the forwarding entries apart. -/
theorem families_apart {t u : Tunnel} (ht : t ∈ state.v4Tunnel decode lease)
    (hu : u ∈ state.v6Tunnel decode lease) :
    t.arpKey ≠ u.arpKey ∧ t.routeKey ≠ u.routeKey ∧ ∀ op ∈ t.additions, op ∉ u.additions := by
  obtain ⟨d, mac, rfl⟩ : ∃ d mac, t = Tunnel.mk d mac (.v4 lease.subnet.ip)
      (.v4 lease.attrs.publicIp) (v4VxlanRoute d lease.subnet) := by
    rw [NetState.v4Tunnel, Option.mem_def] at ht
    split at ht
    · obtain ⟨dev, -, htun⟩ := Option.bind_eq_some_iff.mp ht
      obtain ⟨mac, -, rfl⟩ := Option.map_eq_some_iff.mp htun
      exact ⟨dev.ifindex, mac, rfl⟩
    · cases ht
  obtain ⟨d', mac', rfl⟩ : ∃ d mac, u = Tunnel.mk d mac (.v6 lease.ipv6Subnet.ip)
      (.v6 (lease.attrs.publicIpv6.getD default)) (v6VxlanRoute d lease.ipv6Subnet) := by
    rw [NetState.v6Tunnel, Option.mem_def] at hu
    split at hu
    · obtain ⟨dev, -, htun⟩ := Option.bind_eq_some_iff.mp hu
      obtain ⟨mac, -, rfl⟩ := Option.map_eq_some_iff.mp htun
      exact ⟨dev.ifindex, mac, rfl⟩
    · cases hu
  simp [Tunnel.arpKey, Tunnel.routeKey, NetRoute.destination, Tunnel.additions, Tunnel.addArp,
    Tunnel.addFdb, Tunnel.addRoute, v4VxlanRoute, v6VxlanRoute, vxlanRoute]

/-- The tables with the entries of the tunnels. -/
def NetTables.installAll (k : NetTables) (ts : List Tunnel) : NetTables := ts.foldl install k

/-- One half of an event, on the tunnel that is to be set up, if there is one. -/
inductive Half (net : Net) : Option Tunnel → Net × Bool → Prop where
  | nothing : Half net none (net, true)
  | adds {t : Tunnel} {r : Net × Bool} (h : Adds t net r) : Half net (some t) r

theorem addV4_half {p : Option SubnetPlan} (h : v4Plan decode env state.dev lease = some p)
    (hdirect : ∀ d ∈ state.dev, directOk env d (.v4 lease.attrs.publicIp) = false) (net : Net) :
    Half net (state.v4Tunnel decode lease) (addV4 env p net) := by
  rw [← v4Plan_tunnel h]
  cases p with
  | none => exact .nothing
  | some p => exact .adds (addSubnet_adds (once_performs env) (v4Plan_directOk h hdirect))

theorem addV6_half {p : Option SubnetPlan} (h : v6Plan decode env state.v6Dev lease = some p)
    (hdirect : ∀ d ∈ state.v6Dev,
      directOk env d (.v6 (lease.attrs.publicIpv6.getD default)) = false) (net : Net) :
    Half net (state.v6Tunnel decode lease) (addV6 env p net) := by
  rw [← v6Plan_tunnel h]
  cases p with
  | none => exact .nothing
  | some p => exact .adds (addSubnet_adds (retryDo_performs env) (v6Plan_directOk h hdirect))

theorem Half.added {net : Net} {t : Option Tunnel} {r : Net × Bool} (h : Half net t r)
    (hok : r.2 = true) :
    r.1.kernel = net.kernel.installAll t.toList ∧
      ∀ op, (op, false) ∈ r.1.results → (op, false) ∈ net.results := by
  cases h with
  | nothing => exact ⟨rfl, fun _ h => h⟩
  | adds h => exact h.added hok

theorem Half.failed {net : Net} {t : Option Tunnel} {r : Net × Bool} (h : Half net t r)
    (hfail : r.2 = false) (hnone : ∀ u ∈ t, net.kernel.HasNone u)
    (hdel : DeletesSucceed r.1.results) : r.1.kernel = net.kernel := by
  cases h with
  | nothing => rfl
  | adds h => exact h.failed hfail (hnone _ rfl) hdel

/-- What a half notes about other operations was noted before. -/
theorem Half.results_mem {net : Net} {t : Option Tunnel} {r : Net × Bool} (h : Half net t r)
    {x : NetOp × Bool} (hx : x ∈ r.1.results) (hdel : x.1.isDelete = false)
    (hother : ∀ u ∈ t, x.1 ∉ u.additions) : x ∈ net.results := by
  cases h with
  | nothing => exact hx
  | adds h =>
    obtain ⟨more, hmore, hops⟩ := h.results_eq
    rw [hmore, List.mem_append] at hx
    rcases hx with hx | hx
    · exact hx
    · rcases hops x hx with hadd | hd
      · exact absurd hadd (hother _ rfl)
      · rw [hdel] at hd
        cases hd

theorem Tunnel.additions_not_delete {t : Tunnel} {op : NetOp} (h : op ∈ t.additions) :
    op.isDelete = false := by
  simp only [additions, List.mem_cons, List.not_mem_nil, or_false] at h
  rcases h with rfl | rfl | rfl <;> rfl

/-- The IPv6 entries are still missing after the IPv4 half. -/
theorem hasNone_installAll {k : NetTables} {u : Tunnel} (hu : u ∈ state.v6Tunnel decode lease)
    (hmac : ∀ t ∈ state.v4Tunnel decode lease, t.fdbKey ≠ u.fdbKey) (hnone : k.HasNone u) :
    (k.installAll (state.v4Tunnel decode lease).toList).HasNone u := by
  cases ht : state.v4Tunnel decode lease with
  | none => exact hnone
  | some t =>
    obtain ⟨harp, hroute, -⟩ := families_apart ht hu
    obtain ⟨h₁, h₂, h₃⟩ := NetTables.install_apart (k := k) harp.symm (hmac t ht).symm hroute.symm
    exact ⟨h₁.trans hnone.1, h₂.trans hnone.2.1, h₃.trans hnone.2.2⟩

theorem NetTables.AgreeOff.installAll {k k' : NetTables} {ts us : List Tunnel}
    (h : AgreeOff ts k k') (hus : ∀ u ∈ us, u ∈ ts) : AgreeOff ts k (k'.installAll us) := by
  induction us generalizing k' with
  | nil => exact h
  | cons u us ih =>
    exact ih (h.install (hus u List.mem_cons_self)) fun x hx => hus x (List.mem_cons_of_mem _ hx)

/-- The entries of both families are there after both halves. -/
theorem installAll_hasAll {k : NetTables}
    (hmac : ∀ t ∈ state.v4Tunnel decode lease, ∀ u ∈ state.v6Tunnel decode lease,
      t.fdbKey ≠ u.fdbKey) :
    ∀ t, t ∈ state.v4Tunnel decode lease ∨ t ∈ state.v6Tunnel decode lease →
      (k.installAll ((state.v4Tunnel decode lease).toList ++
        (state.v6Tunnel decode lease).toList)).HasAll t := by
  cases ht : state.v4Tunnel decode lease with
  | none =>
    cases hu : state.v6Tunnel decode lease with
    | none => simp
    | some u =>
      rintro x (hx | hx)
      · cases hx
      · obtain rfl := Option.some.inj hx
        exact NetTables.install_hasAll k u
  | some t =>
    cases hu : state.v6Tunnel decode lease with
    | none =>
      rintro x (hx | hx)
      · obtain rfl := Option.some.inj hx
        exact NetTables.install_hasAll k t
      · cases hx
    | some u =>
      rintro x (hx | hx)
      · obtain rfl := Option.some.inj hx
        obtain ⟨harp, hroute, -⟩ := families_apart ht hu
        obtain ⟨h₁, h₂, h₃⟩ :=
          NetTables.install_apart (k := k.install t) harp (hmac t ht u hu) hroute
        obtain ⟨hall₁, hall₂, hall₃⟩ := NetTables.install_hasAll k t
        exact ⟨h₁.trans hall₁, h₂.trans hall₂, h₃.trans hall₃⟩
      · obtain rfl := Option.some.inj hx
        exact NetTables.install_hasAll (k.install t) u

/-- The three results of an `Added` event: nothing has changed; or no IPv4 operation has
failed, and the IPv4 entries are there, or those of both families. -/
theorem added_outcome {event : Event} {k : NetTables} {n : Nat} (htype : event.eventType = .added)
    (hdirect₄ : ∀ d ∈ state.dev, directOk env d (.v4 event.lease.attrs.publicIp) = false)
    (hdirect₆ : ∀ d ∈ state.v6Dev,
      directOk env d (.v6 (event.lease.attrs.publicIpv6.getD default)) = false)
    (hnone₄ : ∀ t ∈ state.v4Tunnel decode event.lease, k.HasNone t)
    (hnone₆ : ∀ u ∈ state.v6Tunnel decode event.lease, k.HasNone u)
    (hmac : ∀ t ∈ state.v4Tunnel decode event.lease, ∀ u ∈ state.v6Tunnel decode event.lease,
      t.fdbKey ≠ u.fdbKey)
    (hdel : DeletesSucceed (handleVxlanEvent decode env state event ⟨k, n, []⟩).results) :
    (handleVxlanEvent decode env state event ⟨k, n, []⟩).kernel = k ∨
      (∀ t ∈ state.v4Tunnel decode event.lease, ∀ op ∈ t.additions,
        (op, false) ∉ (handleVxlanEvent decode env state event ⟨k, n, []⟩).results) ∧
      ((handleVxlanEvent decode env state event ⟨k, n, []⟩).kernel =
          k.installAll (state.v4Tunnel decode event.lease).toList ∨
        (handleVxlanEvent decode env state event ⟨k, n, []⟩).kernel =
          k.installAll ((state.v4Tunnel decode event.lease).toList ++
            (state.v6Tunnel decode event.lease).toList)) := by
  unfold handleVxlanEvent at hdel ⊢
  split
  · exact Or.inl rfl
  rename_i hvxlan
  rw [if_neg hvxlan] at hdel
  cases hp₄ : v4Plan decode env state.dev event.lease with
  | none => exact Or.inl rfl
  | some p₄ =>
    cases hp₆ : v6Plan decode env state.v6Dev event.lease with
    | none => exact Or.inl rfl
    | some p₆ =>
      rw [hp₄, hp₆] at hdel
      simp only [htype] at hdel ⊢
      have hv4 := addV4_half hp₄ hdirect₄ ⟨k, n, []⟩
      split
      · rename_i hok
        rw [if_pos hok] at hdel
        right
        obtain ⟨hkernel, hlog⟩ := hv4.added hok
        have hv6 := addV6_half hp₆ hdirect₆ (addV4 env p₄ ⟨k, n, []⟩).1
        refine ⟨fun t ht op hop hfalse => ?_, ?_⟩
        · have hold := hv6.results_mem hfalse (Tunnel.additions_not_delete hop)
            fun u hu => (families_apart ht hu).2.2 op hop
          exact List.not_mem_nil (hlog op hold)
        · cases hok₆ : (addV6 env p₆ (addV4 env p₄ ⟨k, n, []⟩).1).2 with
          | true =>
            right
            rw [(hv6.added hok₆).1, hkernel, NetTables.installAll, NetTables.installAll,
              NetTables.installAll, List.foldl_append]
          | false =>
            left
            have hnone : ∀ u ∈ state.v6Tunnel decode event.lease,
                (addV4 env p₄ ⟨k, n, []⟩).1.kernel.HasNone u := by
              intro u hu
              rw [hkernel]
              exact hasNone_installAll hu (fun t ht => hmac t ht u hu) (hnone₆ u hu)
            rw [hv6.failed hok₆ hnone hdel, hkernel]
      · rename_i hfail
        rw [if_neg hfail] at hdel
        exact Or.inl (hv4.failed (Bool.not_eq_true _ ▸ hfail) hnone₄ hdel)

/-- **A peer is programmed completely or not at all.**  Whatever operation of an `Added`
event on the encapsulated path fails for good, if the deletions that it leads to succeed,
then each family ends up with its three entries or with none of them; after the failure of
an IPv4 operation there are none in either family; and the entries of others are as they
were.  The subnet must have no entries yet, and the VTEP addresses must be new to the
devices --- for the IPv6 one, also with the IPv4 entries in place. -/
theorem added_all_or_none (decode : String → Option (Nat × Option String)) (env : NetEnv)
    (state : NetState) (event : Event) (k : NetTables) (n : Nat)
    (htype : event.eventType = .added)
    (hdirect₄ : ∀ d ∈ state.dev, directOk env d (.v4 event.lease.attrs.publicIp) = false)
    (hdirect₆ : ∀ d ∈ state.v6Dev,
      directOk env d (.v6 (event.lease.attrs.publicIpv6.getD default)) = false)
    (hnone₄ : ∀ t ∈ state.v4Tunnel decode event.lease, k.HasNone t)
    (hnone₆ : ∀ u ∈ state.v6Tunnel decode event.lease, k.HasNone u)
    (hmac : ∀ t ∈ state.v4Tunnel decode event.lease, ∀ u ∈ state.v6Tunnel decode event.lease,
      t.fdbKey ≠ u.fdbKey)
    (hdel : DeletesSucceed (handleVxlanEvent decode env state event ⟨k, n, []⟩).results) :
    let net := handleVxlanEvent decode env state event ⟨k, n, []⟩
    (∀ t ∈ state.v4Tunnel decode event.lease, net.kernel.HasAll t ∨ net.kernel.HasNone t) ∧
      (∀ u ∈ state.v6Tunnel decode event.lease, net.kernel.HasAll u ∨ net.kernel.HasNone u) ∧
      (∀ t ∈ state.v4Tunnel decode event.lease, ∀ op ∈ t.additions, (op, false) ∈ net.results →
        net.kernel.HasNone t ∧ ∀ u ∈ state.v6Tunnel decode event.lease, net.kernel.HasNone u) ∧
      NetTables.AgreeOff ((state.v4Tunnel decode event.lease).toList ++
        (state.v6Tunnel decode event.lease).toList) k net.kernel := by
  intro net
  have hrefl := NetTables.AgreeOff.refl ((state.v4Tunnel decode event.lease).toList ++
    (state.v6Tunnel decode event.lease).toList) k
  rcases added_outcome htype hdirect₄ hdirect₆ hnone₄ hnone₆ hmac hdel with hsame | ⟨hlog, hk⟩
  · refine ⟨fun t ht => Or.inr ?_, fun u hu => Or.inr ?_, fun t ht op hop hfalse => ⟨?_, ?_⟩, ?_⟩
    · exact hsame ▸ hnone₄ t ht
    · exact hsame ▸ hnone₆ u hu
    · exact hsame ▸ hnone₄ t ht
    · exact fun u hu => hsame ▸ hnone₆ u hu
    · exact hsame.symm ▸ hrefl
  · have hno : ∀ t ∈ state.v4Tunnel decode event.lease, ∀ op ∈ t.additions,
        (op, false) ∈ net.results →
        net.kernel.HasNone t ∧ ∀ u ∈ state.v6Tunnel decode event.lease, net.kernel.HasNone u :=
      fun t ht op hop hfalse => absurd hfalse (hlog t ht op hop)
    rcases hk with hk | hk
    · refine ⟨fun t ht => Or.inl ?_, fun u hu => Or.inr ?_, hno, ?_⟩
      · rw [hk, Option.mem_def.mp ht]
        exact NetTables.install_hasAll k t
      · rw [hk]
        exact hasNone_installAll hu (fun t ht => hmac t ht u hu) (hnone₆ u hu)
      · rw [hk]
        exact hrefl.installAll fun t ht => List.mem_append_left _ ht
    · refine ⟨fun t ht => Or.inl ?_, fun u hu => Or.inl ?_, hno, ?_⟩
      · rw [hk]
        exact installAll_hasAll hmac t (Or.inl ht)
      · rw [hk]
        exact installAll_hasAll hmac u (Or.inr hu)
      · rw [hk]
        exact hrefl.installAll fun t ht => ht

end Event

/-! ## A peer -/

/-- The data text of a peer. -/
def vtepData (mac : String) : String := s!"\x7b\"VNI\":1,\"VtepMAC\":\"{mac}\"\x7d"

/-- The texts of two peers, as they are read. -/
def decodePeers (s : String) : Option (Nat × Option String) :=
  (["0a:00:00:00:00:01", "0a:00:00:00:00:02"].find? fun mac => vtepData mac == s).map
    fun mac => (1, some mac)

/-- A dual-stack peer with `10.2.2.0/24` and `fd00::/64`. -/
def vxlanPeer : Lease where
  enableIpv4 := true
  enableIpv6 := true
  subnet := ⟨⟨0x0a020200⟩, 24⟩
  ipv6Subnet := ⟨⟨0xfd000000000000000000000000000000⟩, 64⟩
  attrs :=
    { publicIp := ⟨0xc0a80001⟩
      publicIpv6 := some ⟨1⟩
      backendType := "vxlan"
      backendData := some (vtepData "0a:00:00:00:00:01")
      backendV6Data := some (vtepData "0a:00:00:00:00:02") }

/-- No route can be written; everything else works. -/
def noRoutes : NetEnv where
  succeeds := fun _ op =>
    match op with
    | .routeReplace _ => false
    | _ => true
  cancelled := fun _ => false
  routeGet := fun _ => none

/-- The devices of a dual-stack node. -/
def dualStack : NetState := ⟨some ⟨5, false⟩, some ⟨6, false⟩⟩

/-- The entries of the peer. -/
def peerTunnel : Tunnel where
  ifindex := 5
  mac := #v[10, 0, 0, 0, 0, 1]
  gw := .v4 ⟨0x0a020200⟩
  vtep := .v4 ⟨0xc0a80001⟩
  route := v4VxlanRoute 5 ⟨⟨0x0a020200⟩, 24⟩

@[inherit_doc peerTunnel]
def peerV6Tunnel : Tunnel where
  ifindex := 6
  mac := #v[10, 0, 0, 0, 0, 2]
  gw := .v6 ⟨0xfd000000000000000000000000000000⟩
  vtep := .v6 ⟨1⟩
  route := v6VxlanRoute 6 ⟨⟨0xfd000000000000000000000000000000⟩, 64⟩

/-- Without routes, the peer is left out in both families. -/
theorem added_all_or_none_without_routes :
    let net := handleVxlanEvent decodePeers noRoutes dualStack ⟨.added, vxlanPeer⟩ ⟨.empty, 0, []⟩
    dualStack.v4Tunnel decodePeers vxlanPeer = some peerTunnel ∧
      dualStack.v6Tunnel decodePeers vxlanPeer = some peerV6Tunnel ∧
      (peerTunnel.addRoute, false) ∈ net.results ∧
      net.kernel.HasNone peerTunnel ∧ net.kernel.HasNone peerV6Tunnel := by
  intro net
  have ht : dualStack.v4Tunnel decodePeers vxlanPeer = some peerTunnel := by decide
  have hu : dualStack.v6Tunnel decodePeers vxlanPeer = some peerV6Tunnel := by decide
  have hfailed : (peerTunnel.addRoute, false) ∈ net.results := by decide
  obtain ⟨-, -, hnone, -⟩ :=
    added_all_or_none decodePeers noRoutes dualStack ⟨.added, vxlanPeer⟩ .empty 0 rfl
      (by decide) (by decide) (fun _ _ => ⟨rfl, rfl, rfl⟩) (fun _ _ => ⟨rfl, rfl, rfl⟩)
      (by decide) (by unfold DeletesSucceed; decide)
  obtain ⟨hnone₄, hnone₆⟩ :=
    hnone peerTunnel ht peerTunnel.addRoute (by simp [Tunnel.additions]) hfailed
  exact ⟨ht, hu, hfailed, hnone₄, hnone₆ peerV6Tunnel hu⟩

end Flannel
