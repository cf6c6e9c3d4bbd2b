import Flannel.Backend.WireguardPorts
import Flannel.Lease.Emitted
import Flannel.Lib.Run

/-!
# The peers of a device and the leases they stand for

A peer of a wireguard device is its public key: who has the key is let into the overlay.
So the peers should be the keys of the stored leases, no more and no less, and an `Added`
event adds the key of its lease, and a `Removed` event takes the key of its lease away.

But leases are found by their subnet.  When a node comes back with a new key, the event
carries the new key only, and the old one stays a peer for good: no later event names it.
The other way round, a key that two leases share is gone with the first of them.

So what matters is whether the key and the subnet agree on who is replaced.  `KeyAgrees`
says so of the lease that comes in and the stored ones.  There is a second way to go
wrong: a peer that has no address of the family through which it is to be reached is not
set up at all (`HasEndpoint`).
-/

namespace Flannel

open KeyedList LeaseWatcher

variable {K : Type}

/-! ## The kernel -/

/-- The peers of each device, by their keys. -/
abbrev WgKernel (K : Type) := String → K → Option (WgPeerConfig K)

section Kernel

variable [DecidableEq K]

/-- One peer of a request: it is deleted, or set in place of what its key had. -/
def configurePeer (peers : K → Option (WgPeerConfig K)) (p : WgPeerConfig K) :
    K → Option (WgPeerConfig K) :=
  Function.update peers p.publicKey (if p.flags &&& wgpeerFRemoveMe ≠ 0 then none else some p)

/-- `configure_device`, for requests that leave the other peers alone. -/
def configureDevice (kernel : WgKernel K) (cfg : WgDeviceConfig K) : WgKernel K :=
  Function.update kernel cfg.ifname (cfg.peers.foldl configurePeer (kernel cfg.ifname))

variable (keys : KeyText K) (json : JsonText WireguardLeaseAttrs)
  (lookup : String → UInt16 → Option (List SocketAddr)) (nw : WireguardNetwork K)
  (netconf : Option (IP4Net × IP6Net))

/-- What a request does to the peers. -/
def WgRequest.perform (kernel : WgKernel K) : WgRequest K → WgKernel K
  | .addPeer dev endpoint publicKey subnets =>
    match Flannel.addPeer keys lookup dev endpoint publicKey subnets with
    | some cfg => configureDevice kernel cfg
    | none => kernel
  | .addNetRoute .. => kernel

/-- What a removal does to the peers. -/
def performRemoval (kernel : WgKernel K) (removal : WGDevice K × String) : WgKernel K :=
  match removePeer keys removal.1 removal.2 with
  | some cfg => configureDevice kernel cfg
  | none => kernel

/-- One event of `handle_subnet_events`. -/
def handleWgEvent (kernel : WgKernel K) (e : Event) : WgKernel K :=
  match e.eventType with
  | .added => (handleAdded json nw netconf e.lease).foldl (WgRequest.perform keys lookup) kernel
  | .removed => (handleRemoved json nw e.lease).foldl (performRemoval keys) kernel

/-- `handle_subnet_events`. -/
def handleWgEvents (kernel : WgKernel K) (batch : List Event) : WgKernel K :=
  batch.foldl (handleWgEvent keys json lookup nw netconf) kernel

end Kernel

/-! ## The key of a lease -/

/-- A lease of a wireguard node with these families. -/
structure Lease.IsWireguard (v4 v6 : Bool) (l : Lease) : Prop where
  flags : l.HasFlags v4 v6
  backendType : l.attrs.backendType = "wireguard"

/-- The data of a lease of one family. -/
def peerAttrs (json : JsonText WireguardLeaseAttrs) (l : Lease) : Option WireguardLeaseAttrs :=
  if l.enableIpv6 then familyAttrs json true l.attrs.backendV6Data
  else familyAttrs json true l.attrs.backendData

/-- The public key of a lease of one family, if its data can be read. -/
def peerKey (keys : KeyText K) (json : JsonText WireguardLeaseAttrs) (l : Lease) : Option K :=
  (peerAttrs json l).bind fun a => keys.parse a.publicKey

/-- The device for the peers of a family. -/
def WireguardNetwork.peerDevice (nw : WireguardNetwork K) (v6 : Bool) : Option (WGDevice K) :=
  if nw.mode = .separate ∧ v6 = true then nw.v6Dev else nw.dev

/-- Whether the node of a lease of one family is to be reached through IPv6. -/
def WireguardNetwork.ReachedOverIpv6 (nw : WireguardNetwork K) (l : Lease) : Prop :=
  if nw.mode = .separate then l.enableIpv6 = true
  else endpointMode nw.mode nw.ei l.attrs = .ipv6

/-- The lease has an address of the family through which its node is to be reached. -/
def WireguardNetwork.HasEndpoint (nw : WireguardNetwork K) (l : Lease) : Prop :=
  nw.ReachedOverIpv6 l → l.attrs.publicIpv6.isSome = true

/-! ## What the handlers do -/

section Effects

variable {keys : KeyText K} {json : JsonText WireguardLeaseAttrs}
  {lookup : String → UInt16 → Option (List SocketAddr)} {nw : WireguardNetwork K}
  {netconf : Option (IP4Net × IP6Net)} {kernel : WgKernel K} {l : Lease} {v4 v6 : Bool}
  {d : WGDevice K} {k : K}

/-- The requests for the peer of a lease: the peer itself, on the device of its family and
with the endpoint that the node is to be reached at, and routes. -/
def PeerRequests (nw : WireguardNetwork K) (v6 : Bool) (l : Lease) (publicKey : String)
    (requests : List (WgRequest K)) : Prop :=
  ∃ endpoint subnets dev dsts,
    requests = peerOn (nw.peerDevice v6) endpoint publicKey subnets ++ netRoutes dev dsts ∧
      ∃ port, (nw.ReachedOverIpv6 l → endpoint = v6Endpoint l.attrs port) ∧
        (¬ nw.ReachedOverIpv6 l → endpoint = v4Endpoint l.attrs port)

theorem addSeparate_single (hsep : nw.mode = .separate) (hl : l.HasFlags v4 v6) (hsingle : v4 ≠ v6)
    (v4Attrs v6Attrs : WireguardLeaseAttrs) :
    PeerRequests nw v6 l (if v6 then v6Attrs else v4Attrs).publicKey
      (addSeparate nw netconf l v4Attrs v6Attrs) := by
  obtain ⟨h4, h6⟩ := hl
  rw [Bool.eq_not.mpr hsingle] at h4
  cases v6 with
  | false =>
    have hreach : ¬ nw.ReachedOverIpv6 l := by
      simp [WireguardNetwork.ReachedOverIpv6, hsep, h6]
    refine ⟨v4Endpoint l.attrs (endpointPort v4Attrs.port nw.dev), [v4Allowed l], nw.dev,
      netconf.toList.map fun c => (.v4 c.1.ip, c.1.prefixLen), ?_, _, fun h => absurd h hreach,
      fun _ => rfl⟩
    have hdev : nw.peerDevice false = nw.dev := if_neg (by simp)
    rw [addSeparate, h4, h6, hdev]
    simp only [Bool.not_false, if_true, Bool.false_eq_true, if_false, List.append_nil]
  | true =>
    have hreach : nw.ReachedOverIpv6 l := by
      simp [WireguardNetwork.ReachedOverIpv6, hsep, h6]
    refine ⟨v6Endpoint l.attrs (endpointPort v6Attrs.port nw.v6Dev), [v6Allowed l], nw.v6Dev,
      netconf.toList.map fun c => (.v6 c.2.ip, c.2.prefixLen), ?_, _, fun _ => rfl,
      fun h => absurd hreach h⟩
    have hdev : nw.peerDevice true = nw.v6Dev := if_pos ⟨hsep, rfl⟩
    rw [addSeparate, h4, h6, hdev]
    simp only [Bool.not_true, if_true, Bool.false_eq_true, if_false, List.nil_append]

theorem addShared_single (hsep : nw.mode ≠ .separate) (hl : l.HasFlags v4 v6) (hsingle : v4 ≠ v6)
    (v4Attrs v6Attrs : WireguardLeaseAttrs) :
    PeerRequests nw v6 l (if v6 then v6Attrs else v4Attrs).publicKey
      (addShared nw netconf l v4Attrs v6Attrs) := by
  obtain ⟨h4, h6⟩ := hl
  rw [Bool.eq_not.mpr hsingle] at h4
  have hreach : nw.ReachedOverIpv6 l ↔ endpointMode nw.mode nw.ei l.attrs = .ipv6 := by
    rw [WireguardNetwork.ReachedOverIpv6, if_neg hsep]
  have hkey : (if l.enableIpv6 then v6Attrs else if l.enableIpv4 then v4Attrs else {}) =
      if v6 then v6Attrs else v4Attrs := by
    rw [h4, h6]
    cases v6 with
    | false => rfl
    | true => rfl
  have hdev : nw.peerDevice v6 = nw.dev := by
    rw [WireguardNetwork.peerDevice, if_neg fun h => hsep h.1]
  unfold PeerRequests
  rw [hdev, ← hkey]
  refine ⟨_, _, nw.dev, _, rfl, ?_⟩
  by_cases hmode : endpointMode nw.mode nw.ei l.attrs = .ipv6
  · exact ⟨_, fun _ => if_pos hmode, fun h => absurd (hreach.mpr hmode) h⟩
  · exact ⟨_, fun h => absurd (hreach.mp h) hmode, fun _ => if_neg hmode⟩

/-- What `handle_added` asks for. -/
theorem handleAdded_single (hl : l.IsWireguard v4 v6) (hsingle : v4 ≠ v6) :
    match peerAttrs json l with
    | some a => PeerRequests nw v6 l a.publicKey (handleAdded json nw netconf l)
    | none => handleAdded json nw netconf l = [] := by
  obtain ⟨hflags, htype⟩ := hl
  obtain ⟨h4, h6⟩ := id hflags
  rw [Bool.eq_not.mpr hsingle] at h4
  have hrequests : ∀ v4Attrs v6Attrs : WireguardLeaseAttrs,
      PeerRequests nw v6 l (if v6 then v6Attrs else v4Attrs).publicKey
        (if nw.mode = .separate then addSeparate nw netconf l v4Attrs v6Attrs
        else addShared nw netconf l v4Attrs v6Attrs) := by
    intro v4Attrs v6Attrs
    by_cases hsep : nw.mode = .separate
    · rw [if_pos hsep]
      exact addSeparate_single hsep hflags hsingle v4Attrs v6Attrs
    · rw [if_neg hsep]
      exact addShared_single hsep hflags hsingle v4Attrs v6Attrs
  rw [handleAdded, if_neg (by simp [htype]), peerAttrs, h4, h6]
  cases v6 with
  | false =>
    rw [Bool.not_false]
    have hv6 : familyAttrs json false l.attrs.backendV6Data = some {} := rfl
    rw [hv6, if_neg (by simp)]
    cases familyAttrs json true l.attrs.backendData with
    | none => rfl
    | some a => exact hrequests a {}
  | true =>
    rw [Bool.not_true]
    have hv4 : familyAttrs json false l.attrs.backendData = some {} := rfl
    rw [hv4, if_pos rfl]
    cases familyAttrs json true l.attrs.backendV6Data with
    | none => rfl
    | some a => exact hrequests {} a

/-- What `handle_removed` asks for. -/
theorem handleRemoved_single (hl : l.IsWireguard v4 v6) (hsingle : v4 ≠ v6)
    (hdev : nw.peerDevice v6 = some d) :
    handleRemoved json nw l = ((peerAttrs json l).map fun a => (d, a.publicKey)).toList := by
  obtain ⟨⟨h4, h6⟩, htype⟩ := hl
  rw [Bool.eq_not.mpr hsingle] at h4
  rw [handleRemoved, if_neg (by simp [htype]), peerAttrs, h6]
  cases v6 with
  | false =>
    have hd : nw.dev = some d := by
      simpa [WireguardNetwork.peerDevice] using hdev
    have hv4 : removeV4 json nw l =
        (familyAttrs json true l.attrs.backendData).map fun a => (a, [(d, a.publicKey)]) := by
      rw [removeV4, h4, hd]
      rfl
    rw [hv4, if_neg (by simp)]
    cases familyAttrs json true l.attrs.backendData with
    | none => rfl
    | some a => simp [removeV6, h6]
  | true =>
    have hv4 : removeV4 json nw l = some ({}, []) := by
      rw [removeV4, h4]
      rfl
    have htarget :
        (if nw.mode = .separate ∧ nw.v6Dev.isSome then nw.v6Dev else nw.dev) = some d := by
      unfold WireguardNetwork.peerDevice at hdev
      by_cases hsep : nw.mode = .separate
      · rw [if_pos ⟨hsep, rfl⟩] at hdev
        rw [if_pos ⟨hsep, by rw [hdev]; rfl⟩, hdev]
      · rw [if_neg fun h => hsep h.1] at hdev
        rw [if_neg fun h => hsep h.1, hdev]
    rw [hv4, if_pos rfl]
    dsimp only
    rw [List.nil_append, removeV6, h6, if_pos rfl, htarget]
    cases hraw : l.attrs.backendV6Data with
    | none => rfl
    | some text =>
      cases hdecode : json.decode text with
      | none => simp [familyAttrs, hdecode]
      | some a => simp [familyAttrs, hdecode]

/-- A lease with an endpoint is one whose endpoint text can be resolved. -/
theorem exists_resolveUdpAddr (lookup : String → UInt16 → Option (List SocketAddr))
    {endpoint : String} {port : UInt16} (hend : nw.HasEndpoint l)
    (h6 : nw.ReachedOverIpv6 l → endpoint = v6Endpoint l.attrs port)
    (h4 : ¬ nw.ReachedOverIpv6 l → endpoint = v4Endpoint l.attrs port) :
    ∃ addr, resolveUdpAddr lookup endpoint = some addr := by
  by_cases hreach : nw.ReachedOverIpv6 l
  · obtain ⟨ip, hip⟩ := Option.isSome_iff_exists.mp (hend hreach)
    rw [h6 hreach, resolveUdpAddr_v6Endpoint, hip]
    exact ⟨_, rfl⟩
  · rw [h4 hreach, resolveUdpAddr_v4Endpoint]
    exact ⟨_, rfl⟩

variable [DecidableEq K]

/-- Routes are not peers. -/
theorem foldl_netRoutes (dev : Option (WGDevice K)) (dsts : List (IpAddr × Nat)) :
    (netRoutes dev dsts).foldl (WgRequest.perform keys lookup) kernel = kernel := by
  cases dev with
  | none => rfl
  | some dev =>
    induction dsts with
    | nil => rfl
    | cons dst dsts ih => exact ih

/-- A peer and its routes change the peer only. -/
theorem foldl_peerOn (endpoint publicKey : String) (subnets : List WgAllowedIp)
    (dev : Option (WGDevice K)) (dsts : List (IpAddr × Nat)) :
    (peerOn (some d) endpoint publicKey subnets ++ netRoutes dev dsts).foldl
        (WgRequest.perform keys lookup) kernel =
      match Flannel.addPeer keys lookup d endpoint publicKey subnets with
      | some cfg => configureDevice kernel cfg
      | none => kernel := by
  rw [List.foldl_append]
  exact foldl_netRoutes dev dsts

theorem configureDevice_isSome {cfg : WgDeviceConfig K} {p : WgPeerConfig K}
    (hpeers : cfg.peers = [p]) (x : K) :
    (configureDevice kernel cfg cfg.ifname x).isSome ↔
      if x = p.publicKey then p.flags &&& wgpeerFRemoveMe = 0
      else (kernel cfg.ifname x).isSome := by
  rw [configureDevice, Function.update_self, hpeers, List.foldl_cons, List.foldl_nil, configurePeer,
    Function.update_apply]
  split
  · by_cases hflags : p.flags &&& wgpeerFRemoveMe = 0
    · simp [hflags]
    · simp [hflags]
  · rfl

/-- **An `Added` event** sets the peer of the lease's key, if the lease has a key and an
endpoint, and nothing else. -/
theorem handleWgEvent_added (hl : l.IsWireguard v4 v6) (hsingle : v4 ≠ v6)
    (hdev : nw.peerDevice v6 = some d) (hend : (peerKey keys json l).isSome → nw.HasEndpoint l)
    (x : K) :
    (handleWgEvent keys json lookup nw netconf kernel ⟨.added, l⟩ d.ifname x).isSome ↔
      peerKey keys json l = some x ∨ (kernel d.ifname x).isSome := by
  have hrequests := @handleAdded_single K json nw netconf l v4 v6 hl hsingle
  rw [handleWgEvent, peerKey]
  rw [peerKey] at hend
  dsimp only
  cases hattrs : peerAttrs json l with
  | none =>
    rw [hattrs] at hrequests
    rw [hrequests]
    simp
  | some a =>
    rw [hattrs] at hrequests hend
    obtain ⟨endpoint, subnets, dev, dsts, hreq, port, h6, h4⟩ := hrequests
    rw [hreq, hdev, foldl_peerOn, Option.bind_some]
    rw [Option.bind_some] at hend
    cases hk : keys.parse a.publicKey with
    | none =>
      have hadd : addPeer keys lookup d endpoint a.publicKey subnets = none := by
        simp [addPeer, hk]
      rw [hadd]
      simp
    | some k =>
      rw [hk] at hend
      obtain ⟨addr, haddr⟩ := exists_resolveUdpAddr lookup (hend rfl) h6 h4
      have hadd : ∃ cfg p, addPeer keys lookup d endpoint a.publicKey subnets = some cfg ∧
          cfg.ifname = d.ifname ∧ cfg.peers = [p] ∧ p.publicKey = k ∧
          p.flags = wgpeerFReplaceAllowedips := by
        simp [addPeer, hk, haddr]
      obtain ⟨cfg, p, hadd, hname, hpeers, rfl, hflags⟩ := hadd
      rw [hadd]
      dsimp only
      rw [← hname, configureDevice_isSome hpeers, hflags]
      split
      · rename_i hx
        simp [hx, wgpeerFReplaceAllowedips, wgpeerFRemoveMe]
      · rename_i hx
        simp [Ne.symm hx]

/-- **A `Removed` event** deletes the peer of the lease's key and nothing else. -/
theorem handleWgEvent_removed (hl : l.IsWireguard v4 v6) (hsingle : v4 ≠ v6)
    (hdev : nw.peerDevice v6 = some d) (x : K) :
    (handleWgEvent keys json lookup nw netconf kernel ⟨.removed, l⟩ d.ifname x).isSome ↔
      peerKey keys json l ≠ some x ∧ (kernel d.ifname x).isSome := by
  rw [handleWgEvent, peerKey]
  dsimp only
  rw [handleRemoved_single hl hsingle hdev]
  cases peerAttrs json l with
  | none => simp
  | some a =>
    rw [Option.map_some, Option.toList_some, List.foldl_cons, List.foldl_nil, performRemoval,
      Option.bind_some]
    dsimp only
    cases hk : keys.parse a.publicKey with
    | none =>
      have hremove : removePeer keys d a.publicKey = none := by
        simp [removePeer, hk]
      rw [hremove]
      simp
    | some k =>
      have hremove : ∃ cfg p, removePeer keys d a.publicKey = some cfg ∧ cfg.ifname = d.ifname ∧
          cfg.peers = [p] ∧ p.publicKey = k ∧ p.flags = wgpeerFRemoveMe := by
        simp [removePeer, hk]
      obtain ⟨cfg, p, hremove, hname, hpeers, rfl, hflags⟩ := hremove
      rw [hremove]
      dsimp only
      rw [← hname, configureDevice_isSome hpeers, hflags]
      split
      · rename_i hx
        simp [hx, wgpeerFRemoveMe]
      · rename_i hx
        simp [Ne.symm hx]

end Effects

/-! ## The watcher and the peers -/

/-- The watcher, and the peers behind the loop it feeds. -/
structure WgState (K : Type) where
  watcher : LeaseWatcher
  kernel : WgKernel K

/-- Before the first event, with no peers. -/
def WgState.start (own : Lease) : WgState K := ⟨LeaseWatcher.new own, fun _ _ => none⟩

/-- The first lease has the key of the second exactly if they have the same subnet. -/
def Lease.SamePeer (keys : KeyText K) (json : JsonText WireguardLeaseAttrs) (v4 v6 : Bool)
    (l l' : Lease) : Prop :=
  ∀ k, peerKey keys json l = some k →
    (peerKey keys json l' = some k ↔ l.key v4 v6 = l'.key v4 v6)

/-- The condition on a step.  A stored lease has the key of the lease that comes in exactly
if it has its subnet --- unless the lease is removed and its subnet is stored.  And a lease
that is added has an endpoint. -/
def PeersAgree (keys : KeyText K) (json : JsonText WireguardLeaseAttrs) (nw : WireguardNetwork K)
    (v4 v6 : Bool) (s : WgState K) (e : Event) : Prop :=
  isOwn s.watcher.ownLease e.lease = false →
    ((e.eventType = .removed → ∀ l ∈ s.watcher.leases, l.key v4 v6 ≠ e.lease.key v4 v6) →
      ∀ l ∈ s.watcher.leases, l.SamePeer keys json v4 v6 e.lease) ∧
    (e.eventType = .added → (peerKey keys json e.lease).isSome → nw.HasEndpoint e.lease)

/-- The peers of the device are the keys of the stored leases. -/
structure PeersFollow (keys : KeyText K) (json : JsonText WireguardLeaseAttrs) (v4 v6 : Bool)
    (d : WGDevice K) (s : WgState K) : Prop where
  keyed : s.watcher.Keyed v4 v6
  wireguard : ∀ l ∈ s.watcher.leases, l.IsWireguard v4 v6
  samePeer : ∀ l ∈ s.watcher.leases, ∀ l' ∈ s.watcher.leases, l.SamePeer keys json v4 v6 l'
  peers : ∀ k, (s.kernel d.ifname k).isSome ↔
    ∃ l ∈ s.watcher.leases, peerKey keys json l = some k

section Step

variable {keys : KeyText K} {json : JsonText WireguardLeaseAttrs} {v4 v6 : Bool} {d : WGDevice K}
  {s : WgState K} {e : Event} {lw : LeaseWatcher} {l : Lease} {kernel : WgKernel K}

/-- An `Added` event of a lease that agrees with the stored ones. -/
theorem PeersFollow.added (h : PeersFollow keys json v4 v6 d s) (hl : l.IsWireguard v4 v6)
    (hagree : ∀ l' ∈ s.watcher.leases, l'.SamePeer keys json v4 v6 l) (hkeyed : lw.Keyed v4 v6)
    (hleases : ∀ x, x ∈ lw.leases ↔ x = l ∨ x ∈ s.watcher.leases ∧ x.key v4 v6 ≠ l.key v4 v6)
    (hkernel : ∀ x, (kernel d.ifname x).isSome ↔
      peerKey keys json l = some x ∨ (s.kernel d.ifname x).isSome) :
    PeersFollow keys json v4 v6 d ⟨lw, kernel⟩ := by
  refine ⟨hkeyed, fun x hx => ?_, fun x hx y hy => ?_, fun k => ?_⟩
  · rcases (hleases x).mp hx with rfl | ⟨hx, -⟩
    · exact hl
    · exact h.wireguard x hx
  · rcases (hleases x).mp hx with rfl | ⟨hx, hne⟩
    · rcases (hleases y).mp hy with rfl | ⟨hy, hne⟩
      · exact fun k hk => iff_of_true hk rfl
      · -- a stored lease that is kept has another subnet, so it has another key
        exact fun k hk => iff_of_false (fun hyk => hne ((hagree y hy k hyk).mp hk))
          (Ne.symm hne)
    · rcases (hleases y).mp hy with rfl | ⟨hy, -⟩
      · exact hagree x hx
      · exact h.samePeer x hx y hy
  · rw [hkernel, h.peers]
    constructor
    · rintro (hk | ⟨x, hx, hk⟩)
      · exact ⟨l, (hleases l).mpr (Or.inl rfl), hk⟩
      · -- the lease that is replaced has the same key
        by_cases hkey : x.key v4 v6 = l.key v4 v6
        · exact ⟨l, (hleases l).mpr (Or.inl rfl), (hagree x hx k hk).mpr hkey⟩
        · exact ⟨x, (hleases x).mpr (Or.inr ⟨hx, hkey⟩), hk⟩
    · rintro ⟨x, hx, hk⟩
      rcases (hleases x).mp hx with rfl | ⟨hx, -⟩
      · exact Or.inl hk
      · exact Or.inr ⟨x, hx, hk⟩

/-- A `Removed` event of a lease that agrees with the stored ones. -/
theorem PeersFollow.removed (h : PeersFollow keys json v4 v6 d s)
    (hagree : ∀ l' ∈ s.watcher.leases, l'.SamePeer keys json v4 v6 l) (hkeyed : lw.Keyed v4 v6)
    (hleases : ∀ x, x ∈ lw.leases ↔ x ∈ s.watcher.leases ∧ x.key v4 v6 ≠ l.key v4 v6)
    (hkernel : ∀ x, (kernel d.ifname x).isSome ↔
      peerKey keys json l ≠ some x ∧ (s.kernel d.ifname x).isSome) :
    PeersFollow keys json v4 v6 d ⟨lw, kernel⟩ := by
  refine ⟨hkeyed, fun x hx => h.wireguard x ((hleases x).mp hx).1,
    fun x hx y hy => h.samePeer x ((hleases x).mp hx).1 y ((hleases y).mp hy).1, fun k => ?_⟩
  rw [hkernel, h.peers]
  constructor
  · rintro ⟨hne, x, hx, hk⟩
    exact ⟨x, (hleases x).mpr ⟨hx, fun hkey => hne ((hagree x hx k hk).mpr hkey)⟩, hk⟩
  · rintro ⟨x, hx, hk⟩
    obtain ⟨hx, hne⟩ := (hleases x).mp hx
    exact ⟨fun hlk => hne ((hagree x hx k hk).mp hlk), x, hx, hk⟩

variable [DecidableEq K] {lookup : String → UInt16 → Option (List SocketAddr)}
  {nw : WireguardNetwork K} {netconf : Option (IP4Net × IP6Net)} {s' : WgState K}

/-- The events that `update` emits go to `handle_subnet_events`. -/
def wgStep (keys : KeyText K) (json : JsonText WireguardLeaseAttrs)
    (lookup : String → UInt16 → Option (List SocketAddr)) (nw : WireguardNetwork K)
    (netconf : Option (IP4Net × IP6Net)) (s : WgState K) (e : Event) : Option (WgState K) :=
  let u := s.watcher.update [e]
  some ⟨u.1, handleWgEvents keys json lookup nw netconf s.kernel u.2⟩

theorem wgStep_of_update {es : List Event} (h : s.watcher.update [e] = (lw, es)) :
    wgStep keys json lookup nw netconf s e =
      some ⟨lw, handleWgEvents keys json lookup nw netconf s.kernel es⟩ := by
  rw [wgStep, h]

/-- **One event.** -/
theorem PeersFollow.step (hsingle : v4 ≠ v6) (hdev : nw.peerDevice v6 = some d)
    (h : PeersFollow keys json v4 v6 d s) (he : e.lease.IsWireguard v4 v6)
    (hagree : PeersAgree keys json nw v4 v6 s e)
    (hstep : wgStep keys json lookup nw netconf s e = some s') :
    PeersFollow keys json v4 v6 d s' := by
  obtain ⟨hkeyed, hemits⟩ := update_one h.keyed he.flags
  rw [← Option.some.inj hstep, handleWgEvents]
  generalize (s.watcher.update [e]).1 = lw at hkeyed hemits
  generalize (s.watcher.update [e]).2 = es at hemits
  cases hemits with
  | nothing _ hsame =>
    subst hsame
    exact h
  | added hown htype hleases =>
    rw [List.foldl_cons, List.foldl_nil]
    obtain ⟨hsame, hend⟩ := hagree hown
    refine h.added he (hsame fun hremoved => ?_) hkeyed hleases ?_
    · rw [htype] at hremoved
      cases hremoved
    · exact handleWgEvent_added he hsingle hdev (hend htype)
  | removed hown htype l hflags hkey hstored hleases =>
    rw [← hkey] at hleases
    rw [List.foldl_cons, List.foldl_nil]
    -- the stored lease agrees with the others; one that was not stored has to
    rcases hstored with hin | ⟨rfl, hout⟩
    · refine h.removed (fun l' hl' => h.samePeer l' hl' l hin) hkeyed hleases ?_
      exact handleWgEvent_removed (h.wireguard l hin) hsingle hdev
    · refine h.removed ((hagree hown).1 fun _ => hout) hkeyed hleases ?_
      exact handleWgEvent_removed he hsingle hdev

end Step

/-! ## Every run -/

theorem peersFollow_start (keys : KeyText K) (json : JsonText WireguardLeaseAttrs) (v4 v6 : Bool)
    (d : WGDevice K) (own : Lease) : PeersFollow keys json v4 v6 d (.start own) :=
  ⟨keyed_new own, by simp [WgState.start], by simp [WgState.start], by simp [WgState.start]⟩

/-- A registered network of one family has the device for its peers. -/
theorem exists_peerDevice {keys : KeyText K} {json : JsonText WireguardLeaseAttrs} {host : WgHost K}
    {ei : ExternalInterface} {cfg : WgConfig} {v4 v6 : Bool} (hsingle : v4 ≠ v6)
    {acquireLease : LeaseAttrs → Option Lease} {nw : WireguardNetwork K}
    (h : registerNetwork keys json host ei cfg v4 v6 acquireLease = some nw) :
    ∃ d, nw.peerDevice v6 = some d := by
  cases hmode : cfg.mode with
  | none =>
    rw [registerNetwork, hmode] at h
    cases h
  | some mode =>
    obtain ⟨devices, hdevices, -, hnw, hdev, hv6Dev⟩ := registerNetwork_eq hmode h
    rw [WireguardNetwork.peerDevice, hnw, hdev, hv6Dev]
    by_cases hsep : mode = .separate
    · subst hsep
      obtain ⟨h4, h6, -⟩ := createDevices_separate hdevices
      cases v6 with
      | false =>
        obtain ⟨d, hd, -⟩ := h4 (Bool.eq_not.mpr hsingle)
        exact ⟨d, hd⟩
      | true =>
        obtain ⟨d, hd, -⟩ := h6 rfl
        exact ⟨d, hd⟩
    · obtain ⟨⟨d, hd, -⟩, -, -⟩ := createDevices_shared hsep hdevices
      rw [if_neg fun h => hsep h.1]
      exact ⟨d, hd⟩

/-- **The peers follow the leases** in every run of wireguard events of one family in which
each lease that comes in agrees with the stored ones on who is replaced, and has an
endpoint: after every event the peers of the device are the keys of the stored leases. -/
theorem wireguard_peers_follow_leases [DecidableEq K] (keys : KeyText K)
    (json : JsonText WireguardLeaseAttrs) (lookup : String → UInt16 → Option (List SocketAddr))
    (host : WgHost K) (ei : ExternalInterface) (cfg : WgConfig) (v4 v6 : Bool) (hsingle : v4 ≠ v6)
    (acquireLease : LeaseAttrs → Option Lease) (nw : WireguardNetwork K)
    (hnw : registerNetwork keys json host ei cfg v4 v6 acquireLease = some nw)
    (netconf : Option (IP4Net × IP6Net)) (es : List Event)
    (hes : ∀ e ∈ es, e.lease.IsWireguard v4 v6)
    (hagree : Run.Along (wgStep keys json lookup nw netconf) (PeersAgree keys json nw v4 v6)
      (.start nw.lease) es)
    (s : WgState K)
    (hrun : Run.run (wgStep keys json lookup nw netconf) (.start nw.lease) es = some s) :
    ∃ d, nw.peerDevice v6 = some d ∧
      ∀ k, (s.kernel d.ifname k).isSome ↔ ∃ l ∈ s.watcher.leases, peerKey keys json l = some k := by
  obtain ⟨d, hd⟩ := exists_peerDevice hsingle hnw
  have hs : PeersFollow keys json v4 v6 d s :=
    Run.run_invariant (fun s e t hP hQ hstep => hP.step hsingle hd hQ.2 hQ.1 hstep)
      (peersFollow_start keys json v4 v6 d nw.lease) (hagree.and (Run.along_of_forall hes)) hrun
  exact ⟨d, hd, hs.peers⟩

/-! ## A peer that is set up again -/

/-- Three keys: that of the node, and two for its peer. -/
def threeKeys : KeyText (Fin 3) where
  text := fun k =>
    match k with
    | 0 => "AAAAAAAAAAAAAAAAAAAAAAAAAAAAAAAAAAAAAAAAAAA="
    | 1 => "AQAAAAAAAAAAAAAAAAAAAAAAAAAAAAAAAAAAAAAAAAA="
    | 2 => "AgAAAAAAAAAAAAAAAAAAAAAAAAAAAAAAAAAAAAAAAAA="
  parse := fun s =>
    if s = "AAAAAAAAAAAAAAAAAAAAAAAAAAAAAAAAAAAAAAAAAAA=" then some 0
    else if s = "AQAAAAAAAAAAAAAAAAAAAAAAAAAAAAAAAAAAAAAAAAA=" then some 1
    else if s = "AgAAAAAAAAAAAAAAAAAAAAAAAAAAAAAAAAAAAAAAAAA=" then some 2
    else none

theorem threeKeys_parse_text (k : Fin 3) : threeKeys.parse (threeKeys.text k) = some k := by
  revert k
  decide

/-- `10.2.2.0/24` with a key and a public address. -/
def keyLease (k : Fin 3) (publicIp : BitVec 32) : Lease :=
  { v4Lease 0x0a020200 with
    attrs := newSubnetAttrs wgJson (some (.v4 ⟨publicIp⟩)) none true false (threeKeys.text k)
      51820 51821 }

theorem keyLease_isWireguard (k : Fin 3) (publicIp : BitVec 32) :
    (keyLease k publicIp).IsWireguard true false :=
  ⟨⟨rfl, rfl⟩, rfl⟩

theorem peerKey_keyLease (k : Fin 3) (publicIp : BitVec 32) :
    peerKey threeKeys wgJson (keyLease k publicIp) = some k := by
  have hattrs : peerAttrs wgJson (keyLease k publicIp) = some ⟨threeKeys.text k, 51820⟩ :=
    wgJson_decode_encode _
  rw [peerKey, hattrs, Option.bind_some, threeKeys_parse_text]

theorem samePeer_keyLease (k : Fin 3) (publicIp publicIp' : BitVec 32) :
    (keyLease k publicIp).SamePeer threeKeys wgJson true false (keyLease k publicIp') := by
  intro x hx
  rw [peerKey_keyLease] at hx
  exact iff_of_true ((peerKey_keyLease k publicIp').trans hx) rfl

/-- The only device of the node. -/
def v4Device : WGDevice (Fin 3) where
  attrs :=
    { listenPort := 51820
      privateKey := some 0
      publicKey := some 0
      psk := none
      keepalive := some 0
      name := "flannel-wg"
      mtu := 1500 }
  ifindex := 7
  ifname := "flannel-wg"

/-- An IPv4-only node, in the default mode. -/
def v4Network : WireguardNetwork (Fin 3) where
  ei := ⟨some (.v4 ⟨0xc0a80003⟩), none⟩
  dev := some v4Device
  v6Dev := none
  mode := .separate
  lease :=
    { v4Lease 0x0a010000 with
      attrs := newSubnetAttrs wgJson (some (.v4 ⟨0xc0a80003⟩)) none true false (threeKeys.text 0)
        51820 51821 }
  mtu := 1500

theorem registerNetwork_v4Network :
    registerNetwork threeKeys wgJson ⟨0, 0, fun _ => some 7⟩ ⟨some (.v4 ⟨0xc0a80003⟩), none⟩
      (wgDefault .separate) true false
      (fun attrs => some { v4Lease 0x0a010000 with attrs := attrs }) = some v4Network :=
  rfl

theorem v4Network_hasEndpoint (k : Fin 3) (publicIp : BitVec 32) :
    v4Network.HasEndpoint (keyLease k publicIp) := by
  intro h
  cases h

theorem handleWgEvent_keyLease (kernel : WgKernel (Fin 3)) (k x : Fin 3) :
    (handleWgEvent threeKeys wgJson (fun _ _ => none) v4Network none kernel
      ⟨.added, keyLease k 0xc0a80001⟩ v4Device.ifname x).isSome ↔
    peerKey threeKeys wgJson (keyLease k 0xc0a80001) = some x ∨ (kernel v4Device.ifname x).isSome :=
  handleWgEvent_added (keyLease_isWireguard k _) (by decide) rfl
    (fun _ => v4Network_hasEndpoint k _) x

/-- The watcher takes the first lease. -/
theorem update_keyLease :
    (LeaseWatcher.new v4Network.lease).update [⟨.added, keyLease 1 0xc0a80001⟩] =
      (⟨v4Network.lease, [keyLease 1 0xc0a80001]⟩, [⟨.added, keyLease 1 0xc0a80001⟩]) :=
  rfl

/-- What the two events leave, if the second lease has the subnet of the first. -/
def keyState (k : Fin 3) (publicIp : BitVec 32) : WgState (Fin 3) :=
  ⟨⟨v4Network.lease, [keyLease k publicIp]⟩,
    handleWgEvent threeKeys wgJson (fun _ _ => none) v4Network none
      (handleWgEvent threeKeys wgJson (fun _ _ => none) v4Network none (fun _ _ => none)
        ⟨.added, keyLease 1 0xc0a80001⟩) ⟨.added, keyLease k publicIp⟩⟩

theorem run_keyLease (k : Fin 3) (publicIp : BitVec 32) :
    Run.run (wgStep threeKeys wgJson (fun _ _ => none) v4Network none) (.start v4Network.lease)
      [⟨.added, keyLease 1 0xc0a80001⟩, ⟨.added, keyLease k publicIp⟩] =
        some (keyState k publicIp) := by
  have hsecond : (⟨v4Network.lease, [keyLease 1 0xc0a80001]⟩ : LeaseWatcher).update
      [⟨.added, keyLease k publicIp⟩] =
      (⟨v4Network.lease, [keyLease k publicIp]⟩, [⟨.added, keyLease k publicIp⟩]) := rfl
  rw [Run.run, WgState.start, wgStep_of_update update_keyLease, Option.bind_some, Run.run,
    wgStep_of_update hsecond, Option.bind_some, Run.run_nil]
  simp only [handleWgEvents, List.foldl_cons, List.foldl_nil, keyState]

/-- The peer comes back with another public address: it is still the only peer. -/
theorem wireguard_peers_follow_leases_moved :
    ∃ s, Run.run (wgStep threeKeys wgJson (fun _ _ => none) v4Network none) (.start v4Network.lease)
        [⟨.added, keyLease 1 0xc0a80001⟩, ⟨.added, keyLease 1 0xc0a80002⟩] = some s ∧
      s.watcher.leases = [keyLease 1 0xc0a80002] ∧
      ∃ d, v4Network.peerDevice false = some d ∧
        ∀ k, (s.kernel d.ifname k).isSome ↔
          ∃ l ∈ s.watcher.leases, peerKey threeKeys wgJson l = some k := by
  refine ⟨keyState 1 0xc0a80002, run_keyLease 1 _, rfl,
    wireguard_peers_follow_leases threeKeys wgJson (fun _ _ => none)
    ⟨0, 0, fun _ => some 7⟩ ⟨some (.v4 ⟨0xc0a80003⟩), none⟩ (wgDefault .separate) true false
    (by decide) (fun attrs => some { v4Lease 0x0a010000 with attrs := attrs }) v4Network
    registerNetwork_v4Network none
    [⟨.added, keyLease 1 0xc0a80001⟩, ⟨.added, keyLease 1 0xc0a80002⟩] (fun e he => ?_) ?_ _
    (run_keyLease 1 _)⟩
  · simp only [List.mem_cons, List.not_mem_nil, or_false] at he
    rcases he with rfl | rfl
    · exact keyLease_isWireguard _ _
    · exact keyLease_isWireguard _ _
  · refine ⟨fun _ => ⟨fun _ l hl => ?_, fun _ _ => v4Network_hasEndpoint _ _⟩, fun t ht =>
      ⟨fun _ => ⟨fun _ l hl => ?_, fun _ _ => v4Network_hasEndpoint _ _⟩, fun _ _ => trivial⟩⟩
    · cases hl
    · rw [WgState.start, wgStep_of_update update_keyLease, Option.mem_some_iff] at ht
      rw [← ht, List.mem_singleton] at hl
      subst hl
      exact samePeer_keyLease 1 0xc0a80001 0xc0a80002

/-- The peer comes back with another key: the old one stays a peer. -/
theorem replaced_key_stays_a_peer :
    registerNetwork threeKeys wgJson ⟨0, 0, fun _ => some 7⟩ ⟨some (.v4 ⟨0xc0a80003⟩), none⟩
      (wgDefault .separate) true false
      (fun attrs => some { v4Lease 0x0a010000 with attrs := attrs }) = some v4Network ∧
    ∃ s, Run.run (wgStep threeKeys wgJson (fun _ _ => none) v4Network none) (.start v4Network.lease)
        [⟨.added, keyLease 1 0xc0a80001⟩, ⟨.added, keyLease 2 0xc0a80001⟩] = some s ∧
      s.watcher.leases = [keyLease 2 0xc0a80001] ∧
      peerKey threeKeys wgJson (keyLease 2 0xc0a80001) = some 2 ∧
      v4Network.peerDevice false = some v4Device ∧
      (s.kernel v4Device.ifname 1).isSome ∧ (s.kernel v4Device.ifname 2).isSome := by
  refine ⟨registerNetwork_v4Network, keyState 2 0xc0a80001, run_keyLease 2 _, rfl,
    peerKey_keyLease 2 0xc0a80001, rfl, ?_, ?_⟩
  · rw [keyState, handleWgEvent_keyLease, handleWgEvent_keyLease, peerKey_keyLease 1]
    exact Or.inr (Or.inl rfl)
  · rw [keyState, handleWgEvent_keyLease, peerKey_keyLease]
    exact Or.inl rfl

end Flannel
