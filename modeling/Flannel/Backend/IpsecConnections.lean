import Flannel.Backend.IpsecPolicies

/-!
# The connections of the stored leases

The policies of a peer are found by its subnet, its connection by a name in which the
public address stands as well.  So a peer that is announced again with another address gets
a second connection, while the policies are replaced.  The first one stays, since the
removal unloads the connection of the lease that is stored by then.

Names of different leases are different (`formatConnectionName_inj`).  Hence the loaded
connections are those of the stored leases in every run in which no peer moves, and a step
in which a peer does move breaks it.
-/

namespace Flannel

open KeyedList LeaseWatcher

/-! ## Names -/

theorem formatConnectionName_eq (own l : Lease) :
    formatConnectionName own l = s!"{own.attrs.publicIp.toString}-{own.subnet.toString}-" ++
      (l.subnet.toString ++ String.ofList ('-' :: l.attrs.publicIp.toString.toList)) := by
  have hname : formatConnectionName own l = own.attrs.publicIp.toString ++ "-" ++
      own.subnet.toString ++ "-" ++ l.subnet.toString ++ "-" ++ l.attrs.publicIp.toString := rfl
  have hown : s!"{own.attrs.publicIp.toString}-{own.subnet.toString}-" =
      own.attrs.publicIp.toString ++ "-" ++ own.subnet.toString ++ "-" := rfl
  apply String.toList_inj.mp
  simp [hname, hown, String.toList_append]

/-- **A name says which peer it is**, by its subnet and its public address. -/
theorem formatConnectionName_inj {own l l' : Lease} :
    formatConnectionName own l = formatConnectionName own l' ↔
      l.subnet = l'.subnet ∧ l.attrs.publicIp = l'.attrs.publicIp := by
  constructor
  · intro h
    have hdash : ∀ n : IP4Net, '-' ∉ n.toString.toList := by
      intro n hmem
      rcases IP4Net.mem_toString hmem with h | h
      · exact absurd h (by decide)
      · exact absurd h (by decide)
    rw [formatConnectionName_eq, formatConnectionName_eq, String.append_right_inj] at h
    have hsplit := congrArg (splitOnce '-') h
    rw [splitOnce_append (hdash l.subnet), splitOnce_append (hdash l'.subnet), Option.some.injEq,
      Prod.mk.injEq] at hsplit
    exact ⟨IP4Net.toString_inj.mp hsplit.1, IP4.toString_inj.mp hsplit.2⟩
  · rintro ⟨hsubnet, hip⟩
    rw [formatConnectionName_eq, formatConnectionName_eq, hsubnet, hip]

/-! ## The watcher and the connections -/

/-- The condition on a step: a peer that is announced again has not moved. -/
def KeepsAddress (s : IpsecRun) (e : Event) : Prop :=
  isOwn s.watcher.ownLease e.lease = false → e.eventType = .added →
    ∀ l ∈ s.watcher.leases, l.subnet = e.lease.subnet → l.attrs.publicIp = e.lease.attrs.publicIp

/-- The loaded connections are those of the stored leases. -/
structure ConnectionsFollow (net : IPsecNetwork) (s : IpsecRun) : Prop where
  isOf : s.IsOf net
  holds : Table.Holds (formatConnectionName net.lease)
    (fun l => ikeConf net.espProposal net.lease l defaultReqId.repr net.udpEncap)
    s.state.connections (· ∈ s.watcher.leases)

section Step

variable {net : IPsecNetwork} {s s' : IpsecRun} {e : Event} {l : Lease} {lw : LeaseWatcher}

/-- The names of the stored leases are those that are loaded. -/
theorem ConnectionsFollow.names (h : ConnectionsFollow net s) (name : String) :
    (s.state.connections name).isSome ↔
      ∃ l ∈ s.watcher.leases, formatConnectionName net.lease l = name := by
  rw [Option.isSome_iff_exists]
  constructor
  · rintro ⟨conf, hconf⟩
    obtain ⟨l, hl, hname, -⟩ := (h.holds name conf).mp hconf
    exact ⟨l, hl, hname⟩
  · rintro ⟨l, hl, hname⟩
    exact ⟨_, (h.holds name _).mpr ⟨l, hl, hname, rfl⟩⟩

/-- Among the stored leases, the name of one that is stored is taken by it alone. -/
theorem ConnectionsFollow.name_eq_iff_of_mem (h : ConnectionsFollow net s)
    (hl : l ∈ s.watcher.leases) {x : Lease} (hx : x ∈ s.watcher.leases) :
    formatConnectionName net.lease x = formatConnectionName net.lease l ↔
      x.key true false = l.key true false := by
  rw [formatConnectionName_inj, key_eq_iff_subnet_eq]
  refine ⟨And.left, fun hsubnet => ⟨hsubnet, ?_⟩⟩
  rw [Distinct.eq_of_key h.isOf.keyed.distinct hx hl ((key_eq_iff_subnet_eq _ _).mpr hsubnet)]

/-- **One event.** -/
theorem ConnectionsFollow.step (h : ConnectionsFollow net s) (he : e.lease.IsIpsec)
    (hkeeps : KeepsAddress s e) (hstep : ipsecStep net s e = some s') :
    ConnectionsFollow net s' := by
  obtain ⟨hisOf, heffect⟩ := ipsecStep_cases h.isOf he hstep
  cases heffect with
  | nothing => exact h
  | added lw hforeign htype hleases =>
    refine ⟨hisOf, h.holds.insert (r := e.lease) fun x => ?_⟩
    rw [hleases x]
    refine or_congr_right (and_congr_right fun hx => not_congr ?_)
    rw [formatConnectionName_inj, key_eq_iff_subnet_eq]
    exact ⟨fun hsubnet => ⟨hsubnet, hkeeps hforeign htype x hx hsubnet⟩, And.left⟩
  | removed lw l _ hl hstored hleases =>
    have hrows : ∀ x, x ∈ lw.leases ↔ x ∈ s.watcher.leases ∧
        formatConnectionName net.lease x ≠ formatConnectionName net.lease l := by
      intro x
      rw [hleases x]
      refine and_congr_right fun hx => not_congr ?_
      rcases hstored with hin | hout
      · exact (h.name_eq_iff_of_mem hin hx).symm
      · rw [formatConnectionName_inj, key_eq_iff_subnet_eq]
        exact iff_of_false (fun heq => hout x hx ((key_eq_iff_subnet_eq _ _).mpr heq))
          fun heq => hout x hx ((key_eq_iff_subnet_eq _ _).mpr heq.1)
    have hholds := h.holds.erase hrows
    exact ⟨hisOf, hholds⟩

/-- A step in which a peer moves leaves a connection that no stored lease has. -/
theorem ConnectionsFollow.moved (h : ConnectionsFollow net s) (he : e.lease.IsIpsec)
    (hmoves : ¬ KeepsAddress s e) (hstep : ipsecStep net s e = some s') :
    ∃ name, (s'.state.connections name).isSome ∧
      ∀ l ∈ s'.watcher.leases, formatConnectionName net.lease l ≠ name := by
  simp only [KeepsAddress, not_forall] at hmoves
  obtain ⟨hown, htype, old, hold, hsubnet, hip⟩ := hmoves
  obtain ⟨-, heffect⟩ := ipsecStep_cases h.isOf he hstep
  refine ⟨formatConnectionName net.lease old, ?_⟩
  cases heffect with
  | nothing hsame =>
    rw [hsame] at hown
    cases hown
  | added lw _ _ hleases =>
    have hne : formatConnectionName net.lease old ≠ formatConnectionName net.lease e.lease :=
      fun hname => hip (formatConnectionName_inj.mp hname).2
    refine ⟨?_, fun l hl hname => ?_⟩
    · dsimp only [loadConnection]
      rw [Function.update_of_ne hne]
      exact (h.names _).mpr ⟨old, hold, rfl⟩
    · rcases (hleases l).mp hl with rfl | ⟨-, hkey⟩
      · exact hne hname.symm
      · refine hkey ((key_eq_iff_subnet_eq _ _).mpr ?_)
        rw [(formatConnectionName_inj.mp hname).1, hsubnet]
  | removed _ _ hremoved =>
    rw [htype] at hremoved
    cases hremoved

end Step

/-! ## Every run -/

theorem connectionsFollow_start (net : IPsecNetwork) :
    ConnectionsFollow net (.start net.lease) := by
  refine ⟨isOf_start net, ?_⟩
  have hnone : (fun l => l ∈ (IpsecRun.start net.lease).watcher.leases) = fun _ => False := by
    ext l
    simp [IpsecRun.start]
  rw [hnone]
  exact Table.holds_empty

/-- **The connections follow the leases** in every run of IPv4 ipsec events in which no peer
is announced again with another public address: after every event, the names of the loaded
connections are those for the stored leases. -/
theorem ipsec_connections_follow_leases (net : IPsecNetwork) (es : List Event)
    (hes : ∀ e ∈ es, e.lease.IsIpsec)
    (hkeeps : Run.Along (ipsecStep net) KeepsAddress (.start net.lease) es) (s : IpsecRun)
    (hrun : Run.run (ipsecStep net) (.start net.lease) es = some s) (name : String) :
    (s.state.connections name).isSome ↔
      ∃ l ∈ s.watcher.leases, formatConnectionName net.lease l = name := by
  have hs : ConnectionsFollow net s :=
    Run.run_invariant (fun s e t hP hQ hstep => hP.step hQ.2 hQ.1 hstep)
      (connectionsFollow_start net) (hkeeps.and (Run.along_of_forall hes)) hrun
  exact hs.names name

/-- A peer that is announced twice from the same address and then removed. -/
theorem ipsec_connections_follow_leases_removed :
    ∃ s, Run.run (ipsecStep ipsecNode) (.start ipsecNode.lease)
        [⟨.added, ipsecPeer⟩, ⟨.added, ipsecPeer⟩, ⟨.removed, ipsecPeer⟩] = some s ∧
      s.watcher.leases = [] ∧
      ∀ name, (s.state.connections name).isSome ↔
        ∃ l ∈ s.watcher.leases, formatConnectionName ipsecNode.lease l = name := by
  refine ⟨_, rfl, by decide, ipsec_connections_follow_leases ipsecNode
    [⟨.added, ipsecPeer⟩, ⟨.added, ipsecPeer⟩, ⟨.removed, ipsecPeer⟩] (fun e he => ?_) ?_ _ rfl⟩
  · simp only [List.mem_cons, List.not_mem_nil, or_false] at he
    rcases he with rfl | rfl | rfl
    · exact ipsecLease_isIpsec _ _
    · exact ipsecLease_isIpsec _ _
    · exact ipsecLease_isIpsec _ _
  · refine ⟨fun _ _ l hl => ?_, fun t ht => ⟨fun _ _ l hl _ => ?_, fun u hu =>
      ⟨fun _ htype => ?_, fun _ _ => trivial⟩⟩⟩
    · cases hl
    · obtain rfl := Option.some.inj ht
      obtain rfl : l = ipsecPeer := List.mem_singleton.mp hl
      rfl
    · cases htype

/-- A peer that is announced from another address, and then removed: the connection to the
first address stays. -/
theorem connection_to_former_address_stays :
    ∃ s, Run.run (ipsecStep ipsecNode) (.start ipsecNode.lease)
        [⟨.added, ipsecPeer⟩, ⟨.added, ipsecLease 0x0a020200 0xc0a80002⟩,
          ⟨.removed, ipsecLease 0x0a020200 0xc0a80002⟩] = some s ∧
      s.watcher.leases = [] ∧
      (s.state.connections (formatConnectionName ipsecNode.lease ipsecPeer)).isSome := by
  have hne : formatConnectionName ipsecNode.lease ipsecPeer ≠
      formatConnectionName ipsecNode.lease (ipsecLease 0x0a020200 0xc0a80002) := by
    rw [ne_eq, formatConnectionName_inj]
    decide
  refine ⟨_, rfl, by decide, ?_⟩
  show (unloadCharonConnection
    (loadConnection (loadConnection (fun _ => none) "" ipsecNode.lease ipsecPeer "11" false) ""
      ipsecNode.lease (ipsecLease 0x0a020200 0xc0a80002) "11" false)
    ipsecNode.lease (ipsecLease 0x0a020200 0xc0a80002)
    (formatConnectionName ipsecNode.lease ipsecPeer)).isSome
  rw [unloadCharonConnection, Function.update_of_ne hne, loadConnection, Function.update_of_ne hne,
    loadConnection, Function.update_self]
  rfl

end Flannel
