import Flannel.Backend.UdpProxy
import Flannel.Lib.Replay

/-!
# The routes of the proxy as a map

Whatever the order of its entries, the table is a map from networks to next hops: setting
a route replaces the entry of the network, deleting removes it, and a look-up only moves
entries around.  So the table after a history is the replay of its commands
(`view_proxyRun`).

A look-up takes the first entry whose network contains the address, and which one that is
depends on the order --- unless no two networks of the history overlap.  Then there is at
most one, and the answer is that of the last command about it (`answer`).

The network writes addresses in network order and prefix lengths as numbers, and the proxy
compares addresses after masking both.  That this is `IP4Net::contains` comes down to the
reversal of bytes being injective and commuting with masking.
-/

namespace Flannel

open Bytes KeyedList Replay

/-! ## Bytes -/

/-- Masking byte by byte. -/
theorem append_bytes_and (a b c d a' b' c' d' : BitVec 8) :
    (a ++ b ++ c ++ d) &&& (a' ++ b' ++ c' ++ d') =
      (a &&& a') ++ (b &&& b') ++ (c &&& c') ++ (d &&& d') := by
  simp only [BitVec.and_append]

theorem append_bytes_inj {a b c d a' b' c' d' : BitVec 8}
    (h : a ++ b ++ c ++ d = a' ++ b' ++ c' ++ d') : a = a' ∧ b = b' ∧ c = c' ∧ d = d' := by
  have hsplit : ∀ {w v : Nat} {x x' : BitVec w} {y y' : BitVec v}, x ++ y = x' ++ y' →
      x = x' ∧ y = y' := by
    intro w v x x' y y' h
    have hleft := congrArg (BitVec.extractLsb' v w) h
    have hright := congrArg (BitVec.extractLsb' 0 v) h
    rw [BitVec.extractLsb'_append_eq_left, BitVec.extractLsb'_append_eq_left] at hleft
    rw [BitVec.extractLsb'_append_eq_right, BitVec.extractLsb'_append_eq_right] at hright
    exact ⟨hleft, hright⟩
  obtain ⟨habc, hd⟩ := hsplit h
  obtain ⟨hab, hc⟩ := hsplit habc
  obtain ⟨ha, hb⟩ := hsplit hab
  exact ⟨ha, hb, hc, hd⟩

theorem toBe_and (x y : BitVec 32) : toBe (x &&& y) = toBe x &&& toBe y := by
  unfold toBe
  rw [BitVec.extractLsb'_and, BitVec.extractLsb'_and, BitVec.extractLsb'_and,
    BitVec.extractLsb'_and]
  exact (append_bytes_and ..).symm

theorem toBe_inj {x y : BitVec 32} : toBe x = toBe y ↔ x = y := by
  refine ⟨fun h => ?_, fun h => h ▸ rfl⟩
  obtain ⟨h0, h1, h2, h3⟩ := append_bytes_inj h
  have hbyte : ∀ {start : Nat}, x.extractLsb' start 8 = y.extractLsb' start 8 →
      x.toNat >>> start % 256 = y.toNat >>> start % 256 := by
    intro start h
    simpa only [BitVec.extractLsb'_toNat] using congrArg BitVec.toNat h
  have e0 := hbyte h0
  have e1 := hbyte h1
  have e2 := hbyte h2
  have e3 := hbyte h3
  simp only [Nat.shiftRight_eq_div_pow] at e0 e1 e2 e3
  apply BitVec.eq_of_toNat_eq
  have hx := x.isLt
  have hy := y.isLt
  omega

/-- **A command reads back.** -/
theorem Command.fromBytes_toBytes (c : Command) : Command.fromBytes c.toBytes = c := by
  obtain ⟨cmd, destNet, destNetLen, nextHopIp, nextHopPort⟩ := c
  have h1 := ofLeBytes_leBytes (n := 4) cmd.isLt
  have h2 := ofLeBytes_leBytes (n := 4) destNet.isLt
  have h3 := ofLeBytes_leBytes (n := 4) destNetLen.isLt
  have h4 := ofLeBytes_leBytes (n := 4) nextHopIp.isLt
  have h5 := ofLeBytes_leBytes (n := 2) nextHopPort.isLt
  simp only [leBytes] at h1 h2 h3 h4 h5
  simp [Command.fromBytes, Command.toBytes, byteRange, leBytes, h1, h2, h3, h4, h5]

/-! ## Networks -/

/-- A network as the table has it. -/
def IP4Net.ipNet (n : IP4Net) : IpNet := ⟨toBe (n.ip.val &&& n.mask), toBe n.mask⟩

theorem netmask_of_le {len : Nat} (hlen : len ≤ 32) :
    netmask (BitVec.ofNat 32 len) = toBe (maskValue len) := by
  have hint : (BitVec.ofNat 32 len).toInt = len := by
    rw [BitVec.toInt_eq_toNat_of_lt]
    · rw [BitVec.toNat_ofNat]
      omega
    · rw [BitVec.toNat_ofNat]
      omega
  have hbits : (max 0 (min (len : Int) 32)).toNat = len := by omega
  rw [netmask, hint, hbits, maskValue]
  by_cases hzero : len = 0
  · rw [if_pos hzero, if_pos (Or.inl hzero)]
    decide
  · rw [if_neg hzero, if_neg (by omega)]

theorem maskValue_inj {m n : Nat} (hm : m ≤ 32) (hn : n ≤ 32) :
    maskValue m = maskValue n ↔ m = n := by
  have hall : ∀ m n : Fin 33, maskValue m = maskValue n → m = n := by decide +kernel
  refine ⟨fun h => ?_, fun h => h ▸ rfl⟩
  exact congrArg Fin.val (hall ⟨m, by omega⟩ ⟨n, by omega⟩ h)

/-- **One entry, one network.** -/
theorem ipNet_inj {m n : IP4Net} (hm : m.prefixLen ≤ 32) (hn : n.prefixLen ≤ 32) :
    m.ipNet = n.ipNet ↔ m.network = n.network := by
  rw [IP4Net.ipNet, IP4Net.ipNet, IpNet.mk.injEq, toBe_inj, toBe_inj, IP4Net.network,
    IP4Net.network, IP4Net.mk.injEq, IP4.mk.injEq]
  exact and_congr_right fun _ => maskValue_inj hm hn

/-- **The test of a look-up** is `IP4Net::contains`. -/
theorem ipNet_matches_iff (n : IP4Net) (dst : IP4) :
    n.ipNet.ip = dst.networkOrder &&& n.ipNet.mask ↔ n.contains dst = true := by
  rw [IP4Net.ipNet, IP4.networkOrder, ← toBe_and, toBe_inj, IP4Net.contains, beq_iff_eq]

/-! ## The table as a map -/

theorem swapRemove_perm {α : Type} (pre post : List α) :
    (pre ++ post).Perm (swapRemove pre post) := by
  unfold swapRemove
  cases hlast : post.getLast? with
  | none =>
    rw [List.getLast?_eq_none_iff.mp hlast, List.append_nil]
  | some last =>
    obtain ⟨front, rfl⟩ := List.getLast?_eq_some_iff.mp hlast
    rw [List.dropLast_concat]
    exact (List.perm_append_singleton last front).append_left pre

theorem swapFront_perm {α : Type} (pre : List α) (x : α) (post : List α) :
    (pre ++ x :: post).Perm (swapFront pre x post) := by
  cases pre with
  | nil => exact List.Perm.refl _
  | cons first pre =>
    have hfront : (first :: pre ++ x :: post).Perm (x :: (first :: pre ++ post)) :=
      List.perm_middle
    exact hfront.trans (List.perm_middle.symm.cons x)

namespace RouteTable

/-- No network has two entries. -/
def OneEach (t : RouteTable) : Prop := Distinct RouteEntry.dst t.entries

/-- The map from networks to next hops. -/
def view (t : RouteTable) (k : IpNet) : Option (BitVec 32 × UInt16) :=
  (lookup RouteEntry.dst k t.entries).map fun e => (e.nextHopIp, e.nextHopPort)

variable {t : RouteTable}

/-- A scan for a network stops at its entry. -/
theorem dst_eq_of_firstMatch {dst : IpNet} {pre post : List RouteEntry} {e : RouteEntry}
    (h : firstMatch (fun e => e.dst == dst) t.entries = some (pre, e, post)) :
    t.entries = pre ++ e :: post ∧ e.dst = dst := by
  obtain ⟨hsplit, he, -⟩ := firstMatch_eq_some h
  exact ⟨hsplit, beq_iff_eq.mp he⟩

theorem dst_notMem_of_firstMatch {dst : IpNet}
    (h : firstMatch (fun e => e.dst == dst) t.entries = none) :
    dst ∉ t.entries.map RouteEntry.dst := by
  intro hmem
  obtain ⟨e, he, hdst⟩ := List.mem_map.mp hmem
  have hno := firstMatch_eq_none.mp h e he
  rw [hdst, beq_self_eq_true] at hno
  cases hno

theorem setRoute_view (h : t.OneEach) (dst : IpNet) (ip : BitVec 32) (port : UInt16) :
    (t.setRoute dst ip port).OneEach ∧
      (t.setRoute dst ip port).view = Replay.apply t.view (dst, some (ip, port)) := by
  unfold setRoute
  split
  · rename_i pre e post hscan
    obtain ⟨hsplit, rfl⟩ := dst_eq_of_firstMatch hscan
    have hd : Distinct RouteEntry.dst (pre ++ e :: post) := hsplit ▸ h
    refine ⟨hd.replace rfl, ?_⟩
    funext k
    rw [view, lookup_replace (y := { e with nextHopIp := ip, nextHopPort := port }) hd rfl,
      Replay.apply, Function.update_apply, view, hsplit]
    split
    · rfl
    · rfl
  · rename_i hscan
    have hnew := dst_notMem_of_firstMatch hscan
    refine ⟨Distinct.snoc h hnew, ?_⟩
    funext k
    rw [view, lookup_snoc h hnew, Replay.apply, Function.update_apply, view]
    split
    · rfl
    · rfl

theorem delRoute_view (h : t.OneEach) (dst : IpNet) :
    (t.delRoute dst).1.OneEach ∧ (t.delRoute dst).1.view = Replay.apply t.view (dst, none) := by
  unfold delRoute
  split
  · rename_i pre e post hscan
    obtain ⟨hsplit, rfl⟩ := dst_eq_of_firstMatch hscan
    have hd : Distinct RouteEntry.dst (pre ++ e :: post) := hsplit ▸ h
    refine ⟨hd.drop.perm (swapRemove_perm pre post), ?_⟩
    funext k
    rw [view, ← lookup_perm hd.drop (swapRemove_perm pre post), lookup_drop hd, Replay.apply,
      Function.update_apply, view, hsplit]
    split
    · rfl
    · rfl
  · rename_i hscan
    refine ⟨h, ?_⟩
    funext k
    rw [Replay.apply, Function.update_apply]
    split
    · rename_i hk
      rw [view, hk, lookup_eq_none_iff.mpr (dst_notMem_of_firstMatch hscan), Option.map_none]
    · rfl

/-- A look-up only moves entries around. -/
theorem findRoute_view (h : t.OneEach) (dstIp : BitVec 32) :
    (t.findRoute dstIp).1.OneEach ∧ (t.findRoute dstIp).1.view = t.view := by
  unfold findRoute
  split
  · rename_i pre e post hscan
    obtain ⟨hsplit, -⟩ := firstMatch_eq_some hscan
    have hperm : t.entries.Perm (swapFront pre e post) := hsplit ▸ swapFront_perm pre e post
    refine ⟨Distinct.perm h hperm, ?_⟩
    funext k
    rw [view, view, lookup_perm h hperm]
  · exact ⟨h, rfl⟩

/-- A look-up that can hit one network only. -/
theorem findRoute_eq_view (h : t.OneEach) {dstIp : BitVec 32} {k : IpNet}
    (honly : ∀ e ∈ t.entries, e.dst.ip = dstIp &&& e.dst.mask ↔ e.dst = k) :
    (t.findRoute dstIp).2 = t.view k := by
  unfold findRoute
  split
  · rename_i pre e post hscan
    obtain ⟨hsplit, hmatch, -⟩ := firstMatch_eq_some hscan
    have hmem : e ∈ t.entries := by
      rw [hsplit]
      exact List.mem_append_right _ List.mem_cons_self
    have hk : e.dst = k := (honly e hmem).mp (beq_iff_eq.mp hmatch)
    rw [view, (lookup_eq_some_iff h).mpr ⟨hmem, hk⟩, Option.map_some]
  · rename_i hscan
    have habsent : k ∉ t.entries.map RouteEntry.dst := by
      intro hmem
      obtain ⟨e, he, hk⟩ := List.mem_map.mp hmem
      have hno := firstMatch_eq_none.mp hscan e he
      rw [beq_eq_false_iff_ne] at hno
      exact hno ((honly e he).mpr hk)
    rw [view, lookup_eq_none_iff.mpr habsent, Option.map_none]

/-- A look-up that can hit nothing. -/
theorem findRoute_eq_none {dstIp : BitVec 32}
    (hnone : ∀ e ∈ t.entries, e.dst.ip ≠ dstIp &&& e.dst.mask) : (t.findRoute dstIp).2 = none := by
  have hscan : firstMatch (fun e => e.dst.ip == dstIp &&& e.dst.mask) t.entries = none :=
    firstMatch_eq_none.mpr fun e he => beq_eq_false_iff_ne.mpr (hnone e he)
  rw [findRoute, hscan]

end RouteTable

/-! ## Histories -/

/-- What happens to the proxy: a command of a network with some port, or a packet. -/
inductive ProxyAction where
  | set (port : BitVec 32) (dst : IP4Net) (nextHopIp : IP4)
  | del (dst : IP4Net)
  | packet (dst : IP4)
  deriving DecidableEq, Repr

namespace ProxyAction

/-- The network of a command. -/
def net : ProxyAction → Option IP4Net
  | set _ dst _ => some dst
  | del dst => some dst
  | packet _ => none

/-- Whether it deletes the route to a network. -/
def Deletes (n : IP4Net) : ProxyAction → Prop
  | set .. => False
  | del dst => dst.network = n.network
  | packet _ => False

instance (n : IP4Net) : DecidablePred (Deletes n)
  | set .. => inferInstanceAs (Decidable False)
  | del dst => inferInstanceAs (Decidable (dst.network = n.network))
  | packet _ => inferInstanceAs (Decidable False)

/-- The next hop that a command asks for, as the proxy has it. -/
def hop (port : BitVec 32) (nextHopIp : IP4) : BitVec 32 × UInt16 :=
  (nextHopIp.networkOrder, UInt16.ofBitVec (port.setWidth 16))

/-- The change of the map. -/
def change : ProxyAction → Option (IpNet × Option (BitVec 32 × UInt16))
  | set port dst nextHopIp => some (dst.ipNet, some (hop port nextHopIp))
  | del dst => some (dst.ipNet, none)
  | packet _ => none

end ProxyAction

/-- What one action does to the table and the exit flag. -/
def proxyStep (s : RouteTable × Bool) : ProxyAction → RouteTable × Bool
  | .set port dst nextHopIp =>
    processCmd (some (setRouteCommand port dst nextHopIp).toBytes) s.1 s.2
  | .del dst => processCmd (some (removeRouteCommand dst).toBytes) s.1 s.2
  | .packet dst => ((s.1.findRoute dst.networkOrder).1, s.2)

/-- The proxy after a history. -/
def proxyRun (actions : List ProxyAction) : RouteTable × Bool := actions.foldl proxyStep ({}, false)

/-- The next hop of the last command that sets a route to a network with the address, and is
not followed by one that deletes the route to this network. -/
def answer (dst : IP4) : List ProxyAction → Option (BitVec 32 × UInt16)
  | [] => none
  | .set port n nextHopIp :: later =>
    (answer dst later).or
      (if n.contains dst = true ∧ ∀ a ∈ later, ¬ a.Deletes n then
        some (ProxyAction.hop port nextHopIp)
      else none)
  | .del _ :: later => answer dst later
  | .packet _ :: later => answer dst later

/-- No two networks of the history overlap, unless they are the same. -/
def Separate (actions : List ProxyAction) : Prop :=
  ∀ m ∈ actions.filterMap ProxyAction.net, ∀ n ∈ actions.filterMap ProxyAction.net,
    m.network = n.network ∨ ∀ ip, ¬ (m.contains ip = true ∧ n.contains ip = true)

section Histories

variable {actions : List ProxyAction} {t : RouteTable} {n : IP4Net} {dst : IP4}

/-- What `process_cmd` does with the bytes of a command. -/
theorem processCmd_toBytes (c : Command) (t : RouteTable) (exitFlag : Bool) :
    processCmd (some c.toBytes) t exitFlag =
      let mask := netmask c.destNetLen
      if c.cmd = cmdSetRoute then
        (t.setRoute ⟨c.destNet &&& mask, mask⟩ c.nextHopIp (UInt16.ofBitVec c.nextHopPort),
          exitFlag)
      else if c.cmd = cmdDelRoute then ((t.delRoute ⟨c.destNet &&& mask, mask⟩).1, exitFlag)
      else if c.cmd = cmdStop then (t, true)
      else (t, exitFlag) := by
  have hlen : c.toBytes.length = 20 := rfl
  have htake : c.toBytes.take commandSize = c.toBytes :=
    List.take_of_length_le (Nat.le_of_eq hlen)
  rw [processCmd]
  dsimp only
  rw [htake, hlen, if_neg (by decide), if_neg (by decide), Command.fromBytes_toBytes]

theorem proxyStep_set (hn : n.prefixLen ≤ 32) (port : BitVec 32) (nextHopIp : IP4)
    (s : RouteTable × Bool) :
    proxyStep s (.set port n nextHopIp) =
      (s.1.setRoute n.ipNet (ProxyAction.hop port nextHopIp).1
        (ProxyAction.hop port nextHopIp).2, s.2) := by
  have hset : (setRouteCommand port n nextHopIp).cmd = cmdSetRoute := rfl
  have hnet : (setRouteCommand port n nextHopIp).destNet = toBe n.ip.val := rfl
  have hmask : netmask (setRouteCommand port n nextHopIp).destNetLen = toBe n.mask :=
    netmask_of_le hn
  rw [proxyStep, processCmd_toBytes, if_pos hset, hmask, hnet, ← toBe_and]
  rfl

theorem proxyStep_del (hn : n.prefixLen ≤ 32) (s : RouteTable × Bool) :
    proxyStep s (.del n) = ((s.1.delRoute n.ipNet).1, s.2) := by
  have hdel : (removeRouteCommand n).cmd = cmdDelRoute := rfl
  have hset : (removeRouteCommand n).cmd ≠ cmdSetRoute := by
    rw [hdel]
    decide
  have hnet : (removeRouteCommand n).destNet = toBe n.ip.val := rfl
  have hmask : netmask (removeRouteCommand n).destNetLen = toBe n.mask := netmask_of_le hn
  rw [proxyStep, processCmd_toBytes, if_neg hset, if_pos hdel, hmask, hnet, ← toBe_and]
  rfl

/-- **One action** is its change of the map. -/
theorem proxyStep_view {a : ProxyAction} (ha : ∀ n ∈ a.net, n.prefixLen ≤ 32)
    {s : RouteTable × Bool} (h : s.1.OneEach) :
    (proxyStep s a).1.OneEach ∧ (proxyStep s a).1.view = replay s.1.view a.change.toList := by
  cases a with
  | set port n nextHopIp =>
    rw [proxyStep_set (ha n rfl)]
    exact RouteTable.setRoute_view h _ _ _
  | del n =>
    rw [proxyStep_del (ha n rfl)]
    exact RouteTable.delRoute_view h _
  | packet dst => exact RouteTable.findRoute_view h _

/-- The networks of a history, by its first action and the others. -/
theorem forall_net_cons {P : IP4Net → Prop} {a : ProxyAction} :
    (∀ n ∈ (a :: actions).filterMap ProxyAction.net, P n) ↔
      (∀ n ∈ a.net, P n) ∧ ∀ n ∈ actions.filterMap ProxyAction.net, P n := by
  simp only [List.forall_mem_filterMap, List.forall_mem_cons, Option.mem_def]

/-- **A history is the replay of its commands.** -/
theorem view_proxyRun (hlen : ∀ n ∈ actions.filterMap ProxyAction.net, n.prefixLen ≤ 32) :
    (proxyRun actions).1.OneEach ∧
      (proxyRun actions).1.view =
        replay (fun _ => none) (actions.filterMap ProxyAction.change) := by
  suffices hrun : ∀ s : RouteTable × Bool, s.1.OneEach →
      (actions.foldl proxyStep s).1.OneEach ∧ (actions.foldl proxyStep s).1.view =
        replay s.1.view (actions.filterMap ProxyAction.change) from hrun ({}, false) List.nodup_nil
  induction actions with
  | nil => exact fun s hs => ⟨hs, rfl⟩
  | cons a actions ih =>
    intro s hs
    obtain ⟨ha, hrest⟩ := forall_net_cons.mp hlen
    obtain ⟨hone, hview⟩ := proxyStep_view ha hs
    obtain ⟨hone', hview'⟩ := ih hrest _ hone
    refine ⟨hone', ?_⟩
    rw [List.foldl_cons, hview', hview, ← replay_append]
    cases hchange : a.change with
    | none => rw [List.filterMap_cons_none hchange, Option.toList_none, List.nil_append]
    | some c => rw [List.filterMap_cons_some hchange, Option.toList_some, List.singleton_append]

/-- The entries are those of networks of the history. -/
theorem exists_net_of_mem_entries (hlen : ∀ n ∈ actions.filterMap ProxyAction.net, n.prefixLen ≤ 32)
    {e : RouteEntry} (he : e ∈ (proxyRun actions).1.entries) :
    ∃ n ∈ actions.filterMap ProxyAction.net, n.ipNet = e.dst := by
  obtain ⟨hone, hview⟩ := view_proxyRun hlen
  have hsome : (proxyRun actions).1.view e.dst = some (e.nextHopIp, e.nextHopPort) := by
    rw [RouteTable.view, (lookup_eq_some_iff hone).mpr ⟨he, rfl⟩, Option.map_some]
  have hkey : e.dst ∈ (actions.filterMap ProxyAction.change).map Prod.fst := by
    by_contra hno
    rw [hview, replay_of_notMem hno] at hsome
    cases hsome
  obtain ⟨c, hc, hdst⟩ := List.mem_map.mp hkey
  obtain ⟨a, ha, hchange⟩ := List.mem_filterMap.mp hc
  rw [← hdst]
  cases a with
  | set port n nextHopIp =>
    obtain rfl := Option.some.inj hchange
    exact ⟨n, List.mem_filterMap.mpr ⟨_, ha, rfl⟩, rfl⟩
  | del n =>
    obtain rfl := Option.some.inj hchange
    exact ⟨n, List.mem_filterMap.mpr ⟨_, ha, rfl⟩, rfl⟩
  | packet dst => cases hchange

theorem Deletes_congr {m n : IP4Net} (h : m.network = n.network) (a : ProxyAction) :
    a.Deletes m ↔ a.Deletes n := by
  cases a with
  | set port k nextHopIp => exact Iff.rfl
  | del k => rw [ProxyAction.Deletes, ProxyAction.Deletes, h]
  | packet k => exact Iff.rfl

/-- A change shows at a network if it is one of the same network. -/
theorem apply_ipNet {m n : IP4Net} (hm : m.prefixLen ≤ 32) (hn : n.prefixLen ≤ 32)
    (M : IpNet → Option (BitVec 32 × UInt16)) (v : Option (BitVec 32 × UInt16)) :
    Replay.apply M (m.ipNet, v) n.ipNet = if m.network = n.network then v else M n.ipNet := by
  rw [Replay.apply, Function.update_apply]
  refine if_congr ?_ rfl rfl
  rw [ipNet_inj hn hm, eq_comm]

/-- For a network that is the only one with the address, the replay has the answer. -/
theorem replay_eq_answer (hlen : ∀ m ∈ actions.filterMap ProxyAction.net, m.prefixLen ≤ 32)
    (hn : n.prefixLen ≤ 32)
    (honly : ∀ m ∈ actions.filterMap ProxyAction.net,
      m.contains dst = true ↔ m.network = n.network)
    (M : IpNet → Option (BitVec 32 × UInt16)) :
    replay M (actions.filterMap ProxyAction.change) n.ipNet =
      (answer dst actions).or (if ∀ a ∈ actions, ¬ a.Deletes n then M n.ipNet else none) := by
  induction actions generalizing M with
  | nil => simp [answer]
  | cons a actions ih =>
    obtain ⟨ha, hrest⟩ := forall_net_cons.mp hlen
    obtain ⟨hdst, honly⟩ := forall_net_cons.mp honly
    have ih := ih hrest honly
    simp only [List.forall_mem_cons]
    cases a with
    | packet d =>
      have hdel : ¬ (ProxyAction.packet d).Deletes n := id
      rw [List.filterMap_cons_none rfl, ih, answer]
      simp only [hdel, not_false_eq_true, true_and]
    | del m =>
      have hchange : (ProxyAction.del m).change = some (m.ipNet, none) := rfl
      have hdel : (ProxyAction.del m).Deletes n ↔ m.network = n.network := Iff.rfl
      rw [List.filterMap_cons_some hchange, replay_cons, ih, answer, apply_ipNet (ha m rfl) hn]
      simp only [hdel]
      by_cases hsame : m.network = n.network
      · simp [hsame]
      · simp [hsame]
    | set port m nextHopIp =>
      have hchange : (ProxyAction.set port m nextHopIp).change =
          some (m.ipNet, some (ProxyAction.hop port nextHopIp)) := rfl
      have hdel : ¬ (ProxyAction.set port m nextHopIp).Deletes n := id
      rw [List.filterMap_cons_some hchange, replay_cons, ih, answer, apply_ipNet (ha m rfl) hn,
        Option.or_assoc]
      simp only [hdst m rfl]
      by_cases hsame : m.network = n.network
      · simp only [hsame, if_true, Deletes_congr hsame, hdel, not_false_eq_true, true_and]
        by_cases hkept : ∀ a ∈ actions, ¬ a.Deletes n
        · rw [if_pos hkept, if_pos hkept, Option.some_or]
        · rw [if_neg hkept, if_neg hkept, Option.none_or]
      · simp [hsame, hdel]

/-- An address that is in no network of the history has no answer. -/
theorem answer_eq_none (hnone : ∀ m ∈ actions.filterMap ProxyAction.net, m.contains dst = false) :
    answer dst actions = none := by
  induction actions with
  | nil => rfl
  | cons a actions ih =>
    obtain ⟨ha, hothers⟩ := forall_net_cons.mp hnone
    have hrest := ih hothers
    cases a with
    | packet d => exact hrest
    | del m => exact hrest
    | set port m nextHopIp =>
      rw [answer, hrest, if_neg (by simp [ha m rfl]), Option.none_or]

/-- A packet does not count. -/
theorem answer_snoc_packet (other : IP4) :
    answer dst (actions ++ [.packet other]) = answer dst actions := by
  induction actions with
  | nil => rfl
  | cons a actions ih =>
    cases a with
    | packet d => exact ih
    | del m => exact ih
    | set port m nextHopIp =>
      have hkept : (∀ a ∈ actions ++ [.packet other], ¬ a.Deletes m) ↔
          ∀ a ∈ actions, ¬ a.Deletes m := by
        simp only [List.forall_mem_append, List.forall_mem_singleton, and_iff_left_iff_imp]
        exact fun _ => id
      rw [List.cons_append, answer, answer, ih]
      simp only [hkept]

/-- What a look-up finds after a history of networks that do not overlap. -/
theorem findRoute_proxyRun (hlen : ∀ n ∈ actions.filterMap ProxyAction.net, n.prefixLen ≤ 32)
    (hsep : Separate actions) (dst : IP4) :
    ((proxyRun actions).1.findRoute dst.networkOrder).2 = answer dst actions := by
  obtain ⟨hone, hview⟩ := view_proxyRun hlen
  by_cases hex : ∃ n ∈ actions.filterMap ProxyAction.net, n.contains dst = true
  · obtain ⟨n, hn, hdst⟩ := hex
    have honly : ∀ m ∈ actions.filterMap ProxyAction.net,
        m.contains dst = true ↔ m.network = n.network := by
      intro m hm
      constructor
      · intro hmdst
        rcases hsep m hm n hn with hsame | hdisjoint
        · exact hsame
        · exact absurd ⟨hmdst, hdst⟩ (hdisjoint dst)
      · intro hsame
        rw [← ipNet_matches_iff, (ipNet_inj (hlen m hm) (hlen n hn)).mpr hsame,
          ipNet_matches_iff]
        exact hdst
    have hentries : ∀ e ∈ (proxyRun actions).1.entries,
        e.dst.ip = dst.networkOrder &&& e.dst.mask ↔ e.dst = n.ipNet := by
      intro e he
      obtain ⟨m, hm, hmdst⟩ := exists_net_of_mem_entries hlen he
      rw [← hmdst, ipNet_matches_iff, honly m hm, ipNet_inj (hlen m hm) (hlen n hn)]
    rw [RouteTable.findRoute_eq_view hone hentries, hview,
      replay_eq_answer hlen (hlen n hn) honly, ite_self, Option.or_none]
  · have hnone : ∀ m ∈ actions.filterMap ProxyAction.net, m.contains dst = false := by
      intro m hm
      rw [← Bool.not_eq_true]
      exact fun hmdst => hex ⟨m, hm, hmdst⟩
    rw [answer_eq_none hnone]
    refine RouteTable.findRoute_eq_none fun e he hmatch => ?_
    obtain ⟨m, hm, hmdst⟩ := exists_net_of_mem_entries hlen he
    rw [← hmdst, ipNet_matches_iff, hnone m hm] at hmatch
    cases hmatch

end Histories

/-- **The proxy's routes.**  After every history of commands, for networks that do not
overlap, and packets: a look-up answers with the next hop of the last command that sets a
route to a network with the address and is not followed by one that deletes it; it changes
the answer of no other look-up; and no network has two entries. -/
theorem proxy_answers_last_set (actions : List ProxyAction)
    (hlen : ∀ n ∈ actions.filterMap ProxyAction.net, n.prefixLen ≤ 32)
    (hsep : Separate actions) :
    (∀ dst : IP4, ((proxyRun actions).1.findRoute dst.networkOrder).2 = answer dst actions) ∧
    (∀ dst other : IP4,
      (((proxyRun actions).1.findRoute other.networkOrder).1.findRoute dst.networkOrder).2 =
        ((proxyRun actions).1.findRoute dst.networkOrder).2) ∧
    ((proxyRun actions).1.entries.map RouteEntry.dst).Nodup := by
  refine ⟨findRoute_proxyRun hlen hsep, fun dst other => ?_, (view_proxyRun hlen).1⟩
  have hnets : (actions ++ [ProxyAction.packet other]).filterMap ProxyAction.net =
      actions.filterMap ProxyAction.net := by
    rw [List.filterMap_append]
    exact List.append_nil _
  have hrun : (proxyRun (actions ++ [.packet other])).1 =
      ((proxyRun actions).1.findRoute other.networkOrder).1 := by
    rw [proxyRun, List.foldl_append]
    rfl
  rw [← hrun, findRoute_proxyRun (hnets ▸ hlen) (by rw [Separate, hnets]; exact hsep),
    answer_snoc_packet, findRoute_proxyRun hlen hsep]

/-- Networks with one prefix length do not overlap. -/
theorem separate_of_prefixLen {actions : List ProxyAction} {len : Nat}
    (h : ∀ n ∈ actions.filterMap ProxyAction.net, n.prefixLen = len) : Separate actions := by
  intro m hm n hn
  refine or_iff_not_imp_right.mpr fun hoverlap => ?_
  obtain ⟨ip, hip⟩ := not_forall.mp hoverlap
  obtain ⟨hmip, hnip⟩ := not_not.mp hip
  have hlen : m.prefixLen = n.prefixLen := (h m hm).trans (h n hn).symm
  rw [IP4Net.contains, beq_iff_eq] at hmip hnip
  have hmask : m.mask = n.mask := congrArg maskValue hlen
  rw [IP4Net.network, IP4Net.network, hmip, hnip, hmask, hlen]

/-- The routes of two peers: one moves, and the other one leaves. -/
def proxyHistory : List ProxyAction :=
  [.set 8285 ⟨⟨0x0a020200⟩, 24⟩ ⟨0xc0a80001⟩, .set 8285 ⟨⟨0x0a030307⟩, 24⟩ ⟨0xc0a80002⟩,
    .packet ⟨0x0a030305⟩, .set 8285 ⟨⟨0x0a020209⟩, 24⟩ ⟨0xc0a80003⟩, .packet ⟨0x0a020205⟩,
    .del ⟨⟨0x0a030300⟩, 24⟩]

/-- Packets for the first peer go where it has moved, and there is no route to the other. -/
theorem proxy_answers_last_set_moved :
    ((proxyRun proxyHistory).1.findRoute (IP4.networkOrder ⟨0x0a020205⟩)).2 =
        some (IP4.networkOrder ⟨0xc0a80003⟩, 8285) ∧
      ((proxyRun proxyHistory).1.findRoute (IP4.networkOrder ⟨0x0a030305⟩)).2 = none := by
  have hlen : ∀ n ∈ proxyHistory.filterMap ProxyAction.net, n.prefixLen = 24 := by decide
  obtain ⟨hanswers, -, -⟩ := proxy_answers_last_set proxyHistory
    (fun n hn => by rw [hlen n hn]; decide) (separate_of_prefixLen hlen)
  rw [hanswers, hanswers]
  decide

end Flannel
