import Flannel.Ip.Display
import Flannel.Lib.PrefixMask

/-!
# Networks as sets of addresses

A network stands for the set of the addresses that it contains.  The operations of `IP4Net` and
`IP6Net` compare masked addresses; here each of them is read as what it says about these sets.

The masks of the source are those of `PrefixMask` for every prefix length that fits the family,
also for `/0`, where the shift by the whole width is an extra case there.  So the addresses of a
network are a block, and each statement is the one about blocks, for either width.
-/

namespace Flannel

open PrefixMask

/-! ## The masks -/

theorem maskValue_eq {len : Nat} (hlen : len ≤ 32) : maskValue len = PrefixMask.mask 32 len := by
  rw [maskValue, PrefixMask.mask]
  split_ifs with h
  · obtain rfl : len = 0 := by omega
    rfl
  · rfl

theorem mask6_eq {len : Nat} (hlen : len ≤ 128) : mask6 len = PrefixMask.mask 128 len := by
  rw [mask6, PrefixMask.mask]
  split_ifs with h
  · obtain rfl : len = 0 := by omega
    rfl
  · rfl

/-! ## IPv4 -/

namespace IP4Net

variable {a b n : IP4Net}

/-- The addresses of a network. -/
def addresses (n : IP4Net) : Set IP4 := {ip | n.contains ip = true}

theorem mem_addresses_iff (hn : n.prefixLen ≤ 32) {ip : IP4} :
    ip ∈ n.addresses ↔ ip.val ∈ block n.prefixLen n.ip.val := by
  rw [addresses, Set.mem_ofPred_eq, contains, beq_iff_eq, mask, maskValue_eq hn]
  rfl

theorem addresses_eq (hn : n.prefixLen ≤ 32) :
    n.addresses = Set.preimage IP4.val (block n.prefixLen n.ip.val) :=
  Set.ext fun _ => mem_addresses_iff hn

theorem containsCidr_iff (ha : a.prefixLen ≤ 32) (hb : b.prefixLen ≤ 32) :
    a.containsCidr b = true ↔ b.addresses ⊆ a.addresses := by
  have hsurj : Function.Surjective IP4.val := fun v => ⟨⟨v⟩, rfl⟩
  have hmem : a.contains b.ip = true ↔ b.ip.val ∈ block a.prefixLen a.ip.val :=
    mem_addresses_iff ha
  rw [containsCidr, Bool.and_eq_true, decide_eq_true_eq, mask, mask, maskValue_eq ha,
    maskValue_eq hb, mask_le_mask_iff ha hb, hmem, addresses_eq ha, addresses_eq hb,
    hsurj.preimage_subset_preimage_iff, block_subset_iff ha hb]

theorem overlaps_iff (ha : a.prefixLen ≤ 32) (hb : b.prefixLen ≤ 32) :
    a.overlaps b = true ↔ (a.addresses ∩ b.addresses).Nonempty := by
  have hsurj : Function.Surjective IP4.val := fun v => ⟨⟨v⟩, rfl⟩
  have hmask : (if a.prefixLen < b.prefixLen then a.mask else b.mask) =
      PrefixMask.mask 32 (min a.prefixLen b.prefixLen) := by
    split_ifs with h
    · rw [mask, maskValue_eq ha, Nat.min_eq_left (by omega)]
    · rw [mask, maskValue_eq hb, Nat.min_eq_right (by omega)]
  rw [addresses_eq ha, addresses_eq hb, ← Set.preimage_inter, hsurj.nonempty_preimage,
    inter_nonempty_iff, overlaps, hmask, beq_iff_eq]
  rfl

theorem network_ip (hn : n.prefixLen ≤ 32) :
    n.network.ip.val = n.ip.val &&& PrefixMask.mask 32 n.prefixLen := by
  rw [network, mask, maskValue_eq hn]

theorem addresses_network (hn : n.prefixLen ≤ 32) : n.network.addresses = n.addresses := by
  have hblock : block n.prefixLen n.network.ip.val = block n.prefixLen n.ip.val := by
    rw [network_ip hn]
    exact block_eq_of_mem (and_mask_mem_block _ _)
  rw [addresses_eq hn, ← hblock]
  exact addresses_eq hn

theorem network_network (n : IP4Net) : n.network.network = n.network := by
  have hmask : n.network.mask = n.mask := rfl
  rw [network, hmask, network, BitVec.and_assoc, BitVec.and_self]

theorem isLeast_network (hn : n.prefixLen ≤ 32) : IsLeast n.addresses n.network.ip := by
  obtain ⟨hmem, hle⟩ := isLeast_block n.ip.val n.prefixLen
  rw [← network_ip hn] at hmem hle
  exact ⟨(mem_addresses_iff hn).mpr hmem, fun ip hip => hle ((mem_addresses_iff hn).mp hip)⟩

theorem isGreatest_broadcast (hn : n.prefixLen ≤ 32) : IsGreatest n.addresses n.broadcast := by
  obtain ⟨hmem, hle⟩ := isGreatest_block n.ip.val n.prefixLen
  have hval : n.broadcast.val = n.ip.val ||| ~~~PrefixMask.mask 32 n.prefixLen := by
    rw [broadcast, mask, maskValue_eq hn]
  rw [← hval] at hmem hle
  exact ⟨(mem_addresses_iff hn).mpr hmem, fun ip hip => hle ((mem_addresses_iff hn).mp hip)⟩

theorem network_eq_iff (ha : a.prefixLen ≤ 32) (hb : b.prefixLen ≤ 32) :
    a.network = b.network ↔ a.addresses = b.addresses ∧ a.prefixLen = b.prefixLen := by
  constructor
  · intro h
    have hlen : a.network.prefixLen = b.network.prefixLen := congrArg prefixLen h
    refine ⟨?_, hlen⟩
    rw [← addresses_network ha, ← addresses_network hb, h]
  · rintro ⟨hset, hlen⟩
    -- the network address is the least one of the set
    have hleast := isLeast_network ha
    rw [hset] at hleast
    have hval : a.network.ip.val = b.network.ip.val :=
      BitVec.le_antisymm (hleast.2 (isLeast_network hb).1) ((isLeast_network hb).2 hleast.1)
    exact IP4Net.ext (congrArg IP4.mk hval) hlen

end IP4Net

/-! ## IPv6 -/

namespace IP6Net

variable {a b n : IP6Net}

/-- The addresses of a network. -/
def addresses (n : IP6Net) : Set IP6 := {ip | n.contains ip = true}

theorem mem_addresses_iff (hn : n.prefixLen ≤ 128) {ip : IP6} :
    ip ∈ n.addresses ↔ ip.val ∈ block n.prefixLen n.ip.val := by
  rw [addresses, Set.mem_ofPred_eq, contains, beq_iff_eq, mask, mask6_eq hn]
  rfl

theorem addresses_eq (hn : n.prefixLen ≤ 128) :
    n.addresses = Set.preimage IP6.val (block n.prefixLen n.ip.val) :=
  Set.ext fun _ => mem_addresses_iff hn

theorem containsCidr_iff (ha : a.prefixLen ≤ 128) (hb : b.prefixLen ≤ 128) :
    a.containsCidr b = true ↔ b.addresses ⊆ a.addresses := by
  have hsurj : Function.Surjective IP6.val := fun v => ⟨⟨v⟩, rfl⟩
  have hmem : a.contains b.ip = true ↔ b.ip.val ∈ block a.prefixLen a.ip.val :=
    mem_addresses_iff ha
  rw [containsCidr, Bool.and_eq_true, decide_eq_true_eq, mask, mask, mask6_eq ha,
    mask6_eq hb, mask_le_mask_iff ha hb, hmem, addresses_eq ha, addresses_eq hb,
    hsurj.preimage_subset_preimage_iff, block_subset_iff ha hb]

theorem overlaps_iff (ha : a.prefixLen ≤ 128) (hb : b.prefixLen ≤ 128) :
    a.overlaps b = true ↔ (a.addresses ∩ b.addresses).Nonempty := by
  have hsurj : Function.Surjective IP6.val := fun v => ⟨⟨v⟩, rfl⟩
  have hmask : (if a.prefixLen < b.prefixLen then a.mask else b.mask) =
      PrefixMask.mask 128 (min a.prefixLen b.prefixLen) := by
    split_ifs with h
    · rw [mask, mask6_eq ha, Nat.min_eq_left (by omega)]
    · rw [mask, mask6_eq hb, Nat.min_eq_right (by omega)]
  rw [addresses_eq ha, addresses_eq hb, ← Set.preimage_inter, hsurj.nonempty_preimage,
    inter_nonempty_iff, overlaps, hmask, beq_iff_eq]
  rfl

theorem network_ip (hn : n.prefixLen ≤ 128) :
    n.network.ip.val = n.ip.val &&& PrefixMask.mask 128 n.prefixLen := by
  rw [network, mask, mask6_eq hn]

theorem addresses_network (hn : n.prefixLen ≤ 128) : n.network.addresses = n.addresses := by
  have hblock : block n.prefixLen n.network.ip.val = block n.prefixLen n.ip.val := by
    rw [network_ip hn]
    exact block_eq_of_mem (and_mask_mem_block _ _)
  rw [addresses_eq hn, ← hblock]
  exact addresses_eq hn

theorem network_network (n : IP6Net) : n.network.network = n.network := by
  have hmask : n.network.mask = n.mask := rfl
  rw [network, hmask, network, BitVec.and_assoc, BitVec.and_self]

theorem isLeast_network (hn : n.prefixLen ≤ 128) : IsLeast n.addresses n.network.ip := by
  obtain ⟨hmem, hle⟩ := isLeast_block n.ip.val n.prefixLen
  rw [← network_ip hn] at hmem hle
  exact ⟨(mem_addresses_iff hn).mpr hmem, fun ip hip => hle ((mem_addresses_iff hn).mp hip)⟩

theorem network_eq_iff (ha : a.prefixLen ≤ 128) (hb : b.prefixLen ≤ 128) :
    a.network = b.network ↔ a.addresses = b.addresses ∧ a.prefixLen = b.prefixLen := by
  constructor
  · intro h
    have hlen : a.network.prefixLen = b.network.prefixLen := congrArg prefixLen h
    refine ⟨?_, hlen⟩
    rw [← addresses_network ha, ← addresses_network hb, h]
  · rintro ⟨hset, hlen⟩
    -- the network address is the least one of the set
    have hleast := isLeast_network ha
    rw [hset] at hleast
    have hval : a.network.ip.val = b.network.ip.val :=
      BitVec.le_antisymm (hleast.2 (isLeast_network hb).1) ((isLeast_network hb).2 hleast.1)
    exact IP6Net.ext (congrArg IP6.mk hval) hlen

end IP6Net

/-! ## The operations -/

/-- **The operations on networks mean what they say about sets of addresses**, in either
family and with host bits set or not. -/
theorem cidr_operations_on_sets {a b : IP4Net} {c d : IP6Net} (ha : a.prefixLen ≤ 32)
    (hb : b.prefixLen ≤ 32) (hc : c.prefixLen ≤ 128) (hd : d.prefixLen ≤ 128) :
    ((a.containsCidr b = true ↔ b.addresses ⊆ a.addresses) ∧
      (a.overlaps b = true ↔ (a.addresses ∩ b.addresses).Nonempty) ∧
      a.overlaps b = b.overlaps a ∧
      a.network.addresses = a.addresses ∧
      a.network.network = a.network ∧
      IsLeast a.addresses a.network.ip ∧
      IsGreatest a.addresses a.broadcast ∧
      (a.network = b.network ↔ a.addresses = b.addresses ∧ a.prefixLen = b.prefixLen) ∧
      IP4Net.fromStr a.network.toString = .ok a.network) ∧
    ((c.containsCidr d = true ↔ d.addresses ⊆ c.addresses) ∧
      (c.overlaps d = true ↔ (c.addresses ∩ d.addresses).Nonempty) ∧
      c.overlaps d = d.overlaps c ∧
      c.network.addresses = c.addresses ∧
      c.network.network = c.network ∧
      IsLeast c.addresses c.network.ip ∧
      (c.network = d.network ↔ c.addresses = d.addresses ∧ c.prefixLen = d.prefixLen) ∧
      IP6Net.fromStr c.network.toString = .ok c.network) := by
  have hsymm4 : a.overlaps b = b.overlaps a := by
    rw [Bool.eq_iff_iff, IP4Net.overlaps_iff ha hb, IP4Net.overlaps_iff hb ha, Set.inter_comm]
  have hsymm6 : c.overlaps d = d.overlaps c := by
    rw [Bool.eq_iff_iff, IP6Net.overlaps_iff hc hd, IP6Net.overlaps_iff hd hc, Set.inter_comm]
  have hread4 : IP4Net.fromStr a.network.toString = .ok a.network.network :=
    IP4Net.fromStr_toString ha
  have hread6 : IP6Net.fromStr c.network.toString = .ok c.network.network :=
    IP6Net.fromStr_toString hc
  rw [IP4Net.network_network] at hread4
  rw [IP6Net.network_network] at hread6
  exact ⟨⟨IP4Net.containsCidr_iff ha hb, IP4Net.overlaps_iff ha hb, hsymm4,
      IP4Net.addresses_network ha, IP4Net.network_network a, IP4Net.isLeast_network ha,
      IP4Net.isGreatest_broadcast ha, IP4Net.network_eq_iff ha hb, hread4⟩,
    IP6Net.containsCidr_iff hc hd, IP6Net.overlaps_iff hc hd, hsymm6,
    IP6Net.addresses_network hc, IP6Net.network_network c, IP6Net.isLeast_network hc,
    IP6Net.network_eq_iff hc hd, hread6⟩

theorem cidr_operations_on_sets_host_bits :
    (⟨⟨0x0a010203#32⟩, 24⟩ : IP4Net).addresses ⊆ (⟨⟨0x0a000000#32⟩, 0⟩ : IP4Net).addresses ∧
      ¬ (⟨⟨1#128⟩, 0⟩ : IP6Net).addresses ⊆ (⟨⟨1#128⟩, 128⟩ : IP6Net).addresses := by
  have h := cidr_operations_on_sets (a := ⟨⟨0x0a000000#32⟩, 0⟩) (b := ⟨⟨0x0a010203#32⟩, 24⟩)
    (c := ⟨⟨1#128⟩, 128⟩) (d := ⟨⟨1#128⟩, 0⟩) (by decide) (by decide) (by decide) (by decide)
  exact ⟨h.1.1.mp (by decide), fun hsub => absurd (h.2.1.mpr hsub) (by decide)⟩

end Flannel
