import Flannel.Ip.CidrSets
import Flannel.Subnet.Config

/-!
# What the check of a configuration guarantees

Either half of `check_network_config` works on four numbers of its family: the address of the
network, the length of a subnet and the two bounds.  What it guarantees about them is the same
statement for either width (`ValidRange`), and it is one about multiples of a power of two:
the network is a multiple of its own size, and the size of a subnet divides it.

Nothing compares the two bounds with each other.  So the range can be empty, and
`ValidRange.min_le_max_iff` says when it is not.
-/

namespace Flannel

open PrefixMask

/-! ## Ranges of subnets -/

/-- A bound that was given, or the default for zero. -/
def boundOf {w : Nat} (given default : BitVec w) : BitVec w :=
  if given = 0#w then default else given

theorem boundOf_zero {w : Nat} (default : BitVec w) : boundOf 0#w default = default := if_pos rfl

theorem boundOf_given {w : Nat} {given : BitVec w} (h : given ≠ 0#w) (default : BitVec w) :
    boundOf given default = given :=
  if_neg h

/-- What the check guarantees in a family of `w` bits: the length of a subnet fits, each bound is
in the network and starts a subnet, a bound that was given (is not zero) stays, and one that was
not is the second or the last subnet of the network. -/
structure ValidRange (w longest prefixLen subnetLen : Nat)
    (network givenMin givenMax min max : BitVec w) : Prop where
  len_ge : prefixLen + 2 ≤ subnetLen
  len_le : subnetLen ≤ longest
  min_mem : min ∈ block prefixLen network
  max_mem : max ∈ block prefixLen network
  min_dvd : 2 ^ (w - subnetLen) ∣ min.toNat
  max_dvd : 2 ^ (w - subnetLen) ∣ max.toNat
  min_given : givenMin ≠ 0#w → min = givenMin
  max_given : givenMax ≠ 0#w → max = givenMax
  min_default : givenMin = 0#w → min.toNat = network.toNat + 2 ^ (w - subnetLen)
  max_default : givenMax = 0#w →
    max.toNat + 2 ^ (w - subnetLen) = network.toNat + 2 ^ (w - prefixLen)

section Range

variable {w longest p s : Nat} {network givenMin givenMax min max : BitVec w}

/-- The second subnet of a network is in it, and starts a subnet. -/
theorem second_spec (hv : network &&& PrefixMask.mask w p = network) (hps : p < s) (hs : s ≤ w) :
    network + BitVec.twoPow w (w - s) ∈ block p network ∧
      2 ^ (w - s) ∣ (network + BitVec.twoPow w (w - s)).toNat := by
  have hlt := size_lt_size hps hs
  have hdvd : 2 ^ (w - s) ∣ network.toNat := size_dvd_of_masked hv (Nat.le_of_lt hps)
  rw [mem_block_iff_of_masked hv, toNat_second hv hps hs]
  exact ⟨by omega, Nat.dvd_add hdvd (Nat.dvd_refl _)⟩

/-- The last subnet of a network is in it, and starts a subnet. -/
theorem last_spec (hv : network &&& PrefixMask.mask w p = network) (hps : p < s) (hs : s ≤ w) :
    network + BitVec.twoPow w (w - p) - BitVec.twoPow w (w - s) ∈ block p network ∧
      2 ^ (w - s) ∣ (network + BitVec.twoPow w (w - p) - BitVec.twoPow w (w - s)).toNat := by
  have hlt := size_lt_size hps hs
  have hpos := Nat.two_pow_pos (w - s)
  have hsize : 2 ^ (w - s) ∣ 2 ^ (w - p) := size_dvd_size (Nat.le_of_lt hps)
  have hdvd : 2 ^ (w - s) ∣ network.toNat := size_dvd_of_masked hv (Nat.le_of_lt hps)
  rw [mem_block_iff_of_masked hv, toNat_last hv hps hs]
  exact ⟨by omega, Nat.dvd_sub (Nat.dvd_add hdvd hsize) (Nat.dvd_refl _)⟩

/-- **The bounds that the check takes are valid**, if those that were given are in the network and
start a subnet. -/
theorem validRange_of_bounds (hv : network &&& PrefixMask.mask w p = network)
    (hps : p + 2 ≤ s) (hs : s ≤ longest) (hw : longest ≤ w)
    (hmin : min = boundOf givenMin (network + BitVec.twoPow w (w - s)))
    (hmax : max =
      boundOf givenMax (network + BitVec.twoPow w (w - p) - BitVec.twoPow w (w - s)))
    (hminIn : givenMin ≠ 0#w → givenMin ∈ block p network)
    (hmaxIn : givenMax ≠ 0#w → givenMax ∈ block p network)
    (hminDvd : 2 ^ (w - s) ∣ min.toNat) (hmaxDvd : 2 ^ (w - s) ∣ max.toNat) :
    ValidRange w longest p s network givenMin givenMax min max := by
  have hlt : p < s := by omega
  have hsw : s ≤ w := by omega
  refine ⟨hps, hs, ?_, ?_, hminDvd, hmaxDvd, ?_, ?_, ?_, ?_⟩
  · by_cases h : givenMin = 0#w
    · rw [hmin, h, boundOf_zero]
      exact (second_spec hv hlt hsw).1
    · rw [hmin, boundOf_given h]
      exact hminIn h
  · by_cases h : givenMax = 0#w
    · rw [hmax, h, boundOf_zero]
      exact (last_spec hv hlt hsw).1
    · rw [hmax, boundOf_given h]
      exact hmaxIn h
  · intro h
    rw [hmin, boundOf_given h]
  · intro h
    rw [hmax, boundOf_given h]
  · intro h
    rw [hmin, h, boundOf_zero, toNat_second hv hlt hsw]
  · intro h
    have hsize := size_lt_size hlt hsw
    rw [hmax, h, boundOf_zero, toNat_last hv hlt hsw]
    omega

namespace ValidRange

theorem min_ne_zero (h : ValidRange w longest p s network givenMin givenMax min max) :
    min ≠ 0#w := by
  by_cases hgiven : givenMin = 0#w
  · have hpos := Nat.two_pow_pos (w - s)
    have hmin := h.min_default hgiven
    rintro rfl
    rw [BitVec.toNat_ofNat, Nat.zero_mod] at hmin
    omega
  · rw [h.min_given hgiven]
    exact hgiven

theorem max_ne_zero (h : ValidRange w longest p s network givenMin givenMax min max)
    (hw : longest ≤ w) : max ≠ 0#w := by
  by_cases hgiven : givenMax = 0#w
  · have hmax := h.max_default hgiven
    have hlen := h.len_ge
    have hlong := h.len_le
    have hsize : 2 ^ (w - s) < 2 ^ (w - p) := size_lt_size (by omega) (by omega)
    rintro rfl
    rw [BitVec.toNat_ofNat, Nat.zero_mod] at hmax
    omega
  · rw [h.max_given hgiven]
    exact hgiven

/-- **When the range is not empty.**  A bound that was not given never makes it empty, except
that a given upper bound can be the first subnet, which the default lower bound skips. -/
theorem min_le_max_iff (h : ValidRange w longest p s network givenMin givenMax min max)
    (hv : network &&& PrefixMask.mask w p = network) :
    min ≤ max ↔ givenMax = 0#w ∨ (givenMin = 0#w ∧ givenMax ≠ network) ∨
      (givenMin ≠ 0#w ∧ givenMin ≤ givenMax) := by
  have hlen := h.len_ge
  have hlong := h.len_le
  have hpos := Nat.two_pow_pos (w - s)
  have hdvd : 2 ^ (w - s) ∣ network.toNat := size_dvd_of_masked hv (by omega)
  have hminIn := (mem_block_iff_of_masked hv).mp h.min_mem
  have hmaxIn := (mem_block_iff_of_masked hv).mp h.max_mem
  by_cases hmax : givenMax = 0#w
  · -- the last subnet is not below any subnet of the network
    have hlast := h.max_default hmax
    have hend : 2 ^ (w - s) ∣ network.toNat + 2 ^ (w - p) :=
      Nat.dvd_add hdvd (size_dvd_size (by omega))
    have hle : min.toNat + 2 ^ (w - s) ≤ network.toNat + 2 ^ (w - p) :=
      add_le_of_dvd h.min_dvd hend hminIn.2
    simp only [hmax, true_or, iff_true]
    rw [BitVec.le_def]
    omega
  · simp only [hmax, false_or]
    by_cases hmin : givenMin = 0#w
    · -- the second subnet is below every subnet but the first
      have hfirst := h.min_default hmin
      have hgiven := h.max_given hmax
      simp only [hmin, true_and, ne_eq, not_true_eq_false, false_and, or_false]
      rw [BitVec.le_def, hfirst, ← hgiven, ← BitVec.toNat_inj]
      constructor
      · omega
      · intro hne
        exact add_le_of_dvd hdvd h.max_dvd (by omega)
    · simp only [hmin, false_and, ne_eq, not_false_eq_true, true_and, false_or]
      rw [h.min_given hmin, h.max_given hmax]

end ValidRange

end Range

/-! ## The length of a subnet -/

/-- The defaults of a family leave room for four subnets and are not too long. -/
structure LenLimits.Sound (limits : LenLimits) : Prop where
  usual_ge : limits.wide + 2 ≤ limits.usual
  usual_le : limits.usual ≤ limits.longest
  smallest_le : limits.smallest + 2 ≤ limits.longest

theorem ipv4Limits_sound : ipv4Limits.Sound := ⟨by decide, by decide, by decide⟩

theorem ipv6Limits_sound : ipv6Limits.Sound := ⟨by decide, by decide, by decide⟩

theorem subnetLenOf_ok {limits : LenLimits} (hsound : limits.Sound) {given p len : Nat}
    (h : subnetLenOf limits given p = .ok len) : p + 2 ≤ len ∧ len ≤ limits.longest := by
  have husual := hsound.usual_ge
  have hlongest := hsound.usual_le
  have hsmallest := hsound.smallest_le
  unfold subnetLenOf at h
  split_ifs at h with hpos hbig hfew hsmall hwide
  · cases h
    omega
  · cases h
    omega
  · cases h
    omega

theorem subnetLenOf_self {limits : LenLimits} {p len : Nat} (hge : p + 2 ≤ len)
    (hle : len ≤ limits.longest) : subnetLenOf limits len p = .ok len := by
  rw [subnetLenOf, if_pos (by omega), if_neg (by omega), if_neg (by omega)]

/-! ## IPv4 -/

theorem maskChecked_eq (bits : Nat) : maskChecked bits = some ⟨maskValue bits⟩ := by
  unfold maskChecked maskValue
  split_ifs with h
  · rfl
  · rw [Checked.sub_of_le (by omega), Option.bind_eq_bind, Option.bind_some,
      Checked.shl_of_lt (by omega)]
    rfl

theorem subnetSize_eq {p : Nat} (hp : p ≤ 32) :
    subnetSize p = some (BitVec.twoPow 32 (32 - p)) := by
  unfold subnetSize
  split_ifs with h
  · obtain rfl : p = 0 := by omega
    rfl
  · rw [Checked.sub_of_le (by omega), Option.bind_eq_bind, Option.bind_some,
      Checked.shl_of_lt (by omega)]
    rfl

theorem subnetMinOf_ok {network : IP4Net} {given min : IP4} {size : BitVec 32}
    (h : subnetMinOf network given size = .ok min) :
    min.val = boundOf given.val (network.ip.val + size) ∧
      (given.val ≠ 0#32 → network.contains given = true) := by
  obtain ⟨g⟩ := given
  unfold subnetMinOf at h
  split_ifs at h with hzero hin
  · cases h
    cases hzero
    exact ⟨(boundOf_zero _).symm, fun hne => absurd rfl hne⟩
  · cases h
    have hg : g ≠ 0#32 := fun hg => hzero (congrArg IP4.mk hg)
    exact ⟨(boundOf_given hg _).symm, fun _ => by simpa using hin⟩

theorem subnetMaxOf_some {network : IP4Net} (hp : network.prefixLen ≤ 32) (given : IP4)
    (size : BitVec 32) : ∃ result, subnetMaxOf network given size = some result ∧
      ∀ max, result = .ok max →
        max.val = boundOf given.val
          (network.ip.val + BitVec.twoPow 32 (32 - network.prefixLen) - size) ∧
        (given.val ≠ 0#32 → network.contains given = true) := by
  obtain ⟨g⟩ := given
  unfold subnetMaxOf
  split_ifs with hzero hin
  · cases hzero
    rw [IP4Net.next, subnetSize_eq hp]
    refine ⟨_, rfl, fun max h => ?_⟩
    cases h
    exact ⟨(boundOf_zero _).symm, fun hne => absurd rfl hne⟩
  · refine ⟨_, rfl, fun max h => ?_⟩
    cases h
  · have hg : g ≠ 0#32 := fun hg => hzero (congrArg IP4.mk hg)
    refine ⟨_, rfl, fun max h => ?_⟩
    cases h
    exact ⟨(boundOf_given hg _).symm, fun _ => by simpa using hin⟩

theorem checkSubnet_iff {len : Nat} (hlen : len ≤ 32) {ip : IP4} :
    checkSubnet ip ⟨maskValue len⟩ = true ↔ 2 ^ (32 - len) ∣ ip.val.toNat := by
  obtain ⟨v⟩ := ip
  rw [checkSubnet, beq_iff_eq, IP4.mk.injEq, maskValue_eq hlen, and_mask_eq_self_iff]

theorem checkIpv4Boundary_cases {c : Config} (hlen : c.subnetLen ≤ 32) :
    (∃ e, checkIpv4Boundary c = some (c, .error e)) ∨
    (2 ^ (32 - c.subnetLen) ∣ c.subnetMin.val.toNat ∧
      2 ^ (32 - c.subnetLen) ∣ c.subnetMax.val.toNat ∧
      checkIpv4Boundary c = some (c, .ok ())) := by
  rw [checkIpv4Boundary, maskChecked_eq, Option.bind_eq_bind, Option.bind_some]
  split_ifs with hmin hmax
  · exact .inl ⟨_, rfl⟩
  · exact .inl ⟨_, rfl⟩
  · rw [Bool.not_eq_true', Bool.not_eq_false, checkSubnet_iff hlen] at hmin hmax
    exact .inr ⟨hmin, hmax, rfl⟩

/-- A network whose host bits are cleared. -/
theorem IP4Net.masked_ip {n : IP4Net} (hn : n.network = n) (hp : n.prefixLen ≤ 32) :
    n.ip.val &&& PrefixMask.mask 32 n.prefixLen = n.ip.val := by
  rw [← IP4Net.network_ip hp, hn]

/-- **The IPv4 half fails, or it leaves a valid range**, and it never shifts too far. -/
theorem checkIpv4_cases {c : Config} (hc : c.network.network = c.network)
    (hp : c.network.prefixLen ≤ 32) :
    (∃ c' e, checkIpv4 c = some (c', .error e)) ∨
    ∃ len min max, c.network.empty = false ∧
      ValidRange 32 30 c.network.prefixLen len c.network.ip.val c.subnetMin.val c.subnetMax.val
        min.val max.val ∧
      checkIpv4 c =
        some ({ c with subnetLen := len, subnetMin := min, subnetMax := max }, .ok ()) := by
  unfold checkIpv4
  by_cases hempty : c.network.empty = true
  · rw [if_pos hempty]
    exact .inl ⟨_, _, rfl⟩
  rw [if_neg hempty]
  cases hlen : subnetLenOf ipv4Limits c.subnetLen c.network.prefixLen with
  | error e => exact .inl ⟨_, _, rfl⟩
  | ok len =>
    obtain ⟨hge, hle⟩ := subnetLenOf_ok ipv4Limits_sound hlen
    have hle30 : len ≤ 30 := hle
    simp only [Checked.sub_of_le (show len ≤ 32 by omega),
      Checked.shl_of_lt (show 32 - len < 32 by omega), Option.bind_eq_bind, Option.bind_some]
    cases hmin : subnetMinOf c.network c.subnetMin (1#32 <<< (32 - len)) with
    | error e => exact .inl ⟨_, _, rfl⟩
    | ok min =>
      obtain ⟨result, hresult, hmax⟩ := subnetMaxOf_some hp c.subnetMax (1#32 <<< (32 - len))
      simp only [hresult, Option.bind_some]
      cases result with
      | error e => exact .inl ⟨_, _, rfl⟩
      | ok max =>
        obtain ⟨hminEq, hminIn⟩ := subnetMinOf_ok hmin
        obtain ⟨hmaxEq, hmaxIn⟩ := hmax max rfl
        rcases checkIpv4Boundary_cases
          (c := { c with subnetLen := len, subnetMin := min, subnetMax := max })
          (show len ≤ 32 by omega) with ⟨e, herror⟩ | ⟨hminDvd, hmaxDvd, hok⟩
        · exact .inl ⟨_, e, herror⟩
        · refine .inr ⟨len, min, max, by simpa using hempty, ?_, hok⟩
          exact validRange_of_bounds (IP4Net.masked_ip hc hp) hge hle30 (by omega) hminEq hmaxEq
            (fun h => (IP4Net.mem_addresses_iff hp).mp (hminIn h))
            (fun h => (IP4Net.mem_addresses_iff hp).mp (hmaxIn h)) hminDvd hmaxDvd

/-- A configuration with a valid range passes the IPv4 half as it is. -/
theorem checkIpv4_of_valid {c : Config} (hp : c.network.prefixLen ≤ 32)
    (hempty : c.network.empty = false) {givenMin givenMax : BitVec 32}
    (hvalid : ValidRange 32 30 c.network.prefixLen c.subnetLen c.network.ip.val givenMin givenMax
      c.subnetMin.val c.subnetMax.val) :
    checkIpv4 c = some (c, .ok ()) := by
  have hge := hvalid.len_ge
  have hle := hvalid.len_le
  have hlen : subnetLenOf ipv4Limits c.subnetLen c.network.prefixLen = .ok c.subnetLen :=
    subnetLenOf_self hge hle
  have hmin (size : BitVec 32) : subnetMinOf c.network c.subnetMin size = .ok c.subnetMin := by
    have hin : c.network.contains c.subnetMin = true :=
      (IP4Net.mem_addresses_iff hp).mpr hvalid.min_mem
    have hne : c.subnetMin ≠ ⟨0⟩ := fun h => hvalid.min_ne_zero (congrArg IP4.val h)
    rw [subnetMinOf, if_neg hne, hin]
    rfl
  have hmax (size : BitVec 32) :
      subnetMaxOf c.network c.subnetMax size = some (.ok c.subnetMax) := by
    have hin : c.network.contains c.subnetMax = true :=
      (IP4Net.mem_addresses_iff hp).mpr hvalid.max_mem
    have hne : c.subnetMax ≠ ⟨0⟩ :=
      fun h => hvalid.max_ne_zero (by omega) (congrArg IP4.val h)
    rw [subnetMaxOf, if_neg hne, hin]
    rfl
  have hboundary : checkIpv4Boundary c = some (c, .ok ()) := by
    have hmin := (checkSubnet_iff (show c.subnetLen ≤ 32 by omega)).mpr hvalid.min_dvd
    have hmax := (checkSubnet_iff (show c.subnetLen ≤ 32 by omega)).mpr hvalid.max_dvd
    rw [checkIpv4Boundary, maskChecked_eq, Option.bind_eq_bind, Option.bind_some, hmin, hmax]
    rfl
  rw [checkIpv4, hempty, hlen]
  simp only [Checked.sub_of_le (show c.subnetLen ≤ 32 by omega),
    Checked.shl_of_lt (show 32 - c.subnetLen < 32 by omega), Option.bind_eq_bind,
    Option.bind_some, hmin, hmax, hboundary, Bool.false_eq_true, if_false]

/-! ## IPv6 -/

theorem mask6Checked_eq (bits : Nat) : mask6Checked bits = some ⟨mask6 bits⟩ := by
  unfold mask6Checked mask6
  split_ifs with h
  · rfl
  · rw [Checked.sub_of_le (by omega), Option.bind_eq_bind, Option.bind_some,
      Checked.shl_of_lt (by omega)]
    rfl

theorem subnetSize6_eq {p : Nat} (hp : p ≤ 128) :
    subnetSize6 p = some (BitVec.twoPow 128 (128 - p)) := by
  unfold subnetSize6
  split_ifs with h
  · obtain rfl : p = 0 := by omega
    rfl
  · rw [Checked.sub_of_le (by omega), Option.bind_eq_bind, Option.bind_some,
      Checked.shl_of_lt (by omega)]
    rfl

/-- The value of a bound that may be missing: zero, if it was not given. -/
def givenIpv6 (bound : Option IP6) : BitVec 128 := (bound.getD ⟨0⟩).val

theorem givenIpv6_of_filter_some {bound : Option IP6} {ip : IP6}
    (h : bound.filter (fun ip => !ip.isEmpty) = some ip) :
    givenIpv6 bound = ip.val ∧ ip.val ≠ 0#128 := by
  rw [Option.filter_eq_some_iff] at h
  obtain ⟨rfl, hne⟩ := h
  exact ⟨rfl, by simpa [IP6.isEmpty] using hne⟩

theorem givenIpv6_of_filter_none {bound : Option IP6}
    (h : bound.filter (fun ip => !ip.isEmpty) = none) : givenIpv6 bound = 0#128 := by
  cases bound with
  | none => rfl
  | some ip => simpa [IP6.isEmpty, givenIpv6] using h

theorem ipv6SubnetMinOf_ok {network : IP6Net} {given : Option IP6} {min : IP6} {size : BitVec 128}
    (h : ipv6SubnetMinOf network given size = .ok min) :
    min.val = boundOf (givenIpv6 given) (network.ip.val + size) ∧
      (givenIpv6 given ≠ 0#128 → network.contains ⟨givenIpv6 given⟩ = true) := by
  unfold ipv6SubnetMinOf at h
  cases hgiven : given.filter (fun ip => !ip.isEmpty) with
  | none =>
    have hzero := givenIpv6_of_filter_none hgiven
    rw [hgiven] at h
    cases h
    rw [hzero]
    exact ⟨(boundOf_zero _).symm, fun hne => absurd rfl hne⟩
  | some ip =>
    obtain ⟨hval, hne⟩ := givenIpv6_of_filter_some hgiven
    rw [hgiven] at h
    dsimp only at h
    split_ifs at h with hin
    cases h
    rw [hval]
    exact ⟨(boundOf_given hne _).symm, fun _ => by simpa using hin⟩

theorem ipv6SubnetMaxOf_some {network : IP6Net} (hp : network.prefixLen ≤ 128)
    (given : Option IP6) (size : BitVec 128) :
    ∃ result, ipv6SubnetMaxOf network given size = some result ∧
      ∀ max, result = .ok max →
        max.val = boundOf (givenIpv6 given)
          (network.ip.val + BitVec.twoPow 128 (128 - network.prefixLen) - size) ∧
        (givenIpv6 given ≠ 0#128 → network.contains ⟨givenIpv6 given⟩ = true) := by
  unfold ipv6SubnetMaxOf
  cases hgiven : given.filter (fun ip => !ip.isEmpty) with
  | none =>
    have hzero := givenIpv6_of_filter_none hgiven
    rw [IP6Net.next, subnetSize6_eq hp]
    refine ⟨_, rfl, fun max h => ?_⟩
    cases h
    rw [hzero]
    exact ⟨(boundOf_zero _).symm, fun hne => absurd rfl hne⟩
  | some ip =>
    obtain ⟨hval, hne⟩ := givenIpv6_of_filter_some hgiven
    refine ⟨_, rfl, fun max h => ?_⟩
    split_ifs at h with hin
    cases h
    rw [hval]
    exact ⟨(boundOf_given hne _).symm, fun _ => by simpa using hin⟩

theorem checkIpv6Subnet_iff {len : Nat} (hlen : len ≤ 128) {ip : IP6} :
    checkIpv6Subnet ip ⟨mask6 len⟩ = true ↔ 2 ^ (128 - len) ∣ ip.val.toNat := by
  rw [checkIpv6Subnet, beq_iff_eq, mask6_eq hlen, and_mask_eq_self_iff]

theorem checkIpv6Boundary_cases {c : Config} (hlen : c.ipv6SubnetLen ≤ 128) (min max : IP6) :
    (∃ e, checkIpv6Boundary c min max = some (c, .error e)) ∨
    (2 ^ (128 - c.ipv6SubnetLen) ∣ min.val.toNat ∧ 2 ^ (128 - c.ipv6SubnetLen) ∣ max.val.toNat ∧
      checkIpv6Boundary c min max = some (c, .ok ())) := by
  rw [checkIpv6Boundary, mask6Checked_eq, Option.bind_eq_bind, Option.bind_some]
  split_ifs with hmin hmax
  · exact .inl ⟨_, rfl⟩
  · exact .inl ⟨_, rfl⟩
  · rw [Bool.not_eq_true', Bool.not_eq_false, checkIpv6Subnet_iff hlen] at hmin hmax
    exact .inr ⟨hmin, hmax, rfl⟩

/-- A network whose host bits are cleared. -/
theorem IP6Net.masked_ip {n : IP6Net} (hn : n.network = n) (hp : n.prefixLen ≤ 128) :
    n.ip.val &&& PrefixMask.mask 128 n.prefixLen = n.ip.val := by
  rw [← IP6Net.network_ip hp, hn]

/-- **The IPv6 half fails, or it leaves a valid range**, and it never shifts too far. -/
theorem checkIpv6_cases {c : Config} (hc : c.ipv6Network.network = c.ipv6Network)
    (hp : c.ipv6Network.prefixLen ≤ 128) :
    (∃ c' e, checkIpv6 c = some (c', .error e)) ∨
    ∃ len min max, c.ipv6Network.empty = false ∧
      ValidRange 128 126 c.ipv6Network.prefixLen len c.ipv6Network.ip.val
        (givenIpv6 c.ipv6SubnetMin) (givenIpv6 c.ipv6SubnetMax) min.val max.val ∧
      checkIpv6 c =
        some ({ c with
          ipv6SubnetLen := len, ipv6SubnetMin := some min, ipv6SubnetMax := some max },
          .ok ()) := by
  unfold checkIpv6
  by_cases hempty : c.ipv6Network.empty = true
  · rw [if_pos hempty]
    exact .inl ⟨_, _, rfl⟩
  rw [if_neg hempty]
  cases hlen : subnetLenOf ipv6Limits c.ipv6SubnetLen c.ipv6Network.prefixLen with
  | error e => exact .inl ⟨_, _, rfl⟩
  | ok len =>
    obtain ⟨hge, hle⟩ := subnetLenOf_ok ipv6Limits_sound hlen
    have hle126 : len ≤ 126 := hle
    simp only [Checked.sub_of_le (show len ≤ 128 by omega),
      Checked.shl_of_lt (show 128 - len < 128 by omega), Option.bind_eq_bind, Option.bind_some]
    cases hmin : ipv6SubnetMinOf c.ipv6Network c.ipv6SubnetMin (1#128 <<< (128 - len)) with
    | error e => exact .inl ⟨_, _, rfl⟩
    | ok min =>
      obtain ⟨result, hresult, hmax⟩ :=
        ipv6SubnetMaxOf_some hp c.ipv6SubnetMax (1#128 <<< (128 - len))
      simp only [hresult, Option.bind_some]
      cases result with
      | error e => exact .inl ⟨_, _, rfl⟩
      | ok max =>
        obtain ⟨hminEq, hminIn⟩ := ipv6SubnetMinOf_ok hmin
        obtain ⟨hmaxEq, hmaxIn⟩ := hmax max rfl
        rcases checkIpv6Boundary_cases
          (c := { c with
            ipv6SubnetLen := len, ipv6SubnetMin := some min, ipv6SubnetMax := some max })
          (show len ≤ 128 by omega) min max with ⟨e, herror⟩ | ⟨hminDvd, hmaxDvd, hok⟩
        · exact .inl ⟨_, e, herror⟩
        · refine .inr ⟨len, min, max, by simpa using hempty, ?_, hok⟩
          exact validRange_of_bounds (IP6Net.masked_ip hc hp) hge hle126 (by omega) hminEq hmaxEq
            (fun h => (IP6Net.mem_addresses_iff hp).mp (hminIn h))
            (fun h => (IP6Net.mem_addresses_iff hp).mp (hmaxIn h)) hminDvd hmaxDvd

/-- A configuration with a valid range passes the IPv6 half as it is. -/
theorem checkIpv6_of_valid {c : Config} (hp : c.ipv6Network.prefixLen ≤ 128) {min max : IP6}
    (hminSome : c.ipv6SubnetMin = some min) (hmaxSome : c.ipv6SubnetMax = some max)
    (hempty : c.ipv6Network.empty = false) {givenMin givenMax : BitVec 128}
    (hvalid : ValidRange 128 126 c.ipv6Network.prefixLen c.ipv6SubnetLen c.ipv6Network.ip.val
      givenMin givenMax min.val max.val) :
    checkIpv6 c = some (c, .ok ()) := by
  have hge := hvalid.len_ge
  have hle := hvalid.len_le
  have hlen :
      subnetLenOf ipv6Limits c.ipv6SubnetLen c.ipv6Network.prefixLen = .ok c.ipv6SubnetLen :=
    subnetLenOf_self hge hle
  have hfilter {ip : IP6} (hne : ip.val ≠ 0#128) :
      (some ip).filter (fun ip => !ip.isEmpty) = some ip := by
    simp [IP6.isEmpty, hne]
  have hmin (size : BitVec 128) : ipv6SubnetMinOf c.ipv6Network (some min) size = .ok min := by
    have hin : c.ipv6Network.contains min = true :=
      (IP6Net.mem_addresses_iff hp).mpr hvalid.min_mem
    rw [ipv6SubnetMinOf, hfilter hvalid.min_ne_zero]
    simp only [hin, Bool.not_true, Bool.false_eq_true, if_false]
  have hmax (size : BitVec 128) :
      ipv6SubnetMaxOf c.ipv6Network (some max) size = some (.ok max) := by
    have hin : c.ipv6Network.contains max = true :=
      (IP6Net.mem_addresses_iff hp).mpr hvalid.max_mem
    rw [ipv6SubnetMaxOf, hfilter (hvalid.max_ne_zero (by omega))]
    simp only [hin, Bool.not_true, Bool.false_eq_true, if_false]
  have hboundary : checkIpv6Boundary c min max = some (c, .ok ()) := by
    have hmin := (checkIpv6Subnet_iff (show c.ipv6SubnetLen ≤ 128 by omega)).mpr hvalid.min_dvd
    have hmax := (checkIpv6Subnet_iff (show c.ipv6SubnetLen ≤ 128 by omega)).mpr hvalid.max_dvd
    rw [checkIpv6Boundary, mask6Checked_eq, Option.bind_eq_bind, Option.bind_some, hmin, hmax]
    rfl
  rw [checkIpv6, hempty, hlen]
  simp only [Checked.sub_of_le (show c.ipv6SubnetLen ≤ 128 by omega),
    Checked.shl_of_lt (show 128 - c.ipv6SubnetLen < 128 by omega), Option.bind_eq_bind,
    Option.bind_some, hminSome, hmaxSome, hmin, hmax, Bool.false_eq_true, if_false]
  rw [← hminSome, ← hmaxSome]
  exact hboundary

/-! ## Both halves -/

/-- A configuration as it is parsed: the networks have no host bits, and their prefix lengths fit
the family. -/
structure Config.Masked (c : Config) : Prop where
  network : c.network.network = c.network
  prefixLen : c.network.prefixLen ≤ 32
  ipv6Network : c.ipv6Network.network = c.ipv6Network
  ipv6PrefixLen : c.ipv6Network.prefixLen ≤ 128

/-- What a check that passes does to a configuration: each enabled family gets a valid range with
both bounds in its network, and everything else stays. -/
structure Config.Checked (c c' : Config) : Prop where
  rest : c' = { c with
    subnetLen := c'.subnetLen
    subnetMin := c'.subnetMin
    subnetMax := c'.subnetMax
    ipv6SubnetLen := c'.ipv6SubnetLen
    ipv6SubnetMin := c'.ipv6SubnetMin
    ipv6SubnetMax := c'.ipv6SubnetMax }
  ipv4 : c.enableIpv4 = true → c.network.empty = false ∧
    c.network.contains c'.subnetMin = true ∧ c.network.contains c'.subnetMax = true ∧
    ValidRange 32 30 c.network.prefixLen c'.subnetLen c.network.ip.val c.subnetMin.val
      c.subnetMax.val c'.subnetMin.val c'.subnetMax.val
  ipv6 : c.enableIpv6 = true → c.ipv6Network.empty = false ∧
    ∃ min max, c'.ipv6SubnetMin = some min ∧ c'.ipv6SubnetMax = some max ∧
      c.ipv6Network.contains min = true ∧ c.ipv6Network.contains max = true ∧
      ValidRange 128 126 c.ipv6Network.prefixLen c'.ipv6SubnetLen c.ipv6Network.ip.val
        (givenIpv6 c.ipv6SubnetMin) (givenIpv6 c.ipv6SubnetMax) min.val max.val
  ipv4_disabled : c.enableIpv4 = false →
    c'.subnetLen = c.subnetLen ∧ c'.subnetMin = c.subnetMin ∧ c'.subnetMax = c.subnetMax
  ipv6_disabled : c.enableIpv6 = false → c'.ipv6SubnetLen = c.ipv6SubnetLen ∧
    c'.ipv6SubnetMin = c.ipv6SubnetMin ∧ c'.ipv6SubnetMax = c.ipv6SubnetMax

/-- The first half, if IPv4 is enabled. -/
theorem ipv4Half_cases {c : Config} (hc : c.Masked) :
    (∃ c' e, (if c.enableIpv4 then checkIpv4 c else some (c, .ok ())) = some (c', .error e)) ∨
    ∃ len min max, (if c.enableIpv4 then checkIpv4 c else some (c, .ok ())) =
        some ({ c with subnetLen := len, subnetMin := min, subnetMax := max }, .ok ()) ∧
      (c.enableIpv4 = true → c.network.empty = false ∧
        ValidRange 32 30 c.network.prefixLen len c.network.ip.val c.subnetMin.val
          c.subnetMax.val min.val max.val) ∧
      (c.enableIpv4 = false → len = c.subnetLen ∧ min = c.subnetMin ∧ max = c.subnetMax) := by
  by_cases henable : c.enableIpv4 = true
  · rw [if_pos henable]
    rcases checkIpv4_cases hc.network hc.prefixLen with
      herror | ⟨len, min, max, hempty, hvalid, hok⟩
    · exact .inl herror
    · refine .inr ⟨len, min, max, hok, fun _ => ⟨hempty, hvalid⟩, fun h => ?_⟩
      rw [henable] at h
      cases h
  · rw [if_neg henable]
    exact .inr ⟨_, _, _, rfl, fun h => absurd h henable, fun _ => ⟨rfl, rfl, rfl⟩⟩

/-- The second half, if IPv6 is enabled. -/
theorem ipv6Half_cases {c : Config} (hc : c.Masked) :
    (∃ c' e, (if c.enableIpv6 then checkIpv6 c else some (c, .ok ())) = some (c', .error e)) ∨
    ∃ len min? max?, (if c.enableIpv6 then checkIpv6 c else some (c, .ok ())) =
        some ({ c with
          ipv6SubnetLen := len, ipv6SubnetMin := min?, ipv6SubnetMax := max? }, .ok ()) ∧
      (c.enableIpv6 = true → c.ipv6Network.empty = false ∧
        ∃ min max, min? = some min ∧ max? = some max ∧
          ValidRange 128 126 c.ipv6Network.prefixLen len c.ipv6Network.ip.val
            (givenIpv6 c.ipv6SubnetMin) (givenIpv6 c.ipv6SubnetMax) min.val max.val) ∧
      (c.enableIpv6 = false →
        len = c.ipv6SubnetLen ∧ min? = c.ipv6SubnetMin ∧ max? = c.ipv6SubnetMax) := by
  by_cases henable : c.enableIpv6 = true
  · rw [if_pos henable]
    rcases checkIpv6_cases hc.ipv6Network hc.ipv6PrefixLen with
      herror | ⟨len, min, max, hempty, hvalid, hok⟩
    · exact .inl herror
    · refine .inr ⟨len, _, _, hok, fun _ => ⟨hempty, min, max, rfl, rfl, hvalid⟩, fun h => ?_⟩
      rw [henable] at h
      cases h
  · rw [if_neg henable]
    exact .inr ⟨_, _, _, rfl, fun h => absurd h henable, fun _ => ⟨rfl, rfl, rfl⟩⟩

/-- **The check fails, or it leaves a checked configuration**, and it never shifts too far. -/
theorem checkNetworkConfig_cases {c : Config} (hc : c.Masked) :
    (∃ c' e, checkNetworkConfig c = some (c', .error e)) ∨
    ∃ c', checkNetworkConfig c = some (c', .ok ()) ∧ c.Checked c' := by
  unfold checkNetworkConfig
  rcases ipv4Half_cases hc with ⟨c₁, e, h₁⟩ | ⟨len, min, max, h₁, hipv4, hkept⟩
  · rw [h₁]
    exact .inl ⟨c₁, e, rfl⟩
  rw [h₁]
  have hc₁ : Config.Masked { c with subnetLen := len, subnetMin := min, subnetMax := max } :=
    ⟨hc.network, hc.prefixLen, hc.ipv6Network, hc.ipv6PrefixLen⟩
  rcases ipv6Half_cases hc₁ with ⟨c₂, e, h₂⟩ | ⟨len₆, min?, max?, h₂, hipv6, hkept₆⟩
  · exact .inl ⟨c₂, e, h₂⟩
  refine .inr ⟨_, h₂, rfl, fun henable => ?_, fun henable => ?_, hkept, hkept₆⟩
  · obtain ⟨hempty, hvalid⟩ := hipv4 henable
    exact ⟨hempty, (IP4Net.mem_addresses_iff hc.prefixLen).mpr hvalid.min_mem,
      (IP4Net.mem_addresses_iff hc.prefixLen).mpr hvalid.max_mem, hvalid⟩
  · obtain ⟨hempty, min₆, max₆, hmin, hmax, hvalid⟩ := hipv6 henable
    exact ⟨hempty, min₆, max₆, hmin, hmax,
      (IP6Net.mem_addresses_iff hc.ipv6PrefixLen).mpr hvalid.min_mem,
      (IP6Net.mem_addresses_iff hc.ipv6PrefixLen).mpr hvalid.max_mem, hvalid⟩

theorem checked_of_ok {c c' : Config} (hc : c.Masked)
    (h : checkNetworkConfig c = some (c', .ok ())) : c.Checked c' := by
  rcases checkNetworkConfig_cases hc with ⟨c₁, e, herror⟩ | ⟨c₁, hok, hchecked⟩
  · rw [herror] at h
    cases h
  · rw [hok] at h
    cases h
    exact hchecked

/-- A checked configuration passes again, as it is. -/
theorem Config.Checked.again {c c' : Config} (hc : c.Masked) (h : c.Checked c') :
    checkNetworkConfig c' = some (c', .ok ()) := by
  have hflag4 : c'.enableIpv4 = c.enableIpv4 := by rw [h.rest]
  have hflag6 : c'.enableIpv6 = c.enableIpv6 := by rw [h.rest]
  have hnet4 : c'.network = c.network := by rw [h.rest]
  have hnet6 : c'.ipv6Network = c.ipv6Network := by rw [h.rest]
  have hhalf4 : (if c'.enableIpv4 then checkIpv4 c' else some (c', .ok ())) =
      some (c', .ok ()) := by
    split_ifs with henable
    · obtain ⟨hempty, -, -, hvalid⟩ := h.ipv4 (hflag4 ▸ henable)
      rw [← hnet4] at hempty hvalid
      exact checkIpv4_of_valid (hnet4 ▸ hc.prefixLen) hempty hvalid
    · rfl
  have hhalf6 : (if c'.enableIpv6 then checkIpv6 c' else some (c', .ok ())) =
      some (c', .ok ()) := by
    split_ifs with henable
    · obtain ⟨hempty, min, max, hmin, hmax, -, -, hvalid⟩ := h.ipv6 (hflag6 ▸ henable)
      rw [← hnet6] at hempty hvalid
      exact checkIpv6_of_valid (hnet6 ▸ hc.ipv6PrefixLen) hmin hmax hempty hvalid
    · rfl
  rw [checkNetworkConfig, hhalf4]
  exact hhalf6

/-! ## The guarantees -/

/-- **What `check_network_config` guarantees**: no shift in it is out of range, what it passes is
checked, and it passes that again without a change. -/
theorem checkNetworkConfig_guarantees {c : Config} (hc : c.Masked) :
    (∃ result, checkNetworkConfig c = some result) ∧
    (∀ bits, maskChecked bits = some ⟨maskValue bits⟩ ∧ mask6Checked bits = some ⟨mask6 bits⟩) ∧
    ∀ c', checkNetworkConfig c = some (c', .ok ()) →
      c.Checked c' ∧ checkNetworkConfig c' = some (c', .ok ()) := by
  refine ⟨?_, fun bits => ⟨maskChecked_eq bits, mask6Checked_eq bits⟩, fun c' h => ?_⟩
  · rcases checkNetworkConfig_cases hc with ⟨c', e, h⟩ | ⟨c', h, -⟩
    · exact ⟨_, h⟩
    · exact ⟨_, h⟩
  · have hchecked := checked_of_ok hc h
    exact ⟨hchecked, hchecked.again hc⟩

/-- Networks at the end of the address space, with no bound given but `IPv6SubnetMin`. -/
def topConfig : Config where
  enableIpv4 := true
  enableIpv6 := true
  network := ⟨⟨0xf0000000#32⟩, 4⟩
  ipv6Network := ⟨⟨0xffff0000000000000000000000000000#128⟩, 16⟩
  ipv6SubnetMin := some ⟨0xffff0000000000050000000000000000#128⟩

theorem topConfig_masked : topConfig.Masked :=
  ⟨by decide, by decide, by decide, by decide⟩

theorem checkNetworkConfig_guarantees_top :
    ∃ c', checkNetworkConfig topConfig = some (c', .ok ()) ∧ topConfig.Checked c' ∧
      c'.subnetMax = ⟨0xffffff00#32⟩ := by
  have h := (checkNetworkConfig_guarantees topConfig_masked).2.2
  exact ⟨_, rfl, (h _ rfl).1, rfl⟩

/-- **When the range of a checked configuration is not empty**: if the upper bound was not given;
or only the upper one was, and it is not the first subnet; or both were, in the right order. -/
theorem checked_range_nonempty_iff {c c' : Config} (hc : c.Masked)
    (h : checkNetworkConfig c = some (c', .ok ())) :
    (c.enableIpv4 = true → (c'.subnetMin ≤ c'.subnetMax ↔
      c.subnetMax.val = 0#32 ∨ (c.subnetMin.val = 0#32 ∧ c.subnetMax.val ≠ c.network.ip.val) ∨
        (c.subnetMin.val ≠ 0#32 ∧ c.subnetMin ≤ c.subnetMax))) ∧
    (c.enableIpv6 = true → ∃ min max, c'.ipv6SubnetMin = some min ∧ c'.ipv6SubnetMax = some max ∧
      (min ≤ max ↔ givenIpv6 c.ipv6SubnetMax = 0#128 ∨
        (givenIpv6 c.ipv6SubnetMin = 0#128 ∧
          givenIpv6 c.ipv6SubnetMax ≠ c.ipv6Network.ip.val) ∨
        (givenIpv6 c.ipv6SubnetMin ≠ 0#128 ∧
          givenIpv6 c.ipv6SubnetMin ≤ givenIpv6 c.ipv6SubnetMax))) := by
  have hchecked := checked_of_ok hc h
  constructor
  · intro henable
    obtain ⟨-, -, -, hvalid⟩ := hchecked.ipv4 henable
    exact hvalid.min_le_max_iff (IP4Net.masked_ip hc.network hc.prefixLen)
  · intro henable
    obtain ⟨-, min, max, hmin, hmax, -, -, hvalid⟩ := hchecked.ipv6 henable
    exact ⟨min, max, hmin, hmax,
      hvalid.min_le_max_iff (IP6Net.masked_ip hc.ipv6Network hc.ipv6PrefixLen)⟩

theorem checked_range_nonempty_top :
    ∃ c', checkNetworkConfig topConfig = some (c', .ok ()) ∧ c'.subnetMin ≤ c'.subnetMax :=
  ⟨_, rfl, ((checked_range_nonempty_iff topConfig_masked rfl).1 rfl).mpr (.inl rfl)⟩

/-- Both bounds of an IPv4 network, the wrong way around. -/
def swappedBounds : Config where
  enableIpv4 := true
  network := ⟨⟨0x0a030000#32⟩, 16⟩
  subnetMin := ⟨0x0a030800#32⟩
  subnetMax := ⟨0x0a030500#32⟩

theorem swapped_bounds_pass :
    swappedBounds.Masked ∧ ∃ c', checkNetworkConfig swappedBounds = some (c', .ok ()) ∧
      ¬ c'.subnetMin ≤ c'.subnetMax :=
  ⟨⟨by decide, by decide, by decide, by decide⟩, _, rfl, by decide⟩

end Flannel
