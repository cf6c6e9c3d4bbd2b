import Flannel.Ip.Display
import Flannel.Subnet.File

/-!
# What is written to the subnet file is read back

The file is a list of keys and values, one pair on a line (`filePairs`).  None of the
values has white space, a comma or an equals sign, so both readers see the pairs as they
were written, and from then on only the values matter.

A masked subnet with at least two addresses ends in a zero bit.  So incrementing its
address sets this one bit, cannot overflow, and is undone by the mask.
-/

namespace Flannel

open StdAddr

/-! ## Incrementing a masked address -/

section Increment

variable {w : Nat} {v m : BitVec w}

/-- The mask leaves out the last bit. -/
theorem and_one_of_masked (hm : m &&& 1#w = 0#w) (hv : v &&& m = v) : v &&& 1#w = 0#w := by
  rw [← hv, BitVec.and_assoc, hm, BitVec.and_zero]

/-- The mask undoes the increment. -/
theorem add_one_and_mask (hm : m &&& 1#w = 0#w) (hv : v &&& m = v) : (v + 1#w) &&& m = v := by
  rw [BitVec.add_eq_or_of_and_eq_zero v 1#w (and_one_of_masked hm hv), BitVec.and_comm,
    BitVec.and_or_distrib_left, BitVec.and_comm m v, hv, hm, BitVec.or_zero]

/-- The increment does not overflow. -/
theorem ne_allOnes_of_masked (hw : 0 < w) (hm : m &&& 1#w = 0#w) (hv : v &&& m = v) :
    v ≠ BitVec.allOnes w := by
  rintro rfl
  have hone := and_one_of_masked hm hv
  rw [BitVec.allOnes_and, BitVec.one_eq_zero_iff] at hone
  omega

end Increment

theorem maskValue_and_one {len : Nat} (hlen : len ≤ 31) : maskValue len &&& 1#32 = 0#32 := by
  have hall : ∀ len : Fin 32, maskValue len &&& 1#32 = 0#32 := by decide
  exact hall ⟨len, by omega⟩

theorem mask6_and_one {len : Nat} (hlen : len ≤ 127) : mask6 len &&& 1#128 = 0#128 := by
  have hall : ∀ len : Fin 128, mask6 len &&& 1#128 = 0#128 := by decide
  exact hall ⟨len, by omega⟩

theorem IP4Net.incrementIp_masked {n : IP4Net} (hlen : n.prefixLen ≤ 31) (hn : n.network = n) :
    ∃ first, n.incrementIp = some first ∧ first.prefixLen = n.prefixLen ∧ first.network = n := by
  have hv : n.ip.val &&& maskValue n.prefixLen = n.ip.val :=
    congrArg (fun m : IP4Net => m.ip.val) hn
  have hm := maskValue_and_one hlen
  refine ⟨⟨⟨n.ip.val + 1⟩, n.prefixLen⟩, if_neg (ne_allOnes_of_masked (by omega) hm hv), rfl, ?_⟩
  have hmask : (n.ip.val + 1) &&& maskValue n.prefixLen = n.ip.val := add_one_and_mask hm hv
  rw [IP4Net.network, IP4Net.mask, hmask]

theorem IP6Net.incrementIp_masked {n : IP6Net} (hlen : n.prefixLen ≤ 127) (hn : n.network = n) :
    n.ip.val ≠ BitVec.allOnes 128 ∧ n.incrementIp.prefixLen = n.prefixLen ∧
      n.incrementIp.network = n := by
  have hv : n.ip.val &&& mask6 n.prefixLen = n.ip.val :=
    congrArg (fun m : IP6Net => m.ip.val) hn
  have hm := mask6_and_one hlen
  refine ⟨ne_allOnes_of_masked (by omega) hm hv, rfl, ?_⟩
  have hmask : (n.ip.val + 1) &&& mask6 n.prefixLen = n.ip.val := add_one_and_mask hm hv
  rw [IP6Net.incrementIp, IP6Net.network, IP6Net.mask, hmask]

/-! ## Characters -/

theorem toNat_of_isAddrChar {c : Char} (hc : isAddrChar c = true) :
    46 ≤ c.toNat ∧ c.toNat ≤ 122 := by
  have hrange : ∀ a b : Char, 46 ≤ a.toNat ∧ b.toNat ≤ 122 → a ≤ c ∧ c ≤ b →
      46 ≤ c.toNat ∧ c.toNat ≤ 122 := by
    intro a b hbounds hab
    exact ⟨Nat.le_trans hbounds.1 hab.1, Nat.le_trans hab.2 hbounds.2⟩
  simp only [isAddrChar, Bool.or_eq_true, beq_iff_eq] at hc
  rcases hc with (hdigit | rfl) | rfl
  · obtain ⟨v, hv⟩ := Option.isSome_iff_exists.mp hdigit
    unfold toDigit at hv
    rw [Option.filter_eq_some_iff] at hv
    obtain ⟨hval, -⟩ := hv
    split at hval
    · rename_i h
      exact hrange _ _ (by decide) h
    · split at hval
      · rename_i h
        exact hrange _ _ (by decide) h
      · split at hval
        · rename_i h
          exact hrange _ _ (by decide) h
        · cases hval
  · decide
  · decide

/-- A character that neither reader takes for anything but itself. -/
def isPlain (c : Char) : Bool := !Text.isWhitespace c && c != '=' && c != '#' && c != ','

theorem isPlain_of_toNat {c : Char} (h : 46 ≤ c.toNat ∧ c.toNat ≤ 122) (heq : c ≠ '=') :
    isPlain c = true := by
  have hwhite : Text.isWhitespace c = false := by
    simp only [Text.isWhitespace, Bool.or_eq_false_iff, Bool.and_eq_false_iff,
      decide_eq_false_iff_not, beq_eq_false_iff_ne]
    omega
  have hne : ∀ d : Char, d.toNat < 46 → c ≠ d := by
    rintro d hd rfl
    omega
  simp [isPlain, hwhite, heq, hne '#' (by decide), hne ',' (by decide)]

theorem isPlain_of_isAddrChar {c : Char} (hc : isAddrChar c = true ∨ c = '/') :
    isPlain c = true := by
  rcases hc with hc | rfl
  · refine isPlain_of_toNat (toNat_of_isAddrChar hc) ?_
    rintro rfl
    exact absurd hc (by decide)
  · decide

/-- A text that neither reader trims or splits. -/
def IsPlain (s : String) : Prop := ∀ c ∈ s.toList, isPlain c = true

theorem isPlain_ip4net (n : IP4Net) : IsPlain n.toString :=
  fun _ hc => isPlain_of_isAddrChar (IP4Net.mem_toString hc)

theorem isPlain_ip6net (n : IP6Net) : IsPlain n.toString :=
  fun _ hc => isPlain_of_isAddrChar (IP6Net.mem_toString hc)

theorem isPlain_repr (n : Nat) : IsPlain n.repr := by
  intro c hc
  rw [Nat.toList_repr] at hc
  exact isPlain_of_isAddrChar (Or.inl (isAddrChar_toDigits (by omega) (by omega) hc))

section Plain

variable {s : String}

theorem IsPlain.trim_eq (h : IsPlain s) : Text.trim s = s := by
  refine Text.trim_eq fun c hc => ?_
  have hplain := h c hc
  simp only [isPlain, Bool.and_eq_true, Bool.not_eq_true'] at hplain
  exact hplain.1.1.1

theorem IsPlain.notMem (h : IsPlain s) {c : Char} (hc : isPlain c = false) : c ∉ s.toList := by
  intro hmem
  rw [h c hmem] at hc
  cases hc

end Plain

/-! ## Pairs -/

/-- The line of a key and a value. -/
def pairLine (p : String × String) : String := p.1 ++ String.ofList ('=' :: p.2.toList)

/-- A pair that both readers see as it was written. -/
structure PlainPair (p : String × String) : Prop where
  key_ne : p.1 ≠ ""
  key : IsPlain p.1
  value : IsPlain p.2

section Pairs

variable {p : String × String} {ps : List (String × String)} {content : String}

theorem PlainPair.mem_pairLine (h : PlainPair p) {c : Char} (hc : c ∈ (pairLine p).toList) :
    isPlain c = true ∨ c = '=' := by
  rw [pairLine, String.toList_append, String.toList_ofList, List.mem_append, List.mem_cons] at hc
  rcases hc with hc | hc | hc
  · exact Or.inl (h.key c hc)
  · exact Or.inr hc
  · exact Or.inl (h.value c hc)

theorem PlainPair.trim_pairLine (h : PlainPair p) : Text.trim (pairLine p) = pairLine p := by
  refine Text.trim_eq fun c hc => ?_
  rcases h.mem_pairLine hc with hplain | rfl
  · simp only [isPlain, Bool.and_eq_true, Bool.not_eq_true'] at hplain
    exact hplain.1.1.1
  · decide

theorem PlainPair.splitOnce_pairLine (h : PlainPair p) :
    splitOnce '=' (pairLine p) = some (p.1, p.2) :=
  splitOnce_append (h.key.notMem (by decide))

theorem pairLine_ne_empty (p : String × String) : pairLine p ≠ "" := by
  intro h
  have hlist := congrArg String.toList h
  rw [pairLine, String.toList_append, String.toList_ofList] at hlist
  simp at hlist

/-- The plugin's reader on such a line. -/
theorem PlainPair.parseLine_eq (h : PlainPair p) (env : Cni.FlannelSubnetEnv) :
    Cni.parseLine env (pairLine p) = Cni.assign env p.1 p.2 := by
  rw [Cni.parseLine, h.trim_pairLine, if_neg (pairLine_ne_empty p), h.splitOnce_pairLine]
  dsimp only
  rw [h.value.trim_eq]

/-- The daemon's reader on such a line. -/
theorem PlainPair.readEnvLine_eq (h : PlainPair p) (values : String → Option String) :
    readEnvLine values (pairLine p) = Function.update values p.1 (some p.2) := by
  have hcomment : ¬ (pairLine p = "" ∨ (pairLine p).toList.head? = some '#') := by
    rintro (hempty | hhash)
    · exact pairLine_ne_empty p hempty
    · rcases h.mem_pairLine (List.mem_of_mem_head? hhash) with hplain | heq
      · exact absurd hplain (by decide)
      · exact absurd heq (by decide)
  rw [readEnvLine, h.trim_pairLine, if_neg hcomment, h.splitOnce_pairLine]
  dsimp only
  rw [h.key.trim_eq, if_neg h.key_ne, h.value.trim_eq]

theorem lines_pairs (hps : ∀ p ∈ ps, PlainPair p)
    (hcontent : content.toList = Text.written (ps.map pairLine)) :
    Text.lines content = ps.map pairLine := by
  refine Text.lines_of_written hcontent ?_
  rw [List.forall_mem_map]
  intro p hp
  constructor
  · intro hc
    rcases (hps p hp).mem_pairLine hc with hplain | heq
    · exact absurd hplain (by decide)
    · exact absurd heq (by decide)
  · intro hc
    rcases (hps p hp).mem_pairLine hc with hplain | heq
    · exact absurd hplain (by decide)
    · exact absurd heq (by decide)

/-- **The plugin reads the pairs.** -/
theorem parseSubnetEnv_pairs (hps : ∀ p ∈ ps, PlainPair p)
    (hcontent : content.toList = Text.written (ps.map pairLine)) :
    Cni.parseSubnetEnv content = ps.foldlM (fun env p => Cni.assign env p.1 p.2) {} := by
  rw [Cni.parseSubnetEnv, lines_pairs hps hcontent]
  clear hcontent
  generalize ({} : Cni.FlannelSubnetEnv) = env
  induction ps generalizing env with
  | nil => rfl
  | cons p ps ih =>
    rw [List.map_cons, List.foldlM_cons, List.foldlM_cons,
      (hps p List.mem_cons_self).parseLine_eq]
    exact bind_congr fun env' => ih (fun q hq => hps q (List.mem_cons_of_mem _ hq)) env'

/-- **The daemon reads the pairs.** -/
theorem readEnvFile_pairs (hps : ∀ p ∈ ps, PlainPair p)
    (hcontent : content.toList = Text.written (ps.map pairLine)) :
    readEnvFile content =
      ps.foldl (fun (values : String → Option String) p =>
        Function.update values p.1 (some p.2)) fun _ => none := by
  rw [readEnvFile, lines_pairs hps hcontent, List.foldl_map]
  refine List.foldl_ext _ _ _ fun values p hp => ?_
  exact (hps p hp).readEnvLine_eq values

end Pairs

/-! ## The pairs of the file -/

/-- What the writer puts into the file. -/
def filePairs (config : Config) (ipMasq : Bool) (first : IP4Net) (first6 : IP6Net) (mtu : UInt32) :
    List (String × String) :=
  (if config.enableIpv4 then
    [("FLANNEL_NETWORK", config.network.toString), ("FLANNEL_SUBNET", first.toString)] else []) ++
  (if config.enableIpv6 then
    [("FLANNEL_IPV6_NETWORK", config.ipv6Network.toString),
      ("FLANNEL_IPV6_SUBNET", first6.toString)] else []) ++
  [("FLANNEL_MTU", mtu.toNat.repr), ("FLANNEL_IPMASQ", if ipMasq then "true" else "false")]

section Writer

variable {config : Config} {ipMasq : Bool} {sn first : IP4Net} {ipv6sn first6 : IP6Net}
  {mtu : UInt32}

theorem plainPair_of_mem {p : String × String}
    (hp : p ∈ filePairs config ipMasq first first6 mtu) : PlainPair p := by
  have hkey : ∀ key : String, (key ≠ "" ∧ key.toList.all isPlain = true) → ∀ value, IsPlain value →
      PlainPair (key, value) :=
    fun key hkey value hvalue => ⟨hkey.1, List.all_eq_true.mp hkey.2, hvalue⟩
  simp only [filePairs, List.mem_append] at hp
  rcases hp with (hp | hp) | hp
  · split at hp
    · simp only [List.mem_cons, List.not_mem_nil, or_false] at hp
      rcases hp with rfl | rfl
      · exact hkey _ (by decide) _ (isPlain_ip4net _)
      · exact hkey _ (by decide) _ (isPlain_ip4net _)
    · cases hp
  · split at hp
    · simp only [List.mem_cons, List.not_mem_nil, or_false] at hp
      rcases hp with rfl | rfl
      · exact hkey _ (by decide) _ (isPlain_ip6net _)
      · exact hkey _ (by decide) _ (isPlain_ip6net _)
    · cases hp
  · simp only [List.mem_cons, List.not_mem_nil, or_false] at hp
    rcases hp with rfl | rfl
    · exact hkey _ (by decide) _ (isPlain_repr _)
    · refine hkey _ (by decide) _ ?_
      cases ipMasq with
      | true => exact List.all_eq_true.mp (by decide)
      | false => exact List.all_eq_true.mp (by decide)

/-- The text of the file. -/
theorem writeSubnetFile_eq (ipMasq : Bool) (ipv6sn : IP6Net) (mtu : UInt32)
    (hfirst : config.enableIpv4 = true → sn.incrementIp = some first) :
    ∃ content, writeSubnetFile config ipMasq sn ipv6sn mtu = some content ∧
      content.toList =
        Text.written ((filePairs config ipMasq first ipv6sn.incrementIp mtu).map pairLine) := by
  have htext : ∀ s : String, toString s = s := fun _ => rfl
  cases h4 : config.enableIpv4 with
  | false =>
    cases h6 : config.enableIpv6 with
    | false => simp [writeSubnetFile, filePairs, Text.written, pairLine, htext, h4, h6]
    | true => simp [writeSubnetFile, filePairs, Text.written, pairLine, htext, h4, h6]
  | true =>
    have hsn := hfirst h4
    cases h6 : config.enableIpv6 with
    | false => simp [writeSubnetFile, filePairs, Text.written, pairLine, htext, h4, h6, hsn]
    | true => simp [writeSubnetFile, filePairs, Text.written, pairLine, htext, h4, h6, hsn]

/-! ## The plugin -/

theorem assign_network (env : Cni.FlannelSubnetEnv) {n : IP4Net} (hn : n.prefixLen ≤ 32) :
    Cni.assign env "FLANNEL_NETWORK" n.toString = .ok { env with network := some n.network } := by
  have htrim : Text.trim "FLANNEL_NETWORK" = "FLANNEL_NETWORK" := by decide
  simp only [Cni.assign, htrim, Cni.parseV4Net, IP4Net.fromStr_toString hn]
  rfl

theorem assign_subnet (env : Cni.FlannelSubnetEnv) {n : IP4Net} (hn : n.prefixLen ≤ 32) :
    Cni.assign env "FLANNEL_SUBNET" n.toString = .ok { env with subnet := some n.network } := by
  have htrim : Text.trim "FLANNEL_SUBNET" = "FLANNEL_SUBNET" := by decide
  simp only [Cni.assign, htrim, Cni.parseV4Net, IP4Net.fromStr_toString hn]
  rfl

theorem assign_ipv6Network (env : Cni.FlannelSubnetEnv) {n : IP6Net} (hn : n.prefixLen ≤ 128) :
    Cni.assign env "FLANNEL_IPV6_NETWORK" n.toString =
      .ok { env with ipv6Network := some n.network } := by
  have htrim : Text.trim "FLANNEL_IPV6_NETWORK" = "FLANNEL_IPV6_NETWORK" := by decide
  simp only [Cni.assign, htrim, Cni.parseV6Net, IP6Net.fromStr_toString hn]
  rfl

theorem assign_ipv6Subnet (env : Cni.FlannelSubnetEnv) {n : IP6Net} (hn : n.prefixLen ≤ 128) :
    Cni.assign env "FLANNEL_IPV6_SUBNET" n.toString =
      .ok { env with ipv6Subnet := some n.network } := by
  have htrim : Text.trim "FLANNEL_IPV6_SUBNET" = "FLANNEL_IPV6_SUBNET" := by decide
  simp only [Cni.assign, htrim, Cni.parseV6Net, IP6Net.fromStr_toString hn]
  rfl

theorem assign_mtu (env : Cni.FlannelSubnetEnv) (mtu : UInt32) :
    Cni.assign env "FLANNEL_MTU" mtu.toNat.repr = .ok { env with mtu := some mtu.toNat } := by
  have htrim : Text.trim "FLANNEL_MTU" = "FLANNEL_MTU" := by decide
  simp only [Cni.assign, htrim, parseU32_repr mtu.toNat_lt_size]

theorem assign_ipmasq (env : Cni.FlannelSubnetEnv) (ipMasq : Bool) :
    Cni.assign env "FLANNEL_IPMASQ" (if ipMasq then "true" else "false") =
      .ok { env with ipmasq := ipMasq } := by
  have htrim : Text.trim "FLANNEL_IPMASQ" = "FLANNEL_IPMASQ" := by decide
  have hbool : Cni.parseBool (if ipMasq then "true" else "false") = some ipMasq := by
    revert ipMasq
    decide
  simp only [Cni.assign, htrim, hbool]

/-- What the pairs of IPv4 stand for. -/
structure ReadAsIpv4 (network first sn : IP4Net) : Prop where
  networkLen : network.prefixLen ≤ 32
  network_eq : network.network = network
  firstLen : first.prefixLen ≤ 32
  first_network : first.network = sn

/-- What the pairs of IPv6 stand for. -/
structure ReadAsIpv6 (ipv6Network first6 ipv6sn : IP6Net) : Prop where
  networkLen : ipv6Network.prefixLen ≤ 128
  network_eq : ipv6Network.network = ipv6Network
  firstLen : first6.prefixLen ≤ 128
  first_network : first6.network = ipv6sn

/-- The environment that the pairs stand for. -/
theorem foldlM_assign_filePairs
    (h4 : config.enableIpv4 = true → ReadAsIpv4 config.network first sn)
    (h6 : config.enableIpv6 = true → ReadAsIpv6 config.ipv6Network first6 ipv6sn) :
    (filePairs config ipMasq first first6 mtu).foldlM (fun env p => Cni.assign env p.1 p.2) {} =
      .ok
        { network := if config.enableIpv4 then some config.network else none
          subnet := if config.enableIpv4 then some sn else none
          ipv6Network := if config.enableIpv6 then some config.ipv6Network else none
          ipv6Subnet := if config.enableIpv6 then some ipv6sn else none
          mtu := some mtu.toNat
          ipmasq := ipMasq } := by
  have hbind : ∀ (env : Cni.FlannelSubnetEnv)
      (f : Cni.FlannelSubnetEnv → Except String Cni.FlannelSubnetEnv),
      (Except.ok env >>= f) = f env := fun _ _ => rfl
  have hpure : ∀ env : Cni.FlannelSubnetEnv,
      (pure env : Except String Cni.FlannelSubnetEnv) = .ok env := fun _ => rfl
  rw [filePairs, List.foldlM_append, List.foldlM_append]
  cases hv4 : config.enableIpv4 with
  | false =>
    cases hv6 : config.enableIpv6 with
    | false => simp [assign_mtu, assign_ipmasq, hbind, hpure]
    | true =>
      obtain ⟨hnet6, hnet6_eq, hfirst6, hfirst6_eq⟩ := h6 hv6
      simp [assign_ipv6Network _ hnet6, assign_ipv6Subnet _ hfirst6, hnet6_eq, hfirst6_eq,
        assign_mtu, assign_ipmasq, hbind, hpure]
  | true =>
    obtain ⟨hnet, hnet_eq, hfirst, hfirst_eq⟩ := h4 hv4
    cases hv6 : config.enableIpv6 with
    | false =>
      simp [assign_network _ hnet, assign_subnet _ hfirst, hnet_eq, hfirst_eq, assign_mtu,
        assign_ipmasq, hbind, hpure]
    | true =>
      obtain ⟨hnet6, hnet6_eq, hfirst6, hfirst6_eq⟩ := h6 hv6
      simp [assign_network _ hnet, assign_subnet _ hfirst, hnet_eq, hfirst_eq,
        assign_ipv6Network _ hnet6, assign_ipv6Subnet _ hfirst6, hnet6_eq, hfirst6_eq,
        assign_mtu, assign_ipmasq, hbind, hpure]

/-! ## The daemon -/

theorem parseIp4net_toString {n : IP4Net} (hn : n.prefixLen ≤ 32) :
    parseIp4net n.toString = some n.network := by
  have hslash : '/' ∉ n.ip.toString.toList := fun h =>
    absurd (isAddrChar_showIpv4 h) (by decide)
  have hsize : n.prefixLen < UInt32.size := Nat.lt_of_le_of_lt hn (by decide)
  rw [parseIp4net, IP4Net.toString_eq, splitOnce_append hslash]
  simp only [Option.bind_eq_bind, Option.bind_some, parseU32_repr hsize, IP4.fromStr_toString]
  rw [if_neg (by omega)]

/-- The last separator is the one that was put there. -/
theorem rsplitOnce_append {c : Char} {s t : String} (ht : c ∉ t.toList) :
    rsplitOnce c (s ++ String.ofList (c :: t.toList)) = some (s, t) := by
  have hpos : ∀ d ∈ t.toList.reverse, decide (d ≠ c) = true := by
    intro d hd
    rw [decide_eq_true_eq]
    rintro rfl
    exact ht (List.mem_reverse.mp hd)
  have hrev : (s ++ String.ofList (c :: t.toList)).toList.reverse =
      t.toList.reverse ++ (c :: s.toList.reverse) := by
    simp
  unfold rsplitOnce
  rw [hrev, List.dropWhile_append_of_pos hpos, List.takeWhile_append_of_pos hpos]
  simp

theorem parseIp6net_toString {n : IP6Net} (hn : n.prefixLen ≤ 128) :
    parseIp6net n.toString = some n.network := by
  have hslash : '/' ∉ n.prefixLen.repr.toList := by
    rw [Nat.toList_repr]
    exact fun h => absurd (isAddrChar_toDigits (by omega) (by omega) h) (by decide)
  have hsize : n.prefixLen < UInt32.size := Nat.lt_of_le_of_lt hn (by decide)
  rw [parseIp6net, IP6Net.toString_eq, rsplitOnce_append hslash]
  simp only [Option.bind_eq_bind, Option.bind_some, parseU32_repr hsize, IP6.fromStr_toString]
  rw [if_neg (by omega)]

/-- The values of the keys of the networks and subnets. -/
theorem foldl_update_filePairs (config : Config) (ipMasq : Bool) (first : IP4Net)
    (first6 : IP6Net) (mtu : UInt32) :
    let values := (filePairs config ipMasq first first6 mtu).foldl
      (fun (values : String → Option String) p => Function.update values p.1 (some p.2))
      fun _ => none
    values "FLANNEL_NETWORK" =
        (if config.enableIpv4 then some config.network.toString else none) ∧
      values "FLANNEL_SUBNET" = (if config.enableIpv4 then some first.toString else none) ∧
      values "FLANNEL_IPV6_NETWORK" =
        (if config.enableIpv6 then some config.ipv6Network.toString else none) ∧
      values "FLANNEL_IPV6_SUBNET" =
        (if config.enableIpv6 then some first6.toString else none) := by
  cases hv4 : config.enableIpv4 with
  | false =>
    cases hv6 : config.enableIpv6 with
    | false => simp [filePairs, hv4, hv6]
    | true => simp [filePairs, hv4, hv6]
  | true =>
    cases hv6 : config.enableIpv6 with
    | false => simp [filePairs, hv4, hv6]
    | true => simp [filePairs, hv4, hv6]

/-- A value that is one network. -/
theorem readParts_eq {α : Type} {parse : String → Option α} {content cidrKey value : String}
    {net : α} {enabled : Bool} (hplain : IsPlain value)
    (hparse : enabled = true → parse value = some net)
    (hvalue : readEnvFile content cidrKey = if enabled then some value else none) :
    readParts parse (some content) cidrKey = if enabled then [net] else [] := by
  cases henabled : enabled with
  | false =>
    rw [henabled] at hvalue
    simp [readParts, hvalue]
  | true =>
    rw [henabled] at hvalue
    simp [readParts, hvalue, Text.split_eq (hplain.notMem (c := ',') (by decide)),
      hparse henabled]

/-- The daemon's readers of a key of IPv4. -/
theorem readCidrs_eq {content cidrKey : String} {n net : IP4Net} {enabled : Bool}
    (hn : enabled = true → n.prefixLen ≤ 32 ∧ n.network = net)
    (hvalue : readEnvFile content cidrKey = if enabled then some n.toString else none) :
    readCidrsFromSubnetFile (some content) cidrKey = if enabled then [net] else [] := by
  refine readParts_eq (isPlain_ip4net n) (fun henabled => ?_) hvalue
  rw [parseIp4net_toString (hn henabled).1, (hn henabled).2]

/-- The daemon's readers of a key of IPv6. -/
theorem readIp6Cidrs_eq {content cidrKey : String} {n net : IP6Net} {enabled : Bool}
    (hn : enabled = true → n.prefixLen ≤ 128 ∧ n.network = net)
    (hvalue : readEnvFile content cidrKey = if enabled then some n.toString else none) :
    readIp6CidrsFromSubnetFile (some content) cidrKey = if enabled then [net] else [] := by
  refine readParts_eq (isPlain_ip6net n) (fun henabled => ?_) hvalue
  rw [parseIp6net_toString (hn henabled).1, (hn henabled).2]

theorem readPart_eq {α : Type} [Inhabited α] {net : α} {enabled : Bool} :
    readPart (if enabled then [net] else []) = if enabled then net else default := by
  cases enabled with
  | false => rfl
  | true => rfl

/-! ## Both readers -/

/-- A masked IPv4 network, and a masked subnet with at least two addresses. -/
structure MaskedIpv4 (network sn : IP4Net) : Prop where
  networkLen : network.prefixLen ≤ 32
  network_eq : network.network = network
  subnetLen : sn.prefixLen ≤ 31
  subnet_eq : sn.network = sn

/-- A masked IPv6 network, and a masked subnet with at least two addresses. -/
structure MaskedIpv6 (ipv6Network ipv6sn : IP6Net) : Prop where
  networkLen : ipv6Network.prefixLen ≤ 128
  network_eq : ipv6Network.network = ipv6Network
  subnetLen : ipv6sn.prefixLen ≤ 127
  subnet_eq : ipv6sn.network = ipv6sn

theorem MaskedIpv4.exists_first {network : IP4Net} (h : MaskedIpv4 network sn) :
    ∃ first, sn.incrementIp = some first ∧ ReadAsIpv4 network first sn := by
  obtain ⟨first, hfirst, hlen, hnetwork⟩ := IP4Net.incrementIp_masked h.subnetLen h.subnet_eq
  have hsn := h.subnetLen
  exact ⟨first, hfirst, h.networkLen, h.network_eq, by omega, hnetwork⟩

theorem MaskedIpv6.readAs {ipv6Network : IP6Net} (h : MaskedIpv6 ipv6Network ipv6sn) :
    ReadAsIpv6 ipv6Network ipv6sn.incrementIp ipv6sn := by
  obtain ⟨-, hlen, hnetwork⟩ := IP6Net.incrementIp_masked h.subnetLen h.subnet_eq
  have hsn := h.subnetLen
  exact ⟨h.networkLen, h.network_eq, by omega, hnetwork⟩

/-- **The subnet file is understood by all its readers**, and no increment overflows. -/
theorem subnet_file_read_back (config : Config) (ipMasq : Bool) (sn : IP4Net) (ipv6sn : IP6Net)
    (mtu : UInt32) (h4 : config.enableIpv4 = true → MaskedIpv4 config.network sn)
    (h6 : config.enableIpv6 = true → MaskedIpv6 config.ipv6Network ipv6sn) :
    (config.enableIpv6 = true → ipv6sn.ip.val ≠ BitVec.allOnes 128) ∧
    ∃ content, writeSubnetFile config ipMasq sn ipv6sn mtu = some content ∧
      Cni.parseSubnetEnv content = .ok
        { network := if config.enableIpv4 then some config.network else none
          subnet := if config.enableIpv4 then some sn else none
          ipv6Network := if config.enableIpv6 then some config.ipv6Network else none
          ipv6Subnet := if config.enableIpv6 then some ipv6sn else none
          mtu := some mtu.toNat
          ipmasq := ipMasq } ∧
      (readCidrsFromSubnetFile (some content) "FLANNEL_NETWORK" =
          (if config.enableIpv4 then [config.network] else []) ∧
        readCidrsFromSubnetFile (some content) "FLANNEL_SUBNET" =
          (if config.enableIpv4 then [sn] else []) ∧
        readIp6CidrsFromSubnetFile (some content) "FLANNEL_IPV6_NETWORK" =
          (if config.enableIpv6 then [config.ipv6Network] else []) ∧
        readIp6CidrsFromSubnetFile (some content) "FLANNEL_IPV6_SUBNET" =
          (if config.enableIpv6 then [ipv6sn] else [])) ∧
      readCidrFromSubnetFile (some content) "FLANNEL_NETWORK" =
          (if config.enableIpv4 then config.network else default) ∧
        readCidrFromSubnetFile (some content) "FLANNEL_SUBNET" =
          (if config.enableIpv4 then sn else default) ∧
        readIp6CidrFromSubnetFile (some content) "FLANNEL_IPV6_NETWORK" =
          (if config.enableIpv6 then config.ipv6Network else default) ∧
        readIp6CidrFromSubnetFile (some content) "FLANNEL_IPV6_SUBNET" =
          (if config.enableIpv6 then ipv6sn else default) := by
  -- the first address of the IPv4 subnet, which is written only if IPv4 is enabled
  obtain ⟨first, hfirst⟩ : ∃ first, config.enableIpv4 = true →
      sn.incrementIp = some first ∧ ReadAsIpv4 config.network first sn := by
    by_cases hv4 : config.enableIpv4 = true
    · obtain ⟨first, hfirst⟩ := (h4 hv4).exists_first
      exact ⟨first, fun _ => hfirst⟩
    · exact ⟨sn, fun h => absurd h hv4⟩
  have hread4 := fun hv4 => (hfirst hv4).2
  have hread6 := fun hv6 => (h6 hv6).readAs
  refine ⟨fun hv6 => (IP6Net.incrementIp_masked (h6 hv6).subnetLen (h6 hv6).subnet_eq).1, ?_⟩
  obtain ⟨content, hwrite, hcontent⟩ := writeSubnetFile_eq ipMasq ipv6sn mtu
    fun hv4 => (hfirst hv4).1
  have hplain : ∀ p ∈ filePairs config ipMasq first ipv6sn.incrementIp mtu, PlainPair p :=
    fun p hp => plainPair_of_mem hp
  have hvalues := foldl_update_filePairs config ipMasq first ipv6sn.incrementIp mtu
  rw [← readEnvFile_pairs hplain hcontent] at hvalues
  obtain ⟨hnet, hsubnet, hnet6, hsubnet6⟩ := hvalues
  have hnets := readCidrs_eq
    (fun hv4 => ⟨(hread4 hv4).networkLen, (hread4 hv4).network_eq⟩) hnet
  have hsubnets := readCidrs_eq
    (fun hv4 => ⟨(hread4 hv4).firstLen, (hread4 hv4).first_network⟩) hsubnet
  have hnets6 := readIp6Cidrs_eq
    (fun hv6 => ⟨(hread6 hv6).networkLen, (hread6 hv6).network_eq⟩) hnet6
  have hsubnets6 := readIp6Cidrs_eq
    (fun hv6 => ⟨(hread6 hv6).firstLen, (hread6 hv6).first_network⟩) hsubnet6
  refine ⟨content, hwrite, ?_, ⟨hnets, hsubnets, hnets6, hsubnets6⟩, ?_⟩
  · exact (parseSubnetEnv_pairs hplain hcontent).trans (foldlM_assign_filePairs hread4 hread6)
  · exact ⟨(congrArg readPart hnets).trans readPart_eq,
      (congrArg readPart hsubnets).trans readPart_eq,
      (congrArg readPart hnets6).trans readPart_eq, (congrArg readPart hsubnets6).trans readPart_eq⟩

theorem subnet_file_read_back_dual :
    ∃ content,
      writeSubnetFile
        { enableIpv4 := true, enableIpv6 := true
          network := ⟨⟨0x0af40000⟩, 16⟩
          ipv6Network := ⟨⟨0xfc00 <<< 112⟩, 48⟩ }
        true ⟨⟨0x0af40100⟩, 24⟩ ⟨⟨0xfc000000000000010000000000000000⟩, 64⟩ 1450 = some content ∧
      Cni.parseSubnetEnv content = .ok
        { network := some ⟨⟨0x0af40000⟩, 16⟩
          subnet := some ⟨⟨0x0af40100⟩, 24⟩
          ipv6Network := some ⟨⟨0xfc00 <<< 112⟩, 48⟩
          ipv6Subnet := some ⟨⟨0xfc000000000000010000000000000000⟩, 64⟩
          mtu := some 1450
          ipmasq := true } := by
  obtain ⟨-, content, hwrite, hparse, -⟩ := subnet_file_read_back
    { enableIpv4 := true, enableIpv6 := true
      network := ⟨⟨0x0af40000⟩, 16⟩
      ipv6Network := ⟨⟨0xfc00 <<< 112⟩, 48⟩ }
    true ⟨⟨0x0af40100⟩, 24⟩ ⟨⟨0xfc000000000000010000000000000000⟩, 64⟩ 1450
    (fun _ => ⟨by decide, by decide, by decide, by decide⟩)
    (fun _ => ⟨by decide, by decide, by decide, by decide⟩)
  exact ⟨content, hwrite, hparse⟩

end Writer

end Flannel
