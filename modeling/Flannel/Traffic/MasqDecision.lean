import Flannel.Ip.Display
import Flannel.Traffic.Filter

/-!
# Which packets are masqueraded

Flannel installs the same masquerading policy through `iptables` or through `nft`.  This
file evaluates both rule lists on a packet.  The decision depends on five memberships
--- the source in the pod CIDR and in the cluster CIDR, the destination in these two and
in the multicast range --- and on the mark.

Three things hold of both lists: traffic from the pods to the cluster and traffic to the
own pods keep their addresses, and traffic from the pods to the outside is masqueraded,
unless it is multicast or carries the mark of kube-proxy.

The lists are not equivalent.  In the fourth `nft` rule the pod CIDR and the cluster CIDR
are interchanged, compared with the rule of `masq_rules_with` that has the same comment.
Together with the second rule it takes every packet to the cluster CIDR, so the last
rule, which should masquerade what the host sends into the cluster, is never reached.
And `nft` compares the whole mark where `iptables` compares one bit.  Both make a
difference for certain packets only, and this file says for which (`Disputed`).
-/

namespace Flannel

open Flannel.Filter

/-! ## The rules that are read -/

section Read

variable {α : Type} {net : String → Option (α → Bool)} {clusterCidr podCidr multicast : String}
  {inCluster inPod inMulticast : α → Bool}

/-- The rules of the chain of `masq_rules_with`. -/
def iptablesRules (inCluster inPod inMulticast : α → Bool) : List (Rule α) :=
  [⟨[.mark 0x4000 0x4000], .ret⟩,
    ⟨[.src false inPod, .dst false inCluster], .ret⟩,
    ⟨[.src false inCluster, .dst false inPod], .ret⟩,
    ⟨[.src true inCluster, .dst false inPod], .ret⟩,
    ⟨[.src false inCluster, .dst true inMulticast], .masquerade⟩,
    ⟨[.src true inCluster, .dst false inCluster], .masquerade⟩]

/-- The rules of `masq_rule_texts`. -/
def nftablesRules (inCluster inPod inMulticast : α → Bool) : List (Rule α) :=
  [⟨[.mark 0x4000 (BitVec.allOnes 32)], .ret⟩,
    ⟨[.src false inPod, .dst false inCluster], .ret⟩,
    ⟨[.src false inCluster, .dst false inPod], .ret⟩,
    ⟨[.src true inPod, .dst false inCluster], .ret⟩,
    ⟨[.src false inCluster, .dst true inMulticast], .masquerade⟩,
    ⟨[.src true inCluster, .dst false inCluster], .masquerade⟩]

theorem readMark_kubeProxyMark : (readMark kubeProxyMark : Option (Test α)) =
    some (.mark 0x4000 0x4000) := by
  have hsplit : splitOnce '/' kubeProxyMark = some ("0x4000", "0x4000") := by decide
  have hhex : readHex "0x4000" = some 0x4000 := by decide
  simp [readMark, hsplit, hhex]

theorem readChain_masqRulesWith (hcluster : net clusterCidr = some inCluster)
    (hpod : net podCidr = some inPod) (hmulticast : net multicast = some inMulticast)
    (disable supports : Bool) :
    readChain net "FLANNEL-POSTRTG" (masqRulesWith clusterCidr podCidr multicast disable supports) =
      some (iptablesRules inCluster inPod inMulticast) := by
  cases hrandom : (supports && !disable) with
  | true =>
    simp [readChain, masqRulesWith, hrandom, rule, commented, readSpec, hcluster, hpod, hmulticast,
      readMark_kubeProxyMark, Rule.also, iptablesRules]
  | false =>
    simp [readChain, masqRulesWith, hrandom, rule, commented, readSpec, hcluster, hpod, hmulticast,
      readMark_kubeProxyMark, Rule.also, iptablesRules]

theorem words_of_no_space {s : String} (h : ' ' ∉ s.toList) : words s = [s] := by
  unfold words
  rw [List.splitOn_eq_singleton h]
  simp

/-- The words of joined parts are the words of the parts. -/
theorem words_concat {parts : List String} (h : parts ≠ []) :
    words (concat parts) = parts.flatMap words := by
  have hspace : " ".toList = [' '] := by decide
  induction parts with
  | nil => exact absurd rfl h
  | cons part rest ih =>
    cases rest with
    | nil => simp [concat]
    | cons next rest =>
      rw [List.flatMap_cons, ← ih (by simp)]
      unfold words concat
      rw [String.toList_intercalate, String.toList_intercalate, List.map_cons, List.map_cons,
        List.intercalate_cons_cons, hspace, List.append_assoc, ← List.map_append]
      exact congrArg _ (List.splitOn_append_cons_self part.toList _)

section Words

variable {family : Family} {cidr : String} {inCidr : α → Bool} {rest : List String} {r : Rule α}

theorem readWords_saddr (hcidr : net cidr = some inCidr) (hne : cidr ≠ "!=")
    (hrest : readWords net family.asStr rest = some r) :
    readWords net family.asStr (family.asStr :: "saddr" :: cidr :: rest) =
      some (r.also (.src false inCidr)) := by
  cases family with
  | ip => simp_all [readWords, Family.asStr]
  | ip6 => simp_all [readWords, Family.asStr]

theorem readWords_daddr (hcidr : net cidr = some inCidr) (hne : cidr ≠ "!=")
    (hrest : readWords net family.asStr rest = some r) :
    readWords net family.asStr (family.asStr :: "daddr" :: cidr :: rest) =
      some (r.also (.dst false inCidr)) := by
  cases family with
  | ip => simp_all [readWords, Family.asStr]
  | ip6 => simp_all [readWords, Family.asStr]

theorem readWords_saddr_ne (hcidr : net cidr = some inCidr)
    (hrest : readWords net family.asStr rest = some r) :
    readWords net family.asStr (family.asStr :: "saddr" :: "!=" :: cidr :: rest) =
      some (r.also (.src true inCidr)) := by
  cases family with
  | ip => simp_all [readWords, Family.asStr]
  | ip6 => simp_all [readWords, Family.asStr]

theorem readWords_daddr_ne (hcidr : net cidr = some inCidr)
    (hrest : readWords net family.asStr rest = some r) :
    readWords net family.asStr (family.asStr :: "daddr" :: "!=" :: cidr :: rest) =
      some (r.also (.dst true inCidr)) := by
  cases family with
  | ip => simp_all [readWords, Family.asStr]
  | ip6 => simp_all [readWords, Family.asStr]

end Words

theorem readTexts_masqRuleTexts {family : Family} (hcluster : net clusterCidr = some inCluster)
    (hpod : net podCidr = some inPod)
    (hmulticast : net (if family.asStr = Family.ip6.asStr then "ff00::/8" else "224.0.0.0/4") =
      some inMulticast)
    (hclusterSpace : ' ' ∉ clusterCidr.toList) (hpodSpace : ' ' ∉ podCidr.toList)
    (hclusterText : clusterCidr ≠ "!=") (hpodText : podCidr ≠ "!=")
    (fullyRandom : Bool) :
    readTexts net family.asStr
        (masqRuleTexts clusterCidr podCidr family.asStr (masqStatement fullyRandom)) =
      some (nftablesRules inCluster inPod inMulticast) := by
  have hhex : readHex "0x4000" = some 0x4000 := by decide
  have hclusterWords := words_of_no_space hclusterSpace
  have hpodWords := words_of_no_space hpodSpace
  have hfamilyWords : words family.asStr = [family.asStr] := by
    cases family with
    | ip => decide
    | ip6 => decide
  have hmulticastWords : ∀ b : Prop, [Decidable b] →
      words (if b then "ff00::/8" else "224.0.0.0/4") =
        [if b then "ff00::/8" else "224.0.0.0/4"] := by
    intro b _
    split
    · decide
    · decide
  have hfixed : words "meta mark" = ["meta", "mark"] ∧ words "0x4000" = ["0x4000"] ∧
      words "return" = ["return"] ∧ words "saddr" = ["saddr"] ∧ words "daddr" = ["daddr"] ∧
      words "!=" = ["!="] := by decide
  obtain ⟨hmeta, hmark, hreturn, hsaddr, hdaddr, hne⟩ := hfixed
  have hmasq : ∃ ws, words (masqStatement fullyRandom) = ws ∧
      readWords net family.asStr ws = some ⟨[], .masquerade⟩ := by
    cases fullyRandom with
    | true => exact ⟨["masquerade", "fully-random"], by decide, rfl⟩
    | false => exact ⟨["masquerade"], by decide, rfl⟩
  obtain ⟨ws, hws, hread⟩ := hmasq
  have hret : readWords net family.asStr ["return"] = some ⟨[], .ret⟩ := rfl
  unfold readTexts masqRuleTexts
  simp only [List.mapM_cons, List.mapM_nil, words_concat (List.cons_ne_nil _ _),
    List.flatMap_cons, List.flatMap_nil, hmeta, hmark, hreturn, hsaddr, hdaddr, hne, hclusterWords,
    hpodWords, hfamilyWords, hmulticastWords, hws, List.append_nil, List.cons_append,
    List.nil_append]
  rw [readWords_saddr hpod hpodText (readWords_daddr hcluster hclusterText hret),
    readWords_saddr hcluster hclusterText (readWords_daddr hpod hpodText hret),
    readWords_saddr_ne hpod (readWords_daddr hcluster hclusterText hret),
    readWords_saddr hcluster hclusterText (readWords_daddr_ne hmulticast hread),
    readWords_saddr_ne hcluster (readWords_daddr hcluster hclusterText hread)]
  simp [readWords, hhex, Rule.also, nftablesRules]

end Read

/-! ## The decisions -/

section Decisions

variable {α : Type} (inCluster inPod inMulticast : α → Bool) (p : Packet α)

theorem masquerades_iptablesRules :
    masquerades (iptablesRules inCluster inPod inMulticast) p =
      (!(p.mark &&& 0x4000 == 0x4000) && !(inPod p.src && inCluster p.dst) && !inPod p.dst &&
        (inCluster p.src && !inMulticast p.dst || !inCluster p.src && inCluster p.dst)) := by
  simp only [masquerades, iptablesRules, verdict, Rule.takes, List.all_cons, List.all_nil,
    Test.holds, Bool.and_true, Bool.false_bne, Bool.true_bne]
  generalize (p.mark &&& 0x4000 == 0x4000) = marked
  generalize inPod p.src = sp
  generalize inPod p.dst = dp
  generalize inCluster p.src = sc
  generalize inCluster p.dst = dc
  generalize inMulticast p.dst = dm
  revert marked sp dp sc dc dm
  decide

theorem masquerades_nftablesRules (hsub : ∀ a, inPod a = true → inCluster a = true) :
    masquerades (nftablesRules inCluster inPod inMulticast) p =
      (!(p.mark == 0x4000) && !inCluster p.dst && inCluster p.src && !inMulticast p.dst) := by
  have hdst := hsub p.dst
  simp only [masquerades, nftablesRules, verdict, Rule.takes, List.all_cons, List.all_nil,
    Test.holds, Bool.and_true, Bool.false_bne, Bool.true_bne, BitVec.and_allOnes]
  generalize (p.mark == 0x4000) = marked
  generalize inPod p.src = sp
  generalize inPod p.dst = dp at hdst
  generalize inCluster p.src = sc
  generalize inCluster p.dst = dc at hdst
  generalize inMulticast p.dst = dm
  revert marked sp dp sc dc dm
  decide

end Decisions

/-! ## The two address families -/

namespace Family

/-- The addresses of a family. -/
def Addr : Family → Type
  | .ip => IP4
  | .ip6 => IP6

/-- The networks of a family. -/
def Net : Family → Type
  | .ip => IP4Net
  | .ip6 => IP6Net

/-- The width of an address. -/
def width : Family → Nat
  | .ip => 32
  | .ip6 => 128

def prefixLen : (f : Family) → f.Net → Nat
  | .ip => fun n : IP4Net => n.prefixLen
  | .ip6 => fun n : IP6Net => n.prefixLen

def contains : (f : Family) → f.Net → f.Addr → Bool
  | .ip => IP4Net.contains
  | .ip6 => IP6Net.contains

/-- The text of a network. -/
def netText : (f : Family) → f.Net → String
  | .ip => IP4Net.toString
  | .ip6 => IP6Net.toString

/-- What a CIDR text denotes. -/
def readNet : (f : Family) → String → Option (f.Addr → Bool)
  | .ip => fun s => (IP4Net.fromStr s).toOption.map IP4Net.contains
  | .ip6 => fun s => (IP6Net.fromStr s).toOption.map IP6Net.contains

/-- The multicast range. -/
def multicast : (f : Family) → f.Net
  | .ip => (⟨⟨0xe0000000⟩, 4⟩ : IP4Net)
  | .ip6 => (⟨⟨0xff000000000000000000000000000000⟩, 8⟩ : IP6Net)

/-- The `iptables` rules of the family. -/
def masqRules : (f : Family) → f.Net → f.Net → Bool → Bool → List IPTablesRule
  | .ip => Flannel.masqRules
  | .ip6 => Flannel.masqIp6Rules

/-- Whether the chain of `masq_rules_with` masquerades a packet. -/
def iptablesMasquerades (f : Family) (cluster pod : f.Net) (disable supports : Bool)
    (p : Packet f.Addr) : Option Bool :=
  (readChain f.readNet "FLANNEL-POSTRTG" (f.masqRules cluster pod disable supports)).map
    fun rules => masquerades rules p

/-- Whether the rules of `masq_rule_texts` masquerade a packet. -/
def nftablesMasquerades (f : Family) (cluster pod : f.Net) (fullyRandom : Bool)
    (p : Packet f.Addr) : Option Bool :=
  (readTexts f.readNet f.asStr (masqRuleTexts (f.netText cluster) (f.netText pod) f.asStr
    (masqStatement fullyRandom))).map fun rules => masquerades rules p

end Family

theorem IP4Net.contains_network (n : IP4Net) : n.network.contains = n.contains := by
  funext a
  simp only [IP4Net.contains, IP4Net.network, IP4Net.mask]
  rw [BitVec.and_assoc, BitVec.and_self]

theorem IP6Net.contains_network (n : IP6Net) : n.network.contains = n.contains := by
  funext a
  simp only [IP6Net.contains, IP6Net.network, IP6Net.mask]
  rw [BitVec.and_assoc, BitVec.and_self]

namespace Family

variable {f : Family}

theorem readNet_netText {n : f.Net} (hn : f.prefixLen n ≤ f.width) :
    f.readNet (f.netText n) = some (f.contains n) := by
  cases f with
  | ip =>
    have hread : (IP4Net.fromStr (IP4Net.toString n)) = .ok (IP4Net.network n) :=
      IP4Net.fromStr_toString hn
    unfold readNet netText
    dsimp only
    rw [hread]
    exact congrArg some (IP4Net.contains_network n)
  | ip6 =>
    have hread : (IP6Net.fromStr (IP6Net.toString n)) = .ok (IP6Net.network n) :=
      IP6Net.fromStr_toString hn
    unfold readNet netText
    dsimp only
    rw [hread]
    exact congrArg some (IP6Net.contains_network n)

/-- The characters of a network text. -/
theorem mem_netText {n : f.Net} {c : Char} (hc : c ∈ (f.netText n).toList) :
    StdAddr.isAddrChar c = true ∨ c = '/' := by
  cases f with
  | ip => exact IP4Net.mem_toString hc
  | ip6 => exact IP6Net.mem_toString hc

theorem space_not_mem_netText (n : f.Net) : ' ' ∉ (f.netText n).toList := by
  intro hc
  have hspace := mem_netText hc
  revert hspace
  decide

theorem netText_ne_operator (n : f.Net) : f.netText n ≠ "!=" := by
  intro hn
  have hbang : '!' ∈ (f.netText n).toList := by
    rw [hn]
    decide
  have hchar := mem_netText hbang
  revert hchar
  decide

variable {cluster pod : f.Net} (hcluster : f.prefixLen cluster ≤ f.width)
  (hpod : f.prefixLen pod ≤ f.width)

include hcluster hpod

/-- The decision of the `iptables` rules. -/
theorem iptablesMasquerades_eq (disable supports : Bool) (p : Packet f.Addr) :
    f.iptablesMasquerades cluster pod disable supports p =
      some (!(p.mark &&& 0x4000 == 0x4000) &&
        !(f.contains pod p.src && f.contains cluster p.dst) && !f.contains pod p.dst &&
        (f.contains cluster p.src && !f.contains f.multicast p.dst ||
          !f.contains cluster p.src && f.contains cluster p.dst)) := by
  have hrules : ∃ multicast, f.masqRules cluster pod disable supports =
      masqRulesWith (f.netText cluster) (f.netText pod) multicast disable supports ∧
      f.readNet multicast = some (f.contains f.multicast) := by
    cases f with
    | ip => exact ⟨"224.0.0.0/4", rfl, rfl⟩
    | ip6 => exact ⟨"ff00::/8", rfl, rfl⟩
  obtain ⟨multicast, hrules, hmulticast⟩ := hrules
  unfold iptablesMasquerades
  rw [hrules, readChain_masqRulesWith (readNet_netText hcluster) (readNet_netText hpod) hmulticast,
    Option.map_some, masquerades_iptablesRules]

/-- The decision of the `nft` rules. -/
theorem nftablesMasquerades_eq (hsub : ∀ a, f.contains pod a = true → f.contains cluster a = true)
    (fullyRandom : Bool) (p : Packet f.Addr) :
    f.nftablesMasquerades cluster pod fullyRandom p =
      some (!(p.mark == 0x4000) && !f.contains cluster p.dst && f.contains cluster p.src &&
        !f.contains f.multicast p.dst) := by
  have hmulticast : f.readNet (if f.asStr = Family.ip6.asStr then "ff00::/8" else "224.0.0.0/4") =
      some (f.contains f.multicast) := by
    cases f with
    | ip => rfl
    | ip6 => rfl
  unfold nftablesMasquerades
  rw [readTexts_masqRuleTexts (readNet_netText hcluster) (readNet_netText hpod) hmulticast
      (space_not_mem_netText cluster) (space_not_mem_netText pod) (netText_ne_operator cluster)
      (netText_ne_operator pod),
    Option.map_some, masquerades_nftablesRules _ _ _ _ hsub]

/-- The packets on which the two rule lists differ: those that carry the bit of kube-proxy
among others and leave the cluster, and those that come from no own pod, carry no such bit
and go to another node's pods. -/
def Disputed (f : Family) (cluster pod : f.Net) (p : Packet f.Addr) : Prop :=
  (p.mark &&& 0x4000 = 0x4000 ∧ p.mark ≠ 0x4000 ∧ f.contains cluster p.src = true ∧
      f.contains cluster p.dst = false ∧ f.contains f.multicast p.dst = false) ∨
    (p.mark &&& 0x4000 ≠ 0x4000 ∧ f.contains pod p.src = false ∧ f.contains pod p.dst = false ∧
      f.contains cluster p.dst = true ∧
      (f.contains cluster p.src = false ∨ f.contains f.multicast p.dst = false))

/-- **When the decisions agree.**  For every family, every pod CIDR inside the cluster CIDR
and every packet, both rule lists decide the packet, and they decide it alike if and only if
it is not disputed. -/
theorem masquerade_decisions_agree_iff
    (hsub : ∀ a, f.contains pod a = true → f.contains cluster a = true)
    (disable supports fullyRandom : Bool) (p : Packet f.Addr) :
    ∃ b c, f.iptablesMasquerades cluster pod disable supports p = some b ∧
      f.nftablesMasquerades cluster pod fullyRandom p = some c ∧
      (b = c ↔ ¬ Disputed f cluster pod p) := by
  refine ⟨_, _, iptablesMasquerades_eq hcluster hpod disable supports p,
    nftablesMasquerades_eq hcluster hpod hsub fullyRandom p, ?_⟩
  have hsrc := hsub p.src
  have hdst := hsub p.dst
  have hmark : (p.mark == 0x4000) = true → (p.mark &&& 0x4000 == 0x4000) = true := by
    intro h
    rw [beq_iff_eq.mp h]
    rfl
  unfold Disputed
  simp only [ne_eq, ← @beq_iff_eq (BitVec 32)]
  generalize (p.mark &&& 0x4000 == 0x4000) = bit at hmark ⊢
  generalize (p.mark == 0x4000) = whole at hmark ⊢
  generalize f.contains pod p.src = sp at hsrc ⊢
  generalize f.contains pod p.dst = dp at hdst ⊢
  generalize f.contains cluster p.src = sc at hsrc ⊢
  generalize f.contains cluster p.dst = dc at hdst ⊢
  generalize f.contains f.multicast p.dst = dm
  cases bit <;> cases dc <;> cases sc <;> simp_all

/-- **The masquerading policy.**  For every family, every pod CIDR inside the cluster CIDR
and every packet, both rule lists leave traffic from the pods to the cluster and traffic to
the pods alone, and both masquerade traffic from the pods that leaves the cluster, is not
multicast and does not carry the bit of kube-proxy. -/
theorem masquerade_policy (hsub : ∀ a, f.contains pod a = true → f.contains cluster a = true)
    (disable supports fullyRandom : Bool) (p : Packet f.Addr) :
    ∃ b c, f.iptablesMasquerades cluster pod disable supports p = some b ∧
      f.nftablesMasquerades cluster pod fullyRandom p = some c ∧
      (f.contains pod p.src = true → f.contains cluster p.dst = true → b = false ∧ c = false) ∧
      (f.contains pod p.dst = true → b = false ∧ c = false) ∧
      (f.contains pod p.src = true → f.contains cluster p.dst = false →
        f.contains f.multicast p.dst = false → p.mark &&& 0x4000 = 0 → b = true ∧ c = true) := by
  refine ⟨_, _, iptablesMasquerades_eq hcluster hpod disable supports p,
    nftablesMasquerades_eq hcluster hpod hsub fullyRandom p, ?_, ?_, ?_⟩
  · intro hsrc hdst
    simp [hsrc, hdst]
  · intro hdst
    simp [hdst, hsub p.dst hdst]
  · intro hsrc hdst hmulticast hclear
    have hpodDst : f.contains pod p.dst = false := by
      rw [← Bool.not_eq_true]
      intro h
      rw [hsub p.dst h] at hdst
      cases hdst
    have hbit : (p.mark &&& 0x4000 == 0x4000) = false := by
      rw [hclear]
      rfl
    have hwhole : (p.mark == 0x4000) = false := by
      rw [beq_eq_false_iff_ne]
      intro h
      rw [h] at hclear
      exact absurd hclear (by decide)
    rw [hbit, hwhole]
    simp [hdst, hpodDst, hsub p.src hsrc, hmulticast]

omit hcluster hpod

/-- A packet of the host, `192.168.0.5`, to a pod of another node. -/
def hostPacket : Packet Family.ip.Addr := ⟨(⟨0xc0a80005⟩ : IP4), (⟨0x0af40207⟩ : IP4), 0⟩

/-- The cluster network `10.244.0.0/16`. -/
def clusterNet : Family.ip.Net := (⟨⟨0x0af40000⟩, 16⟩ : IP4Net)

/-- The pod network `10.244.1.0/24` of the node. -/
def podNet : Family.ip.Net := (⟨⟨0x0af40100⟩, 24⟩ : IP4Net)

theorem podNet_subset : ∀ a, Family.ip.contains podNet a = true →
    Family.ip.contains clusterNet a = true := by
  intro a ha
  have hmask : (0xffff0000 : BitVec 32) = 0xffffff00 &&& 0xffff0000 := by decide
  have hpod : (0x0af40100 : BitVec 32) = (a : IP4).val &&& 0xffffff00 := beq_iff_eq.mp ha
  have hcluster : (0x0af40000 : BitVec 32) = (a : IP4).val &&& 0xffff0000 := by
    rw [hmask, ← BitVec.and_assoc, ← hpod]
    decide
  exact beq_iff_eq.mpr hcluster

/-- The two lists differ on it: `iptables` masquerades, `nft` does not. -/
theorem host_packet_is_disputed :
    ¬ ∀ (f : Family) (cluster pod : f.Net), f.prefixLen cluster ≤ f.width →
      f.prefixLen pod ≤ f.width →
      (∀ a, f.contains pod a = true → f.contains cluster a = true) →
      ∀ (disable supports fullyRandom : Bool) (p : Packet f.Addr),
        f.iptablesMasquerades cluster pod disable supports p =
          f.nftablesMasquerades cluster pod fullyRandom p := by
  intro h
  have hagree := h .ip clusterNet podNet (by decide) (by decide) podNet_subset false false false
    hostPacket
  rw [@iptablesMasquerades_eq .ip clusterNet podNet (by decide) (by decide),
    @nftablesMasquerades_eq .ip clusterNet podNet (by decide) (by decide) podNet_subset] at hagree
  revert hagree
  decide

/-- A packet of a pod to the outside is decided alike. -/
theorem masquerade_decisions_agree_outbound :
    ∃ b c, Family.ip.iptablesMasquerades clusterNet podNet false true
        ⟨(⟨0x0af40107⟩ : IP4), (⟨0x08080808⟩ : IP4), 0⟩ = some b ∧
      Family.ip.nftablesMasquerades clusterNet podNet true
        ⟨(⟨0x0af40107⟩ : IP4), (⟨0x08080808⟩ : IP4), 0⟩ = some c ∧ b = c := by
  obtain ⟨b, c, hb, hc, hiff⟩ := @masquerade_decisions_agree_iff .ip clusterNet podNet (by decide)
    (by decide) podNet_subset false true true ⟨(⟨0x0af40107⟩ : IP4), (⟨0x08080808⟩ : IP4), 0⟩
  exact ⟨b, c, hb, hc, hiff.mpr (by unfold Disputed; decide)⟩

/-- And it is masqueraded. -/
theorem masquerade_policy_outbound :
    Family.ip.iptablesMasquerades clusterNet podNet false true
        ⟨(⟨0x0af40107⟩ : IP4), (⟨0x08080808⟩ : IP4), 0⟩ = some true ∧
      Family.ip.nftablesMasquerades clusterNet podNet true
        ⟨(⟨0x0af40107⟩ : IP4), (⟨0x08080808⟩ : IP4), 0⟩ = some true := by
  obtain ⟨b, c, hb, hc, -, -, hout⟩ := @masquerade_policy .ip clusterNet podNet (by decide)
    (by decide) podNet_subset false true true ⟨(⟨0x0af40107⟩ : IP4), (⟨0x08080808⟩ : IP4), 0⟩
  obtain ⟨rfl, rfl⟩ := hout (by decide) (by decide) (by decide) (by decide)
  exact ⟨hb, hc⟩

end Family

end Flannel
