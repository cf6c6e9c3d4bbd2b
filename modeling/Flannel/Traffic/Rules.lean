import Flannel.Ip.Net

/-!
# The masquerade and forward rules

The rule builders of `trafficmngr`: the rule specs of `iptables_rules.rs`, lists of
arguments as the `iptables` program gets them, and the rule texts of
`nftables_masq.rs`, as the `nft` program reads them.  Both are built from the texts of
the cluster CIDR and of the pod CIDR; neither looks at the addresses.

Whether the `iptables` program knows `--random-fully` is found out by running it, so it
is an argument here, as it is in `masq_rules_with`.
-/

namespace Flannel

/-- `KUBE_PROXY_MARK`. -/
def kubeProxyMark : String := "0x4000/0x4000"

/-- `IPTablesRule`. -/
structure IPTablesRule where
  table : String
  action : String
  chain : String
  rulespec : List String
  deriving DecidableEq, Repr

/-! ## iptables -/

/-- `commented`: the match parts, with the tail that every rule carries. -/
def commented (parts : List String) (comment jump : String) : List String :=
  parts ++ ["-m", "comment", "--comment", comment, "-j", jump]

/-- `rule`. -/
def rule (table chain : String) (rulespec : List String) : IPTablesRule where
  table := table
  action := "-A"
  chain := chain
  rulespec := rulespec

/-- `masq_rules_with`. -/
def masqRulesWith (clusterCidr podCidr multicast : String)
    (ipMasqRandomFullyDisable supportsRandomFully : Bool) : List IPTablesRule :=
  let randomFully := supportsRandomFully && !ipMasqRandomFullyDisable
  let spec := fun (parts : List String) (jump : String) => commented parts "flanneld masq" jump
  -- the two masquerading rules are the only ones with a suffix
  let suffix := if randomFully then ["--random-fully"] else []
  [ rule "nat" "POSTROUTING" (spec [] "FLANNEL-POSTRTG"),
    rule "nat" "FLANNEL-POSTRTG" (spec ["-m", "mark", "--mark", kubeProxyMark] "RETURN"),
    rule "nat" "FLANNEL-POSTRTG" (spec ["-s", podCidr, "-d", clusterCidr] "RETURN"),
    rule "nat" "FLANNEL-POSTRTG" (spec ["-s", clusterCidr, "-d", podCidr] "RETURN"),
    rule "nat" "FLANNEL-POSTRTG" (spec ["!", "-s", clusterCidr, "-d", podCidr] "RETURN"),
    rule "nat" "FLANNEL-POSTRTG"
      (spec ["-s", clusterCidr, "!", "-d", multicast] "MASQUERADE" ++ suffix),
    rule "nat" "FLANNEL-POSTRTG"
      (spec ["!", "-s", clusterCidr, "-d", clusterCidr] "MASQUERADE" ++ suffix) ]

/-- `masq_rules`, for the pod CIDR of the own lease. -/
def masqRules (ccidr subnet : IP4Net) (disable supports : Bool) : List IPTablesRule :=
  masqRulesWith ccidr.toString subnet.toString "224.0.0.0/4" disable supports

/-- `masq_ip6_rules`, for the IPv6 pod CIDR of the own lease. -/
def masqIp6Rules (ccidr ipv6Subnet : IP6Net) (disable supports : Bool) : List IPTablesRule :=
  masqRulesWith ccidr.toString ipv6Subnet.toString "ff00::/8" disable supports

/-- `forward_rules`. -/
def forwardRules (flannelNetwork : String) : List IPTablesRule :=
  let spec := fun (parts : List String) (jump : String) => commented parts "flanneld forward" jump
  [ rule "filter" "FORWARD" (spec [] "FLANNEL-FWD"),
    rule "filter" "FLANNEL-FWD" (spec ["-s", flannelNetwork] "ACCEPT"),
    rule "filter" "FLANNEL-FWD" (spec ["-d", flannelNetwork] "ACCEPT") ]

/-! ## nftables -/

/-- `Family`. -/
inductive Family where
  | ip
  | ip6
  deriving DecidableEq, Repr

/-- `Family::as_str`. -/
def Family.asStr : Family → String
  | .ip => "ip"
  | .ip6 => "ip6"

/-- `concat`: the parts, joined with single spaces. -/
def concat (parts : List String) : String := " ".intercalate parts

/-- `MASQ_FULLY_RANDOM` and `MASQ_PLAIN`, by whether ports are randomised. -/
def masqStatement (fullyRandom : Bool) : String :=
  if fullyRandom then "masquerade fully-random" else "masquerade"

/-- `masq_rule_texts`. -/
def masqRuleTexts (clusterCidr podCidr family masquerade : String) : List String :=
  let multicastCidr := if family = Family.ip6.asStr then "ff00::/8" else "224.0.0.0/4"
  [ concat ["meta mark", "0x4000", "return"],
    concat [family, "saddr", podCidr, family, "daddr", clusterCidr, "return"],
    concat [family, "saddr", clusterCidr, family, "daddr", podCidr, "return"],
    concat [family, "saddr", "!=", podCidr, family, "daddr", clusterCidr, "return"],
    concat [family, "saddr", clusterCidr, family, "daddr", "!=", multicastCidr, masquerade],
    concat [family, "saddr", "!=", clusterCidr, family, "daddr", clusterCidr, masquerade] ]

end Flannel
