import Flannel.Traffic.IPTables
import Flannel.Traffic.MasqDecision

/-!
# The rules of the CNI plugin

`flannel-cni/src/masq.rs`: the plugin has a chain of its own, which it fills by running
`iptables` once for each step.  A rule is appended unless it is there already, so running
the plugin again changes nothing.

The chain has two rules, and both masquerade: traffic from the local subnet that leaves
the network, and traffic into the network *that does not come from the local subnet*.
The second one also takes what the pods of another node send to the pods of this one.
`flanneld` never masquerades traffic within the network that has an end in the local
subnet, so the two chains give a packet the same treatment only if it is the local pod
that sends it.
-/

namespace Flannel
namespace Cni

open Flannel.Filter

/-! ## Running iptables -/

/-- How a run of `iptables` fails; the plugin looks for one text among the others. -/
inductive ExecError where
  | chainAlreadyExists
  | failed
  deriving DecidableEq, Repr

/-- The kernel with these rules in a chain. -/
def setChain (k : Kernel) (table chain : String) (rules : List (List String)) : Kernel :=
  Function.update k table (Function.update (k table) chain (some rules))

/-- `exec`, for the arguments that the plugin uses. -/
def exec (k : Kernel) : List String → Except ExecError Kernel
  | ["-t", table, "-N", chain] =>
    if chainExists k table chain then .error .chainAlreadyExists else .ok (clearChain k table chain)
  | "-t" :: table :: "-C" :: chain :: rulespec =>
    if ruleExists k table chain rulespec then .ok k else .error .failed
  | "-t" :: table :: "-I" :: chain :: "1" :: rulespec =>
    match k table chain with
    | some rules => .ok (setChain k table chain (rulespec :: rules))
    | none => .error .failed
  | "-t" :: table :: "-A" :: chain :: rulespec =>
    match k table chain with
    | some rules => .ok (setChain k table chain (rules ++ [rulespec]))
    | none => .error .failed
  | _ => .error .failed

/-! ## The source's functions -/

/-- `CHAIN`. -/
def chain : String := "FLANNEL-POSTRTG-CHAIN-01"

/-- `COMMENT`. -/
def comment : String := "flannel masq"

/-- `ensure_chain`. -/
def ensureChain (k : Kernel) : Except ExecError Kernel :=
  match exec k ["-t", "nat", "-N", chain] with
  | .ok k => .ok k
  | .error .chainAlreadyExists => .ok k
  | .error e => .error e

/-- `ensure_masq_rule`. -/
def ensureMasqRule (k : Kernel) (matchSpec : List String) : Except ExecError Kernel :=
  let tail := ["-m", "comment", "--comment", comment, "-j", "MASQUERADE"]
  match exec k (["-t", "nat", "-C", chain] ++ matchSpec ++ tail) with
  | .ok k => .ok k
  | .error _ => exec k (["-t", "nat", "-A", chain] ++ matchSpec ++ tail)

/-- The first half of `masq_family`: the chain, and the jump to it. -/
def ensureJump (k : Kernel) : Except ExecError Kernel := do
  let k ← ensureChain k
  let jump := ["-m", "comment", "--comment", comment, "-j", chain]
  match exec k (["-t", "nat", "-C", "POSTROUTING"] ++ jump) with
  | .ok k => .ok k
  | .error _ => exec k (["-t", "nat", "-I", "POSTROUTING", "1"] ++ jump)

/-- `masq_family`. -/
def masqFamily (k : Kernel) (network subnet : String) : Except ExecError Kernel := do
  let k ← ensureJump k
  let k ← ensureMasqRule k ["-s", subnet, "!", "-d", network]
  ensureMasqRule k ["!", "-s", subnet, "-d", network]

/-! ## The chain it builds -/

/-- The spec of a rule of the chain. -/
def masqSpec (matchSpec : List String) : List String := commented matchSpec comment "MASQUERADE"

/-- The chain with a rule, which is appended unless it is there. -/
def withRule (rules : List (List String)) (spec : List String) : List (List String) :=
  if rules.contains spec then rules else rules ++ [spec]

theorem mem_withRule_iff {rules : List (List String)} {spec s : List String} :
    s ∈ withRule rules spec ↔ s ∈ rules ∨ s = spec := by
  unfold withRule
  split
  · rename_i hmem
    rw [List.contains_iff_mem] at hmem
    exact ⟨Or.inl, fun h => h.elim id fun h => h ▸ hmem⟩
  · rw [List.mem_append, List.mem_singleton]

section Chain

variable {k : Kernel} {rules : List (List String)}

theorem setChain_self (k : Kernel) (table chain : String) (rules : List (List String)) :
    setChain k table chain rules table chain = some rules := by
  simp [setChain]

theorem setChain_of_ne {c : String} (hne : c ≠ chain) (k : Kernel) (rules : List (List String)) :
    setChain k "nat" chain rules "nat" c = k "nat" c := by
  simp [setChain, hne]

/-- The chain exists, and the others are as they were. -/
theorem ensureChain_eq (k : Kernel) :
    ∃ k', ensureChain k = .ok k' ∧ k' "nat" chain = some ((k "nat" chain).getD []) ∧
      ∀ c, c ≠ chain → k' "nat" c = k "nat" c := by
  cases hc : k "nat" chain with
  | some rules =>
    refine ⟨k, ?_, hc, fun c _ => rfl⟩
    simp [ensureChain, exec, chainExists, hc]
  | none =>
    refine ⟨setChain k "nat" chain [], ?_, setChain_self _ _ _ _, fun c hne => ?_⟩
    · simp [ensureChain, exec, chainExists, hc, clearChain, setChain]
    · exact setChain_of_ne hne k []

/-- The jump is inserted into another chain. -/
theorem ensureJump_eq (hpost : (k "nat" "POSTROUTING").isSome = true) :
    ∃ k', ensureJump k = .ok k' ∧ k' "nat" chain = some ((k "nat" chain).getD []) := by
  obtain ⟨k₁, hk₁, hchain, hothers⟩ := ensureChain_eq k
  have hne : "POSTROUTING" ≠ chain := by decide
  obtain ⟨post, hpost⟩ := Option.isSome_iff_exists.mp (hothers _ hne ▸ hpost)
  unfold ensureJump
  simp only [hk₁, bind, Except.bind, exec, List.cons_append, List.nil_append]
  split
  · rename_i k' hcheck
    split at hcheck
    · cases hcheck
      exact ⟨k₁, rfl, hchain⟩
    · cases hcheck
  · rw [hpost]
    refine ⟨_, rfl, ?_⟩
    rw [← hchain, setChain]
    simp [hne.symm]

theorem ensureMasqRule_eq (h : k "nat" chain = some rules) (matchSpec : List String) :
    ∃ k', ensureMasqRule k matchSpec = .ok k' ∧
      k' "nat" chain = some (withRule rules (masqSpec matchSpec)) := by
  have hunfold : ensureMasqRule k matchSpec =
      match exec k ("-t" :: "nat" :: "-C" :: chain :: masqSpec matchSpec) with
      | .ok k => .ok k
      | .error _ => exec k ("-t" :: "nat" :: "-A" :: chain :: masqSpec matchSpec) := by
    simp only [ensureMasqRule, masqSpec, commented, List.cons_append, List.nil_append]
  rw [hunfold]
  by_cases hmem : masqSpec matchSpec ∈ rules
  · refine ⟨k, ?_, ?_⟩
    · simp [exec, ruleExists, h, hmem]
    · rw [withRule, if_pos (List.contains_iff_mem.mpr hmem), h]
  · refine ⟨setChain k "nat" chain (rules ++ [masqSpec matchSpec]), ?_, ?_⟩
    · simp [exec, ruleExists, h, hmem]
    · rw [withRule, if_neg (mt List.contains_iff_mem.mp hmem), setChain_self]

/-- **The chain after a run**: the two rules are there, and what was there before. -/
theorem masqFamily_chain (hpost : (k "nat" "POSTROUTING").isSome = true) (network subnet : String) :
    ∃ k', masqFamily k network subnet = .ok k' ∧
      k' "nat" chain = some (withRule
        (withRule ((k "nat" chain).getD []) (masqSpec ["-s", subnet, "!", "-d", network]))
        (masqSpec ["!", "-s", subnet, "-d", network])) := by
  obtain ⟨k₁, hk₁, hchain₁⟩ := ensureJump_eq hpost
  obtain ⟨k₂, hk₂, hchain₂⟩ := ensureMasqRule_eq hchain₁ ["-s", subnet, "!", "-d", network]
  obtain ⟨k₃, hk₃, hchain₃⟩ := ensureMasqRule_eq hchain₂ ["!", "-s", subnet, "-d", network]
  refine ⟨k₃, ?_, hchain₃⟩
  simp only [masqFamily, bind, Except.bind, hk₁, hk₂, hk₃]

end Chain

/-! ## Which packets the chain masquerades -/

section Decision

variable {α : Type} {net : String → Option (α → Bool)} {network subnet : String}
  {inNetwork inSubnet : α → Bool}

/-- A list of masquerading rules masquerades what one of them takes. -/
theorem masquerades_of_all {rules : List (Rule α)} (h : ∀ r ∈ rules, r.verdict = .masquerade)
    (p : Packet α) : masquerades rules p = rules.any fun r => r.takes p := by
  induction rules with
  | nil => rfl
  | cons r rules ih =>
    have hih := ih fun x hx => h x (List.mem_cons_of_mem _ hx)
    rw [masquerades] at hih ⊢
    rw [verdict, List.any_cons]
    cases hr : r.takes p with
    | true => simp [h r List.mem_cons_self]
    | false => simpa using hih

/-- The rule about traffic that leaves the network. -/
def outboundRule (inNetwork inSubnet : α → Bool) : Rule α :=
  ⟨[.src false inSubnet, .dst true inNetwork], .masquerade⟩

/-- The rule about traffic into the network. -/
def inboundRule (inNetwork inSubnet : α → Bool) : Rule α :=
  ⟨[.src true inSubnet, .dst false inNetwork], .masquerade⟩

theorem mapM_eq_some_map {β γ : Type} {read : β → Option γ} {g : β → γ} {xs : List β}
    (h : ∀ x ∈ xs, read x = some (g x)) : xs.mapM read = some (xs.map g) := by
  induction xs with
  | nil => rfl
  | cons x xs ih =>
    rw [List.mapM_cons, h x List.mem_cons_self, ih fun y hy => h y (List.mem_cons_of_mem _ hy)]
    rfl

/-- A chain that holds the two rules and nothing else, in any order and any number of copies,
masquerades what the one or the other takes. -/
theorem masquerades_specs {specs : List (List String)} (hnetwork : net network = some inNetwork)
    (hsubnet : net subnet = some inSubnet)
    (hspecs : ∀ s, s ∈ specs ↔ s = masqSpec ["-s", subnet, "!", "-d", network] ∨
      s = masqSpec ["!", "-s", subnet, "-d", network]) (p : Packet α) :
    ∃ rules, specs.mapM (readSpec net) = some rules ∧
      masquerades rules p =
        (inSubnet p.src && !inNetwork p.dst || !inSubnet p.src && inNetwork p.dst) := by
  have hout : readSpec net (masqSpec ["-s", subnet, "!", "-d", network]) =
      some (outboundRule inNetwork inSubnet) := by
    simp [masqSpec, commented, readSpec, hnetwork, hsubnet, Rule.also, outboundRule]
  have hin : readSpec net (masqSpec ["!", "-s", subnet, "-d", network]) =
      some (inboundRule inNetwork inSubnet) := by
    simp [masqSpec, commented, readSpec, hnetwork, hsubnet, Rule.also, inboundRule]
  let g : List String → Rule α := fun s => (readSpec net s).getD (outboundRule inNetwork inSubnet)
  have hread : ∀ s ∈ specs, readSpec net s = some (g s) := by
    intro s hs
    rcases (hspecs s).mp hs with rfl | rfl
    · simp [g, hout]
    · simp [g, hin]
  have hverdict : ∀ r ∈ specs.map g, r.verdict = .masquerade := by
    intro r hr
    obtain ⟨s, hs, rfl⟩ := List.mem_map.mp hr
    rcases (hspecs s).mp hs with rfl | rfl
    · simp [g, hout, outboundRule]
    · simp [g, hin, inboundRule]
  have hany : ((specs.map g).any fun r => r.takes p) =
      ((outboundRule inNetwork inSubnet).takes p || (inboundRule inNetwork inSubnet).takes p) := by
    rw [Bool.eq_iff_iff, List.any_map, List.any_eq_true, Bool.or_eq_true]
    simp only [hspecs, or_and_right, exists_or, exists_eq_left, Function.comp_apply, g, hout, hin,
      Option.getD_some]
  refine ⟨specs.map g, mapM_eq_some_map hread, ?_⟩
  rw [masquerades_of_all hverdict, hany]
  simp [Rule.takes, outboundRule, inboundRule, Test.holds]

end Decision

end Cni

/-! ## Both chains on one packet -/

namespace Family

open Flannel.Filter

/-- Whether the plugin's chain masquerades a packet, after a run of the plugin. -/
def cniMasquerades (f : Family) (k : Kernel) (network subnet : f.Net) (p : Packet f.Addr) :
    Option Bool :=
  match Cni.masqFamily k (f.netText network) (f.netText subnet) with
  | .ok after =>
    (((after "nat" Cni.chain).getD []).mapM (readSpec f.readNet)).map
      fun rules => masquerades rules p
  | .error _ => none

/-- The specs of the two rules. -/
def cniSpecs (f : Family) (network subnet : f.Net) : List (List String) :=
  [Cni.masqSpec ["-s", f.netText subnet, "!", "-d", f.netText network],
    Cni.masqSpec ["!", "-s", f.netText subnet, "-d", f.netText network]]

variable {f : Family} {network subnet : f.Net} {k : Kernel}

/-- The decision of the plugin's chain. -/
theorem cniMasquerades_eq (hnetwork : f.prefixLen network ≤ f.width)
    (hsubnet : f.prefixLen subnet ≤ f.width) (hpost : (k "nat" "POSTROUTING").isSome = true)
    (hchain : ∀ s ∈ (k "nat" Cni.chain).getD [], s ∈ f.cniSpecs network subnet)
    (p : Packet f.Addr) :
    f.cniMasquerades k network subnet p =
      some (f.contains subnet p.src && !f.contains network p.dst ||
        !f.contains subnet p.src && f.contains network p.dst) := by
  obtain ⟨k', hk', hrules⟩ := Cni.masqFamily_chain hpost (f.netText network) (f.netText subnet)
  have hspecs : ∀ s, s ∈ Cni.withRule
      (Cni.withRule ((k "nat" Cni.chain).getD [])
        (Cni.masqSpec ["-s", f.netText subnet, "!", "-d", f.netText network]))
      (Cni.masqSpec ["!", "-s", f.netText subnet, "-d", f.netText network]) ↔
      s = Cni.masqSpec ["-s", f.netText subnet, "!", "-d", f.netText network] ∨
        s = Cni.masqSpec ["!", "-s", f.netText subnet, "-d", f.netText network] := by
    intro s
    rw [Cni.mem_withRule_iff, Cni.mem_withRule_iff]
    have hold := hchain s
    simp only [cniSpecs, List.mem_cons, List.not_mem_nil, or_false] at hold
    tauto
  obtain ⟨rules, hmap, hdecision⟩ :=
    Cni.masquerades_specs (readNet_netText hnetwork) (readNet_netText hsubnet) hspecs p
  unfold cniMasquerades
  rw [hk']
  dsimp only
  rw [hrules, Option.getD_some, hmap, Option.map_some, hdecision]

/-- **Traffic within the network.**  For every network, every subnet and every packet within
the network: neither the chain of the CNI plugin nor that of `flanneld` masquerades the
packet if and only if the subnet sends it.  So of the packets that have an end in the subnet,
those that the subnet only receives are masqueraded. -/
theorem overlay_traffic_untouched_iff (hnetwork : f.prefixLen network ≤ f.width)
    (hsubnet : f.prefixLen subnet ≤ f.width) (hpost : (k "nat" "POSTROUTING").isSome = true)
    (hchain : ∀ s ∈ (k "nat" Cni.chain).getD [], s ∈ f.cniSpecs network subnet)
    (disable supports : Bool) (p : Packet f.Addr) (hsrc : f.contains network p.src = true)
    (hdst : f.contains network p.dst = true) :
    (f.cniMasquerades k network subnet p = some false ∧
      f.iptablesMasquerades network subnet disable supports p = some false) ↔
      f.contains subnet p.src = true := by
  rw [cniMasquerades_eq hnetwork hsubnet hpost hchain,
    iptablesMasquerades_eq hnetwork hsubnet disable supports p, hsrc, hdst]
  cases f.contains subnet p.src with
  | true => simp
  | false => simp

/-- A kernel with the built-in chain and nothing in it. -/
def freshKernel : Kernel := fun table chain =>
  if table = "nat" ∧ chain = "POSTROUTING" then some [] else none

/-- A local pod and a pod of another node. -/
def podToPod (src dst : BitVec 32) : Packet Family.ip.Addr := ⟨(⟨src⟩ : IP4), (⟨dst⟩ : IP4), 0⟩

/-- What a local pod sends to a pod of another node is left alone. -/
theorem overlay_traffic_untouched_sent :
    Family.ip.cniMasquerades freshKernel clusterNet podNet (podToPod 0x0af40107 0x0af40207) =
        some false ∧
      Family.ip.iptablesMasquerades clusterNet podNet false true
        (podToPod 0x0af40107 0x0af40207) = some false :=
  (@overlay_traffic_untouched_iff .ip clusterNet podNet freshKernel (by decide) (by decide)
    (by decide) (by decide) false true (podToPod 0x0af40107 0x0af40207) (by decide) (by decide)).mpr
    (by decide)

/-- What it receives from a pod of another node is masqueraded by the plugin's chain, and only
by that one. -/
theorem received_overlay_traffic_is_masqueraded :
    Family.ip.contains clusterNet (podToPod 0x0af40207 0x0af40107).src = true ∧
      Family.ip.contains podNet (podToPod 0x0af40207 0x0af40107).dst = true ∧
      Family.ip.cniMasquerades freshKernel clusterNet podNet (podToPod 0x0af40207 0x0af40107) =
        some true ∧
      Family.ip.iptablesMasquerades clusterNet podNet false true
        (podToPod 0x0af40207 0x0af40107) = some false := by
  refine ⟨by decide, by decide, ?_, ?_⟩
  · rw [@cniMasquerades_eq .ip clusterNet podNet freshKernel (by decide) (by decide) (by decide)
      (by decide)]
    decide
  · rw [@iptablesMasquerades_eq .ip clusterNet podNet (by decide) (by decide)]
    decide

end Family

end Flannel
