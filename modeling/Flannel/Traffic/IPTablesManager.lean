import Flannel.Lib.Run
import Flannel.Traffic.IPTables

/-!
# The life of the rules

`trafficmngr/iptables.rs` and the rest of `ip_tables.rs`: what a daemon does to the rules of
its chains when it starts, when its network or its subnet has changed since the last time, and
periodically afterwards; and what stays when others change the tables in between.

The masquerade rules and the forward rules have one shape: a jump from a builtin chain to a
chain of flannel's own, and the rules of this chain.  A `ChainPlan` is such a set of rules, and
everything is proved for plans.  The daemon never looks at the order of the rules when it
resyncs, and it deletes at most one copy of a rule; so what makes a resync restore exactly the
planned chain is that nobody else puts rules into it.  Rules that others take out, and whatever
they do elsewhere, do no harm.

A whole setup is one step here, and so is a whole round of a periodic task: nobody else changes
the tables between its commands.  A command of `iptables` or `iptables-restore` fails only for
what the tables hold.  A failure is logged, or ends the setup.  The periodic task runs
`ensure_iptables` and nothing else, so a round of it can come at any time between two steps.
-/

namespace Flannel

open Run

/-! ## The source's functions -/

/-- `ensure_iptables`. -/
def ensureIptables (k : Kernel) (rules : List IPTablesRule) : Option Kernel :=
  if ipTablesRulesExist k rules then some k else ipTablesBootstrap k rules

/-- The loop of `teardown_ip_tables`. -/
def teardownLoop (k : Kernel) (tablesRules : IPTablesRestoreRules) :
    List IPTablesRule → IPTablesRestoreRules
  | [] => tablesRules
  | r :: rules =>
    if flannelChainExists k r && ruleExists k r.table r.chain r.rulespec then
      teardownLoop k (SortedMap.upsert
        (fun entry => entry.getD [] ++ [withPrefix "-D" r.chain r.rulespec]) r.table tablesRules)
        rules
    else
      teardownLoop k tablesRules rules

/-- `teardown_ip_tables`, and `delete_tables`. -/
def teardownIpTables (k : Kernel) (rules : List IPTablesRule) : Option Kernel :=
  applyWithoutFlush k (teardownLoop k [] rules)

/-- `create_chain`. -/
def createChain (k : Kernel) (table chain : String) : Kernel := clearChain k table chain

/-- What `setup_and_ensure` does to the kernel before it starts the periodic task; a failure is
logged, and leaves the chains that were created. -/
def setupAndEnsure (k : Kernel) (rules : List IPTablesRule) : Kernel :=
  (ipTablesBootstrap k rules).getD (ipTablesCleanAndBuild k rules).1

/-- A round of the periodic task of `spawn_resync`; a failure is logged. -/
def resyncRound (k : Kernel) (rules : List IPTablesRule) : Kernel :=
  (ensureIptables k rules).getD (ipTablesCleanAndBuild k rules).1

/-- The part of `setup_and_ensure_masq_rules` for one family: `none` when the recycling of the
old rules fails, which ends the setup. -/
def setupMasqRules (k : Kernel) (recycle : Bool) (old rules : List IPTablesRule) :
    Option Kernel := do
  let k ← if recycle then teardownIpTables k old else some k
  return setupAndEnsure (createChain k "nat" "FLANNEL-POSTRTG") rules

/-- `setup_and_ensure_masq_rules`: the tables of both families, and whether it succeeds. -/
def setupAndEnsureMasqRules (k k6 : Kernel) (network prevSubnet prevNetwork : IP4Net)
    (v6Network prevV6Subnet prevV6Network : IP6Net) (subnet : IP4Net) (ipv6Subnet : IP6Net)
    (disable supports supports6 : Bool) : Bool × Kernel × Kernel :=
  let v4 :=
    if network.empty then some k
    else setupMasqRules k (network ≠ prevNetwork ∨ prevSubnet ≠ subnet)
      (masqRules prevNetwork prevSubnet disable supports)
      (masqRules network subnet disable supports)
  match v4 with
  | none => (false, k, k6)
  | some k =>
    let v6 :=
      if v6Network.empty then some k6
      else setupMasqRules k6 (v6Network ≠ prevV6Network ∨ prevV6Subnet ≠ ipv6Subnet)
        (masqIp6Rules prevV6Network prevV6Subnet disable supports6)
        (masqIp6Rules v6Network ipv6Subnet disable supports6)
    match v6 with
    | none => (false, k, k6)
    | some k6 => (true, k, k6)

/-- The part of `setup_and_ensure_forward_rules` for one family. -/
def setupForwardRules (k : Kernel) (flannelNetwork : String) : Kernel :=
  setupAndEnsure (createChain k "filter" "FLANNEL-FWD") (forwardRules flannelNetwork)

/-! ## Plans -/

/-- A jump from a builtin chain to a chain of flannel's own, and the rules of this chain. -/
structure ChainPlan where
  table : String
  builtin : String
  own : String
  jump : List String
  body : List (List String)
  deriving DecidableEq

namespace ChainPlan

/-- The rules of a plan, the jump first. -/
def rules (p : ChainPlan) : List IPTablesRule :=
  rule p.table p.builtin p.jump :: p.body.map (rule p.table p.own)

/-- The own chain is one of flannel's, and `flannel_chain` recognises all rules of the plan. -/
structure Shaped (p : ChainPlan) : Prop where
  own : isFlannelChain p.own = true
  builtin : isFlannelChain p.builtin = false
  jump : flannelChain (rule p.table p.builtin p.jump) = some p.own
  body : ∀ spec ∈ p.body, flannelChain (rule p.table p.own spec) = some p.own

/-- And no rule is there twice. -/
structure Valid (p : ChainPlan) : Prop extends Shaped p where
  nodup : p.body.Nodup

end ChainPlan

/-- The plan of the masquerade rules. -/
def masqPlan (clusterCidr podCidr multicast : String) (disable supports : Bool) : ChainPlan where
  table := "nat"
  builtin := "POSTROUTING"
  own := "FLANNEL-POSTRTG"
  jump := commented [] "flanneld masq" "FLANNEL-POSTRTG"
  body := (masqRulesWith clusterCidr podCidr multicast disable supports).tail.map (·.rulespec)

/-- The plan of the forward rules. -/
def forwardPlan (flannelNetwork : String) : ChainPlan where
  table := "filter"
  builtin := "FORWARD"
  own := "FLANNEL-FWD"
  jump := commented [] "flanneld forward" "FLANNEL-FWD"
  body := (forwardRules flannelNetwork).tail.map (·.rulespec)

theorem masqPlan_rules (clusterCidr podCidr multicast : String) (disable supports : Bool) :
    (masqPlan clusterCidr podCidr multicast disable supports).rules =
      masqRulesWith clusterCidr podCidr multicast disable supports := rfl

theorem valid_forwardPlan (flannelNetwork : String) : (forwardPlan flannelNetwork).Valid where
  own := rfl
  builtin := rfl
  jump := rfl
  body := by
    intro spec hspec
    simp [flannelChain, forwardPlan, rule]
  nodup := by
    simp [forwardPlan, forwardRules, rule, commented]

theorem shaped_masqPlan (clusterCidr podCidr multicast : String) (disable supports : Bool) :
    (masqPlan clusterCidr podCidr multicast disable supports).Shaped where
  own := rfl
  builtin := rfl
  jump := rfl
  body := by
    intro spec hspec
    simp only [masqPlan, masqRulesWith, rule, commented, List.tail_cons, List.map_cons,
      List.map_nil, List.mem_cons, List.not_mem_nil, or_false] at hspec
    cases hsuffix : supports && !disable with
    | true =>
      rw [hsuffix] at hspec
      rcases hspec with rfl | rfl | rfl | rfl | rfl | rfl
      all_goals simp [flannelChain, masqPlan, rule]
    | false =>
      rw [hsuffix] at hspec
      rcases hspec with rfl | rfl | rfl | rfl | rfl | rfl
      all_goals simp [flannelChain, masqPlan, rule]

theorem valid_masqPlan {clusterCidr podCidr : String} (hne : podCidr ≠ clusterCidr)
    (multicast : String) (disable supports : Bool) :
    (masqPlan clusterCidr podCidr multicast disable supports).Valid where
  toShaped := shaped_masqPlan _ _ _ _ _
  nodup := by
    have hne' : clusterCidr ≠ podCidr := Ne.symm hne
    cases hsuffix : supports && !disable with
    | true => simp [masqPlan, masqRulesWith, rule, commented, kubeProxyMark, hsuffix, hne, hne']
    | false => simp [masqPlan, masqRulesWith, rule, commented, kubeProxyMark, hsuffix, hne, hne']

/-! ## Building and tearing down -/

/-- **The rebuilt tables.**  What `ip_tables_bootstrap` leaves, in terms of the kernel with the
chains that were created. -/
theorem exists_bootstrap {k : Kernel} {rules : List IPTablesRule} (hnodup : rules.Nodup)
    (haction : ∀ r ∈ rules, r.action = "-A")
    (hflannel : ∀ r ∈ rules, isFlannelChain r.chain = true → flannelChain r = some r.chain)
    (hbuiltin : ∀ r ∈ rules, isFlannelChain r.chain = false →
      chainExists k r.table r.chain = true) :
    ∃ k₁ : Kernel, (∀ table chain, (k₁ table chain).getD [] = (k table chain).getD []) ∧
      (∀ table chain, (k₁ table chain).isSome = true ↔ (k table chain).isSome = true ∨
        ∃ r ∈ rules, r.table = table ∧ flannelChain r = some chain) ∧
      ipTablesBootstrap k rules =
        some fun table => rebuilt (rules.filter fun r => r.table = table) (k₁ table) := by
  obtain ⟨hget, hsome, hsorted, hlines⟩ := cleanAndBuildLoop_spec k SortedMap.sorted_nil rules
  generalize hbuilt : cleanAndBuildLoop k [] rules = built at hget hsome hsorted hlines
  obtain ⟨k₁, m⟩ := built
  refine ⟨k₁, hget, hsome, ?_⟩
  unfold ipTablesBootstrap ipTablesCleanAndBuild
  rw [hbuilt]
  refine applyWithoutFlush_eq hsorted fun table => ?_
  have hmem : ∀ r ∈ rules.filter (fun r => r.table = table), r ∈ rules ∧ r.table = table := by
    intro r hr
    simpa using hr
  have hthere : ∀ r ∈ rules.filter (fun r => r.table = table),
      (k₁ table r.chain).isSome = true := by
    intro r hr
    obtain ⟨hrule, rfl⟩ := hmem r hr
    rw [hsome]
    cases hown : isFlannelChain r.chain with
    | true => exact Or.inr ⟨r, hrule, rfl, hflannel r hrule hown⟩
    | false => exact Or.inl (hbuiltin r hrule hown)
  have hchain := @execLines_chain k table (k₁ table) [] (rules.filter fun r => r.table = table)
    (hnodup.filter _) (fun r hr => ⟨(hmem r hr).2, haction r (hmem r hr).1⟩) hthere
    (fun chain => (hget table chain).symm)
  rw [rebuilt_nil] at hchain
  rw [hlines]
  exact hchain

/-- The rules that a teardown deletes. -/
def present (k : Kernel) (rules : List IPTablesRule) : List IPTablesRule :=
  rules.filter fun r => flannelChainExists k r && ruleExists k r.table r.chain r.rulespec

theorem teardownLoop_spec (k : Kernel) {m : IPTablesRestoreRules} (hm : SortedMap.Sorted m)
    (rules : List IPTablesRule) :
    SortedMap.Sorted (teardownLoop k m rules) ∧
      ∀ table, (SortedMap.get (teardownLoop k m rules) table).getD [] =
        (SortedMap.get m table).getD [] ++ (((present k rules).filter fun r => r.table = table).map
          fun r => withPrefix "-D" r.chain r.rulespec) := by
  induction rules generalizing m with
  | nil => simp [teardownLoop, present, hm]
  | cons r rules ih =>
    by_cases hthere : (flannelChainExists k r && ruleExists k r.table r.chain r.rulespec) = true
    · have hpresent : present k (r :: rules) = r :: present k rules :=
        List.filter_cons_of_pos hthere
      obtain ⟨hsorted, hlines⟩ := ih (hm.upsert
        (fun entry => entry.getD [] ++ [withPrefix "-D" r.chain r.rulespec]) r.table)
      rw [teardownLoop, if_pos hthere, hpresent]
      refine ⟨hsorted, fun table => ?_⟩
      rw [hlines, SortedMap.get_upsert hm]
      by_cases ht : table = r.table
      · subst ht
        simp
      · simp [ht, Ne.symm ht]
    · have hpresent : present k (r :: rules) = present k rules := List.filter_cons_of_neg hthere
      rw [teardownLoop, if_neg hthere, hpresent]
      exact ih hm

/-- Deleting distinct rules that are all there. -/
theorem execLines_deletes {t : Table} {rules : List IPTablesRule}
    (hnodup : (rules.map fun r => (r.chain, r.rulespec)).Nodup)
    (hthere : ∀ r ∈ rules, ∃ init, t r.chain = some init ∧ r.rulespec ∈ init) :
    execLines t (rules.map fun r => withPrefix "-D" r.chain r.rulespec) =
      some fun chain => (t chain).map fun init => init.diff (specsOf rules chain) := by
  induction rules generalizing t with
  | nil =>
    simp only [List.map_nil, execLines, specsOf, List.filter_nil, List.diff_nil, Option.some.injEq]
    funext chain
    cases t chain with
    | none => rfl
    | some init => rfl
  | cons r rules ih =>
    obtain ⟨init, hinit, hmem⟩ := hthere r List.mem_cons_self
    rw [List.map_cons, List.nodup_cons] at hnodup
    have hline : execLine t (withPrefix "-D" r.chain r.rulespec) =
        some (Function.update t r.chain (some (init.erase r.rulespec))) := by
      simp [execLine, withPrefix, hinit, hmem]
    rw [List.map_cons, execLines, hline, Option.bind_some, ih hnodup.2]
    · congr 1
      funext chain
      by_cases hc : chain = r.chain
      · subst hc
        simp [specsOf, hinit, List.diff_cons]
      · rw [Function.update_of_ne hc]
        simp [specsOf, Ne.symm hc]
    · intro r' hr'
      obtain ⟨init', hinit', hmem'⟩ := hthere r' (List.mem_cons_of_mem _ hr')
      by_cases hc : r'.chain = r.chain
      · refine ⟨init.erase r.rulespec, by rw [hc, Function.update_self], ?_⟩
        rw [hc, hinit] at hinit'
        cases hinit'
        refine (List.mem_erase_of_ne fun hspec => hnodup.1 ?_).mpr hmem'
        exact List.mem_map.mpr ⟨r', hr', by rw [hc, hspec]⟩
      · exact ⟨init', by rw [Function.update_of_ne hc]; exact hinit', hmem'⟩

theorem diff_eq_nil_of_sublist {l m : List (List String)} (h : l.Sublist m) : l.diff m = [] := by
  have hself : m.diff m = [] := by
    induction m generalizing l with
    | nil => rfl
    | cons a m ih =>
      rw [List.diff_cons, List.erase_cons_head]
      exact ih (List.Sublist.refl m)
  have hdiff : (l.diff m).Sublist (m.diff m) := h.diff_right
  rw [hself] at hdiff
  exact List.sublist_nil.mp hdiff

/-- Two chains with the same contents, of which both exist or none. -/
theorem eq_of_getD {a b : Option (List (List String))} (hget : a.getD [] = b.getD [])
    (hsome : a.isSome = true ↔ b.isSome = true) : a = b := by
  cases a with
  | none =>
    cases b with
    | none => rfl
    | some y => simp at hsome
  | some x =>
    cases b with
    | none => simp at hsome
    | some y => exact congrArg some hget

namespace ChainPlan

section Plan

variable {p : ChainPlan} {k : Kernel}

theorem Shaped.builtin_ne (hv : p.Shaped) : p.builtin ≠ p.own := by
  intro heq
  have hown := hv.own
  rw [← heq, hv.builtin] at hown
  cases hown

theorem Valid.nodup_rules (hv : p.Valid) : p.rules.Nodup := by
  refine List.nodup_cons.mpr ⟨fun hmem => ?_, ?_⟩
  · obtain ⟨spec, -, heq⟩ := List.mem_map.mp hmem
    exact hv.builtin_ne (congrArg IPTablesRule.chain heq).symm
  · exact List.Nodup.map (fun spec spec' heq => congrArg IPTablesRule.rulespec heq) hv.nodup

theorem table_of_mem {r : IPTablesRule} (hr : r ∈ p.rules) : r.table = p.table := by
  rcases List.mem_cons.mp hr with rfl | hr
  · rfl
  · obtain ⟨spec, -, rfl⟩ := List.mem_map.mp hr
    rfl

theorem specsOf_own (hv : p.Shaped) : specsOf p.rules p.own = p.body := by
  simp [specsOf, rules, rule, hv.builtin_ne, List.filter_map, Function.comp_def]

theorem specsOf_builtin (hv : p.Shaped) : specsOf p.rules p.builtin = [p.jump] := by
  simp [specsOf, rules, rule, hv.builtin_ne.symm, List.filter_map, Function.comp_def]

theorem specsOf_other {chain : String} (hown : chain ≠ p.own) (hbuiltin : chain ≠ p.builtin) :
    specsOf p.rules chain = [] := by
  simp [specsOf, rules, rule, hown.symm, hbuiltin.symm, List.filter_map, Function.comp_def]

theorem filter_rules (table : String) :
    p.rules.filter (fun r => r.table = table) = if table = p.table then p.rules else [] := by
  by_cases ht : table = p.table
  · rw [if_pos ht, List.filter_eq_self]
    intro r hr
    rw [decide_eq_true_eq, table_of_mem hr, ht]
  · rw [if_neg ht, List.filter_eq_nil_iff]
    intro r hr
    rw [decide_eq_true_eq, table_of_mem hr]
    exact Ne.symm ht

/-- Nothing changes outside of the chains of a plan. -/
def Elsewhere (p : ChainPlan) (k k' : Kernel) : Prop :=
  ∀ table chain, ¬ (table = p.table ∧ (chain = p.own ∨ chain = p.builtin)) →
    k' table chain = k table chain

/-- **Setting up a plan.** -/
theorem exists_bootstrap_plan (hv : p.Valid) {init : List (List String)}
    (hinit : k p.table p.builtin = some init) :
    ∃ k', ipTablesBootstrap k p.rules = some k' ∧
      k' p.table p.own = some (((k p.table p.own).getD []).diff p.body ++ p.body) ∧
      k' p.table p.builtin = some (init.erase p.jump ++ [p.jump]) ∧ Elsewhere p k k' := by
  have hflannel : ∀ r ∈ p.rules, flannelChain r = some p.own := by
    intro r hr
    rcases List.mem_cons.mp hr with rfl | hr
    · exact hv.jump
    · obtain ⟨spec, hspec, rfl⟩ := List.mem_map.mp hr
      exact hv.body spec hspec
  have hchain : ∀ r ∈ p.rules, r.chain = p.builtin ∨ r.chain = p.own := by
    intro r hr
    rcases List.mem_cons.mp hr with rfl | hr
    · exact Or.inl rfl
    · obtain ⟨spec, -, rfl⟩ := List.mem_map.mp hr
      exact Or.inr rfl
  obtain ⟨k₁, hget, hsome, hrun⟩ := @exists_bootstrap k _ hv.nodup_rules
    (fun r hr => by
      rcases List.mem_cons.mp hr with rfl | hr
      · rfl
      · obtain ⟨spec, -, rfl⟩ := List.mem_map.mp hr
        rfl)
    (fun r hr hown => by
      rcases hchain r hr with hc | hc
      · rw [hc, hv.builtin] at hown
        cases hown
      · rw [hflannel r hr, hc])
    (fun r hr hown => by
      rcases hchain r hr with hc | hc
      · rw [chainExists, table_of_mem hr, hc, hinit]
        rfl
      · rw [hc, hv.own] at hown
        cases hown)
  refine ⟨_, hrun, ?_, ?_, fun table chain hother => ?_⟩
  · have hthere : (k₁ p.table p.own).isSome = true :=
      (hsome _ _).mpr (Or.inr ⟨_, List.mem_cons_self, rfl, hv.jump⟩)
    obtain ⟨own, hown⟩ := Option.isSome_iff_exists.mp hthere
    have hcontents := hget p.table p.own
    rw [hown, Option.getD_some] at hcontents
    rw [filter_rules, if_pos rfl, rebuilt, hown, Option.map_some, specsOf_own hv.toShaped,
      hcontents]
  · have hbuiltin : k₁ p.table p.builtin = some init := by
      rw [← hinit]
      refine eq_of_getD (hget _ _) ((hsome _ _).trans ⟨?_, Or.inl⟩)
      rintro (h | ⟨r, -, -, -⟩)
      · exact h
      · rw [hinit]
        rfl
    rw [filter_rules, if_pos rfl, rebuilt, hbuiltin, Option.map_some,
      specsOf_builtin hv.toShaped,
      List.diff_cons, List.diff_nil]
  · have hsame : k₁ table chain = k table chain := by
      refine eq_of_getD (hget _ _) ((hsome _ _).trans ⟨?_, Or.inl⟩)
      rintro (h | ⟨r, hr, ht, hf⟩)
      · exact h
      · rw [hflannel r hr] at hf
        cases hf
        exact absurd ⟨ht.symm.trans (table_of_mem hr), Or.inl rfl⟩ hother
    dsimp only
    rw [filter_rules]
    split
    · rename_i ht
      have hspecs : specsOf p.rules chain = [] :=
        specsOf_other (fun hc => hother ⟨ht, Or.inl hc⟩) (fun hc => hother ⟨ht, Or.inr hc⟩)
      rw [rebuilt, hspecs, hsame]
      cases k table chain with
      | none => rfl
      | some init => simp
    · rw [rebuilt_nil, hsame]

/-- **Tearing a plan down.**  The chain loses rules, and the builtin chain at most the jump.  The
rules may repeat themselves, if those that do are not there. -/
theorem exists_teardown_plan (hv : p.Shaped) (hnodup : (present k p.rules).Nodup)
    {init : List (List String)} (hinit : k p.table p.builtin = some init) :
    ∃ k', teardownIpTables k p.rules = some k' ∧
      (k' p.table p.builtin = some init ∨ k' p.table p.builtin = some (init.erase p.jump)) ∧
      Elsewhere p k k' := by
  obtain ⟨hsorted, hlines⟩ := teardownLoop_spec k SortedMap.sorted_nil p.rules
  have hsub : ∀ table, ((present k p.rules).filter fun r => r.table = table).Sublist p.rules :=
    fun table => List.filter_sublist.trans List.filter_sublist
  let k' : Kernel := fun table chain => (k table chain).map fun init =>
    init.diff (specsOf ((present k p.rules).filter fun r => r.table = table) chain)
  have hspecs : ∀ table chain,
      (specsOf ((present k p.rules).filter fun r => r.table = table) chain).Sublist
        (specsOf p.rules chain) :=
    fun table chain => ((hsub table).filter _).map _
  refine ⟨k', applyWithoutFlush_eq hsorted fun table => ?_, ?_, fun table chain hother => ?_⟩
  · rw [hlines, SortedMap.get, Option.getD_none, List.nil_append]
    refine execLines_deletes ?_ fun r hr => ?_
    · -- rules of one table that differ, differ in the chain or in the spec
      refine List.Nodup.map_on ?_ (hnodup.sublist List.filter_sublist)
      intro r hr r' hr' heq
      have hr₁ := (hsub table).subset hr
      have hr₂ := (hsub table).subset hr'
      have hall : ∀ r ∈ p.rules, r = rule p.table r.chain r.rulespec := by
        intro r hr
        rcases List.mem_cons.mp hr with rfl | hr
        · rfl
        · obtain ⟨spec, -, rfl⟩ := List.mem_map.mp hr
          rfl
      rw [hall r hr₁, hall r' hr₂]
      rw [Prod.mk.injEq] at heq
      rw [heq.1, heq.2]
    · rw [List.mem_filter, decide_eq_true_eq, present, List.mem_filter, Bool.and_eq_true] at hr
      obtain ⟨⟨-, -, hexists⟩, rfl⟩ := hr
      unfold ruleExists at hexists
      cases hc : k r.table r.chain with
      | none => simp [hc] at hexists
      | some own =>
        rw [hc, Option.getD_some] at hexists
        exact ⟨own, rfl, List.contains_iff_mem.mp hexists⟩
  · have hjump := hspecs p.table p.builtin
    rw [specsOf_builtin hv] at hjump
    rcases List.sublist_singleton.mp hjump with hnil | hone
    · exact Or.inl (by simp [k', hinit, hnil])
    · exact Or.inr (by simp [k', hinit, hone, List.diff_cons])
  · have hnil : specsOf ((present k p.rules).filter fun r => r.table = table) chain = [] := by
      by_cases ht : table = p.table
      · have hle := hspecs table chain
        rw [specsOf_other (fun hc => hother ⟨ht, Or.inl hc⟩)
          fun hc => hother ⟨ht, Or.inr hc⟩] at hle
        exact List.sublist_nil.mp hle
      · have hempty : (present k p.rules).filter (fun r => r.table = table) = [] := by
          rw [List.filter_eq_nil_iff]
          intro r hr
          rw [decide_eq_true_eq, table_of_mem (List.mem_filter.mp hr).1]
          exact Ne.symm ht
        rw [hempty]
        rfl
    show (k table chain).map _ = k table chain
    rw [hnil]
    cases k table chain with
    | none => rfl
    | some init => simp

/-! ## Healing -/

/-- The rules of the builtin chain that are not the jump. -/
def foreign (p : ChainPlan) (k : Kernel) : List (List String) :=
  ((k p.table p.builtin).getD []).filter fun spec => spec ≠ p.jump

/-- The builtin chain is there, and jumps to the own chain at most once. -/
def JumpsOnce (p : ChainPlan) (k : Kernel) : Prop :=
  ∃ init, k p.table p.builtin = some init ∧ init.count p.jump ≤ 1

/-- The own chain holds exactly the rules of the plan, and the builtin chain jumps to it exactly
once. -/
structure Healed (p : ChainPlan) (k : Kernel) : Prop where
  own : k p.table p.own = some p.body
  jump : ∃ init, k p.table p.builtin = some init ∧ init.count p.jump = 1

/-- What a step of the daemon leaves alone: all other chains, and the rules of others in the
builtin chain, in their order. -/
structure Leaves (p : ChainPlan) (k k' : Kernel) : Prop where
  elsewhere : Elsewhere p k k'
  foreign : p.foreign k' = p.foreign k

theorem Healed.jumpsOnce (h : Healed p k) : JumpsOnce p k := by
  obtain ⟨init, hinit, hcount⟩ := h.jump
  exact ⟨init, hinit, Nat.le_of_eq hcount⟩

theorem filter_erase_jump (init : List (List String)) (jump : List String) :
    (init.erase jump).filter (fun spec => spec ≠ jump) = init.filter fun spec => spec ≠ jump := by
  induction init with
  | nil => rfl
  | cons spec init ih =>
    by_cases hspec : spec = jump
    · subst hspec
      rw [List.erase_cons_head, List.filter_cons_of_neg (by simp)]
    · rw [List.erase_cons_tail (by simpa using hspec),
        List.filter_cons_of_pos (by simpa using hspec),
        List.filter_cons_of_pos (by simpa using hspec), ih]

/-- **Building heals**, when the own chain only holds rules of the plan. -/
theorem healed_bootstrap (hv : p.Valid) (hjump : JumpsOnce p k)
    (hown : ((k p.table p.own).getD []).Sublist p.body) :
    ∃ k', ipTablesBootstrap k p.rules = some k' ∧ Healed p k' ∧ Leaves p k k' := by
  obtain ⟨init, hinit, hcount⟩ := hjump
  obtain ⟨k', hrun, hbody, hbuiltin, helse⟩ := exists_bootstrap_plan hv hinit
  rw [diff_eq_nil_of_sublist hown, List.nil_append] at hbody
  refine ⟨k', hrun, ⟨hbody, _, hbuiltin, ?_⟩, helse, ?_⟩
  · rw [List.count_append, List.count_erase_self, List.count_singleton_self]
    omega
  · unfold foreign
    rw [hbuiltin, hinit, Option.getD_some, Option.getD_some, List.filter_append, filter_erase_jump]
    simp

/-- **A resync heals**: it finds the rules missing and builds them, or they are all there, and
then the own chain holds them in their order. -/
theorem healed_resync (hv : p.Valid) (hjump : JumpsOnce p k)
    (hown : ((k p.table p.own).getD []).Sublist p.body) :
    Healed p (resyncRound k p.rules) ∧ Leaves p k (resyncRound k p.rules) := by
  by_cases hexist : ipTablesRulesExist k p.rules = true
  · have hsame : resyncRound k p.rules = k := by
      rw [resyncRound, ensureIptables, if_pos hexist, Option.getD_some]
    rw [hsame]
    refine ⟨?_, fun _ _ _ => rfl, rfl⟩
    obtain ⟨init, hinit, hcount⟩ := hjump
    have hall : ∀ r ∈ p.rules, flannelChainExists k r = true ∧
        ruleExists k r.table r.chain r.rulespec = true := by
      intro r hr
      simpa using List.all_eq_true.mp hexist r hr
    obtain ⟨hchain, hjump⟩ := hall _ List.mem_cons_self
    rw [flannelChainExists, hv.jump] at hchain
    obtain ⟨own, hownsome⟩ := Option.isSome_iff_exists.mp hchain
    have htable : k p.table p.own = some own := hownsome
    rw [htable, Option.getD_some] at hown
    have hsubset : p.body ⊆ own := by
      intro spec hspec
      obtain ⟨-, hthere⟩ := hall (rule p.table p.own spec)
        (List.mem_cons_of_mem _ (List.mem_map_of_mem hspec))
      rw [ruleExists] at hthere
      change ((k p.table p.own).getD []).contains spec = true at hthere
      rw [htable, Option.getD_some] at hthere
      exact List.contains_iff_mem.mp hthere
    -- a part of a list without repetitions that has all its elements is the list
    have hbody : own = p.body :=
      hown.eq_of_length_le (List.Nodup.length_le_of_subset hv.nodup hsubset)
    refine ⟨by rw [htable, hbody], init, hinit, Nat.le_antisymm hcount ?_⟩
    have hmem : ((k p.table p.builtin).getD []).contains p.jump = true := hjump
    rw [hinit, Option.getD_some] at hmem
    exact List.one_le_count_iff.mpr (List.contains_iff_mem.mp hmem)
  · obtain ⟨k', hrun, hhealed⟩ := healed_bootstrap hv hjump hown
    have heq : resyncRound k p.rules = k' := by
      rw [resyncRound, ensureIptables, if_neg hexist, hrun, Option.getD_some]
    rw [heq]
    exact hhealed

/-- A resync of healed chains does nothing. -/
theorem resync_of_healed (hv : p.Valid) (h : Healed p k) : resyncRound k p.rules = k := by
  have hexist : ipTablesRulesExist k p.rules = true := by
    refine List.all_eq_true.mpr fun r hr => ?_
    obtain ⟨init, hinit, hcount⟩ := h.jump
    rw [Bool.and_eq_true]
    rcases List.mem_cons.mp hr with rfl | hr
    · refine ⟨?_, ?_⟩
      · rw [flannelChainExists, hv.jump]
        show (k p.table p.own).isSome = true
        rw [h.own]
        rfl
      · show ((k p.table p.builtin).getD []).contains p.jump = true
        rw [hinit, Option.getD_some]
        exact List.contains_iff_mem.mpr (List.one_le_count_iff.mp (Nat.le_of_eq hcount.symm))
    · obtain ⟨spec, hspec, rfl⟩ := List.mem_map.mp hr
      refine ⟨?_, ?_⟩
      · rw [flannelChainExists, hv.body spec hspec]
        show (k p.table p.own).isSome = true
        rw [h.own]
        rfl
      · show ((k p.table p.own).getD []).contains spec = true
        rw [h.own, Option.getD_some]
        exact List.contains_iff_mem.mpr hspec
  rw [resyncRound, ensureIptables, if_pos hexist, Option.getD_some]

/-- **A fresh chain is set up.**  Whatever the own chain held, `create_chain` empties it. -/
theorem healed_setup (hv : p.Valid) (hjump : JumpsOnce p k) :
    Healed p (setupAndEnsure (createChain k p.table p.own) p.rules) ∧
      Leaves p k (setupAndEnsure (createChain k p.table p.own) p.rules) := by
  have hbuiltin : createChain k p.table p.own p.table p.builtin = k p.table p.builtin := by
    rw [createChain, clearChain, Function.update_self, Function.update_of_ne hv.builtin_ne]
  have hclear : createChain k p.table p.own p.table p.own = some [] := by
    rw [createChain, clearChain, Function.update_self, Function.update_self]
  have helse : Elsewhere p k (createChain k p.table p.own) := by
    intro table chain hother
    by_cases ht : table = p.table
    · have hc : chain ≠ p.own := fun hc => hother ⟨ht, Or.inl hc⟩
      rw [createChain, clearChain, ht, Function.update_self, Function.update_of_ne hc]
    · rw [createChain, clearChain, Function.update_of_ne ht]
  have hjump' : JumpsOnce p (createChain k p.table p.own) := by
    obtain ⟨init, hinit, hcount⟩ := hjump
    exact ⟨init, hbuiltin.trans hinit, hcount⟩
  obtain ⟨k', hrun, hhealed, helse', hforeign⟩ := healed_bootstrap hv hjump' (by simp [hclear])
  have heq : setupAndEnsure (createChain k p.table p.own) p.rules = k' := by
    rw [setupAndEnsure, hrun, Option.getD_some]
  rw [heq]
  refine ⟨hhealed, fun table chain hother => ?_, ?_⟩
  · rw [helse' table chain hother, helse table chain hother]
  · rw [hforeign, foreign, hbuiltin, foreign]

end Plan

end ChainPlan

/-! ## The life of the rules -/

/-- What the masquerade rules are set up with: the texts of the network and of the subnet, those
of the last time, and whether to recycle the old rules. -/
structure MasqStart where
  clusterCidr : String
  podCidr : String
  prevClusterCidr : String
  prevPodCidr : String
  multicast : String
  disable : Bool
  supports : Bool
  recycle : Bool

namespace MasqStart

/-- The plan of the rules to set up. -/
def plan (c : MasqStart) : ChainPlan :=
  masqPlan c.clusterCidr c.podCidr c.multicast c.disable c.supports

/-- The plan of the rules to recycle. -/
def prevPlan (c : MasqStart) : ChainPlan :=
  masqPlan c.prevClusterCidr c.prevPodCidr c.multicast c.disable c.supports

/-- The subnet is not the whole network.  Nothing is asked of the last time: if there was none, both
are the default. -/
def Proper (c : MasqStart) : Prop := c.podCidr ≠ c.clusterCidr

instance (c : MasqStart) : Decidable c.Proper := inferInstanceAs (Decidable (_ ≠ _))

theorem valid_plan {c : MasqStart} (h : c.Proper) : c.plan.Valid := valid_masqPlan h _ _ _

end MasqStart

/-- The rule that is there twice among the rules of a subnet that is the whole network. -/
def degenerate (cidr : String) : List String :=
  commented ["-s", cidr, "-d", cidr] "flanneld masq" "RETURN"

/-- No such rule is in the chain of the masquerade rules. -/
def NoDegenerate (k : Kernel) : Prop :=
  ∀ cidr, degenerate cidr ∉ (k "nat" "FLANNEL-POSTRTG").getD []

theorem degenerate_notMem_plan {c : MasqStart} (h : c.Proper) (cidr : String) :
    degenerate cidr ∉ c.plan.body := by
  have hne : ¬ (cidr = c.podCidr ∧ cidr = c.clusterCidr) := fun heq => h (heq.1.symm.trans heq.2)
  have hne' : ¬ (cidr = c.clusterCidr ∧ cidr = c.podCidr) := fun heq => h (heq.2.symm.trans heq.1)
  cases hsuffix : c.supports && !c.disable with
  | true => simp [degenerate, MasqStart.plan, masqPlan, masqRulesWith, rule, commented,
      kubeProxyMark, hsuffix, hne, hne']
  | false => simp [degenerate, MasqStart.plan, masqPlan, masqRulesWith, rule, commented,
      kubeProxyMark, hsuffix, hne, hne']

/-- Of the old rules, those that are there are there once in the list. -/
theorem nodup_present_prevPlan {k : Kernel} (h : NoDegenerate k) (c : MasqStart) :
    (present k c.prevPlan.rules).Nodup := by
  by_cases hne : c.prevPodCidr = c.prevClusterCidr
  · -- the rule that is there twice is not in the chain
    have habsent : ∀ r : IPTablesRule, r ∈ present k c.prevPlan.rules →
        r ≠ rule "nat" "FLANNEL-POSTRTG" (degenerate c.prevClusterCidr) := by
      rintro r hr rfl
      rw [present, List.mem_filter, Bool.and_eq_true] at hr
      have hthere : ((k "nat" "FLANNEL-POSTRTG").getD []).contains
          (degenerate c.prevClusterCidr) = true := hr.2.2
      exact h _ (List.contains_iff_mem.mp hthere)
    have hself : present k c.prevPlan.rules = (present k c.prevPlan.rules).filter
        fun r => r ≠ rule "nat" "FLANNEL-POSTRTG" (degenerate c.prevClusterCidr) := by
      symm
      rw [List.filter_eq_self]
      intro r hr
      exact decide_eq_true (habsent r hr)
    have hrest : (c.prevPlan.rules.filter
        fun r => r ≠ rule "nat" "FLANNEL-POSTRTG" (degenerate c.prevClusterCidr)).Nodup := by
      cases hsuffix : c.supports && !c.disable with
      | true => simp [degenerate, MasqStart.prevPlan, masqPlan_rules, masqRulesWith, rule,
          commented, kubeProxyMark, hsuffix, hne]
      | false => simp [degenerate, MasqStart.prevPlan, masqPlan_rules, masqRulesWith, rule,
          commented, kubeProxyMark, hsuffix, hne]
    rw [hself, present, List.filter_comm]
    exact hrest.sublist List.filter_sublist
  · exact (valid_masqPlan hne _ _ _).nodup_rules.sublist List.filter_sublist

/-- A node: the tables of its kernel, and the rules of the periodic tasks of the daemon that was
started last. -/
structure RulesNode where
  kernel : Kernel
  masq : Option ChainPlan
  forward : Option ChainPlan

/-- What can happen to the rules of a node. -/
inductive RulesAction where
  /-- the daemon, started for the first time or again, sets the masquerade rules up -/
  | setupMasq (c : MasqStart)
  /-- it sets the forward rules up -/
  | setupForward (flannelNetwork : String)
  /-- the periodic task of the masquerade rules -/
  | resyncMasq
  /-- the periodic task of the forward rules -/
  | resyncForward
  /-- somebody else changes the tables -/
  | outside (kernel : Kernel)

namespace RulesNode

/-- What an action does; `none` when there is no such task, or the setup fails. -/
def step (s : RulesNode) : RulesAction → Option RulesNode
  | .setupMasq c =>
    (setupMasqRules s.kernel c.recycle c.prevPlan.rules c.plan.rules).map fun k =>
      { s with kernel := k, masq := some c.plan }
  | .setupForward flannelNetwork => some
      { s with kernel := setupForwardRules s.kernel flannelNetwork
               forward := some (forwardPlan flannelNetwork) }
  | .resyncMasq => s.masq.map fun p => { s with kernel := resyncRound s.kernel p.rules }
  | .resyncForward => s.forward.map fun p => { s with kernel := resyncRound s.kernel p.rules }
  | .outside kernel => some { s with kernel := kernel }

/-- Two plans with the same chains and the same jump, whatever their rules. -/
structure SameChains (p q : ChainPlan) : Prop where
  table : q.table = p.table
  builtin : q.builtin = p.builtin
  own : q.own = p.own
  jump : q.jump = p.jump

/-- What the daemon can rely on for one kind of rules: the builtin chain jumps at most once, and
the chain of a plan that is in force holds nothing but its rules, in their order. -/
structure Kept (p : ChainPlan) (plan : Option ChainPlan) (k : Kernel) : Prop where
  jump : p.JumpsOnce k
  own : ∀ q ∈ plan, q.Valid ∧ SameChains p q ∧ ((k q.table q.own).getD []).Sublist q.body

/-- The chains of the masquerade rules. -/
def anyMasq : ChainPlan := masqPlan "" "" "" false false

/-- The chains of the forward rules. -/
def anyForward : ChainPlan := forwardPlan ""

/-- Others do no harm to the rules of a kind: they keep the builtin chain and make no second copy
of the jump, and they put nothing into flannel's chain, but may take rules out, in any way, or
the chain itself. -/
def Spares (p : ChainPlan) (k k' : Kernel) : Prop :=
  (p.JumpsOnce k → p.JumpsOnce k') ∧
    ((k' p.table p.own).getD []).Sublist ((k p.table p.own).getD [])

/-- The actions that the daemon is made for. -/
def Harmless (s : RulesNode) : RulesAction → Prop
  | .setupMasq c => c.Proper
  | .outside kernel => Spares anyMasq s.kernel kernel ∧ Spares anyForward s.kernel kernel
  | _ => True

/-- The invariant. -/
structure Tidy (s : RulesNode) : Prop where
  masq : Kept anyMasq s.masq s.kernel
  forward : Kept anyForward s.forward s.kernel
  plain : NoDegenerate s.kernel
  plans : ∀ p ∈ s.masq, ∃ c : MasqStart, c.Proper ∧ p = c.plan

section Kept

variable {p q : ChainPlan} {plan : Option ChainPlan} {k k' : Kernel}

theorem jumpsOnce_iff (h : SameChains p q) : q.JumpsOnce k ↔ p.JumpsOnce k := by
  rw [ChainPlan.JumpsOnce, ChainPlan.JumpsOnce, h.table, h.builtin, h.jump]

/-- A plan that has just been put there is kept. -/
theorem kept_of_healed (hv : q.Valid) (hsame : SameChains p q) (h : q.Healed k) :
    Kept p (some q) k := by
  refine ⟨(jumpsOnce_iff hsame).mp h.jumpsOnce, fun q' hq' => ?_⟩
  cases hq'
  refine ⟨hv, hsame, ?_⟩
  rw [h.own]
  exact List.Sublist.refl _

/-- Work on the chains of another table keeps a plan. -/
theorem Kept.elsewhere (h : Kept p plan k) (htable : q.table ≠ p.table)
    (helse : q.Elsewhere k k') : Kept p plan k' := by
  have hsame : ∀ chain, k' p.table chain = k p.table chain :=
    fun chain => helse _ _ fun hbad => htable hbad.1.symm
  refine ⟨?_, fun q' hq' => ?_⟩
  · obtain ⟨init, hinit, hcount⟩ := h.jump
    exact ⟨init, (hsame _).trans hinit, hcount⟩
  · obtain ⟨hv, hchains, hown⟩ := h.own q' hq'
    refine ⟨hv, hchains, ?_⟩
    rw [hchains.table, hsame, ← hchains.table]
    exact hown

/-- What others may do keeps a plan. -/
theorem Kept.spares (h : Kept p plan k) (hk : Spares p k k') : Kept p plan k' := by
  refine ⟨hk.1 h.jump, fun q hq => ?_⟩
  obtain ⟨hv, hchains, hown⟩ := h.own q hq
  refine ⟨hv, hchains, ?_⟩
  rw [hchains.table, hchains.own] at hown ⊢
  exact hk.2.trans hown

/-- The periodic task of a plan that is kept heals it. -/
theorem Kept.resync (h : Kept p plan k) (hq : q ∈ plan) :
    Kept p (some q) (resyncRound k q.rules) ∧ q.Healed (resyncRound k q.rules) ∧
      q.Leaves k (resyncRound k q.rules) := by
  obtain ⟨hv, hchains, hown⟩ := h.own q hq
  obtain ⟨hhealed, hleaves⟩ := ChainPlan.healed_resync hv ((jumpsOnce_iff hchains).mpr h.jump) hown
  exact ⟨kept_of_healed hv hchains hhealed, hhealed, hleaves⟩

end Kept

theorem sameChains_masq (c : MasqStart) : SameChains anyMasq c.plan := ⟨rfl, rfl, rfl, rfl⟩

theorem sameChains_forward (flannelNetwork : String) :
    SameChains anyForward (forwardPlan flannelNetwork) := ⟨rfl, rfl, rfl, rfl⟩

/-- **Setting up the masquerade rules heals them**, also when those of another network are
recycled first. -/
theorem healed_setupMasq {k : Kernel} (hjump : anyMasq.JumpsOnce k) (hplain : NoDegenerate k)
    {c : MasqStart} (hc : c.Proper) :
    ∃ k', setupMasqRules k c.recycle c.prevPlan.rules c.plan.rules = some k' ∧
      c.plan.Healed k' ∧ c.plan.Leaves k k' := by
  have hv := MasqStart.valid_plan hc
  cases hrecycle : c.recycle with
  | false => exact ⟨_, rfl, ChainPlan.healed_setup hv hjump⟩
  | true =>
    obtain ⟨init, hinit, hcount⟩ := hjump
    obtain ⟨k₁, hrun, hbuiltin, helse⟩ := @ChainPlan.exists_teardown_plan c.prevPlan k
      (shaped_masqPlan _ _ _ _ _) (nodup_present_prevPlan hplain c) init hinit
    -- the teardown takes out at most the jump
    have hkept : ∃ init', k₁ "nat" "POSTROUTING" = some init' ∧ init'.count anyMasq.jump ≤ 1 ∧
        init'.filter (fun spec => spec ≠ anyMasq.jump) =
          init.filter fun spec => spec ≠ anyMasq.jump := by
      rcases hbuiltin with hsame | herased
      · exact ⟨init, hsame, hcount, rfl⟩
      · refine ⟨init.erase anyMasq.jump, herased, ?_, ChainPlan.filter_erase_jump _ _⟩
        exact Nat.le_trans (List.erase_sublist.count_le _) hcount
    obtain ⟨init', hinit', hcount', hforeign'⟩ := hkept
    obtain ⟨hhealed, hleaves⟩ := ChainPlan.healed_setup (p := c.plan) (k := k₁) hv
      ⟨init', hinit', hcount'⟩
    refine ⟨_, ?_, hhealed, fun table chain hother => ?_, ?_⟩
    · simp only [setupMasqRules, if_true, hrun]
      rfl
    · rw [hleaves.elsewhere table chain hother, helse table chain hother]
    · rw [hleaves.foreign]
      show ((k₁ "nat" "POSTROUTING").getD []).filter _ = ((k "nat" "POSTROUTING").getD []).filter _
      have hinit₀ : k "nat" "POSTROUTING" = some init := hinit
      rw [hinit', hinit₀, Option.getD_some, Option.getD_some]
      exact hforeign'

/-- What the rules of a network and a subnet are set up with. -/
def start4 (network prevSubnet prevNetwork subnet : IP4Net) (disable supports : Bool) :
    MasqStart where
  clusterCidr := network.toString
  podCidr := subnet.toString
  prevClusterCidr := prevNetwork.toString
  prevPodCidr := prevSubnet.toString
  multicast := "224.0.0.0/4"
  disable := disable
  supports := supports
  recycle := network ≠ prevNetwork ∨ prevSubnet ≠ subnet

/-- The same for IPv6. -/
def start6 (network prevSubnet prevNetwork subnet : IP6Net) (disable supports : Bool) :
    MasqStart where
  clusterCidr := network.toString
  podCidr := subnet.toString
  prevClusterCidr := prevNetwork.toString
  prevPodCidr := prevSubnet.toString
  multicast := "ff00::/8"
  disable := disable
  supports := supports
  recycle := network ≠ prevNetwork ∨ prevSubnet ≠ subnet

/-- **The setup of both families** is one setup of the masquerade rules in the tables of each
family that has a network. -/
theorem healed_setupAndEnsureMasqRules {k k6 : Kernel} (hjump : anyMasq.JumpsOnce k)
    (hplain : NoDegenerate k) (hjump6 : anyMasq.JumpsOnce k6) (hplain6 : NoDegenerate k6)
    {network prevSubnet prevNetwork subnet : IP4Net}
    {v6Network prevV6Subnet prevV6Network ipv6Subnet : IP6Net} {disable supports supports6 : Bool}
    (hproper : (start4 network prevSubnet prevNetwork subnet disable supports).Proper)
    (hproper6 : (start6 v6Network prevV6Subnet prevV6Network ipv6Subnet disable supports6).Proper) :
    ∃ k' k6', setupAndEnsureMasqRules k k6 network prevSubnet prevNetwork v6Network prevV6Subnet
        prevV6Network subnet ipv6Subnet disable supports supports6 = (true, k', k6') ∧
      (if network.empty then k' = k else
        (start4 network prevSubnet prevNetwork subnet disable supports).plan.Healed k') ∧
      if v6Network.empty then k6' = k6 else
        (start6 v6Network prevV6Subnet prevV6Network ipv6Subnet disable supports6).plan.Healed
          k6' := by
  obtain ⟨k', hrun, hhealed, -⟩ := healed_setupMasq hjump hplain hproper
  obtain ⟨k6', hrun6, hhealed6, -⟩ := healed_setupMasq hjump6 hplain6 hproper6
  have h4 : setupMasqRules k (network ≠ prevNetwork ∨ prevSubnet ≠ subnet)
      (masqRules prevNetwork prevSubnet disable supports)
      (masqRules network subnet disable supports) = some k' := hrun
  have h6 : setupMasqRules k6 (v6Network ≠ prevV6Network ∨ prevV6Subnet ≠ ipv6Subnet)
      (masqIp6Rules prevV6Network prevV6Subnet disable supports6)
      (masqIp6Rules v6Network ipv6Subnet disable supports6) = some k6' := hrun6
  refine ⟨if network.empty then k else k', if v6Network.empty then k6 else k6', ?_, ?_, ?_⟩
  · unfold setupAndEnsureMasqRules
    rw [h4, h6]
    cases hempty : network.empty with
    | true =>
      cases hempty6 : v6Network.empty with
      | true => rfl
      | false => rfl
    | false =>
      cases hempty6 : v6Network.empty with
      | true => rfl
      | false => rfl
  · cases hempty : network.empty with
    | true => rfl
    | false => exact hhealed
  · cases hempty6 : v6Network.empty with
    | true => rfl
    | false => exact hhealed6

/-- The chain of a proper plan that has just been put there is plain. -/
theorem noDegenerate_of_healed {k : Kernel} {c : MasqStart} (hc : c.Proper)
    (h : c.plan.Healed k) : NoDegenerate k := by
  have hown : k "nat" "FLANNEL-POSTRTG" = some c.plan.body := h.own
  intro cidr hmem
  rw [hown] at hmem
  exact degenerate_notMem_plan hc cidr hmem

/-- Work on the chains of another table does not change it. -/
theorem noDegenerate_elsewhere {k k' : Kernel} {p : ChainPlan} (h : NoDegenerate k)
    (htable : p.table ≠ anyMasq.table) (helse : p.Elsewhere k k') : NoDegenerate k' := by
  have hsame : k' "nat" "FLANNEL-POSTRTG" = k "nat" "FLANNEL-POSTRTG" :=
    helse _ _ fun hbad => htable hbad.1.symm
  intro cidr hmem
  rw [hsame] at hmem
  exact h cidr hmem

theorem tables_ne : anyMasq.table ≠ anyForward.table := by decide

theorem tidy_step {s t : RulesNode} {a : RulesAction} (h : Tidy s) (hq : Harmless s a)
    (hst : s.step a = some t) : Tidy t := by
  cases a with
  | setupMasq c =>
    obtain ⟨k', hrun, hhealed, hleaves⟩ := healed_setupMasq h.masq.jump h.plain hq
    rw [step, hrun] at hst
    cases hst
    refine ⟨kept_of_healed (MasqStart.valid_plan hq) (sameChains_masq c) hhealed,
      h.forward.elsewhere tables_ne hleaves.elsewhere, noDegenerate_of_healed hq hhealed, ?_⟩
    rintro p ⟨⟩
    exact ⟨c, hq, rfl⟩
  | setupForward flannelNetwork =>
    cases hst
    have hv := valid_forwardPlan flannelNetwork
    obtain ⟨hhealed, hleaves⟩ := ChainPlan.healed_setup hv
      ((jumpsOnce_iff (sameChains_forward flannelNetwork)).mpr h.forward.jump)
    exact ⟨h.masq.elsewhere tables_ne.symm hleaves.elsewhere,
      kept_of_healed hv (sameChains_forward flannelNetwork) hhealed,
      noDegenerate_elsewhere h.plain tables_ne.symm hleaves.elsewhere, h.plans⟩
  | resyncMasq =>
    obtain ⟨p, hp, rfl⟩ := Option.map_eq_some_iff.mp hst
    obtain ⟨hkept, hhealed, hleaves⟩ := h.masq.resync hp
    obtain ⟨c, hc, rfl⟩ := h.plans p hp
    refine ⟨?_, h.forward.elsewhere tables_ne hleaves.elsewhere,
      noDegenerate_of_healed hc hhealed, h.plans⟩
    rw [hp]
    exact hkept
  | resyncForward =>
    obtain ⟨p, hp, rfl⟩ := Option.map_eq_some_iff.mp hst
    obtain ⟨hkept, -, hleaves⟩ := h.forward.resync hp
    obtain ⟨-, hchains, -⟩ := h.forward.own p hp
    have htable : p.table ≠ anyMasq.table := hchains.table ▸ tables_ne.symm
    refine ⟨h.masq.elsewhere htable hleaves.elsewhere, ?_,
      noDegenerate_elsewhere h.plain htable hleaves.elsewhere, h.plans⟩
    rw [hp]
    exact hkept
  | outside kernel =>
    cases hst
    refine ⟨h.masq.spares hq.1, h.forward.spares hq.2, fun cidr hmem => ?_, h.plans⟩
    exact h.plain cidr (hq.1.2.subset hmem)

/-- What a round of a periodic task achieves in a state: it restores its rules, and a second
round does nothing. -/
def Heals (s : RulesNode) (a : RulesAction) (p : ChainPlan) : Prop :=
  ∃ t, s.step a = some t ∧ p.Healed t.kernel ∧ p.Leaves s.kernel t.kernel ∧ t.step a = some t

/-- **The rules heal.**  Take any history of a node: the daemon sets the masquerade and the
forward rules up, with whatever networks, whatever parts of them as subnets and whatever it
believes were the last ones, the default ones included, runs its two periodic tasks in any order,
and is started again; and others change the tables as they like between these steps, but make no
second copy of a jump and put nothing into flannel's chains.  In the beginning the builtin chains
jump at most once to flannel's, and no rule is left over there that returns the traffic of a
network with itself.  Then every setup succeeds, also that of both families together, and after
every setup and every round of a periodic task the chain of its rules holds exactly these rules in
their order and the builtin chain jumps to it exactly once; the step has changed no other chain,
and kept the rules of others in the builtin chain in their order. -/
theorem rules_heal {k : Kernel} {as : List RulesAction} {s : RulesNode}
    (hmasq : anyMasq.JumpsOnce k) (hforward : anyForward.JumpsOnce k) (hplain : NoDegenerate k)
    (hq : Along step Harmless ⟨k, none, none⟩ as) (h : run step ⟨k, none, none⟩ as = some s) :
    (∀ c : MasqStart, c.Proper → ∃ t, s.step (.setupMasq c) = some t ∧
      c.plan.Healed t.kernel ∧ c.plan.Leaves s.kernel t.kernel) ∧
    (∀ flannelNetwork, ∃ t, s.step (.setupForward flannelNetwork) = some t ∧
      (forwardPlan flannelNetwork).Healed t.kernel ∧
      (forwardPlan flannelNetwork).Leaves s.kernel t.kernel) ∧
    (∀ p ∈ s.masq, Heals s .resyncMasq p) ∧ (∀ p ∈ s.forward, Heals s .resyncForward p) ∧
    ∀ k6 network prevSubnet prevNetwork subnet v6Network prevV6Subnet prevV6Network ipv6Subnet
      disable supports supports6, anyMasq.JumpsOnce k6 → NoDegenerate k6 →
      (start4 network prevSubnet prevNetwork subnet disable supports).Proper →
      (start6 v6Network prevV6Subnet prevV6Network ipv6Subnet disable supports6).Proper →
      ∃ k' k6', setupAndEnsureMasqRules s.kernel k6 network prevSubnet prevNetwork v6Network
          prevV6Subnet prevV6Network subnet ipv6Subnet disable supports supports6 =
            (true, k', k6') ∧
        (if network.empty then k' = s.kernel else
          (start4 network prevSubnet prevNetwork subnet disable supports).plan.Healed k') ∧
        if v6Network.empty then k6' = k6 else
          (start6 v6Network prevV6Subnet prevV6Network ipv6Subnet disable supports6).plan.Healed
            k6' := by
  have htidy : Tidy s :=
    run_invariant (P := Tidy) (fun _ _ _ hi ha hst => tidy_step hi ha hst)
      ⟨⟨hmasq, fun p hp => by cases hp⟩, ⟨hforward, fun p hp => by cases hp⟩, hplain,
        fun p hp => by cases hp⟩ hq h
  refine ⟨fun c hc => ?_, fun flannelNetwork => ?_, fun p hp => ?_, fun p hp => ?_,
    fun _ _ _ _ _ _ _ _ _ _ _ _ hjump6 hplain6 hproper hproper6 =>
      healed_setupAndEnsureMasqRules htidy.masq.jump htidy.plain hjump6 hplain6 hproper hproper6⟩
  · obtain ⟨k', hrun, hhealed, hleaves⟩ := healed_setupMasq htidy.masq.jump htidy.plain hc
    exact ⟨{ s with kernel := k', masq := some c.plan }, by rw [step, hrun]; rfl, hhealed, hleaves⟩
  · exact ⟨_, rfl, ChainPlan.healed_setup (valid_forwardPlan flannelNetwork)
      ((jumpsOnce_iff (sameChains_forward flannelNetwork)).mpr htidy.forward.jump)⟩
  · obtain ⟨-, hhealed, hleaves⟩ := htidy.masq.resync hp
    refine ⟨{ s with kernel := resyncRound s.kernel p.rules }, ?_, hhealed, hleaves, ?_⟩
    · rw [step, hp]
      rfl
    · rw [step, hp, Option.map_some, ChainPlan.resync_of_healed (htidy.masq.own p hp).1 hhealed]
  · obtain ⟨-, hhealed, hleaves⟩ := htidy.forward.resync hp
    refine ⟨{ s with kernel := resyncRound s.kernel p.rules }, ?_, hhealed, hleaves, ?_⟩
    · rw [step, hp]
      rfl
    · rw [step, hp, Option.map_some,
        ChainPlan.resync_of_healed (htidy.forward.own p hp).1 hhealed]

/-- Tables before flannel is there: somebody else's rule in the builtin chain of the nat table. -/
def freshTables : Kernel
  | "nat", "POSTROUTING" => some [["-s", "172.17.0.0/16", "-j", "MASQUERADE"]]
  | "filter", "FORWARD" => some []
  | _, _ => none

/-- The first setup: the last network and subnet are the default ones. -/
def freshStart : MasqStart where
  clusterCidr := "10.244.0.0/16"
  podCidr := "10.244.1.0/24"
  prevClusterCidr := "0.0.0.0/0"
  prevPodCidr := "0.0.0.0/0"
  multicast := "224.0.0.0/4"
  disable := false
  supports := true
  recycle := true

/-- The tables are reset behind the daemon's back; the next rounds put everything back. -/
theorem reset_tables_heal :
    ∃ s, run step ⟨freshTables, none, none⟩
        [.setupMasq freshStart, .setupForward "10.244.0.0/16", .outside freshTables] = some s ∧
      s.kernel = freshTables ∧ Heals s .resyncMasq freshStart.plan ∧
      Heals s .resyncForward (forwardPlan "10.244.0.0/16") := by
  have hmasq : anyMasq.JumpsOnce freshTables := ⟨_, rfl, by decide⟩
  have hforward : anyForward.JumpsOnce freshTables := ⟨_, rfl, by decide⟩
  have hplain : NoDegenerate freshTables := nofun
  have hproper : freshStart.Proper := by decide
  obtain ⟨k', hrun, -⟩ := healed_setupMasq hmasq hplain hproper
  have hlast : run step ⟨freshTables, none, none⟩
      [.setupMasq freshStart, .setupForward "10.244.0.0/16", .outside freshTables] =
      some ⟨freshTables, some freshStart.plan, some (forwardPlan "10.244.0.0/16")⟩ := by
    simp [run, step, hrun]
  have halong : Along step Harmless ⟨freshTables, none, none⟩
      [.setupMasq freshStart, .setupForward "10.244.0.0/16", .outside freshTables] :=
    ⟨hproper, fun _ _ => ⟨trivial, fun _ _ =>
      ⟨⟨⟨fun _ => hmasq, List.nil_sublist _⟩, ⟨fun _ => hforward, List.nil_sublist _⟩⟩,
        fun _ _ => trivial⟩⟩⟩
  obtain ⟨-, -, hheals, hheals', -⟩ := rules_heal hmasq hforward hplain halong hlast
  exact ⟨_, hlast, rfl, hheals _ rfl, hheals' _ rfl⟩

end RulesNode

end Flannel
