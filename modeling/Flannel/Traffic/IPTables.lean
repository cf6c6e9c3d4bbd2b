import Flannel.Lib.SortedMap
import Flannel.Traffic.Rules
import Mathlib.Data.List.Nodup
import Mathlib.Data.String.Basic

/-!
# Rebuilding the rules

`trafficmngr/ip_tables.rs`: whether all rules are there, and the transaction that puts
them there.  Every rule gets a deletion, if it is there already, and an addition, so
that afterwards the rules of a chain stand together and in order.

The transaction is built by asking the kernel about each rule, but it runs later, when
the lines before it have already changed the chains.  What keeps the two together is
that the rules are pairwise distinct: what a line deletes is still there, because no
line before it deletes the same rule, and it is the copy that was there at the start,
because the additions stand behind it.  So the invariant of the run is an equation:
after the lines of some rules, a chain is its initial contents without the first copy of
each of them, followed by them (`execLines_chain`).

A table of the kernel maps the chains that exist to their rules.  Asking and running
never fail for a reason outside of this.
-/

namespace Flannel

/-! ## The kernel -/

/-- A table: the rules of every chain that exists. -/
abbrev Table := String → Option (List (List String))

/-- The tables of the kernel. -/
abbrev Kernel := String → Table

/-- `chain_exists`. -/
def chainExists (k : Kernel) (table chain : String) : Bool := (k table chain).isSome

/-- `exists`: a missing chain holds no rule. -/
def ruleExists (k : Kernel) (table chain : String) (rulespec : List String) : Bool :=
  ((k table chain).getD []).contains rulespec

/-- `clear_chain`: an empty chain, new or flushed. -/
def clearChain (k : Kernel) (table chain : String) : Kernel :=
  Function.update k table (Function.update (k table) chain (some []))

/-! ## The source's functions -/

/-- `flannel_chain`: the flannel chain a rule belongs to or jumps to. -/
def flannelChain (r : IPTablesRule) : Option String :=
  let last := r.rulespec.getLast?
  if r.chain = "FLANNEL-FWD" ∨ last = some "FLANNEL-FWD" then some "FLANNEL-FWD"
  else if r.chain = "FLANNEL-POSTRTG" ∨ last = some "FLANNEL-POSTRTG" then some "FLANNEL-POSTRTG"
  else none

/-- `flannel_chain_exists`. -/
def flannelChainExists (k : Kernel) (r : IPTablesRule) : Bool :=
  match flannelChain r with
  | some chain => chainExists k r.table chain
  | none => true

/-- `ip_tables_rules_exist`. -/
def ipTablesRulesExist (k : Kernel) (rules : List IPTablesRule) : Bool :=
  rules.all fun r => flannelChainExists k r && ruleExists k r.table r.chain r.rulespec

/-- `with_prefix`. -/
def withPrefix (action chain : String) (rulespec : List String) : List String :=
  action :: chain :: rulespec

/-- `IPTablesRestoreRules`: the lines of each table, ordered by table. -/
abbrev IPTablesRestoreRules := List (String × List (List String))

/-- What `ip_tables_clean_and_build` does to the kernel for a rule: its flannel chain is
created if it is missing. -/
def ensureChain (k : Kernel) (r : IPTablesRule) : Kernel :=
  match flannelChain r with
  | some chain => if flannelChainExists k r then k else clearChain k r.table chain
  | none => k

/-- The lines of a rule: a deletion if the rule is there, then its own action. -/
def ruleLines (k : Kernel) (r : IPTablesRule) : List (List String) :=
  (if ruleExists k r.table r.chain r.rulespec then [withPrefix "-D" r.chain r.rulespec] else []) ++
    [withPrefix r.action r.chain r.rulespec]

/-- The loop of `ip_tables_clean_and_build`. -/
def cleanAndBuildLoop (k : Kernel) (tablesRules : IPTablesRestoreRules) :
    List IPTablesRule → Kernel × IPTablesRestoreRules
  | [] => (k, tablesRules)
  | r :: rules =>
    let k := ensureChain k r
    cleanAndBuildLoop k
      (SortedMap.upsert (fun entry => entry.getD [] ++ ruleLines k r) r.table tablesRules) rules

/-- `ip_tables_clean_and_build`: the kernel with the chains it created, and the
transaction. -/
def ipTablesCleanAndBuild (k : Kernel) (rules : List IPTablesRule) :
    Kernel × IPTablesRestoreRules :=
  cleanAndBuildLoop k [] rules

/-! ## Running a transaction -/

/-- One line: `-A` appends, `-D` removes the first equal rule and fails if there is none.
Both fail on a missing chain. -/
def execLine (t : Table) : List String → Option Table
  | "-A" :: chain :: rulespec =>
    (t chain).map fun rules => Function.update t chain (some (rules ++ [rulespec]))
  | "-D" :: chain :: rulespec =>
    (t chain).bind fun rules =>
      if rulespec ∈ rules then some (Function.update t chain (some (rules.erase rulespec)))
      else none
  | _ => none

/-- The lines of a table, in order. -/
def execLines (t : Table) : List (List String) → Option Table
  | [] => some t
  | line :: lines => (execLine t line).bind fun t => execLines t lines

/-- `iptables-restore --noflush`. -/
def applyWithoutFlush (k : Kernel) : IPTablesRestoreRules → Option Kernel
  | [] => some k
  | (table, lines) :: rest =>
    (execLines (k table) lines).bind fun t => applyWithoutFlush (Function.update k table t) rest

/-- `ip_tables_bootstrap`. -/
def ipTablesBootstrap (k : Kernel) (rules : List IPTablesRule) : Option Kernel :=
  let (k, tablesRules) := ipTablesCleanAndBuild k rules
  applyWithoutFlush k tablesRules

/-! ## The chains that are created -/

theorem ensureChain_getD (k : Kernel) (r : IPTablesRule) (table chain : String) :
    (ensureChain k r table chain).getD [] = (k table chain).getD [] := by
  unfold ensureChain
  cases hf : flannelChain r with
  | none => rfl
  | some c =>
    simp only [flannelChainExists, hf, chainExists]
    split
    · rfl
    · rename_i hmissing
      unfold clearChain
      by_cases ht : table = r.table
      · subst ht
        by_cases hc : chain = c
        · subst hc
          rw [Function.update_self, Function.update_self]
          rw [Bool.not_eq_true, Option.isSome_eq_false_iff, Option.isNone_iff_eq_none] at hmissing
          rw [hmissing]
          rfl
        · rw [Function.update_self, Function.update_of_ne hc]
      · rw [Function.update_of_ne ht]

theorem ensureChain_isSome (k : Kernel) (r : IPTablesRule) (table chain : String) :
    (ensureChain k r table chain).isSome = true ↔
      (k table chain).isSome = true ∨ r.table = table ∧ flannelChain r = some chain := by
  unfold ensureChain
  cases hf : flannelChain r with
  | none => simp
  | some c =>
    simp only [flannelChainExists, hf, chainExists, Option.some.injEq]
    split
    · rename_i hthere
      constructor
      · exact Or.inl
      · rintro (h | ⟨rfl, rfl⟩)
        · exact h
        · exact hthere
    · unfold clearChain
      by_cases ht : table = r.table
      · subst ht
        by_cases hc : chain = c
        · subst hc
          simp
        · rw [Function.update_self, Function.update_of_ne hc]
          simp [Ne.symm hc]
      · rw [Function.update_of_ne ht]
        simp [Ne.symm ht]

theorem ruleLines_ensureChain (k : Kernel) (r r' : IPTablesRule) :
    ruleLines (ensureChain k r') r = ruleLines k r := by
  unfold ruleLines ruleExists
  rw [ensureChain_getD]

/-- **What is built.**  The chains that the rules belong to or jump to are created, without
changing what a chain holds, and the transaction has, for each table, the lines of its rules
in order. -/
theorem cleanAndBuildLoop_spec (k : Kernel) {m : IPTablesRestoreRules} (hm : SortedMap.Sorted m)
    (rules : List IPTablesRule) :
    let built := cleanAndBuildLoop k m rules
    (∀ table chain, (built.1 table chain).getD [] = (k table chain).getD []) ∧
      (∀ table chain, (built.1 table chain).isSome = true ↔ (k table chain).isSome = true ∨
        ∃ r ∈ rules, r.table = table ∧ flannelChain r = some chain) ∧
      SortedMap.Sorted built.2 ∧
      ∀ table, (SortedMap.get built.2 table).getD [] = (SortedMap.get m table).getD [] ++
        (rules.filter fun r => r.table = table).flatMap (ruleLines k) := by
  induction rules generalizing k m with
  | nil => simp [cleanAndBuildLoop, hm]
  | cons r rules ih =>
    have hm' : SortedMap.Sorted (SortedMap.upsert
        (fun entry => entry.getD [] ++ ruleLines (ensureChain k r) r) r.table m) := hm.upsert _ _
    obtain ⟨hget, hsome, hsorted, hlines⟩ := ih (ensureChain k r) hm'
    refine ⟨fun table chain => ?_, fun table chain => ?_, hsorted, fun table => ?_⟩
    · rw [cleanAndBuildLoop, hget, ensureChain_getD]
    · rw [cleanAndBuildLoop, hsome, ensureChain_isSome]
      simp [or_assoc]
    · have hk : ruleLines (ensureChain k r) = ruleLines k :=
        funext fun r' => ruleLines_ensureChain k r' r
      rw [cleanAndBuildLoop, hlines, SortedMap.get_upsert hm, hk]
      by_cases ht : table = r.table
      · subst ht
        simp
      · simp [ht, Ne.symm ht]

/-! ## The run -/

theorem execLines_append (t : Table) (xs ys : List (List String)) :
    execLines t (xs ++ ys) = (execLines t xs).bind fun t => execLines t ys := by
  induction xs generalizing t with
  | nil => rfl
  | cons x xs ih =>
    rw [List.cons_append, execLines, execLines, Option.bind_assoc]
    exact congrArg _ (funext ih)

/-- The tables of a transaction run independently. -/
theorem applyWithoutFlush_eq {m : IPTablesRestoreRules} (hm : SortedMap.Sorted m) {k k' : Kernel}
    (h : ∀ table, execLines (k table) ((SortedMap.get m table).getD []) = some (k' table)) :
    applyWithoutFlush k m = some k' := by
  induction m generalizing k with
  | nil => exact congrArg some (funext fun table => Option.some.inj (h table))
  | cons e rest ih =>
    obtain ⟨hlt, hrest⟩ := List.pairwise_cons.mp hm
    have hhead := h e.1
    rw [SortedMap.get, if_pos rfl, Option.getD_some] at hhead
    rw [applyWithoutFlush, hhead, Option.bind_some]
    refine ih hrest fun table => ?_
    by_cases ht : table = e.1
    · rw [ht, Function.update_self, SortedMap.get_eq_none_of_lt hlt]
      rfl
    · have htail := h table
      rw [SortedMap.get, if_neg ht] at htail
      rw [Function.update_of_ne ht, htail]

/-- The specs of the rules of a chain. -/
def specsOf (rules : List IPTablesRule) (chain : String) : List (List String) :=
  (rules.filter fun r => r.chain = chain).map (·.rulespec)

/-- What a chain holds after the lines of the rules: its contents without the first copy of
each rule, then the rules. -/
def rebuilt (rules : List IPTablesRule) (t : Table) : Table :=
  fun chain => (t chain).map fun init => init.diff (specsOf rules chain) ++ specsOf rules chain

theorem rebuilt_nil (t : Table) : rebuilt [] t = t := by
  funext chain
  unfold rebuilt
  cases t chain with
  | none => rfl
  | some init => simp [specsOf]

/-- The contents of the chains, when no rule is for a chain that does not exist. -/
theorem rebuilt_getD {rules : List IPTablesRule} {t : Table}
    (hsome : ∀ r ∈ rules, (t r.chain).isSome = true) (chain : String) :
    (rebuilt rules t chain).getD [] =
      ((t chain).getD []).diff (specsOf rules chain) ++ specsOf rules chain := by
  cases hc : t chain with
  | some init => simp [rebuilt, hc]
  | none =>
    have hempty : specsOf rules chain = [] := by
      rw [List.eq_nil_iff_forall_not_mem]
      intro spec hspec
      obtain ⟨r, hr, -⟩ := List.mem_map.mp hspec
      rw [List.mem_filter, decide_eq_true_eq] at hr
      have hthere := hsome r hr.1
      rw [hr.2, hc] at hthere
      cases hthere
    simp [rebuilt, hc, hempty]

/-- The lines of one rule: the first copy goes, and the rule stands at the end. -/
theorem execLines_ruleLines {k : Kernel} {r : IPTablesRule} {t : Table}
    {init specs : List (List String)} (haction : r.action = "-A")
    (ht : t r.chain = some (init.diff specs ++ specs)) (hspec : r.rulespec ∉ specs)
    (hexists : ruleExists k r.table r.chain r.rulespec = init.contains r.rulespec) :
    execLines t (ruleLines k r) = some (Function.update t r.chain
      (some (init.diff (specs ++ [r.rulespec]) ++ (specs ++ [r.rulespec])))) := by
  have hdiff : init.diff (specs ++ [r.rulespec]) = (init.diff specs).erase r.rulespec := by
    rw [List.diff_append, List.diff_cons, List.diff_nil]
  unfold ruleLines
  rw [hexists, haction, hdiff, ← List.append_assoc]
  cases hmem : init.contains r.rulespec with
  | true =>
    have hinit : r.rulespec ∈ init.diff specs :=
      List.mem_diff_of_mem (List.contains_iff_mem.mp hmem) hspec
    simp [execLines, execLine, withPrefix, ht, hinit, List.erase_append_left]
  | false =>
    have hinit : r.rulespec ∉ init.diff specs := by
      intro h
      have hthere := List.contains_iff_mem.mpr (List.diff_subset _ _ h)
      rw [hmem] at hthere
      cases hthere
    simp [execLines, execLine, withPrefix, ht, List.erase_of_not_mem hinit]

theorem specsOf_snoc (rules : List IPTablesRule) (r : IPTablesRule) (chain : String) :
    specsOf (rules ++ [r]) chain =
      if r.chain = chain then specsOf rules chain ++ [r.rulespec] else specsOf rules chain := by
  unfold specsOf
  rw [List.filter_append, List.map_append]
  by_cases hc : r.chain = chain
  · simp [hc]
  · simp [hc]

/-- **The run of a table.**  Rules that have run and rules that are still to run, all of one
table and pairwise distinct, on chains that exist. -/
theorem execLines_chain {k : Kernel} {table : String} {t₀ : Table}
    {before rules : List IPTablesRule} (hnodup : (before ++ rules).Nodup)
    (hrules : ∀ r ∈ before ++ rules, r.table = table ∧ r.action = "-A")
    (hsome : ∀ r ∈ rules, (t₀ r.chain).isSome = true)
    (hk : ∀ chain, (k table chain).getD [] = (t₀ chain).getD []) :
    execLines (rebuilt before t₀) (rules.flatMap (ruleLines k)) =
      some (rebuilt (before ++ rules) t₀) := by
  induction rules generalizing before with
  | nil => simp [execLines]
  | cons r rules ih =>
    obtain ⟨htable, haction⟩ := hrules r (by simp)
    obtain ⟨init, hinit⟩ := Option.isSome_iff_exists.mp (hsome r List.mem_cons_self)
    have hspec : r.rulespec ∉ specsOf before r.chain := by
      intro hmem
      obtain ⟨r', hr', hspec⟩ := List.mem_map.mp hmem
      rw [List.mem_filter, decide_eq_true_eq] at hr'
      obtain ⟨htable', haction'⟩ := hrules r' (List.mem_append_left _ hr'.1)
      -- a rule is its table, its action, its chain and its spec
      have hsame : r' = r := by
        cases r
        cases r'
        simp_all
      subst hsame
      exact (List.nodup_append.mp hnodup).2.2 r' hr'.1 r' List.mem_cons_self rfl
    have hexists : ruleExists k r.table r.chain r.rulespec = init.contains r.rulespec := by
      unfold ruleExists
      rw [htable, hk, hinit, Option.getD_some]
    have hrun := execLines_ruleLines (t := rebuilt before t₀) haction
      (by rw [rebuilt, hinit, Option.map_some]) hspec hexists
    have hnext : Function.update (rebuilt before t₀) r.chain
        (some (init.diff (specsOf before r.chain ++ [r.rulespec]) ++
          (specsOf before r.chain ++ [r.rulespec]))) = rebuilt (before ++ [r]) t₀ := by
      funext chain
      unfold rebuilt
      rw [specsOf_snoc]
      by_cases hc : chain = r.chain
      · subst hc
        rw [Function.update_self, if_pos rfl, hinit, Option.map_some]
      · rw [Function.update_of_ne hc, if_neg (Ne.symm hc)]
    rw [List.flatMap_cons, execLines_append, hrun, Option.bind_some, hnext]
    have hassoc : before ++ r :: rules = before ++ [r] ++ rules := by simp
    rw [hassoc] at hnodup hrules ⊢
    exact ih hnodup hrules fun r' hr' => hsome r' (List.mem_cons_of_mem _ hr')

/-! ## The rules afterwards -/

/-- Whether a chain is one of flannel's own. -/
def isFlannelChain (chain : String) : Bool := chain == "FLANNEL-FWD" || chain == "FLANNEL-POSTRTG"

/-- The specs of the rules of a chain of a table. -/
def listedSpecs (rules : List IPTablesRule) (table chain : String) : List (List String) :=
  specsOf (rules.filter fun r => r.table = table) chain

theorem mem_listedSpecs {rules : List IPTablesRule} {r : IPTablesRule} (hr : r ∈ rules) :
    r.rulespec ∈ listedSpecs rules r.table r.chain :=
  List.mem_map.mpr ⟨r, by simp [hr], rfl⟩

/-- **The rules are rebuilt.**  Let the rules be pairwise distinct `-A` rules, where
`flannel_chain` recognises those of a flannel chain and the other chains exist.  From every
kernel, the transaction runs to its end; every chain then holds what it held, without the
first copy of each listed rule, followed by the listed rules of the chain in order; the
chains that exist are those that did and the flannel chains that the rules belong to or jump
to; and all rules are there. -/
theorem ipTablesBootstrap_rebuilds {k : Kernel} {rules : List IPTablesRule} (hnodup : rules.Nodup)
    (haction : ∀ r ∈ rules, r.action = "-A")
    (hflannel : ∀ r ∈ rules, isFlannelChain r.chain = true → flannelChain r = some r.chain)
    (hbuiltin : ∀ r ∈ rules, isFlannelChain r.chain = false →
      chainExists k r.table r.chain = true) :
    ∃ k', ipTablesBootstrap k rules = some k' ∧
      (∀ table chain, (k' table chain).getD [] =
        ((k table chain).getD []).diff (listedSpecs rules table chain) ++
          listedSpecs rules table chain) ∧
      (∀ table chain, chainExists k' table chain = true ↔ chainExists k table chain = true ∨
        ∃ r ∈ rules, r.table = table ∧ flannelChain r = some chain) ∧
      ipTablesRulesExist k' rules = true := by
  obtain ⟨hget, hsome, hsorted, hlines⟩ := cleanAndBuildLoop_spec k SortedMap.sorted_nil rules
  generalize hbuilt : cleanAndBuildLoop k [] rules = built at hget hsome hsorted hlines
  obtain ⟨k₁, m⟩ := built
  have hexists : ∀ r ∈ rules, (k₁ r.table r.chain).isSome = true := by
    intro r hr
    rw [hsome]
    cases hown : isFlannelChain r.chain with
    | true => exact Or.inr ⟨r, hr, rfl, hflannel r hr hown⟩
    | false => exact Or.inl (hbuiltin r hr hown)
  have hof : ∀ table, ∀ r ∈ rules.filter (fun r => r.table = table),
      r ∈ rules ∧ r.table = table := by
    intro table r hr
    simpa using hr
  have hthere : ∀ table, ∀ r ∈ rules.filter (fun r => r.table = table),
      (k₁ table r.chain).isSome = true :=
    fun table r hr => (hof table r hr).2 ▸ hexists r (hof table r hr).1
  let k' : Kernel := fun table => rebuilt (rules.filter fun r => r.table = table) (k₁ table)
  have hrun : ∀ table,
      execLines (k₁ table) ((SortedMap.get m table).getD []) = some (k' table) := by
    intro table
    have hchain := @execLines_chain k table (k₁ table) [] (rules.filter fun r => r.table = table)
      (hnodup.filter _) (fun r hr => ⟨(hof table r hr).2, haction r (hof table r hr).1⟩)
      (hthere table) (fun chain => (hget table chain).symm)
    rw [hlines]
    rw [rebuilt_nil] at hchain
    exact hchain
  have hchains : ∀ table chain, chainExists k' table chain = (k₁ table chain).isSome := by
    intro table chain
    simp [chainExists, k', rebuilt]
  have hcontents : ∀ table chain, (k' table chain).getD [] =
      ((k table chain).getD []).diff (listedSpecs rules table chain) ++
        listedSpecs rules table chain := by
    intro table chain
    rw [← hget table chain]
    exact rebuilt_getD (hthere table) chain
  refine ⟨k', ?_, hcontents, fun table chain => ?_, ?_⟩
  · unfold ipTablesBootstrap ipTablesCleanAndBuild
    rw [hbuilt]
    exact applyWithoutFlush_eq hsorted hrun
  · rw [hchains, hsome]
    rfl
  · unfold ipTablesRulesExist
    rw [List.all_eq_true]
    intro r hr
    rw [Bool.and_eq_true]
    constructor
    · unfold flannelChainExists
      cases hf : flannelChain r with
      | none => rfl
      | some chain =>
        dsimp only
        rw [hchains, hsome]
        exact Or.inr ⟨r, hr, rfl, hf⟩
    · unfold ruleExists
      rw [hcontents]
      exact List.contains_iff_mem.mpr (List.mem_append_right _ (mem_listedSpecs hr))

/-- The masquerade rules of a node. -/
def nodeMasqRules : List IPTablesRule :=
  masqRulesWith "10.244.0.0/16" "10.244.1.0/24" "224.0.0.0/4" false true

/-- A kernel without the flannel chain, where `POSTROUTING` jumps to it twice, with a foreign
rule in between. -/
def usedKernel : Kernel := fun table chain =>
  if table = "nat" ∧ chain = "POSTROUTING" then
    some [commented [] "flanneld masq" "FLANNEL-POSTRTG", ["-j", "KUBE-POSTROUTING"],
      commented [] "flanneld masq" "FLANNEL-POSTRTG"]
  else none

/-- The jump that stands first goes to the end; the other copy and the foreign rule stay. -/
theorem ipTablesBootstrap_rebuilds_used :
    ∃ rebuilt, ipTablesBootstrap usedKernel nodeMasqRules = some rebuilt ∧
      (rebuilt "nat" "POSTROUTING").getD [] = [["-j", "KUBE-POSTROUTING"],
        commented [] "flanneld masq" "FLANNEL-POSTRTG",
        commented [] "flanneld masq" "FLANNEL-POSTRTG"] ∧
      ((rebuilt "nat" "FLANNEL-POSTRTG").getD []).length = 6 ∧
      ipTablesRulesExist rebuilt nodeMasqRules = true := by
  obtain ⟨rebuilt, hrun, hcontents, -, hthere⟩ := @ipTablesBootstrap_rebuilds usedKernel
    nodeMasqRules (by decide) (by decide) (by decide) (by decide)
  refine ⟨rebuilt, hrun, ?_, ?_, hthere⟩
  · rw [hcontents]
    decide
  · rw [hcontents]
    decide

end Flannel
