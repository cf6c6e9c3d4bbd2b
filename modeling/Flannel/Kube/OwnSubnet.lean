import Flannel.Kube.Acquire

/-!
# The two readings of the own node's pod CIDRs

The own subnet is read twice.  `acquire_lease` reads it once, at the start, for the
lease that the watcher filters by; `node_to_lease` reads it every time the own node is
seen, for the events that the filter should drop.  Both walk over the same list, but
the first keeps the *last* CIDR of a family and the second takes the *first*.

The readings agree exactly when the list does not hold two CIDRs of one enabled
family that denote different networks (`OneNetworkEach`).  The check on the list's
length does not rule this out: two CIDRs are accepted, whatever their families.
-/

namespace Flannel

open Results

/-! ## First and last of a family -/

section Readings

variable {ε α : Type} {isFamily : String → Bool} {parse : String → Except ε α}

/-- `n` is what the first CIDR of the family says, in a list that both readers accept. -/
def FirstReading (isFamily : String → Bool) (parse : String → Except ε α) (spec : NodeSpec)
    (n : α) : Prop :=
  match spec.podCidrs with
  | [] => parse (spec.podCidr.getD "") = .ok n
  | [a] => parse a = .ok n
  | [a, b] =>
    isFamily a = true ∧ parse a = .ok n ∨
      isFamily a = false ∧ isFamily b = true ∧ parse b = .ok n
  | _ => False

/-- `n` is what the last CIDR of the family says, in a list that both readers accept. -/
def LastReading (isFamily : String → Bool) (parse : String → Except ε α) (spec : NodeSpec)
    (n : α) : Prop :=
  match spec.podCidrs with
  | [] => parse (spec.podCidr.getD "") = .ok n
  | [a] => parse a = .ok n
  | [a, b] => isFamily b = true ∧ parse b = .ok n ∨ isFamily b = false ∧ parse a = .ok n
  | _ => False

/-- All CIDRs of the family in the list denote one network. -/
def OneNetwork (isFamily : String → Bool) (parse : String → Except ε α) (spec : NodeSpec) : Prop :=
  ∀ a ∈ spec.podCidrs, ∀ b ∈ spec.podCidrs, isFamily a = true → isFamily b = true →
    parse a = parse b

/-- **First and last agree exactly when there is one network.** -/
theorem readings_agree {spec : NodeSpec} {n m : α} (hfirst : FirstReading isFamily parse spec n)
    (hlast : LastReading isFamily parse spec m) : m = n ↔ OneNetwork isFamily parse spec := by
  unfold FirstReading at hfirst
  unfold LastReading at hlast
  unfold OneNetwork
  match hcs : spec.podCidrs with
  | [] =>
    rw [hcs] at hfirst hlast
    simp only at hfirst hlast
    rw [hfirst] at hlast
    have hnm := Except.ok.inj hlast
    simp [hnm]
  | [a] =>
    rw [hcs] at hfirst hlast
    simp only at hfirst hlast
    rw [hfirst] at hlast
    have hnm := Except.ok.inj hlast
    simp [hnm]
  | [a, b] =>
    rw [hcs] at hfirst hlast
    simp only at hfirst hlast
    rcases hfirst with ⟨ha, hn⟩ | ⟨ha, hb, hn⟩
    · rcases hlast with ⟨hb, hm⟩ | ⟨hb, hm⟩
      · -- two of the family: here the readings can differ
        constructor
        · intro heq x hx y hy _ _
          have hab : parse a = parse b := by rw [hn, hm, heq]
          rcases List.mem_pair.mp hx with rfl | rfl <;> rcases List.mem_pair.mp hy with rfl | rfl
          · rfl
          · exact hab
          · exact hab.symm
          · rfl
        · intro h
          have hba := h b (by simp) a (by simp) hb ha
          rw [hn, hm] at hba
          exact Except.ok.inj hba
      · rw [hn] at hm
        simp [ha, hb, Except.ok.inj hm]
    · rcases hlast with ⟨-, hm⟩ | ⟨hb', -⟩
      · rw [hn] at hm
        simp [ha, hb, Except.ok.inj hm]
      · rw [hb] at hb'
        exact absurd hb' (by simp)
  | _ :: _ :: _ :: _ =>
    rw [hcs] at hfirst
    exact absurd hfirst id

theorem parsed_of_map_some {err : ε → NodeLeaseError} {s : String} {n : α}
    (h : ((parse s).mapError err).map some = .ok (some n)) : parse s = .ok n := by
  obtain ⟨m, hm, heq⟩ := map_ok_iff.mp h
  cases heq
  exact mapError_ok_iff.mp hm

theorem firstReading_of_cidrOf {err : ε → NodeLeaseError} {node : Node} {n : α}
    (h : cidrOf isFamily (fun s => (parse s).mapError err) node = .ok (some n)) :
    FirstReading isFamily parse node.spec n := by
  unfold cidrOf at h
  unfold FirstReading
  match hcs : node.spec.podCidrs with
  | [] =>
    rw [hcs] at h
    simp only at h ⊢
    split at h
    · exact parsed_of_map_some h
    · simp at h
  | [a] =>
    rw [hcs] at h
    simp only [firstCidr] at h ⊢
    split at h
    · exact parsed_of_map_some h
    · simp at h
  | [a, b] =>
    rw [hcs] at h
    simp only [firstCidr] at h ⊢
    split at h
    · rename_i ha
      exact Or.inl ⟨ha, parsed_of_map_some h⟩
    · rename_i ha
      split at h
      · rename_i hb
        exact Or.inr ⟨Bool.eq_false_iff.mpr ha, hb, parsed_of_map_some h⟩
      · simp at h
  | _ :: _ :: _ :: _ =>
    rw [hcs] at h
    simp at h

/-- A CIDR that was kept as the last of its family is the first one too, exactly when there
is one network. -/
theorem kept_eq_iff {err : ε → NodeLeaseError} {node node' : Node} {kept : Option α} {d n : α}
    (hspec : node'.spec = node.spec) (hkept : kept.isSome = true)
    (hlast : ∀ c, kept = some c → LastReading isFamily parse node.spec c)
    (hfirst : cidrOf isFamily (fun s => (parse s).mapError err) node' = .ok (some n)) :
    kept.getD d = n ↔ OneNetwork isFamily parse node.spec := by
  obtain ⟨c, rfl⟩ := Option.isSome_iff_exists.mp hkept
  have hreading := firstReading_of_cidrOf hfirst
  rw [hspec] at hreading
  rw [Option.getD_some]
  exact readings_agree hreading (hlast c rfl)

end Readings

/-! ## The reading of `acquire_lease` -/

section Acquired

variable {mgr : KubeSubnetManager} {node : Node} {x : Option IP4Net} {y : Option IP6Net}
  {r : Option IP4Net × Option IP6Net}

theorem podCidrLoop_nil : podCidrLoop x y [] = .ok r ↔ (x, y) = r := by
  simp [podCidrLoop]

theorem podCidrLoop_cons_v4 {c : String} (hc : hasColon c = false) {cs : List String} :
    podCidrLoop x y (c :: cs) = .ok r ↔
      ∃ n, IP4Net.fromStr c = .ok n ∧ podCidrLoop (some n) y cs = .ok r := by
  rw [podCidrLoop, if_neg (by simp [hc]), bind_ok_iff]
  simp only [mapError_ok_iff]

theorem podCidrLoop_cons_v6 {c : String} (hc : hasColon c = true) {cs : List String} :
    podCidrLoop x y (c :: cs) = .ok r ↔
      ∃ n, IP6Net.fromStr c = .ok n ∧ podCidrLoop x (some n) cs = .ok r := by
  rw [podCidrLoop, if_pos hc, bind_ok_iff]
  simp only [mapError_ok_iff]

/-- What `acquire_pod_cidrs` returns for each family is the last CIDR of the family. -/
theorem lastReading_of_acquirePodCidrs (h : acquirePodCidrs mgr node = .ok (x, y)) :
    (∀ c, x = some c → LastReading (fun s => !hasColon s) IP4Net.fromStr node.spec c) ∧
      ∀ c, y = some c → LastReading hasColon IP6Net.fromStr node.spec c := by
  unfold acquirePodCidrs at h
  unfold LastReading
  match hcs : node.spec.podCidrs with
  | [] =>
    rw [hcs] at h
    simp only at h ⊢
    split at h
    · obtain ⟨n, hn, heq⟩ := bind_ok_iff.mp h
      cases heq
      rw [mapError_ok_iff] at hn
      simp [hn]
    · split at h
      · obtain ⟨n, hn, heq⟩ := bind_ok_iff.mp h
        cases heq
        rw [mapError_ok_iff] at hn
        simp [hn]
      · cases h
        simp
  | [a] =>
    rw [hcs] at h
    simp only at h ⊢
    cases ha : hasColon a with
    | true =>
      simp only [podCidrLoop_cons_v6 ha, podCidrLoop_nil] at h
      obtain ⟨n, hn, heq⟩ := h
      cases heq
      simp [hn]
    | false =>
      simp only [podCidrLoop_cons_v4 ha, podCidrLoop_nil] at h
      obtain ⟨n, hn, heq⟩ := h
      cases heq
      simp [hn]
  | [a, b] =>
    rw [hcs] at h
    simp only at h ⊢
    cases ha : hasColon a with
    | true =>
      cases hb : hasColon b with
      | true =>
        simp only [podCidrLoop_cons_v6 ha, podCidrLoop_cons_v6 hb, podCidrLoop_nil] at h
        obtain ⟨n, hn, m, hm, heq⟩ := h
        cases heq
        simp [hm]
      | false =>
        simp only [podCidrLoop_cons_v6 ha, podCidrLoop_cons_v4 hb, podCidrLoop_nil] at h
        obtain ⟨n, hn, m, hm, heq⟩ := h
        cases heq
        simp [hn, hm]
    | false =>
      cases hb : hasColon b with
      | true =>
        simp only [podCidrLoop_cons_v4 ha, podCidrLoop_cons_v6 hb, podCidrLoop_nil] at h
        obtain ⟨n, hn, m, hm, heq⟩ := h
        cases heq
        simp [hn, hm]
      | false =>
        simp only [podCidrLoop_cons_v4 ha, podCidrLoop_cons_v4 hb, podCidrLoop_nil] at h
        obtain ⟨n, hn, m, hm, heq⟩ := h
        cases heq
        simp [hm]
  | _ :: _ :: _ :: _ =>
    rw [hcs] at h
    simp at h

theorem acquirePodCidrs_of_wait {polls : List PollRound}
    (h : waitForNodeWithCidrs mgr polls = some (.ok node)) :
    ∃ x y, acquirePodCidrs mgr node = .ok (x, y) ∧ cidrsReady mgr x y = true := by
  induction polls with
  | nil => simp [waitForNodeWithCidrs] at h
  | cons r rs ih =>
    rw [waitForNodeWithCidrs] at h
    cases hr : nodeReady mgr (fetchNode mgr r) with
    | some result =>
      simp only [hr, Option.some.injEq] at h
      subst h
      unfold nodeReady at hr
      split at hr
      · simp at hr
      · rename_i n hn
        split at hr
        · simp at hr
        · rename_i x y hxy
          split at hr
          · rename_i hready
            simp only [Option.some.injEq, Except.ok.injEq] at hr
            subst hr
            exact ⟨x, y, hxy, hready⟩
          · simp at hr
    | none =>
      simp only [hr] at h
      split at h
      · simp at h
      · exact ih h

theorem withCidr_ok {l l' : Lease} (h : withCidr mgr l x = .ok l') :
    l' = { l with subnet := if mgr.config.enableIpv4 then x.getD l.subnet else l.subnet } := by
  unfold withCidr at h
  cases x with
  | none =>
    cases h
    simp
  | some c =>
    cases he : mgr.config.enableIpv4 with
    | false =>
      simp only [he, Bool.false_eq_true, if_false] at h
      cases h
      simp
    | true =>
      simp only [he, if_true] at h
      split at h
      · simp at h
      · cases h
        simp

theorem withIpv6Cidr_ok {l l' : Lease} (h : withIpv6Cidr mgr l y = .ok l') :
    l' = { l with
      ipv6Subnet := if mgr.config.enableIpv6 then y.getD l.ipv6Subnet else l.ipv6Subnet } := by
  unfold withIpv6Cidr at h
  cases y with
  | none =>
    cases h
    simp
  | some c =>
    cases he : mgr.config.enableIpv6 with
    | false =>
      simp only [he, Bool.false_eq_true, if_false] at h
      cases h
      simp
    | true =>
      simp only [he, if_true] at h
      split at h
      · simp at h
      · cases h
        simp

/-- The subnets of an acquired lease. -/
theorem acquiredLease_spec {attrs : LeaseAttrs} {now : Int} {l : Lease}
    (h : acquiredLease mgr attrs now x y = .ok l) :
    l.subnet = (if mgr.config.enableIpv4 then x.getD default else default) ∧
      l.ipv6Subnet = if mgr.config.enableIpv6 then y.getD default else default := by
  simp only [acquiredLease, bind_ok_iff] at h
  obtain ⟨l₁, h₁, l₂, h₂, h⟩ := h
  have hl₁ := withCidr_ok h₁
  have hl₂ := withIpv6Cidr_ok h₂
  subst hl₂ hl₁
  split at h
  · cases h
    simp [blankLease]
  · cases h
    simp [blankLease]

/-- An acquired lease comes from the node that the first loop waited for. -/
theorem acquiredLease_of_acquireLease {attrs : LeaseAttrs} {now : Int} {polls : List PollRound}
    {patches : List (Bool × Pause)} {patch : Option (String → Option String)} {l : Lease}
    (hwait : waitForNodeWithCidrs mgr polls = some (.ok node))
    (h : acquireLease mgr attrs now polls patches = some ⟨patch, .ok l⟩)
    (hcidrs : acquirePodCidrs mgr node = .ok (x, y)) :
    acquiredLease mgr attrs now x y = .ok l := by
  simp only [acquireLease, hwait, hcidrs] at h
  split at h
  · simp only [Option.some.injEq, AcquireOutcome.mk.injEq] at h
    exact h.2
  · split at h
    · simp at h
    · simp at h
    · simp only [Option.some.injEq, AcquireOutcome.mk.injEq] at h
      exact h.2

end Acquired

/-! ## The own-lease filter -/

/-- No list of pod CIDRs holds two networks of an enabled family. -/
def OneNetworkEach (config : Config) (spec : NodeSpec) : Prop :=
  (config.enableIpv4 = true → OneNetwork (fun s => !hasColon s) IP4Net.fromStr spec) ∧
    (config.enableIpv6 = true → OneNetwork hasColon IP6Net.fromStr spec)

/-- **When the own lease is recognised.**  Let `acquire_lease` return the lease `own` from a
node, and let `node_to_lease`, with the same enable flags, derive `l` from a node with the
same spec.  A watcher with the own lease `own` drops the events that carry `l`, if and only
if the pod CIDRs do not hold two different networks of an enabled family. -/
theorem own_lease_recognised_iff {mgr : KubeSubnetManager} {env : EventEnv} {attrs : LeaseAttrs}
    {now : Int} {polls : List PollRound} {patches : List (Bool × Pause)} {node node' : Node}
    {patch : Option (String → Option String)} {own l : Lease}
    (hwait : waitForNodeWithCidrs mgr polls = some (.ok node))
    (hacq : acquireLease mgr attrs now polls patches = some ⟨patch, .ok own⟩)
    (hspec : node'.spec = node.spec)
    (h4 : env.enableIpv4 = mgr.config.enableIpv4) (h6 : env.enableIpv6 = mgr.config.enableIpv6)
    (hl : nodeToLease env node' = .ok l) :
    isOwn own l = true ↔ OneNetworkEach mgr.config node.spec := by
  obtain ⟨x, y, hcidrs, hready⟩ := acquirePodCidrs_of_wait hwait
  obtain ⟨hlast4, hlast6⟩ := lastReading_of_acquirePodCidrs hcidrs
  obtain ⟨hown4, hown6⟩ := acquiredLease_spec (acquiredLease_of_acquireLease hwait hacq hcidrs)
  obtain ⟨hflags, hsub4, hsub6⟩ := nodeToLease_spec hl
  rw [isOwn_iff hflags, h4, h6]
  rw [h4] at hsub4
  rw [h6] at hsub6
  have hagree4 : mgr.config.enableIpv4 = true →
      (own.subnet = l.subnet ↔ OneNetwork (fun s => !hasColon s) IP4Net.fromStr node.spec) := by
    intro he
    rw [he, if_pos rfl] at hsub4 hown4
    simp only [cidrsReady, he, Bool.not_true, Bool.false_or, Bool.and_eq_true] at hready
    rw [hown4]
    exact kept_eq_iff hspec hready.1 hlast4 hsub4
  have hagree6 : mgr.config.enableIpv6 = true →
      (own.ipv6Subnet = l.ipv6Subnet ↔ OneNetwork hasColon IP6Net.fromStr node.spec) := by
    intro he
    rw [he, if_pos rfl] at hsub6 hown6
    simp only [cidrsReady, he, Bool.not_true, Bool.false_or, Bool.and_eq_true] at hready
    rw [hown6]
    exact kept_eq_iff hspec hready.2 hlast6 hsub6
  unfold OneNetworkEach
  cases he4 : mgr.config.enableIpv4 with
  | true =>
    cases he6 : mgr.config.enableIpv6 with
    | true => simp [Lease.key, ← hagree4 he4, ← hagree6 he6, eq_comm]
    | false => simp [Lease.key, ← hagree4 he4, eq_comm]
  | false =>
    rw [he4] at hown4 hsub4
    cases he6 : mgr.config.enableIpv6 with
    | true => simp [Lease.key, ← hagree6 he6, eq_comm]
    | false =>
      -- with neither family the subnets are both unset
      have hdefault : l.subnet = own.subnet := by
        rw [hown4]
        simpa using hsub4
      simp [Lease.key, hdefault]

/-- A manager of node `x` for an IPv4 network. -/
def ownManager : KubeSubnetManager where
  config := { enableIpv4 := true, network := ⟨⟨0x0a000000⟩, 16⟩, backendType := "host-gw" }
  nodeName := "x"
  annotations := v4Env.annotations
  disableNodeInformer := false

/-- Node `x` with a list of pod CIDRs. -/
def ownNode (podCidrs : List String) : Node :=
  { managedNode "x" "" with spec := { podCidrs := podCidrs } }

/-- The store has the node in the first round. -/
def ownPolls (podCidrs : List String) : List PollRound :=
  [⟨(NodeStore.new.put (ownNode podCidrs)).1, none, ⟨false, false, true⟩⟩]

/-- What the backend of the own node registers with. -/
def ownAttrs : LeaseAttrs := { publicIp := ⟨0xc0a80001⟩, backendType := "host-gw" }

/-- With two IPv4 CIDRs the own lease is not recognised. -/
theorem own_lease_not_recognised :
    ¬ ∀ (mgr : KubeSubnetManager) (env : EventEnv) (attrs : LeaseAttrs) (now : Int)
      (polls : List PollRound) (patches : List (Bool × Pause)) (node node' : Node)
      (patch : Option (String → Option String)) (own l : Lease),
      waitForNodeWithCidrs mgr polls = some (.ok node) →
      acquireLease mgr attrs now polls patches = some ⟨patch, .ok own⟩ →
      node'.spec = node.spec → env.enableIpv4 = mgr.config.enableIpv4 →
      env.enableIpv6 = mgr.config.enableIpv6 → nodeToLease env node' = .ok l →
      isOwn own l = true := by
  intro h
  have hown := h ownManager v4Env ownAttrs 0 (ownPolls ["10.0.1.0/24", "10.0.2.0/24"])
    [(true, ⟨false, false, true⟩)] _ (ownNode ["10.0.1.0/24", "10.0.2.0/24"]) _ _ _ rfl rfl rfl
    rfl rfl rfl
  exact absurd hown (by decide)

/-- A list with a CIDR of each family. -/
def dualstackCidrs : List String := ["fc00:1::/64", "10.0.1.0/24"]

theorem oneNetworkEach_dualstackCidrs :
    OneNetworkEach ownManager.config (ownNode dualstackCidrs).spec := by
  refine ⟨fun _ a ha b hb ha4 hb4 => ?_, fun h6 => absurd h6 (by decide)⟩
  have hsame : ∀ c ∈ dualstackCidrs, (!hasColon c) = true → c = "10.0.1.0/24" := by decide
  rw [hsame a ha ha4, hsame b hb hb4]

/-- With one CIDR of each family it is. -/
theorem own_lease_recognised_dualstack :
    ∃ patch own l, acquireLease ownManager ownAttrs 0 (ownPolls dualstackCidrs)
        [(true, ⟨false, false, true⟩)] = some ⟨patch, .ok own⟩ ∧
      nodeToLease v4Env (ownNode dualstackCidrs) = .ok l ∧ isOwn own l = true := by
  have hwait : waitForNodeWithCidrs ownManager (ownPolls dualstackCidrs) =
      some (.ok (ownNode dualstackCidrs)) := rfl
  have hl : nodeToLease v4Env (ownNode dualstackCidrs) =
      .ok { v4Lease 0x0a000100 with attrs := { publicIp := ⟨0xc0a80001⟩ } } := rfl
  obtain ⟨patch, hacq⟩ : ∃ patch, acquireLease ownManager ownAttrs 0 (ownPolls dualstackCidrs)
      [(true, ⟨false, false, true⟩)] = some ⟨patch, .ok
        { v4Lease 0x0a000100 with enableIpv4 := false, attrs := ownAttrs, expiration := 86400 }⟩ :=
    ⟨_, rfl⟩
  exact ⟨patch, _, _, hacq, hl, (own_lease_recognised_iff hwait hacq rfl rfl rfl hl).mpr
    oneNetworkEach_dualstackCidrs⟩

end Flannel
