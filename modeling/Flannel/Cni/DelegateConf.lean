import Flannel.Lib.Json
import Flannel.Subnet.File

/-!
# The delegate configuration of the CNI plugin

`build_delegate_conf` of `flannel-cni/src/netconf.rs` makes the configuration of the plugin that
the flannel plugin delegates to.  Three layers are put on top of each other: the defaults, what the
user writes under `delegate`, and what flannel forces or injects.  The IPAM configuration is merged
the same way inside.
-/

namespace Flannel

namespace Cni

open Json

/-! ## The code -/

/-- `DEFAULT_DELEGATE_TYPE`. -/
def defaultDelegateType : String := "bridge"

/-- `DEFAULT_DELEGATE_IPAM_TYPE`. -/
def defaultDelegateIpamType : String := "host-local"

/-- `NetConf`, without the type of the plugin itself. -/
structure NetConf where
  cniVersion : String := "1.0.0"
  name : String := ""
  delegate : Map

/-- `<u64 as FromStr>::from_str`. -/
def parseU64 (cs : List Char) : Option Nat :=
  let ds := match cs with
    | '+' :: rest => rest
    | cs => cs
  if ds ≠ [] ∧ ds.all (fun c => (StdAddr.toDigit 10 c).isSome) ∧
      StdAddr.digitsValue 10 ds < UInt64.size then
    some (StdAddr.digitsValue 10 ds)
  else none

/-- The `components` of `version_at_least`. -/
def components (s : String) : List Nat :=
  (s.toList.splitOn '.').map fun c => (parseU64 c).getD 0

/-- The loop of `version_at_least`: the first place where the versions differ decides. -/
def firstDifference (va vb : List Nat) : List Nat → Bool
  | [] => true
  | i :: places =>
    let x := va.getD i 0
    let y := vb.getD i 0
    if x ≠ y then decide (y < x) else firstDifference va vb places

/-- `version_at_least`. -/
def versionAtLeast (a b : String) : Bool :=
  let va := components a
  let vb := components b
  firstDifference va vb (List.range (max va.length vb.length))

/-- `user_routes_present`. -/
def userRoutesPresent (conf : NetConf) : Bool :=
  conf.delegate.containsKey "routes" ||
    match conf.delegate.get "ipam" with
    | some (.object ipam) => (SortedMap.get ipam "routes").isSome
    | _ => false

/-- One inner range of `ranges`. -/
def range (subnet : String) : Value := .array [.object [("subnet", .string subnet)]]

/-- A default route. -/
def route (dst : String) : Value := .object [("dst", .string dst)]

/-- `build_ipam`. -/
def buildIpam (conf : NetConf) (env : FlannelSubnetEnv) : Except String Value := do
  let ipam := SortedMap.insert "type" (.string defaultDelegateIpamType) []
  let ipam := match conf.delegate.get "ipam" with
    | some (.object userIpam) => SortedMap.extend ipam userIpam
    | _ => ipam
  let ipam ←
    if versionAtLeast conf.cniVersion "0.3.0" then
      let ranges := match env.subnet with
        | some subnet => [range subnet.toString]
        | none => []
      let ranges := match env.ipv6Subnet with
        | some subnet6 => ranges ++ [range subnet6.toString]
        | none => ranges
      pure (SortedMap.insert "ranges" (.array ranges) ipam)
    else
      match env.subnet with
      | some subnet => pure (SortedMap.insert "subnet" (.string subnet.toString) ipam)
      | none => throw s!"IPv6 subnets are not supported for cniVersion {conf.cniVersion}"
  let ipam :=
    if userRoutesPresent conf then ipam
    else
      let routes := if env.subnet.isSome then [route "0.0.0.0/0"] else []
      let routes := if env.ipv6Subnet.isSome then routes ++ [route "::/0"] else routes
      SortedMap.insert "routes" (.array routes) ipam
  return .object ipam

/-- `build_delegate_conf`. -/
def buildDelegateConf (conf : NetConf) (env : FlannelSubnetEnv) : Except String Value := do
  if env.subnet.isNone ∧ env.ipv6Subnet.isNone then
    throw "no subnet found in subnet.env (need FLANNEL_SUBNET or FLANNEL_IPV6_SUBNET)"
  let delegate := SortedMap.insert "cniVersion" (.string conf.cniVersion) []
  let delegate := SortedMap.insert "name" (.string conf.name) delegate
  let delegate := SortedMap.insert "type" (.string defaultDelegateType) delegate
  let delegate := SortedMap.extend delegate conf.delegate.members
  let delegate :=
    if (SortedMap.get delegate "type").bind Value.asStr = some defaultDelegateType ∧
        (SortedMap.get delegate "isGateway").isNone then
      SortedMap.insert "isGateway" (.bool true) delegate
    else delegate
  let delegate := SortedMap.insert "ipMasq" (.bool false) delegate
  let delegate := match env.mtu with
    | some mtu => SortedMap.insert "mtu" (.number (.posInt (UInt64.ofNat mtu))) delegate
    | none => delegate
  let ipam ← buildIpam conf env
  return .object (SortedMap.insert "ipam" ipam delegate)

/-! ## The IPAM configuration -/

section Layers

variable (conf : NetConf) (env : FlannelSubnetEnv)

/-- What the user writes under `delegate.ipam`. -/
def userIpam : List (String × Value) :=
  match conf.delegate.get "ipam" with
  | some (.object ipam) => ipam
  | _ => []

/-- The subnets of the families that are present, IPv4 first. -/
def subnets : List String :=
  (env.subnet.map IP4Net.toString).toList ++ (env.ipv6Subnet.map IP6Net.toString).toList

/-- The default routes of these families. -/
def defaultRoutes : List String :=
  (env.subnet.map fun _ => "0.0.0.0/0").toList ++ (env.ipv6Subnet.map fun _ => "::/0").toList

/-- The key that flannel injects, and its value; none if there is no IPv4 subnet for the flat
form. -/
def injected : Option (String × Value) :=
  if versionAtLeast conf.cniVersion "0.3.0" then
    some ("ranges", .array ((subnets env).map range))
  else env.subnet.map fun subnet => ("subnet", .string subnet.toString)

/-- The user has routes, in one place or the other. -/
def UserRoutes : Prop :=
  (conf.delegate.get "routes").isSome = true ∨
    (SortedMap.get (userIpam conf) "routes").isSome = true

/-- The defaults of the IPAM configuration with the user's keys on top. -/
def ipamBase : List (String × Value) :=
  SortedMap.extend (SortedMap.insert "type" (.string defaultDelegateIpamType) []) (userIpam conf)

/-- The default routes on top of a configuration, if the user has none. -/
def withRoutes (ipam : List (String × Value)) : List (String × Value) :=
  if userRoutesPresent conf then ipam
  else SortedMap.insert "routes" (.array ((defaultRoutes env).map route)) ipam

theorem userRoutesPresent_iff : userRoutesPresent conf = true ↔ UserRoutes conf := by
  rw [userRoutesPresent, Bool.or_eq_true, UserRoutes, Map.containsKey, userIpam]
  refine or_congr_right ?_
  split
  · rfl
  · simp [SortedMap.get]

theorem buildIpam_eq :
    buildIpam conf env =
      match injected conf env with
      | some (k, v) => .ok (.object (withRoutes conf env (SortedMap.insert k v (ipamBase conf))))
      | none => .error s!"IPv6 subnets are not supported for cniVersion {conf.cniVersion}" := by
  have hbase : ipamBase conf = match conf.delegate.get "ipam" with
      | some (.object userIpam) =>
        SortedMap.extend (SortedMap.insert "type" (.string defaultDelegateIpamType) []) userIpam
      | _ => SortedMap.insert "type" (.string defaultDelegateIpamType) [] := by
    rw [ipamBase, userIpam]
    split
    · rfl
    · rfl
  unfold buildIpam injected withRoutes
  dsimp only
  rw [← hbase]
  -- the two families are present or not, independently of the version and of the user's routes
  cases userRoutesPresent conf <;> cases versionAtLeast conf.cniVersion "0.3.0" <;>
    simp only [subnets, defaultRoutes] <;> cases env.subnet <;> cases env.ipv6Subnet <;> rfl

theorem wf_userIpam : (Value.object (userIpam conf)).Wf := by
  rw [userIpam]
  split
  · rename_i ipam hipam
    exact conf.delegate.wf.of_get hipam
  · exact Value.wf_empty

theorem wf_ipamBase : (Value.object (ipamBase conf)).Wf :=
  (Value.wf_empty.insert "type" (.string _)).extend fun _ he => (wf_userIpam conf).of_mem he

theorem get_ipamBase (k : String) :
    SortedMap.get (ipamBase conf) k = (SortedMap.get (userIpam conf) k).or
      (if k = "type" then some (.string defaultDelegateIpamType) else none) := by
  have htype := SortedMap.sorted_nil.insert "type" (Value.string defaultDelegateIpamType)
  rw [ipamBase, SortedMap.get_extend htype, SortedMap.get_insert SortedMap.sorted_nil,
    SortedMap.lastValue_eq_get (wf_userIpam conf).sorted]
  rfl

theorem get_withRoutes {ipam : List (String × Value)} (hipam : SortedMap.Sorted ipam) (k : String) :
    SortedMap.get (withRoutes conf env ipam) k =
      if userRoutesPresent conf = false ∧ k = "routes" then
        some (.array ((defaultRoutes env).map route))
      else SortedMap.get ipam k := by
  rw [withRoutes]
  cases userRoutesPresent conf with
  | true => simp
  | false =>
    rw [if_neg Bool.false_ne_true, SortedMap.get_insert hipam]
    simp

/-! ## The whole configuration -/

/-- The defaults with the user's keys on top. -/
def delegateBase : List (String × Value) :=
  SortedMap.extend
    (SortedMap.insert "type" (.string defaultDelegateType)
      (SortedMap.insert "name" (.string conf.name)
        (SortedMap.insert "cniVersion" (.string conf.cniVersion) [])))
    conf.delegate.members

/-- The default of a key that the user does not give. -/
def defaultOf (k : String) : Option Value :=
  if k = "type" then some (.string defaultDelegateType)
  else if k = "name" then some (.string conf.name)
  else if k = "cniVersion" then some (.string conf.cniVersion)
  else none

/-- What flannel adds for a delegate of type `bridge`. -/
def withGateway (delegate : List (String × Value)) : List (String × Value) :=
  if (SortedMap.get delegate "type").bind Value.asStr = some defaultDelegateType ∧
      (SortedMap.get delegate "isGateway").isNone then
    SortedMap.insert "isGateway" (.bool true) delegate
  else delegate

/-- The two keys that flannel forces. -/
def withForced (delegate : List (String × Value)) : List (String × Value) :=
  match env.mtu with
  | some mtu =>
    SortedMap.insert "mtu" (.number (.posInt (UInt64.ofNat mtu)))
      (SortedMap.insert "ipMasq" (.bool false) delegate)
  | none => SortedMap.insert "ipMasq" (.bool false) delegate

theorem buildDelegateConf_eq :
    buildDelegateConf conf env =
      if env.subnet.isNone ∧ env.ipv6Subnet.isNone then
        .error "no subnet found in subnet.env (need FLANNEL_SUBNET or FLANNEL_IPV6_SUBNET)"
      else (buildIpam conf env).map fun ipam =>
        .object (SortedMap.insert "ipam" ipam
          (withForced env (withGateway (delegateBase conf)))) := by
  unfold buildDelegateConf withForced
  dsimp only
  by_cases hnone : env.subnet.isNone = true ∧ env.ipv6Subnet.isNone = true
  · rw [if_pos hnone, if_pos hnone]
    rfl
  · rw [if_neg hnone, if_neg hnone]
    cases buildIpam conf env with
    | error e => rfl
    | ok ipam => rfl

theorem wf_delegateBase : (Value.object (delegateBase conf)).Wf :=
  (((Value.wf_empty.insert "cniVersion" (.string _)).insert "name" (.string _)).insert "type"
    (.string _)).extend fun _ he => conf.delegate.wf.of_mem he

theorem get_delegateBase (k : String) :
    SortedMap.get (delegateBase conf) k = (conf.delegate.get k).or (defaultOf conf k) := by
  have hversion := SortedMap.sorted_nil.insert "cniVersion" (Value.string conf.cniVersion)
  have hname := hversion.insert "name" (Value.string conf.name)
  have htype := hname.insert "type" (Value.string defaultDelegateType)
  rw [delegateBase, SortedMap.get_extend htype, SortedMap.get_insert hname,
    SortedMap.get_insert hversion, SortedMap.get_insert SortedMap.sorted_nil,
    SortedMap.lastValue_eq_get conf.delegate.wf.sorted]
  rfl

theorem wf_withGateway {delegate : List (String × Value)} (h : (Value.object delegate).Wf) :
    (Value.object (withGateway delegate)).Wf := by
  rw [withGateway]
  split_ifs
  · exact h.insert "isGateway" (.bool true)
  · exact h

theorem bind_asStr_eq_iff {v? : Option Value} {s : String} :
    v?.bind Value.asStr = some s ↔ v? = some (.string s) := by
  rw [Option.bind_eq_some_iff]
  simp only [Value.asStr_eq_some_iff, exists_eq_right]

theorem get_withGateway {delegate : List (String × Value)} (h : SortedMap.Sorted delegate)
    (k : String) :
    SortedMap.get (withGateway delegate) k =
      (SortedMap.get delegate k).or
        (if k = "isGateway" ∧
            (SortedMap.get delegate "type").bind Value.asStr = some defaultDelegateType then
          some (.bool true) else none) := by
  rw [withGateway]
  by_cases hbridge : (SortedMap.get delegate "type").bind Value.asStr = some defaultDelegateType
  · cases hgateway : SortedMap.get delegate "isGateway" with
    | none =>
      rw [if_pos ⟨hbridge, rfl⟩, SortedMap.get_insert h]
      by_cases hk : k = "isGateway"
      · simp [hk, hgateway, hbridge]
      · simp [hk]
    | some v =>
      rw [if_neg (by simp)]
      by_cases hk : k = "isGateway"
      · simp [hk, hgateway]
      · simp [hk]
  · simp [hbridge]

theorem wf_withForced {delegate : List (String × Value)} (h : (Value.object delegate).Wf) :
    (Value.object (withForced env delegate)).Wf := by
  have hmasq := h.insert "ipMasq" (.bool false)
  rw [withForced]
  split
  · exact hmasq.insert "mtu" (.number _)
  · exact hmasq

theorem get_withForced {delegate : List (String × Value)} (h : SortedMap.Sorted delegate)
    (k : String) :
    SortedMap.get (withForced env delegate) k =
      if k = "ipMasq" then some (.bool false)
      else (if k = "mtu" then env.mtu.map fun mtu => .number (.posInt (UInt64.ofNat mtu))
        else none).or (SortedMap.get delegate k) := by
  have hmasq := h.insert "ipMasq" (Value.bool false)
  rw [withForced]
  cases env.mtu with
  | none =>
    rw [SortedMap.get_insert h]
    simp
  | some mtu =>
    rw [SortedMap.get_insert hmasq, SortedMap.get_insert h]
    by_cases hmtu : k = "mtu"
    · simp [hmtu]
    · simp [hmtu]

/-- The result, for an IPAM configuration. -/
def delegateOf (ipam : List (String × Value)) : List (String × Value) :=
  SortedMap.insert "ipam" (.object ipam) (withForced env (withGateway (delegateBase conf)))

theorem wf_delegateOf {ipam : List (String × Value)} (h : (Value.object ipam).Wf) :
    (Value.object (delegateOf conf env ipam)).Wf :=
  (wf_withForced env (wf_withGateway (wf_delegateBase conf))).insert "ipam" h

/-- **What the result has under a key**: what flannel forces, what the user gives, or a default. -/
theorem get_delegateOf (ipam : List (String × Value)) (k : String) :
    SortedMap.get (delegateOf conf env ipam) k =
      if k = "ipam" then some (.object ipam)
      else if k = "ipMasq" then some (.bool false)
      else (if k = "mtu" then env.mtu.map fun mtu => .number (.posInt (UInt64.ofNat mtu))
        else none).or (((conf.delegate.get k).or (defaultOf conf k)).or
          (if k = "isGateway" ∧ ((conf.delegate.get "type").or
              (some (.string defaultDelegateType))).bind Value.asStr = some defaultDelegateType then
            some (.bool true) else none)) := by
  have hbase := wf_delegateBase conf
  have hgateway := wf_withGateway hbase
  have hforced := wf_withForced env hgateway
  rw [delegateOf, SortedMap.get_insert hforced.sorted, get_withForced env hgateway.sorted,
    get_withGateway hbase.sorted, get_delegateBase, get_delegateBase]
  rfl

/-- What `build_delegate_conf` does when it succeeds: the result has the user's keys and flannel's,
the forced ones have flannel's values, and all others the user's.  In the IPAM configuration the
user keeps everything but the injected key. -/
structure Merged (delegate ipam : List (String × Value)) : Prop where
  ipam_eq : SortedMap.get delegate "ipam" = some (.object ipam)
  keys (k : String) : (SortedMap.get delegate k).isSome = true ↔
    conf.delegate.containsKey k = true ∨ k ∈ ["cniVersion", "name", "type", "ipMasq", "ipam"] ∨
      (k = "mtu" ∧ env.mtu.isSome = true) ∨
      (k = "isGateway" ∧ SortedMap.get delegate "type" = some (.string "bridge"))
  ipMasq : SortedMap.get delegate "ipMasq" = some (.bool false)
  mtu (n : Nat) : env.mtu = some n →
    SortedMap.get delegate "mtu" = some (.number (.posInt (UInt64.ofNat n)))
  user (k : String) (v : Value) : conf.delegate.get k = some v → k ≠ "ipMasq" → k ≠ "ipam" →
    (k = "mtu" → env.mtu = none) → SortedMap.get delegate k = some v
  ipam_user (k : String) (v : Value) : SortedMap.get (userIpam conf) k = some v →
    k ≠ (if versionAtLeast conf.cniVersion "0.3.0" then "ranges" else "subnet") →
    SortedMap.get ipam k = some v
  routes : UserRoutes conf → SortedMap.get ipam "routes" = SortedMap.get (userIpam conf) "routes" ∧
    SortedMap.get delegate "routes" = conf.delegate.get "routes"
  ranges : versionAtLeast conf.cniVersion "0.3.0" = true →
    SortedMap.get ipam "ranges" = some (.array ((subnets env).map range))
  subnet : versionAtLeast conf.cniVersion "0.3.0" = false →
    ∃ n, env.subnet = some n ∧ SortedMap.get ipam "subnet" = some (.string n.toString)

variable {conf env}

/-- The IPAM configuration with an injected key. -/
def ipamOf (conf : NetConf) (env : FlannelSubnetEnv) (p : String × Value) : List (String × Value) :=
  withRoutes conf env (SortedMap.insert p.1 p.2 (ipamBase conf))

theorem get_ipamOf (p : String × Value) (k : String) :
    SortedMap.get (ipamOf conf env p) k =
      if userRoutesPresent conf = false ∧ k = "routes" then
        some (.array ((defaultRoutes env).map route))
      else if k = p.1 then some p.2
      else (SortedMap.get (userIpam conf) k).or
        (if k = "type" then some (.string defaultDelegateIpamType) else none) := by
  have hbase := (wf_ipamBase conf).sorted
  rw [ipamOf, get_withRoutes conf env (hbase.insert p.1 p.2), SortedMap.get_insert hbase,
    get_ipamBase]

theorem fst_of_injected {p : String × Value} (h : injected conf env = some p) :
    p.1 = if versionAtLeast conf.cniVersion "0.3.0" then "ranges" else "subnet" := by
  rw [injected] at h
  split_ifs at h ⊢ with hversion
  · cases h
    rfl
  · obtain ⟨subnet, -, rfl⟩ := Option.map_eq_some_iff.mp h
    rfl

theorem fst_ne_routes_of_injected {p : String × Value} (h : injected conf env = some p) :
    p.1 ≠ "routes" := by
  rw [fst_of_injected h]
  split_ifs
  · decide
  · decide

theorem get_ipamOf_injected {p : String × Value} (h : injected conf env = some p) :
    SortedMap.get (ipamOf conf env p) p.1 = some p.2 := by
  rw [get_ipamOf, if_neg fun hr => fst_ne_routes_of_injected h hr.2, if_pos rfl]

/-- A key of the user that flannel does not force keeps its value. -/
theorem get_delegateOf_user {ipam : List (String × Value)} {k : String} {v : Value}
    (hv : conf.delegate.get k = some v) (hmasq : k ≠ "ipMasq") (hipam : k ≠ "ipam")
    (hmtu : k = "mtu" → env.mtu = none) :
    SortedMap.get (delegateOf conf env ipam) k = some v := by
  have hforced : (if k = "mtu" then env.mtu.map fun mtu => Value.number (.posInt (UInt64.ofNat mtu))
      else none) = none := by
    split_ifs with hk
    · rw [hmtu hk]
      rfl
    · rfl
  rw [get_delegateOf, if_neg hipam, if_neg hmasq, hforced, hv]
  rfl

/-- The keys of the result. -/
theorem isSome_get_delegateOf_iff (ipam : List (String × Value)) (k : String) :
    (SortedMap.get (delegateOf conf env ipam) k).isSome = true ↔
      conf.delegate.containsKey k = true ∨ k ∈ ["cniVersion", "name", "type", "ipMasq", "ipam"] ∨
        (k = "mtu" ∧ env.mtu.isSome = true) ∨
        (k = "isGateway" ∧
          SortedMap.get (delegateOf conf env ipam) "type" = some (.string "bridge")) := by
  have htype : SortedMap.get (delegateOf conf env ipam) "type" = some (.string "bridge") ↔
      ((conf.delegate.get "type").or (some (.string defaultDelegateType))).bind Value.asStr =
        some defaultDelegateType := by
    rw [bind_asStr_eq_iff, get_delegateOf]
    simp [defaultOf, defaultDelegateType]
  rw [htype, get_delegateOf, Map.containsKey]
  by_cases hipam : k = "ipam"
  · simp [hipam]
  by_cases hmasq : k = "ipMasq"
  · simp [hmasq]
  rw [if_neg hipam, if_neg hmasq]
  cases conf.delegate.get k with
  | some v => simp
  | none =>
    by_cases hdefault : k = "type" ∨ k = "name" ∨ k = "cniVersion"
    · rcases hdefault with rfl | rfl | rfl
      · simp [defaultOf]
      · simp [defaultOf]
      · simp [defaultOf]
    · simp only [not_or] at hdefault
      obtain ⟨hname, hkind, hversion⟩ := hdefault
      by_cases hmtu : k = "mtu"
      · simp [defaultOf, hmtu]
      · simp [defaultOf, hname, hkind, hversion, hmtu, hipam, hmasq]

theorem merged_of_injected {p : String × Value} (h : injected conf env = some p) :
    Merged conf env (delegateOf conf env (ipamOf conf env p)) (ipamOf conf env p) := by
  have hkey := fst_of_injected h
  have hget := get_delegateOf conf env (ipamOf conf env p)
  refine ⟨?_, isSome_get_delegateOf_iff _, ?_, fun n hn => ?_,
    fun k v hv hmasq hipam hmtu => get_delegateOf_user hv hmasq hipam hmtu,
    fun k v hv hk => ?_, fun hroutes => ⟨?_, ?_⟩, fun hversion => ?_, fun hversion => ?_⟩
  · rw [hget, if_pos rfl]
  · rw [hget, if_neg (by decide), if_pos rfl]
  · simp [hget, hn]
  · have hpresent : ¬ (userRoutesPresent conf = false ∧ k = "routes") := by
      rintro ⟨hfalse, rfl⟩
      have htrue := (userRoutesPresent_iff conf).mpr (.inr (by rw [hv]; rfl))
      rw [hfalse] at htrue
      cases htrue
    rw [get_ipamOf, if_neg hpresent, if_neg (hkey ▸ hk), hv]
    rfl
  · have hne : "routes" ≠ p.1 := (fst_ne_routes_of_injected h).symm
    rw [get_ipamOf, (userRoutesPresent_iff conf).mpr hroutes, if_neg (by simp), if_neg hne,
      if_neg (by decide), Option.or_none]
  · rw [hget]
    simp [defaultOf]
  · rw [hversion, if_pos rfl] at hkey
    have hp := get_ipamOf_injected h
    rw [injected, if_pos hversion, Option.some_inj] at h
    subst h
    exact hp
  · have hp := get_ipamOf_injected h
    rw [injected, hversion, if_neg Bool.false_ne_true] at h
    obtain ⟨n, hn, rfl⟩ := Option.map_eq_some_iff.mp h
    exact ⟨n, hn, hp⟩

theorem wf_ipamOf {p : String × Value} (h : injected conf env = some p) :
    (Value.object (ipamOf conf env p)).Wf := by
  have hrange (subnet : String) : (range subnet).Wf := by
    refine .array fun v hv => ?_
    rw [List.mem_singleton.mp hv]
    exact Value.wf_empty.insert "subnet" (.string subnet)
  have hroute (dst : String) : (route dst).Wf := Value.wf_empty.insert "dst" (.string dst)
  have harray {texts : List String} {f : String → Value} (hf : ∀ s, (f s).Wf) :
      (Value.array (texts.map f)).Wf := by
    refine .array fun v hv => ?_
    obtain ⟨s, -, rfl⟩ := List.mem_map.mp hv
    exact hf s
  have hp : p.2.Wf := by
    rw [injected] at h
    split_ifs at h
    · cases h
      exact harray hrange
    · obtain ⟨subnet, -, rfl⟩ := Option.map_eq_some_iff.mp h
      exact .string _
  have hinserted := (wf_ipamBase conf).insert p.1 hp
  rw [ipamOf, withRoutes]
  split_ifs
  · exact hinserted
  · exact hinserted.insert "routes" (harray hroute)

/-- There is nothing to build from: no subnet at all, or none for the flat form. -/
def NoSubnet (conf : NetConf) (env : FlannelSubnetEnv) : Prop :=
  (env.subnet = none ∧ env.ipv6Subnet = none) ∨
    (versionAtLeast conf.cniVersion "0.3.0" = false ∧ env.subnet = none)

theorem buildDelegateConf_of_noSubnet (h : NoSubnet conf env) :
    ∃ e, buildDelegateConf conf env = .error e := by
  rw [buildDelegateConf_eq]
  split_ifs with hnone
  · exact ⟨_, rfl⟩
  · rcases h with ⟨h4, h6⟩ | ⟨hversion, h4⟩
    · exact absurd ⟨by rw [h4]; rfl, by rw [h6]; rfl⟩ hnone
    · have hinjected : injected conf env = none := by
        rw [injected, hversion, h4]
        rfl
      rw [buildIpam_eq, hinjected]
      exact ⟨_, rfl⟩

theorem buildDelegateConf_of_subnet (h : ¬ NoSubnet conf env) :
    ∃ p, injected conf env = some p ∧
      buildDelegateConf conf env = .ok (.object (delegateOf conf env (ipamOf conf env p))) := by
  rw [NoSubnet, not_or] at h
  obtain ⟨hsome, hflat⟩ := h
  have hnone : ¬ (env.subnet.isNone = true ∧ env.ipv6Subnet.isNone = true) := by
    simpa using hsome
  have hinjected : ∃ p, injected conf env = some p := by
    rw [injected]
    split_ifs with hversion
    · exact ⟨_, rfl⟩
    · obtain ⟨subnet, hsubnet⟩ := Option.ne_none_iff_exists'.mp fun h4 =>
        hflat ⟨Bool.eq_false_iff.mpr hversion, h4⟩
      rw [hsubnet]
      exact ⟨_, rfl⟩
  obtain ⟨p, hp⟩ := hinjected
  refine ⟨p, hp, ?_⟩
  rw [buildDelegateConf_eq, if_neg hnone, buildIpam_eq, hp]
  rfl

end Layers

/-- **The merge of defaults, user keys and forced keys**: when it fails, and what it gives
otherwise. -/
theorem delegate_conf_merges (conf : NetConf) (env : FlannelSubnetEnv) :
    ((∃ e, buildDelegateConf conf env = .error e) ↔
      (env.subnet = none ∧ env.ipv6Subnet = none) ∨
        (versionAtLeast conf.cniVersion "0.3.0" = false ∧ env.subnet = none)) ∧
    (¬ NoSubnet conf env → ∃ delegate ipam, buildDelegateConf conf env = .ok (.object delegate) ∧
      (Value.object delegate).Wf ∧ Merged conf env delegate ipam) := by
  have hbuilt (h : ¬ NoSubnet conf env) : ∃ delegate ipam,
      buildDelegateConf conf env = .ok (.object delegate) ∧ (Value.object delegate).Wf ∧
        Merged conf env delegate ipam := by
    obtain ⟨p, hp, hok⟩ := buildDelegateConf_of_subnet h
    exact ⟨_, _, hok, wf_delegateOf conf env (wf_ipamOf hp), merged_of_injected hp⟩
  refine ⟨⟨?_, buildDelegateConf_of_noSubnet⟩, hbuilt⟩
  rintro ⟨e, herror⟩
  by_contra hsubnet
  obtain ⟨delegate, -, hok, -⟩ := hbuilt hsubnet
  rw [herror] at hok
  cases hok

/-! ## The version of the result -/

/-- If there is a result with a version, its IPAM configuration has the form for that version. -/
def SelfConsistent (conf : NetConf) (env : FlannelSubnetEnv) : Prop :=
  ∀ delegate v, buildDelegateConf conf env = .ok (.object delegate) →
    SortedMap.get delegate "cniVersion" = some (.string v) →
    ∃ ipam, SortedMap.get delegate "ipam" = some (.object ipam) ∧
      ((SortedMap.get ipam "ranges").isSome = true ↔ versionAtLeast v "0.3.0" = true) ∧
      ((SortedMap.get ipam "subnet").isSome = true ↔ versionAtLeast v "0.3.0" = false)

/-- The user's own version is on the other side of 0.3.0 than that of the netconf. -/
def OtherVersion (conf : NetConf) : Prop :=
  ∃ v, conf.delegate.get "cniVersion" = some (.string v) ∧
    versionAtLeast v "0.3.0" ≠ versionAtLeast conf.cniVersion "0.3.0"

/-- A key that the user's IPAM configuration does not have is there if it is injected. -/
theorem isSome_get_ipamOf_iff {conf : NetConf} {env : FlannelSubnetEnv} {p : String × Value}
    {k : String} (huser : SortedMap.get (userIpam conf) k = none) (hroutes : k ≠ "routes")
    (htype : k ≠ "type") : (SortedMap.get (ipamOf conf env p) k).isSome = true ↔ k = p.1 := by
  rw [get_ipamOf, if_neg fun h => hroutes h.2, huser, if_neg htype]
  by_cases hk : k = p.1
  · simp [hk]
  · simp [hk]

theorem get_delegateOf_cniVersion (conf : NetConf) (env : FlannelSubnetEnv)
    (ipam : List (String × Value)) :
    SortedMap.get (delegateOf conf env ipam) "cniVersion" =
      (conf.delegate.get "cniVersion").or (some (.string conf.cniVersion)) := by
  rw [get_delegateOf]
  simp [defaultOf]

/-- **The IPAM syntax matches the version of the result exactly if the user does not override the
version with one of the other side**: the syntax is chosen by the version of the netconf. -/
theorem self_consistent_iff {conf : NetConf} {env : FlannelSubnetEnv}
    (hranges : SortedMap.get (userIpam conf) "ranges" = none)
    (hsubnet : SortedMap.get (userIpam conf) "subnet" = none) :
    SelfConsistent conf env ↔ NoSubnet conf env ∨ ¬ OtherVersion conf := by
  by_cases hno : NoSubnet conf env
  · obtain ⟨e, herror⟩ := buildDelegateConf_of_noSubnet hno
    refine iff_of_true (fun delegate v hok => ?_) (.inl hno)
    rw [herror] at hok
    cases hok
  obtain ⟨p, hp, hok⟩ := buildDelegateConf_of_subnet hno
  have hkey := fst_of_injected hp
  have hipam : SortedMap.get (delegateOf conf env (ipamOf conf env p)) "ipam" =
      some (.object (ipamOf conf env p)) := (merged_of_injected hp).ipam_eq
  have hrangesIff : (SortedMap.get (ipamOf conf env p) "ranges").isSome = true ↔
      versionAtLeast conf.cniVersion "0.3.0" = true := by
    rw [isSome_get_ipamOf_iff hranges (by decide) (by decide), hkey]
    split_ifs with hversion
    · simp [hversion]
    · simp [hversion]
  have hsubnetIff : (SortedMap.get (ipamOf conf env p) "subnet").isSome = true ↔
      versionAtLeast conf.cniVersion "0.3.0" = false := by
    rw [isSome_get_ipamOf_iff hsubnet (by decide) (by decide), hkey]
    split_ifs with hversion
    · simp [hversion]
    · simp [hversion]
  have hemitted := get_delegateOf_cniVersion conf env (ipamOf conf env p)
  rw [or_iff_right hno]
  constructor
  · rintro hconsistent ⟨v, huser, hother⟩
    rw [huser] at hemitted
    obtain ⟨ipam, hget, hv, -⟩ := hconsistent _ v hok hemitted
    rw [hipam] at hget
    cases hget
    exact hother (Bool.eq_iff_iff.mpr (hv.symm.trans hrangesIff))
  · intro hsame delegate v hdelegate hv
    rw [hok] at hdelegate
    cases hdelegate
    have hside : versionAtLeast v "0.3.0" = versionAtLeast conf.cniVersion "0.3.0" := by
      rw [hemitted] at hv
      cases huser : conf.delegate.get "cniVersion" with
      | none =>
        rw [huser] at hv
        cases hv
        rfl
      | some w =>
        rw [huser] at hv
        cases hv
        by_contra hother
        exact hsame ⟨v, huser, hother⟩
    refine ⟨ipamOf conf env p, hipam, ?_, ?_⟩
    · rw [hside]
      exact hrangesIff
    · rw [hside]
      exact hsubnetIff

/-- A subnet file with an IPv4 subnet. -/
def v4Env : FlannelSubnetEnv := { subnet := some ⟨⟨0x0af40700#32⟩, 24⟩ }

/-- The user's object with a version only. -/
def versionOnly (v : String) : Map :=
  ⟨[("cniVersion", .string v)], Value.wf_empty.insert "cniVersion" (.string v)⟩

theorem self_consistent_iff_same_side :
    SelfConsistent { name := "f", delegate := versionOnly "0.4.0" } v4Env := by
  refine (self_consistent_iff rfl rfl).mpr (.inr ?_)
  rintro ⟨v, hv, hother⟩
  cases hv
  exact hother (by decide)

/-- A netconf of version 1.0.0 whose user wants the delegate to have version 0.2.0. -/
def legacyOverride : NetConf :=
  { cniVersion := "1.0.0", name := "f", delegate := versionOnly "0.2.0" }

/-- The result tells the delegate version 0.2.0 and has `ranges`. -/
theorem ranges_for_legacy_version :
    userIpam legacyOverride = [] ∧
    (∃ delegate ipam, buildDelegateConf legacyOverride v4Env = .ok (.object delegate) ∧
      SortedMap.get delegate "cniVersion" = some (.string "0.2.0") ∧
      SortedMap.get delegate "ipam" = some (.object ipam) ∧
      (SortedMap.get ipam "ranges").isSome = true ∧ versionAtLeast "0.2.0" "0.3.0" = false) ∧
    ¬ SelfConsistent legacyOverride v4Env := by
  refine ⟨rfl, ⟨_, _, rfl, rfl, rfl, rfl, by decide⟩, fun h => ?_⟩
  obtain ⟨ipam, hipam, hranges, -⟩ := h _ "0.2.0" rfl rfl
  cases hipam
  exact absurd (hranges.mp rfl) (by decide)

end Cni

end Flannel
