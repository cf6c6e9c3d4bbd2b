import Flannel.Kube.Informer
import Flannel.Subnet.Config

/-!
# Acquiring the own lease

`AcquireLease` of `subnet/kube/acquire.rs`: wait for the own node to appear with its
pod CIDRs, publish the flannel annotations on it, and build the lease from the CIDRs.

The two polling loops depend on the outside: what the store or the API server
answers, whether the context is cancelled, and whether the deadline has passed.  Each
round of a loop reads these once and in a fixed order, so a loop runs on the list of
its rounds, and has no result yet when the list ends first.

The annotation patch is the key-level difference between two annotation maps, and the
maps are functions, so the patch is one too: the new value of a changed key, nothing
elsewhere.
-/

namespace Flannel

/-- The fields of `KubeSubnetManager` that acquiring a lease reads. -/
structure KubeSubnetManager where
  config : Config
  nodeName : String
  annotations : Annotations
  disableNodeInformer : Bool

/-- The errors of `acquire_lease`. -/
inductive AcquireError where
  | ip4 (e : IP4ParseError)
  | ip6 (e : IP6ParseError)
  | podCidrs (nodeName : String)
  | getNode (nodeName cause : String)
  | patchNode (nodeName cause : String)
  | outsideNetwork (network cidr : IP4Net) (nodeName : String)
  | outsideIpv6Network (network cidr : IP6Net) (nodeName : String)
  deriving DecidableEq, Repr

/-- The text of an error. -/
def AcquireError.message : AcquireError → String
  | .ip4 (.invalidAddr s) => "invalid IPv4 address: " ++ s
  | .ip4 (.invalidNet s) => "invalid IPv4 network: " ++ s
  | .ip6 (.invalidAddr s) => "invalid IPv6 address: " ++ s
  | .ip6 (.invalidNet s) => "invalid IPv6 network: " ++ s
  | .podCidrs nodeName =>
    "node \"" ++ nodeName ++ "\" pod cidrs should be IPv4/IPv6 only or dualstack"
  | .getNode nodeName cause =>
    "timeout contacting kube-api, failed to get node \"" ++ nodeName ++ "\". Error: " ++ cause
  | .patchNode nodeName cause =>
    "timeout contacting kube-api, failed to patch node \"" ++ nodeName ++ "\". Error: " ++ cause
  | .outsideNetwork network cidr nodeName =>
    "subnet \"" ++ network.toString ++
      "\" specified in the flannel net config doesn't contain \"" ++
      cidr.toString ++ "\" PodCIDR of the \"" ++ nodeName ++ "\" node"
  | .outsideIpv6Network network cidr nodeName =>
    "subnet \"" ++ network.toString ++
      "\" specified in the flannel net config doesn't contain \"" ++
      cidr.toString ++ "\" IPv6 PodCIDR of the \"" ++ nodeName ++ "\" node"

/-! ## The pod CIDRs of the own node -/

/-- The loop of `acquire_pod_cidrs`: every CIDR is parsed, and the last one of a family
stays. -/
def podCidrLoop (cidr : Option IP4Net) (ipv6Cidr : Option IP6Net) :
    List String → Except AcquireError (Option IP4Net × Option IP6Net)
  | [] => .ok (cidr, ipv6Cidr)
  | podCidr :: rest =>
    if hasColon podCidr then
      (IP6Net.fromStr podCidr).mapError .ip6 >>= fun n => podCidrLoop cidr (some n) rest
    else
      (IP4Net.fromStr podCidr).mapError .ip4 >>= fun n => podCidrLoop (some n) ipv6Cidr rest

/-- `acquire_pod_cidrs`. -/
def acquirePodCidrs (mgr : KubeSubnetManager) (node : Node) :
    Except AcquireError (Option IP4Net × Option IP6Net) :=
  match node.spec.podCidrs with
  | [] =>
    let s := node.spec.podCidr.getD ""
    if hasColon s then
      (IP6Net.fromStr s).mapError .ip6 >>= fun n => .ok (none, some n)
    else if s ≠ "" then
      (IP4Net.fromStr s).mapError .ip4 >>= fun n => .ok (some n, none)
    else
      .ok (none, none)
  | [c] => podCidrLoop none none [c]
  | [c, d] => podCidrLoop none none [c, d]
  | _ => .error (.podCidrs mgr.nodeName)

/-- `cidrs_ready`. -/
def cidrsReady (mgr : KubeSubnetManager) (cidr : Option IP4Net) (ipv6Cidr : Option IP6Net) : Bool :=
  (!mgr.config.enableIpv4 || cidr.isSome) && (!mgr.config.enableIpv6 || ipv6Cidr.isSome)

/-! ## The two polling loops -/

/-- How a round of a polling loop goes on after its attempt did not end the loop: the
context and the deadline are looked at, then the round sleeps until the interval is over
(`slept`) or the context is cancelled. -/
structure Pause where
  cancelled : Bool
  expired : Bool
  slept : Bool
  deriving DecidableEq, Repr

/-- The end that a pause can put to a loop. -/
def Pause.failure (p : Pause) : Option String :=
  if p.cancelled then some "context canceled"
  else if p.expired then some "context deadline exceeded"
  else if p.slept then none
  else some "context canceled"

/-- One round of `wait_for_node_with_cidrs`: the store, what a GET would answer, and the
pause. -/
structure PollRound where
  store : NodeStore
  getNode : Option Node
  pause : Pause

/-- `fetch_node`. -/
def fetchNode (mgr : KubeSubnetManager) (r : PollRound) : Option Node :=
  if mgr.disableNodeInformer then r.getNode else r.store.get mgr.nodeName

/-- What a round of `wait_for_node_with_cidrs` makes of the fetched node: the loop ends
with it, fails, or goes on (`none`). -/
def nodeReady (mgr : KubeSubnetManager) (fetched : Option Node) :
    Option (Except AcquireError Node) :=
  match fetched with
  | none => none
  | some node =>
    match acquirePodCidrs mgr node with
    | .error e => some (.error e)
    | .ok (cidr, ipv6Cidr) => if cidrsReady mgr cidr ipv6Cidr then some (.ok node) else none

/-- `wait_for_node_with_cidrs`. -/
def waitForNodeWithCidrs (mgr : KubeSubnetManager) :
    List PollRound → Option (Except AcquireError Node)
  | [] => none
  | r :: rs =>
    match nodeReady mgr (fetchNode mgr r) with
    | some result => some result
    | none =>
      match r.pause.failure with
      | some cause => some (.error (.getNode mgr.nodeName cause))
      | none => waitForNodeWithCidrs mgr rs

/-- `patch_with_retry`, on the rounds of the loop: whether the API server took the patch,
and the pause. -/
def patchWithRetry (mgr : KubeSubnetManager) :
    List (Bool × Pause) → Option (Except AcquireError Unit)
  | [] => none
  | (accepted, pause) :: rs =>
    if accepted then
      some (.ok ())
    else
      match pause.failure with
      | some cause => some (.error (.patchNode mgr.nodeName cause))
      | none => patchWithRetry mgr rs

/-! ## The annotations of the own node -/

/-- `raw_to_string`: a missing value reads `null`. -/
def rawToString (data : Option String) : String := data.getD "null"

/-- The keys of one family: its data, its public address, and the address that overrides
it. -/
structure FamilyKeys where
  data : String
  publicIp : String
  overwrite : String

/-- The IPv4 keys. -/
def Annotations.ipv4Keys (a : Annotations) : FamilyKeys :=
  ⟨a.backendData, a.backendPublicIp, a.backendPublicIpOverwrite⟩

/-- The IPv6 keys. -/
def Annotations.ipv6Keys (a : Annotations) : FamilyKeys :=
  ⟨a.backendV6Data, a.backendPublicIpv6, a.backendPublicIpv6Overwrite⟩

/-- The test of `maybe_patch_annotations` for one family: `data` and `publicIp` are what
the node should carry. -/
def familyChanged (a : Annotations) (keys : FamilyKeys) (ann : String → Option String)
    (backendType data publicIp : String) : Bool :=
  annotationOf ann keys.data != data ||
    annotationOf ann a.backendType != backendType ||
    annotationOf ann keys.publicIp != publicIp ||
    annotationOf ann a.subnetKubeManaged != "true" ||
    (annotationOf ann keys.overwrite != "" && annotationOf ann keys.overwrite != publicIp)

/-- `needs_patch` of `maybe_patch_annotations`. -/
def needsPatch (a : Annotations) (attrs : LeaseAttrs) (ann : String → Option String)
    (bd v6Bd : String) : Bool :=
  familyChanged a a.ipv4Keys ann attrs.backendType bd attrs.publicIp.toString ||
    match attrs.publicIpv6 with
    | none => false
    | some ip => familyChanged a a.ipv6Keys ann attrs.backendType v6Bd ip.toString

/-- Insert into an annotation map. -/
def annotationInsert (ann : String → Option String) (key value : String) :
    String → Option String :=
  Function.update ann key (some value)

/-- What `maybe_patch_annotations` inserts for one family: the data, and the public
address unless the node overrides it. -/
def insertFamily (keys : FamilyKeys) (ann : String → Option String) (data publicIp : String) :
    String → Option String :=
  let ann := annotationInsert ann keys.data data
  let overwrite := annotationOf ann keys.overwrite
  if overwrite ≠ "" then
    if annotationOf ann keys.publicIp ≠ overwrite then annotationInsert ann keys.publicIp overwrite
    else ann
  else
    annotationInsert ann keys.publicIp publicIp

/-- Whether the backend publishes IPv4 data. -/
def publishesIpv4 (attrs : LeaseAttrs) (bd : String) : Bool :=
  attrs.backendType != "vxlan" || bd != "null"

/-- Whether the backend publishes IPv6 data. -/
def publishesIpv6 (attrs : LeaseAttrs) (v6Bd : String) : Bool :=
  (attrs.backendType == "vxlan" && v6Bd != "null") ||
    (attrs.backendType == "wireguard" && v6Bd != "null" && attrs.publicIpv6.isSome) ||
    (attrs.backendType == "host-gw" && attrs.publicIpv6.isSome) ||
    (attrs.backendType == "extension" && attrs.publicIpv6.isSome)

/-- The annotations that `maybe_patch_annotations` wants the node to have. -/
def wantedAnnotations (a : Annotations) (attrs : LeaseAttrs) (ann : String → Option String)
    (bd v6Bd : String) : String → Option String :=
  let ann := annotationInsert ann a.backendType attrs.backendType
  let ann :=
    if publishesIpv4 attrs bd then insertFamily a.ipv4Keys ann bd attrs.publicIp.toString else ann
  let ann :=
    if publishesIpv6 attrs v6Bd then
      match attrs.publicIpv6 with
      | some v6 => insertFamily a.ipv6Keys ann v6Bd v6.toString
      | none => ann
    else ann
  annotationInsert ann a.subnetKubeManaged "true"

/-- The patch of `maybe_patch_annotations`, if it sends one: the wanted value of every key
that reads differently now. -/
def annotationPatch (a : Annotations) (attrs : LeaseAttrs) (ann : String → Option String)
    (bd v6Bd : String) : Option (String → Option String) :=
  if needsPatch a attrs ann bd v6Bd then
    let wanted := wantedAnnotations a attrs ann bd v6Bd
    some fun key => if ann key ≠ wanted key then wanted key else none
  else
    none

/-! ## The lease -/

/-- The seconds of `lease_expiration_24h`. -/
def leaseSeconds : Int := 24 * 60 * 60

/-- Put the IPv4 CIDR into the lease, if the family is enabled. -/
def withCidr (mgr : KubeSubnetManager) (lease : Lease) (cidr : Option IP4Net) :
    Except AcquireError Lease :=
  match cidr with
  | none => .ok lease
  | some cidr =>
    if mgr.config.enableIpv4 then
      if mgr.config.network.empty || !mgr.config.network.containsCidr cidr then
        .error (.outsideNetwork mgr.config.network cidr mgr.nodeName)
      else
        .ok { lease with subnet := cidr }
    else
      .ok lease

/-- Put the IPv6 CIDR into the lease, if the family is enabled. -/
def withIpv6Cidr (mgr : KubeSubnetManager) (lease : Lease) (ipv6Cidr : Option IP6Net) :
    Except AcquireError Lease :=
  match ipv6Cidr with
  | none => .ok lease
  | some cidr =>
    if mgr.config.enableIpv6 then
      if mgr.config.ipv6Network.empty || !mgr.config.ipv6Network.containsCidr cidr then
        .error (.outsideIpv6Network mgr.config.ipv6Network cidr mgr.nodeName)
      else
        .ok { lease with ipv6Subnet := cidr }
    else
      .ok lease

/-- The end of `acquire_lease`: the lease of the CIDRs, at the time `now`.  The backends
that do not know two families get the IPv4 flag only. -/
def acquiredLease (mgr : KubeSubnetManager) (attrs : LeaseAttrs) (now : Int)
    (cidr : Option IP4Net) (ipv6Cidr : Option IP6Net) : Except AcquireError Lease := do
  let lease := { blankLease with attrs := attrs, expiration := now + leaseSeconds }
  let lease ← withCidr mgr lease cidr
  let lease ← withIpv6Cidr mgr lease ipv6Cidr
  if attrs.backendType ≠ "vxlan" ∧ attrs.backendType ≠ "host-gw" ∧
      attrs.backendType ≠ "wireguard" then
    .ok { lease with enableIpv4 := true, enableIpv6 := false }
  else
    .ok lease

/-- How an `acquire_lease` ended: the patch it sent, and what it returned. -/
structure AcquireOutcome where
  patch : Option (String → Option String)
  result : Except AcquireError Lease

/-- `acquire_lease`, on the rounds of its two loops; `none` while a loop goes on. -/
def acquireLease (mgr : KubeSubnetManager) (attrs : LeaseAttrs) (now : Int)
    (polls : List PollRound) (patches : List (Bool × Pause)) : Option AcquireOutcome :=
  let bd := rawToString attrs.backendData
  let v6Bd := rawToString attrs.backendV6Data
  match waitForNodeWithCidrs mgr polls with
  | none => none
  | some (.error e) => some ⟨none, .error e⟩
  | some (.ok node) =>
    match acquirePodCidrs mgr node with
    | .error e => some ⟨none, .error e⟩
    | .ok (cidr, ipv6Cidr) =>
      match annotationPatch mgr.annotations attrs node.metadata.annotations bd v6Bd with
      | none => some ⟨none, acquiredLease mgr attrs now cidr ipv6Cidr⟩
      | some patch =>
        match patchWithRetry mgr patches with
        | none => none
        | some (.error e) => some ⟨some patch, .error e⟩
        | some (.ok ()) => some ⟨some patch, acquiredLease mgr attrs now cidr ipv6Cidr⟩

end Flannel
