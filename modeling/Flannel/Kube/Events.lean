import Flannel.Lease.Basic
import Flannel.Lib.Results

/-!
# Lease events from node objects

The node types of `kube/types.rs`, the annotation keys of
`subnet/kube/annotations.rs`, and from `subnet/kube/events.rs` the conversion
`node_to_lease` and the two handlers.

A handler either hands one event to `enqueue_lease_event` or returns, so here it is a
function to an optional event; what happens to the event afterwards is the business
of the queue.  The annotations of a node are only ever read by key, so the map is the
function that reads it.  A node's `uid` and `resourceVersion` are read by nothing
here and are left out.

`node_to_lease` treats the two address families alike, except for the test that tells
a family's CIDR texts apart (whether there is a colon) and the parser, so the choice
of the CIDR is one function of these two.

The raw JSON values come from a library outside the repository:
`RawValue::from_string` gives the text back if it is one JSON value, and an error
otherwise.  It is a field of the environment.
-/

namespace Flannel

/-! ## Nodes -/

/-- `ObjectMeta`, without the fields nothing here reads. -/
structure ObjectMeta where
  name : String
  annotations : String → Option String := fun _ => none

/-- `NodeSpec`. -/
structure NodeSpec where
  podCidr : Option String := none
  podCidrs : List String := []
  deriving DecidableEq, Repr

/-- `Node`. -/
structure Node where
  metadata : ObjectMeta
  spec : NodeSpec := {}

/-- `Annotations`: the annotation keys flannel sets and reads on nodes. -/
structure Annotations where
  subnetKubeManaged : String
  backendData : String
  backendV6Data : String
  backendType : String
  backendPublicIp : String
  backendPublicIpv6 : String
  backendNodePublicIp : String
  backendNodePublicIpv6 : String
  backendPublicIpOverwrite : String
  backendPublicIpv6Overwrite : String
  deriving DecidableEq, Repr

/-- The keys that `new_annotations` derives from a normalised prefix. -/
def annotationsWith (pre : String) : Annotations where
  subnetKubeManaged := pre ++ "kube-subnet-manager"
  backendData := pre ++ "backend-data"
  backendV6Data := pre ++ "backend-v6-data"
  backendType := pre ++ "backend-type"
  backendPublicIp := pre ++ "public-ip"
  backendNodePublicIp := pre ++ "node-public-ip"
  backendPublicIpOverwrite := pre ++ "public-ip-overwrite"
  backendPublicIpv6 := pre ++ "public-ipv6"
  backendNodePublicIpv6 := pre ++ "node-public-ipv6"
  backendPublicIpv6Overwrite := pre ++ "public-ipv6-overwrite"

/-- The keys of an `Annotations` record. -/
def Annotations.keys (a : Annotations) : List String :=
  [a.subnetKubeManaged, a.backendData, a.backendV6Data, a.backendType, a.backendPublicIp,
    a.backendPublicIpv6, a.backendNodePublicIp, a.backendNodePublicIpv6,
    a.backendPublicIpOverwrite, a.backendPublicIpv6Overwrite]

/-- `annotation`: a missing key reads as the empty text. -/
def annotationOf (map : String → Option String) (key : String) : String := (map key).getD ""

/-- `EventEnv`, without the queue. -/
structure EventEnv where
  annotations : Annotations
  enableIpv4 : Bool
  enableIpv6 : Bool
  /-- `RawValue::from_string`, `none` for its error -/
  rawFromString : String → Option String

/-! ## From a node to its lease -/

/-- The errors of `node_to_lease`. -/
inductive NodeLeaseError where
  | ip4 (e : IP4ParseError)
  | ip6 (e : IP6ParseError)
  /-- `node {:?} pod cidrs should be IPv4/IPv6 only or dualstack` -/
  | podCidrs (nodeName : String)
  /-- `missing IPv4 address on n.Spec.PodCIDRs` -/
  | missingIpv4
  /-- `missing IPv6 address on n.Spec.PodCIDRs` -/
  | missingIpv6
  deriving DecidableEq, Repr

/-- Whether the text has a colon, the source's test for an IPv6 CIDR. -/
def hasColon (s : String) : Bool := s.toList.contains ':'

/-- The loop over the pod CIDRs: the first one of the family is parsed. -/
def firstCidr {α : Type} (isFamily : String → Bool) (parse : String → Except NodeLeaseError α) :
    List String → Except NodeLeaseError (Option α)
  | [] => .ok none
  | c :: cs => if isFamily c then (parse c).map some else firstCidr isFamily parse cs

/-- The CIDR of one family: the single `podCIDR` when there is no list, else the first of
the family in a list of one or two. -/
def cidrOf {α : Type} (isFamily : String → Bool) (parse : String → Except NodeLeaseError α)
    (node : Node) : Except NodeLeaseError (Option α) :=
  match node.spec.podCidrs with
  | [] =>
    let s := node.spec.podCidr.getD ""
    if isFamily s then (parse s).map some else .ok none
  | [c] => firstCidr isFamily parse [c]
  | [c, d] => firstCidr isFamily parse [c, d]
  | _ => .error (.podCidrs node.metadata.name)

/-- The IPv4 pod CIDR of a node. -/
def ipv4Cidr : Node → Except NodeLeaseError (Option IP4Net) :=
  cidrOf (fun s => !hasColon s) fun s => (IP4Net.fromStr s).mapError .ip4

/-- The IPv6 pod CIDR of a node. -/
def ipv6Cidr : Node → Except NodeLeaseError (Option IP6Net) :=
  cidrOf hasColon fun s => (IP6Net.fromStr s).mapError .ip6

/-- `raw_from_annotation`: missing or malformed becomes `none`. -/
def rawFromAnnotation (env : EventEnv) (map : String → Option String) (key : String) :
    Option String :=
  (map key).bind env.rawFromString

/-- What `node_to_lease` adds for IPv4. -/
def addIpv4 (env : EventEnv) (node : Node) (l : Lease) : Except NodeLeaseError Lease := do
  let ann := node.metadata.annotations
  let publicIp ← (IP4.fromStr (annotationOf ann env.annotations.backendPublicIp)).mapError .ip4
  let cidr ← ipv4Cidr node
  match cidr with
  | none => .error .missingIpv4
  | some cidr =>
    .ok { l with
      attrs := { l.attrs with
        publicIp := publicIp
        backendData := rawFromAnnotation env ann env.annotations.backendData }
      subnet := cidr
      enableIpv4 := true }

/-- What `node_to_lease` adds for IPv6. -/
def addIpv6 (env : EventEnv) (node : Node) (l : Lease) : Except NodeLeaseError Lease := do
  let ann := node.metadata.annotations
  let publicIpv6 ← (IP6.fromStr (annotationOf ann env.annotations.backendPublicIpv6)).mapError .ip6
  let cidr ← ipv6Cidr node
  match cidr with
  | none => .error .missingIpv6
  | some cidr =>
    .ok { l with
      attrs := { l.attrs with
        publicIpv6 := some publicIpv6
        backendV6Data := rawFromAnnotation env ann env.annotations.backendV6Data }
      ipv6Subnet := cidr
      enableIpv6 := true }

/-- The lease that `node_to_lease` starts from. -/
def blankLease : Lease :=
  { enableIpv4 := false, enableIpv6 := false, subnet := default, ipv6Subnet := default }

/-- A part of `node_to_lease` that only an enabled family takes. -/
def whenEnabled (enabled : Bool) (part : Lease → Except NodeLeaseError Lease) (l : Lease) :
    Except NodeLeaseError Lease :=
  if enabled then part l else .ok l

/-- `node_to_lease`. -/
def nodeToLease (env : EventEnv) (node : Node) : Except NodeLeaseError Lease := do
  let l ← whenEnabled env.enableIpv4 (addIpv4 env node) blankLease
  let l ← whenEnabled env.enableIpv6 (addIpv6 env node) l
  .ok { l with
    attrs := { l.attrs with
      backendType := annotationOf node.metadata.annotations env.annotations.backendType } }

/-! ## The handlers -/

/-- Whether the node carries the marker of the subnet manager. -/
def isManaged (env : EventEnv) (node : Node) : Bool :=
  annotationOf node.metadata.annotations env.annotations.subnetKubeManaged == "true"

/-- `handle_add_lease_event`. -/
def handleAddLeaseEvent (env : EventEnv) (et : EventType) (node : Node) : Option Event :=
  if isManaged env node then
    match nodeToLease env node with
    | .ok lease => some ⟨et, lease⟩
    | .error _ => none
  else
    none

/-- The test of `handle_update_lease_event` for one family: its data, the backend type and
its public address all read the same. -/
def sameFamily (env : EventEnv) (data publicIp : String) (old new : Node) : Bool :=
  let o := old.metadata.annotations
  let n := new.metadata.annotations
  annotationOf o data == annotationOf n data &&
    annotationOf o env.annotations.backendType == annotationOf n env.annotations.backendType &&
    annotationOf o publicIp == annotationOf n publicIp

/-- `changed` of `handle_update_lease_event`: each enabled family that reads the same
clears it. -/
def leaseChanged (env : EventEnv) (old new : Node) : Bool :=
  let a := env.annotations
  let changed := true
  let changed :=
    if env.enableIpv4 && sameFamily env a.backendData a.backendPublicIp old new then false
    else changed
  if env.enableIpv6 && sameFamily env a.backendV6Data a.backendPublicIpv6 old new then false
  else changed

/-- `handle_update_lease_event`. -/
def handleUpdateLeaseEvent (env : EventEnv) (old new : Node) : Option Event :=
  if isManaged env new then
    if leaseChanged env old new then
      match nodeToLease env new with
      | .ok lease => some ⟨.added, lease⟩
      | .error _ => none
    else
      none
  else
    none

/-! ## Fixtures for concrete runs -/

/-- An IPv4-only environment with the default keys.  The concrete nodes below carry no
backend data, so no raw value is ever read. -/
def v4Env : EventEnv where
  annotations := annotationsWith "flannel.alpha.coreos.com/"
  enableIpv4 := true
  enableIpv6 := false
  rawFromString := fun _ => none

/-- A node that the subnet manager of `v4Env` manages, with one IPv4 pod CIDR. -/
def managedNode (name cidr : String) : Node where
  metadata :=
    { name := name
      annotations := fun key =>
        if key = v4Env.annotations.subnetKubeManaged then some "true"
        else if key = v4Env.annotations.backendPublicIp then some "192.168.0.1"
        else none }
  spec := { podCidr := some cidr, podCidrs := [cidr] }

end Flannel
