import Flannel.Ip.Display
import Flannel.Lease.Basic
import Flannel.Lib.Table

/-!
# The ipsec backend

`backend/ipsec`: what `handle_subnet_events` does to the policies of the kernel and to the
connections of the IKE daemon.

A policy is written with a message that has a selector, a direction and a template, and is
asked for or deleted with a message that has the selector and the direction only.  The
kernel is a table from these to templates; adding needs the entry to be absent, updating
and deleting need it to be there, and otherwise they fail and change nothing.  A peer has
three policies, and both the function that adds them and the one that deletes them give up
at the first failure.

A connection has a name, made of the two subnets and the two public addresses; loading one
replaces what has its name.  The daemon is taken to do what it is asked.
-/

namespace Flannel

/-! ## Policies -/

namespace Xfrm

/-- `DIR_IN`. -/
def dirIn : UInt8 := 0

/-- `DIR_OUT`. -/
def dirOut : UInt8 := 1

/-- `DIR_FWD`. -/
def dirFwd : UInt8 := 2

/-- `XfrmPolicySpec`. -/
structure XfrmPolicySpec where
  src : IpAddr
  srcPrefix : UInt8
  dst : IpAddr
  dstPrefix : UInt8
  dir : UInt8
  tunnelSrc : IpAddr
  tunnelDst : IpAddr
  reqid : Nat
  deriving DecidableEq, Repr

/-- `XfrmSelector`, without the fields that are always zero.  An address is sixteen bytes,
first byte first. -/
structure XfrmSelector where
  daddr : BitVec 128
  saddr : BitVec 128
  family : Nat
  prefixlenD : UInt8
  prefixlenS : UInt8
  deriving DecidableEq, Repr

/-- `XfrmUserpolicyId`, likewise. -/
structure XfrmUserpolicyId where
  sel : XfrmSelector
  dir : UInt8
  deriving DecidableEq, Repr

/-- `XfrmUserTmpl`, likewise; the destination is that of its identifier. -/
structure XfrmUserTmpl where
  daddr : BitVec 128
  proto : UInt8
  family : Nat
  saddr : BitVec 128
  reqid : Nat
  mode : UInt8
  deriving DecidableEq, Repr

/-- `addr`: an IPv4 address stands in the first four bytes. -/
def addr : IpAddr → BitVec 128
  | .v4 ip => ip.val ++ 0#96
  | .v6 ip => ip.val

/-- `family_of`. -/
def familyOf : IpAddr → Nat
  | .v4 _ => 2
  | .v6 _ => 10

/-- `fill_selector`. -/
def fillSelector (spec : XfrmPolicySpec) : XfrmSelector where
  family := familyOf spec.src
  saddr := addr spec.src
  prefixlenS := spec.srcPrefix
  daddr := addr spec.dst
  prefixlenD := spec.dstPrefix

/-- `policy_id_msg`. -/
def policyIdMsg (spec : XfrmPolicySpec) : XfrmUserpolicyId := ⟨fillSelector spec, spec.dir⟩

/-- `user_tmpl`: an ESP tunnel. -/
def userTmpl (spec : XfrmPolicySpec) : XfrmUserTmpl where
  daddr := addr spec.tunnelDst
  proto := 50
  family := familyOf spec.tunnelSrc
  saddr := addr spec.tunnelSrc
  reqid := spec.reqid
  mode := 1

/-- `policy_info_msg`: the selector and the direction of `policy_info`, and the template. -/
def policyInfoMsg (spec : XfrmPolicySpec) : XfrmUserpolicyId × XfrmUserTmpl :=
  (⟨fillSelector spec, spec.dir⟩, userTmpl spec)

/-- The policies of the kernel. -/
abbrev XfrmPolicies := XfrmUserpolicyId → Option XfrmUserTmpl

/-- `get_policy`. -/
def getPolicy (ps : XfrmPolicies) (spec : XfrmPolicySpec) : Option XfrmUserTmpl :=
  ps (policyIdMsg spec)

/-- `add_policy`, with whether it succeeds. -/
def addPolicy (ps : XfrmPolicies) (spec : XfrmPolicySpec) : XfrmPolicies × Bool :=
  let msg := policyInfoMsg spec
  match ps msg.1 with
  | none => (Function.update ps msg.1 (some msg.2), true)
  | some _ => (ps, false)

/-- `update_policy`. -/
def updatePolicy (ps : XfrmPolicies) (spec : XfrmPolicySpec) : XfrmPolicies × Bool :=
  let msg := policyInfoMsg spec
  match ps msg.1 with
  | some _ => (Function.update ps msg.1 (some msg.2), true)
  | none => (ps, false)

/-- `del_policy`. -/
def delPolicy (ps : XfrmPolicies) (spec : XfrmPolicySpec) : XfrmPolicies × Bool :=
  match ps (policyIdMsg spec) with
  | some _ => (Function.update ps (policyIdMsg spec) none, true)
  | none => (ps, false)

end Xfrm

/-! ## The policies of a peer -/

open Xfrm

/-- `DEFAULT_REQ_ID`. -/
def defaultReqId : Nat := 11

/-- `policy_spec`. -/
def policySpec (srcLease dstLease : Lease) (dir : UInt8) (reqId : Nat) : XfrmPolicySpec where
  src := .v4 srcLease.subnet.ip
  srcPrefix := UInt8.ofNat srcLease.subnet.prefixLen
  dst := .v4 dstLease.subnet.ip
  dstPrefix := UInt8.ofNat dstLease.subnet.prefixLen
  dir := dir
  tunnelSrc := .v4 srcLease.attrs.publicIp
  tunnelDst := .v4 dstLease.attrs.publicIp
  reqid := reqId

/-- `add_xfrm_policy`. -/
def addXfrmPolicy (ps : XfrmPolicies) (myLease remoteLease : Lease) (dir : UInt8) (reqId : Nat) :
    XfrmPolicies × Bool :=
  let spec := policySpec myLease remoteLease dir reqId
  match getPolicy ps spec with
  | none => addPolicy ps spec
  | some _ => updatePolicy ps spec

/-- `del_xfrm_policy`. -/
def delXfrmPolicy (ps : XfrmPolicies) (srcLease dstLease : Lease) (dir : UInt8) (reqId : Nat) :
    XfrmPolicies × Bool :=
  delPolicy ps (policySpec srcLease dstLease dir reqId)

/-- The next step, unless the one before has failed. -/
def andThen (r : XfrmPolicies × Bool) (next : XfrmPolicies → XfrmPolicies × Bool) :
    XfrmPolicies × Bool :=
  if r.2 then next r.1 else r

/-- `add_ipsec_policies`. -/
def addIpsecPolicies (ps : XfrmPolicies) (localLease remoteLease : Lease) (reqId : Nat) :
    XfrmPolicies × Bool :=
  andThen (andThen (addXfrmPolicy ps localLease remoteLease dirOut reqId)
    fun ps => addXfrmPolicy ps remoteLease localLease dirIn reqId)
    fun ps => addXfrmPolicy ps remoteLease localLease dirFwd reqId

/-- `delete_ipsec_policies`. -/
def deleteIpsecPolicies (ps : XfrmPolicies) (localLease remoteLease : Lease) (reqId : Nat) :
    XfrmPolicies × Bool :=
  andThen (andThen (delXfrmPolicy ps localLease remoteLease dirOut reqId)
    fun ps => delXfrmPolicy ps remoteLease localLease dirIn reqId)
    fun ps => delXfrmPolicy ps remoteLease localLease dirFwd reqId

/-! ## Connections -/

/-- `ChildConf`. -/
structure ChildConf where
  localTs : List String
  remoteTs : List String
  espProposals : List String
  startAction : String
  closeAction : String
  dpdAction : String
  mode : String
  reqid : String
  rekeyTime : String
  installPolicy : String
  deriving DecidableEq, Repr

/-- `IkeConf`. -/
structure IkeConf where
  localAddrs : List String
  remoteAddrs : List String
  proposals : List String
  version : String
  keyingTries : String
  encap : String
  childName : String
  child : ChildConf
  deriving DecidableEq, Repr

/-- The connections of the daemon, by name. -/
abbrev Connections := String → Option IkeConf

/-- `IPsecNetwork`, with the proposal of its `Charon`, and without the password and the
subnet manager. -/
structure IPsecNetwork where
  lease : Lease
  udpEncap : Bool
  espProposal : String
  deriving DecidableEq, Repr

/-- `format_connection_name`. -/
def formatConnectionName (localLease remoteLease : Lease) : String :=
  s!"{localLease.attrs.publicIp.toString}-{localLease.subnet.toString}-{remoteLease.subnet.toString}-{remoteLease.attrs.publicIp.toString}"

/-- `format_child_sa_conf_name`. -/
def formatChildSaConfName (localLease remoteLease : Lease) : String :=
  s!"{localLease.subnet.toString}-{remoteLease.subnet.toString}"

/-- The configuration that `load_connection` builds. -/
def ikeConf (espProposal : String) (localLease remoteLease : Lease) (reqId : String)
    (encap : Bool) : IkeConf where
  localAddrs := [localLease.attrs.publicIp.toString]
  remoteAddrs := [remoteLease.attrs.publicIp.toString]
  proposals := ["aes256-sha256-modp4096"]
  version := "2"
  keyingTries := "0"
  encap := if encap then "true" else "false"
  childName := formatChildSaConfName localLease remoteLease
  child :=
    { localTs := [localLease.subnet.toString]
      remoteTs := [remoteLease.subnet.toString]
      espProposals := [espProposal]
      startAction := "start"
      closeAction := "trap"
      dpdAction := "restart"
      mode := "tunnel"
      reqid := reqId
      rekeyTime := "1h"
      installPolicy := "no" }

/-- `load_connection`. -/
def loadConnection (cs : Connections) (espProposal : String) (localLease remoteLease : Lease)
    (reqId : String) (encap : Bool) : Connections :=
  Function.update cs (formatConnectionName localLease remoteLease)
    (some (ikeConf espProposal localLease remoteLease reqId encap))

/-- `unload_charon_connection`. -/
def unloadCharonConnection (cs : Connections) (localLease remoteLease : Lease) : Connections :=
  Function.update cs (formatConnectionName localLease remoteLease) none

/-! ## Events -/

/-- What the backend has set up. -/
structure IpsecState where
  policies : XfrmPolicies
  connections : Connections

/-- One event of `handle_subnet_events`.  A failure is logged, and the rest of the event is
handled all the same. -/
def handleIpsecEvent (net : IPsecNetwork) (s : IpsecState) (e : Event) : IpsecState :=
  match e.eventType with
  | .added =>
    if e.lease.attrs.backendType ≠ "ipsec" then s
    else if e.lease.subnet = net.lease.subnet then s
    else
      { policies := (addIpsecPolicies s.policies net.lease e.lease defaultReqId).1
        connections := loadConnection s.connections net.espProposal net.lease e.lease
          defaultReqId.repr net.udpEncap }
  | .removed =>
    if e.lease.attrs.backendType ≠ "ipsec" then s
    else if e.lease.subnet = net.lease.subnet then s
    else
      { connections := unloadCharonConnection s.connections net.lease e.lease
        policies := (deleteIpsecPolicies s.policies net.lease e.lease defaultReqId).1 }

/-- `handle_subnet_events`. -/
def handleIpsecEvents (net : IPsecNetwork) (s : IpsecState) (batch : List Event) : IpsecState :=
  batch.foldl (handleIpsecEvent net) s

end Flannel
