import Flannel.Cni.DelegateConf
import Flannel.Lib.Run

/-!
# The commands of the CNI plugin

`flannel-cni/src/lib.rs` with `skel.rs` and `delegate.rs`: the container runtime calls the plugin
with a command, the plugin makes a configuration out of the netconf and `subnet.env`, and
passes the command on to the plugin that does the work.  That one keeps the addresses: a
successful `ADD` takes one, and `DEL` gives it back.

Everything the plugin knows at a `DEL` it reads again.  Between the two commands flanneld may have
rewritten or removed `subnet.env`, so `DEL` falls back to the user's overrides alone.  This
configuration has the same type, name and version as that of the `ADD`, but an IPAM part only if
the user wrote one.  Without it the delegate is not told whose address to give back, and
`cmd_del` reports success all the same.

The delegates are not part of the repository.  They are a parameter: how they answer, which
addresses they hold, and what is documented about the two.  An address is held for the IPAM
plugin, the network, the container and the interface (`Address`).  The texts of the errors
that only say which file could not be read or written are left out.
-/

namespace Flannel

namespace Cni

open Json

/-! ## The code -/

/-- `CniArgs`. -/
structure CniArgs where
  command : String
  containerId : String
  netns : String
  ifName : String
  args : String
  path : String
  deriving DecidableEq, Repr

/-- `args_from`: the command has to be there, the others default to empty. -/
def argsFrom (lookup : String → Option String) : Except String CniArgs :=
  match (lookup "CNI_COMMAND").filter (· ≠ "") with
  | none => .error "CNI_COMMAND env var missing"
  | some command => .ok
      { command := command
        containerId := (lookup "CNI_CONTAINERID").getD ""
        netns := (lookup "CNI_NETNS").getD ""
        ifName := (lookup "CNI_IFNAME").getD ""
        args := (lookup "CNI_ARGS").getD ""
        path := (lookup "CNI_PATH").getD "" }

/-- Why a command fails. -/
inductive CommandError where
  | netconf (msg : String)
  | subnetEnv (msg : String)
  | build (msg : String)
  | noType
  | emptyType
  | notFound (name path : String)
  | io
  | delegate (op : String) (reported : Option (Int × String))
  | unparseable
  | masq
  deriving DecidableEq, Repr

/-- What a delegate leaves when it ends: its status, and its output if that is JSON. -/
structure DelegateOutput where
  success : Bool
  stdout : Option Value

/-- `load_flannel_subnet_env`, on the contents of the file, `none` if it cannot be read. -/
def loadFlannelSubnetEnv (file : Option String) : Except CommandError FlannelSubnetEnv :=
  match file with
  | none => .error (.subnetEnv "failed to read subnet.env file")
  | some contents => (parseSubnetEnv contents).mapError .subnetEnv

/-- `build_delegate_conf`, with its error among those of the commands. -/
def delegateConf (conf : NetConf) (file : Option String) : Except CommandError Value := do
  let env ← loadFlannelSubnetEnv file
  (buildDelegateConf conf env).mapError .build

/-- `minimal_delegate_conf`. -/
def minimalDelegateConf (conf : NetConf) : Value :=
  let delegate := SortedMap.insert "cniVersion" (.string conf.cniVersion) []
  let delegate := SortedMap.insert "name" (.string conf.name) delegate
  let delegate := SortedMap.insert "type" (.string defaultDelegateType) delegate
  .object (SortedMap.extend delegate conf.delegate.members)

/-- A value under a key; other values than objects have none. -/
def member (v : Value) (k : String) : Option Value :=
  match v with
  | .object members => SortedMap.get members k
  | _ => none

/-- `Path::join`. -/
def joinPath (dir name : String) : String :=
  if name.toList.head? = some '/' then name
  else if dir.toList.getLast? = some '/' then dir ++ name
  else dir ++ "/" ++ name

/-- `find_plugin`, on the regular files there are. -/
def findPlugin (files : List String) (path : String) (pluginType : Option Value) :
    Except CommandError String :=
  match pluginType.bind Value.asStr with
  | none => .error .noType
  | some name =>
    if name = "" then .error .emptyType
    else
      let dirs := ((path.toList.splitOn ':').map String.ofList).filter (· ≠ "")
      let candidates := dirs.map fun dir => joinPath dir name
      match candidates.find? fun candidate => files.contains candidate with
      | some plugin => .ok plugin
      | none => .error (.notFound name path)

/-- Whose address it is. -/
structure Address where
  ipam : String
  network : String
  containerId : String
  ifName : String
  deriving DecidableEq, Repr

/-- The delegates of a node: what one does when it is run, `none` if that fails, and the addresses
they hold. -/
structure Delegates (δ : Type) where
  exec : (plugin op : String) → CniArgs → Value → δ → Option DelegateOutput × δ
  holds : δ → Address → Bool

/-- `delegate_error`. -/
def delegateError (op : String) (out : DelegateOutput) : CommandError :=
  .delegate op (out.stdout.bind fun v => do
    let code ← (member v "code").bind Value.asI64
    let msg ← (member v "msg").bind Value.asStr
    return (code, msg))

section Commands

variable {δ : Type} (d : Delegates δ)

/-- `delegate_add`. -/
def delegateAdd (conf : Value) (plugin : String) (args : CniArgs) (s : δ) :
    Except CommandError Value × δ :=
  match d.exec plugin "ADD" args conf s with
  | (none, s) => (.error .io, s)
  | (some out, s) =>
    if out.success then
      match out.stdout with
      | some result => (.ok result, s)
      | none => (.error .unparseable, s)
    else (.error (delegateError "ADD" out), s)

/-- `delegate_del` and `delegate_check`, which take no result. -/
def delegateRun (op : String) (conf : Value) (plugin : String) (args : CniArgs) (s : δ) :
    Except CommandError Unit × δ :=
  match d.exec plugin op args conf s with
  | (none, s) => (.error .io, s)
  | (some out, s) => if out.success then (.ok (), s) else (.error (delegateError op out), s)

/-- The host that a command finds: `subnet.env`, the files there are, and whether the masquerade
rules can be set up. -/
structure CniHost where
  file : Option String
  files : List String
  masqOk : Bool

/-- `cmd_add`. -/
def cmdAdd (h : CniHost) (args : CniArgs) (conf : NetConf) (s : δ) :
    Except CommandError Value × δ :=
  match loadFlannelSubnetEnv h.file with
  | .error e => (.error e, s)
  | .ok env =>
    match (buildDelegateConf conf env).mapError CommandError.build with
    | .error e => (.error e, s)
    | .ok c =>
      match findPlugin h.files args.path (member c "type") with
      | .error e => (.error e, s)
      | .ok plugin =>
        match delegateAdd d c plugin args s with
        | (.error e, s) => (.error e, s)
        | (.ok result, s) =>
          if env.ipmasq && !h.masqOk then (.error .masq, s) else (.ok result, s)

/-- The configuration of a `DEL`. -/
def delConf (h : CniHost) (conf : NetConf) : Value :=
  match delegateConf conf h.file with
  | .ok c => c
  -- `subnet.env` is missing or broken, or has no subnet
  | .error _ => minimalDelegateConf conf

/-- `cmd_del`.  Whatever the delegate reports, this is a success. -/
def cmdDel (h : CniHost) (args : CniArgs) (conf : NetConf) (s : δ) :
    Except CommandError Unit × δ :=
  let c := delConf h conf
  match findPlugin h.files args.path (member c "type") with
  | .error e => (.error e, s)
  | .ok plugin => (.ok (), (delegateRun d "DEL" c plugin args s).2)

/-- `cmd_check`. -/
def cmdCheck (h : CniHost) (args : CniArgs) (conf : NetConf) (s : δ) :
    Except CommandError Unit × δ :=
  match delegateConf conf h.file with
  | .error e => (.error e, s)
  | .ok c =>
    match findPlugin h.files args.path (member c "type") with
    | .error e => (.error e, s)
    | .ok plugin => delegateRun d "CHECK" c plugin args s

/-- `SUPPORTED_VERSIONS`. -/
def supportedVersions : List String := ["0.1.0", "0.2.0", "0.3.0", "0.3.1", "0.4.0", "1.0.0"]

/-- What is printed: nothing, a result, the versions, or a CNI error object. -/
inductive Printed where
  | nothing
  | result (v : Value)
  | versions (cniVersion : String) (supported : List String)
  | error (cniVersion : String) (code : Int) (e : CommandError)
  | unknown (cniVersion : String) (code : Int) (command : String)

/-- `dispatch`: the exit code, what is printed, and the delegates afterwards. -/
def dispatch (h : CniHost) (args : CniArgs) (conf : Except String NetConf) (s : δ) :
    Int × Printed × δ :=
  match conf with
  | .error msg =>
    if args.command = "VERSION" then (0, .versions "1.0.0" supportedVersions, s)
    else (1, .error "1.0.0" 1 (.netconf msg), s)
  | .ok conf =>
    match args.command with
    | "ADD" =>
      match cmdAdd d h args conf s with
      | (.ok result, s) => (0, .result result, s)
      | (.error e, s) => (1, .error conf.cniVersion 100 e, s)
    | "DEL" =>
      match cmdDel d h args conf s with
      | (.ok (), s) => (0, .nothing, s)
      | (.error e, s) => (1, .error conf.cniVersion 100 e, s)
    | "CHECK" =>
      match cmdCheck d h args conf s with
      | (.ok (), s) => (0, .nothing, s)
      | (.error e, s) => (1, .error conf.cniVersion 100 e, s)
    | "VERSION" => (0, .versions conf.cniVersion supportedVersions, s)
    | other => (1, .unknown conf.cniVersion 4 other, s)

end Commands

/-! ## The address of an attachment -/

/-- The address that a configuration is about. -/
def addressOf (c : Value) (args : CniArgs) : Option Address := do
  let ipam ← ((member c "ipam").bind fun v => member v "type").bind Value.asStr
  let network ← (member c "name").bind Value.asStr
  return ⟨ipam, network, args.containerId, args.ifName⟩

/-- The address of an attachment: that of the configuration `ADD` makes, whatever `subnet.env`
has. -/
def attachmentOf (conf : NetConf) (args : CniArgs) : Option Address := do
  let ipam ← ((SortedMap.get (userIpam conf) "type").or
    (some (.string defaultDelegateIpamType))).bind Value.asStr
  let network ← ((conf.delegate.get "name").or (some (.string conf.name))).bind Value.asStr
  return ⟨ipam, network, args.containerId, args.ifName⟩

/-- What is documented about the delegates: `ADD` takes at most the address of its configuration,
a successful `DEL` gives it back and no other, and `CHECK` changes nothing. -/
structure Delegates.Documented {δ : Type} (d : Delegates δ) : Prop where
  add (plugin : String) (args : CniArgs) (c : Value) (s : δ) (k : Address) :
    d.holds (d.exec plugin "ADD" args c s).2 k = true →
      d.holds s k = true ∨ addressOf c args = some k
  del (plugin : String) (args : CniArgs) (c : Value) (s : δ) (out : DelegateOutput) :
    (d.exec plugin "DEL" args c s).1 = some out → out.success = true → ∀ k,
      (d.holds (d.exec plugin "DEL" args c s).2 k = true ↔
        d.holds s k = true ∧ addressOf c args ≠ some k)
  check (plugin : String) (args : CniArgs) (c : Value) (s : δ) (k : Address) :
    d.holds (d.exec plugin "CHECK" args c s).2 k = d.holds s k

section Configurations

variable {conf : NetConf} {file : Option String} {c : Value}

/-- A configuration that is built has the parts of `delegateOf`. -/
theorem delegateConf_ok (h : delegateConf conf file = .ok c) :
    ∃ env p, injected conf env = some p ∧
      c = .object (delegateOf conf env (ipamOf conf env p)) := by
  unfold delegateConf at h
  cases hload : loadFlannelSubnetEnv file with
  | error e =>
    rw [hload] at h
    cases h
  | ok env =>
    rw [hload] at h
    by_cases hno : NoSubnet conf env
    · obtain ⟨e, he⟩ := buildDelegateConf_of_noSubnet hno
      change (buildDelegateConf conf env).mapError _ = _ at h
      rw [he] at h
      cases h
    · obtain ⟨p, hp, hok⟩ := buildDelegateConf_of_subnet hno
      change (buildDelegateConf conf env).mapError _ = _ at h
      rw [hok] at h
      exact ⟨env, p, hp, (Except.ok.inj h).symm⟩

theorem minimalDelegateConf_eq (conf : NetConf) :
    minimalDelegateConf conf = .object (delegateBase conf) := rfl

/-- **`DEL` asks the same delegate as `ADD`**, whatever `subnet.env` has at either time: its
configuration has the type, the name and the version of the user or the defaults. -/
theorem member_delConf (h : CniHost) (conf : NetConf) {k : String}
    (hk : k = "type" ∨ k = "name" ∨ k = "cniVersion") :
    member (delConf h conf) k = (conf.delegate.get k).or (defaultOf conf k) := by
  unfold delConf
  split
  · rename_i c hc
    obtain ⟨env, p, -, rfl⟩ := delegateConf_ok hc
    rw [member, get_delegateOf]
    rcases hk with rfl | rfl | rfl
    · simp
    · simp
    · simp
  · rw [minimalDelegateConf_eq, member, get_delegateBase]

theorem member_name (hk : delegateConf conf file = .ok c) :
    member c "name" = (conf.delegate.get "name").or (some (.string conf.name)) := by
  have h := member_delConf ⟨file, [], true⟩ conf (k := "name") (by simp)
  rw [delConf, hk] at h
  exact h

/-- The configuration that is made of `subnet.env` is about the attachment. -/
theorem addressOf_delegateConf (h : delegateConf conf file = .ok c) (args : CniArgs) :
    addressOf c args = attachmentOf conf args := by
  have hname := member_name h
  obtain ⟨env, p, hp, rfl⟩ := delegateConf_ok h
  have hipam : member (.object (delegateOf conf env (ipamOf conf env p))) "ipam" =
      some (.object (ipamOf conf env p)) := (merged_of_injected hp).ipam_eq
  have hkey : "type" ≠ p.1 := by
    rw [fst_of_injected hp]
    split_ifs
    · decide
    · decide
  have htype : member (.object (ipamOf conf env p)) "type" =
      (SortedMap.get (userIpam conf) "type").or (some (.string defaultDelegateIpamType)) := by
    rw [member, get_ipamOf, if_neg (by simp), if_neg hkey, if_pos rfl]
  rw [addressOf, attachmentOf, hname, hipam, Option.bind_some, htype]

/-- The user wrote the type of the IPAM plugin. -/
def HasIpamType (conf : NetConf) : Prop := (SortedMap.get (userIpam conf) "type").isSome = true

theorem addressOf_minimal (conf : NetConf) (args : CniArgs) :
    addressOf (minimalDelegateConf conf) args =
      if (SortedMap.get (userIpam conf) "type").isSome then attachmentOf conf args else none := by
  have hname : member (minimalDelegateConf conf) "name" =
      (conf.delegate.get "name").or (some (.string conf.name)) := by
    rw [minimalDelegateConf_eq, member, get_delegateBase]
    rfl
  have htype : ((member (minimalDelegateConf conf) "ipam").bind fun v => member v "type") =
      SortedMap.get (userIpam conf) "type" := by
    rw [minimalDelegateConf_eq, member, get_delegateBase, userIpam]
    cases hipam : conf.delegate.get "ipam" with
    | none => simp [defaultOf, SortedMap.get]
    | some v => cases v <;> simp [member, SortedMap.get]
  rw [addressOf, attachmentOf, hname, htype]
  cases SortedMap.get (userIpam conf) "type" with
  | none => rfl
  | some v => rfl

end Configurations

/-! ## A node -/

/-- A node: the host, the delegates, and the addresses of the attachments that the runtime has
asked for and not deleted. -/
structure CniNode (δ : Type) where
  host : CniHost
  delegates : δ
  live : List Address

/-- What happens: flanneld or someone else changes the host, or the runtime calls the plugin. -/
inductive CniAction where
  | change (host : CniHost)
  | call (args : CniArgs) (conf : Except String NetConf)

/-- The runtime's view after a call.  It asks for an attachment with every `ADD`, whether that
succeeds or not, and drops it with a `DEL` that succeeds. -/
def liveAfter (live : List Address) (args : CniArgs) (conf : Except String NetConf) (code : Int) :
    List Address :=
  match conf with
  | .error _ => live
  | .ok conf =>
    if args.command = "ADD" then (attachmentOf conf args).toList ++ live
    else if args.command = "DEL" ∧ code = 0 then
      live.filter fun k => !decide (attachmentOf conf args = some k)
    else live

namespace CniNode

variable {δ : Type} (d : Delegates δ)

/-- One action. -/
def step (s : CniNode δ) : CniAction → Option (CniNode δ)
  | .change host => some { s with host := host }
  | .call args conf =>
    let r := dispatch d s.host args conf s.delegates
    some { s with delegates := r.2.2, live := liveAfter s.live args conf r.1 }

/-- No address is held but for an attachment of the runtime. -/
def Clean (s : CniNode δ) : Prop := ∀ k, d.holds s.delegates k = true → k ∈ s.live

/-- The condition on a step.  A `DEL` that finds its plugin also finds a `subnet.env` to build the
configuration from, or the user wrote the type of the IPAM plugin, or nothing is held for the
attachment. -/
def Returns (s : CniNode δ) : CniAction → Prop
  | .call args (.ok conf) => args.command = "DEL" →
    (∃ plugin, findPlugin s.host.files args.path
        (member (delConf s.host conf) "type") = .ok plugin) →
      (∃ c, delegateConf conf s.host.file = .ok c) ∨ HasIpamType conf ∨
        ∀ k, attachmentOf conf args = some k → d.holds s.delegates k = false
  | _ => True

/-- The delegates do what a `DEL` asks them for. -/
def DelSucceeds (s : CniNode δ) : CniAction → Prop
  | .call args (.ok conf) => args.command = "DEL" → ∀ plugin, ∃ out,
      (d.exec plugin "DEL" args (delConf s.host conf) s.delegates).1 = some out ∧ out.success = true
  | _ => True

section Commands

variable {d} {h : CniHost} {args : CniArgs} {conf : NetConf} {s : δ}

theorem delegateAdd_snd (c : Value) (plugin : String) (args : CniArgs) (s : δ) :
    (delegateAdd d c plugin args s).2 = (d.exec plugin "ADD" args c s).2 := by
  unfold delegateAdd
  rcases d.exec plugin "ADD" args c s with ⟨_ | out, t⟩
  · rfl
  · cases hsuccess : out.success with
    | false => simp [hsuccess]
    | true => cases hjson : out.stdout <;> simp [hsuccess, hjson]

theorem delegateRun_snd (op : String) (c : Value) (plugin : String) (args : CniArgs) (s : δ) :
    (delegateRun d op c plugin args s).2 = (d.exec plugin op args c s).2 := by
  unfold delegateRun
  rcases d.exec plugin op args c s with ⟨_ | out, t⟩
  · rfl
  · cases hsuccess : out.success <;> simp [hsuccess]

/-- What an `ADD` takes is the address of its attachment. -/
theorem holds_cmdAdd (hd : d.Documented) {k : Address}
    (hk : d.holds (cmdAdd d h args conf s).2 k = true) :
    d.holds s k = true ∨ attachmentOf conf args = some k := by
  unfold cmdAdd at hk
  cases hload : loadFlannelSubnetEnv h.file with
  | error e =>
    rw [hload] at hk
    exact Or.inl hk
  | ok env =>
    simp only [hload] at hk
    cases hbuild : (buildDelegateConf conf env).mapError CommandError.build with
    | error e =>
      rw [hbuild] at hk
      exact Or.inl hk
    | ok c =>
      have hconf : delegateConf conf h.file = .ok c := by
        rw [delegateConf, hload]
        exact hbuild
      simp only [hbuild] at hk
      cases hfind : findPlugin h.files args.path (member c "type") with
      | error e =>
        rw [hfind] at hk
        exact Or.inl hk
      | ok plugin =>
        simp only [hfind] at hk
        -- whatever becomes of the result, the delegate has been run
        have hafter : d.holds (d.exec plugin "ADD" args c s).2 k = true := by
          rw [← delegateAdd_snd]
          rcases hadd : delegateAdd d c plugin args s with ⟨_ | result, t⟩
          · rw [hadd] at hk
            exact hk
          · rw [hadd] at hk
            dsimp only at hk
            split at hk
            · exact hk
            · exact hk
        rw [← addressOf_delegateConf hconf args]
        exact hd.add plugin args c s k hafter

theorem holds_cmdCheck (hd : d.Documented) (k : Address) :
    d.holds (cmdCheck d h args conf s).2 k = d.holds s k := by
  unfold cmdCheck
  cases delegateConf conf h.file with
  | error e => rfl
  | ok c =>
    dsimp only
    cases findPlugin h.files args.path (member c "type") with
    | error e => rfl
    | ok plugin =>
      dsimp only
      rw [delegateRun_snd, hd.check]

/-- What a `DEL` gives back, when it finds its plugin: the address of the attachment if its
configuration has an IPAM type, and nothing otherwise. -/
theorem holds_cmdDel (hd : d.Documented) {plugin : String} {out : DelegateOutput}
    (hfind : findPlugin h.files args.path (member (delConf h conf) "type") = .ok plugin)
    (hout : (d.exec plugin "DEL" args (delConf h conf) s).1 = some out)
    (hsuccess : out.success = true) (k : Address) :
    d.holds (cmdDel d h args conf s).2 k = true ↔ d.holds s k = true ∧
      (((∃ c, delegateConf conf h.file = .ok c) ∨ HasIpamType conf) →
        attachmentOf conf args ≠ some k) := by
  have hcmd : (cmdDel d h args conf s).2 = (d.exec plugin "DEL" args (delConf h conf) s).2 := by
    simp only [cmdDel, hfind, delegateRun_snd]
  rw [hcmd, hd.del plugin args _ s out hout hsuccess k]
  refine and_congr_right fun _ => ?_
  cases hconf : delegateConf conf h.file with
  | ok c =>
    have hdel : delConf h conf = c := by rw [delConf, hconf]
    rw [hdel, addressOf_delegateConf hconf]
    exact ⟨fun hne _ => hne, fun hne => hne (Or.inl ⟨c, rfl⟩)⟩
  | error e =>
    have hdel : delConf h conf = minimalDelegateConf conf := by rw [delConf, hconf]
    rw [hdel, addressOf_minimal]
    by_cases htype : (SortedMap.get (userIpam conf) "type").isSome = true
    · rw [if_pos htype]
      exact ⟨fun hne _ => hne, fun hne => hne (Or.inr htype)⟩
    · rw [if_neg htype]
      refine ⟨fun _ hor => ?_, fun _ => by simp⟩
      rcases hor with ⟨c, hc⟩ | hor
      · cases hc
      · exact absurd hor htype

/-! What `dispatch` makes of each command -/

theorem dispatch_error (h : CniHost) (args : CniArgs) (msg : String) (s : δ) :
    (dispatch d h args (.error msg) s).2.2 = s := by
  simp only [dispatch]
  split_ifs
  · rfl
  · rfl

theorem dispatch_add (hcmd : args.command = "ADD") :
    (dispatch d h args (.ok conf) s).2.2 = (cmdAdd d h args conf s).2 := by
  simp only [dispatch, hcmd]
  rcases cmdAdd d h args conf s with ⟨_ | result, t⟩
  · rfl
  · rfl

theorem dispatch_del (hcmd : args.command = "DEL") {plugin : String}
    (hfind : findPlugin h.files args.path (member (delConf h conf) "type") = .ok plugin) :
    (dispatch d h args (.ok conf) s).1 = 0 ∧
      (dispatch d h args (.ok conf) s).2.2 = (cmdDel d h args conf s).2 := by
  constructor
  · simp only [dispatch, hcmd, cmdDel, hfind]
  · simp only [dispatch, hcmd, cmdDel, hfind]

theorem dispatch_del_missing (hcmd : args.command = "DEL") {e : CommandError}
    (hfind : findPlugin h.files args.path (member (delConf h conf) "type") = .error e) :
    (dispatch d h args (.ok conf) s).1 = 1 ∧ (dispatch d h args (.ok conf) s).2.2 = s := by
  constructor
  · simp only [dispatch, hcmd, cmdDel, hfind]
  · simp only [dispatch, hcmd, cmdDel, hfind]

theorem dispatch_check (hcmd : args.command = "CHECK") :
    (dispatch d h args (.ok conf) s).2.2 = (cmdCheck d h args conf s).2 := by
  simp only [dispatch, hcmd]
  rcases cmdCheck d h args conf s with ⟨_ | result, t⟩
  · rfl
  · rfl

theorem dispatch_other (hadd : args.command ≠ "ADD") (hdel : args.command ≠ "DEL")
    (hcheck : args.command ≠ "CHECK") : (dispatch d h args (.ok conf) s).2.2 = s := by
  simp only [dispatch]
  split
  · exact absurd ‹_› hadd
  · exact absurd ‹_› hdel
  · exact absurd ‹_› hcheck
  · rfl
  · rfl

end Commands

/-! ## Every run -/

section Runs

variable {d} {s t : CniNode δ} {a : CniAction}

/-- A `DEL` of a clean node leaves it clean exactly if the address is given back, or was not
held. -/
theorem clean_del_iff (hd : d.Documented) (hs : s.Clean d) {args : CniArgs} {conf : NetConf}
    (hcmd : args.command = "DEL") (ha : s.DelSucceeds d (.call args (.ok conf)))
    (h : s.step d (.call args (.ok conf)) = some t) :
    t.Clean d ↔ s.Returns d (.call args (.ok conf)) := by
  rw [← Option.some.inj h]
  cases hfind : findPlugin s.host.files args.path (member (delConf s.host conf) "type") with
  | error e =>
    obtain ⟨hcode, hsame⟩ := dispatch_del_missing (d := d) (s := s.delegates) hcmd hfind
    refine iff_of_true (fun k hk => ?_) fun _ ⟨plugin, hplugin⟩ => ?_
    · simp only [hsame] at hk
      simpa [liveAfter, hcmd, hcode] using hs k hk
    · rw [hfind] at hplugin
      cases hplugin
  | ok plugin =>
    obtain ⟨hcode, hafter⟩ := dispatch_del (d := d) (s := s.delegates) hcmd hfind
    obtain ⟨out, hout, hsuccess⟩ := ha hcmd plugin
    have hholds := holds_cmdDel hd hfind hout hsuccess
    have hlive : ∀ k, k ∈ liveAfter s.live args (.ok conf)
        (dispatch d s.host args (.ok conf) s.delegates).1 ↔
          k ∈ s.live ∧ attachmentOf conf args ≠ some k := by
      simp [liveAfter, hcmd, hcode]
    constructor
    · intro hclean _ _
      by_contra hno
      rw [not_or, not_or] at hno
      obtain ⟨hconf, htype, hheld⟩ := hno
      push Not at hheld
      obtain ⟨k, hk, hheld⟩ := hheld
      -- the delegate keeps the address, and the runtime has dropped it
      have hkept : d.holds (cmdDel d s.host args conf s.delegates).2 k = true :=
        (hholds k).mpr ⟨by simpa using hheld, fun hor => absurd hor (not_or.mpr ⟨hconf, htype⟩)⟩
      have hmem := hclean k (by simp only [hafter]; exact hkept)
      exact ((hlive k).mp hmem).2 hk
    · intro hreturns k hk
      simp only [hafter] at hk
      obtain ⟨hbefore, hgiven⟩ := (hholds k).mp hk
      refine (hlive k).mpr ⟨hs k hbefore, fun hattach => ?_⟩
      rcases hreturns hcmd ⟨plugin, hfind⟩ with hconf | htype | hheld
      · exact hgiven (Or.inl hconf) hattach
      · exact hgiven (Or.inr htype) hattach
      · rw [hheld k hattach] at hbefore
        cases hbefore

/-- **One action**: a clean node stays clean exactly if the condition holds. -/
theorem clean_step_iff (hd : d.Documented) (hs : s.Clean d) (ha : s.DelSucceeds d a)
    (h : s.step d a = some t) : t.Clean d ↔ s.Returns d a := by
  cases a with
  | change host =>
    rw [← Option.some.inj h]
    exact iff_of_true hs trivial
  | call args conf? =>
    cases conf? with
    | error msg =>
      refine iff_of_true (fun k hk => ?_) trivial
      rw [← Option.some.inj h] at hk ⊢
      simp only [dispatch_error] at hk
      exact hs k hk
    | ok conf =>
      by_cases hdel : args.command = "DEL"
      · exact clean_del_iff hd hs hdel ha h
      · -- no other command gives an address up
        refine iff_of_true (fun k hk => ?_) fun hcmd => absurd hcmd hdel
        rw [← Option.some.inj h] at hk ⊢
        by_cases hadd : args.command = "ADD"
        · simp only [dispatch_add hadd] at hk
          rcases holds_cmdAdd hd hk with hbefore | hattach
          · simp [liveAfter, hadd, hs k hbefore]
          · simp [liveAfter, hadd, hattach]
        · have hsame : d.holds s.delegates k = true := by
            by_cases hcheck : args.command = "CHECK"
            · simpa only [dispatch_check hcheck, holds_cmdCheck hd] using hk
            · simpa only [dispatch_other hadd hdel hcheck] using hk
          simpa [liveAfter, hadd, hdel] using hs k hsame

variable (d s)

/-- **The addresses of deleted attachments.**  In every run of commands of the runtime and of
changes of the host, from a node where no address is held but for a live attachment, and
where the delegates do what `DEL` asks them for: no address of a deleted attachment is ever held
exactly if every `DEL` that finds its plugin also finds a `subnet.env` to build the configuration
from, or the user wrote the type of the IPAM plugin, or nothing is held for the attachment. -/
theorem addresses_returned_iff (hd : d.Documented) (hs : s.Clean d) (as : List CniAction)
    (hdel : Run.Along (step d) (DelSucceeds d) s as) (u : CniNode δ)
    (hrun : Run.run (step d) s as = some u) :
    (∀ pre, pre <+: as → ∀ t, Run.run (step d) s pre = some t → t.Clean d) ↔
      Run.Along (step d) (Returns d) s as :=
  Run.forall_prefix_iff_along (P := Clean d) (A := Clean d)
    (fun _ _ _ hP hW hst => ⟨clean_step_iff hd hP hW hst, (clean_step_iff hd hP hW hst).mpr⟩)
    (fun _ hP => hP) hs hdel hrun

end Runs

/-! ## A node whose `subnet.env` goes -/

/-- A delegate that keeps a list of addresses. -/
def addressList : Delegates (List Address) where
  exec _ op args c s :=
    match op with
    | "ADD" => (some ⟨true, some (.object [])⟩, (addressOf c args).toList ++ s)
    | "DEL" => (some ⟨true, none⟩, s.filter fun k => !decide (addressOf c args = some k))
    | _ => (some ⟨true, none⟩, s)
  holds s k := decide (k ∈ s)

theorem addressList_documented : addressList.Documented := by
  refine ⟨fun plugin args c s k h => ?_, fun plugin args c s out _ _ k => ?_,
    fun plugin args c s k => rfl⟩
  · simpa [addressList, or_comm] using h
  · simp [addressList]

/-- A node with a subnet file and the bridge plugin. -/
def cniNode : CniNode (List Address) where
  host := ⟨some "FLANNEL_SUBNET=10.0.0.0/8", ["/bin/bridge"], true⟩
  delegates := []
  live := []

/-- The runtime calls for a container. -/
def containerCall (command : String) : CniAction :=
  .call ⟨command, "c1", "", "eth0", "", "/bin"⟩
    (.ok { name := "cbr0", delegate := ⟨[], Value.wf_empty⟩ })

/-- The container's address is given back while `subnet.env` is there; after it was removed the
address is held, and nobody is left who would give it back. -/
example :
    (∀ pre, pre <+: [containerCall "ADD", containerCall "DEL"] →
      ∀ t, Run.run (step addressList) cniNode pre = some t → t.Clean addressList) ∧
    ¬ ∀ pre, pre <+: [containerCall "ADD", .change ⟨none, ["/bin/bridge"], true⟩,
        containerCall "DEL"] →
      ∀ t, Run.run (step addressList) cniNode pre = some t → t.Clean addressList := by
  have hclean : cniNode.Clean addressList := by
    intro k hk
    cases hk
  have hsucceeds : ∀ s a, DelSucceeds addressList s a := by
    intro s a
    cases a with
    | change host => trivial
    | call args conf =>
      cases conf with
      | error msg => trivial
      | ok conf => exact fun _ plugin => ⟨⟨true, none⟩, rfl, rfl⟩
  have halong : ∀ s as, Run.Along (step addressList) (DelSucceeds addressList) s as := by
    intro s as
    induction as generalizing s with
    | nil => trivial
    | cons a as ih => exact ⟨hsucceeds s a, fun t _ => ih t⟩
  constructor
  · refine (addresses_returned_iff addressList cniNode addressList_documented hclean _
      (halong _ _) _ rfl).mpr
        ⟨fun hcmd => absurd hcmd (by decide), fun t ht => ⟨?_, fun _ _ => trivial⟩⟩
    obtain rfl := Option.some.inj ht
    exact fun _ _ => Or.inl ⟨_, rfl⟩
  · intro hall
    have hreturns := (addresses_returned_iff addressList cniNode addressList_documented hclean _
      (halong _ _) _ rfl).mp hall
    rcases (((hreturns.2 _ rfl).2 _ rfl).1 rfl ⟨"/bin/bridge", rfl⟩) with ⟨c, hc⟩ | htype | hheld
    · cases hc
    · cases htype
    · have hfree := hheld ⟨"host-local", "cbr0", "c1", "eth0"⟩ rfl
      revert hfree
      decide

end CniNode

end Cni

end Flannel
