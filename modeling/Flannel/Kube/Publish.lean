import Flannel.Kube.Acquire

/-!
# Publishing the own lease

`maybe_patch_annotations` writes the attributes of the own lease into the annotations
of the own node.  It first tests whether anything differs, then builds the annotation
map it wants, and sends the key-level difference.  The three do not test the same
things: a backend may publish nothing for a family, and a non-empty overwrite
annotation makes the first test succeed for ever, while the map it leads to has long
been reached.

Because the keys are distinct, the map that is built can be read key by key
(`wantedAnnotations_apply`): a key that is published has a value that depends on the
overwrite annotations only, and every other key keeps its value.  The overwrite
annotations are themselves not published, so building the map a second time publishes
the same values again (`wantedAnnotations_idem`), and the difference is empty.

The last section is about calls of `acquire_lease` that fail because of the pod CIDRs.
The annotations are set before the lease is derived, so of the three tests on the CIDRs
two come before the patch and one after it.
-/

namespace Flannel

/-! ## The keys -/

/-- The keys that `maybe_patch_annotations` writes to. -/
def Annotations.publishedKeys (a : Annotations) : List String :=
  [a.backendType, a.backendData, a.backendV6Data, a.backendPublicIp, a.backendPublicIpv6,
    a.subnetKubeManaged]

theorem annotationsWith_keys_nodup (pre : String) : (annotationsWith pre).keys.Nodup := by
  have hinj : Function.Injective fun suffix : String => pre ++ suffix :=
    fun s t h => String.append_right_inj pre |>.mp h
  exact List.Nodup.map hinj (l := ["kube-subnet-manager", "backend-data", "backend-v6-data",
    "backend-type", "public-ip", "public-ipv6", "node-public-ip", "node-public-ipv6",
    "public-ip-overwrite", "public-ipv6-overwrite"]) (by decide)

/-- The overwrite keys are none of those that are written to. -/
theorem overwrite_not_published {a : Annotations} (hkeys : a.keys.Nodup) :
    a.backendPublicIpOverwrite ∉ a.publishedKeys ∧
      a.backendPublicIpv6Overwrite ∉ a.publishedKeys := by
  simp only [Annotations.keys, List.nodup_cons, List.mem_cons, not_or] at hkeys
  simp only [Annotations.publishedKeys, List.mem_cons, not_or]
  grind

/-! ## Patches -/

/-- A strategic-merge patch, applied key by key. -/
def mergePatch (patch ann : String → Option String) : String → Option String :=
  fun key => (patch key).or (ann key)

theorem mergePatch_of_none {patch ann : String → Option String} {key : String}
    (h : patch key = none) : mergePatch patch ann key = ann key := by
  unfold mergePatch
  rw [h, Option.none_or]

theorem mergePatch_of_some {patch ann : String → Option String} {key value : String}
    (h : patch key = some value) : mergePatch patch ann key = some value := by
  unfold mergePatch
  rw [h, Option.some_or]

theorem mergePatch_assoc (p q ann : String → Option String) :
    mergePatch p (mergePatch q ann) = mergePatch (mergePatch p q) ann := by
  funext key
  exact (Option.or_assoc).symm

theorem mergePatch_idem (patch ann : String → Option String) :
    mergePatch patch (mergePatch patch ann) = mergePatch patch ann := by
  funext key
  cases hp : patch key with
  | none => rw [mergePatch_of_none hp]
  | some value => rw [mergePatch_of_some hp, mergePatch_of_some hp]

/-- The patch with one key. -/
def singlePatch (key value : String) : String → Option String :=
  fun k => if k = key then some value else none

theorem insertAnnotation_eq_merge (ann : String → Option String) (key value : String) :
    annotationInsert ann key value = mergePatch (singlePatch key value) ann := by
  funext k
  unfold annotationInsert mergePatch singlePatch
  rw [Function.update_apply]
  split
  · rfl
  · rfl

theorem some_of_annotation_eq {ann : String → Option String} {key value : String}
    (h : annotationOf ann key = value) (hne : value ≠ "") : ann key = some value := by
  unfold annotationOf at h
  cases hk : ann key with
  | none =>
    rw [hk] at h
    exact absurd h.symm hne
  | some v =>
    rw [hk] at h
    exact congrArg some h

/-! ## What is published -/

/-- The address that is published for a family: the override, if there is one. -/
def publishedIp (keys : FamilyKeys) (ann : String → Option String) (publicIp : String) : String :=
  if annotationOf ann keys.overwrite ≠ "" then annotationOf ann keys.overwrite else publicIp

/-- What is published for one family. -/
def familyPatch (keys : FamilyKeys) (ann : String → Option String) (data publicIp : String) :
    String → Option String :=
  mergePatch (singlePatch keys.publicIp (publishedIp keys ann publicIp))
    (singlePatch keys.data data)

/-- What is published for IPv4. -/
def ipv4Patch (a : Annotations) (attrs : LeaseAttrs) (ann : String → Option String) (bd : String) :
    String → Option String :=
  if publishesIpv4 attrs bd then familyPatch a.ipv4Keys ann bd attrs.publicIp.toString
  else fun _ => none

/-- What is published for IPv6. -/
def ipv6Patch (a : Annotations) (attrs : LeaseAttrs) (ann : String → Option String)
    (v6Bd : String) : String → Option String :=
  if publishesIpv6 attrs v6Bd then
    match attrs.publicIpv6 with
    | some v6 => familyPatch a.ipv6Keys ann v6Bd v6.toString
    | none => fun _ => none
  else fun _ => none

/-- What is published, on a node whose annotations are `ann`. -/
def publishedPatch (a : Annotations) (attrs : LeaseAttrs) (ann : String → Option String)
    (bd v6Bd : String) : String → Option String :=
  mergePatch (singlePatch a.subnetKubeManaged "true")
    (mergePatch (ipv6Patch a attrs ann v6Bd)
      (mergePatch (ipv4Patch a attrs ann bd) (singlePatch a.backendType attrs.backendType)))

theorem annotation_merge {patch ann : String → Option String} {key : String}
    (h : patch key = none) : annotationOf (mergePatch patch ann) key = annotationOf ann key := by
  unfold annotationOf
  rw [mergePatch_of_none h]

/-! ### It depends on the overrides only -/

theorem familyPatch_merge {keys : FamilyKeys} {patch : String → Option String}
    (h : patch keys.overwrite = none) (ann : String → Option String) (data publicIp : String) :
    familyPatch keys (mergePatch patch ann) data publicIp = familyPatch keys ann data publicIp := by
  unfold familyPatch publishedIp
  rw [annotation_merge h]

theorem ipv4Patch_merge {a : Annotations} {patch : String → Option String}
    (h : patch a.backendPublicIpOverwrite = none) (attrs : LeaseAttrs)
    (ann : String → Option String) (bd : String) :
    ipv4Patch a attrs (mergePatch patch ann) bd = ipv4Patch a attrs ann bd := by
  unfold ipv4Patch
  rw [@familyPatch_merge a.ipv4Keys patch h]

theorem ipv6Patch_merge {a : Annotations} {patch : String → Option String}
    (h : patch a.backendPublicIpv6Overwrite = none) (attrs : LeaseAttrs)
    (ann : String → Option String) (v6Bd : String) :
    ipv6Patch a attrs (mergePatch patch ann) v6Bd = ipv6Patch a attrs ann v6Bd := by
  unfold ipv6Patch
  simp only [@familyPatch_merge a.ipv6Keys patch h]

/-! ### It writes to the published keys only -/

theorem singlePatch_of_ne {key k value : String} (h : k ≠ key) : singlePatch key value k = none :=
  if_neg h

theorem familyPatch_of_ne {keys : FamilyKeys} {k : String} (hip : k ≠ keys.publicIp)
    (hdata : k ≠ keys.data) (ann : String → Option String) (data publicIp : String) :
    familyPatch keys ann data publicIp k = none := by
  unfold familyPatch
  rw [mergePatch_of_none (singlePatch_of_ne hip), singlePatch_of_ne hdata]

theorem ipv4Patch_of_ne {a : Annotations} {k : String} (hip : k ≠ a.backendPublicIp)
    (hdata : k ≠ a.backendData) (attrs : LeaseAttrs) (ann : String → Option String)
    (bd : String) : ipv4Patch a attrs ann bd k = none := by
  unfold ipv4Patch
  split
  · exact familyPatch_of_ne hip hdata _ _ _
  · rfl

theorem ipv6Patch_of_ne {a : Annotations} {k : String} (hip : k ≠ a.backendPublicIpv6)
    (hdata : k ≠ a.backendV6Data) (attrs : LeaseAttrs) (ann : String → Option String)
    (v6Bd : String) : ipv6Patch a attrs ann v6Bd k = none := by
  unfold ipv6Patch
  cases attrs.publicIpv6 with
  | none => simp
  | some v6 =>
    split
    · exact familyPatch_of_ne hip hdata _ _ _
    · rfl

theorem publishedPatch_of_not_mem {a : Annotations} {k : String} (hk : k ∉ a.publishedKeys)
    (attrs : LeaseAttrs) (ann : String → Option String) (bd v6Bd : String) :
    publishedPatch a attrs ann bd v6Bd k = none := by
  simp only [Annotations.publishedKeys, List.mem_cons, List.not_mem_nil, or_false, not_or] at hk
  obtain ⟨htype, hdata, hv6Data, hip, hipv6, hmanaged⟩ := hk
  unfold publishedPatch
  rw [mergePatch_of_none (singlePatch_of_ne hmanaged),
    mergePatch_of_none (ipv6Patch_of_ne hipv6 hv6Data attrs ann v6Bd),
    mergePatch_of_none (ipv4Patch_of_ne hip hdata attrs ann bd), singlePatch_of_ne htype]

/-! ## The built map -/

/-- What is inserted for a family is what is published for it.  The branch that does not
insert the address finds it there already. -/
theorem insertFamily_eq_merge {keys : FamilyKeys} (hdata : keys.overwrite ≠ keys.data)
    (ann : String → Option String) (data publicIp : String) :
    insertFamily keys ann data publicIp = mergePatch (familyPatch keys ann data publicIp) ann := by
  have hover : annotationOf (annotationInsert ann keys.data data) keys.overwrite =
      annotationOf ann keys.overwrite := by
    rw [insertAnnotation_eq_merge, annotation_merge (singlePatch_of_ne hdata)]
  unfold insertFamily familyPatch publishedIp
  simp only [hover]
  rw [← mergePatch_assoc, ← insertAnnotation_eq_merge]
  by_cases ho : annotationOf ann keys.overwrite = ""
  · rw [if_neg (not_not.mpr ho), if_neg (not_not.mpr ho), ← insertAnnotation_eq_merge]
  · rw [if_pos ho, if_pos ho, ← insertAnnotation_eq_merge]
    split
    · rfl
    · rename_i hsame
      have hthere := some_of_annotation_eq (not_not.mp hsame) ho
      exact (Function.update_eq_self_iff.mpr hthere.symm).symm

theorem insertIpv4_eq_merge {a : Annotations} (hdata : a.backendPublicIpOverwrite ≠ a.backendData)
    (attrs : LeaseAttrs) (ann : String → Option String) (bd : String) :
    (if publishesIpv4 attrs bd then insertFamily a.ipv4Keys ann bd attrs.publicIp.toString
      else ann) = mergePatch (ipv4Patch a attrs ann bd) ann := by
  unfold ipv4Patch
  split
  · exact insertFamily_eq_merge hdata _ _ _
  · rfl

theorem insertIpv6_eq_merge {a : Annotations}
    (hdata : a.backendPublicIpv6Overwrite ≠ a.backendV6Data) (attrs : LeaseAttrs)
    (ann : String → Option String) (v6Bd : String) :
    (if publishesIpv6 attrs v6Bd then
        match attrs.publicIpv6 with
        | some v6 => insertFamily a.ipv6Keys ann v6Bd v6.toString
        | none => ann
      else ann) = mergePatch (ipv6Patch a attrs ann v6Bd) ann := by
  unfold ipv6Patch
  split
  · split
    · exact insertFamily_eq_merge hdata _ _ _
    · rfl
  · rfl

/-- **The built map.**  Every key has its published value, or the value it had. -/
theorem wantedAnnotations_eq_merge {a : Annotations} (hkeys : a.keys.Nodup) (attrs : LeaseAttrs)
    (ann : String → Option String) (bd v6Bd : String) :
    wantedAnnotations a attrs ann bd v6Bd =
      mergePatch (publishedPatch a attrs ann bd v6Bd) ann := by
  simp only [Annotations.keys, List.nodup_cons, List.mem_cons, not_or] at hkeys
  have hdata4 : a.backendPublicIpOverwrite ≠ a.backendData := by grind
  have hdata6 : a.backendPublicIpv6Overwrite ≠ a.backendV6Data := by grind
  -- the values before an insertion do not touch the override it reads
  have htype4 : singlePatch a.backendType attrs.backendType a.backendPublicIpOverwrite = none :=
    singlePatch_of_ne (by grind)
  have htype6 : singlePatch a.backendType attrs.backendType a.backendPublicIpv6Overwrite = none :=
    singlePatch_of_ne (by grind)
  have hipv4 : ipv4Patch a attrs ann bd a.backendPublicIpv6Overwrite = none :=
    ipv4Patch_of_ne (by grind) (by grind) attrs ann bd
  unfold wantedAnnotations publishedPatch
  refine (congrArg (fun m => annotationInsert m a.subnetKubeManaged "true")
    (insertIpv6_eq_merge hdata6 attrs _ v6Bd)).trans ?_
  rw [insertIpv4_eq_merge hdata4, insertAnnotation_eq_merge,
    insertAnnotation_eq_merge, ipv4Patch_merge htype4, ipv6Patch_merge hipv4,
    ipv6Patch_merge htype6]
  simp only [mergePatch_assoc]

/-- What is published does not change when it is there. -/
theorem publishedPatch_merge {a : Annotations} {patch : String → Option String}
    (h4 : patch a.backendPublicIpOverwrite = none) (h6 : patch a.backendPublicIpv6Overwrite = none)
    (attrs : LeaseAttrs) (ann : String → Option String) (bd v6Bd : String) :
    publishedPatch a attrs (mergePatch patch ann) bd v6Bd = publishedPatch a attrs ann bd v6Bd := by
  unfold publishedPatch
  rw [ipv4Patch_merge h4, ipv6Patch_merge h6]

theorem wantedAnnotations_idem {a : Annotations} (hkeys : a.keys.Nodup) (attrs : LeaseAttrs)
    (ann : String → Option String) (bd v6Bd : String) :
    wantedAnnotations a attrs (wantedAnnotations a attrs ann bd v6Bd) bd v6Bd =
      wantedAnnotations a attrs ann bd v6Bd := by
  obtain ⟨hover4, hover6⟩ := overwrite_not_published hkeys
  have h4 := publishedPatch_of_not_mem hover4 attrs ann bd v6Bd
  have h6 := publishedPatch_of_not_mem hover6 attrs ann bd v6Bd
  rw [wantedAnnotations_eq_merge hkeys attrs (wantedAnnotations a attrs ann bd v6Bd),
    wantedAnnotations_eq_merge hkeys attrs ann, publishedPatch_merge h4 h6, mergePatch_idem]

/-! ## The patch -/

/-- The annotation map that `maybe_patch_annotations` built when it returns: the node's own
if it found nothing to do. -/
def builtAnnotations (a : Annotations) (attrs : LeaseAttrs) (ann : String → Option String)
    (bd v6Bd : String) : String → Option String :=
  if needsPatch a attrs ann bd v6Bd then wantedAnnotations a attrs ann bd v6Bd else ann

/-- The patch of `maybe_patch_annotations`, empty when none is sent. -/
def sentPatch (a : Annotations) (attrs : LeaseAttrs) (ann : String → Option String)
    (bd v6Bd : String) : String → Option String :=
  (annotationPatch a attrs ann bd v6Bd).getD fun _ => none

/-- What is sent is the difference to the built map. -/
theorem sentPatch_eq_diff (a : Annotations) (attrs : LeaseAttrs) (ann : String → Option String)
    (bd v6Bd : String) :
    sentPatch a attrs ann bd v6Bd = fun key =>
      if ann key ≠ builtAnnotations a attrs ann bd v6Bd key then
        builtAnnotations a attrs ann bd v6Bd key
      else none := by
  unfold sentPatch annotationPatch builtAnnotations
  split
  · rfl
  · funext key
    simp

theorem builtAnnotations_eq_merge {a : Annotations} (hkeys : a.keys.Nodup) (attrs : LeaseAttrs)
    (ann : String → Option String) (bd v6Bd : String) :
    builtAnnotations a attrs ann bd v6Bd =
      mergePatch (if needsPatch a attrs ann bd v6Bd then publishedPatch a attrs ann bd v6Bd
        else fun _ => none) ann := by
  unfold builtAnnotations
  split
  · exact wantedAnnotations_eq_merge hkeys attrs ann bd v6Bd
  · rfl

theorem insertAnnotation_eq_none {ann : String → Option String} {key k value : String}
    (h : annotationInsert ann key value k = none) : ann k = none := by
  rw [insertAnnotation_eq_merge] at h
  exact (Option.or_eq_none_iff.mp h).2

theorem insertFamily_eq_none {keys : FamilyKeys} {ann : String → Option String}
    {data publicIp k : String} (h : insertFamily keys ann data publicIp k = none) :
    ann k = none := by
  unfold insertFamily at h
  split at h
  · split at h
    · exact insertAnnotation_eq_none (insertAnnotation_eq_none h)
    · exact insertAnnotation_eq_none h
  · exact insertAnnotation_eq_none (insertAnnotation_eq_none h)

/-- Building the map takes no key away. -/
theorem builtAnnotations_eq_none {a : Annotations} {attrs : LeaseAttrs}
    {ann : String → Option String} {bd v6Bd k : String}
    (h : builtAnnotations a attrs ann bd v6Bd k = none) : ann k = none := by
  unfold builtAnnotations wantedAnnotations at h
  split at h
  · have hv6 := insertAnnotation_eq_none h
    have hv4 : (if publishesIpv4 attrs bd then insertFamily a.ipv4Keys
        (annotationInsert ann a.backendType attrs.backendType) bd attrs.publicIp.toString
        else annotationInsert ann a.backendType attrs.backendType) k = none := by
      cases hip : attrs.publicIpv6 with
      | none => simpa [hip] using hv6
      | some v6 =>
        simp only [hip] at hv6
        split at hv6
        · exact insertFamily_eq_none hv6
        · exact hv6
    split at hv4
    · exact insertAnnotation_eq_none (insertFamily_eq_none hv4)
    · exact insertAnnotation_eq_none hv4
  · exact h

/-- **The patch leads to the built map.** -/
theorem mergePatch_sentPatch (a : Annotations) (attrs : LeaseAttrs)
    (ann : String → Option String) (bd v6Bd : String) :
    mergePatch (sentPatch a attrs ann bd v6Bd) ann = builtAnnotations a attrs ann bd v6Bd := by
  funext key
  by_cases hsame : ann key = builtAnnotations a attrs ann bd v6Bd key
  · rw [mergePatch_of_none (by simp [sentPatch_eq_diff, hsame]), hsame]
  · cases hv : builtAnnotations a attrs ann bd v6Bd key with
    | some value =>
      rw [hv] at hsame
      exact mergePatch_of_some (by simp [sentPatch_eq_diff, hsame, hv])
    | none =>
      rw [hv] at hsame
      exact absurd (builtAnnotations_eq_none hv) hsame

theorem sentPatch_mem_publishedKeys {a : Annotations} (hkeys : a.keys.Nodup) {attrs : LeaseAttrs}
    {ann : String → Option String} {bd v6Bd key value : String}
    (h : sentPatch a attrs ann bd v6Bd key = some value) : key ∈ a.publishedKeys := by
  by_contra hk
  have hsame : builtAnnotations a attrs ann bd v6Bd key = ann key := by
    rw [builtAnnotations_eq_merge hkeys]
    refine mergePatch_of_none ?_
    split
    · exact publishedPatch_of_not_mem hk attrs ann bd v6Bd
    · rfl
  simp [sentPatch_eq_diff, hsame] at h

theorem builtAnnotations_idem {a : Annotations} (hkeys : a.keys.Nodup) (attrs : LeaseAttrs)
    (ann : String → Option String) (bd v6Bd : String) :
    builtAnnotations a attrs (builtAnnotations a attrs ann bd v6Bd) bd v6Bd =
      builtAnnotations a attrs ann bd v6Bd := by
  cases hneeds : needsPatch a attrs ann bd v6Bd with
  | false =>
    have hbuilt : builtAnnotations a attrs ann bd v6Bd = ann := by simp [builtAnnotations, hneeds]
    rw [hbuilt, hbuilt]
  | true =>
    have hbuilt : builtAnnotations a attrs ann bd v6Bd = wantedAnnotations a attrs ann bd v6Bd := by
      simp [builtAnnotations, hneeds]
    rw [hbuilt]
    -- whether the second call finds something to do does not matter
    unfold builtAnnotations
    split
    · exact wantedAnnotations_idem hkeys attrs ann bd v6Bd
    · rfl

/-- **Publishing is a fixpoint.**  Let `p` be the patch of `maybe_patch_annotations`, and
merge it into the annotations.  The result is the map the function built; a second call
with the same attributes finds nothing to change in it; and `p` has values under the
published keys only, so under no overwrite key and under no key that is not flannel's. -/
theorem patch_is_fixpoint {a : Annotations} (hkeys : a.keys.Nodup) (attrs : LeaseAttrs)
    (ann : String → Option String) (bd v6Bd : String) :
    let p := sentPatch a attrs ann bd v6Bd
    let merged := mergePatch p ann
    merged = builtAnnotations a attrs ann bd v6Bd ∧
      (∀ key, sentPatch a attrs merged bd v6Bd key = none) ∧
      mergePatch (sentPatch a attrs merged bd v6Bd) merged = merged ∧
      (∀ key value, p key = some value → key ∈ a.publishedKeys) ∧
      p a.backendPublicIpOverwrite = none ∧ p a.backendPublicIpv6Overwrite = none ∧
      ∀ key, key ∉ a.keys → p key = none := by
  intro p merged
  have hbuilt : merged = builtAnnotations a attrs ann bd v6Bd :=
    mergePatch_sentPatch a attrs ann bd v6Bd
  have hagain : builtAnnotations a attrs merged bd v6Bd = merged := by
    rw [hbuilt]
    exact builtAnnotations_idem hkeys attrs ann bd v6Bd
  have hempty : ∀ key, sentPatch a attrs merged bd v6Bd key = none := by
    intro key
    rw [sentPatch_eq_diff, hagain]
    simp
  have hnone : ∀ key, key ∉ a.publishedKeys → p key = none := by
    intro key hk
    cases hp : p key with
    | none => rfl
    | some value => exact absurd (sentPatch_mem_publishedKeys hkeys hp) hk
  obtain ⟨hover4, hover6⟩ := overwrite_not_published hkeys
  refine ⟨hbuilt, hempty, funext fun key => mergePatch_of_none (hempty key),
    fun key value => sentPatch_mem_publishedKeys hkeys, hnone _ hover4, hnone _ hover6, ?_⟩
  intro key hk
  refine hnone key fun hmem => hk ?_
  simp only [Annotations.publishedKeys, List.mem_cons, List.not_mem_nil, or_false] at hmem
  simp only [Annotations.keys, List.mem_cons]
  rcases hmem with h | h | h | h | h | h <;> simp [h]

/-- A node that overrides its public address. -/
def overriddenAnnotations : String → Option String :=
  annotationInsert (fun _ => none) v4Env.annotations.backendPublicIpOverwrite "203.0.113.7"

/-- Attributes of a backend without data, on a node with the address `192.168.0.1`. -/
def plainAttrs : LeaseAttrs := { publicIp := ⟨0xc0a80001⟩, backendType := "host-gw" }

/-- With an override the second call still sends a patch, an empty one. -/
theorem patch_is_fixpoint_overridden :
    let merged := mergePatch
      (sentPatch v4Env.annotations plainAttrs overriddenAnnotations "null" "null")
      overriddenAnnotations
    needsPatch v4Env.annotations plainAttrs merged "null" "null" = true ∧
      ∀ key, sentPatch v4Env.annotations plainAttrs merged "null" "null" key = none :=
  ⟨by decide, (patch_is_fixpoint (annotationsWith_keys_nodup _) plainAttrs overriddenAnnotations
    "null" "null").2.1⟩

/-! ## Calls that fail because of the pod CIDRs -/

/-- The errors for a CIDR that does not parse and for three or more CIDRs. -/
def AcquireError.isMalformed : AcquireError → Bool
  | .ip4 _ | .ip6 _ | .podCidrs _ => true
  | _ => false

/-- The errors for a CIDR that is not inside the configured network. -/
def AcquireError.isOutside : AcquireError → Bool
  | .outsideNetwork .. | .outsideIpv6Network .. => true
  | _ => false

section Failure

variable {mgr : KubeSubnetManager} {attrs : LeaseAttrs} {now : Int} {polls : List PollRound}
  {patches : List (Bool × Pause)} {o : AcquireOutcome} {e : AcquireError}

theorem withCidr_error {l : Lease} {x : Option IP4Net} (h : withCidr mgr l x = .error e) :
    e.isMalformed = false := by
  unfold withCidr at h
  split at h
  · cases h
  · split at h
    · split at h
      · cases h
        rfl
      · cases h
    · cases h

theorem withIpv6Cidr_error {l : Lease} {y : Option IP6Net} (h : withIpv6Cidr mgr l y = .error e) :
    e.isMalformed = false := by
  unfold withIpv6Cidr at h
  split at h
  · cases h
  · split at h
    · split at h
      · cases h
        rfl
      · cases h
    · cases h

/-- Deriving the lease does not parse. -/
theorem acquiredLease_error {x : Option IP4Net} {y : Option IP6Net}
    (h : acquiredLease mgr attrs now x y = .error e) : e.isMalformed = false := by
  unfold acquiredLease at h
  cases h4 : withCidr mgr
      { blankLease with attrs := attrs, expiration := now + leaseSeconds } x with
  | error e4 =>
    simp only [h4] at h
    cases h
    exact withCidr_error h4
  | ok l4 =>
    simp only [h4] at h
    cases h6 : withIpv6Cidr mgr l4 y with
    | error e6 =>
      simp only [h6, bind, Except.bind] at h
      cases h
      exact withIpv6Cidr_error h6
    | ok l6 =>
      simp only [h6, bind, Except.bind] at h
      split at h
      · cases h
      · cases h

theorem patchWithRetry_error (h : patchWithRetry mgr patches = some (.error e)) :
    e.isMalformed = false ∧ e.isOutside = false := by
  induction patches with
  | nil => cases h
  | cons r rs ih =>
    rw [patchWithRetry] at h
    split at h
    · cases h
    · split at h
      · cases h
        exact ⟨rfl, rfl⟩
      · exact ih h

/-- Parsing the CIDRs does not look at the configured network. -/
theorem podCidrLoop_error {x : Option IP4Net} {y : Option IP6Net} {cs : List String}
    (h : podCidrLoop x y cs = .error e) : e.isOutside = false := by
  induction cs generalizing x y with
  | nil => cases h
  | cons c cs ih =>
    rw [podCidrLoop] at h
    split at h
    · cases hc : IP6Net.fromStr c with
      | error e6 =>
        rw [hc] at h
        cases h
        rfl
      | ok n =>
        rw [hc] at h
        exact ih h
    · cases hc : IP4Net.fromStr c with
      | error e4 =>
        rw [hc] at h
        cases h
        rfl
      | ok n =>
        rw [hc] at h
        exact ih h

theorem acquirePodCidrs_error {node : Node} (h : acquirePodCidrs mgr node = .error e) :
    e.isOutside = false := by
  unfold acquirePodCidrs at h
  split at h
  · dsimp only at h
    split at h
    · cases hs : IP6Net.fromStr (node.spec.podCidr.getD "") with
      | error e6 =>
        rw [hs] at h
        cases h
        rfl
      | ok n =>
        rw [hs] at h
        cases h
    · split at h
      · cases hs : IP4Net.fromStr (node.spec.podCidr.getD "") with
        | error e4 =>
          rw [hs] at h
          cases h
          rfl
        | ok n =>
          rw [hs] at h
          cases h
      · cases h
  · exact podCidrLoop_error h
  · exact podCidrLoop_error h
  · cases h
    rfl

theorem waitForNodeWithCidrs_error (h : waitForNodeWithCidrs mgr polls = some (.error e)) :
    e.isOutside = false := by
  induction polls with
  | nil => cases h
  | cons r rs ih =>
    rw [waitForNodeWithCidrs] at h
    cases hr : nodeReady mgr (fetchNode mgr r) with
    | some result =>
      rw [hr] at h
      cases h
      unfold nodeReady at hr
      split at hr
      · cases hr
      · split at hr
        · rename_i he
          cases hr
          exact acquirePodCidrs_error he
        · split at hr
          · cases hr
          · cases hr
    | none =>
      simp only [hr] at h
      split at h
      · cases h
        rfl
      · exact ih h

/-- **Which tests on the pod CIDRs come before the patch.**  If `acquire_lease` fails because
a pod CIDR does not parse or because there are three or more of them, then no patch was
sent.  If it fails because a CIDR is not inside the configured network, the annotations had
been set before: what was sent is the patch of `maybe_patch_annotations` for the node that
the call waited for, so merged into the node's annotations it gives the map that function
built. -/
theorem acquireLease_podCidr_failure
    (h : acquireLease mgr attrs now polls patches = some o) (he : o.result = .error e) :
    (e.isMalformed = true → o.patch = none) ∧
      (e.isOutside = true → ∃ node, waitForNodeWithCidrs mgr polls = some (.ok node) ∧
        let ann := node.metadata.annotations
        let bd := rawToString attrs.backendData
        let v6Bd := rawToString attrs.backendV6Data
        o.patch = annotationPatch mgr.annotations attrs ann bd v6Bd ∧
          mergePatch (o.patch.getD fun _ => none) ann =
            builtAnnotations mgr.annotations attrs ann bd v6Bd) := by
  have hbuilt : ∀ ann bd v6Bd, mergePatch
      ((annotationPatch mgr.annotations attrs ann bd v6Bd).getD fun _ => none) ann =
      builtAnnotations mgr.annotations attrs ann bd v6Bd :=
    mergePatch_sentPatch mgr.annotations attrs
  unfold acquireLease at h
  dsimp only at h
  split at h
  · cases h
  · -- the wait failed
    rename_i ew hwait
    cases h
    cases he
    refine ⟨fun _ => rfl, fun hout => ?_⟩
    rw [waitForNodeWithCidrs_error hwait] at hout
    cases hout
  · rename_i node hwait
    split at h
    · rename_i ec hcidrs
      cases h
      cases he
      refine ⟨fun _ => rfl, fun hout => ?_⟩
      rw [acquirePodCidrs_error hcidrs] at hout
      cases hout
    · split at h
      · -- nothing to patch
        rename_i hpatch
        cases h
        refine ⟨fun _ => rfl, fun _ => ⟨node, hwait, hpatch.symm, ?_⟩⟩
        rw [← hbuilt, hpatch]
      · rename_i patch hpatch
        split at h
        · cases h
        · rename_i ep hretry
          cases h
          cases he
          obtain ⟨hmal, hout⟩ := patchWithRetry_error hretry
          simp [hmal, hout]
        · -- the patch was accepted, and the lease could not be derived
          cases h
          refine ⟨fun hmal => ?_, fun _ => ⟨node, hwait, hpatch.symm, ?_⟩⟩
          · rw [acquiredLease_error he] at hmal
            cases hmal
          · rw [← hbuilt, hpatch]

end Failure

/-- A manager of node `node1`, whose pods should be in `10.244.0.0/16`. -/
def node1Manager : KubeSubnetManager where
  config := { enableIpv4 := true, network := ⟨⟨0x0af40000⟩, 16⟩, backendType := "host-gw" }
  nodeName := "node1"
  annotations := v4Env.annotations
  disableNodeInformer := true

/-- A GET that finds the node without annotations, with the given pod CIDR. -/
def node1Polls (podCidr : String) : List PollRound :=
  [⟨NodeStore.new, some ⟨{ name := "node1" }, { podCidrs := [podCidr] }⟩, ⟨false, false, true⟩⟩]

/-- A node whose CIDR is outside the network is published before the call fails. -/
theorem outside_podCidr_is_published :
    ¬ ∀ (mgr : KubeSubnetManager) (attrs : LeaseAttrs) (now : Int) (polls : List PollRound)
      (patches : List (Bool × Pause)) (o : AcquireOutcome) (e : AcquireError),
      acquireLease mgr attrs now polls patches = some o → o.result = .error e →
      e.isMalformed = true ∨ e.isOutside = true → o.patch = none := by
  intro h
  have hnone := h node1Manager plainAttrs 0 (node1Polls "192.168.5.0/24")
    [(true, ⟨false, false, true⟩)] _ _ rfl rfl (Or.inr rfl)
  cases hnone

/-- A CIDR that does not parse leaves the node alone. -/
theorem malformed_podCidr_is_not_published :
    ∃ o e, acquireLease node1Manager plainAttrs 0 (node1Polls "192.168.5/24") [] = some o ∧
      o.result = .error e ∧ e.isMalformed = true ∧ o.patch = none := by
  refine ⟨⟨none, .error (.ip4 (.invalidAddr "192.168.5"))⟩, _, rfl, rfl, rfl, ?_⟩
  exact (@acquireLease_podCidr_failure node1Manager plainAttrs 0 (node1Polls "192.168.5/24") []
    _ _ rfl rfl).1 rfl

end Flannel
