import Flannel.IpMatch.Iface
import Flannel.Lib.Results

/-!
# The address of a link

`ensure_v6_address_on_link` of `ip/iface/config.rs` is to leave one IPv6 address on a link, next to
its link-local ones: the wanted address.  It goes through a dump of the link's addresses, deletes
those it finds, and adds the wanted one in the end.

If it meets the wanted address it returns at once.  The addresses in front of it in the dump are
gone then, but those behind it stay, so the outcome depends on the order in which the kernel lists
them (`ensureV6AddressOnLink_iff`).
-/

namespace Flannel

namespace IpMatch

/-! ## The code -/

/-- `AddressMessage`, with the prefix length of its header. -/
structure LinkAddress extends AddressMessage where
  prefixLen : UInt8
  deriving DecidableEq, Repr

/-- What netlink answers: the link with an index, a dump of the addresses there are, and what
becomes of a request to delete or to add one. -/
structure AddressNetlink where
  linkByIndex : Nat → Option (Except Error LinkMessage)
  dump : List LinkAddress → List (Except Error LinkAddress)
  del : LinkAddress → Except String Unit
  add : IpAddr → UInt8 → Except String Unit

section Code

variable (nl : AddressNetlink)

/-- `iface_v6_addrs`, on a link with these addresses. -/
def ifaceV6Addrs (addrs : List LinkAddress) : Except Error (List LinkAddress) :=
  (Framing.allOrError (nl.dump addrs)).map fun addrs => addrs.filter (·.family = .inet6)

/-- `name_of`. -/
def nameOf (index : Nat) : Except Error String :=
  match nl.linkByIndex index with
  | some (.ok link) => .ok (linkName link)
  | some (.error e) => .error e
  | none => .error [s!"no such network interface with index {index}"]

/-- Two messages about one address. -/
def sameAddress (a b : LinkAddress) : Bool :=
  a.family = b.family ∧ addrIp a.toAddressMessage = addrIp b.toAddressMessage ∧
    a.prefixLen = b.prefixLen

/-- What is left on the link when an address is deleted. -/
def deleteAddress (addrs : List LinkAddress) (a : LinkAddress) : List LinkAddress :=
  addrs.filter fun b => !sameAddress b a

/-- How the kernel lists an address that was added. -/
def addedAddress (ip : IpAddr) (prefixLen : UInt8) : LinkAddress where
  family := .inet6
  permanent := true
  secondary := false
  deprecated := false
  attributes := [.ifaAddress ip]
  prefixLen := prefixLen

/-- How the loop ends: by `return Ok`, by an error, or with its two flags. -/
inductive LoopEnd where
  | returned
  | failed (e : Error)
  | finished (onlyLinkLocal cleared : Bool)
  deriving DecidableEq, Repr

/-- The loop over the dump; the second component is what is on the link. -/
def removeLoop (wantIp : IpAddr) (wantPrefix : UInt8) (ipn : IP6Net) (name : String)
    (onlyLinkLocal cleared : Bool) (addrs : List LinkAddress) :
    List LinkAddress → LoopEnd × List LinkAddress
  | [] => (.finished onlyLinkLocal cleared, addrs)
  | existing :: rest =>
    match addrIp existing.toAddressMessage with
    | none => removeLoop wantIp wantPrefix ipn name onlyLinkLocal cleared addrs rest
    | some eip =>
      if isLinkLocalUnicast eip then
        removeLoop wantIp wantPrefix ipn name onlyLinkLocal cleared addrs rest
      else if eip = wantIp ∧ existing.prefixLen = wantPrefix then (.returned, addrs)
      else
        match nl.del existing with
        | .error e =>
          (.failed [s!"failed to remove v6 IP address {ipn.toString} from {name}: {e}"], addrs)
        | .ok _ =>
          removeLoop wantIp wantPrefix ipn name false true (deleteAddress addrs existing) rest

/-- `ensure_v6_address_on_link`, on a link with these addresses: its result, and what is on the
link then. -/
def ensureV6AddressOnLink (ipa ipn : IP6Net) (linkIndex : Nat) (addrs : List LinkAddress) :
    Except Error Unit × List LinkAddress :=
  match nameOf nl linkIndex with
  | .error e => (.error e, addrs)
  | .ok name =>
    let wantIp := IpAddr.v6 ipa.ip
    let wantPrefix := UInt8.ofNat ipa.prefixLen
    match ifaceV6Addrs nl addrs with
    | .error e => (.error e, addrs)
    | .ok existingAddrs =>
      match removeLoop nl wantIp wantPrefix ipn name true false addrs existingAddrs with
      | (.returned, addrs) => (.ok (), addrs)
      | (.failed e, addrs) => (.error e, addrs)
      | (.finished onlyLinkLocal cleared, addrs) =>
        let cleared := if onlyLinkLocal then true else cleared
        if cleared then
          match nl.add wantIp wantPrefix with
          | .error e =>
            (.error [s!"failed to add v6 IP address {ipn.toString} to {name}: {e}"], addrs)
          | .ok _ => (.ok (), addrs ++ [addedAddress wantIp wantPrefix])
        else (.ok (), addrs)

end Code

/-! ## What should be on the link -/

/-- All of the requests succeed. -/
structure AddressNetlink.Succeeds (nl : AddressNetlink) (linkIndex : Nat)
    (addrs : List LinkAddress) : Prop where
  link : ∃ msg, nl.linkByIndex linkIndex = some (.ok msg)
  dump : nl.dump addrs = addrs.map .ok
  del : ∀ a, nl.del a = .ok ()
  add : ∀ ip prefixLen, nl.add ip prefixLen = .ok ()

/-- An IPv6 address that is not link-local. -/
def isOther (a : LinkAddress) : Bool :=
  a.family = .inet6 ∧ (addrIp a.toAddressMessage).any fun ip => !isLinkLocalUnicast ip

/-- The link-local IPv6 addresses. -/
def linkLocals (addrs : List LinkAddress) : List LinkAddress :=
  addrs.filter fun a => a.family = .inet6 ∧ (addrIp a.toAddressMessage).any isLinkLocalUnicast

/-- An address, with its prefix length. -/
def HasAddress (a : LinkAddress) (ipa : IP6Net) : Prop :=
  addrIp a.toAddressMessage = some (.v6 ipa.ip) ∧ a.prefixLen.toNat = ipa.prefixLen

/-- The outcome: of the addresses that are not link-local there is only the wanted one, and the
link-local ones are as they were. -/
def OnlyWanted (ipa : IP6Net) (addrs after : List LinkAddress) : Prop :=
  (∀ a ∈ after, isOther a = true → HasAddress a ipa) ∧
    (∃ a ∈ after, isOther a = true ∧ HasAddress a ipa) ∧
    linkLocals after = linkLocals addrs

/-- The dump lists another address behind the wanted one, and not also in front of it. -/
def ListedBehind (ipa : IP6Net) (addrs : List LinkAddress) : Prop :=
  ∃ front wanted back, addrs.filter (·.family = .inet6) = front ++ wanted :: back ∧
    HasAddress wanted ipa ∧
    ∃ a ∈ back, isOther a = true ∧ ¬ HasAddress a ipa ∧ ∀ b ∈ front, sameAddress a b = false

/-! ## The loop -/

theorem sameAddress_iff {a b : LinkAddress} :
    sameAddress a b = true ↔ a.family = b.family ∧
      addrIp a.toAddressMessage = addrIp b.toAddressMessage ∧ a.prefixLen = b.prefixLen := by
  simp [sameAddress]

theorem isOther_iff {a : LinkAddress} :
    isOther a = true ↔ a.family = .inet6 ∧
      ∃ ip, addrIp a.toAddressMessage = some ip ∧ isLinkLocalUnicast ip = false := by
  simp only [isOther, decide_eq_true_eq, Option.any_eq_true, Bool.not_eq_true']

theorem isOther_of_sameAddress {a b : LinkAddress} (h : sameAddress a b = true) :
    isOther a = isOther b := by
  obtain ⟨hfamily, hip, -⟩ := sameAddress_iff.mp h
  rw [isOther, isOther, hfamily, hip]

/-- What is left of the addresses if those of a dump that are not link-local are deleted. -/
def without (addrs dump : List LinkAddress) : List LinkAddress :=
  addrs.filter fun a => !dump.any fun b => isOther b && sameAddress a b

theorem mem_without {addrs dump : List LinkAddress} {a : LinkAddress} :
    a ∈ without addrs dump ↔
      a ∈ addrs ∧ ∀ b ∈ dump, isOther b = true → sameAddress a b = false := by
  simp [without]

theorem without_cons_of_other {addrs dump : List LinkAddress} {b : LinkAddress}
    (h : isOther b = true) : without addrs (b :: dump) = without (deleteAddress addrs b) dump := by
  simp only [without, deleteAddress, List.filter_filter, List.any_cons, h, Bool.true_and,
    Bool.not_or, Bool.and_comm]

theorem without_cons_of_not {addrs dump : List LinkAddress} {b : LinkAddress}
    (h : isOther b = false) : without addrs (b :: dump) = without addrs dump := by
  simp only [without, List.any_cons, h, Bool.false_and, Bool.false_or]

theorem isOther_of_linkLocal {a : LinkAddress}
    (h : a.family = .inet6 ∧ (addrIp a.toAddressMessage).any isLinkLocalUnicast = true) :
    isOther a = false := by
  obtain ⟨ip, hip, hlocal⟩ := (Option.any_eq_true _ _).mp h.2
  simp [isOther, hip, hlocal]

/-- Nothing but other addresses is deleted. -/
theorem linkLocals_without (addrs dump : List LinkAddress) :
    linkLocals (without addrs dump) = linkLocals addrs := by
  rw [linkLocals, without, List.filter_filter, linkLocals]
  refine List.filter_congr fun a _ => ?_
  rw [Bool.and_eq_left_iff_imp]
  intro hlocal
  have hother := isOther_of_linkLocal (of_decide_eq_true hlocal)
  rw [Bool.not_eq_true', List.any_eq_false]
  intro b _ hb
  rw [Bool.and_eq_true] at hb
  rw [isOther_of_sameAddress hb.2, hb.1] at hother
  cases hother

section Loop

variable {nl : AddressNetlink} {wantIp : IpAddr} {wantPrefix : UInt8} {ipn : IP6Net}
  {name : String} {addrs dump : List LinkAddress} {b : LinkAddress}

/-- What makes the loop return. -/
def IsWanted (wantIp : IpAddr) (wantPrefix : UInt8) (a : LinkAddress) : Prop :=
  isOther a = true ∧ addrIp a.toAddressMessage = some wantIp ∧ a.prefixLen = wantPrefix

instance (wantIp : IpAddr) (wantPrefix : UInt8) (a : LinkAddress) :
    Decidable (IsWanted wantIp wantPrefix a) :=
  inferInstanceAs (Decidable (_ ∧ _ ∧ _))

/-- A round that meets no wanted address deletes the address if it is not link-local. -/
theorem removeLoop_cons (hdel : ∀ a, nl.del a = .ok ()) (hfamily : b.family = .inet6)
    (hb : ¬ IsWanted wantIp wantPrefix b) (onlyLinkLocal cleared : Bool) (rest : List LinkAddress) :
    removeLoop nl wantIp wantPrefix ipn name onlyLinkLocal cleared addrs (b :: rest) =
      if isOther b = true then
        removeLoop nl wantIp wantPrefix ipn name false true (deleteAddress addrs b) rest
      else removeLoop nl wantIp wantPrefix ipn name onlyLinkLocal cleared addrs rest := by
  rw [removeLoop]
  cases hip : addrIp b.toAddressMessage with
  | none =>
    have hother : isOther b = false := by simp [isOther, hip]
    simp [hother]
  | some ip =>
    cases hlocal : isLinkLocalUnicast ip with
    | true =>
      have hother : isOther b = false := by simp [isOther, hip, hlocal]
      simp [hother, hlocal]
    | false =>
      have hother : isOther b = true := by simp [isOther, hip, hlocal, hfamily]
      have hne : ¬ (ip = wantIp ∧ b.prefixLen = wantPrefix) := fun h =>
        hb ⟨hother, by rw [hip, h.1], h.2⟩
      simp [hother, hlocal, hne, hdel]

theorem removeLoop_wanted (hb : IsWanted wantIp wantPrefix b) (onlyLinkLocal cleared : Bool)
    (rest : List LinkAddress) :
    removeLoop nl wantIp wantPrefix ipn name onlyLinkLocal cleared addrs (b :: rest) =
      (.returned, addrs) := by
  obtain ⟨hother, hip, hprefix⟩ := hb
  obtain ⟨-, ip, hip', hlocal⟩ := isOther_iff.mp hother
  rw [hip] at hip'
  cases hip'
  simp [removeLoop, hip, hlocal, hprefix]

/-- Without the wanted address in the dump everything else is deleted, and there is cause to add
it. -/
theorem removeLoop_finished (hdel : ∀ a, nl.del a = .ok ())
    (hfamily : ∀ b ∈ dump, b.family = .inet6) (hdump : ∀ b ∈ dump, ¬ IsWanted wantIp wantPrefix b)
    {onlyLinkLocal cleared : Bool} (hflags : (onlyLinkLocal || cleared) = true) :
    ∃ onlyLinkLocal' cleared', (onlyLinkLocal' || cleared') = true ∧
      removeLoop nl wantIp wantPrefix ipn name onlyLinkLocal cleared addrs dump =
        (.finished onlyLinkLocal' cleared', without addrs dump) := by
  induction dump generalizing addrs onlyLinkLocal cleared with
  | nil => exact ⟨onlyLinkLocal, cleared, hflags, by simp [removeLoop, without]⟩
  | cons b rest ih =>
    rw [List.forall_mem_cons] at hfamily hdump
    rw [removeLoop_cons hdel hfamily.1 hdump.1]
    split_ifs with hother
    · rw [without_cons_of_other hother]
      exact ih hfamily.2 hdump.2 rfl
    · rw [without_cons_of_not (Bool.not_eq_true _ ▸ hother)]
      exact ih hfamily.2 hdump.2 hflags

/-- With it, only what stands in front of it. -/
theorem removeLoop_returned (hdel : ∀ a, nl.del a = .ok ()) {front back : List LinkAddress}
    (hfamily : ∀ b ∈ front, b.family = .inet6)
    (hfront : ∀ b ∈ front, ¬ IsWanted wantIp wantPrefix b)
    (hb : IsWanted wantIp wantPrefix b) (onlyLinkLocal cleared : Bool) :
    removeLoop nl wantIp wantPrefix ipn name onlyLinkLocal cleared addrs (front ++ b :: back) =
      (.returned, without addrs front) := by
  induction front generalizing addrs onlyLinkLocal cleared with
  | nil =>
    rw [List.nil_append, removeLoop_wanted hb]
    simp [without]
  | cons c rest ih =>
    rw [List.forall_mem_cons] at hfamily hfront
    rw [List.cons_append, removeLoop_cons hdel hfamily.1 hfront.1]
    split_ifs with hother
    · rw [without_cons_of_other hother]
      exact ih hfamily.2 hfront.2 false true
    · rw [without_cons_of_not (Bool.not_eq_true _ ▸ hother)]
      exact ih hfamily.2 hfront.2 onlyLinkLocal cleared

end Loop

/-! ## The outcome -/

section Outcome

variable {nl : AddressNetlink} {ipa ipn : IP6Net} {linkIndex : Nat} {addrs : List LinkAddress}

/-- The address that makes the loop return is the wanted one, if its prefix length is one. -/
theorem isWanted_iff (hlen : ipa.prefixLen < 256) {a : LinkAddress} :
    IsWanted (.v6 ipa.ip) (UInt8.ofNat ipa.prefixLen) a ↔ isOther a = true ∧ HasAddress a ipa := by
  have hprefix : a.prefixLen = UInt8.ofNat ipa.prefixLen ↔ a.prefixLen.toNat = ipa.prefixLen := by
    rw [← UInt8.toNat_inj, UInt8.toNat_ofNat_of_lt' hlen]
  rw [IsWanted, HasAddress, hprefix]

/-- What is on the link in the end. -/
theorem ensureV6AddressOnLink_cases (hnl : nl.Succeeds linkIndex addrs) :
    ((∀ b ∈ addrs.filter (·.family = .inet6),
        ¬ IsWanted (.v6 ipa.ip) (UInt8.ofNat ipa.prefixLen) b) ∧
      ensureV6AddressOnLink nl ipa ipn linkIndex addrs =
        (.ok (), without addrs (addrs.filter (·.family = .inet6)) ++
          [addedAddress (.v6 ipa.ip) (UInt8.ofNat ipa.prefixLen)])) ∨
    ∃ front wanted back, addrs.filter (·.family = .inet6) = front ++ wanted :: back ∧
      (∀ b ∈ front, ¬ IsWanted (.v6 ipa.ip) (UInt8.ofNat ipa.prefixLen) b) ∧
      IsWanted (.v6 ipa.ip) (UInt8.ofNat ipa.prefixLen) wanted ∧
      ensureV6AddressOnLink nl ipa ipn linkIndex addrs = (.ok (), without addrs front) := by
  obtain ⟨msg, hlink⟩ := hnl.link
  have hname : nameOf nl linkIndex = .ok (linkName msg) := by rw [nameOf, hlink]
  have hdump : ifaceV6Addrs nl addrs = .ok (addrs.filter (·.family = .inet6)) := by
    rw [ifaceV6Addrs, hnl.dump, Framing.allOrError_map_ok]
    rfl
  have hfamily : ∀ b ∈ addrs.filter (·.family = .inet6), b.family = .inet6 := fun b hb =>
    of_decide_eq_true (List.mem_filter.mp hb).2
  simp only [ensureV6AddressOnLink, hname, hdump]
  generalize addrs.filter (·.family = .inet6) = dump at *
  cases hfind : dump.find? fun b => IsWanted (.v6 ipa.ip) (UInt8.ofNat ipa.prefixLen) b with
  | none =>
    left
    have hnone : ∀ b ∈ dump, ¬ IsWanted (.v6 ipa.ip) (UInt8.ofNat ipa.prefixLen) b := fun b hb h =>
      List.find?_eq_none.mp hfind b hb (decide_eq_true h)
    have hend : ∃ onlyLinkLocal cleared, (onlyLinkLocal || cleared) = true ∧
        removeLoop nl (.v6 ipa.ip) (UInt8.ofNat ipa.prefixLen) ipn (linkName msg) true false addrs
          dump = (.finished onlyLinkLocal cleared, without addrs dump) :=
      removeLoop_finished hnl.del hfamily hnone rfl
    obtain ⟨onlyLinkLocal, cleared, hflags, hloop⟩ := hend
    refine ⟨hnone, ?_⟩
    have hcleared : (if onlyLinkLocal = true then true else cleared) = true := by
      cases onlyLinkLocal with
      | true => rfl
      | false => exact hflags
    rw [hloop]
    simp only [hcleared, if_true, hnl.add]
  | some wanted =>
    right
    obtain ⟨hwanted, front, back, hsplit, hfront⟩ := List.find?_eq_some_iff_append.mp hfind
    have hnot : ∀ b ∈ front, ¬ IsWanted (.v6 ipa.ip) (UInt8.ofNat ipa.prefixLen) b := fun b hb => by
      simpa using hfront b hb
    refine ⟨front, wanted, back, hsplit, hnot, of_decide_eq_true hwanted, ?_⟩
    rw [hsplit, removeLoop_returned hnl.del (fun b hb => hfamily b ?_) hnot
      (of_decide_eq_true hwanted)]
    rw [hsplit]
    exact List.mem_append_left _ hb

theorem addrIp_addedAddress (ip : IpAddr) (prefixLen : UInt8) :
    addrIp (addedAddress ip prefixLen).toAddressMessage = some ip := rfl

/-- Every other address of the link is in the dump. -/
theorem isOther_of_mem_without {a : LinkAddress}
    (ha : a ∈ without addrs (addrs.filter (·.family = .inet6))) : isOther a = false := by
  obtain ⟨hmem, hkept⟩ := mem_without.mp ha
  by_contra hother
  rw [Bool.not_eq_false] at hother
  have hdump : a ∈ addrs.filter (·.family = .inet6) :=
    List.mem_filter.mpr ⟨hmem, decide_eq_true (isOther_iff.mp hother).1⟩
  have hsame : sameAddress a a = true := sameAddress_iff.mpr ⟨rfl, rfl, rfl⟩
  rw [hkept a hdump hother] at hsame
  cases hsame

/-- The wanted address is added to what is left if it was not there. -/
theorem onlyWanted_added (hlocal : isLinkLocalUnicast (.v6 ipa.ip) = false)
    (hlen : ipa.prefixLen < 256) :
    OnlyWanted ipa addrs (without addrs (addrs.filter (·.family = .inet6)) ++
      [addedAddress (.v6 ipa.ip) (UInt8.ofNat ipa.prefixLen)]) := by
  have hadded : HasAddress (addedAddress (.v6 ipa.ip) (UInt8.ofNat ipa.prefixLen)) ipa :=
    ⟨rfl, UInt8.toNat_ofNat_of_lt' hlen⟩
  have hother : isOther (addedAddress (.v6 ipa.ip) (UInt8.ofNat ipa.prefixLen)) = true :=
    isOther_iff.mpr ⟨rfl, _, rfl, hlocal⟩
  refine ⟨fun a ha haOther => ?_,
    ⟨_, List.mem_append_right _ List.mem_cons_self, hother, hadded⟩, ?_⟩
  · rcases List.mem_append.mp ha with hkept | hnew
    · rw [isOther_of_mem_without hkept] at haOther
      cases haOther
    · rwa [List.mem_singleton.mp hnew]
  · have hnew : linkLocals [addedAddress (.v6 ipa.ip) (UInt8.ofNat ipa.prefixLen)] = [] := by
      simp [linkLocals, addrIp_addedAddress, hlocal]
    rw [linkLocals, List.filter_append, ← linkLocals, ← linkLocals, hnew, List.append_nil,
      linkLocals_without]

theorem sameAddress_hasAddress {a b : LinkAddress} (h : sameAddress a b = true)
    (ha : HasAddress a ipa) : HasAddress b ipa := by
  obtain ⟨-, hip, hprefix⟩ := sameAddress_iff.mp h
  exact ⟨hip ▸ ha.1, hprefix ▸ ha.2⟩

section Returned

variable {front back : List LinkAddress} {wanted : LinkAddress}

/-- If the loop returns, the link is as it should be unless an address is listed behind. -/
theorem onlyWanted_without (hlen : ipa.prefixLen < 256)
    (hsplit : addrs.filter (·.family = .inet6) = front ++ wanted :: back)
    (hfront : ∀ b ∈ front, ¬ IsWanted (.v6 ipa.ip) (UInt8.ofNat ipa.prefixLen) b)
    (hwanted : IsWanted (.v6 ipa.ip) (UInt8.ofNat ipa.prefixLen) wanted)
    (hbehind : ¬ ListedBehind ipa addrs) : OnlyWanted ipa addrs (without addrs front) := by
  simp only [isWanted_iff hlen] at hfront hwanted
  refine ⟨fun a ha hother => ?_, ⟨wanted, mem_without.mpr ⟨?_, ?_⟩, hwanted⟩,
    linkLocals_without addrs front⟩
  · obtain ⟨hmem, hkept⟩ := mem_without.mp ha
    have hdump : a ∈ addrs.filter (·.family = .inet6) :=
      List.mem_filter.mpr ⟨hmem, decide_eq_true (isOther_iff.mp hother).1⟩
    rw [hsplit, List.mem_append, List.mem_cons] at hdump
    rcases hdump with hdeleted | rfl | hback
    · have hsame : sameAddress a a = true := sameAddress_iff.mpr ⟨rfl, rfl, rfl⟩
      rw [hkept a hdeleted hother] at hsame
      cases hsame
    · exact hwanted.2
    · by_contra hnot
      refine hbehind ⟨front, wanted, back, hsplit, hwanted.2, a, hback, hother, hnot, ?_⟩
      intro b hb
      by_contra hsame
      rw [Bool.not_eq_false] at hsame
      have hbOther : isOther b = true := by rw [← isOther_of_sameAddress hsame, hother]
      rw [hkept b hb hbOther] at hsame
      cases hsame
  · have hmem : wanted ∈ addrs.filter (·.family = .inet6) := by
      rw [hsplit]
      exact List.mem_append_right _ List.mem_cons_self
    exact (List.mem_filter.mp hmem).1
  · intro b hb hother
    by_contra hsame
    rw [Bool.not_eq_false] at hsame
    exact hfront b hb ⟨hother, sameAddress_hasAddress hsame hwanted.2⟩

/-- If one is, it stays. -/
theorem not_onlyWanted_without (hlocal : isLinkLocalUnicast (.v6 ipa.ip) = false)
    (hlen : ipa.prefixLen < 256)
    (hsplit : addrs.filter (·.family = .inet6) = front ++ wanted :: back)
    (hfront : ∀ b ∈ front, ¬ IsWanted (.v6 ipa.ip) (UInt8.ofNat ipa.prefixLen) b)
    (hbehind : ListedBehind ipa addrs) : ¬ OnlyWanted ipa addrs (without addrs front) := by
  obtain ⟨front', wanted', back', hsplit', hhas, a, hback, hother, hnot, hfresh⟩ := hbehind
  simp only [isWanted_iff hlen] at hfront
  have hmem {b : LinkAddress} (hb : b ∈ front' ++ wanted' :: back') :
      b ∈ addrs ∧ b.family = .inet6 := by
    rw [← hsplit'] at hb
    exact ⟨(List.mem_filter.mp hb).1, of_decide_eq_true (List.mem_filter.mp hb).2⟩
  -- The loop returned at the first wanted address, so what it deleted stands in front of any.
  have hsub : ∀ b ∈ front, b ∈ front' := by
    rw [hsplit] at hsplit'
    rcases List.append_eq_append_iff.mp hsplit' with ⟨mid, rfl, -⟩ | ⟨mid, rfl, hmid⟩
    · exact fun b hb => List.mem_append_left mid hb
    · cases mid with
      | nil => exact fun b hb => by simpa using hb
      | cons c mid =>
        obtain ⟨rfl, -⟩ := List.cons.inj hmid
        have hfamily := (hmem (List.mem_append_right front' List.mem_cons_self)).2
        exact absurd ⟨isOther_iff.mpr ⟨hfamily, _, hhas.1, hlocal⟩, hhas⟩
          (hfront wanted' (List.mem_append_right front' List.mem_cons_self))
  intro honly
  refine hnot (honly.1 a (mem_without.mpr ⟨?_, fun b hb _ => hfresh b (hsub b hb)⟩) hother)
  exact (hmem (List.mem_append_right _ (List.mem_cons_of_mem _ hback))).1

end Returned

/-- **The link has only the wanted address in the end exactly if no other one is listed behind
it**, the wanted address is not link-local and its prefix length fits into a byte. -/
theorem ensureV6AddressOnLink_iff (hnl : nl.Succeeds linkIndex addrs) :
    (ensureV6AddressOnLink nl ipa ipn linkIndex addrs).1 = .ok () ∧
    (OnlyWanted ipa addrs (ensureV6AddressOnLink nl ipa ipn linkIndex addrs).2 ↔
      isLinkLocalUnicast (.v6 ipa.ip) = false ∧ ipa.prefixLen < 256 ∧
        ¬ ListedBehind ipa addrs) := by
  have hneeds {after : List LinkAddress} (h : OnlyWanted ipa addrs after) :
      isLinkLocalUnicast (.v6 ipa.ip) = false ∧ ipa.prefixLen < 256 := by
    obtain ⟨-, ⟨a, -, hother, hip, hprefix⟩, -⟩ := h
    obtain ⟨-, ip, hip', hlocal⟩ := isOther_iff.mp hother
    rw [hip] at hip'
    cases hip'
    exact ⟨hlocal, hprefix ▸ a.prefixLen.toNat_lt⟩
  rcases ensureV6AddressOnLink_cases hnl with
    ⟨hnone, heq⟩ | ⟨front, wanted, back, hsplit, hfront, hwanted, heq⟩
  · rw [heq]
    refine ⟨rfl, fun h => ⟨(hneeds h).1, (hneeds h).2, ?_⟩, fun h => onlyWanted_added h.1 h.2.1⟩
    rintro ⟨front, wanted, back, hsplit, hhas, -⟩
    have hmem : wanted ∈ addrs.filter (·.family = .inet6) := by
      rw [hsplit]
      exact List.mem_append_right _ List.mem_cons_self
    have hother : isOther wanted = true :=
      isOther_iff.mpr ⟨of_decide_eq_true (List.mem_filter.mp hmem).2, _, hhas.1, (hneeds h).1⟩
    exact hnone wanted hmem ((isWanted_iff (hneeds h).2).mpr ⟨hother, hhas⟩)
  · rw [heq]
    refine ⟨rfl, fun h => ⟨(hneeds h).1, (hneeds h).2, fun hbehind => ?_⟩, fun h =>
      onlyWanted_without h.2.1 hsplit hfront hwanted h.2.2⟩
    exact not_onlyWanted_without (hneeds h).1 (hneeds h).2 hsplit hfront hbehind h

end Outcome

/-- Netlink that does what it is asked. -/
def plainNetlink : AddressNetlink where
  linkByIndex index := some (.ok ⟨index, some "flannel-v6.1", none⟩)
  dump addrs := addrs.map .ok
  del _ := .ok ()
  add _ _ := .ok ()

theorem plainNetlink_succeeds (linkIndex : Nat) (addrs : List LinkAddress) :
    plainNetlink.Succeeds linkIndex addrs :=
  ⟨⟨_, rfl⟩, rfl, fun _ => rfl, fun _ _ => rfl⟩

/-- The address that is wanted, another one and a link-local one. -/
def wantedNet : IP6Net := ⟨⟨0xfc00_0000_0000_0000_0000_0000_0000_0001⟩, 128⟩

def wantedAddress : LinkAddress := addedAddress (.v6 wantedNet.ip) 128

def otherAddress : LinkAddress := addedAddress (.v6 ⟨0xfc00_0000_0000_0000_0000_0000_0000_0002⟩) 64

def localAddress : LinkAddress := addedAddress (.v6 ⟨0xfe80_0000_0000_0000_0000_0000_0000_0001⟩) 64

/-- With the other address in front of the wanted one all is well. -/
theorem ensureV6AddressOnLink_iff_in_front :
    OnlyWanted wantedNet [localAddress, otherAddress, wantedAddress]
      (ensureV6AddressOnLink plainNetlink wantedNet wantedNet 7
        [localAddress, otherAddress, wantedAddress]).2 := by
  refine (ensureV6AddressOnLink_iff (plainNetlink_succeeds 7 _)).2.mpr ⟨by decide, by decide, ?_⟩
  rintro ⟨front, wanted, back, hsplit, hhas, a, hback, hother, hnot, -⟩
  have hdump : [localAddress, otherAddress, wantedAddress].filter (·.family = .inet6) =
      [localAddress, otherAddress, wantedAddress] := by rfl
  rw [hdump] at hsplit
  rcases front with _ | ⟨_, _ | ⟨_, _ | ⟨_, front⟩⟩⟩
  · obtain ⟨rfl, -⟩ := List.cons.inj hsplit
    exact absurd hhas.1 (by decide)
  · obtain ⟨-, hsplit⟩ := List.cons.inj hsplit
    obtain ⟨rfl, -⟩ := List.cons.inj hsplit
    exact absurd hhas.1 (by decide)
  · obtain ⟨-, hsplit⟩ := List.cons.inj hsplit
    obtain ⟨-, hsplit⟩ := List.cons.inj hsplit
    obtain ⟨-, rfl⟩ := List.cons.inj hsplit
    cases hback
  · have hlen := congrArg List.length hsplit
    simp at hlen

/-- With the other address behind it, it stays. -/
theorem address_behind_stays :
    (ensureV6AddressOnLink plainNetlink wantedNet wantedNet 7 [wantedAddress, otherAddress]).1 =
        .ok () ∧
      ¬ OnlyWanted wantedNet [wantedAddress, otherAddress]
        (ensureV6AddressOnLink plainNetlink wantedNet wantedNet 7
          [wantedAddress, otherAddress]).2 := by
  have hrun : ensureV6AddressOnLink plainNetlink wantedNet wantedNet 7
      [wantedAddress, otherAddress] = (.ok (), [wantedAddress, otherAddress]) := by decide
  rw [hrun]
  refine ⟨rfl, fun honly => ?_⟩
  have hother := honly.1 otherAddress (by decide) (by decide)
  exact absurd hother.2 (by decide)

end IpMatch

end Flannel
