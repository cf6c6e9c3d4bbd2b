import Flannel.IpMatch.Lookup
import Flannel.Lib.Results

/-!
# The addresses of an interface found by a regular expression

On a single stack the loop over the interfaces stops at the first address that matches, and so
the interface and the address belong together.  On a dual stack an interface has to match with
both families.  One that matches with its IPv4 address only is passed over, but its address
stays behind in `iface_addr`.  If then no interface matches with both, one is chosen by its
name, and `iface_addr` is not filled in from it, because it is set already.

So the lookup returns an address of another interface exactly if this happens, the interface
chosen by its name does not have the address too, and nothing else makes the lookup fail
(`regex_addresses_iff`).
-/

namespace Flannel

namespace IpMatch

/-! ## Addresses of an interface -/

/-- An interface has an address of a family. -/
def Owns (nl : Netlink) (index : Nat) (family : AddressFamily) (ip : IpAddr) : Prop :=
  ∃ msg, .ok msg ∈ nl.addresses index ∧ msg.family = family ∧ addrIp msg = some ip

section Addresses

variable {nl : Netlink} {iface : NetIface} {family : AddressFamily} {usable : IpAddr → Bool}
  {message : String} {ips : List IpAddr} {ip : IpAddr}

theorem owns_of_getIfaceAddrs (h : getIfaceAddrs nl iface family usable message = .ok ips)
    (hip : ip ∈ ips) : Owns nl iface.index family ip := by
  unfold getIfaceAddrs at h
  obtain ⟨addrs, haddrs, hrest⟩ := Results.bind_ok_iff.mp h
  unfold listIfaceAddrs at haddrs
  obtain ⟨msgs, hmsgs, rfl⟩ := Results.map_ok_iff.mp haddrs
  dsimp only at hrest
  split at hrest
  · cases hrest
  · cases hrest
    obtain ⟨msg, hmsg, hmsg_ip⟩ := List.mem_filterMap.mp hip
    rw [List.mem_insertionSort, List.mem_filter] at hmsg
    have hok := Framing.mem_of_allOrError hmsgs hmsg.1
    exact ⟨msg, hok, of_decide_eq_true hmsg.2, (Option.filter_eq_some_iff.mp hmsg_ip).1⟩

theorem getIfaceAddrs_ne_nil (h : getIfaceAddrs nl iface family usable message = .ok ips) :
    ips ≠ [] := by
  unfold getIfaceAddrs at h
  obtain ⟨addrs, -, hrest⟩ := Results.bind_ok_iff.mp h
  dsimp only at hrest
  split at hrest
  · cases hrest
  · rename_i hne
    cases hrest
    exact hne

end Addresses

/-! ## The loop over the addresses -/

section Loop

variable (nl : Netlink) (re : String → Bool)

/-- The IPv4 address with which an interface matches on a dual stack, if its addresses of both
families can be read. -/
def v4Match (face : NetIface) : Option IpAddr :=
  match getIfaceIp4Addrs nl face, getIfaceIp6Addrs nl face with
  | .ok v4s, .ok _ => matchIp re v4s
  | _, _ => none

/-- The IPv6 address with which an interface matches. -/
def v6Match (face : NetIface) : Option IpAddr :=
  match getIfaceIp6Addrs nl face with
  | .ok v6s => matchIp re v6s
  | .error _ => none

variable {nl re} {face : NetIface} {faces : List NetIface} {m : IpAddr}

theorem owns_of_v4Match (h : v4Match nl re face = some m) : Owns nl face.index .inet m := by
  unfold v4Match at h
  split at h
  · rename_i v4s v6s hv4s hv6s
    exact owns_of_getIfaceAddrs hv4s (List.mem_of_find?_eq_some h)
  · cases h

theorem owns_of_v6Match (h : v6Match nl re face = some m) : Owns nl face.index .inet6 m := by
  unfold v6Match at h
  split at h
  · rename_i v6s hv6s
    exact owns_of_getIfaceAddrs hv6s (List.mem_of_find?_eq_some h)
  · cases h

theorem checkFace_dual (found : Found) (face : NetIface) :
    checkFace nl re dualStack found face =
      match v4Match nl re face, v6Match nl re face with
      | none, _ => (found, false)
      | some m, none => ({ found with ifaceAddr := some m }, false)
      | some m, some m6 =>
        ({ iface := some face, ifaceAddr := some m, ifaceV6Addr := some m6 }, true) := by
  have h4 : ¬ dualStack = ipv4Stack := by decide
  have h6 : ¬ dualStack = ipv6Stack := by decide
  unfold checkFace v4Match v6Match
  rw [if_neg h4, if_neg h6, if_pos rfl]
  cases getIfaceIp4Addrs nl face with
  | error e => rfl
  | ok v4s =>
    cases getIfaceIp6Addrs nl face with
    | error e => rfl
    | ok v6s =>
      dsimp only
      cases matchIp re v4s with
      | none => rfl
      | some m =>
        cases matchIp re v6s with
        | none => rfl
        | some m6 => rfl

/-- No interface matches with both families. -/
def NoneFull (nl : Netlink) (re : String → Bool) (faces : List NetIface) : Prop :=
  ∀ face ∈ faces, v4Match nl re face = none ∨ v6Match nl re face = none

/-- The IPv4 address of the last interface that matches with one. -/
def leftover (nl : Netlink) (re : String → Bool) (faces : List NetIface) : Option IpAddr :=
  (faces.filterMap (v4Match nl re)).getLast?

/-- **The loop on a dual stack**: it stops at an interface that matches with both families, or
it leaves the last IPv4 match behind. -/
theorem checkIps_dual (found : Found) (faces : List NetIface) :
    (∃ face ∈ faces, ∃ m m6, v4Match nl re face = some m ∧ v6Match nl re face = some m6 ∧
      checkIps nl re dualStack found faces =
        { iface := some face, ifaceAddr := some m, ifaceV6Addr := some m6 }) ∨
    NoneFull nl re faces ∧
      checkIps nl re dualStack found faces =
        { found with ifaceAddr := (leftover nl re faces).or found.ifaceAddr } := by
  induction faces generalizing found with
  | nil => exact Or.inr ⟨fun face hface => absurd hface List.not_mem_nil, rfl⟩
  | cons face faces ih =>
    rw [checkIps, checkFace_dual]
    cases h4 : v4Match nl re face with
    | none =>
      have hleft : leftover nl re (face :: faces) = leftover nl re faces := by
        rw [leftover, List.filterMap_cons_none h4]
        rfl
      rw [hleft]
      rcases ih found with ⟨f, hf, hfull⟩ | ⟨hnone, hleft⟩
      · exact Or.inl ⟨f, List.mem_cons_of_mem _ hf, hfull⟩
      · exact Or.inr ⟨List.forall_mem_cons.mpr ⟨Or.inl h4, hnone⟩, hleft⟩
    | some m =>
      cases h6 : v6Match nl re face with
      | some m6 => exact Or.inl ⟨face, List.mem_cons_self, m, m6, h4, h6, rfl⟩
      | none =>
        have hleft : leftover nl re (face :: faces) = (leftover nl re faces).or (some m) := by
          rw [leftover, List.filterMap_cons_some h4, List.getLast?_cons, leftover]
          cases (faces.filterMap (v4Match nl re)).getLast? with
          | none => rfl
          | some m' => rfl
        rw [hleft, Option.or_assoc, Option.some_or]
        rcases ih { found with ifaceAddr := some m } with ⟨f, hf, hfull⟩ | ⟨hnone, hleft⟩
        · exact Or.inl ⟨f, List.mem_cons_of_mem _ hf, hfull⟩
        · exact Or.inr ⟨List.forall_mem_cons.mpr ⟨Or.inr h6, hnone⟩, hleft⟩

/-- The interface and the addresses that were found belong together. -/
structure Found.Together (nl : Netlink) (found : Found) : Prop where
  v4 : ∀ i ip, found.iface = some i → found.ifaceAddr = some ip → Owns nl i.index .inet ip
  v6 : ∀ i ip, found.iface = some i → found.ifaceV6Addr = some ip → Owns nl i.index .inet6 ip

theorem checkFace_ipv4 (face : NetIface) :
    checkFace nl re ipv4Stack {} face = ({}, false) ∨
      ∃ found : Found, checkFace nl re ipv4Stack {} face = (found, true) ∧
        found.iface ≠ none ∧ found.Together nl := by
  unfold checkFace
  rw [if_pos rfl]
  cases hips : getIfaceIp4Addrs nl face with
  | error e => exact Or.inl rfl
  | ok ips =>
    dsimp only
    cases hm : matchIp re ips with
    | none => exact Or.inl rfl
    | some m =>
      refine Or.inr ⟨_, rfl, Option.some_ne_none face, ?_, ?_⟩
      · rintro i ip ⟨⟩ ⟨⟩
        exact owns_of_getIfaceAddrs hips (List.mem_of_find?_eq_some hm)
      · rintro i ip - ⟨⟩

theorem checkFace_ipv6 (face : NetIface) :
    checkFace nl re ipv6Stack {} face = ({}, false) ∨
      ∃ found : Found, checkFace nl re ipv6Stack {} face = (found, true) ∧
        found.iface ≠ none ∧ found.Together nl := by
  have h4 : ¬ ipv6Stack = ipv4Stack := by decide
  unfold checkFace
  rw [if_neg h4, if_pos rfl]
  cases hips : getIfaceIp6Addrs nl face with
  | error e => exact Or.inl rfl
  | ok ips =>
    dsimp only
    cases hm : matchIp re ips with
    | none => exact Or.inl rfl
    | some m =>
      refine Or.inr ⟨_, rfl, Option.some_ne_none face, ?_, ?_⟩
      · rintro i ip - ⟨⟩
      · rintro i ip ⟨⟩ ⟨⟩
        exact owns_of_getIfaceAddrs hips (List.mem_of_find?_eq_some hm)

/-- On a single stack there is no address without its interface. -/
theorem checkIps_single {ipStack : Int} (h : ipStack ≠ dualStack) (faces : List NetIface) :
    checkIps nl re ipStack {} faces = {} ∨
      (checkIps nl re ipStack {} faces).iface ≠ none ∧
        (checkIps nl re ipStack {} faces).Together nl := by
  induction faces with
  | nil => exact Or.inl rfl
  | cons face faces ih =>
    have hstep : checkFace nl re ipStack {} face = ({}, false) ∨
        ∃ found : Found, checkFace nl re ipStack {} face = (found, true) ∧
          found.iface ≠ none ∧ found.Together nl := by
      by_cases h4 : ipStack = ipv4Stack
      · rw [h4]
        exact checkFace_ipv4 face
      by_cases h6 : ipStack = ipv6Stack
      · rw [h6]
        exact checkFace_ipv6 face
      · refine Or.inl ?_
        unfold checkFace
        rw [if_neg h4, if_neg h6, if_neg h]
    rw [checkIps]
    rcases hstep with hpass | ⟨found, hfound, hfull⟩
    · rw [hpass]
      exact ih
    · rw [hfound]
      exact Or.inr hfull

/-! ## The loop over the names -/

/-- No interface matches with both families, one is chosen by its name, and there is an IPv4
match that was passed over. -/
structure PassedOver (nl : Netlink) (re : String → Bool) (faces : List NetIface) (g : NetIface)
    (m : IpAddr) : Prop where
  noneFull : NoneFull nl re faces
  named : faces.find? (fun face => re face.name) = some g
  left : leftover nl re faces = some m

theorem checkName_of_iface {found : Found} (h : found.iface ≠ none) (faces : List NetIface) :
    checkName re found faces = found :=
  if_neg fun hnone => h hnone.1

/-- The name decides about the interface, and the address is the one left behind. -/
theorem checkName_dual (h : NoneFull nl re faces) :
    checkName re (checkIps nl re dualStack {} faces) faces =
      { iface := faces.find? fun face => re face.name, ifaceAddr := leftover nl re faces } := by
  rcases checkIps_dual {} faces with ⟨face, hface, m, m6, h4, h6, -⟩ | ⟨-, hleft⟩
  · rcases h face hface with hnone | hnone
    · rw [h4] at hnone
      cases hnone
    · rw [h6] at hnone
      cases hnone
  · rw [hleft, checkName, if_pos ⟨rfl, Or.inr rfl⟩, Option.or_none]

/-- **The interface and its addresses belong together**, unless an address was passed over. -/
theorem together_of_owns {ipStack : Int}
    (h : ipStack = dualStack → ∀ g m, PassedOver nl re faces g m → Owns nl g.index .inet m) :
    (checkName re (checkIps nl re ipStack {} faces) faces).Together nl := by
  by_cases hdual : ipStack = dualStack
  · subst hdual
    rcases checkIps_dual {} faces with ⟨face, -, m, m6, h4, h6, hfull⟩ | ⟨hnone, -⟩
    · rw [hfull, checkName_of_iface (Option.some_ne_none face)]
      constructor
      · rintro i ip ⟨⟩ ⟨⟩
        exact owns_of_v4Match h4
      · rintro i ip ⟨⟩ ⟨⟩
        exact owns_of_v6Match h6
    · rw [checkName_dual hnone]
      constructor
      · intro g m hg hm
        exact h rfl g m ⟨hnone, hg, hm⟩
      · rintro i ip - ⟨⟩
  · rcases checkIps_single hdual faces with hempty | ⟨hiface, htogether⟩
    · rw [hempty, checkName, if_pos ⟨rfl, Or.inl rfl⟩]
      constructor
      · rintro i ip - ⟨⟩
      · rintro i ip - ⟨⟩
    · rw [checkName_of_iface hiface]
      exact htogether

end Loop

/-! ## The rest of the lookup -/

section Complete

variable {nl : Netlink} {ipStack : Int} {opts : PublicIPOpts} {found : Found}
  {ei : ExternalInterface} {g : NetIface} {m : IpAddr}

/-- What an interface must have for the lookup to succeed with it, when the IPv4 address is
known: an IPv6 address, an MTU, and options that can be read. -/
structure Completes (nl : Netlink) (opts : PublicIPOpts) (g : NetIface) : Prop where
  v6 : ∃ ips, getIfaceIp6Addrs nl g = .ok ips
  mtu : mtuOrZero nl g.index ≠ 0
  publicIp : opts.publicIp = "" ∨ parseIpAddr opts.publicIp ≠ none
  publicIpV6 : opts.publicIpV6 = "" ∨ parseIpAddr opts.publicIpV6 ≠ none

theorem publicAddr_ok_iff {text : String} (message : String) :
    (∃ ip, publicAddr text message = .ok ip) ↔ text = "" ∨ parseIpAddr text ≠ none := by
  unfold publicAddr
  by_cases htext : text = ""
  · simp [htext]
  · rw [if_neg htext]
    cases parseIpAddr text with
    | none => simp [htext]
    | some ip => simp

theorem fillIn_ok {addr r : Option IpAddr} {addrs : Except Error (List IpAddr)} {message : String}
    (h : fillIn true addr addrs message = .ok r) :
    (∃ ip, addr = some ip ∧ r = some ip) ∨
      addr = none ∧ ∃ ips, addrs = .ok ips ∧ ∃ ip ∈ ips, r = some ip := by
  unfold fillIn at h
  cases addr with
  | some ip =>
    rw [if_neg fun hnone => absurd hnone.2 (Option.some_ne_none ip)] at h
    cases h
    exact Or.inl ⟨ip, rfl, rfl⟩
  | none =>
    rw [if_pos ⟨rfl, rfl⟩] at h
    split at h
    · rename_i ip ips
      cases h
      exact Or.inr ⟨rfl, ip :: ips, rfl, ip, List.mem_cons_self, rfl⟩
    · cases h

/-- What a successful lookup went through. -/
theorem complete_ok (h : complete nl ipStack opts found = .ok ei) :
    ∃ i, found.iface = some i ∧ ei.ifaceIndex = i.index ∧
      fillIn (ipStack = ipv4Stack ∨ ipStack = dualStack) found.ifaceAddr
        (getIfaceIp4Addrs nl i) s!"failed to find IPv4 address for interface {i.name}" =
        .ok ei.ifaceAddr ∧
      fillIn (ipStack = ipv6Stack ∨ ipStack = dualStack) found.ifaceV6Addr
        (getIfaceIp6Addrs nl i) s!"failed to find IPv6 address for interface {i.name}" =
        .ok ei.ifaceV6Addr ∧
      mtuOrZero nl i.index ≠ 0 ∧
      (opts.publicIp = "" ∨ parseIpAddr opts.publicIp ≠ none) ∧
      (opts.publicIpV6 = "" ∨ parseIpAddr opts.publicIpV6 ≠ none) := by
  unfold complete at h
  cases hi : found.iface with
  | none =>
    rw [hi] at h
    cases h
  | some i =>
    rw [hi] at h
    obtain ⟨ifaceAddr, haddr, h⟩ := Results.bind_ok_iff.mp h
    obtain ⟨ifaceV6Addr, hv6addr, h⟩ := Results.bind_ok_iff.mp h
    split at h
    · cases h
    · rename_i hmtu
      obtain ⟨extAddr, hext, h⟩ := Results.bind_ok_iff.mp h
      obtain ⟨extV6Addr, hextv6, h⟩ := Results.bind_ok_iff.mp h
      cases h
      exact ⟨i, rfl, rfl, haddr, hv6addr, hmtu, (publicAddr_ok_iff _).mp ⟨extAddr, hext⟩,
        (publicAddr_ok_iff _).mp ⟨extV6Addr, hextv6⟩⟩

/-- The addresses of the stack are addresses of the interface. -/
def OwnAddresses (nl : Netlink) (ipStack : Int) (ei : ExternalInterface) : Prop :=
  (ipStack = ipv4Stack ∨ ipStack = dualStack →
    ∃ ip, ei.ifaceAddr = some ip ∧ Owns nl ei.ifaceIndex .inet ip) ∧
  (ipStack = ipv6Stack ∨ ipStack = dualStack →
    ∃ ip, ei.ifaceV6Addr = some ip ∧ Owns nl ei.ifaceIndex .inet6 ip)

/-- What belongs together is completed with addresses of the interface. -/
theorem complete_ownAddresses (hfound : found.Together nl)
    (h : complete nl ipStack opts found = .ok ei) : OwnAddresses nl ipStack ei := by
  obtain ⟨i, hi, hindex, hv4, hv6, -⟩ := complete_ok h
  rw [OwnAddresses, hindex]
  constructor
  · intro hstack
    rw [decide_eq_true hstack] at hv4
    rcases fillIn_ok hv4 with ⟨ip, hip, hresult⟩ | ⟨-, ips, hips, ip, hip, hresult⟩
    · exact ⟨ip, hresult, hfound.v4 i ip hi hip⟩
    · exact ⟨ip, hresult, owns_of_getIfaceAddrs hips hip⟩
  · intro hstack
    rw [decide_eq_true hstack] at hv6
    rcases fillIn_ok hv6 with ⟨ip, hip, hresult⟩ | ⟨-, ips, hips, ip, hip, hresult⟩
    · exact ⟨ip, hresult, hfound.v6 i ip hi hip⟩
    · exact ⟨ip, hresult, owns_of_getIfaceAddrs hips hip⟩

/-- With an IPv4 address left behind the lookup succeeds if the interface has the rest, and it
keeps the address. -/
theorem complete_passedOver (hg : Completes nl opts g) :
    ∃ ei, complete nl dualStack opts { iface := some g, ifaceAddr := some m } = .ok ei ∧
      ei.ifaceIndex = g.index ∧ ei.ifaceAddr = some m := by
  obtain ⟨ips, hips⟩ := hg.v6
  obtain ⟨extAddr, hext⟩ :=
    (publicAddr_ok_iff s!"invalid public IP address: {opts.publicIp}").mpr hg.publicIp
  obtain ⟨extV6Addr, hextv6⟩ :=
    (publicAddr_ok_iff s!"invalid public IPv6 address: {opts.publicIpV6}").mpr hg.publicIpV6
  cases ips with
  | nil => exact absurd rfl (getIfaceAddrs_ne_nil hips)
  | cons ip ips =>
    have hv4 : ∀ wanted addrs message,
        fillIn wanted (some m) addrs message = .ok (some m) := fun _ _ _ =>
      if_neg fun hnone => absurd hnone.2 (Option.some_ne_none m)
    have hv6 : ∀ message, fillIn (dualStack = ipv6Stack ∨ dualStack = dualStack) none
        (.ok (ip :: ips)) message = .ok (some ip) := fun _ => rfl
    refine ⟨⟨g.index, g.name, some m, some ip,
      if extAddr = none ∧ dualStack ≠ ipv6Stack then some m else extAddr,
      if extV6Addr = none ∧ dualStack ≠ ipv4Stack then some ip else extV6Addr⟩, ?_, rfl, rfl⟩
    unfold complete
    dsimp only
    rw [hv4, hips, hv6, hext, hextv6]
    show (if mtuOrZero nl g.index = 0 then _ else _) = _
    rw [if_neg hg.mtu]
    rfl

/-- When the returned address is that of another interface: no interface matches with both
families, the one chosen by its name does not have the address that was passed over, and
the lookup succeeds with it. -/
def StaleAddress (nl : Netlink) (compile : String → Except String (String → Bool))
    (ifregex : String) (ipStack : Int) (opts : PublicIPOpts) : Prop :=
  ipStack = dualStack ∧ ∃ re links g m, compile ifregex = .ok re ∧ listLinks nl = .ok links ∧
    PassedOver nl re (links.map netIfaceOf) g m ∧ ¬ Owns nl g.index .inet m ∧ Completes nl opts g

end Complete

/-! ## The lookup -/

/-- What the two loops find among the links. -/
def matchLinks (nl : Netlink) (re : String → Bool) (ipStack : Int) (links : List LinkMessage) :
    Found :=
  checkName re (checkIps nl re ipStack {} (links.map netIfaceOf)) (links.map netIfaceOf)

section Find

variable {nl : Netlink} {re : String → Bool} {ipStack : Int} {ifregex : String} {found : Found}
  {links : List LinkMessage}

theorem findRegex_ok (h : findRegex nl re ipStack ifregex = .ok found) :
    ∃ links, listLinks nl = .ok links ∧
      found = matchLinks nl re ipStack links := by
  unfold findRegex at h
  obtain ⟨links, hlinks, hrest⟩ := Results.bind_ok_iff.mp h
  refine ⟨links, Results.mapError_ok_iff.mp hlinks, ?_⟩
  dsimp only at hrest
  split at hrest
  · cases hrest
    rfl
  · cases hrest

theorem findRegex_of_iface (hlinks : listLinks nl = .ok links)
    (hiface : (matchLinks nl re ipStack links).iface ≠ none) :
    findRegex nl re ipStack ifregex = .ok (matchLinks nl re ipStack links) := by
  unfold findRegex
  refine Results.bind_ok_iff.mpr ⟨links, Results.mapError_ok_iff.mpr hlinks, ?_⟩
  dsimp only
  split
  · rfl
  · rename_i hnone
    exact absurd hnone hiface

end Find

section Lookup

variable (nl : Netlink) (compile : String → Except String (String → Bool))
  (ifregex ifcanreach : String) (ipStack : Int) (opts : PublicIPOpts)

/-- The lookup with a regular expression and no name. -/
theorem lookupExtIface_regex {ifregex : String} (hregex : ifregex ≠ "")
    {ei : ExternalInterface} :
    lookupExtIface nl compile "" ifregex ifcanreach ipStack opts = .ok ei ↔
      ∃ re links, compile ifregex = .ok re ∧ ipStack ≠ noneStack ∧ listLinks nl = .ok links ∧
        complete nl ipStack opts (matchLinks nl re ipStack links) = .ok ei := by
  unfold lookupExtIface compileRegex
  rw [if_neg hregex]
  cases hre : compile ifregex with
  | error e =>
    constructor
    · intro h
      cases h
    · rintro ⟨re, links, hok, -⟩
      cases hok
  | ok re =>
    show (if ipStack = noneStack then _ else _) = _ ↔ _
    by_cases hnone : ipStack = noneStack
    · rw [if_pos hnone]
      constructor
      · intro h
        cases h
      · rintro ⟨_, _, -, hstack, -⟩
        exact absurd hnone hstack
    rw [if_neg hnone, Results.bind_ok_iff]
    have hfind : ∀ found, findIface nl (some re) "" ifregex ifcanreach ipStack opts = .ok found ↔
        findRegex nl re ipStack ifregex = .ok found := fun found => by
      rw [findIface, if_neg (not_not_intro rfl)]
    constructor
    · rintro ⟨found, hfound, hcomplete⟩
      obtain ⟨links, hlinks, rfl⟩ := findRegex_ok ((hfind found).mp hfound)
      exact ⟨re, links, rfl, hnone, hlinks, hcomplete⟩
    · rintro ⟨_, links, ⟨⟩, -, hlinks, hcomplete⟩
      refine ⟨_, (hfind _).mpr (findRegex_of_iface hlinks ?_), hcomplete⟩
      obtain ⟨i, hi, -⟩ := complete_ok hcomplete
      rw [hi]
      exact Option.some_ne_none i

/-- **The addresses are those of the interface if and only if none of another one was left
behind.** -/
theorem regex_addresses_iff (hregex : ifregex ≠ "") :
    (∀ ei, lookupExtIface nl compile "" ifregex ifcanreach ipStack opts = .ok ei →
      OwnAddresses nl ipStack ei) ↔
    ¬ StaleAddress nl compile ifregex ipStack opts := by
  constructor
  · rintro hown ⟨rfl, re, links, g, m, hre, hlinks, hpassed, hother, hcompletes⟩
    obtain ⟨ei, hei, hindex, haddr⟩ := complete_passedOver (m := m) hcompletes
    have hfound : matchLinks nl re dualStack links = _ := checkName_dual hpassed.noneFull
    rw [hpassed.named, hpassed.left] at hfound
    rw [← hfound] at hei
    have hok := (lookupExtIface_regex nl compile ifcanreach dualStack opts hregex).mpr
      ⟨re, links, hre, by decide, hlinks, hei⟩
    obtain ⟨ip, hip, howns⟩ := (hown ei hok).1 (Or.inr rfl)
    rw [haddr] at hip
    cases hip
    rw [hindex] at howns
    exact hother howns
  · intro hstale ei hei
    obtain ⟨re, links, hre, -, hlinks, hcomplete⟩ :=
      (lookupExtIface_regex nl compile ifcanreach ipStack opts hregex).mp hei
    refine complete_ownAddresses (together_of_owns ?_) hcomplete
    rintro rfl g m hpassed
    by_contra hother
    refine hstale ⟨rfl, re, links, g, m, hre, hlinks, hpassed, hother, ?_⟩
    -- the lookup went through with this interface
    rw [matchLinks, checkName_dual hpassed.noneFull] at hcomplete
    obtain ⟨i, hi, -, -, hv6, hmtu, hpublic, hpublicV6⟩ := complete_ok hcomplete
    rw [hpassed.named] at hi
    cases hi
    rcases fillIn_ok hv6 with ⟨ip, hip, -⟩ | ⟨-, ips, hips, -⟩
    · cases hip
    · exact ⟨⟨ips, hips⟩, hmtu, hpublic, hpublicV6⟩

end Lookup

/-! ## Two interfaces -/

/-- A permanent address. -/
def plainAddr (family : AddressFamily) (ip : IpAddr) : AddressMessage :=
  ⟨family, true, false, false, [.ifaLocal ip]⟩

/-- An interface `eth0` with `10.0.0.1` and `fd00::1`, and an interface `lan1` with
`192.168.0.2` and `fd00::2`. -/
def twoIfaces : Netlink where
  links := [.ok ⟨1, some "eth0", some 1500⟩, .ok ⟨2, some "lan1", some 1500⟩]
  linkByIndex
    | 1 => some (.ok ⟨1, some "eth0", some 1500⟩)
    | 2 => some (.ok ⟨2, some "lan1", some 1500⟩)
    | _ => none
  linkByName _ := none
  addresses
    | 1 =>
      [.ok (plainAddr .inet (.v4 ⟨0x0a000001⟩)),
        .ok (plainAddr .inet6 (.v6 ⟨0xfd00 <<< 112 + 1⟩))]
    | 2 =>
      [.ok (plainAddr .inet (.v4 ⟨0xc0a80002⟩)),
        .ok (plainAddr .inet6 (.v6 ⟨0xfd00 <<< 112 + 2⟩))]
    | _ => []
  routes := []
  routeGet _ := []

/-- The library on the expression `^(10\.|lan)`. -/
def startCompile (_ : String) : Except String (String → Bool) :=
  .ok fun s => "10.".toList.isPrefixOf s.toList || "lan".toList.isPrefixOf s.toList

theorem regex_addresses_iff_single :
    ∃ ei, lookupExtIface twoIfaces startCompile "" "^(10\\.|lan)" "" ipv4Stack {} = .ok ei ∧
      ei.ifaceName = "eth0" ∧ OwnAddresses twoIfaces ipv4Stack ei := by
  have hsingle : ¬ StaleAddress twoIfaces startCompile "^(10\\.|lan)" ipv4Stack {} := by
    rintro ⟨hdual, -⟩
    exact absurd hdual (by decide)
  have hown := (regex_addresses_iff twoIfaces startCompile "^(10\\.|lan)" "" ipv4Stack {}
    (by decide)).mpr hsingle
  refine ⟨⟨1, "eth0", some (.v4 ⟨0x0a000001⟩), none, some (.v4 ⟨0x0a000001⟩), none⟩, rfl, rfl, ?_⟩
  exact hown _ rfl

/-- On a dual stack `lan1` is returned with the address of `eth0`. -/
theorem lan1_with_address_of_eth0 :
    ∃ ei, lookupExtIface twoIfaces startCompile "" "^(10\\.|lan)" "" dualStack {} = .ok ei ∧
      ei.ifaceName = "lan1" ∧ ei.ifaceAddr = some (.v4 ⟨0x0a000001⟩) ∧
      ¬ OwnAddresses twoIfaces dualStack ei := by
  refine ⟨⟨2, "lan1", some (.v4 ⟨0x0a000001⟩), some (.v6 ⟨0xfd00 <<< 112 + 2⟩),
    some (.v4 ⟨0x0a000001⟩), some (.v6 ⟨0xfd00 <<< 112 + 2⟩)⟩, ?_, rfl, rfl, ?_⟩
  · rfl
  · rintro ⟨hv4, -⟩
    obtain ⟨ip, hip, msg, hmsg, -, haddr⟩ := hv4 (Or.inr rfl)
    cases hip
    have hmem : msg = plainAddr .inet (.v4 ⟨0xc0a80002⟩) ∨
        msg = plainAddr .inet6 (.v6 ⟨0xfd00 <<< 112 + 2⟩) := by
      simpa [twoIfaces] using hmsg
    rcases hmem with rfl | rfl
    · exact absurd haddr (by decide)
    · exact absurd haddr (by decide)

end IpMatch

end Flannel
