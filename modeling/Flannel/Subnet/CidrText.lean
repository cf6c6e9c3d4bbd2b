import Flannel.Ip.Digits
import Flannel.Ip.Display
import Flannel.Lib.Results
import Flannel.Subnet.File

/-!
# CIDR texts

Four functions read a network from a text: `from_str` of `IP4Net` and of `IP6Net`, and
`parse_ip4net` and `parse_ip6net` of the daemon.  Each cuts the text at a slash, three of them at
the first one and `parse_ip6net` at the last, and reads an address and a number.

No address has a slash in it, so the two cuts make no difference (`parts_rsplitOnce`).  The number
is read by `u32::from_str`, and that one takes a plus sign in front of the digits.  So the four
accept CIDR notation and, besides, the texts with such a sign (`parts_splitOnce_iff`).
-/

namespace Flannel

open StdAddr

/-! ## What an address reader consumes -/

section Consumed

/-- A reader took some characters of an address from the front. -/
def Consumed (cs rest : List Char) : Prop :=
  ∃ used, cs = used ++ rest ∧ ∀ c ∈ used, isAddrChar c = true

variable {cs rest : List Char}

theorem Consumed.refl (cs : List Char) : Consumed cs cs := ⟨[], rfl, fun _ hc => by cases hc⟩

theorem Consumed.trans {ds : List Char} (h₁ : Consumed cs ds) (h₂ : Consumed ds rest) :
    Consumed cs rest := by
  obtain ⟨used₁, rfl, hused₁⟩ := h₁
  obtain ⟨used₂, rfl, hused₂⟩ := h₂
  refine ⟨used₁ ++ used₂, (List.append_assoc _ _ _).symm, fun c hc => ?_⟩
  rcases List.mem_append.mp hc with hc | hc
  · exact hused₁ c hc
  · exact hused₂ c hc

theorem consumed_readNumber {radix maxDigits bound n : Nat} {allowZeroPrefix : Bool}
    (hradix : radix ≤ 16)
    (h : readNumber radix maxDigits allowZeroPrefix bound cs = some (n, rest)) :
    Consumed cs rest := by
  simp only [readNumber] at h
  split_ifs at h
  cases h
  refine ⟨_, List.takeWhile_append_dropWhile.symm, fun c hc => ?_⟩
  exact isAddrChar_of_digit hradix (List.all_eq_true.mp List.all_takeWhile c hc)

theorem consumed_readGivenChar {c : Char} (hc : isAddrChar c = true)
    (h : readGivenChar c cs = some rest) : Consumed cs rest := by
  cases cs with
  | nil => cases h
  | cons d ds =>
    rw [readGivenChar] at h
    split_ifs at h with hd
    cases h
    refine ⟨[d], rfl, fun e he => ?_⟩
    rw [List.mem_singleton.mp he, hd]
    exact hc

theorem consumed_readSeparator {α : Type} {sep : Char} (hsep : isAddrChar sep = true)
    {index : Nat} {inner : List Char → Option (α × List Char)}
    (hinner : ∀ cs a rest, inner cs = some (a, rest) → Consumed cs rest) {a : α}
    (h : readSeparator sep index inner cs = some (a, rest)) : Consumed cs rest := by
  rw [readSeparator] at h
  split_ifs at h
  · obtain ⟨ds, hds, hread⟩ := Option.bind_eq_some_iff.mp h
    exact (consumed_readGivenChar hsep hds).trans (hinner _ _ _ hread)
  · exact hinner _ _ _ h

theorem consumed_readOctet {index n : Nat} (h : readOctet index cs = some (n, rest)) :
    Consumed cs rest :=
  consumed_readSeparator (by decide) (fun _ _ _ => consumed_readNumber (by omega)) h

theorem consumed_readIpv4Addr {a : BitVec 32} (h : readIpv4Addr cs = some (a, rest)) :
    Consumed cs rest := by
  simp only [readIpv4Addr, Option.bind_eq_bind, Option.bind_eq_some_iff] at h
  obtain ⟨⟨_, cs₁⟩, h₁, ⟨_, cs₂⟩, h₂, ⟨_, cs₃⟩, h₃, ⟨_, cs₄⟩, h₄, h⟩ := h
  cases h
  exact (((consumed_readOctet h₁).trans (consumed_readOctet h₂)).trans
    (consumed_readOctet h₃)).trans (consumed_readOctet h₄)

theorem consumed_readGroups (limit n : Nat) (cs : List Char) :
    Consumed cs (readGroups limit n cs).2.2 := by
  induction n generalizing cs with
  | zero => exact Consumed.refl cs
  | succ n ih =>
    rw [readGroups]
    split
    · rename_i v4 cs' heq
      split_ifs at heq
      exact consumed_readSeparator (by decide) (fun _ _ _ => consumed_readIpv4Addr) heq
    · split
      · rename_i g cs' heq
        exact (consumed_readSeparator (by decide)
          (fun _ _ _ => consumed_readNumber (Nat.le_refl 16)) heq).trans (ih cs')
      · exact Consumed.refl cs

theorem consumed_readIpv6Addr {a : BitVec 128} (h : readIpv6Addr cs = some (a, rest)) :
    Consumed cs rest := by
  have hhead := consumed_readGroups 8 8 cs
  simp only [readIpv6Addr] at h
  split_ifs at h
  · cases h
    exact hhead
  · simp only [Option.bind_eq_bind, Option.bind_eq_some_iff] at h
    obtain ⟨cs₁, h₁, cs₂, h₂, h⟩ := h
    cases h
    exact ((hhead.trans (consumed_readGivenChar (by decide) h₁)).trans
      (consumed_readGivenChar (by decide) h₂)).trans (consumed_readGroups _ _ _)

theorem slash_notMem_of_parseWith {α : Type} {inner : List Char → Option (α × List Char)}
    (hinner : ∀ cs a rest, inner cs = some (a, rest) → Consumed cs rest) {a : α}
    (h : parseWith inner cs = some a) : '/' ∉ cs := by
  unfold parseWith at h
  split at h
  · rename_i heq
    obtain ⟨used, hcs, hused⟩ := hinner _ _ _ heq
    rw [List.append_nil] at hcs
    rw [hcs]
    exact fun hmem => absurd (hused '/' hmem) (by decide)
  · cases h

theorem slash_notMem_of_parseIpv4 {s : String} {a : BitVec 32} (h : parseIpv4 s = some a) :
    '/' ∉ s.toList := by
  unfold parseIpv4 at h
  split_ifs at h
  exact slash_notMem_of_parseWith (fun _ _ _ => consumed_readIpv4Addr) h

theorem slash_notMem_of_parseIpv6 {s : String} {a : BitVec 128} (h : parseIpv6 s = some a) :
    '/' ∉ s.toList :=
  slash_notMem_of_parseWith (fun _ _ _ => consumed_readIpv6Addr) h

end Consumed

/-! ## The grammar -/

section Grammar

variable {w : Nat} (parseAddr : String → Option (BitVec w)) (limit : Nat)

/-- CIDR notation: an address, a slash, and decimal digits of a value up to the limit. -/
def IsCidr (s : String) (ip : BitVec w) (len : Nat) : Prop :=
  ∃ addr ds, s.toList = addr ++ '/' :: ds ∧ parseAddr (String.ofList addr) = some ip ∧
    IsDigits 10 ds ∧ digitsValue 10 ds = len ∧ len ≤ limit

/-- The same with a plus sign in front of the digits. -/
def IsPlusCidr (s : String) (ip : BitVec w) (len : Nat) : Prop :=
  ∃ addr ds, s.toList = addr ++ '/' :: '+' :: ds ∧ parseAddr (String.ofList addr) = some ip ∧
    IsDigits 10 ds ∧ digitsValue 10 ds = len ∧ len ≤ limit

/-- What the four parsers have in common: the address and the prefix length of the two parts of a
text. -/
def parts (split : Option (String × String)) : Option (BitVec w × Nat) := do
  let (addr, prefixText) ← split
  let len ← parseU32 prefixText
  if limit < len then none
  else
    let ip ← parseAddr addr
    return (ip, len)

end Grammar

/-! ## Cutting at a slash -/

theorem splitOnce_eq_some_iff {c : Char} {s a b : String} :
    splitOnce c s = some (a, b) ↔ s.toList = a.toList ++ c :: b.toList ∧ c ∉ a.toList := by
  constructor
  · intro h
    unfold splitOnce at h
    cases hdrop : s.toList.dropWhile (· ≠ c) with
    | nil =>
      rw [hdrop] at h
      cases h
    | cons d rest =>
      rw [hdrop] at h
      cases h
      have hd : d = c := by
        have hhead := List.head?_dropWhile_not (fun d => decide (d ≠ c)) s.toList
        rw [hdrop] at hhead
        simpa using hhead
      subst hd
      refine ⟨?_, fun hmem => ?_⟩
      · rw [String.toList_ofList, String.toList_ofList, ← hdrop, List.takeWhile_append_dropWhile]
      · rw [String.toList_ofList] at hmem
        simpa using List.all_eq_true.mp List.all_takeWhile d hmem
  · rintro ⟨hs, ha⟩
    have hcat : s = a ++ String.ofList (c :: b.toList) := by
      apply String.toList_inj.mp
      rw [hs, String.toList_append, String.toList_ofList]
    rw [hcat, splitOnce_append ha]

theorem rsplitOnce_eq_some_iff {c : Char} {s a b : String} :
    rsplitOnce c s = some (a, b) ↔ s.toList = a.toList ++ c :: b.toList ∧ c ∉ b.toList := by
  have hreverse : rsplitOnce c s =
      (splitOnce c (String.ofList s.toList.reverse)).map fun p =>
        (String.ofList p.2.toList.reverse, String.ofList p.1.toList.reverse) := by
    unfold rsplitOnce splitOnce
    rw [String.toList_ofList]
    cases s.toList.reverse.dropWhile (· ≠ c) with
    | nil => rfl
    | cons d rest => simp
  rw [hreverse]
  simp only [Option.map_eq_some_iff, Prod.exists, splitOnce_eq_some_iff, Prod.mk.injEq,
    String.toList_ofList]
  constructor
  · rintro ⟨x, y, ⟨hs, hx⟩, rfl, rfl⟩
    rw [String.toList_ofList, String.toList_ofList, List.mem_reverse]
    refine ⟨?_, hx⟩
    rw [← List.reverse_reverse s.toList, hs]
    simp
  · rintro ⟨hs, hb⟩
    refine ⟨String.ofList b.toList.reverse, String.ofList a.toList.reverse, ⟨?_, ?_⟩, ?_, ?_⟩
    · rw [hs]
      simp
    · rw [String.toList_ofList, List.mem_reverse]
      exact hb
    · simp
    · simp

theorem slash_notMem_of_parseU32 {s : String} {n : Nat} (h : parseU32 s = some n) :
    '/' ∉ s.toList := by
  obtain ⟨-, ds, hds, -, hs⟩ := parseU32_eq_some_iff.mp h
  have hnot : '/' ∉ ds := fun hmem => absurd (hds.2 '/' hmem) (by decide)
  rcases hs with hs | hs
  · rwa [hs]
  · rw [hs, List.mem_cons, not_or]
    exact ⟨by decide, hnot⟩

/-! ## What is accepted -/

section Accepted

variable {w limit : Nat} {parseAddr : String → Option (BitVec w)}
  (hslash : ∀ s ip, parseAddr s = some ip → '/' ∉ s.toList)
  (hlimit : limit < UInt32.size)

theorem parts_eq_some_iff {split : Option (String × String)} {ip : BitVec w} {len : Nat} :
    parts parseAddr limit split = some (ip, len) ↔
      ∃ addr text, split = some (addr, text) ∧ parseU32 text = some len ∧ len ≤ limit ∧
        parseAddr addr = some ip := by
  simp only [parts, Option.bind_eq_bind, Option.bind_eq_some_iff, Prod.exists,
    Option.ite_none_left_eq_some]
  constructor
  · rintro ⟨addr, text, hsplit, n, hlen, hle, ip', hip, hpair⟩
    cases hpair
    exact ⟨addr, text, hsplit, hlen, Nat.not_lt.mp hle, hip⟩
  · rintro ⟨addr, text, hsplit, hlen, hle, hip⟩
    exact ⟨addr, text, hsplit, len, hlen, Nat.not_lt.mpr hle, ip, hip, rfl⟩

include hslash in
/-- Behind an address stands the first slash of the text. -/
theorem splitOnce_of_parseAddr {s : String} {addr text : List Char} {ip : BitVec w}
    (hs : s.toList = addr ++ '/' :: text) (hip : parseAddr (String.ofList addr) = some ip) :
    splitOnce '/' s = some (String.ofList addr, String.ofList text) := by
  refine splitOnce_eq_some_iff.mpr ⟨?_, hslash _ _ hip⟩
  rw [hs, String.toList_ofList, String.toList_ofList]

include hslash hlimit in
/-- **CIDR notation is accepted, with a plus sign or without it, and nothing else.** -/
theorem parts_splitOnce_iff {s : String} {ip : BitVec w} {len : Nat} :
    parts parseAddr limit (splitOnce '/' s) = some (ip, len) ↔
      IsCidr parseAddr limit s ip len ∨ IsPlusCidr parseAddr limit s ip len := by
  rw [parts_eq_some_iff]
  constructor
  · rintro ⟨addr, text, hsplit, hlen, hle, hip⟩
    obtain ⟨hs, -⟩ := splitOnce_eq_some_iff.mp hsplit
    have hip' : parseAddr (String.ofList addr.toList) = some ip := by
      rwa [String.ofList_toList]
    obtain ⟨-, ds, hds, hvalue, htext | htext⟩ := parseU32_eq_some_iff.mp hlen
    · exact .inl ⟨addr.toList, ds, by rw [hs, htext], hip', hds, hvalue, hle⟩
    · exact .inr ⟨addr.toList, ds, by rw [hs, htext], hip', hds, hvalue, hle⟩
  · have hlen {text ds : List Char} (hds : IsDigits 10 ds) (hvalue : digitsValue 10 ds = len)
        (hle : len ≤ limit) (htext : text = ds ∨ text = '+' :: ds) :
        parseU32 (String.ofList text) = some len := by
      refine parseU32_eq_some_iff.mpr ⟨by omega, ds, hds, hvalue, ?_⟩
      rwa [String.toList_ofList]
    rintro (⟨addr, ds, hs, hip, hds, hvalue, hle⟩ | ⟨addr, ds, hs, hip, hds, hvalue, hle⟩)
    · exact ⟨_, _, splitOnce_of_parseAddr hslash hs hip, hlen hds hvalue hle (.inl rfl), hle, hip⟩
    · exact ⟨_, _, splitOnce_of_parseAddr hslash hs hip, hlen hds hvalue hle (.inr rfl), hle, hip⟩

include hslash in
/-- **Cutting at the last slash makes no difference.** -/
theorem parts_rsplitOnce (s : String) :
    parts parseAddr limit (rsplitOnce '/' s) = parts parseAddr limit (splitOnce '/' s) := by
  refine Option.ext fun r => ⟨fun h => ?_, fun h => ?_⟩
  · -- an address behind which the last slash stands has no other one
    obtain ⟨addr, text, hrsplit, -, -, hip⟩ := parts_eq_some_iff.mp h
    have hsplit : splitOnce '/' s = some (addr, text) :=
      splitOnce_eq_some_iff.mpr ⟨(rsplitOnce_eq_some_iff.mp hrsplit).1, hslash _ _ hip⟩
    rwa [hsplit, ← hrsplit]
  · -- and a number in front of which the first slash stands has none
    obtain ⟨addr, text, hsplit, hlen, -⟩ := parts_eq_some_iff.mp h
    have hrsplit : rsplitOnce '/' s = some (addr, text) :=
      rsplitOnce_eq_some_iff.mpr
        ⟨(splitOnce_eq_some_iff.mp hsplit).1, slash_notMem_of_parseU32 hlen⟩
    rwa [hrsplit, ← hsplit]

include hslash in
/-- A text with a plus sign is not in CIDR notation. -/
theorem not_isCidr_of_isPlusCidr {s : String} {ip ip' : BitVec w} {len len' : Nat}
    (hplus : IsPlusCidr parseAddr limit s ip len) : ¬ IsCidr parseAddr limit s ip' len' := by
  rintro ⟨addr', ds', hs', hip', hds', -⟩
  obtain ⟨addr, ds, hs, hip, -⟩ := hplus
  have hsplit := splitOnce_of_parseAddr hslash hs hip
  rw [splitOnce_of_parseAddr hslash hs' hip'] at hsplit
  have hds : ds' = '+' :: ds := by
    simpa using congrArg (fun p => p.2.toList) (Option.some.inj hsplit)
  exact hds'.head_ne (toDigit_plus 10) ds hds

end Accepted

/-! ## The four parsers -/

theorem IP4Net.toOption_fromStr (s : String) :
    (IP4Net.fromStr s).toOption =
      (parts parseIpv4 32 (splitOnce '/' s)).map fun p => IP4Net.network ⟨⟨p.1⟩, p.2⟩ := by
  unfold IP4Net.fromStr IP4.fromStr parts
  cases splitOnce '/' s with
  | none => rfl
  | some p =>
    simp only [Option.bind_eq_bind, Option.bind_some]
    cases parseU32 p.2 with
    | none => rfl
    | some len =>
      simp only [Option.bind_some]
      split_ifs with hlen
      · rfl
      · cases parseIpv4 p.1 with
        | none => rfl
        | some ip => rfl

theorem IP6Net.toOption_fromStr (s : String) :
    (IP6Net.fromStr s).toOption =
      (parts parseIpv6 128 (splitOnce '/' s)).map fun p => IP6Net.network ⟨⟨p.1⟩, p.2⟩ := by
  unfold IP6Net.fromStr IP6.fromStr parts
  cases splitOnce '/' s with
  | none => rfl
  | some p =>
    simp only [Option.bind_eq_bind, Option.bind_some]
    cases parseU32 p.2 with
    | none => rfl
    | some len =>
      simp only [Option.bind_some]
      split_ifs with hlen
      · rfl
      · cases parseIpv6 p.1 with
        | none => rfl
        | some ip => rfl

theorem parseIp4net_eq (s : String) : parseIp4net s = (IP4Net.fromStr s).toOption := by
  rw [IP4Net.toOption_fromStr]
  unfold parseIp4net IP4.fromStr parts
  cases splitOnce '/' s with
  | none => rfl
  | some p =>
    simp only [Option.bind_eq_bind, Option.bind_some]
    cases parseU32 p.2 with
    | none => rfl
    | some len =>
      simp only [Option.bind_some]
      split_ifs with hlen
      · rfl
      · cases parseIpv4 p.1 with
        | none => rfl
        | some ip => rfl

theorem parseIp6net_eq (s : String) : parseIp6net s = (IP6Net.fromStr s).toOption := by
  rw [IP6Net.toOption_fromStr, ← parts_rsplitOnce fun _ _ => slash_notMem_of_parseIpv6]
  unfold parseIp6net IP6.fromStr parts
  cases rsplitOnce '/' s with
  | none => rfl
  | some p =>
    simp only [Option.bind_eq_bind, Option.bind_some]
    cases parseU32 p.2 with
    | none => rfl
    | some len =>
      simp only [Option.bind_some]
      split_ifs with hlen
      · rfl
      · cases parseIpv6 p.1 with
        | none => rfl
        | some ip => rfl

/-! ## Exactly CIDR notation -/

section Exact

variable {w limit : Nat} {parseAddr : String → Option (BitVec w)} {α ε : Type}
  {fromStr : String → Except ε α} {network : BitVec w → Nat → α}

/-- **A parser accepts exactly CIDR notation, unless there is a plus sign.** -/
theorem accepts_cidr_iff (hslash : ∀ s ip, parseAddr s = some ip → '/' ∉ s.toList)
    (hlimit : limit < UInt32.size) {s : String}
    (hfrom : (fromStr s).toOption =
      (parts parseAddr limit (splitOnce '/' s)).map fun p => network p.1 p.2) :
    (∀ n, fromStr s = .ok n ↔ ∃ ip len, IsCidr parseAddr limit s ip len ∧ n = network ip len) ↔
      ¬ ∃ ip len, IsPlusCidr parseAddr limit s ip len := by
  have hok (n : α) : fromStr s = .ok n ↔ ∃ ip len,
      (IsCidr parseAddr limit s ip len ∨ IsPlusCidr parseAddr limit s ip len) ∧
        n = network ip len := by
    rw [← Results.toOption_eq_some_iff, hfrom, Option.map_eq_some_iff]
    simp only [Prod.exists, parts_splitOnce_iff hslash hlimit, eq_comm (a := n)]
  constructor
  · rintro hexact ⟨ip, len, hplus⟩
    obtain ⟨ip', len', hcidr, -⟩ :=
      (hexact _).mp ((hok _).mpr ⟨ip, len, .inr hplus, rfl⟩)
    exact not_isCidr_of_isPlusCidr hslash hplus hcidr
  · intro hnot n
    rw [hok]
    constructor
    · rintro ⟨ip, len, hcidr | hplus, hn⟩
      · exact ⟨ip, len, hcidr, hn⟩
      · exact absurd ⟨ip, len, hplus⟩ hnot
    · rintro ⟨ip, len, hcidr, hn⟩
      exact ⟨ip, len, .inl hcidr, hn⟩

end Exact

/-- **The four parsers accept exactly CIDR notation, unless there is a plus sign in front of the
prefix length**; the two of the daemon agree with `from_str` in any case. -/
theorem parsers_accept_cidr_iff (s : String) :
    ((∀ n, IP4Net.fromStr s = .ok n ↔
        ∃ ip len, IsCidr parseIpv4 32 s ip len ∧ n = IP4Net.network ⟨⟨ip⟩, len⟩) ↔
      ¬ ∃ ip len, IsPlusCidr parseIpv4 32 s ip len) ∧
    ((∀ n, IP6Net.fromStr s = .ok n ↔
        ∃ ip len, IsCidr parseIpv6 128 s ip len ∧ n = IP6Net.network ⟨⟨ip⟩, len⟩) ↔
      ¬ ∃ ip len, IsPlusCidr parseIpv6 128 s ip len) ∧
    (∀ n, parseIp4net s = some n ↔ IP4Net.fromStr s = .ok n) ∧
    (∀ n, parseIp6net s = some n ↔ IP6Net.fromStr s = .ok n) := by
  refine ⟨?_, ?_, fun n => ?_, fun n => ?_⟩
  · exact accepts_cidr_iff (fun _ _ => slash_notMem_of_parseIpv4) (by decide)
      (IP4Net.toOption_fromStr s)
  · exact accepts_cidr_iff (fun _ _ => slash_notMem_of_parseIpv6) (by decide)
      (IP6Net.toOption_fromStr s)
  · rw [parseIp4net_eq, Results.toOption_eq_some_iff]
  · rw [parseIp6net_eq, Results.toOption_eq_some_iff]

/-- `10.0.0.0/+8` is read as `10.0.0.0/8`, although it is not in CIDR notation. -/
theorem plus_sign_is_accepted :
    IP4Net.fromStr "10.0.0.0/+8" = .ok ⟨⟨0x0a000000#32⟩, 8⟩ ∧
      ¬ ∃ ip len, IsCidr parseIpv4 32 "10.0.0.0/+8" ip len := by
  have hplus : IsPlusCidr parseIpv4 32 "10.0.0.0/+8" 0x0a000000#32 8 :=
    ⟨"10.0.0.0".toList, ['8'], by decide, by decide, by decide, by decide, by decide⟩
  refine ⟨by decide, ?_⟩
  rintro ⟨ip, len, hcidr⟩
  exact not_isCidr_of_isPlusCidr (fun _ _ => slash_notMem_of_parseIpv4) hplus hcidr

end Flannel
