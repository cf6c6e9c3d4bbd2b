import Flannel.Ip.Display

/-!
# Socket addresses

`std::net::SocketAddr` and its parser, and the resolution of an endpoint text through
`to_socket_addrs`: a text that is an address with a port is taken as it is, everything
else is split at the last colon and looked up.  The look-up is a parameter.

An endpoint is printed as an address, a colon and a port, with the IPv6 address in
brackets.  Both forms are read back without a look-up (`toSocketAddrs_v4`, `toSocketAddrs_v6`).
-/

namespace Flannel

/-- `std::net::SocketAddr`; the scope is that of an IPv6 address. -/
structure SocketAddr where
  ip : IpAddr
  port : UInt16
  scopeId : Nat := 0
  deriving DecidableEq, Repr

namespace StdAddr

/-- `read_number` without a limit on the number of digits. -/
def readUnbounded (bound : Nat) (cs : List Char) : Option (Nat × List Char) :=
  readNumber 10 cs.length true bound cs

/-- `read_port`. -/
def readPort (cs : List Char) : Option (UInt16 × List Char) :=
  (readGivenChar ':' cs).bind fun cs =>
    (readUnbounded UInt16.size cs).map fun (n, cs) => (UInt16.ofNat n, cs)

/-- `read_scope_id`. -/
def readScopeId (cs : List Char) : Option (Nat × List Char) :=
  (readGivenChar '%' cs).bind (readUnbounded UInt32.size)

/-- `read_socket_addr_v4`. -/
def readSocketAddrV4 (cs : List Char) : Option (SocketAddr × List Char) := do
  let (a, cs) ← readIpv4Addr cs
  let (port, cs) ← readPort cs
  return ({ ip := .v4 ⟨a⟩, port := port }, cs)

/-- `read_socket_addr_v6`. -/
def readSocketAddrV6 (cs : List Char) : Option (SocketAddr × List Char) := do
  let cs ← readGivenChar '[' cs
  let (a, cs) ← readIpv6Addr cs
  let (scopeId, cs) := (readScopeId cs).getD (0, cs)
  let cs ← readGivenChar ']' cs
  let (port, cs) ← readPort cs
  return ({ ip := .v6 ⟨a⟩, port := port, scopeId := scopeId }, cs)

/-- `<SocketAddr as FromStr>::from_str`. -/
def parseSocketAddr (s : String) : Option SocketAddr :=
  parseWith (fun cs => (readSocketAddrV4 cs).or (readSocketAddrV6 cs)) s.toList

/-- `<u16 as FromStr>::from_str`: an optional `+`, then decimal digits whose value fits. -/
def parseU16 (s : String) : Option UInt16 :=
  let ds := match s.toList with
    | '+' :: rest => rest
    | cs => cs
  if ds ≠ [] ∧ ds.all (fun c => (toDigit 10 c).isSome) ∧ digitsValue 10 ds < UInt16.size then
    some (UInt16.ofNat (digitsValue 10 ds))
  else none

/-- `str::rsplit_once`: the text before and after the last `c`. -/
def rsplitOnce (c : Char) (s : String) : Option (String × String) :=
  match s.toList.reverse.dropWhile (· ≠ c) with
  | [] => none
  | _ :: rest =>
    some (String.ofList rest.reverse,
      String.ofList (s.toList.reverse.takeWhile (· ≠ c)).reverse)

/-- `<str as ToSocketAddrs>::to_socket_addrs`, with the look-up of a host. -/
def toSocketAddrs (lookup : String → UInt16 → Option (List SocketAddr)) (s : String) :
    Option (List SocketAddr) :=
  match parseSocketAddr s with
  | some a => some [a]
  | none => do
    let (host, portText) ← rsplitOnce ':' s
    let port ← parseU16 portText
    lookup host port

/-! ## Endpoint texts -/

variable {lookup : String → UInt16 → Option (List SocketAddr)}

theorem readPort_toDigits (port : UInt16) :
    readPort (':' :: Nat.toDigits 10 port.toNat) = some (port, []) := by
  have hread : readNumber 10 (Nat.toDigits 10 port.toNat).length true UInt16.size
      (Nat.toDigits 10 port.toNat ++ []) = some (port.toNat, []) :=
    readNumber_toDigits (by omega) (by omega) (Nat.le_refl _) port.toNat_lt_size (noDigit_nil 10)
  rw [List.append_nil] at hread
  rw [readPort, readGivenChar, if_pos rfl, Option.bind_some, readUnbounded, hread, Option.map_some]
  simp only [UInt16.ofNat_toNat]

theorem noDigit_colon_ten (rest : List Char) : NoDigit 10 (':' :: rest) :=
  noDigit_ten_of_sixteen (noDigit_colon rest)

theorem endsAddr_bracket (rest : List Char) : EndsAddr (']' :: rest) := by
  intro c hc
  cases hc
  decide

/-- An address and a port. -/
theorem parseSocketAddr_v4 (ip : IP4) (port : UInt16) :
    parseSocketAddr s!"{ip.toString}:{port.toNat}" = some { ip := .v4 ip, port := port } := by
  have htext : (s!"{ip.toString}:{port.toNat}").toList =
      (showIpv4 ip.val).toList ++ ':' :: Nat.toDigits 10 port.toNat := by
    simp [String.toList_append, toString, Nat.toList_repr, IP4.toString]
  have haddr := readIpv4Addr_showIpv4 ip.val (noDigit_colon_ten (Nat.toDigits 10 port.toNat))
  have hread : readSocketAddrV4 ((showIpv4 ip.val).toList ++ ':' :: Nat.toDigits 10 port.toNat) =
      some ({ ip := .v4 ip, port := port }, []) := by
    simp [readSocketAddrV4, haddr, readPort_toDigits, bind, pure]
  rw [parseSocketAddr, htext, parseWith, hread]
  rfl

/-- An address in brackets and a port. -/
theorem parseSocketAddr_v6 (ip : IP6) (port : UInt16) :
    parseSocketAddr s!"[{ip.toString}]:{port.toNat}" = some { ip := .v6 ip, port := port } := by
  have htext : (s!"[{ip.toString}]:{port.toNat}").toList =
      '[' :: ((showIpv6 ip.val).toList ++ ']' :: ':' :: Nat.toDigits 10 port.toNat) := by
    simp [String.toList_append, toString, Nat.toList_repr, IP6.toString]
  have hv4 : ∀ cs, readSocketAddrV4 ('[' :: cs) = none := by
    intro cs
    have hdigit : toDigit 10 '[' = none := by decide
    simp [readSocketAddrV4, readIpv4Addr, readOctet, readSeparator, readNumber, hdigit, bind]
  have haddr := readIpv6Addr_showIpv6 ip.val (endsAddr_bracket (':' :: Nat.toDigits 10 port.toNat))
  have hread : readSocketAddrV6
      ('[' :: ((showIpv6 ip.val).toList ++ ']' :: ':' :: Nat.toDigits 10 port.toNat)) =
      some ({ ip := .v6 ip, port := port }, []) := by
    simp [readSocketAddrV6, readGivenChar, haddr, readScopeId, readPort_toDigits, bind, pure]
  rw [parseSocketAddr, htext, parseWith, hv4, hread]
  rfl

theorem toSocketAddrs_v4 (ip : IP4) (port : UInt16) :
    toSocketAddrs lookup s!"{ip.toString}:{port.toNat}" =
      some [{ ip := .v4 ip, port := port }] := by
  rw [toSocketAddrs, parseSocketAddr_v4]

theorem toSocketAddrs_v6 (ip : IP6) (port : UInt16) :
    toSocketAddrs lookup s!"[{ip.toString}]:{port.toNat}" =
      some [{ ip := .v6 ip, port := port }] := by
  rw [toSocketAddrs, parseSocketAddr_v6]

/-- The text of a missing address is not resolved. -/
theorem toSocketAddrs_empty : toSocketAddrs lookup "" = none := by
  have hparse : parseSocketAddr "" = none := by decide
  have hsplit : rsplitOnce ':' "" = none := by decide
  rw [toSocketAddrs, hparse, hsplit]
  rfl

end StdAddr

end Flannel
