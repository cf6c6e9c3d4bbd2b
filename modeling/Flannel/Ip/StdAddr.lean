import Mathlib.Data.List.Basic

/-!
# The standard library's address texts

`IP4` and `IP6` parse and print themselves through `std::net::Ipv4Addr` and
`std::net::Ipv6Addr`.  Both are part of the language's library, so their
behaviour is written out here: the recursive-descent reader that consumes a
prefix of the text and hands the rest on, and the printer.

A reader takes the remaining characters and returns what it read together with
what is left, or `none` --- in which case the caller continues from where it
was, which is what the library's `read_atomically` does.
-/

namespace Flannel
namespace StdAddr

/-- `char::to_digit`: the value of a digit in the given radix. -/
def toDigit (radix : Nat) (c : Char) : Option Nat :=
  let v :=
    if '0' ≤ c ∧ c ≤ '9' then some (c.toNat - '0'.toNat)
    else if 'a' ≤ c ∧ c ≤ 'z' then some (c.toNat - 'a'.toNat + 10)
    else if 'A' ≤ c ∧ c ≤ 'Z' then some (c.toNat - 'A'.toNat + 10)
    else none
  v.filter (· < radix)

/-- The value of a run of digits, most significant first. -/
def digitsValue (radix : Nat) (ds : List Char) : Nat :=
  ds.foldl (fun acc c => acc * radix + (toDigit radix c).getD 0) 0

/-- `read_number`: a run of at most `maxDigits` digits whose value is below
`bound`; a leading zero is refused unless it is the only digit or
`allowZeroPrefix` is set. -/
def readNumber (radix maxDigits : Nat) (allowZeroPrefix : Bool) (bound : Nat)
    (cs : List Char) : Option (Nat × List Char) :=
  let ds := cs.takeWhile fun c => (toDigit radix c).isSome
  let rest := cs.dropWhile fun c => (toDigit radix c).isSome
  if maxDigits < ds.length then none
  else if ds.length = 0 then none
  else if !allowZeroPrefix && (ds.head? == some '0') && decide (1 < ds.length) then none
  else if digitsValue radix ds < bound then some (digitsValue radix ds, rest)
  else none

/-- `read_given_char`. -/
def readGivenChar (c : Char) : List Char → Option (List Char)
  | [] => none
  | d :: rest => if d = c then some rest else none

/-- `read_separator`: every element but the first is preceded by `sep`. -/
def readSeparator {α : Type} (sep : Char) (index : Nat)
    (inner : List Char → Option (α × List Char)) (cs : List Char) :
    Option (α × List Char) :=
  if 0 < index then (readGivenChar sep cs).bind inner else inner cs

/-- One octet of a dotted address: no octal, so no leading zero. -/
def readOctet (index : Nat) : List Char → Option (Nat × List Char) :=
  readSeparator '.' index (readNumber 10 3 false 256)

/-- `read_ipv4_addr`. -/
def readIpv4Addr (cs : List Char) : Option (BitVec 32 × List Char) := do
  let (a, cs) ← readOctet 0 cs
  let (b, cs) ← readOctet 1 cs
  let (c, cs) ← readOctet 2 cs
  let (d, cs) ← readOctet 3 cs
  return (BitVec.ofNat 32 (((a * 256 + b) * 256 + c) * 256 + d), cs)

/-- `read_groups` with `n` of `limit` slots left: colon-separated groups, the last
two of which may be spelled as a dotted IPv4 address.  Returns the groups read
and whether the dotted form was used. -/
def readGroups (limit : Nat) : Nat → List Char → List Nat × Bool × List Char
  | 0, cs => ([], false, cs)
  | n + 1, cs =>
      let i := limit - (n + 1)
      -- the dotted form needs two slots
      match if 0 < n then readSeparator ':' i readIpv4Addr cs else none with
      | some (v4, cs') => ([v4.toNat / 65536, v4.toNat % 65536], true, cs')
      | none =>
          match readSeparator ':' i (readNumber 16 4 true 65536) cs with
          | some (g, cs') =>
              let r := readGroups limit n cs'
              (g :: r.1, r.2.1, r.2.2)
          | none => ([], false, cs)

/-- The address with the given eight groups. -/
def ofGroups (gs : List Nat) : BitVec 128 :=
  BitVec.ofNat 128 (gs.foldl (fun acc g => acc * 65536 + g) 0)

/-- `read_ipv6_addr`: eight groups, or a head and a tail around one `::`. -/
def readIpv6Addr (cs : List Char) : Option (BitVec 128 × List Char) :=
  let head := readGroups 8 8 cs
  if head.1.length = 8 then some (ofGroups head.1, head.2.2)
  else if head.2.1 then none
  else do
    let cs ← readGivenChar ':' head.2.2
    let cs ← readGivenChar ':' cs
    let limit := 8 - (head.1.length + 1)
    let tail := readGroups limit limit cs
    let zeros := List.replicate (8 - head.1.length - tail.1.length) 0
    return (ofGroups (head.1 ++ zeros ++ tail.1), tail.2.2)

/-- `parse_with`: the reader must consume the whole text. -/
def parseWith {α : Type} (inner : List Char → Option (α × List Char)) (cs : List Char) :
    Option α :=
  match inner cs with
  | some (a, []) => some a
  | _ => none

/-- `<Ipv4Addr as FromStr>::from_str`. -/
def parseIpv4 (s : String) : Option (BitVec 32) :=
  if 15 < s.toList.length then none else parseWith readIpv4Addr s.toList

/-- `<Ipv6Addr as FromStr>::from_str`. -/
def parseIpv6 (s : String) : Option (BitVec 128) :=
  parseWith readIpv6Addr s.toList

/-- `<u32 as FromStr>::from_str`: an optional `+`, then decimal digits whose value
fits. -/
def parseU32 (s : String) : Option Nat :=
  let ds := match s.toList with
    | '+' :: rest => rest
    | cs => cs
  if ds ≠ [] ∧ ds.all (fun c => (toDigit 10 c).isSome) ∧ digitsValue 10 ds < UInt32.size then
    some (digitsValue 10 ds)
  else none

/-! ## Printing -/

/-- `<Ipv4Addr as Display>::fmt`. -/
def showIpv4 (a : BitVec 32) : String :=
  let n := a.toNat
  s!"{n / 16777216}.{n / 65536 % 256}.{n / 256 % 256}.{n % 256}"

/-- The eight groups of an address, most significant first. -/
def segments (a : BitVec 128) : List Nat :=
  (List.range 8).map fun i => a.toNat >>> (16 * (7 - i)) % 65536

/-- The longest run of zero groups, the leftmost one if there are several, as
`(start, length)`. -/
def longestZeros (gs : List Nat) : Nat × Nat :=
  -- the running best and the run that ends here, scanned left to right
  (gs.zipIdx.foldl (fun (best, cur) (g, i) =>
    if g = 0 then
      let cur' : Nat × Nat := (if cur.2 = 0 then i else cur.1, cur.2 + 1)
      (if best.2 < cur'.2 then cur' else best, cur')
    else (best, (0, 0))) (((0, 0), (0, 0)) : (Nat × Nat) × (Nat × Nat))).1

/-- Groups in lowercase hexadecimal, separated by colons. -/
def showGroups (gs : List Nat) : String :=
  ":".intercalate (gs.map fun g => String.ofList (Nat.toDigits 16 g))

/-- `<Ipv6Addr as Display>::fmt`: the mapped form for `::ffff:0:0/96`, otherwise
the groups with the longest run of at least two zero groups elided. -/
def showIpv6 (a : BitVec 128) : String :=
  let gs := segments a
  if a.toNat >>> 32 = 0xffff then
    "::ffff:" ++ showIpv4 (BitVec.ofNat 32 a.toNat)
  else
    let z := longestZeros gs
    if 1 < z.2 then showGroups (gs.take z.1) ++ "::" ++ showGroups (gs.drop (z.1 + z.2))
    else showGroups gs

end StdAddr
end Flannel
