import Flannel.Traffic.Rules

/-!
# What a rule list does to a packet

The meaning of the rules that flannel installs, for the part of the two rule languages
that flannel uses.  A rule is a list of tests and a verdict; a list of rules is gone
through from the front, and the first rule all of whose tests hold gives its verdict
(`verdict`).  A packet that no rule decides is left alone.

A rule of either language is read from its text, so the reading is part of the meaning:
`readSpec` reads the arguments of an `iptables` rule, `readText` the words of an `nft`
rule.  What a CIDR text denotes is the business of the address family, so the readers
get it as an argument.  A mark is compared under a mask; `iptables` writes the mask
behind a slash, and `nft` compares the whole mark.
-/

namespace Flannel
namespace Filter

/-- What the rules look at of a packet. -/
structure Packet (α : Type) where
  src : α
  dst : α
  mark : BitVec 32

/-- A test of a rule. -/
inductive Test (α : Type) where
  | src (negated : Bool) (net : α → Bool)
  | dst (negated : Bool) (net : α → Bool)
  | mark (value mask : BitVec 32)

/-- What a rule says about the packets it takes. -/
inductive Verdict where
  | ret
  | masquerade
  deriving DecidableEq, Repr

/-- A rule. -/
structure Rule (α : Type) where
  tests : List (Test α)
  verdict : Verdict

variable {α : Type}

/-- Whether a test holds of a packet. -/
def Test.holds (p : Packet α) : Test α → Bool
  | .src negated net => negated != net p.src
  | .dst negated net => negated != net p.dst
  | .mark value mask => p.mark &&& mask == value

/-- Whether a rule takes a packet. -/
def Rule.takes (r : Rule α) (p : Packet α) : Bool := r.tests.all (Test.holds p)

/-- **First match.**  The verdict of the first rule that takes the packet. -/
def verdict (p : Packet α) : List (Rule α) → Option Verdict
  | [] => none
  | r :: rules => if r.takes p then some r.verdict else verdict p rules

/-- Whether the list masquerades the packet. -/
def masquerades (rules : List (Rule α)) (p : Packet α) : Bool :=
  verdict p rules == some .masquerade

/-! ## Reading marks -/

/-- A hexadecimal number of 32 bits, with its `0x`. -/
def readHex (s : String) : Option (BitVec 32) :=
  match s.toList with
  | '0' :: 'x' :: ds =>
    if ds ≠ [] ∧ ds.all (fun c => (StdAddr.toDigit 16 c).isSome) ∧
        StdAddr.digitsValue 16 ds < UInt32.size then
      some (BitVec.ofNat 32 (StdAddr.digitsValue 16 ds))
    else none
  | _ => none

/-- `value/mask`. -/
def readMark (s : String) : Option (Test α) := do
  let (value, mask) ← splitOnce '/' s
  return .mark (← readHex value) (← readHex mask)

/-! ## Reading rules -/

/-- A rule with one more test. -/
def Rule.also (t : Test α) (r : Rule α) : Rule α := { r with tests := t :: r.tests }

/-- The rule that the arguments of an `iptables` command state. -/
def readSpec (net : String → Option (α → Bool)) : List String → Option (Rule α)
  | "-s" :: cidr :: rest => do return (← readSpec net rest).also (.src false (← net cidr))
  | "-d" :: cidr :: rest => do return (← readSpec net rest).also (.dst false (← net cidr))
  | "!" :: "-s" :: cidr :: rest => do return (← readSpec net rest).also (.src true (← net cidr))
  | "!" :: "-d" :: cidr :: rest => do return (← readSpec net rest).also (.dst true (← net cidr))
  | "-m" :: "mark" :: "--mark" :: mark :: rest => do
    return (← readSpec net rest).also (← readMark mark)
  | "-m" :: "comment" :: "--comment" :: _ :: rest => readSpec net rest
  | ["-j", "RETURN"] => some ⟨[], .ret⟩
  | ["-j", "MASQUERADE"] => some ⟨[], .masquerade⟩
  | ["-j", "MASQUERADE", "--random-fully"] => some ⟨[], .masquerade⟩
  | _ => none

/-- The rules of a chain, in order. -/
def readChain (net : String → Option (α → Bool)) (chain : String) (rules : List IPTablesRule) :
    Option (List (Rule α)) :=
  (rules.filter (·.chain == chain)).mapM fun r => readSpec net r.rulespec

/-- The words of an `nft` rule text. -/
def words (s : String) : List String := (s.toList.splitOn ' ').map String.ofList

/-- The rule that the words of an `nft` rule of the family state. -/
def readWords (net : String → Option (α → Bool)) (family : String) :
    List String → Option (Rule α)
  | ["return"] => some ⟨[], .ret⟩
  | ["masquerade"] => some ⟨[], .masquerade⟩
  | ["masquerade", "fully-random"] => some ⟨[], .masquerade⟩
  | "meta" :: "mark" :: value :: rest => do
    return (← readWords net family rest).also (.mark (← readHex value) (BitVec.allOnes 32))
  | f :: "saddr" :: "!=" :: cidr :: rest =>
    if f = family then do
      return (← readWords net family rest).also (.src true (← net cidr))
    else none
  | f :: "daddr" :: "!=" :: cidr :: rest =>
    if f = family then do
      return (← readWords net family rest).also (.dst true (← net cidr))
    else none
  | f :: "saddr" :: cidr :: rest =>
    if f = family then do
      return (← readWords net family rest).also (.src false (← net cidr))
    else none
  | f :: "daddr" :: cidr :: rest =>
    if f = family then do
      return (← readWords net family rest).also (.dst false (← net cidr))
    else none
  | _ => none

/-- The rules of a list of texts, in order. -/
def readTexts (net : String → Option (α → Bool)) (family : String) (texts : List String) :
    Option (List (Rule α)) :=
  texts.mapM fun text => readWords net family (words text)

end Filter
end Flannel
