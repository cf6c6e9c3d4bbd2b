import Flannel.Ip.Net
import Flannel.Lib.KeyedList

/-!
# Command-line flags

`flags.rs`: a set of flags, and the parser for the arguments of the command line, which follows
the `flag` package of Go.

An argument that starts with a dash names a flag, after one dash or two, and may carry a value
behind an equals sign.  A flag that is no bool takes the next argument if it carries none.  The
first other argument ends the flags, and so does `--`, which is dropped.

The parser changes the flags as it goes, also if it fails later, so it returns them in any case.
The index at which the source is in its arguments is the list of those that are left.  A dash is
one byte, so where the source looks at the first two bytes of an argument, it is the first two
characters here.
-/

namespace Flannel

open KeyedList StdAddr

namespace Flags

/-! ## Values -/

/-- `FlagError`. -/
inductive FlagError where
  | unknownFlag (name : String)
  | badValue (name value reason : String)
  | missingValue (name : String)
  | badSyntax (arg : String)
  | help
  deriving DecidableEq, Repr

/-- `Kind`. -/
inductive Kind where
  | bool
  | int
  | str
  | slice
  deriving DecidableEq, Repr

/-- `Value`. -/
inductive Value where
  | bool (b : Bool)
  | int (n : Int)
  | str (s : String)
  | slice (items : List String)
  deriving DecidableEq, Repr

/-- `parse_bool`. -/
def parseBool (s : String) : Except String Bool :=
  if s ∈ ["1", "t", "T", "TRUE", "true", "True"] then .ok true
  else if s ∈ ["0", "f", "F", "FALSE", "false", "False"] then .ok false
  else .error s!"strconv.ParseBool: parsing \"{s}\": invalid syntax"

/-- `IntErrorKind`, as far as `from_str_radix` gives it. -/
inductive IntErrorKind where
  | empty
  | invalidDigit
  | posOverflow
  | negOverflow
  deriving DecidableEq, Repr

/-- The values from `i64::MIN` to `i64::MAX`. -/
def InI64 (n : Int) : Prop := -9223372036854775808 ≤ n ∧ n ≤ 9223372036854775807

instance (n : Int) : Decidable (InI64 n) := inferInstanceAs (Decidable (_ ∧ _))

/-- The loop of `i64::from_str_radix`.  It looks at a digit before it reports that the product
overflows. -/
def accumulate (negative : Bool) (radix : Nat) (result : Int) : List Char → Except IntErrorKind Int
  | [] => .ok result
  | c :: cs =>
    match toDigit radix c with
    | none => .error .invalidDigit
    | some d =>
      let overflow := if negative then IntErrorKind.negOverflow else .posOverflow
      let next := if negative then result * radix - d else result * radix + d
      if InI64 (result * radix) ∧ InI64 next then accumulate negative radix next cs
      else .error overflow

/-- `i64::from_str_radix`. -/
def i64FromStrRadix (radix : Nat) : List Char → Except IntErrorKind Int
  | [] => .error .empty
  | ['+'] => .error .invalidDigit
  | ['-'] => .error .invalidDigit
  | '+' :: digits => accumulate false radix 0 digits
  | '-' :: digits => accumulate true radix 0 digits
  | digits => accumulate false radix 0 digits

/-- The sign of `parse_int`, and what stands behind it. -/
def splitSign : List Char → List Char × List Char
  | '+' :: body => (['+'], body)
  | '-' :: body => (['-'], body)
  | body => ([], body)

/-- The digits of `parse_int`, with their radix. -/
def splitRadix (body : List Char) : List Char × Nat :=
  let lead := (body.take 2).map Char.toLower
  if lead = ['0', 'x'] then (body.drop 2, 16)
  else if lead = ['0', 'o'] then (body.drop 2, 8)
  else if lead = ['0', 'b'] then (body.drop 2, 2)
  else if 1 < body.length ∧ body.head? = some '0' then (body.drop 1, 8)
  else (body, 10)

/-- `parse_int`. -/
def parseInt (s : String) : Except String Int :=
  let invalid := s!"strconv.ParseInt: parsing \"{s}\": invalid syntax"
  let outOfRange := s!"strconv.ParseInt: parsing \"{s}\": value out of range"
  let (sign, body) := splitSign s.toList
  if body = [] then .error invalid
  else
    let (digits, radix) := splitRadix body
    if digits = [] then .error invalid
    else
      match i64FromStrRadix radix (sign ++ digits) with
      | .ok n => .ok n
      | .error .posOverflow => .error outOfRange
      | .error .negOverflow => .error outOfRange
      | .error _ => .error invalid

/-! ## Flags -/

/-- `Flag`. -/
structure Flag where
  name : String
  kind : Kind
  help : String
  value : Value
  default : Value
  setByCli : Bool
  setByEnv : Bool
  deriving DecidableEq, Repr

/-- `set_flag_value`; a flag that is refused a value stays as it is. -/
def setFlagValue (flag : Flag) (raw : String) : Except String Flag :=
  match flag.kind with
  | .bool => (parseBool raw).map fun b => { flag with value := .bool b }
  | .int => (parseInt raw).map fun n => { flag with value := .int n }
  | .str => .ok { flag with value := .str raw }
  | .slice =>
    match flag.value with
    | .slice items => .ok { flag with value := .slice (items ++ [raw]) }
    | _ => .ok flag

/-- `FlagSet`. -/
structure FlagSet where
  name : String
  flags : List Flag
  remaining : List String
  toleratedUnknown : List String
  deriving DecidableEq, Repr

namespace FlagSet

/-- `FlagSet::new`. -/
def new (name : String) : FlagSet where
  name := name
  flags := []
  remaining := []
  toleratedUnknown := []

/-- `FlagSet::find`, with the flags before and after the one it finds. -/
def find (fs : FlagSet) (name : String) : Option (List Flag × Flag × List Flag) :=
  firstMatch (fun f => f.name = name) fs.flags

/-- `FlagSet::register`; a name that is taken fails its assertion. -/
def register (fs : FlagSet) (name : String) (kind : Kind) (default : Value) (help : String) :
    Option FlagSet :=
  match fs.find name with
  | some _ => none
  | none =>
    let flag : Flag :=
      { name := name, kind := kind, help := help, value := default, default := default,
        setByCli := false, setByEnv := false }
    some { fs with flags := fs.flags ++ [flag] }

/-- `FlagSet::register_bool`. -/
def registerBool (fs : FlagSet) (name : String) (default : Bool) (help : String) :
    Option FlagSet :=
  fs.register name .bool (.bool default) help

/-- `FlagSet::register_int`. -/
def registerInt (fs : FlagSet) (name : String) (default : Int) (help : String) : Option FlagSet :=
  fs.register name .int (.int default) help

/-- `FlagSet::register_string`. -/
def registerString (fs : FlagSet) (name default help : String) : Option FlagSet :=
  fs.register name .str (.str default) help

/-- `FlagSet::register_slice`. -/
def registerSlice (fs : FlagSet) (name help : String) : Option FlagSet :=
  fs.register name .slice (.slice []) help

/-- `FlagSet::with_tolerated_unknown`. -/
def withToleratedUnknown (fs : FlagSet) (names : List String) : FlagSet :=
  { fs with toleratedUnknown := names }

/-- `FlagSet::is_set`. -/
def isSet (fs : FlagSet) (name : String) : Bool :=
  match fs.find name with
  | some (_, flag, _) => flag.setByCli || flag.setByEnv
  | none => false

/-- `FlagSet::remaining_args`. -/
def remainingArgs (fs : FlagSet) : List String := fs.remaining

/-! ## Parsing -/

/-- What an argument is: no flag, the end of the flags, or a flag with what stands behind its
equals sign, if it has one. -/
inductive Arg where
  | positional
  | terminator
  | badSyntax
  | flag (name inline : String) (hasValue : Bool)
  deriving DecidableEq, Repr

/-- The name and the value of a flag, behind its dashes. -/
def readBody (body : List Char) : Arg :=
  if body = [] ∨ body.head? = some '-' ∨ body.head? = some '=' then .badSyntax
  else
    match splitOnce '=' (String.ofList body) with
    | some (name, inline) => .flag name inline true
    | none => .flag (String.ofList body) "" false

/-- What `parse` sees in an argument. -/
def readArg (arg : String) : Arg :=
  match arg.toList with
  | first :: c :: cs =>
    if first ≠ '-' then .positional
    else if c ≠ '-' then readBody (c :: cs)
    else if cs = [] then .terminator
    else readBody cs
  | _ => .positional

/-- The value for a flag of the given kind, and the arguments behind it. -/
def rawValue (kind : Kind) (inline : String) (hasValue : Bool) (rest : List String) :
    Option (String × List String) :=
  if kind = .bool then some (if hasValue then inline else "true", rest)
  else if hasValue then some (inline, rest)
  else
    match rest with
    | next :: rest => some (next, rest)
    | [] => none

theorem rawValue_length {kind : Kind} {inline raw : String} {hasValue : Bool}
    {rest rest' : List String} (h : rawValue kind inline hasValue rest = some (raw, rest')) :
    rest'.length ≤ rest.length := by
  unfold rawValue at h
  by_cases hkind : kind = .bool
  · rw [if_pos hkind] at h
    cases h
    exact Nat.le_refl _
  rw [if_neg hkind] at h
  by_cases hvalue : hasValue = true
  · rw [if_pos hvalue] at h
    cases h
    exact Nat.le_refl _
  rw [if_neg hvalue] at h
  cases rest with
  | nil => cases h
  | cons next rest =>
    cases h
    exact Nat.le_succ _

/-- The arguments behind a tolerated flag, and behind what is taken to be its value. -/
def skipTolerated (hasValue : Bool) : List String → List String
  | [] => []
  | next :: rest => if hasValue = false ∧ next.toList.head? ≠ some '-' then rest else next :: rest

theorem skipTolerated_length (hasValue : Bool) (rest : List String) :
    (skipTolerated hasValue rest).length ≤ rest.length := by
  cases rest with
  | nil => exact Nat.le_refl _
  | cons next rest =>
    rw [skipTolerated]
    split_ifs with h
    · exact Nat.le_succ _
    · exact Nat.le_refl _

/-- `FlagSet::parse`, with the flags that it leaves. -/
def parse (fs : FlagSet) : List String → FlagSet × Except FlagError Unit
  | [] => ({ fs with remaining := [] }, .ok ())
  | arg :: rest =>
    match readArg arg with
    | .positional => ({ fs with remaining := arg :: rest }, .ok ())
    | .terminator => ({ fs with remaining := rest }, .ok ())
    | .badSyntax => (fs, .error (.badSyntax arg))
    | .flag name inline hasValue =>
      match fs.find name with
      | some (pre, flag, post) =>
        match _hraw : rawValue flag.kind inline hasValue rest with
        | none => (fs, .error (.missingValue name))
        | some (raw, rest') =>
          match setFlagValue flag raw with
          | .error reason => (fs, .error (.badValue name raw reason))
          | .ok flag' =>
            parse { fs with flags := pre ++ { flag' with setByCli := true } :: post } rest'
      | none =>
        if name = "help" ∨ name = "h" then ({ fs with remaining := rest }, .error .help)
        else if name ∈ fs.toleratedUnknown then parse fs (skipTolerated hasValue rest)
        else (fs, .error (.unknownFlag name))
termination_by args => args.length
decreasing_by
  · have hle := rawValue_length _hraw
    rw [List.length_cons]
    omega
  · have hle := skipTolerated_length hasValue rest
    rw [List.length_cons]
    omega

end FlagSet

end Flags

end Flannel
