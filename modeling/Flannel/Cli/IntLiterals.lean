import Flannel.Cli.Flags
import Flannel.Ip.Digits

/-!
# Integer literals

`parse_int` is meant to read what `strconv.ParseInt` reads with base 0: an optional sign, and a
decimal number without a leading zero or a number behind one of the prefixes `0x`, `0o`, `0b`
and `0`.

It takes the sign off, then the prefix, puts the sign back in front of the digits and hands the
text to `i64::from_str_radix`, which looks for a sign of its own.  If there was no sign in front,
one behind the prefix takes its place, and `0x-1` is read as a number.  Nothing else goes wrong:
the accumulator overflows exactly if the value does not fit (`accumulate_eq_ok_iff`), and a second
sign behind a first one is no digit.
-/

namespace Flannel

open StdAddr

namespace Flags

/-! ## The grammar -/

/-- An optional sign, and whether it is a minus. -/
inductive IsSign : List Char → Bool → Prop
  | none : IsSign [] false
  | plus : IsSign ['+'] false
  | minus : IsSign ['-'] true

/-- The prefixes of the other bases. -/
inductive RadixPrefix : List Char → Nat → Prop
  | hex : RadixPrefix ['0', 'x'] 16
  | hexUpper : RadixPrefix ['0', 'X'] 16
  | octal : RadixPrefix ['0', 'o'] 8
  | octalUpper : RadixPrefix ['0', 'O'] 8
  | binary : RadixPrefix ['0', 'b'] 2
  | binaryUpper : RadixPrefix ['0', 'B'] 2
  | zero : RadixPrefix ['0'] 8

/-- A literal without its sign: its text, its radix and its digits. -/
inductive LiteralBody : List Char → Nat → List Char → Prop
  | decimal {ds : List Char} (hds : IsDigits 10 ds) (hzero : ds.head? = some '0' → ds = ['0']) :
      LiteralBody ds 10 ds
  | based {pre ds : List Char} {radix : Nat} (hpre : RadixPrefix pre radix)
      (hds : IsDigits radix ds) : LiteralBody (pre ++ ds) radix ds

/-- The number with the given sign. -/
def signed (negative : Bool) (m : Nat) : Int := if negative then -(m : Int) else m

/-- An integer literal and its value. -/
def IsLiteral (s : String) (n : Int) : Prop :=
  ∃ sign negative body radix ds, s.toList = sign ++ body ∧ IsSign sign negative ∧
    LiteralBody body radix ds ∧ n = signed negative (digitsValue radix ds)

/-- The same with the sign behind the prefix instead of in front of it. -/
def MisplacedSign (s : String) (n : Int) : Prop :=
  ∃ pre radix sign negative ds, s.toList = pre ++ (sign ++ ds) ∧ RadixPrefix pre radix ∧
    IsSign sign negative ∧ sign ≠ [] ∧ IsDigits radix ds ∧
    n = signed negative (digitsValue radix ds)

/-! ## The library parser -/

/-- The value of digits behind those that make up `m`. -/
def valueFrom (radix m : Nat) (ds : List Char) : Nat :=
  ds.foldl (fun acc c => acc * radix + (toDigit radix c).getD 0) m

section Accumulate

variable {negative : Bool} {radix m m' : Nat} {ds : List Char} {n : Int}

theorem le_valueFrom (hradix : 0 < radix) : m ≤ valueFrom radix m ds := by
  induction ds generalizing m with
  | nil => exact Nat.le_refl m
  | cons c cs ih =>
    have hmul : m ≤ m * radix := Nat.le_mul_of_pos_right m hradix
    have hle : m * radix + (toDigit radix c).getD 0 ≤ valueFrom radix m (c :: cs) := ih
    omega

theorem signed_mul (negative : Bool) (m radix : Nat) :
    signed negative m * radix = signed negative (m * radix) := by
  cases negative with
  | false => simp [signed]
  | true => simp only [signed, if_true, Int.neg_mul, Int.natCast_mul]

theorem signed_add (negative : Bool) (m d : Nat) :
    (if negative then signed negative m - d else signed negative m + d) =
      signed negative (m + d) := by
  cases negative with
  | false => simp [signed]
  | true =>
    simp only [signed, if_true]
    omega

theorem inI64_of_le (hle : m ≤ m') (h : InI64 (signed negative m')) :
    InI64 (signed negative m) := by
  cases negative with
  | false =>
    simp only [signed, Bool.false_eq_true, if_false, InI64] at h ⊢
    omega
  | true =>
    simp only [signed, if_true, InI64] at h ⊢
    omega

/-- **The loop gives the value of the digits exactly if it fits.**  What it has so far never
exceeds the value in the end, so it stops early only if that one is too large. -/
theorem accumulate_eq_ok_iff (hradix : 0 < radix) (hm : InI64 (signed negative m)) :
    accumulate negative radix (signed negative m) ds = .ok n ↔
      (∀ c ∈ ds, (toDigit radix c).isSome = true) ∧
        n = signed negative (valueFrom radix m ds) ∧ InI64 n := by
  induction ds generalizing m with
  | nil =>
    simp only [accumulate, valueFrom, List.foldl_nil, List.not_mem_nil, false_implies,
      implies_true, true_and, Except.ok.injEq]
    constructor
    · rintro rfl
      exact ⟨rfl, hm⟩
    · rintro ⟨rfl, -⟩
      rfl
  | cons c cs ih =>
    rw [accumulate]
    cases hc : toDigit radix c with
    | none =>
      constructor
      · intro h
        cases h
      · intro h
        have hsome := h.1 c List.mem_cons_self
        rw [hc] at hsome
        cases hsome
    | some d =>
      have hvalue : valueFrom radix m (c :: cs) = valueFrom radix (m * radix + d) cs := by
        simp only [valueFrom, List.foldl_cons, hc, Option.getD_some]
      simp only [signed_mul, signed_add, List.forall_mem_cons, hc, Option.isSome_some, true_and,
        hvalue]
      split_ifs with hfits
      · exact ih hfits.2
      · constructor
        · intro h
          cases h
        · rintro ⟨-, rfl, hn⟩
          have hnext := inI64_of_le (le_valueFrom hradix) hn
          exact absurd ⟨inI64_of_le (Nat.le_add_right _ _) hnext, hnext⟩ hfits

theorem accumulate_zero_eq_ok_iff (hradix : 0 < radix) :
    accumulate negative radix 0 ds = .ok n ↔
      (∀ c ∈ ds, (toDigit radix c).isSome = true) ∧
        n = signed negative (digitsValue radix ds) ∧ InI64 n := by
  have hzero : signed negative 0 = 0 := by cases negative <;> rfl
  have hiff : accumulate negative radix (signed negative 0) ds = .ok n ↔
      (∀ c ∈ ds, (toDigit radix c).isSome = true) ∧
        n = signed negative (valueFrom radix 0 ds) ∧ InI64 n :=
    accumulate_eq_ok_iff hradix (by rw [hzero]; decide)
  rwa [hzero] at hiff

end Accumulate

/-! Signs -/

/-- A text that does not start with a sign. -/
def NoSign (cs : List Char) : Prop := ∀ rest, cs ≠ '+' :: rest ∧ cs ≠ '-' :: rest

theorem noSign_of_isDigits {radix : Nat} {ds : List Char} (hds : IsDigits radix ds) : NoSign ds :=
  fun rest => ⟨hds.head_ne (toDigit_plus radix) rest, hds.head_ne (toDigit_minus radix) rest⟩

theorem splitSign_of_noSign {cs : List Char} (h : NoSign cs) : splitSign cs = ([], cs) := by
  unfold splitSign
  split
  · exact absurd rfl (h _).1
  · exact absurd rfl (h _).2
  · rfl

theorem splitSign_append {sign ds : List Char} {negative : Bool} (hsign : IsSign sign negative)
    (hds : sign = [] → NoSign ds) : splitSign (sign ++ ds) = (sign, ds) := by
  cases hsign with
  | none => exact splitSign_of_noSign (hds rfl)
  | plus => rfl
  | minus => rfl

theorem IsSign.not_noSign {sign : List Char} {negative : Bool} (hsign : IsSign sign negative)
    (hne : sign ≠ []) (cs : List Char) : ¬ NoSign (sign ++ cs) := by
  intro h
  cases hsign with
  | none => exact hne rfl
  | plus => exact (h cs).1 rfl
  | minus => exact (h cs).2 rfl

/-- What `splitSign` splits off is the sign, if there is one. -/
theorem splitSign_spec (cs : List Char) :
    ∃ sign body negative, splitSign cs = (sign, body) ∧ cs = sign ++ body ∧
      IsSign sign negative ∧ (sign = [] → NoSign body) := by
  unfold splitSign
  split
  · exact ⟨_, _, _, rfl, rfl, .plus, fun h => by cases h⟩
  · exact ⟨_, _, _, rfl, rfl, .minus, fun h => by cases h⟩
  · rename_i hplus hminus
    exact ⟨_, _, _, rfl, rfl, .none, fun _ rest => ⟨hplus rest, hminus rest⟩⟩

theorem i64FromStrRadix_nil (radix : Nat) {sign : List Char} {negative : Bool}
    (hsign : IsSign sign negative) : ∃ e, i64FromStrRadix radix sign = .error e := by
  cases hsign with
  | none => exact ⟨_, rfl⟩
  | plus => exact ⟨_, rfl⟩
  | minus => exact ⟨_, rfl⟩

theorem i64FromStrRadix_append {radix : Nat} {sign ds : List Char} {negative : Bool}
    (hsign : IsSign sign negative) (hne : ds ≠ []) (hds : sign = [] → NoSign ds) :
    i64FromStrRadix radix (sign ++ ds) = accumulate negative radix 0 ds := by
  cases ds with
  | nil => exact absurd rfl hne
  | cons d ds =>
    cases hsign with
    | none =>
      have hsigns := hds rfl ds
      rw [List.nil_append]
      unfold i64FromStrRadix
      split
      · rename_i heq
        cases heq
      · rename_i heq
        cases heq
        exact absurd rfl hsigns.1
      · rename_i heq
        cases heq
        exact absurd rfl hsigns.2
      · rename_i heq
        cases heq
        exact absurd rfl hsigns.1
      · rename_i heq
        cases heq
        exact absurd rfl hsigns.2
      · rfl
    | plus => rfl
    | minus => rfl

/-- What `i64::from_str_radix` makes of an optional sign and digits. -/
theorem i64FromStrRadix_digits {radix : Nat} (hradix : 0 < radix) {sign ds : List Char}
    {negative : Bool} (hsign : IsSign sign negative) (hds : IsDigits radix ds) {n : Int} :
    i64FromStrRadix radix (sign ++ ds) = .ok n ↔
      n = signed negative (digitsValue radix ds) ∧ InI64 n := by
  rw [i64FromStrRadix_append hsign hds.1 fun _ => noSign_of_isDigits hds,
    accumulate_zero_eq_ok_iff hradix]
  exact and_iff_right hds.2

/-- What `i64::from_str_radix` accepts: an optional sign and digits, of a value that fits. -/
theorem i64FromStrRadix_eq_ok_iff {radix : Nat} (hradix : 0 < radix) {cs : List Char} {n : Int} :
    i64FromStrRadix radix cs = .ok n ↔
      ∃ sign negative ds, cs = sign ++ ds ∧ IsSign sign negative ∧ IsDigits radix ds ∧
        n = signed negative (digitsValue radix ds) ∧ InI64 n := by
  constructor
  · intro h
    obtain ⟨sign, body, negative, -, rfl, hsign, hbody⟩ := splitSign_spec cs
    by_cases hne : body = []
    · obtain ⟨e, herror⟩ := i64FromStrRadix_nil radix hsign
      rw [hne, List.append_nil, herror] at h
      cases h
    · rw [i64FromStrRadix_append hsign hne hbody, accumulate_zero_eq_ok_iff hradix] at h
      exact ⟨sign, negative, body, rfl, hsign, ⟨hne, h.1⟩, h.2⟩
  · rintro ⟨sign, negative, ds, rfl, hsign, hds, hn⟩
    exact (i64FromStrRadix_digits hradix hsign hds).mpr hn

/-! ## The prefix -/

theorem RadixPrefix.pos {pre : List Char} {radix : Nat} (h : RadixPrefix pre radix) :
    0 < radix := by
  cases h <;> decide

/-- Only a letter and its capital have that letter for their lower case, and only a zero has a
zero. -/
theorem eq_of_toLower_eq {c d : Char} (h : c.toLower = d) :
    c = d ∨ (65 ≤ c.toNat ∧ c.toNat ≤ 90 ∧ c.toNat + 32 = d.toNat) := by
  unfold Char.toLower at h
  split_ifs at h with hupper
  · right
    have hle : 65 ≤ c.toNat ∧ c.toNat ≤ 90 := hupper
    refine ⟨hle.1, hle.2, ?_⟩
    have hnat : d.toNat = (c.val + ('a'.val - 'A'.val)).toNat := by
      rw [← h]
      rfl
    have hshift : ('a'.val - 'A'.val).toNat = 32 := by decide
    rw [hnat, UInt32.toNat_add, Char.toNat_val, hshift]
    omega
  · exact .inl h

theorem toLower_eq_letter {c d u : Char} (hu : u.toNat + 32 = d.toNat) (h : c.toLower = d) :
    c = d ∨ c = u := by
  rcases eq_of_toLower_eq h with rfl | ⟨-, -, hc⟩
  · exact .inl rfl
  · exact .inr (Char.toNat_inj.mp (by omega))

theorem toLower_eq_zero {c : Char} (h : c.toLower = '0') : c = '0' := by
  rcases eq_of_toLower_eq h with rfl | ⟨hge, -, hc⟩
  · rfl
  · rw [show '0'.toNat = 48 from rfl] at hc
    omega

/-- A text behind a lone zero that does not make it one of the other prefixes. -/
def NoBase (rest : List Char) : Prop :=
  ∃ c cs, rest = c :: cs ∧ c.toLower ≠ 'x' ∧ c.toLower ≠ 'o' ∧ c.toLower ≠ 'b'

theorem noBase_of_isDigits {ds : List Char} (hds : IsDigits 8 ds) : NoBase ds := by
  obtain ⟨hne, hall⟩ := hds
  cases ds with
  | nil => exact absurd rfl hne
  | cons c cs =>
    have hc := hall c List.mem_cons_self
    refine ⟨c, cs, rfl, fun h => ?_, fun h => ?_, fun h => ?_⟩
    · rcases toLower_eq_letter (u := 'X') rfl h with rfl | rfl
      · exact absurd hc (by decide)
      · exact absurd hc (by decide)
    · rcases toLower_eq_letter (u := 'O') rfl h with rfl | rfl
      · exact absurd hc (by decide)
      · exact absurd hc (by decide)
    · rcases toLower_eq_letter (u := 'B') rfl h with rfl | rfl
      · exact absurd hc (by decide)
      · exact absurd hc (by decide)

theorem noBase_of_isSign {sign : List Char} {negative : Bool} (hsign : IsSign sign negative)
    (hne : sign ≠ []) (ds : List Char) : NoBase (sign ++ ds) := by
  cases hsign with
  | none => exact absurd rfl hne
  | plus => exact ⟨_, _, rfl, by decide, by decide, by decide⟩
  | minus => exact ⟨_, _, rfl, by decide, by decide, by decide⟩

/-- A prefix is split off. -/
theorem splitRadix_append {pre rest : List Char} {radix : Nat} (hpre : RadixPrefix pre radix)
    (hrest : pre = ['0'] → NoBase rest) : splitRadix (pre ++ rest) = (rest, radix) := by
  cases hpre with
  | zero =>
    obtain ⟨c, cs, rfl, hx, ho, hb⟩ := hrest rfl
    have hlead : ∀ d, c.toLower ≠ d →
        (((['0'] ++ c :: cs).take 2).map Char.toLower) ≠ ['0', d] := by
      intro d hd h
      exact hd (List.cons.inj (List.cons.inj h).2).1
    simp only [splitRadix]
    rw [if_neg (hlead 'x' hx), if_neg (hlead 'o' ho), if_neg (hlead 'b' hb), if_pos]
    · rfl
    · simp
  | hex | hexUpper => rfl
  | octal | octalUpper => rfl
  | binary | binaryUpper => rfl

/-- A decimal number has no prefix. -/
theorem splitRadix_decimal {ds : List Char} (hzero : ds.head? = some '0' → ds = ['0']) :
    splitRadix ds = (ds, 10) := by
  have hlead : ∀ d, ((ds.take 2).map Char.toLower) ≠ ['0', d] := by
    intro d h
    cases ds with
    | nil => cases h
    | cons c cs =>
      have hc : c = '0' := toLower_eq_zero (List.cons.inj h).1
      rw [hzero (by rw [hc]; rfl)] at h
      cases h
  simp only [splitRadix]
  rw [if_neg (hlead 'x'), if_neg (hlead 'o'), if_neg (hlead 'b'), if_neg]
  rintro ⟨hlen, hhead⟩
  rw [hzero hhead] at hlen
  exact absurd hlen (by decide)

/-- What `splitRadix` splits off is a prefix, or there is none. -/
theorem splitRadix_cases (body : List Char) :
    ∃ pre digits radix, body = pre ++ digits ∧ splitRadix body = (digits, radix) ∧
      (RadixPrefix pre radix ∨
        (pre = [] ∧ radix = 10 ∧ (digits.head? = some '0' → digits = ['0']))) := by
  by_cases hzero : body.head? = some '0' → body = ['0']
  · exact ⟨[], body, 10, rfl, splitRadix_decimal hzero, .inr ⟨rfl, rfl, hzero⟩⟩
  · rw [Classical.not_imp] at hzero
    obtain ⟨hhead, hne⟩ := hzero
    obtain ⟨rest, rfl⟩ : ∃ rest, body = '0' :: rest := List.head?_eq_some_iff.mp hhead
    cases rest with
    | nil => exact absurd rfl hne
    | cons c cs =>
      by_cases hx : c.toLower = 'x'
      · rcases toLower_eq_letter (u := 'X') rfl hx with rfl | rfl
        · exact ⟨_, cs, _, rfl, rfl, .inl .hex⟩
        · exact ⟨_, cs, _, rfl, rfl, .inl .hexUpper⟩
      by_cases ho : c.toLower = 'o'
      · rcases toLower_eq_letter (u := 'O') rfl ho with rfl | rfl
        · exact ⟨_, cs, _, rfl, rfl, .inl .octal⟩
        · exact ⟨_, cs, _, rfl, rfl, .inl .octalUpper⟩
      by_cases hb : c.toLower = 'b'
      · rcases toLower_eq_letter (u := 'B') rfl hb with rfl | rfl
        · exact ⟨_, cs, _, rfl, rfl, .inl .binary⟩
        · exact ⟨_, cs, _, rfl, rfl, .inl .binaryUpper⟩
      exact ⟨['0'], c :: cs, 8, rfl,
        splitRadix_append .zero fun _ => ⟨c, cs, rfl, hx, ho, hb⟩, .inl .zero⟩

/-! ## What `parse_int` accepts -/

theorem parseInt_eq_ok_iff {s : String} {n : Int} {sign body digits : List Char} {radix : Nat}
    (hsign : splitSign s.toList = (sign, body)) (hradix : splitRadix body = (digits, radix)) :
    parseInt s = .ok n ↔
      body ≠ [] ∧ digits ≠ [] ∧ i64FromStrRadix radix (sign ++ digits) = .ok n := by
  simp only [parseInt, hsign, hradix]
  by_cases hbody : body = []
  · simp [hbody]
  by_cases hdigits : digits = []
  · simp [hbody, hdigits]
  simp only [hbody, hdigits, if_false, ne_eq, not_false_eq_true, true_and]
  cases i64FromStrRadix radix (sign ++ digits) with
  | ok m => simp only [Except.ok.injEq]
  | error e => cases e <;> simp only [reduceCtorEq]

theorem RadixPrefix.noSign {pre : List Char} {radix : Nat} (h : RadixPrefix pre radix)
    (rest : List Char) : NoSign (pre ++ rest) := by
  have hzero : ∃ cs, pre ++ rest = '0' :: cs := by
    cases h <;> exact ⟨_, rfl⟩
  obtain ⟨cs, hcs⟩ := hzero
  rw [hcs]
  intro other
  constructor
  · intro h
    cases h
  · intro h
    cases h

/-- The prefix and the digits of a literal without its sign, as the code finds them. -/
theorem LiteralBody.reads {body ds : List Char} {radix : Nat} (h : LiteralBody body radix ds) :
    NoSign body ∧ splitRadix body = (ds, radix) ∧ IsDigits radix ds ∧ 0 < radix ∧ body ≠ [] := by
  cases h with
  | decimal hds hzero =>
    exact ⟨noSign_of_isDigits hds, splitRadix_decimal hzero, hds, by decide, hds.1⟩
  | based hpre hds =>
    refine ⟨hpre.noSign ds, splitRadix_append hpre ?_, hds, hpre.pos, ?_⟩
    · rintro rfl
      cases hpre
      exact noBase_of_isDigits hds
    · intro hnil
      exact hds.1 (List.append_eq_nil_iff.mp hnil).2

theorem parseInt_literal {s : String} {n : Int} (h : IsLiteral s n) (m : Int) :
    parseInt s = .ok m ↔ m = n ∧ InI64 n := by
  obtain ⟨sign, negative, body, radix, ds, hs, hsign, hbody, rfl⟩ := h
  obtain ⟨hnoSign, hradix, hds, hpos, hne⟩ := hbody.reads
  have hsplit : splitSign s.toList = (sign, body) := by
    rw [hs]
    exact splitSign_append hsign fun _ => hnoSign
  rw [parseInt_eq_ok_iff hsplit hradix, i64FromStrRadix_digits hpos hsign hds]
  constructor
  · rintro ⟨-, -, rfl, hfits⟩
    exact ⟨rfl, hfits⟩
  · rintro ⟨rfl, hfits⟩
    exact ⟨hne, hds.1, rfl, hfits⟩

theorem parseInt_misplacedSign {s : String} {n : Int} (h : MisplacedSign s n) (m : Int) :
    parseInt s = .ok m ↔ m = n ∧ InI64 n := by
  obtain ⟨pre, radix, sign, negative, ds, hs, hpre, hsign, hne, hds, rfl⟩ := h
  have hsplit : splitSign s.toList = ([], pre ++ (sign ++ ds)) := by
    rw [hs]
    exact splitSign_of_noSign (hpre.noSign _)
  have hradix : splitRadix (pre ++ (sign ++ ds)) = (sign ++ ds, radix) :=
    splitRadix_append hpre fun _ => noBase_of_isSign hsign hne ds
  have hdigits : sign ++ ds ≠ [] := fun h => hds.1 (List.append_eq_nil_iff.mp h).2
  rw [parseInt_eq_ok_iff hsplit hradix, List.nil_append,
    i64FromStrRadix_digits hpre.pos hsign hds]
  constructor
  · rintro ⟨-, -, rfl, hfits⟩
    exact ⟨rfl, hfits⟩
  · rintro ⟨rfl, hfits⟩
    exact ⟨fun h => hdigits (List.append_eq_nil_iff.mp h).2, hdigits, rfl, hfits⟩

/-- A literal has its sign in front. -/
theorem IsLiteral.not_misplacedSign {s : String} {n m : Int} (h : IsLiteral s n) :
    ¬ MisplacedSign s m := by
  rintro ⟨pre, radix', sign', negative', ds', hs', hpre, hsign', hne, hds', -⟩
  obtain ⟨sign, negative, body, radix, ds, hs, hsign, hbody, -⟩ := h
  obtain ⟨hnoSign, hradix, hds, -, -⟩ := hbody.reads
  have hsplit : splitSign s.toList = (sign, body) := by
    rw [hs]
    exact splitSign_append hsign fun _ => hnoSign
  rw [hs', splitSign_of_noSign (hpre.noSign _)] at hsplit
  obtain ⟨-, rfl⟩ := Prod.mk.inj hsplit
  rw [splitRadix_append hpre fun _ => noBase_of_isSign hsign' hne ds'] at hradix
  obtain ⟨rfl, -⟩ := Prod.mk.inj hradix
  exact hsign'.not_noSign hne ds' (noSign_of_isDigits hds)

/-- **`parse_int` accepts the integer literals whose value fits, and those with the sign behind the
prefix.** -/
theorem literal_or_misplacedSign_of_parseInt {s : String} {n : Int} (h : parseInt s = .ok n) :
    (IsLiteral s n ∨ MisplacedSign s n) ∧ InI64 n := by
  obtain ⟨sign, body, negative, hsplit, hs, hsign, hbody⟩ := splitSign_spec s.toList
  obtain ⟨pre, digits, radix, rfl, hradix, hcase⟩ := splitRadix_cases body
  have hpos : 0 < radix := by
    rcases hcase with hprefix | ⟨-, rfl, -⟩
    · exact hprefix.pos
    · decide
  obtain ⟨-, -, hread⟩ := (parseInt_eq_ok_iff hsplit hradix).mp h
  obtain ⟨sign', negative', ds, hdigits, hsign', hds, hn, hfits⟩ :=
    (i64FromStrRadix_eq_ok_iff hpos).mp hread
  refine ⟨?_, hfits⟩
  have hliteral (hds : IsDigits radix digits) : LiteralBody (pre ++ digits) radix digits := by
    rcases hcase with hprefix | ⟨rfl, rfl, hzero⟩
    · exact .based hprefix hds
    · exact .decimal hds hzero
  by_cases hfront : sign = []
  · subst hfront
    rw [List.nil_append] at hdigits hs
    subst hdigits
    by_cases hbehind : sign' = []
    · subst hbehind
      exact .inl ⟨[], negative', _, radix, _, hs, hsign', hliteral hds, hn⟩
    · rcases hcase with hprefix | ⟨rfl, -, -⟩
      · exact .inr ⟨pre, radix, sign', negative', ds, hs, hprefix, hsign', hbehind, hds, hn⟩
      · exact absurd (hbody rfl) (hsign'.not_noSign hbehind ds)
  · -- `from_str_radix` takes the sign in front, so the two splits are the same.
    have hsame : (sign, digits) = (sign', ds) := by
      rw [← splitSign_append hsign fun h => absurd h hfront, hdigits]
      exact splitSign_append hsign' fun _ => noSign_of_isDigits hds
    obtain ⟨rfl, rfl⟩ := Prod.mk.inj hsame
    exact .inl ⟨sign, negative', _, radix, _, hs, hsign', hliteral hds, hn⟩

/-- **`parse_int` accepts the documented literals exactly if no sign stands behind a prefix.**
Whatever stands there, a literal is accepted exactly if its value fits. -/
theorem parseInt_accepts_literals_iff (s : String) :
    ((∀ n, parseInt s = .ok n ↔ IsLiteral s n ∧ InI64 n) ↔
      ¬ ∃ n, MisplacedSign s n ∧ InI64 n) ∧
    ∀ n, IsLiteral s n → ∀ m, (parseInt s = .ok m ↔ m = n ∧ InI64 n) := by
  refine ⟨⟨?_, ?_⟩, fun n hn m => parseInt_literal hn m⟩
  · rintro hexact ⟨n, hmisplaced, hfits⟩
    have hok : parseInt s = .ok n := (parseInt_misplacedSign hmisplaced n).mpr ⟨rfl, hfits⟩
    exact ((hexact n).mp hok).1.not_misplacedSign hmisplaced
  · intro hnone n
    constructor
    · intro hok
      obtain ⟨hliteral | hmisplaced, hfits⟩ := literal_or_misplacedSign_of_parseInt hok
      · exact ⟨hliteral, hfits⟩
      · exact absurd ⟨n, hmisplaced, hfits⟩ hnone
    · rintro ⟨hliteral, hfits⟩
      exact (parseInt_literal hliteral n).mpr ⟨rfl, hfits⟩

/-- `0x-1` is read as `-1`, and no literal. -/
theorem sign_behind_prefix_is_accepted :
    parseInt "0x-1" = .ok (-1) ∧ ¬ ∃ n, IsLiteral "0x-1" n := by
  refine ⟨by rfl, ?_⟩
  rintro ⟨n, hliteral⟩
  have hmisplaced : MisplacedSign "0x-1" (-1) :=
    ⟨['0', 'x'], 16, ['-'], true, ['1'], by rfl, .hex, .minus, by decide, by decide,
      by rfl⟩
  exact hliteral.not_misplacedSign hmisplaced

end Flags

end Flannel
