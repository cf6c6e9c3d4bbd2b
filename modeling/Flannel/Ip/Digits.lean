import Flannel.Ip.StdAddr

/-!
# Texts of digits

Every integer parser of the standard library takes a non-empty text of digits of its radix, and
one sign in front of it: the unsigned ones a plus.  A digit is no sign, so the sign is never part
of the digits.
-/

namespace Flannel
namespace StdAddr

variable {radix n bound : Nat} {cs ds : List Char}

/-- A non-empty text of digits. -/
def IsDigits (radix : Nat) (ds : List Char) : Prop :=
  ds ≠ [] ∧ ∀ c ∈ ds, (toDigit radix c).isSome = true

-- The list is searched for the quantifier: `Char` is finite, but too large to go through.
instance (radix : Nat) (ds : List Char) : Decidable (IsDigits radix ds) :=
  @instDecidableAnd _ _ inferInstance (List.decidableBAll _ ds)

theorem toDigit_plus (radix : Nat) : toDigit radix '+' = none := rfl

theorem toDigit_minus (radix : Nat) : toDigit radix '-' = none := rfl

theorem IsDigits.head_ne {c : Char} (hds : IsDigits radix ds) (hc : toDigit radix c = none)
    (rest : List Char) : ds ≠ c :: rest := by
  rintro rfl
  have hsome := hds.2 c List.mem_cons_self
  rw [hc] at hsome
  cases hsome

/-! ## Unsigned numbers -/

/-- A text without the plus sign in front. -/
def stripPlus : List Char → List Char
  | '+' :: rest => rest
  | cs => cs

theorem stripPlus_eq_iff (hds : IsDigits radix ds) :
    stripPlus cs = ds ↔ cs = ds ∨ cs = '+' :: ds := by
  unfold stripPlus
  constructor
  · split
    · rintro rfl
      exact .inr rfl
    · exact .inl
  · rintro (rfl | rfl)
    · split
      · rename_i rest
        exact absurd rfl (hds.head_ne (toDigit_plus radix) rest)
      · rfl
    · rfl

/-- What an unsigned parser takes: digits of a value below the bound, or the same behind a plus
sign. -/
theorem plusDigits_iff :
    (stripPlus cs ≠ [] ∧ ((stripPlus cs).all fun c => (toDigit radix c).isSome) = true ∧
        digitsValue radix (stripPlus cs) < bound) ∧ digitsValue radix (stripPlus cs) = n ↔
      n < bound ∧ ∃ ds, IsDigits radix ds ∧ digitsValue radix ds = n ∧
        (cs = ds ∨ cs = '+' :: ds) := by
  constructor
  · rintro ⟨⟨hne, hall, hlt⟩, rfl⟩
    have hds : IsDigits radix (stripPlus cs) := ⟨hne, List.all_eq_true.mp hall⟩
    exact ⟨hlt, stripPlus cs, hds, rfl, (stripPlus_eq_iff hds).mp rfl⟩
  · rintro ⟨hlt, ds, hds, rfl, hcs⟩
    rw [(stripPlus_eq_iff hds).mpr hcs]
    exact ⟨⟨hds.1, List.all_eq_true.mpr hds.2, hlt⟩, rfl⟩

theorem parseU32_eq_some_iff {s : String} :
    parseU32 s = some n ↔ n < UInt32.size ∧ ∃ ds, IsDigits 10 ds ∧ digitsValue 10 ds = n ∧
      (s.toList = ds ∨ s.toList = '+' :: ds) := by
  have heq : parseU32 s =
      if stripPlus s.toList ≠ [] ∧
          ((stripPlus s.toList).all fun c => (toDigit 10 c).isSome) = true ∧
          digitsValue 10 (stripPlus s.toList) < UInt32.size
        then some (digitsValue 10 (stripPlus s.toList)) else none := rfl
  rw [heq, Option.ite_none_right_eq_some, Option.some_inj, plusDigits_iff]

end StdAddr
end Flannel
