import Mathlib.Computability.RegularExpressions

/-!
# Searching for a regular expression

Regular expressions are Mathlib's.  This file adds the character class, the repetition `+` and
the option `?` of the usual syntax, with what they match, and the search for a match that ends
where the text ends, which is what an expression with `$` behind it and nothing in front of it
stands for: the match may begin anywhere.
-/

namespace Search

open RegularExpression

variable {α : Type*}

/-! ## The usual operators -/

/-- A class of characters. -/
def oneOf (cs : List α) : RegularExpression α := cs.foldr (fun c r => char c + r) 0

/-- `r+`. -/
def oneOrMore (r : RegularExpression α) : RegularExpression α := r * r.star

/-- `r?`. -/
def optional (r : RegularExpression α) : RegularExpression α := r + 1

section Matches

variable {r : RegularExpression α} {cs x : List α}

theorem mem_oneOf : x ∈ (oneOf cs).matches' ↔ ∃ c ∈ cs, x = [c] := by
  induction cs with
  | nil =>
    simp [oneOf, Language.notMem_zero]
  | cons c cs ih =>
    have hstep : x ∈ (oneOf (c :: cs)).matches' ↔ x = [c] ∨ x ∈ (oneOf cs).matches' := Iff.rfl
    rw [hstep, ih]
    simp

/-- One or more matches, one behind the other. -/
theorem mem_oneOrMore :
    x ∈ (oneOrMore r).matches' ↔
      ∃ parts : List (List α), parts ≠ [] ∧ x = parts.flatten ∧ ∀ y ∈ parts, y ∈ r.matches' := by
  unfold oneOrMore
  rw [matches'_mul, matches'_star, Language.mem_mul]
  constructor
  · rintro ⟨first, hfirst, rest, hrest, rfl⟩
    obtain ⟨parts, rfl, hparts⟩ := Language.mem_kstar.mp hrest
    refine ⟨first :: parts, List.cons_ne_nil _ _, rfl, ?_⟩
    exact List.forall_mem_cons.mpr ⟨hfirst, hparts⟩
  · rintro ⟨parts, hne, rfl, hparts⟩
    cases parts with
    | nil => exact absurd rfl hne
    | cons first parts =>
      obtain ⟨hfirst, hrest⟩ := List.forall_mem_cons.mp hparts
      exact ⟨first, hfirst, parts.flatten, Language.mem_kstar.mpr ⟨parts, rfl, hrest⟩, rfl⟩

/-- One or more characters of a class. -/
theorem mem_oneOrMore_oneOf :
    x ∈ (oneOrMore (oneOf cs)).matches' ↔ x ≠ [] ∧ ∀ c ∈ x, c ∈ cs := by
  rw [mem_oneOrMore]
  constructor
  · rintro ⟨parts, hne, rfl, hparts⟩
    constructor
    · intro hnil
      obtain ⟨part, hpart⟩ := List.exists_mem_of_ne_nil parts hne
      obtain ⟨c, -, rfl⟩ := mem_oneOf.mp (hparts part hpart)
      exact absurd (List.flatten_eq_nil_iff.mp hnil _ hpart) (List.cons_ne_nil _ _)
    · intro c hc
      obtain ⟨part, hpart, hmem⟩ := List.mem_flatten.mp hc
      obtain ⟨d, hd, rfl⟩ := mem_oneOf.mp (hparts part hpart)
      rwa [List.mem_singleton.mp hmem]
  · rintro ⟨hne, hall⟩
    refine ⟨x.map fun c => [c], by simpa using hne, (List.flatMap_singleton' x).symm, ?_⟩
    intro y hy
    obtain ⟨c, hc, rfl⟩ := List.mem_map.mp hy
    exact mem_oneOf.mpr ⟨c, hall c hc, rfl⟩

theorem mem_optional : x ∈ (optional r).matches' ↔ x ∈ r.matches' ∨ x = [] := Iff.rfl

end Matches

/-! ## The search -/

/-- Some end of the text matches. -/
def FoundAtEnd (r : RegularExpression α) (text : List α) : Prop :=
  ∃ before found, text = before ++ found ∧ found ∈ r.matches'

/-- The search, by derivatives. -/
def findAtEnd [DecidableEq α] (r : RegularExpression α) (text : List α) : Bool :=
  text.tails.any r.rmatch

theorem findAtEnd_iff [DecidableEq α] {r : RegularExpression α} {text : List α} :
    findAtEnd r text = true ↔ FoundAtEnd r text := by
  simp only [findAtEnd, FoundAtEnd, List.any_eq_true, List.mem_tails, rmatch_iff_matches']
  constructor
  · rintro ⟨found, ⟨before, rfl⟩, hfound⟩
    exact ⟨before, found, rfl, hfound⟩
  · rintro ⟨before, found, rfl, hfound⟩
    exact ⟨found, List.suffix_append before found, hfound⟩

end Search
