import Mathlib.Algebra.BigOperators.Group.List.Basic
import Mathlib.Algebra.Ring.Nat

/-!
# One's complement sums

Addition of words of sixteen bits with end-around carry.  Since 65536 is 1 modulo 65535, the
sum is the residue of the ordinary one, in the range from 1 to 65535: 0 is the sum of words that
are all 0, and only of those.  So a computation that adds wider words, in either byte order, and
folds the carries at the end gives the same sixteen bits as soon as it agrees modulo 65535 and
on being 0, and a swap of the two bytes is the factor 256.
-/

namespace OnesComplement

/-- The sum of two words, with end-around carry. -/
def add (a b : Nat) : Nat := if a + b < 65536 then a + b else a + b - 65535

/-- The sum of words. -/
def sum (words : List Nat) : Nat := words.foldl add 0

/-- The sum that a number stands for. -/
def rep (n : Nat) : Nat := if n = 0 then 0 else (n - 1) % 65535 + 1

variable {a b m n : Nat}

theorem rep_lt (n : Nat) : rep n < 65536 := by
  rw [rep]
  split_ifs with h
  · omega
  · omega

theorem rep_of_lt (h : n < 65536) : rep n = n := by
  rw [rep]
  split_ifs with h
  · omega
  · omega

theorem rep_eq_zero_iff : rep n = 0 ↔ n = 0 := by
  rw [rep]
  split_ifs with h
  · simp [h]
  · simp [h]

theorem rep_mod (n : Nat) : rep n % 65535 = n % 65535 := by
  rw [rep]
  split_ifs with h
  · rw [h]
  · omega

/-- Two numbers stand for one sum if they agree modulo 65535 and on being 0. -/
theorem rep_congr (hzero : m = 0 ↔ n = 0) (hmod : m % 65535 = n % 65535) : rep m = rep n := by
  rw [rep, rep]
  split_ifs with hm hn hn
  · rfl
  · exact absurd (hzero.mp hm) hn
  · exact absurd (hzero.mpr hn) hm
  · omega

theorem rep_add_congr (h : rep m = rep n) (r : Nat) : rep (m + r) = rep (n + r) := by
  have hmod : m % 65535 = n % 65535 := by rw [← rep_mod m, h, rep_mod]
  have hzero : m = 0 ↔ n = 0 := by rw [← rep_eq_zero_iff, h, rep_eq_zero_iff]
  apply rep_congr
  · omega
  · omega

theorem rep_eq_max_iff : rep n = 65535 ↔ n ≠ 0 ∧ n % 65535 = 0 := by
  rw [rep]
  split_ifs with h
  · simp [h]
  · omega

theorem rep_le (n : Nat) : rep n ≤ n := by
  rw [rep]
  split_ifs with h
  · omega
  · omega

theorem add_eq_rep (ha : a < 65536) (hb : b < 65536) : add a b = rep (a + b) := by
  rw [add, rep]
  split_ifs with hlt hzero hzero
  · omega
  · omega
  · omega
  · omega

theorem sum_eq_rep {words : List Nat} (hwords : ∀ w ∈ words, w < 65536) :
    sum words = rep words.sum := by
  have hfold : ∀ (n : Nat), words.foldl add (rep n) = rep (n + words.sum) := by
    induction words with
    | nil =>
      intro n
      rw [List.foldl_nil, List.sum_nil, Nat.add_zero]
    | cons w words ih =>
      intro n
      rw [List.forall_mem_cons] at hwords
      have hadd : add (rep n) w = rep (n + w) := by
        rw [add_eq_rep (rep_lt n) hwords.1]
        refine rep_congr ?_ ?_
        · have := @rep_eq_zero_iff n
          omega
        · have := rep_mod n
          omega
      rw [List.foldl_cons, hadd, ih hwords.2, List.sum_cons, Nat.add_assoc]
  have h := hfold 0
  rwa [Nat.zero_add] at h

/-- A carry is folded back. -/
theorem rep_fold (n : Nat) : rep (n % 65536 + n / 65536) = rep n :=
  rep_congr (by omega) (by omega)

/-- The factor 256 swaps the bytes of a sum. -/
theorem rep_mul (n : Nat) : rep (256 * n) = rep n % 256 * 256 + rep n / 256 := by
  have hlt := rep_lt n
  have hswap : rep n % 256 * 256 + rep n / 256 < 65536 := by omega
  rw [← rep_of_lt hswap]
  refine rep_congr ?_ ?_
  · have := @rep_eq_zero_iff n
    omega
  · have := rep_mod n
    omega

end OnesComplement
