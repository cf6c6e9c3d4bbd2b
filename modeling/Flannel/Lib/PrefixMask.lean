import Mathlib.Algebra.Ring.Nat
import Mathlib.Order.Bounds.Basic

/-!
# Prefix masks

A word of `w` bits is cut into blocks by its first `len` bits: two words are in one block if
they agree in these bits, that is, if masking the others gives the same word.  The mask keeps
the first `len` bits, and masking rounds down to a multiple of the size of a block
(`toNat_and_mask`).  So everything about blocks is a statement about quotients by powers
of two.

Two blocks are either disjoint or one is part of the other: the shorter prefix decides
(`inter_nonempty_iff`, `block_subset_iff`).
-/

namespace PrefixMask

variable {w len len' : Nat} {u v : BitVec w}

/-- The mask of the first `len` bits. -/
def mask (w len : Nat) : BitVec w := BitVec.allOnes w <<< (w - len)

/-- The words that agree with `v` in the first `len` bits. -/
def block (len : Nat) (v : BitVec w) : Set (BitVec w) := {a | v &&& mask w len = a &&& mask w len}

/-! ## Masking is rounding down -/

theorem toNat_and_mask (v : BitVec w) (len : Nat) :
    (v &&& mask w len).toNat = v.toNat / 2 ^ (w - len) * 2 ^ (w - len) := by
  have hle : v.toNat / 2 ^ (w - len) * 2 ^ (w - len) ≤ v.toNat := Nat.div_mul_le_self _ _
  rw [mask, ← BitVec.shiftLeft_ushiftRight, BitVec.toNat_shiftLeft, BitVec.toNat_ushiftRight,
    Nat.shiftLeft_eq, Nat.shiftRight_eq_div_pow, Nat.mod_eq_of_lt (Nat.lt_of_le_of_lt hle v.isLt)]

theorem and_mask_eq_iff :
    u &&& mask w len = v &&& mask w len ↔
      u.toNat / 2 ^ (w - len) = v.toNat / 2 ^ (w - len) := by
  rw [← BitVec.toNat_inj, toNat_and_mask, toNat_and_mask]
  exact Nat.mul_left_inj (Nat.two_pow_pos _).ne'

/-- A word is masked exactly if it is a multiple of the size of a block. -/
theorem and_mask_eq_self_iff : v &&& mask w len = v ↔ 2 ^ (w - len) ∣ v.toNat := by
  rw [← BitVec.toNat_inj, toNat_and_mask]
  exact ⟨fun h => ⟨_, h.symm.trans (Nat.mul_comm _ _)⟩, Nat.div_mul_cancel⟩

theorem toNat_mask (w len : Nat) : (mask w len).toNat = 2 ^ w - 2 ^ (w - len) := by
  have hpow : 2 ^ w = 2 ^ (w - (w - len)) * 2 ^ (w - len) := by
    rw [← Nat.pow_add, Nat.sub_add_cancel (Nat.sub_le _ _)]
  have hpos := Nat.two_pow_pos (w - len)
  have hquot : (2 ^ w - 1) / 2 ^ (w - len) = 2 ^ (w - (w - len)) - 1 := by
    have hlt : 0 < 2 ^ (w - len) * 2 ^ (w - (w - len)) := Nat.mul_pos hpos (Nat.two_pow_pos _)
    rw [hpow, Nat.mul_comm, Nat.mul_sub_div 0 _ _ hlt, Nat.zero_div]
  have hmask := toNat_and_mask (BitVec.allOnes w) len
  rw [BitVec.allOnes_and, BitVec.toNat_allOnes, hquot, Nat.sub_mul, ← hpow, Nat.one_mul] at hmask
  exact hmask

theorem mask_le_mask_iff (hlen : len ≤ w) (hlen' : len' ≤ w) :
    mask w len ≤ mask w len' ↔ len ≤ len' := by
  have hle : 2 ^ (w - len) ≤ 2 ^ w := Nat.pow_le_pow_right (by omega) (Nat.sub_le _ _)
  have hle' : 2 ^ (w - len') ≤ 2 ^ w := Nat.pow_le_pow_right (by omega) (Nat.sub_le _ _)
  have hpow : 2 ^ (w - len') ≤ 2 ^ (w - len) ↔ w - len' ≤ w - len :=
    Nat.pow_le_pow_iff_right (by omega)
  rw [BitVec.le_def, toNat_mask, toNat_mask]
  omega

/-- Setting the other bits gives the last word of the block. -/
theorem toNat_or_not_mask (v : BitVec w) (len : Nat) :
    (v ||| ~~~mask w len).toNat =
      v.toNat / 2 ^ (w - len) * 2 ^ (w - len) + (2 ^ (w - len) - 1) := by
  have hle : 2 ^ (w - len) ≤ 2 ^ w := Nat.pow_le_pow_right (by omega) (Nat.sub_le _ _)
  have hsplit : v ||| ~~~mask w len = (v &&& mask w len) ||| ~~~mask w len := by
    ext i hi
    simp only [BitVec.getElem_or, BitVec.getElem_and, BitVec.getElem_not]
    cases (mask w len)[i] <;> simp
  have hnot : (~~~mask w len).toNat = 2 ^ (w - len) - 1 := by
    rw [BitVec.toNat_not, toNat_mask]
    omega
  have hlow : 2 ^ (w - len) - 1 < 2 ^ (w - len) := Nat.sub_one_lt (Nat.two_pow_pos _).ne'
  rw [hsplit, BitVec.toNat_or, toNat_and_mask, hnot, Nat.mul_comm,
    Nat.two_pow_add_eq_or_of_lt hlow]

/-! ## Blocks -/

theorem mem_block_iff :
    u ∈ block len v ↔ v.toNat / 2 ^ (w - len) = u.toNat / 2 ^ (w - len) :=
  and_mask_eq_iff

theorem self_mem_block (v : BitVec w) (len : Nat) : v ∈ block len v := rfl

theorem block_eq_of_mem (h : u ∈ block len v) : block len u = block len v := by
  ext a
  rw [mem_block_iff, mem_block_iff, ← mem_block_iff.mp h]

theorem and_mask_mem_block (v : BitVec w) (len : Nat) : v &&& mask w len ∈ block len v := by
  rw [mem_block_iff, toNat_and_mask, Nat.mul_div_cancel _ (Nat.two_pow_pos _)]

/-- Words that agree in a prefix agree in every shorter one. -/
theorem mem_block_of_le (hle : len ≤ len') (h : u ∈ block len' v) : u ∈ block len v := by
  have hpow : 2 ^ (w - len) = 2 ^ (w - len') * 2 ^ (w - len - (w - len')) := by
    rw [← Nat.pow_add]
    congr 1
    omega
  rw [mem_block_iff, hpow, ← Nat.div_div_eq_div_mul, ← Nat.div_div_eq_div_mul, mem_block_iff.mp h]

theorem isLeast_block (v : BitVec w) (len : Nat) : IsLeast (block len v) (v &&& mask w len) := by
  refine ⟨and_mask_mem_block v len, fun a ha => ?_⟩
  rw [BitVec.le_def, toNat_and_mask, mem_block_iff.mp ha]
  exact Nat.div_mul_le_self _ _

theorem isGreatest_block (v : BitVec w) (len : Nat) :
    IsGreatest (block len v) (v ||| ~~~mask w len) := by
  have hpos := Nat.two_pow_pos (w - len)
  constructor
  · have hlow : (2 ^ (w - len) - 1) / 2 ^ (w - len) = 0 :=
      Nat.div_eq_of_lt (Nat.sub_one_lt hpos.ne')
    rw [mem_block_iff, toNat_or_not_mask, Nat.add_comm (_ * _), Nat.add_mul_div_right _ _ hpos,
      hlow, Nat.zero_add]
  · intro a ha
    have hmod := Nat.mod_lt a.toNat hpos
    have hdiv := Nat.div_add_mod' a.toNat (2 ^ (w - len))
    rw [BitVec.le_def, toNat_or_not_mask, mem_block_iff.mp ha]
    omega

/-- **A block is part of another exactly if its prefix is no shorter and starts with the
other's.** -/
theorem block_subset_iff (hlen : len ≤ w) (hlen' : len' ≤ w) :
    block len' u ⊆ block len v ↔ len ≤ len' ∧ u ∈ block len v := by
  constructor
  · intro h
    refine ⟨?_, h (self_mem_block u len')⟩
    by_contra hlt
    -- the first and the last word of the longer block are too far apart for the shorter one
    have hfirst := mem_block_iff.mp (h (isLeast_block u len').1)
    have hlast := mem_block_iff.mp (h (isGreatest_block u len').1)
    have hpow : 2 ^ (w - len) * 2 ≤ 2 ^ (w - len') := by
      rw [← Nat.pow_succ]
      exact Nat.pow_le_pow_right (by omega) (by omega)
    have hpos := Nat.two_pow_pos (w - len)
    rw [hfirst, toNat_or_not_mask, toNat_and_mask] at hlast
    have hstep : u.toNat / 2 ^ (w - len') * 2 ^ (w - len') + 2 ^ (w - len) ≤
        u.toNat / 2 ^ (w - len') * 2 ^ (w - len') + (2 ^ (w - len') - 1) := by
      omega
    have hquot := Nat.div_le_div_right (c := 2 ^ (w - len)) hstep
    rw [Nat.add_div_right _ hpos] at hquot
    omega
  · rintro ⟨hle, hu⟩ a ha
    rw [← block_eq_of_mem hu]
    exact mem_block_of_le hle ha

/-- **Two blocks meet exactly if the words agree in the shorter prefix.** -/
theorem inter_nonempty_iff :
    (block len v ∩ block len' u).Nonempty ↔ u ∈ block (min len len') v := by
  constructor
  · rintro ⟨a, hv, hu⟩
    have hv' := mem_block_of_le (Nat.min_le_left len len') hv
    have hu' := mem_block_of_le (Nat.min_le_right len len') hu
    rw [mem_block_iff] at hv' hu' ⊢
    rw [hv', hu']
  · intro h
    rcases Nat.le_total len len' with hle | hle
    · rw [Nat.min_eq_left hle] at h
      exact ⟨u, h, self_mem_block u len'⟩
    · rw [Nat.min_eq_right hle] at h
      exact ⟨v, self_mem_block v len, h.symm⟩

/-! ## Parts of a block

A block whose words are counted from its first one, and the blocks of a longer prefix in it: the
second one starts one size later, and the last one starts one size before the end.  The end of
the last block of all is `2 ^ w`, which is zero as a word; the difference is right all the same. -/

section Parts

variable {p s : Nat}

/-- Two multiples are at least one apart. -/
theorem add_le_of_dvd {a b d : Nat} (ha : d ∣ a) (hb : d ∣ b) (h : a < b) : a + d ≤ b := by
  have hle : d ≤ b - a := Nat.le_of_dvd (by omega) (Nat.dvd_sub hb ha)
  omega

theorem size_dvd_size (hps : p ≤ s) : 2 ^ (w - s) ∣ 2 ^ (w - p) :=
  Nat.pow_dvd_pow 2 (by omega)

theorem size_lt_size (hps : p < s) (hs : s ≤ w) : 2 ^ (w - s) < 2 ^ (w - p) :=
  Nat.pow_lt_pow_right (by omega) (by omega)

theorem size_dvd_of_masked (hv : v &&& mask w p = v) (hps : p ≤ s) : 2 ^ (w - s) ∣ v.toNat :=
  Nat.dvd_trans (size_dvd_size hps) (and_mask_eq_self_iff.mp hv)

theorem add_size_le (hv : v &&& mask w p = v) : v.toNat + 2 ^ (w - p) ≤ 2 ^ w :=
  add_le_of_dvd (size_dvd_of_masked hv (Nat.le_refl p))
    (Nat.pow_dvd_pow 2 (Nat.sub_le w p)) v.isLt

theorem mem_block_iff_of_masked (hv : v &&& mask w p = v) :
    u ∈ block p v ↔ v.toNat ≤ u.toNat ∧ u.toNat < v.toNat + 2 ^ (w - p) := by
  have hpos := Nat.two_pow_pos (w - p)
  obtain ⟨k, hk⟩ := and_mask_eq_self_iff.mp hv
  rw [mem_block_iff, hk, Nat.mul_div_cancel_left _ hpos, eq_comm, Nat.div_eq_iff hpos,
    Nat.mul_comm]
  omega

theorem toNat_size (hs : 0 < s) (hsw : s ≤ w) : (BitVec.twoPow w (w - s)).toNat = 2 ^ (w - s) := by
  rw [BitVec.toNat_twoPow]
  exact Nat.mod_eq_of_lt (Nat.pow_lt_pow_right (by omega) (by omega))

theorem toNat_second (hv : v &&& mask w p = v) (hps : p < s) (hs : s ≤ w) :
    (v + BitVec.twoPow w (w - s)).toNat = v.toNat + 2 ^ (w - s) := by
  have hend := add_size_le hv
  have hlt := size_lt_size hps hs
  rw [BitVec.toNat_add, toNat_size (by omega) hs]
  exact Nat.mod_eq_of_lt (by omega)

theorem toNat_last (hv : v &&& mask w p = v) (hps : p < s) (hs : s ≤ w) :
    (v + BitVec.twoPow w (w - p) - BitVec.twoPow w (w - s)).toNat =
      v.toNat + 2 ^ (w - p) - 2 ^ (w - s) := by
  have hend := add_size_le hv
  have hlt := size_lt_size hps hs
  have hpos := Nat.two_pow_pos (w - s)
  have hsub : 2 ^ w - 2 ^ (w - s) + (v.toNat + 2 ^ (w - p)) =
      v.toNat + 2 ^ (w - p) - 2 ^ (w - s) + 2 ^ w := by
    have hle : 2 ^ (w - s) ≤ 2 ^ w := Nat.pow_le_pow_right (by omega) (Nat.sub_le _ _)
    omega
  rw [BitVec.toNat_sub, toNat_size (by omega) hs, BitVec.toNat_add, BitVec.toNat_twoPow,
    Nat.add_mod_mod, ← Nat.add_assoc, Nat.add_mod_mod, Nat.add_assoc, hsub, Nat.add_mod_right]
  exact Nat.mod_eq_of_lt (by omega)

end Parts

end PrefixMask
