import Mathlib.Data.List.Basic

/-!
# Checked arithmetic

Operations on machine integers that a debug build checks: a difference of unsigned numbers that
is negative, a shift by the width or more, a result that does not fit into sixty-four signed bits.
A failed check is `none`.  Each operation has one lemma, which says when it goes through.
-/

namespace Checked

variable {w : Nat}

/-- A difference of unsigned numbers. -/
def sub (a b : Nat) : Option Nat := if b ≤ a then some (a - b) else none

/-- A shift to the left. -/
def shl (x : BitVec w) (amount : Nat) : Option (BitVec w) :=
  if amount < w then some (x <<< amount) else none

/-- The result of an operation on signed numbers of sixty-four bits. -/
def i64 (n : Int) : Option Int :=
  if -9223372036854775808 ≤ n ∧ n ≤ 9223372036854775807 then some n else none

theorem sub_of_le {a b : Nat} (h : b ≤ a) : sub a b = some (a - b) := if_pos h

theorem shl_of_lt {x : BitVec w} {amount : Nat} (h : amount < w) :
    shl x amount = some (x <<< amount) :=
  if_pos h

theorem i64_of_bounds {n : Int} (h : -9223372036854775808 ≤ n ∧ n ≤ 9223372036854775807) :
    i64 n = some n :=
  if_pos h

theorem i64_bind {β : Type} {n : Int} (h : -9223372036854775808 ≤ n ∧ n ≤ 9223372036854775807)
    (f : Int → Option β) : (i64 n >>= f) = f n := by
  rw [i64_of_bounds h]
  rfl

end Checked
