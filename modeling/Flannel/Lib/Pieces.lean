import Mathlib.Data.List.Basic
import Mathlib.Data.List.Forall2

/-!
# Cutting texts into pieces

What `splitOn` and `splitOnP` make of a text, beyond what the library says about them: which
characters the pieces have, that two predicates cut alike if they agree on the text, and that
pieces without a separator come back when they are joined by one.  Then the two functions of Rust's
`str` that the library lacks: `split` at a separator of two characters, and `trim_matches`.
-/

namespace Pieces

variable {α : Type*}

/-! ## Pieces between single separators -/

section SplitOn

variable {p q : α → Bool} {x piece : List α} {a c : α}

theorem mem_of_mem_splitOnP (hpiece : piece ∈ x.splitOnP p) (hc : c ∈ piece) :
    c ∈ x ∧ p c = false := by
  induction x generalizing piece with
  | nil =>
    rw [List.splitOnP_nil, List.mem_singleton] at hpiece
    subst hpiece
    cases hc
  | cons y ys ih =>
    rw [List.splitOnP_cons_eq_if_modifyHead] at hpiece
    split_ifs at hpiece with hy
    · rcases List.mem_cons.mp hpiece with rfl | hmem
      · cases hc
      · exact (ih hmem hc).imp_left (List.mem_cons_of_mem y)
    · cases hsplit : ys.splitOnP p with
      | nil => exact absurd hsplit (List.splitOnP_ne_nil p ys)
      | cons first others =>
        rw [hsplit] at ih hpiece
        rw [List.modifyHead_cons] at hpiece
        rcases List.mem_cons.mp hpiece with rfl | hmem
        · rcases List.mem_cons.mp hc with rfl | hc
          · exact ⟨List.mem_cons_self, Bool.not_eq_true _ ▸ hy⟩
          · exact (ih List.mem_cons_self hc).imp_left (List.mem_cons_of_mem y)
        · exact (ih (List.mem_cons_of_mem _ hmem) hc).imp_left (List.mem_cons_of_mem y)

/-- Every character but the separators is in a piece. -/
theorem exists_mem_splitOnP (hc : c ∈ x) (hp : p c = false) :
    ∃ piece ∈ x.splitOnP p, c ∈ piece := by
  induction x with
  | nil => cases hc
  | cons y ys ih =>
    rw [List.splitOnP_cons_eq_if_modifyHead]
    split_ifs with hy
    · have hmem : c ∈ ys := by
        rcases List.mem_cons.mp hc with rfl | hmem
        · rw [hp] at hy
          cases hy
        · exact hmem
      obtain ⟨piece, hpiece, hin⟩ := ih hmem
      exact ⟨piece, List.mem_cons_of_mem _ hpiece, hin⟩
    · cases hsplit : ys.splitOnP p with
      | nil => exact absurd hsplit (List.splitOnP_ne_nil p ys)
      | cons first others =>
        rw [List.modifyHead_cons]
        rcases List.mem_cons.mp hc with rfl | hmem
        · exact ⟨c :: first, List.mem_cons_self, List.mem_cons_self⟩
        · obtain ⟨piece, hpiece, hin⟩ := ih hmem
          rw [hsplit] at hpiece
          rcases List.mem_cons.mp hpiece with rfl | hother
          · exact ⟨y :: piece, List.mem_cons_self, List.mem_cons_of_mem _ hin⟩
          · exact ⟨piece, List.mem_cons_of_mem _ hother, hin⟩

theorem splitOnP_congr (h : ∀ y ∈ x, p y = q y) : x.splitOnP p = x.splitOnP q := by
  induction x with
  | nil => rfl
  | cons y ys ih =>
    rw [List.forall_mem_cons] at h
    rw [List.splitOnP_cons_eq_if_modifyHead, List.splitOnP_cons_eq_if_modifyHead, ih h.2, h.1]

/-- Pieces without a separator come back when one stands between them. -/
theorem splitOnP_intercalate {groups : List (List α)} (hgroups : ∀ g ∈ groups, ∀ c ∈ g, p c = false)
    (hne : groups ≠ []) (ha : p a = true) : ([a].intercalate groups).splitOnP p = groups := by
  induction groups with
  | nil => exact absurd rfl hne
  | cons g groups ih =>
    rw [List.forall_mem_cons] at hgroups
    cases groups with
    | nil =>
      rw [List.intercalate_singleton]
      exact List.splitOnP_eq_singleton hgroups.1
    | cons g' groups =>
      rw [List.intercalate_cons_cons, List.append_assoc, List.singleton_append,
        List.splitOnP_append_cons_of_forall_mem hgroups.1 a ha,
        ih hgroups.2 (List.cons_ne_nil _ _)]

/-- With a separator behind the last group too, there is one behind every group. -/
theorem intercalate_append_separator {groups : List (List α)} (hne : groups ≠ []) :
    [a].intercalate groups ++ [a] = (groups.map (· ++ [a])).flatten := by
  induction groups with
  | nil => exact absurd rfl hne
  | cons g groups ih =>
    cases groups with
    | nil => simp
    | cons g' groups =>
      rw [List.map_cons, List.flatten_cons, ← ih (List.cons_ne_nil _ _),
        List.intercalate_cons_cons]
      simp

theorem mem_intercalate {groups : List (List α)} (hc : c ∈ [a].intercalate groups) :
    c = a ∨ ∃ g ∈ groups, c ∈ g := by
  induction groups with
  | nil => cases hc
  | cons g groups ih =>
    cases groups with
    | nil =>
      rw [List.intercalate_singleton] at hc
      exact .inr ⟨g, List.mem_cons_self, hc⟩
    | cons g' groups =>
      rw [List.intercalate_cons_cons, List.append_assoc, List.singleton_append, List.mem_append,
        List.mem_cons] at hc
      rcases hc with hc | rfl | hc
      · exact .inr ⟨g, List.mem_cons_self, hc⟩
      · exact .inl rfl
      · refine (ih hc).imp_right ?_
        rintro ⟨h, hmem, hin⟩
        exact ⟨h, List.mem_cons_of_mem g hmem, hin⟩

/-- The last separator of a text. -/
theorem exists_last (h : a ∈ x) : ∃ front back, x = front ++ a :: back ∧ a ∉ back := by
  obtain ⟨back, front, hx, hback⟩ := List.eq_append_cons_of_mem (List.mem_reverse.mpr h)
  refine ⟨front.reverse, back.reverse, ?_, fun hmem => hback (List.mem_reverse.mp hmem)⟩
  have hrev := congrArg List.reverse hx
  simpa using hrev

theorem front_eq_of_last {front front' back back' : List α}
    (h : front ++ a :: back = front' ++ a :: back') (hback : a ∉ back) (hback' : a ∉ back') :
    front = front' := by
  rcases List.append_eq_append_iff.mp h with ⟨mid, rfl, hmid⟩ | ⟨mid, rfl, hmid⟩
  · cases mid with
    | nil => exact (List.append_nil front).symm
    | cons d mid =>
      obtain ⟨-, rfl⟩ := List.cons.inj hmid
      exact absurd (List.mem_append_right mid List.mem_cons_self) hback
  · cases mid with
    | nil => exact List.append_nil front'
    | cons d mid =>
      obtain ⟨-, rfl⟩ := List.cons.inj hmid
      exact absurd (List.mem_append_right mid List.mem_cons_self) hback'

/-- Each piece can be read on its own. -/
theorem exists_forall₂_iff {β : Type*} {R : α → β → Prop} {x : List α} :
    (∃ y, List.Forall₂ R x y) ↔ ∀ a ∈ x, ∃ b, R a b := by
  induction x with
  | nil => simp
  | cons a x ih =>
    rw [List.forall_mem_cons, ← ih]
    constructor
    · rintro ⟨y, hy⟩
      cases hy with
      | cons ha hx => exact ⟨⟨_, ha⟩, _, hx⟩
    · rintro ⟨⟨b, ha⟩, y, hx⟩
      exact ⟨b :: y, .cons ha hx⟩

end SplitOn

/-! ## Pieces between pairs -/

section SplitPair

variable [DecidableEq α] {a b c d : α} {x cs : List α}

/-- `str::split`, at a separator of two characters. -/
def splitPair (a b : α) : List α → List (List α)
  | [] => [[]]
  | [c] => [[c]]
  | c :: d :: cs =>
    if c = a ∧ d = b then [] :: splitPair a b cs
    else (splitPair a b (d :: cs)).modifyHead (c :: ·)

theorem splitPair_pair (cs : List α) : splitPair a b (a :: b :: cs) = [] :: splitPair a b cs :=
  if_pos ⟨rfl, rfl⟩

theorem splitPair_cons (h : ∀ rest, c :: cs ≠ a :: b :: rest) :
    splitPair a b (c :: cs) = (splitPair a b cs).modifyHead (c :: ·) := by
  cases cs with
  | nil => rfl
  | cons d cs =>
    refine if_neg ?_
    rintro ⟨rfl, rfl⟩
    exact h cs rfl

/-- A text without the first character of the separator is part of a piece. -/
theorem splitPair_append (hx : a ∉ x) (cs : List α) :
    splitPair a b (x ++ cs) = (splitPair a b cs).modifyHead (x ++ ·) := by
  induction x with
  | nil =>
    rw [List.nil_append]
    cases splitPair a b cs with
    | nil => rfl
    | cons first others => rfl
  | cons c x ih =>
    rw [List.mem_cons, not_or] at hx
    rw [List.cons_append, splitPair_cons, ih hx.2, List.modifyHead_modifyHead]
    · rfl
    · intro rest h
      exact hx.1 (List.cons.inj h).1.symm

/-- Nor is the text cut if its second character never stands there. -/
theorem splitPair_eq_singleton (hb : b ∉ x) : splitPair a b x = [x] := by
  induction x with
  | nil => rfl
  | cons c x ih =>
    rw [List.mem_cons, not_or] at hb
    rw [splitPair_cons, ih hb.2]
    · rfl
    · intro rest h
      refine hb.2 ?_
      rw [(List.cons.inj h).2]
      exact List.mem_cons_self

end SplitPair

/-! ## Trimming -/

/-- `str::trim_matches`. -/
def trimMatches (p : α → Bool) (x : List α) : List α :=
  ((x.dropWhile p).reverse.dropWhile p).reverse

/-- What stands between the characters to trim, if it begins and ends with others. -/
theorem trimMatches_append {p : α → Bool} {x y : List α} {first last : α}
    (hx : (x ++ y).head? = some first) (hfirst : p first = false) (hlast : x.getLast? = some last)
    (hp : p last = false) (hy : ∀ c ∈ y, p c = true) : trimMatches p (x ++ y) = x := by
  obtain ⟨rest, hcons⟩ := List.head?_eq_some_iff.mp hx
  obtain ⟨init, rfl⟩ := List.getLast?_eq_some_iff.mp hlast
  have hback : (y.reverse ++ (last :: init.reverse)).dropWhile p = last :: init.reverse := by
    rw [List.dropWhile_append_of_pos fun c hc => hy c (List.mem_reverse.mp hc)]
    exact List.dropWhile_cons_of_neg (by simp [hp])
  rw [trimMatches, hcons, List.dropWhile_cons_of_neg (by simp [hfirst]), ← hcons]
  simp [hback]

end Pieces
