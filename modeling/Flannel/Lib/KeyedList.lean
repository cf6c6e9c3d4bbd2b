import Mathlib.Data.List.Nodup
import Mathlib.Data.List.Perm.Basic
import Mathlib.Tactic.Tauto

/-!
# Lists read as finite maps

A program that keeps a small table often keeps it as a plain list and searches
it from the front.  This file reads such a list as a finite map.

* `firstMatch` is the loop itself: scan from the front, stop at the first entry
  that passes a test, and return it with what stands before and after it.  Every
  in-place operation of such a program is one `match` on it.
* `lookup` reads a list through a key function, and `Distinct` says that no key
  occurs twice.  Under `Distinct` the list *is* the map: `lookup_eq_some_iff`
  says that looking a key up and being an entry are the same thing.
* The three edits a scan can make --- replacing the entry it stopped at, dropping
  it, appending at the end --- are stated once each, as what they do to `lookup`
  and that they keep `Distinct`.
* `erase` and `insert` are the operations of a map whose order nobody relies on.
-/

namespace KeyedList

variable {α κ : Type*}

/-! ## The scan -/

/-- The first entry passing `p`, with the entries before it and after it. -/
def firstMatch (p : α → Bool) : List α → Option (List α × α × List α)
  | [] => none
  | x :: xs =>
      if p x then some ([], x, xs)
      else (firstMatch p xs).map fun r => (x :: r.1, r.2.1, r.2.2)

@[simp] theorem firstMatch_nil (p : α → Bool) : firstMatch p [] = none := rfl

theorem firstMatch_cons_pos {p : α → Bool} {x : α} (h : p x = true) (xs : List α) :
    firstMatch p (x :: xs) = some ([], x, xs) := by
  simp [firstMatch, h]

theorem firstMatch_cons_neg {p : α → Bool} {x : α} (h : p x = false) (xs : List α) :
    firstMatch p (x :: xs) =
      (firstMatch p xs).map fun r => (x :: r.1, r.2.1, r.2.2) := by
  simp [firstMatch, h]

/-- Where a successful scan stops: the list splits there, the entry passes, and
nothing before it does. -/
theorem firstMatch_eq_some {p : α → Bool} {xs pre post : List α} {x : α}
    (h : firstMatch p xs = some (pre, x, post)) :
    xs = pre ++ x :: post ∧ p x = true ∧ ∀ y ∈ pre, p y = false := by
  induction xs generalizing pre with
  | nil => simp at h
  | cons y ys ih =>
    cases hy : p y with
    | true =>
      rw [firstMatch_cons_pos hy] at h
      obtain ⟨rfl, rfl, rfl⟩ : [] = pre ∧ y = x ∧ ys = post := by simpa using h
      exact ⟨rfl, hy, by simp⟩
    | false =>
      rw [firstMatch_cons_neg hy, Option.map_eq_some_iff] at h
      obtain ⟨⟨pre', x', post'⟩, hr, he⟩ := h
      obtain ⟨rfl, rfl, rfl⟩ : y :: pre' = pre ∧ x' = x ∧ post' = post := by
        simpa using he
      obtain ⟨hsplit, hx, hpre⟩ := ih hr
      refine ⟨by rw [hsplit]; rfl, hx, ?_⟩
      intro z hz
      rcases List.mem_cons.mp hz with rfl | hz
      · exact hy
      · exact hpre z hz

/-- A scan fails exactly when nothing passes. -/
theorem firstMatch_eq_none {p : α → Bool} {xs : List α} :
    firstMatch p xs = none ↔ ∀ y ∈ xs, p y = false := by
  induction xs with
  | nil => simp
  | cons y ys ih =>
    cases hy : p y with
    | true => simp [firstMatch_cons_pos hy, hy]
    | false => simp [firstMatch_cons_neg hy, hy, ih]

/-! ## Distinct keys -/

section Distinct

variable {key : α → κ}

/-- No key occurs twice. -/
def Distinct (key : α → κ) (xs : List α) : Prop := (xs.map key).Nodup

theorem distinct_cons {x : α} {xs : List α} :
    Distinct key (x :: xs) ↔ key x ∉ xs.map key ∧ Distinct key xs := by
  simp [Distinct]

theorem Distinct.perm {xs ys : List α} (hd : Distinct key xs) (h : xs.Perm ys) :
    Distinct key ys :=
  (h.map key).nodup_iff.mp hd

/-- Entries of a list with distinct keys are determined by their key. -/
theorem Distinct.eq_of_key {xs : List α} (hd : Distinct key xs) {x y : α}
    (hx : x ∈ xs) (hy : y ∈ xs) (h : key x = key y) : x = y :=
  List.inj_on_of_nodup_map hd hx hy h

theorem distinct_middle {pre post : List α} {x : α} :
    Distinct key (pre ++ x :: post) ↔
      key x ∉ (pre ++ post).map key ∧ Distinct key (pre ++ post) := by
  unfold Distinct
  rw [(List.perm_middle.map key).nodup_iff, List.map_cons, List.nodup_cons]

/-- Replacing an entry by one with the same key keeps the keys distinct. -/
theorem Distinct.replace {pre post : List α} {x y : α}
    (hd : Distinct key (pre ++ x :: post)) (h : key y = key x) :
    Distinct key (pre ++ y :: post) := by
  rw [distinct_middle] at hd ⊢
  exact ⟨h ▸ hd.1, hd.2⟩

/-- Dropping an entry keeps the keys distinct. -/
theorem Distinct.drop {pre post : List α} {x : α}
    (hd : Distinct key (pre ++ x :: post)) : Distinct key (pre ++ post) :=
  (distinct_middle.mp hd).2

/-- Dropping an entry leaves the entries with another key. -/
theorem Distinct.mem_drop_iff {pre post : List α} {x : α}
    (hd : Distinct key (pre ++ x :: post)) (y : α) :
    y ∈ pre ++ post ↔ y ∈ pre ++ x :: post ∧ key y ≠ key x := by
  obtain ⟨hx, -⟩ := distinct_middle.mp hd
  constructor
  · intro hy
    refine ⟨?_, fun he => hx (he ▸ List.mem_map_of_mem hy)⟩
    simp only [List.mem_append, List.mem_cons] at hy ⊢
    tauto
  · rintro ⟨hy, hne⟩
    have hyx : y ≠ x := fun he => hne (he ▸ rfl)
    simp only [List.mem_append, List.mem_cons] at hy ⊢
    tauto

/-- Dropping an entry leaves the other keys. -/
theorem Distinct.mem_keys_drop_iff {pre post : List α} {x : α}
    (hd : Distinct key (pre ++ x :: post)) (k : κ) :
    k ∈ (pre ++ post).map key ↔ k ∈ (pre ++ x :: post).map key ∧ k ≠ key x := by
  simp only [List.mem_map, hd.mem_drop_iff]
  constructor
  · rintro ⟨y, ⟨hy, hne⟩, rfl⟩
    exact ⟨⟨y, hy, rfl⟩, hne⟩
  · rintro ⟨⟨y, hy, rfl⟩, hne⟩
    exact ⟨y, ⟨hy, hne⟩, rfl⟩

/-- Appending an entry with a new key keeps the keys distinct. -/
theorem Distinct.snoc {xs : List α} {y : α} (hd : Distinct key xs)
    (h : key y ∉ xs.map key) : Distinct key (xs ++ [y]) := by
  rw [distinct_middle, List.append_nil]
  exact ⟨h, hd⟩

end Distinct

/-! ## Reading the list through its keys -/

variable [DecidableEq κ] (key : α → κ)

/-- The entry stored under `k`. -/
def lookup (k : κ) (xs : List α) : Option α := xs.find? fun x => key x = k

theorem lookup_cons (k : κ) (x : α) (xs : List α) :
    lookup key k (x :: xs) = if key x = k then some x else lookup key k xs := by
  by_cases h : key x = k <;> simp [lookup, h]

theorem lookup_append (k : κ) (xs ys : List α) :
    lookup key k (xs ++ ys) = (lookup key k xs).or (lookup key k ys) := by
  simp [lookup]

variable {key}

theorem lookup_eq_none_iff {k : κ} {xs : List α} :
    lookup key k xs = none ↔ k ∉ xs.map key := by
  simp [lookup]

/-- Being a stored key is being looked up successfully. -/
theorem mem_keys_iff {k : κ} {xs : List α} :
    k ∈ xs.map key ↔ lookup key k xs ≠ none := by
  rw [ne_eq, lookup_eq_none_iff, not_not]

theorem mem_of_lookup {k : κ} {xs : List α} {x : α} (h : lookup key k xs = some x) :
    x ∈ xs ∧ key x = k :=
  ⟨List.mem_of_find?_eq_some h, by simpa using List.find?_some h⟩

/-- **Under distinct keys the list is the map**: an entry is found under its key
and nothing else is. -/
theorem lookup_eq_some_iff {k : κ} {xs : List α} (hd : Distinct key xs) {x : α} :
    lookup key k xs = some x ↔ x ∈ xs ∧ key x = k := by
  refine ⟨mem_of_lookup, ?_⟩
  rintro ⟨hx, rfl⟩
  cases h : lookup key (key x) xs with
  | none => exact absurd (List.mem_map_of_mem hx) (lookup_eq_none_iff.mp h)
  | some y =>
    obtain ⟨hy, hk⟩ := mem_of_lookup h
    rw [hd.eq_of_key hy hx hk]

/-- Two lists with distinct keys have the same entries exactly when they answer every
lookup alike. -/
theorem mem_iff_iff_lookup_eq {xs ys : List α} (hx : Distinct key xs) (hy : Distinct key ys) :
    (∀ z, z ∈ xs ↔ z ∈ ys) ↔ ∀ k, lookup key k xs = lookup key k ys := by
  constructor
  · intro h k
    refine Option.ext fun z => ?_
    rw [lookup_eq_some_iff hx, lookup_eq_some_iff hy, h z]
  · intro h z
    have hz := h (key z)
    constructor
    · intro hm
      rw [(lookup_eq_some_iff hx).mpr ⟨hm, rfl⟩] at hz
      exact (mem_of_lookup hz.symm).1
    · intro hm
      rw [(lookup_eq_some_iff hy).mpr ⟨hm, rfl⟩] at hz
      exact (mem_of_lookup hz).1

/-- The map does not depend on the order of the entries. -/
theorem lookup_perm {xs ys : List α} (hd : Distinct key xs) (h : xs.Perm ys) (k : κ) :
    lookup key k xs = lookup key k ys :=
  (mem_iff_iff_lookup_eq hd (hd.perm h)).mp (fun _ => h.mem_iff) k

/-! ## The three edits -/

/-- With distinct keys, the middle entry is what its key finds, and every other
key is found in the rest. -/
theorem lookup_middle {pre post : List α} {x : α} (hd : Distinct key (pre ++ x :: post))
    (k : κ) :
    lookup key k (pre ++ x :: post) =
      if k = key x then some x else lookup key k (pre ++ post) := by
  split
  · rename_i h
    exact (lookup_eq_some_iff hd).mpr ⟨by simp, h.symm⟩
  · rename_i h
    have hne : key x ≠ k := fun he => h he.symm
    rw [lookup_append, lookup_append, lookup_cons, if_neg hne]

/-- What replacing an entry in place does to the map. -/
theorem lookup_replace {pre post : List α} {x y : α}
    (hd : Distinct key (pre ++ x :: post)) (h : key y = key x) (k : κ) :
    lookup key k (pre ++ y :: post) =
      if k = key y then some y else lookup key k (pre ++ x :: post) := by
  rw [lookup_middle (hd.replace h), lookup_middle hd, h]
  split <;> rfl

/-- What dropping an entry does to the map. -/
theorem lookup_drop {pre post : List α} {x : α} (hd : Distinct key (pre ++ x :: post))
    (k : κ) :
    lookup key k (pre ++ post) =
      if k = key x then none else lookup key k (pre ++ x :: post) := by
  rw [lookup_middle hd]
  split
  · rename_i h
    exact lookup_eq_none_iff.mpr (h ▸ (distinct_middle.mp hd).1)
  · rfl

/-- What appending an entry with a new key does to the map. -/
theorem lookup_snoc {xs : List α} {y : α} (hd : Distinct key xs)
    (h : key y ∉ xs.map key) (k : κ) :
    lookup key k (xs ++ [y]) = if k = key y then some y else lookup key k xs := by
  rw [lookup_middle (hd.snoc h), List.append_nil]

/-! ## Maps without an order -/

section Insert

variable (key)

/-- Delete a key. -/
def erase (k : κ) (xs : List α) : List α := xs.filter fun x => decide (key x ≠ k)

/-- Store an entry under its key. -/
def insert (x : α) (xs : List α) : List α := erase key (key x) xs ++ [x]

variable {key}

theorem mem_erase_iff {k : κ} {xs : List α} {y : α} :
    y ∈ erase key k xs ↔ y ∈ xs ∧ key y ≠ k := by
  simp [erase]

theorem mem_insert_iff {x y : α} {xs : List α} :
    y ∈ insert key x xs ↔ y ∈ xs ∧ key y ≠ key x ∨ y = x := by
  rw [insert, List.mem_append, mem_erase_iff, List.mem_singleton]

theorem Distinct.erase {xs : List α} (hd : Distinct key xs) (k : κ) :
    Distinct key (erase key k xs) :=
  List.Nodup.sublist (List.filter_sublist.map key) hd

theorem Distinct.insert {xs : List α} (hd : Distinct key xs) (x : α) :
    Distinct key (insert key x xs) := by
  refine (hd.erase (key x)).snoc fun hmem => ?_
  obtain ⟨y, hy, hk⟩ := List.mem_map.mp hmem
  exact (mem_erase_iff.mp hy).2 hk

end Insert

end KeyedList
