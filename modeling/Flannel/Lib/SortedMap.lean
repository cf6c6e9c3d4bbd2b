import Mathlib.Order.Lattice

/-!
# Sorted maps

A map kept as the list of its entries in ascending order of their keys, which is what
iterating over an ordered map gives.  The only way such a map changes here is through
one of its entries: the entry of a key is made from what was there, or from nothing.

Inserting is the change that does not look at what was there.  A map that is built by inserting
pairs one after another holds for each key the value of the last pair with it (`get_extend`).
-/

namespace SortedMap

variable {κ ν : Type*} [LinearOrder κ]

/-- The value stored under a key. -/
def get (m : List (κ × ν)) (k : κ) : Option ν :=
  match m with
  | [] => none
  | (k', v) :: rest => if k = k' then some v else get rest k

/-- Make the entry of a key from what was there. -/
def upsert (f : Option ν → ν) (k : κ) : List (κ × ν) → List (κ × ν)
  | [] => [(k, f none)]
  | (k', v) :: rest =>
    if k = k' then (k', f (some v)) :: rest
    else if k < k' then (k, f none) :: (k', v) :: rest
    else (k', v) :: upsert f k rest

/-- The keys ascend. -/
def Sorted (m : List (κ × ν)) : Prop := m.Pairwise fun x y => x.1 < y.1

theorem sorted_nil : Sorted ([] : List (κ × ν)) := List.Pairwise.nil

theorem get_eq_none_of_lt {m : List (κ × ν)} {k : κ} (h : ∀ e ∈ m, k < e.1) : get m k = none := by
  induction m with
  | nil => rfl
  | cons e rest ih =>
    have hk : k ≠ e.1 := ne_of_lt (h e List.mem_cons_self)
    rw [get, if_neg hk]
    exact ih fun e' he' => h e' (List.mem_cons_of_mem _ he')

theorem mem_upsert {f : Option ν → ν} {k : κ} {m : List (κ × ν)} {e : κ × ν}
    (he : e ∈ upsert f k m) : e.1 = k ∨ e ∈ m := by
  induction m with
  | nil =>
    rw [upsert, List.mem_singleton] at he
    exact Or.inl (congrArg Prod.fst he)
  | cons e' rest ih =>
    rw [upsert] at he
    split at he
    · rename_i hk
      rcases List.mem_cons.mp he with rfl | he
      · exact Or.inl hk.symm
      · exact Or.inr (List.mem_cons_of_mem _ he)
    · split at he
      · rcases List.mem_cons.mp he with rfl | he
        · exact Or.inl rfl
        · exact Or.inr he
      · rcases List.mem_cons.mp he with rfl | he
        · exact Or.inr List.mem_cons_self
        · exact (ih he).imp id (List.mem_cons_of_mem _)

/-- What holds of all entries still does, if it holds of the new value. -/
theorem forall_mem_upsert {P : κ → ν → Prop} {f : Option ν → ν} {k : κ} {m : List (κ × ν)}
    (hm : ∀ e ∈ m, P e.1 e.2) (hnone : P k (f none)) (hsome : ∀ v, P k v → P k (f (some v))) :
    ∀ e ∈ upsert f k m, P e.1 e.2 := by
  induction m with
  | nil =>
    rintro e he
    rw [upsert, List.mem_singleton] at he
    rw [he]
    exact hnone
  | cons entry rest ih =>
    obtain ⟨k', v⟩ := entry
    obtain ⟨hfirst, hrest⟩ := List.forall_mem_cons.mp hm
    rw [upsert]
    split_ifs with heq hlt
    · subst heq
      exact List.forall_mem_cons.mpr ⟨hsome v hfirst, hrest⟩
    · exact List.forall_mem_cons.mpr ⟨hnone, hm⟩
    · exact List.forall_mem_cons.mpr ⟨hfirst, ih hrest⟩

theorem Sorted.upsert {m : List (κ × ν)} (h : Sorted m) (f : Option ν → ν) (k : κ) :
    Sorted (upsert f k m) := by
  induction m with
  | nil => exact List.pairwise_singleton _ _
  | cons e rest ih =>
    obtain ⟨hlt, hrest⟩ := List.pairwise_cons.mp h
    rw [SortedMap.upsert]
    split
    · exact List.pairwise_cons.mpr ⟨hlt, hrest⟩
    · rename_i hne
      split
      · rename_i hk
        refine List.pairwise_cons.mpr ⟨fun e' he' => ?_, h⟩
        rcases List.mem_cons.mp he' with rfl | he'
        · exact hk
        · exact lt_trans hk (hlt e' he')
      · rename_i hk
        refine List.pairwise_cons.mpr ⟨fun e' he' => ?_, ih hrest⟩
        rcases mem_upsert he' with rfl | he'
        · exact lt_of_le_of_ne (not_lt.mp hk) (Ne.symm hne)
        · exact hlt e' he'

/-- **What an entry holds after a change.** -/
theorem get_upsert {m : List (κ × ν)} (h : Sorted m) (f : Option ν → ν) (k k' : κ) :
    get (upsert f k m) k' = if k' = k then some (f (get m k)) else get m k' := by
  induction m with
  | nil => rfl
  | cons e rest ih =>
    obtain ⟨hlt, hrest⟩ := List.pairwise_cons.mp h
    rw [upsert]
    split
    · rename_i hk
      subst hk
      simp only [get, if_true]
      by_cases hk' : k' = e.1
      · simp [hk']
      · simp [hk']
    · rename_i hne
      split
      · rename_i hk
        have habsent : get (e :: rest) k = none := by
          refine get_eq_none_of_lt fun e' he' => ?_
          rcases List.mem_cons.mp he' with rfl | he'
          · exact hk
          · exact lt_trans hk (hlt e' he')
        rw [habsent]
        rfl
      · rw [get, get, get, ih hrest, if_neg hne]
        by_cases hk' : k' = e.1
        · rw [if_pos hk', if_pos hk', if_neg (hk' ▸ Ne.symm hne)]
        · rw [if_neg hk', if_neg hk']

theorem mem_iff_get_eq {m : List (κ × ν)} (h : Sorted m) {k : κ} {v : ν} :
    (k, v) ∈ m ↔ get m k = some v := by
  induction m with
  | nil => simp [get]
  | cons e rest ih =>
    obtain ⟨hlt, hrest⟩ := List.pairwise_cons.mp h
    obtain ⟨k', v'⟩ := e
    rw [List.mem_cons, get, ih hrest]
    by_cases hk : k = k'
    · subst hk
      have habsent : get rest k = none := get_eq_none_of_lt hlt
      simp [habsent, eq_comm]
    · simp [hk]

/-! ## Insertion -/

/-- Store a value under a key. -/
def insert (k : κ) (v : ν) (m : List (κ × ν)) : List (κ × ν) := upsert (fun _ => v) k m

/-- Insert pairs one after another. -/
def extend (m : List (κ × ν)) (pairs : List (κ × ν)) : List (κ × ν) :=
  pairs.foldl (fun m p => insert p.1 p.2 m) m

/-- The map of some pairs. -/
def ofPairs (pairs : List (κ × ν)) : List (κ × ν) := extend [] pairs

theorem Sorted.insert {m : List (κ × ν)} (h : Sorted m) (k : κ) (v : ν) :
    Sorted (insert k v m) :=
  h.upsert _ k

theorem get_insert {m : List (κ × ν)} (h : Sorted m) (k k' : κ) (v : ν) :
    get (insert k v m) k' = if k' = k then some v else get m k' :=
  get_upsert h _ k k'

theorem Sorted.extend {m : List (κ × ν)} (h : Sorted m) (pairs : List (κ × ν)) :
    Sorted (extend m pairs) := by
  induction pairs generalizing m with
  | nil => exact h
  | cons p pairs ih => exact ih (h.insert p.1 p.2)

theorem sorted_ofPairs (pairs : List (κ × ν)) : Sorted (ofPairs pairs) :=
  sorted_nil.extend pairs

/-! ## The last of some pairs -/

/-- The last pair whose key passes. -/
def lastPair (p : κ → Bool) (pairs : List (κ × ν)) : Option (κ × ν) :=
  (pairs.filter fun e => p e.1).getLast?

/-- The value of the last pair with a key. -/
def lastValue (k : κ) (pairs : List (κ × ν)) : Option ν :=
  (lastPair (fun k' => k' = k) pairs).map Prod.snd

omit [LinearOrder κ] in
theorem lastPair_cons (p : κ → Bool) (e : κ × ν) (pairs : List (κ × ν)) :
    lastPair p (e :: pairs) = (lastPair p pairs).or (if p e.1 then some e else none) := by
  unfold lastPair
  rw [List.filter_cons]
  by_cases he : p e.1 = true
  · rw [if_pos he, if_pos he, List.getLast?_cons]
    cases (pairs.filter fun e => p e.1).getLast? with
    | none => rfl
    | some q => rfl
  · rw [if_neg he, if_neg he, Option.or_none]

theorem lastValue_cons (k : κ) (e : κ × ν) (pairs : List (κ × ν)) :
    lastValue k (e :: pairs) = (lastValue k pairs).or (if k = e.1 then some e.2 else none) := by
  unfold lastValue
  rw [lastPair_cons]
  cases lastPair (fun k' => k' = k) pairs with
  | some q => rfl
  | none =>
    by_cases hk : k = e.1
    · simp [hk]
    · simp [hk, Ne.symm hk]

omit [LinearOrder κ] in
theorem lastPair_eq_none_iff {p : κ → Bool} {pairs : List (κ × ν)} :
    lastPair p pairs = none ↔ ∀ e ∈ pairs, p e.1 = false := by
  simp [lastPair]

omit [LinearOrder κ] in
theorem mem_of_lastPair {p : κ → Bool} {pairs : List (κ × ν)} {e : κ × ν}
    (h : lastPair p pairs = some e) : e ∈ pairs ∧ p e.1 = true :=
  List.mem_filter.mp (List.mem_of_getLast? h)

/-- The last pair whose key passes is the last one with its key. -/
theorem lastValue_of_lastPair {p : κ → Bool} {pairs : List (κ × ν)} {e : κ × ν}
    (h : lastPair p pairs = some e) : lastValue e.1 pairs = some e.2 := by
  induction pairs with
  | nil => cases h
  | cons e' pairs ih =>
    rw [lastPair_cons, Option.or_eq_some_iff] at h
    rw [lastValue_cons]
    rcases h with h | ⟨hnone, h⟩
    · rw [ih h]
      rfl
    · split_ifs at h with hp
      cases h
      have habsent : lastValue e.1 pairs = none := by
        rw [lastValue, lastPair_eq_none_iff.mpr fun e' he' => ?_]
        · rfl
        · have hfalse := lastPair_eq_none_iff.mp hnone e' he'
          refine decide_eq_false fun heq => ?_
          rw [heq, hp] at hfalse
          cases hfalse
      rw [habsent, if_pos rfl]
      rfl

/-- **A key holds the value of the last pair with it**, and what it held before if there is none. -/
theorem get_extend {m : List (κ × ν)} (h : Sorted m) (pairs : List (κ × ν)) (k : κ) :
    get (extend m pairs) k = (lastValue k pairs).or (get m k) := by
  induction pairs generalizing m with
  | nil => rfl
  | cons e pairs ih =>
    have hstep : get (extend m (e :: pairs)) k =
        (lastValue k pairs).or (get (insert e.1 e.2 m) k) := ih (h.insert e.1 e.2)
    rw [hstep, get_insert h, lastValue_cons, Option.or_assoc]
    by_cases hk : k = e.1
    · rw [if_pos hk, if_pos hk]
      rfl
    · rw [if_neg hk, if_neg hk]
      rfl

theorem get_ofPairs (pairs : List (κ × ν)) (k : κ) : get (ofPairs pairs) k = lastValue k pairs := by
  rw [ofPairs, get_extend sorted_nil]
  exact Option.or_none

/-- In a map every key has one entry. -/
theorem lastValue_eq_get {m : List (κ × ν)} (h : Sorted m) (k : κ) : lastValue k m = get m k := by
  induction m with
  | nil => rfl
  | cons e rest ih =>
    obtain ⟨hlt, hrest⟩ := List.pairwise_cons.mp h
    rw [lastValue_cons, ih hrest, get]
    by_cases hk : k = e.1
    · have habsent : get rest k = none := get_eq_none_of_lt fun e' he' => hk ▸ hlt e' he'
      rw [habsent, if_pos hk]
      rfl
    · rw [if_neg hk, if_neg hk, Option.or_none]

theorem mem_ofPairs_iff {pairs : List (κ × ν)} {e : κ × ν} :
    e ∈ ofPairs pairs ↔ lastValue e.1 pairs = some e.2 := by
  rw [mem_iff_get_eq (sorted_ofPairs pairs) (k := e.1) (v := e.2), get_ofPairs]

theorem mem_of_mem_ofPairs {pairs : List (κ × ν)} {e : κ × ν} (he : e ∈ ofPairs pairs) :
    e ∈ pairs := by
  rw [mem_ofPairs_iff, lastValue, Option.map_eq_some_iff] at he
  obtain ⟨e', he', hv⟩ := he
  obtain ⟨hmem, hk⟩ := mem_of_lastPair he'
  rwa [← Prod.ext (of_decide_eq_true hk) hv]

theorem exists_lastValue_of_mem {pairs : List (κ × ν)} {e : κ × ν} (he : e ∈ pairs) :
    ∃ v, lastValue e.1 pairs = some v := by
  cases hlast : lastPair (fun k' => k' = e.1) pairs with
  | none => exact absurd rfl (of_decide_eq_false (lastPair_eq_none_iff.mp hlast e he))
  | some e' => exact ⟨e'.2, congrArg (Option.map Prod.snd) hlast⟩

/-- In a map the last key that passes is the greatest. -/
theorem le_of_lastPair {m : List (κ × ν)} (h : Sorted m) {p : κ → Bool} {e e' : κ × ν}
    (hlast : lastPair p m = some e) (he' : e' ∈ m) (hp' : p e'.1 = true) : e'.1 ≤ e.1 := by
  obtain ⟨before, hsplit⟩ := List.getLast?_eq_some_iff.mp hlast
  have hsorted : (before ++ [e]).Pairwise fun x y => x.1 < y.1 :=
    hsplit ▸ List.Pairwise.filter _ h
  have hmem : e' ∈ before ++ [e] := hsplit ▸ List.mem_filter.mpr ⟨he', hp'⟩
  rcases List.mem_append.mp hmem with hbefore | hlast
  · have hlt := (List.pairwise_append.mp hsorted).2.2 e' hbefore e (List.mem_singleton_self e)
    exact le_of_lt hlt
  · rw [List.mem_singleton.mp hlast]

/-- The pair has the greatest of the keys that pass, and is the last one with it. -/
structure Topmost (p : κ → Bool) (pairs : List (κ × ν)) (e : κ × ν) : Prop where
  passes : p e.1 = true
  last : lastValue e.1 pairs = some e.2
  le : ∀ e' ∈ pairs, p e'.1 = true → e'.1 ≤ e.1

theorem Topmost.unique {p : κ → Bool} {pairs : List (κ × ν)} {e e' : κ × ν}
    (h : Topmost p pairs e) (h' : Topmost p pairs e') : e = e' := by
  have hmem : e ∈ pairs := mem_of_mem_ofPairs (mem_ofPairs_iff.mpr h.last)
  have hmem' : e' ∈ pairs := mem_of_mem_ofPairs (mem_ofPairs_iff.mpr h'.last)
  have hkey : e.1 = e'.1 := le_antisymm (h'.le e hmem h.passes) (h.le e' hmem' h'.passes)
  have hvalue : some e.2 = some e'.2 := by rw [← h.last, hkey, h'.last]
  exact Prod.ext hkey (Option.some.inj hvalue)

theorem topmost_of_lastPair_ofPairs {p : κ → Bool} {pairs : List (κ × ν)} {e : κ × ν}
    (h : lastPair p (ofPairs pairs) = some e) : Topmost p pairs e := by
  obtain ⟨hmem, hp⟩ := mem_of_lastPair h
  refine ⟨hp, mem_ofPairs_iff.mp hmem, fun e' he' hp' => ?_⟩
  obtain ⟨v, hv⟩ := exists_lastValue_of_mem he'
  have hentry : (e'.1, v) ∈ ofPairs pairs := mem_ofPairs_iff.mpr hv
  have hle : (e'.1, v).1 ≤ e.1 := le_of_lastPair (sorted_ofPairs pairs) h hentry hp'
  exact hle

/-- **The last of the keys that pass, in the map of some pairs, is the greatest of them.** -/
theorem lastPair_ofPairs_iff {p : κ → Bool} {pairs : List (κ × ν)} {e : κ × ν} :
    lastPair p (ofPairs pairs) = some e ↔ Topmost p pairs e := by
  refine ⟨topmost_of_lastPair_ofPairs, fun h => ?_⟩
  cases hlast : lastPair p (ofPairs pairs) with
  | none =>
    have hfalse := lastPair_eq_none_iff.mp hlast e (mem_ofPairs_iff.mpr h.last)
    rw [h.passes] at hfalse
    cases hfalse
  | some e' => rw [h.unique (topmost_of_lastPair_ofPairs hlast)]

theorem lastPair_ofPairs_eq_none_iff {p : κ → Bool} {pairs : List (κ × ν)} :
    lastPair p (ofPairs pairs) = none ↔ lastPair p pairs = none := by
  rw [lastPair_eq_none_iff, lastPair_eq_none_iff]
  constructor
  · intro h e he
    obtain ⟨v, hv⟩ := exists_lastValue_of_mem he
    exact h (e.1, v) (mem_ofPairs_iff.mpr hv)
  · exact fun h e he => h e (mem_of_mem_ofPairs he)

end SortedMap
