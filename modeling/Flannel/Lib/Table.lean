import Mathlib.Logic.Function.Basic

/-!
# Tables and the rows they hold

A table with one entry for each key is a partial function, written by replacing or
deleting the entry of a key.  A set of rows is what the table is meant to hold, where
each row says under which key it stands and with which value (`Holds`).

Several tables with different keys may be meant to hold the same rows.  A row that is
written to a table evicts the rows with its key there, so the tables stay in step only
if a row evicts the same rows everywhere; the two rules below are stated so that this
shows as a condition on the rows.

Several rows are written one after the other (`writeAll`), and several entries deleted one
after the other.  A deletion that fails on a missing entry ends the deletions
(`deletePresent`), so what is left depends on which entry was the first to be missing.

One half of `Holds` is enough to say where the entries of some kind come from (`From`).
-/

namespace Table

variable {κ ρ β : Type*} {key : ρ → κ} {val : ρ → β} {t : κ → Option β} {S S' : ρ → Prop}

/-- The entries of the table are those of the rows. -/
def Holds (key : ρ → κ) (val : ρ → β) (t : κ → Option β) (S : ρ → Prop) : Prop :=
  ∀ k v, t k = some v ↔ ∃ r, S r ∧ key r = k ∧ val r = v

theorem holds_empty : Holds key val (fun _ => none) (fun _ => False) := by
  simp [Holds]

variable [DecidableEq κ]

/-- Writing a row. -/
theorem Holds.insert (h : Holds key val t S) {r : ρ}
    (hrows : ∀ x, S' x ↔ x = r ∨ S x ∧ key x ≠ key r) :
    Holds key val (Function.update t (key r) (some (val r))) S' := by
  intro k v
  by_cases hk : k = key r
  · subst hk
    rw [Function.update_self, Option.some.injEq]
    constructor
    · rintro rfl
      exact ⟨r, (hrows r).mpr (Or.inl rfl), rfl, rfl⟩
    · rintro ⟨x, hx, hkey, rfl⟩
      rcases (hrows x).mp hx with rfl | ⟨-, hne⟩
      · rfl
      · exact absurd hkey hne
  · rw [Function.update_of_ne hk, h]
    constructor
    · rintro ⟨x, hx, rfl, rfl⟩
      exact ⟨x, (hrows x).mpr (Or.inr ⟨hx, hk⟩), rfl, rfl⟩
    · rintro ⟨x, hx, rfl, rfl⟩
      rcases (hrows x).mp hx with rfl | ⟨hx, -⟩
      · exact absurd rfl hk
      · exact ⟨x, hx, rfl, rfl⟩

/-- Deleting an entry. -/
theorem Holds.erase (h : Holds key val t S) {k₀ : κ}
    (hrows : ∀ x, S' x ↔ S x ∧ key x ≠ k₀) : Holds key val (Function.update t k₀ none) S' := by
  intro k v
  by_cases hk : k = k₀
  · subst hk
    rw [Function.update_self]
    constructor
    · intro hnone
      cases hnone
    · rintro ⟨x, hx, hkey, -⟩
      exact absurd hkey ((hrows x).mp hx).2
  · rw [Function.update_of_ne hk, h]
    constructor
    · rintro ⟨x, hx, rfl, rfl⟩
      exact ⟨x, (hrows x).mpr ⟨hx, hk⟩, rfl, rfl⟩
    · rintro ⟨x, hx, rfl, rfl⟩
      exact ⟨x, ((hrows x).mp hx).1, rfl, rfl⟩

/-- Writing rows one after the other. -/
def writeAll (key : ρ → κ) (val : ρ → β) (t : κ → Option β) (rows : List ρ) : κ → Option β :=
  rows.foldl (fun t r => Function.update t (key r) (some (val r))) t

/-- Deleting entries one after the other. -/
def deleteAll (t : κ → Option β) (keys : List κ) : κ → Option β :=
  keys.foldl (fun t k => Function.update t k none) t

/-- Writing rows that do not evict each other. -/
theorem Holds.writeAll {rows : List ρ} (h : Holds key val t S) (hkeys : (rows.map key).Nodup)
    (hrows : ∀ x, S' x ↔ x ∈ rows ∨ S x ∧ key x ∉ rows.map key) :
    Holds key val (Table.writeAll key val t rows) S' := by
  induction rows generalizing t S with
  | nil =>
    have hsame : S' = S := by
      ext x
      simpa using hrows x
    rw [hsame]
    exact h
  | cons r rows ih =>
    rw [List.map_cons, List.nodup_cons] at hkeys
    have hone : Holds key val (Function.update t (key r) (some (val r)))
        fun x => x = r ∨ S x ∧ key x ≠ key r := h.insert fun _ => Iff.rfl
    refine ih hone hkeys.2 fun x => ?_
    rw [hrows x, List.mem_cons, List.map_cons, List.mem_cons, not_or]
    constructor
    · rintro ((rfl | hx) | ⟨hx, hne, hrest⟩)
      · exact Or.inr ⟨Or.inl rfl, hkeys.1⟩
      · exact Or.inl hx
      · exact Or.inr ⟨Or.inr ⟨hx, hne⟩, hrest⟩
    · rintro (hx | ⟨rfl | ⟨hx, hne⟩, hrest⟩)
      · exact Or.inl (Or.inr hx)
      · exact Or.inl (Or.inl rfl)
      · exact Or.inr ⟨hx, hne, hrest⟩

theorem Holds.deleteAll {keys : List κ} (h : Holds key val t S)
    (hrows : ∀ x, S' x ↔ S x ∧ key x ∉ keys) : Holds key val (Table.deleteAll t keys) S' := by
  induction keys generalizing t S with
  | nil =>
    have hsame : S' = S := by
      ext x
      simpa using hrows x
    rw [hsame]
    exact h
  | cons k keys ih =>
    have hone : Holds key val (Function.update t k none) fun x => S x ∧ key x ≠ k :=
      h.erase fun _ => Iff.rfl
    refine ih hone fun x => ?_
    rw [hrows x, List.mem_cons, not_or, and_assoc]

/-- Deleting entries one after the other, up to the first that is not there. -/
def deletePresent (t : κ → Option β) : List κ → κ → Option β
  | [] => t
  | k :: keys =>
    if (t k).isSome then deletePresent (Function.update t k none) keys else t

theorem deletePresent_of_absent {k : κ} (h : t k = none) (keys : List κ) :
    deletePresent t (k :: keys) = t := by
  rw [deletePresent, if_neg (by simp [h])]

theorem deletePresent_cons {k : κ} (h : (t k).isSome) (keys : List κ) :
    deletePresent t (k :: keys) = deletePresent (Function.update t k none) keys := by
  rw [deletePresent, if_pos h]

/-- Other entries are not touched. -/
theorem deletePresent_of_notMem {k : κ} {keys : List κ} (h : k ∉ keys) :
    deletePresent t keys k = t k := by
  induction keys generalizing t with
  | nil => rfl
  | cons k' keys ih =>
    rw [List.mem_cons, not_or] at h
    cases hk' : t k' with
    | none => rw [deletePresent_of_absent hk']
    | some v => rw [deletePresent_cons (by simp [hk']), ih h.2, Function.update_of_ne h.1]

/-- With nothing missing, all of them are deleted. -/
theorem deletePresent_eq_deleteAll {keys : List κ} (hkeys : keys.Nodup)
    (h : ∀ k ∈ keys, (t k).isSome) : deletePresent t keys = deleteAll t keys := by
  induction keys generalizing t with
  | nil => rfl
  | cons k keys ih =>
    rw [List.nodup_cons] at hkeys
    rw [deletePresent_cons (h k List.mem_cons_self), ih hkeys.2 fun k' hk' => ?_]
    · rfl
    · have hne : k' ≠ k := by
        rintro rfl
        exact hkeys.1 hk'
      rw [Function.update_of_ne hne]
      exact h k' (List.mem_cons_of_mem _ hk')

/-- **Nothing is left** exactly if no entry that is there comes after one that is not. -/
theorem deletePresent_eq_none_iff {keys : List κ} (hkeys : keys.Nodup) :
    (∀ k ∈ keys, deletePresent t keys k = none) ↔
      keys.Pairwise fun k k' => t k = none → t k' = none := by
  induction keys generalizing t with
  | nil => simp
  | cons k keys ih =>
    rw [List.nodup_cons] at hkeys
    rw [List.pairwise_cons]
    cases hk : t k with
    | none =>
      rw [deletePresent_of_absent hk]
      constructor
      · intro h
        have hrest : ∀ k' ∈ keys, t k' = none := fun k' hk' => h k' (List.mem_cons_of_mem _ hk')
        exact ⟨fun k' hk' _ => hrest k' hk', List.pairwise_of_forall_mem_list fun _ _ k' hk' _ =>
          hrest k' hk'⟩
      · rintro ⟨h, -⟩ k' hk'
        rcases List.mem_cons.mp hk' with rfl | hk'
        · exact hk
        · exact h k' hk' rfl
    | some v =>
      have hother : ∀ k' ∈ keys, Function.update t k none k' = t k' := by
        intro k' hk'
        refine Function.update_of_ne ?_ _ _
        rintro rfl
        exact hkeys.1 hk'
      have hpair : keys.Pairwise (fun k₁ k₂ => Function.update t k none k₁ = none →
          Function.update t k none k₂ = none) ↔
          keys.Pairwise fun k₁ k₂ => t k₁ = none → t k₂ = none :=
        List.Pairwise.iff_of_mem fun h₁ h₂ => by rw [hother _ h₁, hother _ h₂]
      have hself : deletePresent (Function.update t k none) keys k = none := by
        rw [deletePresent_of_notMem hkeys.1, Function.update_self]
      rw [deletePresent_cons (by simp [hk]), List.forall_mem_cons, ih hkeys.2, hpair]
      simp [hself]

/-- Deleting an entry that was written where there was none. -/
theorem update_undo {k : κ} {v : β} (h : t k = none) :
    Function.update (Function.update t k (some v)) k none = t := by
  rw [Function.update_idem, ← h, Function.update_eq_self]

/-! Where the entries come from -/

/-- The entries of a kind `D` are all of rows of `S`. -/
def From (key : ρ → κ) (val : ρ → β) (D : κ → β → Prop) (t : κ → Option β) (S : ρ → Prop) : Prop :=
  ∀ k v, t k = some v → D k v → ∃ r, S r ∧ key r = k ∧ val r = v

variable {D : κ → β → Prop} {t' : κ → Option β}

omit [DecidableEq κ] in
theorem From.mono (h : From key val D t S) (hsub : ∀ k v, t' k = some v → D k v → t k = some v) :
    From key val D t' S :=
  fun k v hv hD => h k v (hsub k v hv hD) hD

/-- Writing a row, which is one of `S` if it is of the kind. -/
theorem From.insert (h : From key val D t S) {r : ρ} (hr : D (key r) (val r) → S r) :
    From key val D (Function.update t (key r) (some (val r))) S := by
  intro k v hv hD
  by_cases hk : k = key r
  · subst hk
    rw [Function.update_self, Option.some.injEq] at hv
    subst hv
    exact ⟨r, hr hD, rfl, rfl⟩
  · rw [Function.update_of_ne hk] at hv
    exact h k v hv hD

/-- Writing an entry of another kind. -/
theorem From.update_other (h : From key val D t S) {k₀ : κ} {v₀ : β} (hD : ¬ D k₀ v₀) :
    From key val D (Function.update t k₀ (some v₀)) S := by
  refine h.mono fun k v hv hkind => ?_
  by_cases hk : k = k₀
  · subst hk
    rw [Function.update_self, Option.some.injEq] at hv
    subst hv
    exact absurd hkind hD
  · rwa [Function.update_of_ne hk] at hv

/-- Deleting an entry. -/
theorem From.erase (h : From key val D t S) (k₀ : κ) :
    From key val D (Function.update t k₀ none) S := by
  refine h.mono fun k v hv _ => ?_
  by_cases hk : k = k₀
  · subst hk
    rw [Function.update_self] at hv
    cases hv
  · rwa [Function.update_of_ne hk] at hv

end Table
