import Flannel.Lib.SortedMap

/-!
# Records decoded from key-value pairs

A decoder goes through pairs one after another.  A key that names a field sets it from the value,
and a key that names none is skipped.  Several keys may name one field, so that a field ends with
the value of the last pair that names it (`decode_mk`).

A decoder that is handed the ordered map of the pairs, and not the pairs, goes through the keys in
ascending order.  Then a field ends with the value of the greatest key that names it, and the two
differ exactly if a field is overtaken (`decode_ofPairs_iff`).
-/

namespace Fields

variable {κ ν φ ρ ε : Type*} {β : φ → Type*}

/-- Decode pairs one after another. -/
def decode (fieldOf : κ → Option φ) (assign : ρ → φ → ν → Except ε ρ) (r : ρ) :
    List (κ × ν) → Except ε ρ
  | [] => .ok r
  | (k, v) :: pairs =>
    match fieldOf k with
    | none => decode fieldOf assign r pairs
    | some f =>
      match assign r f v with
      | .error e => .error e
      | .ok r' => decode fieldOf assign r' pairs

/-- The value of the last pair whose key names a field. -/
def last (names : φ → κ → Bool) (pairs : List (κ × ν)) (f : φ) : Option ν :=
  (SortedMap.lastPair (names f) pairs).map Prod.snd

/-- What the last pair whose key names a field says, or else the default. -/
def values (names : φ → κ → Bool) (read : ∀ f, ν → Option (β f)) (default : ∀ f, β f)
    (pairs : List (κ × ν)) (f : φ) : β f :=
  ((last names pairs f).bind (read f)).getD (default f)

/-- Every value can be read as the fields that its key names. -/
def Typed (names : φ → κ → Bool) (read : ∀ f, ν → Option (β f)) (pairs : List (κ × ν)) : Prop :=
  ∀ e ∈ pairs, ∀ f, names f e.1 = true → (read f e.2).isSome = true

theorem typed_of_mem {names : φ → κ → Bool} {read : ∀ f, ν → Option (β f)} {pairs : List (κ × ν)}
    {fields : List φ} (hmem : ∀ f, f ∈ fields)
    (h : ∀ e ∈ pairs, ∀ f ∈ fields, names f e.1 = true → (read f e.2).isSome = true) :
    Typed names read pairs :=
  fun e he f => h e he f (hmem f)

theorem last_cons (names : φ → κ → Bool) (k : κ) (v : ν) (pairs : List (κ × ν)) (f : φ) :
    last names ((k, v) :: pairs) f =
      (last names pairs f).or (if names f k then some v else none) := by
  unfold last
  rw [SortedMap.lastPair_cons]
  cases SortedMap.lastPair (names f) pairs with
  | some e => rfl
  | none =>
    by_cases hk : names f k = true
    · simp [hk]
    · simp [hk]

variable {names : φ → κ → Bool} {read : ∀ f, ν → Option (β f)} {default : ∀ f, β f}
  {pairs : List (κ × ν)}

theorem Typed.exists_read (h : Typed names read pairs) {f : φ} {v : ν}
    (hv : last names pairs f = some v) : ∃ y, read f v = some y := by
  obtain ⟨e, he, rfl⟩ := Option.map_eq_some_iff.mp hv
  obtain ⟨hmem, hf⟩ := SortedMap.mem_of_lastPair he
  exact Option.isSome_iff_exists.mp (h e hmem f hf)

/-- A pair in front gives a field that it names its default. -/
theorem values_cons_of_names {k : κ} {v : ν} {f : φ} {y : β f} (hk : names f k = true)
    (hy : read f v = some y) (hpairs : Typed names read pairs) :
    values names read default ((k, v) :: pairs) f =
      ((last names pairs f).bind (read f)).getD y := by
  rw [values, last_cons, if_pos hk]
  cases hlast : last names pairs f with
  | none => simp [hy]
  | some w =>
    obtain ⟨z, hz⟩ := hpairs.exists_read hlast
    simp [hz]

theorem values_cons_of_not_names {k : κ} {v : ν} {f : φ} (hk : names f k = false) :
    values names read default ((k, v) :: pairs) f = values names read default pairs f := by
  rw [values, last_cons, hk, values]
  simp

/-! ## What decoding gives -/

section Decode

variable [DecidableEq φ] {fieldOf : κ → Option φ} {assign : ρ → φ → ν → Except ε ρ}
  {mk : (∀ f, β f) → ρ}

/-- A value that can be read sets the field that its key names, and no other. -/
structure Assigns (fieldOf : κ → Option φ) (assign : ρ → φ → ν → Except ε ρ)
    (names : φ → κ → Bool) (read : ∀ f, ν → Option (β f)) (mk : (∀ f, β f) → ρ) : Prop where
  fieldOf_iff : ∀ k f, fieldOf k = some f ↔ names f k = true
  assign_mk : ∀ x f v y, read f v = some y → assign (mk x) f v = .ok (mk (Function.update x f y))

theorem Assigns.names_eq_false (h : Assigns fieldOf assign names read mk) {k : κ} {f : φ}
    (hk : fieldOf k ≠ some f) : names f k = false := by
  rwa [Bool.eq_false_iff, Ne, ← h.fieldOf_iff]

/-- **Decoding takes for each field the last pair that names it.** -/
theorem decode_mk (h : Assigns fieldOf assign names read mk) (hpairs : Typed names read pairs)
    (default : ∀ f, β f) :
    decode fieldOf assign (mk default) pairs = .ok (mk (values names read default pairs)) := by
  induction pairs generalizing default with
  | nil => rfl
  | cons e pairs ih =>
    obtain ⟨k, v⟩ := e
    obtain ⟨hv, hpairs⟩ := List.forall_mem_cons.mp hpairs
    rw [decode]
    cases hk : fieldOf k with
    | none =>
      have hvalues : values names read default ((k, v) :: pairs) =
          values names read default pairs := by
        ext f
        exact values_cons_of_not_names (h.names_eq_false (by rw [hk]; exact nofun))
      rw [hvalues]
      exact ih hpairs default
    | some f =>
      have hf : names f k = true := (h.fieldOf_iff k f).mp hk
      obtain ⟨y, hy⟩ := Option.isSome_iff_exists.mp (hv f hf)
      have hvalues : values names read default ((k, v) :: pairs) =
          values names read (Function.update default f y) pairs := by
        ext f'
        by_cases hf' : f' = f
        · subst hf'
          rw [values_cons_of_names hf hy hpairs, values, Function.update_self]
        · have hother : fieldOf k ≠ some f' := by
            rw [hk]
            exact fun heq => hf' (Option.some.inj heq).symm
          rw [values_cons_of_not_names (h.names_eq_false hother), values, values,
            Function.update_of_ne hf']
      dsimp only
      rw [h.assign_mk default f v y hy, hvalues]
      exact ih hpairs _

end Decode

/-! ## Decoding the ordered map of the pairs -/

variable [LinearOrder κ]

/-- Of the keys that name a field, the greatest is greater than that of the last pair, and its
value reads differently. -/
def Overtaken (names : φ → κ → Bool) (read : ∀ f, ν → Option (β f)) (pairs : List (κ × ν)) :
    Prop :=
  ∃ f e e', SortedMap.lastPair (names f) pairs = some e ∧
    SortedMap.Topmost (names f) pairs e' ∧ e.1 < e'.1 ∧ read f e.2 ≠ read f e'.2

theorem Typed.ofPairs (h : Typed names read pairs) :
    Typed names read (SortedMap.ofPairs pairs) :=
  fun e he => h e (SortedMap.mem_of_mem_ofPairs he)

/-- The values in the order of the keys and in the order of the document differ if the field is
overtaken. -/
theorem values_ofPairs_ne {f : φ} {e e' : κ × ν} (hpairs : Typed names read pairs)
    (hlast : SortedMap.lastPair (names f) pairs = some e)
    (htop : SortedMap.Topmost (names f) pairs e') (hother : read f e.2 ≠ read f e'.2) :
    values names read default (SortedMap.ofPairs pairs) f ≠ values names read default pairs f := by
  have hv : last names pairs f = some e.2 := congrArg (Option.map Prod.snd) hlast
  have hv' : last names (SortedMap.ofPairs pairs) f = some e'.2 :=
    congrArg (Option.map Prod.snd) (SortedMap.lastPair_ofPairs_iff.mpr htop)
  obtain ⟨y, hy⟩ := hpairs.exists_read hv
  obtain ⟨y', hy'⟩ := hpairs.ofPairs.exists_read hv'
  rw [values, values, hv, hv', Option.bind_some, Option.bind_some, hy, hy']
  rintro rfl
  exact hother (hy.trans hy'.symm)

theorem values_ofPairs_of_not_overtaken (h : ¬ Overtaken names read pairs) (f : φ) :
    values names read default (SortedMap.ofPairs pairs) f = values names read default pairs f := by
  unfold values last
  cases hlast' : SortedMap.lastPair (names f) (SortedMap.ofPairs pairs) with
  | none => rw [SortedMap.lastPair_ofPairs_eq_none_iff.mp hlast']
  | some e' =>
    have htop := SortedMap.lastPair_ofPairs_iff.mp hlast'
    cases hlast : SortedMap.lastPair (names f) pairs with
    | none =>
      rw [SortedMap.lastPair_ofPairs_eq_none_iff.mpr hlast] at hlast'
      cases hlast'
    | some e =>
      obtain ⟨hmem, hf⟩ := SortedMap.mem_of_lastPair hlast
      have hread : read f e.2 = read f e'.2 := by
        rcases (htop.le e hmem hf).lt_or_eq with hlt | hkey
        · by_contra hother
          exact h ⟨f, e, e', hlast, htop, hlt, hother⟩
        · have hvalue : some e.2 = some e'.2 := by
            rw [← SortedMap.lastValue_of_lastPair hlast, hkey, htop.last]
          rw [Option.some.inj hvalue]
      exact congrArg (Option.getD · (default f)) hread.symm

/-- A document in the order of its keys overtakes none of its fields. -/
theorem not_overtaken_of_sorted (h : SortedMap.Sorted pairs) : ¬ Overtaken names read pairs := by
  rintro ⟨f, e, e', hlast, htop, hlt, -⟩
  have hmem : e' ∈ pairs := SortedMap.mem_of_mem_ofPairs (SortedMap.mem_ofPairs_iff.mpr htop.last)
  exact absurd hlt (not_lt.mpr (SortedMap.le_of_lastPair h hlast hmem htop.passes))

/-- **Decoding the ordered map gives the last values of the document exactly if no field is
overtaken.** -/
theorem decode_ofPairs_iff [DecidableEq φ] {fieldOf : κ → Option φ}
    {assign : ρ → φ → ν → Except ε ρ} {mk : (∀ f, β f) → ρ}
    (h : Assigns fieldOf assign names read mk) (hinj : Function.Injective mk)
    (hpairs : Typed names read pairs) (default : ∀ f, β f) :
    decode fieldOf assign (mk default) (SortedMap.ofPairs pairs) =
      .ok (mk (values names read default pairs)) ↔ ¬ Overtaken names read pairs := by
  rw [decode_mk h hpairs.ofPairs, Except.ok.injEq, hinj.eq_iff]
  constructor
  · rintro heq ⟨f, e, e', hlast, htop, -, hother⟩
    exact values_ofPairs_ne hpairs hlast htop hother (congrFun heq f)
  · exact fun hnot => funext (values_ofPairs_of_not_overtaken hnot)

end Fields
