/-!
# Computations that can fail

When a computation in `Except` succeeds.  A function of the source that returns early
with `?` becomes a chain of binds, and these lemmas peel such a chain apart from the
front: each step succeeded, and the rest succeeded on its value.  A loop in `Option` succeeds
if every round does, and where a round's success does not depend on the rounds before it, that
is a condition on the elements.
-/

namespace Results

variable {ε ε' α β : Type _}

theorem bind_ok_iff {x : Except ε α} {f : α → Except ε β} {b : β} :
    (x >>= f) = .ok b ↔ ∃ a, x = .ok a ∧ f a = .ok b := by
  cases x with
  | error e => simp [bind, Except.bind]
  | ok a => simp [bind, Except.bind]

theorem map_ok_iff {x : Except ε α} {f : α → β} {b : β} :
    x.map f = .ok b ↔ ∃ a, x = .ok a ∧ f a = b := by
  cases x with
  | error e => simp [Except.map]
  | ok a => simp [Except.map]

theorem exists_map_ok_iff {x : Except ε α} {f : α → β} :
    (∃ b, x.map f = .ok b) ↔ ∃ a, x = .ok a := by
  cases x with
  | error e => simp [Except.map]
  | ok a => simp [Except.map]

theorem mapError_ok_iff {x : Except ε α} {f : ε → ε'} {a : α} :
    x.mapError f = .ok a ↔ x = .ok a := by
  cases x with
  | error e =>
    constructor
    · intro h
      cases h
    · intro h
      cases h
  | ok b =>
    constructor
    · intro h
      cases h
      rfl
    · intro h
      cases h
      rfl

theorem toOption_eq_some_iff {x : Except ε α} {a : α} : x.toOption = some a ↔ x = .ok a := by
  cases x with
  | error e => simp [Except.toOption]
  | ok b => simp [Except.toOption]

/-! ## Loops -/

theorem bind_pure_isSome {x : Option α} {f : α → β} :
    (x >>= fun a => pure (f a)).isSome = x.isSome := by
  cases x with
  | none => rfl
  | some a => rfl

theorem foldlM_isSome_iff {f : β → α → Option β} {P : α → Prop}
    (h : ∀ b a, (f b a).isSome = true ↔ P a) (b : β) (as : List α) :
    (as.foldlM f b).isSome = true ↔ ∀ a ∈ as, P a := by
  induction as generalizing b with
  | nil => simp
  | cons a as ih =>
    rw [List.foldlM_cons, List.forall_mem_cons, ← h b a]
    cases f b a with
    | none => simp
    | some b' => simp [ih b']

theorem mapM_isSome_iff {f : α → Option β} (as : List α) :
    (as.mapM f).isSome = true ↔ ∀ a ∈ as, (f a).isSome = true := by
  induction as with
  | nil => simp
  | cons a as ih =>
    rw [List.mapM_cons, List.forall_mem_cons, ← ih]
    cases f a with
    | none => simp
    | some b => cases as.mapM f <;> simp

theorem mapM_eq_some {f : α → Option β} {g : α → β} {as : List α}
    (h : ∀ a ∈ as, f a = some (g a)) : as.mapM f = some (as.map g) := by
  induction as with
  | nil => rfl
  | cons a as ih =>
    rw [List.forall_mem_cons] at h
    rw [List.mapM_cons, h.1, ih h.2]
    rfl

end Results
