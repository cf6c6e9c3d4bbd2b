import Mathlib.Data.List.Basic

/-!
# Lines of a stream that arrives in chunks

A reader of lines keeps in a buffer what it has read of an unfinished line.  After another
chunk it takes the lines that are now complete out of the buffer.  Where the chunks end
makes no difference for the lines (`completeLines_append`), only for when they are taken.

What is done with the lines can fail.  A reader that handles one line after the other keeps
what came before the first failure (`untilError`); one that handles a batch of lines at once
has only the failure to show for it (`allOrError`).  So the two agree on a batch exactly if
nothing in it fails, or nothing comes before the failure.
-/

namespace Framing

/-! ## Lines -/

section Lines

variable {β : Type} [DecidableEq β] {sep : β}

/-- The complete lines of a stream, without the separators that end them, and the rest. -/
def completeLines (sep : β) : List β → List (List β) × List β
  | [] => ([], [])
  | b :: bs =>
    if b = sep then ([] :: (completeLines sep bs).1, (completeLines sep bs).2)
    else
      match completeLines sep bs with
      | ([], rest) => ([], b :: rest)
      | (line :: lines, rest) => ((b :: line) :: lines, rest)

/-- **Lines do not depend on chunks.**  What stays in the buffer is completed by what comes
next. -/
theorem completeLines_append (sep : β) (bs cs : List β) :
    completeLines sep (bs ++ cs) =
      ((completeLines sep bs).1 ++ (completeLines sep ((completeLines sep bs).2 ++ cs)).1,
        (completeLines sep ((completeLines sep bs).2 ++ cs)).2) := by
  induction bs with
  | nil => rfl
  | cons b bs ih =>
    rw [List.cons_append, completeLines, completeLines, ih]
    by_cases hb : b = sep
    · rw [if_pos hb, if_pos hb]
      rfl
    · rw [if_neg hb, if_neg hb]
      match completeLines sep bs with
      | ([], rest) => simp only [List.nil_append, List.cons_append, completeLines, if_neg hb]
      | (line :: lines, rest) => rfl

/-- What stays in the buffer has no complete line. -/
theorem completeLines_rest (sep : β) (bs : List β) :
    completeLines sep (completeLines sep bs).2 = ([], (completeLines sep bs).2) := by
  induction bs with
  | nil => rfl
  | cons b bs ih =>
    rw [completeLines]
    by_cases hb : b = sep
    · rw [if_pos hb]
      exact ih
    · rw [if_neg hb]
      match hbs : completeLines sep bs with
      | ([], rest) =>
        rw [hbs] at ih
        dsimp only at ih ⊢
        rw [completeLines, if_neg hb, ih]
      | (line :: lines, rest) =>
        rw [hbs] at ih
        exact ih

/-- The first line of a text. -/
theorem completeLines_line {line : List β} (h : sep ∉ line) (rest : List β) :
    completeLines sep (line ++ sep :: rest) =
      (line :: (completeLines sep rest).1, (completeLines sep rest).2) := by
  induction line with
  | nil => rw [List.nil_append, completeLines, if_pos rfl]
  | cons b line ih =>
    rw [List.mem_cons, not_or] at h
    rw [List.cons_append, completeLines, if_neg (Ne.symm h.1), ih h.2]

end Lines

/-! ## Failures -/

section Failures

variable {ε α : Type}

/-- What comes before the first failure, and the failure. -/
def untilError : List (Except ε α) → List α × Option ε
  | [] => ([], none)
  | .error e :: _ => ([], some e)
  | .ok a :: rs => (a :: (untilError rs).1, (untilError rs).2)

/-- All results, or the first failure. -/
def allOrError : List (Except ε α) → Except ε (List α)
  | [] => .ok []
  | .error e :: _ => .error e
  | .ok a :: rs => (allOrError rs).map (a :: ·)

theorem mem_of_allOrError {rs : List (Except ε α)} {as : List α} (h : allOrError rs = .ok as)
    {a : α} (ha : a ∈ as) : .ok a ∈ rs := by
  induction rs generalizing as with
  | nil =>
    cases h
    cases ha
  | cons r rs ih =>
    cases r with
    | error e => cases h
    | ok b =>
      rw [allOrError] at h
      cases hrs : allOrError rs with
      | error e =>
        rw [hrs] at h
        cases h
      | ok bs =>
        rw [hrs] at h
        cases h
        rcases List.mem_cons.mp ha with rfl | ha
        · exact List.mem_cons_self
        · exact List.mem_cons_of_mem _ (ih hrs ha)

theorem allOrError_map_ok (as : List α) :
    allOrError (as.map (.ok : α → Except ε α)) = .ok as := by
  induction as with
  | nil => rfl
  | cons a as ih =>
    rw [List.map_cons, allOrError, ih]
    rfl

theorem allOrError_eq (rs : List (Except ε α)) :
    allOrError rs =
      match untilError rs with
      | (as, none) => .ok as
      | (_, some e) => .error e := by
  induction rs with
  | nil => rfl
  | cons r rs ih =>
    cases r with
    | error e => rfl
    | ok a =>
      rw [allOrError, untilError, ih]
      match untilError rs with
      | (as, none) => rfl
      | (as, some e) => rfl

theorem untilError_append (rs rs' : List (Except ε α)) :
    untilError (rs ++ rs') =
      match untilError rs with
      | (as, none) => (as ++ (untilError rs').1, (untilError rs').2)
      | (as, some e) => (as, some e) := by
  induction rs with
  | nil => rfl
  | cons r rs ih =>
    cases r with
    | error e => rfl
    | ok a =>
      rw [List.cons_append, untilError, untilError, ih]
      match untilError rs with
      | (as, none) => rfl
      | (as, some e) => rfl

/-- Nothing fails, or the very first does. -/
def FailsFirst (rs : List (Except ε α)) : Prop :=
  (∀ r ∈ rs, ∃ a, r = .ok a) ∨ ∃ e rest, rs = .error e :: rest

theorem untilError_snd_eq_none_iff {rs : List (Except ε α)} :
    (untilError rs).2 = none ↔ ∀ r ∈ rs, ∃ a, r = .ok a := by
  induction rs with
  | nil => simp [untilError]
  | cons r rs ih =>
    cases r with
    | error e => simp [untilError]
    | ok a => simp [untilError, ih]

theorem failsFirst_iff {rs : List (Except ε α)} :
    FailsFirst rs ↔ (untilError rs).2 = none ∨ (untilError rs).1 = [] := by
  rw [FailsFirst, untilError_snd_eq_none_iff]
  refine or_congr_right' fun hfails => ?_
  cases rs with
  | nil => exact absurd (fun r hr => absurd hr List.not_mem_nil) hfails
  | cons r rs =>
    cases r with
    | error e => simp [untilError]
    | ok a => simp [untilError]

end Failures

end Framing
