import Mathlib.Data.List.Basic
import Mathlib.Logic.Function.Basic

/-!
# Replaying a log of changes

A change sets one key of a map, to a value or to nothing.  A consumer that
receives changes one after another and applies each as it arrives holds the
*replay* of its log, and everything that can be asked about such a consumer is
answered by one fact: a key holds what the last change to it says
(`replay_apply`).

The point of stating it this way is that a log is then compared with another log
key by key.  A consumer that missed a stretch of the log is right about exactly
the keys that were dead at the end of that stretch or changed again afterwards
(`replay_append_eq_iff`).  A consumer that receives a stretch twice is right in the end,
although not on the way (`replay_overlap`).
-/

namespace Replay

variable {κ α : Type*} [DecidableEq κ]

/-- Apply one change: the key takes the value, `none` for a deletion. -/
def apply (m : κ → Option α) (c : κ × Option α) : κ → Option α :=
  Function.update m c.1 c.2

/-- Apply a log of changes, oldest first. -/
def replay (m : κ → Option α) (cs : List (κ × Option α)) : κ → Option α :=
  cs.foldl apply m

/-- What the last change to `k` in the log says, if the log changes `k` at all. -/
def lastWrite (k : κ) : List (κ × Option α) → Option (Option α)
  | [] => none
  | c :: cs => (lastWrite k cs).or (if c.1 = k then some c.2 else none)

@[simp] theorem replay_nil (m : κ → Option α) : replay m [] = m := rfl

@[simp] theorem replay_cons (m : κ → Option α) (c : κ × Option α)
    (cs : List (κ × Option α)) : replay m (c :: cs) = replay (apply m c) cs := rfl

theorem replay_append (m : κ → Option α) (cs ds : List (κ × Option α)) :
    replay m (cs ++ ds) = replay (replay m cs) ds :=
  List.foldl_append

@[simp] theorem lastWrite_nil (k : κ) :
    lastWrite k ([] : List (κ × Option α)) = none := rfl

theorem lastWrite_cons (k : κ) (c : κ × Option α) (cs : List (κ × Option α)) :
    lastWrite k (c :: cs) =
      (lastWrite k cs).or (if c.1 = k then some c.2 else none) := rfl

/-- A key is changed by the log exactly when the log names it. -/
theorem lastWrite_eq_none_iff {k : κ} {cs : List (κ × Option α)} :
    lastWrite k cs = none ↔ k ∉ cs.map Prod.fst := by
  induction cs with
  | nil => simp
  | cons c cs ih =>
    rw [lastWrite_cons, Option.or_eq_none_iff, ih, List.map_cons, List.mem_cons, not_or,
      ite_eq_right_iff]
    constructor
    · rintro ⟨h, hc⟩
      exact ⟨fun hk => absurd (hc hk.symm) (by simp), h⟩
    · rintro ⟨hk, h⟩
      exact ⟨h, fun hc => absurd hc.symm hk⟩

/-- **A key holds what the last change to it says**, and what it held before if
there is no such change. -/
theorem replay_apply (m : κ → Option α) (cs : List (κ × Option α)) (k : κ) :
    replay m cs k = (lastWrite k cs).getD (m k) := by
  induction cs generalizing m with
  | nil => rfl
  | cons c cs ih =>
    rw [replay_cons, ih, lastWrite_cons, apply]
    cases lastWrite k cs with
    | some v => rfl
    | none =>
      by_cases hc : c.1 = k
      · subst hc
        simp
      · have hk : k ≠ c.1 := fun h => hc h.symm
        simp [hc, hk]

/-- A key the log never names keeps its value. -/
theorem replay_of_notMem {m : κ → Option α} {cs : List (κ × Option α)} {k : κ}
    (h : k ∉ cs.map Prod.fst) : replay m cs k = m k := by
  rw [replay_apply, lastWrite_eq_none_iff.mpr h]
  rfl

/-- A key the log names forgets its value from before. -/
theorem replay_eq_of_mem {m m' : κ → Option α} {cs : List (κ × Option α)} {k : κ}
    (h : k ∈ cs.map Prod.fst) : replay m cs k = replay m' cs k := by
  rw [replay_apply, replay_apply]
  cases hw : lastWrite k cs with
  | some v => rfl
  | none => exact absurd h (lastWrite_eq_none_iff.mp hw)

/-- What a log says about a key is one of its changes. -/
theorem mem_of_lastWrite {k : κ} {cs : List (κ × Option α)} {v : Option α}
    (h : lastWrite k cs = some v) : (k, v) ∈ cs := by
  induction cs with
  | nil => simp at h
  | cons c cs ih =>
    rw [lastWrite_cons, Option.or_eq_some_iff] at h
    rcases h with h | ⟨-, h⟩
    · exact List.mem_cons_of_mem _ (ih h)
    · have hc : c.1 = k ∧ c.2 = v := by simpa using h
      obtain ⟨rfl, rfl⟩ := hc
      exact List.mem_cons_self

/-- After a log that only sets values, the keys held are those it names and those
held before. -/
theorem replay_sets_ne_none {m : κ → Option α} {cs : List (κ × Option α)}
    (h : ∀ c ∈ cs, c.2 ≠ none) (k : κ) :
    replay m cs k ≠ none ↔ k ∈ cs.map Prod.fst ∨ m k ≠ none := by
  rw [replay_apply]
  cases hw : lastWrite k cs with
  | none => simp [lastWrite_eq_none_iff.mp hw]
  | some v =>
    have hmem := mem_of_lastWrite hw
    have hk : k ∈ cs.map Prod.fst := List.mem_map_of_mem hmem
    simp [h _ hmem, hk]

/-- After a log that only deletes, the keys it names are gone and the others are as
before. -/
theorem replay_deletes {m : κ → Option α} {cs : List (κ × Option α)}
    (h : ∀ c ∈ cs, c.2 = none) (k : κ) :
    replay m cs k = if k ∈ cs.map Prod.fst then none else m k := by
  split
  · rename_i hk
    rw [replay_apply]
    cases hw : lastWrite k cs with
    | none => exact absurd hk (lastWrite_eq_none_iff.mp hw)
    | some v => exact h _ (mem_of_lastWrite hw)
  · rename_i hk
    exact replay_of_notMem hk

/-- After a log that only deletes, the keys held are those held before that it
does not name. -/
theorem replay_deletes_ne_none {m : κ → Option α} {cs : List (κ × Option α)}
    (h : ∀ c ∈ cs, c.2 = none) (k : κ) :
    replay m cs k ≠ none ↔ k ∉ cs.map Prod.fst ∧ m k ≠ none := by
  rw [replay_deletes h]
  split
  · rename_i hk
    simp [hk]
  · rename_i hk
    simp [hk]

/-- **Missing the older part of a log.**  Replaying `ds` alone gives the same map
as replaying `cs ++ ds` exactly when every key that `cs` leaves alive is changed
again by `ds`. -/
theorem replay_append_eq_iff (cs ds : List (κ × Option α)) :
    (∀ k, replay (fun _ => none) ds k = replay (fun _ => none) (cs ++ ds) k) ↔
      ∀ k, replay (fun _ => none) cs k ≠ none → k ∈ ds.map Prod.fst := by
  refine forall_congr' fun k => ?_
  rw [replay_append]
  by_cases hk : k ∈ ds.map Prod.fst
  · have hsame : replay (fun _ => none) ds k = replay (replay (fun _ => none) cs) ds k :=
      replay_eq_of_mem hk
    simp [hk, hsame]
  · rw [replay_of_notMem hk, replay_of_notMem hk]
    simp only [hk, imp_false, not_not]
    exact eq_comm

/-- **Replaying a stretch of a log twice.**  The second time the stretch is applied to a
later state than it was written for, but it names every key that it may set back, and so
does what follows. -/
theorem replay_overlap (m : κ → Option α) (cs ds es : List (κ × Option α)) :
    replay (replay m (cs ++ ds)) (ds ++ es) = replay m (cs ++ ds ++ es) := by
  funext k
  rw [List.append_assoc, replay_append m cs (ds ++ es)]
  by_cases hk : k ∈ (ds ++ es).map Prod.fst
  · exact replay_eq_of_mem hk
  · have hds : k ∉ ds.map Prod.fst := by
      intro hmem
      exact hk (by rw [List.map_append]; exact List.mem_append_left _ hmem)
    rw [replay_of_notMem hk, replay_of_notMem hk, replay_append, replay_of_notMem hds]

end Replay
