import Mathlib.Data.List.Basic

/-!
# Runs of a partial step function

A component whose parties interleave is described by a state, the actions that
can happen, and a partial function saying what each action does --- `none` when
the action is not enabled.  An interleaving is then just a list of actions, and
"in every interleaving" is a quantifier over lists.

This file has the run of such a step function and the rules used about it.  An
invariant that every enabled step keeps holds after every run; the general form lets
the step hypothesis use a property `Q` of the action and of the state the action
happens in, provided `Q` holds *along* the run ("no action of this kind occurs" is
the case where `Q` looks at the action only).  A list that every step extends by what
its action adds is extended by a run by what all its actions add.  The later rules are about
exact conditions, causes, progress and costs: when a property holds after every part of a run,
which action must be in the past of a state, how a measure leads to a goal, and how a potential
bounds what the steps of a run cost.
-/

namespace Run

variable {σ α β : Type*}

/-- The state after a list of actions, `none` if one of them was not enabled. -/
def run (step : σ → α → Option σ) (s : σ) : List α → Option σ
  | [] => some s
  | a :: as => (step s a).bind fun t => run step t as

/-- `Q` holds of every action of the list in the state it happens in. -/
def Along (step : σ → α → Option σ) (Q : σ → α → Prop) (s : σ) : List α → Prop
  | [] => True
  | a :: as => Q s a ∧ ∀ t ∈ step s a, Along step Q t as

instance decidableAlong (step : σ → α → Option σ) (Q : σ → α → Prop)
    [∀ s a, Decidable (Q s a)] : (s : σ) → (as : List α) → Decidable (Along step Q s as)
  | _, [] => inferInstanceAs (Decidable True)
  | s, a :: as =>
    have := fun t => decidableAlong step Q t as
    inferInstanceAs (Decidable (Q s a ∧ ∀ t ∈ step s a, Along step Q t as))

variable {step : σ → α → Option σ}

@[simp] theorem run_nil (s : σ) : run step s [] = some s := rfl

theorem run_cons_eq_some {s u : σ} {a : α} {as : List α} :
    run step s (a :: as) = some u ↔ ∃ t, step s a = some t ∧ run step t as = some u := by
  simp [run, Option.bind_eq_some_iff]

theorem run_append_eq_some {s u : σ} {as bs : List α} :
    run step s (as ++ bs) = some u ↔ ∃ t, run step s as = some t ∧ run step t bs = some u := by
  induction as generalizing s with
  | nil => simp
  | cons a as ih =>
    rw [List.cons_append, run_cons_eq_some]
    simp only [ih, run_cons_eq_some]
    constructor
    · rintro ⟨t, ht, v, hv, hu⟩
      exact ⟨v, ⟨t, ht, hv⟩, hu⟩
    · rintro ⟨v, ⟨t, ht, hv⟩, hu⟩
      exact ⟨t, ht, v, hv, hu⟩

/-- A property of the actions alone holds along any run of such actions. -/
theorem along_of_forall {Q : α → Prop} {s : σ} {as : List α} (h : ∀ a ∈ as, Q a) :
    Along step (fun _ a => Q a) s as := by
  induction as generalizing s with
  | nil => trivial
  | cons a as ih =>
    exact ⟨h a List.mem_cons_self, fun t _ => ih fun b hb => h b (List.mem_cons_of_mem _ hb)⟩

theorem Along.and {Q R : σ → α → Prop} {s : σ} {as : List α} (hQ : Along step Q s as)
    (hR : Along step R s as) : Along step (fun s a => Q s a ∧ R s a) s as := by
  induction as generalizing s with
  | nil => trivial
  | cons a as ih => exact ⟨⟨hQ.1, hR.1⟩, fun t ht => ih (hQ.2 t ht) (hR.2 t ht)⟩

theorem along_append {Q : σ → α → Prop} {s : σ} {as bs : List α} :
    Along step Q s (as ++ bs) ↔
      Along step Q s as ∧ ∀ t, run step s as = some t → Along step Q t bs := by
  induction as generalizing s with
  | nil => simp [Along]
  | cons a as ih =>
    simp only [List.cons_append, Along, ih, run_cons_eq_some, Option.mem_def]
    constructor
    · rintro ⟨hQ, hrest⟩
      exact ⟨⟨hQ, fun t ht => (hrest t ht).1⟩, fun u ⟨t, ht, hu⟩ => (hrest t ht).2 u hu⟩
    · rintro ⟨⟨hQ, hrest⟩, hlast⟩
      exact ⟨hQ, fun t ht => ⟨hrest t ht, fun u hu => hlast u ⟨t, ht, hu⟩⟩⟩

/-- **The invariant rule.** -/
theorem run_invariant {P : σ → Prop} {Q : σ → α → Prop}
    (hstep : ∀ s a t, P s → Q s a → step s a = some t → P t) {s t : σ} {as : List α}
    (hs : P s) (hQ : Along step Q s as) (h : run step s as = some t) : P t := by
  induction as generalizing s with
  | nil =>
    rw [run_nil] at h
    exact Option.some.inj h ▸ hs
  | cons a as ih =>
    obtain ⟨m, hm, hrest⟩ := run_cons_eq_some.mp h
    exact ih (hstep s a m hs hQ.1 hm) (hQ.2 m hm) hrest

/-- The rule for an invariant that every step keeps. -/
theorem run_preserves {P : σ → Prop} (hstep : ∀ s a t, P s → step s a = some t → P t) {s t : σ}
    {as : List α} (hs : P s) (h : run step s as = some t) : P t :=
  run_invariant (Q := fun _ _ => True) (fun s a t hp _ hst => hstep s a t hp hst) hs
    (along_of_forall fun _ _ => trivial) h

/-- The rule for a history: what each step appends, a run appends in order. -/
theorem run_history {f : σ → List β} {g : α → Option β}
    (hstep : ∀ s a t, step s a = some t → f t = f s ++ (g a).toList) {s t : σ} {as : List α}
    (h : run step s as = some t) : f t = f s ++ as.filterMap g := by
  induction as generalizing s with
  | nil =>
    rw [run_nil] at h
    rw [Option.some.inj h, List.filterMap_nil, List.append_nil]
  | cons a as ih =>
    obtain ⟨m, hm, hrest⟩ := run_cons_eq_some.mp h
    rw [ih hrest, hstep s a m hm, List.filterMap_cons]
    cases g a with
    | none => simp
    | some b => simp

/-- **The rule for an exact condition.**  In a state that satisfies `P`, a step that is of
the kind `W` leads to a state that satisfies `A` exactly when `Q` holds of it, and then `P`
holds again.  Then `A` holds after every part of a run of such steps exactly when `Q` holds
along it. -/
theorem forall_prefix_iff_along {A P : σ → Prop} {W Q : σ → α → Prop}
    (hstep : ∀ s a t, P s → W s a → step s a = some t → (A t ↔ Q s a) ∧ (Q s a → P t))
    (hPA : ∀ s, P s → A s) {s u : σ} {as : List α} (hs : P s) (hW : Along step W s as)
    (h : run step s as = some u) :
    (∀ pre, pre <+: as → ∀ t, run step s pre = some t → A t) ↔ Along step Q s as := by
  induction as generalizing s with
  | nil =>
    refine ⟨fun _ => trivial, fun _ pre hpre t ht => ?_⟩
    rw [List.prefix_nil.mp hpre, run_nil] at ht
    exact Option.some.inj ht ▸ hPA s hs
  | cons a as ih =>
    obtain ⟨m, hm, hrest⟩ := run_cons_eq_some.mp h
    obtain ⟨hA, hP⟩ := hstep s a m hs hW.1 hm
    constructor
    · intro hall
      have hQ : Q s a := hA.mp (hall [a] ⟨as, rfl⟩ m (by simp [run, hm]))
      refine ⟨hQ, fun t ht => ?_⟩
      rw [hm, Option.mem_some] at ht
      subst ht
      refine (ih (hP hQ) (hW.2 m hm) hrest).mp fun pre hpre t ht => ?_
      exact hall (a :: pre) (List.prefix_cons_inj a |>.mpr hpre) t
        (run_cons_eq_some.mpr ⟨m, hm, ht⟩)
    · intro hQ pre hpre t ht
      cases pre with
      | nil =>
        rw [run_nil] at ht
        exact Option.some.inj ht ▸ hPA s hs
      | cons b pre =>
        obtain ⟨rfl, hpre'⟩ := List.cons_prefix_cons.mp hpre
        obtain ⟨m', hm', ht'⟩ := run_cons_eq_some.mp ht
        rw [hm] at hm'
        cases hm'
        exact (ih (hP hQ.1) (hW.2 m hm) hrest).mpr (hQ.2 m hm) pre hpre' t ht'

/-- The rule for a cause: what only one action can bring about has that action in its past. -/
theorem mem_of_run {F : σ → Prop} {a : α}
    (hstep : ∀ s b t, b ≠ a → ¬ F s → step s b = some t → ¬ F t) {s t : σ} {as : List α}
    (hs : ¬ F s) (h : run step s as = some t) (ht : F t) : a ∈ as := by
  by_contra hno
  refine run_invariant (P := fun u => ¬ F u) (Q := fun _ b => b ≠ a)
    (fun u b v hu hb hst => hstep u b v hb hu hst) hs (along_of_forall fun b hb heq => ?_) h ht
  exact hno (heq ▸ hb)

/-- **The rule for progress.**  If in every state that satisfies `P` the goal is reached, or
some action of the kind `K` is enabled and lowers a measure, then actions of that kind lead
to the goal. -/
theorem exists_run_of_measure {P Goal : σ → Prop} {K : α → Prop} (m : σ → Nat)
    (hstep : ∀ s, P s → Goal s ∨ ∃ a t, K a ∧ step s a = some t ∧ P t ∧ m t < m s) {s : σ}
    (hs : P s) : ∃ as t, (∀ a ∈ as, K a) ∧ run step s as = some t ∧ P t ∧ Goal t := by
  induction hm : m s using Nat.strongRecOn generalizing s with
  | ind n ih =>
    rcases hstep s hs with hgoal | ⟨a, u, ha, hu, hP, hlt⟩
    · exact ⟨[], s, by simp, rfl, hs, hgoal⟩
    · obtain ⟨as, t, has, hrun, ht⟩ := ih (m u) (hm ▸ hlt) hP rfl
      refine ⟨a :: as, t, ?_, run_cons_eq_some.mpr ⟨u, hu, hrun⟩, ht⟩
      intro b hb
      rcases List.mem_cons.mp hb with rfl | hb
      · exact ha
      · exact has b hb

/-- **The potential method.**  If every step of one kind costs a unit of a potential, and only
steps of another kind bring in some, at most `c` units each, then the steps of the first kind
in a run are bounded by the potential it starts with and what it brings in. -/
theorem run_potential {potential : σ → Nat} {p q : α → Bool} {c : Nat}
    (hstep : ∀ s a t, step s a = some t →
      potential t + (if p a then 1 else 0) ≤ potential s + if q a then c else 0)
    {s t : σ} {as : List α} (h : run step s as = some t) :
    potential t + as.countP p ≤ potential s + c * as.countP q := by
  induction as generalizing s with
  | nil =>
    rw [run_nil] at h
    rw [Option.some.inj h]
    exact Nat.le_refl _
  | cons a as ih =>
    obtain ⟨m, hm, hrest⟩ := run_cons_eq_some.mp h
    have hfirst := hstep s a m hm
    have hlater := ih hrest
    rw [List.countP_cons, List.countP_cons, Nat.mul_add]
    have hgrant : (if q a then c else 0) = c * if q a then 1 else 0 := by
      split
      · rw [Nat.mul_one]
      · rw [Nat.mul_zero]
    omega

end Run
