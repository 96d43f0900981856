import Mathlib.Data.List.Infix
/-!
# Runs of a step function

A machine is a step function `step : σ → α → σ`; a run is the list of the
actions it takes. `Along` says that a condition held at every step, and
`final_induct` is the one induction over runs: what holds at the start
and is kept by every step meeting the condition holds at the end.
-/

namespace Llmap

namespace Run

variable {σ α : Type*} (step : σ → α → σ)

/-- The state a run leads to. -/
def final (s : σ) (acts : List α) : σ := acts.foldl step s

/-- `P` holds of every action of a run, at the state it is taken in. -/
def Along (P : σ → α → Prop) : σ → List α → Prop
  | _, [] => True
  | s, act :: acts => P s act ∧ Along P (step s act) acts

variable {step} {s : σ} {acts : List α}

@[simp] theorem final_nil : final step s [] = s := rfl

@[simp] theorem final_cons {act : α} : final step s (act :: acts) = final step (step s act) acts :=
  rfl

theorem final_append {acts' : List α} :
    final step s (acts ++ acts') = final step (final step s acts) acts' :=
  List.foldl_append

theorem along_append {P : σ → α → Prop} {acts' : List α} :
    Along step P s (acts ++ acts') ↔
      Along step P s acts ∧ Along step P (final step s acts) acts' := by
  induction acts generalizing s with
  | nil => simp [Along]
  | cons act acts ih => simp [Along, ih, and_assoc]

instance Along.decidable {P : σ → α → Prop} [∀ s act, Decidable (P s act)] :
    (s : σ) → (acts : List α) → Decidable (Along step P s acts)
  | _, [] => .isTrue trivial
  | s, act :: acts =>
      @instDecidableAnd (P s act) (Along step P (step s act) acts) _
        (Along.decidable (step s act) acts)

theorem along_of_forall {P : σ → α → Prop} (h : ∀ s act, P s act) : Along step P s acts := by
  induction acts generalizing s with
  | nil => trivial
  | cons act acts ih => exact ⟨h s act, ih⟩

theorem along_and {P Q : σ → α → Prop} :
    Along step (fun s act => P s act ∧ Q s act) s acts ↔
      Along step P s acts ∧ Along step Q s acts := by
  induction acts generalizing s with
  | nil => simp [Along]
  | cons act acts ih =>
      rw [Along, Along, Along, ih]
      exact and_and_and_comm

/-- A condition is met along a run when every action of it meets the
condition, where the actions before it lead. -/
theorem along_iff {P : σ → α → Prop} :
    Along step P s acts ↔
      ∀ before act, before ++ [act] <+: acts → P (final step s before) act := by
  induction acts generalizing s with
  | nil => simp [Along]
  | cons act acts ih =>
      rw [Along, ih]
      constructor
      · rintro ⟨hfirst, hrest⟩ before act' hprefix
        cases before with
        | nil =>
            obtain ⟨rfl, -⟩ := List.cons_prefix_cons.mp hprefix
            exact hfirst
        | cons first before =>
            obtain ⟨rfl, hrun⟩ := List.cons_prefix_cons.mp hprefix
            exact hrest before act' hrun
      · intro hall
        refine ⟨hall [] act (by simp), fun before act' hprefix => ?_⟩
        exact hall (act :: before) act' ((List.prefix_cons_inj act).mpr hprefix)

/-- A condition met along a run is met along every prefix of it. -/
theorem Along.of_prefix {P : σ → α → Prop} {acts' : List α} (h : Along step P s acts')
    (hp : acts <+: acts') : Along step P s acts := by
  obtain ⟨rest, rfl⟩ := hp
  exact (along_append.mp h).1

/-- **The invariant rule.** What holds at the start and is kept by every
step that meets the condition holds at the end of a run whose steps all
meet it. -/
theorem final_induct {P : σ → α → Prop} {I : σ → Prop}
    (hstep : ∀ s act, I s → P s act → I (step s act)) (hs : I s) (h : Along step P s acts) :
    I (final step s acts) := by
  induction acts generalizing s with
  | nil => exact hs
  | cons act acts ih => exact ih (hstep s act hs h.1) h.2

/-- The rule for an invariant every step keeps. -/
theorem final_induct_of_step {I : σ → Prop} (hstep : ∀ s act, I s → I (step s act)) (hs : I s) :
    I (final step s acts) := by
  induction acts generalizing s with
  | nil => exact hs
  | cons act acts ih => exact ih (hstep s act hs)

/-- **The exact condition.** When a step keeps the invariant just in
case it meets the condition, the invariant holds throughout a run just in
case every step of the run meets it. -/
theorem always_iff_along {P Q : σ → α → Prop} {I : σ → Prop}
    (hstep : ∀ s act, I s → Q s act → (I (step s act) ↔ P s act)) (hs : I s)
    (h : Along step Q s acts) :
    (∀ before, before <+: acts → I (final step s before)) ↔ Along step P s acts := by
  induction acts generalizing s with
  | nil => simpa [Along] using hs
  | cons act acts ih =>
      simp only [Along, ← hstep s act hs h.1]
      constructor
      · intro halways
        have hnext : I (step s act) := halways [act] (by simp)
        refine ⟨hnext, (ih hnext h.2).mp fun before hb => ?_⟩
        exact halways (act :: before) ((List.prefix_cons_inj act).mpr hb)
      · rintro ⟨hnext, hrest⟩ before hb
        cases before with
        | nil => exact hs
        | cons first before =>
            obtain ⟨rfl, hrun⟩ := List.cons_prefix_cons.mp hb
            exact (ih hnext h.2).mpr hrest before hrun

end Run

end Llmap
