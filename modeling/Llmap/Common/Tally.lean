import Mathlib.Algebra.BigOperators.Group.Finset.Basic
import Mathlib.Algebra.Order.Monoid.Canonical.Defs
import Mathlib.Data.Fintype.Basic
import Mathlib.Data.Fintype.BigOperators
import Llmap.Common.Run
/-!
# Counting over a family and along a run

`tally` counts the members of a finite family that have a value; moving
one member moves two counts by one. `Run.total` adds up what the steps of
a run cost, in any monoid of costs, and `Run.final_induct_total` is the
invariant rule for an invariant that speaks of the costs so far.
-/

namespace Llmap

section Tally

variable {ι κ : Type*} [Fintype ι] [DecidableEq κ]

/-- How many members of a family have the value `a`. -/
def tally (f : ι → κ) (a : κ) : ℕ := (Finset.univ.filter fun i => f i = a).card

theorem tally_eq_zero {f : ι → κ} {a : κ} (h : ∀ i, f i ≠ a) : tally f a = 0 := by
  rw [tally, Finset.card_eq_zero, Finset.filter_eq_empty_iff]
  exact fun i _ => h i

/-- **One member moves**: the count it leaves falls by one, and the count
it joins rises. -/
theorem tally_update [DecidableEq ι] (f : ι → κ) (i : ι) (b a : κ) :
    tally (Function.update f i b) a + (if f i = a then 1 else 0) =
      tally f a + if b = a then 1 else 0 := by
  have hi := Finset.mem_univ i
  have hrest : ∑ j ∈ Finset.univ.erase i, (if Function.update f i b j = a then 1 else 0) =
      ∑ j ∈ Finset.univ.erase i, if f j = a then 1 else 0 := by
    refine Finset.sum_congr rfl fun j hj => ?_
    rw [Function.update_of_ne (Finset.ne_of_mem_erase hj)]
  simp only [tally, Finset.card_filter]
  rw [← Finset.add_sum_erase _ _ hi, ← Finset.add_sum_erase _ _ hi, hrest, Function.update_self]
  omega

end Tally

namespace Run

variable {σ α M : Type*} [AddCommMonoid M] (step : σ → α → σ)

/-- What the actions of a run cost together. -/
def total (cost : σ → α → M) : σ → List α → M
  | _, [] => 0
  | s, act :: acts => cost s act + total cost (step s act) acts

variable {step} {s : σ} {acts : List α} {cost : σ → α → M}

/-- A run costs nothing just in case no step of it does. -/
theorem total_eq_zero_iff [PartialOrder M] [CanonicallyOrderedAdd M] :
    total step cost s acts = 0 ↔ Along step (fun s act => cost s act = 0) s acts := by
  induction acts generalizing s with
  | nil => simp [total, Along]
  | cons act acts ih => rw [total, add_eq_zero, ih, Along]

/-- **The invariant rule with costs.** -/
theorem final_induct_total {P : σ → α → Prop} {I : M → σ → Prop}
    (hstep : ∀ spent s act, I spent s → P s act → I (spent + cost s act) (step s act)) {spent : M}
    (hs : I spent s) (h : Along step P s acts) :
    I (spent + total step cost s acts) (final step s acts) := by
  induction acts generalizing s spent with
  | nil => simpa [total] using hs
  | cons act acts ih =>
      have hnext := ih (hstep spent s act hs h.1) h.2
      rwa [add_assoc] at hnext

end Run

end Llmap
