import Mathlib.Algebra.BigOperators.Ring.Finset
import Mathlib.Algebra.Order.BigOperators.Group.Finset
import Mathlib.Tactic.Abel
import Llmap.Common.Journal
/-!
# Ledgers

Calls have weights, and what a program has called so far weighs something:
what it has put down and not taken back, say. A program keeps to limits
(`Prog.Keeps`) if that is within them at every call, and as it should be at
the end. One that goes by a memory does so if the memory says how much it is:
the weights are then the differences of a potential (`Prog.Keeps.of_follows`).

The journal of a pool weighs what its programs have called, each by itself
(`Pool.weigh_journal`), whatever the interleaving.
-/

namespace Llmap

variable {O : Type} {Resp : O → Type} {M : Type} [AddCommMonoid M] {w : O → M}

/-- What calls weigh together. -/
def weigh (w : O → M) (past : List ((o : O) × Resp o)) : M := (past.map fun event => w event.1).sum

@[simp] theorem weigh_nil : weigh w ([] : List ((o : O) × Resp o)) = 0 := rfl

@[simp] theorem weigh_cons (event : (o : O) × Resp o) (past : List ((o : O) × Resp o)) :
    weigh w (event :: past) = w event.1 + weigh w past := rfl

/-- What is weighed less what is weighed. -/
theorem weigh_sub {M : Type} [AddCommGroup M] {w w' : O → M} (past : List ((o : O) × Resp o)) :
    weigh (fun o => w o - w' o) past = weigh w past - weigh w' past := by
  induction past with
  | nil => simp
  | cons event past ih =>
      rw [weigh_cons, weigh_cons, weigh_cons, ih]
      abel

/-- To weigh by a test is to count. -/
theorem weigh_ite (test : O → Bool) (past : List ((o : O) × Resp o)) :
    weigh (fun o => if test o then (1 : ℤ) else 0) past =
      (past.countP fun event => test event.1 : ℕ) := by
  induction past with
  | nil => rfl
  | cons event past ih =>
      rw [weigh_cons, ih, List.countP_cons]
      split <;> simp [add_comm]

/-! ## Programs within limits -/

namespace Prog

variable {α : Type} {p q : Prog O Resp α} {I : M → Prop} {Q : M → α → Prop} {d : M}

/-- **A program that keeps to limits**: what it has called is within them at
every call, and as it should be when it returns. -/
def Keeps (w : O → M) (I : M → Prop) (Q : M → α → Prop) (d : M) (p : Prog O Resp α) : Prop :=
  p.Follows (fun d o _ => d + w o) (fun d _ => I d) Q d

/-- It does so wherever it has got to. -/
theorem Keeps.reaches {past : List ((o : O) × Resp o)} (hp : p.Keeps w I Q d)
    (h : p.Reaches past q) : q.Keeps w I Q (d + weigh w past) := by
  induction h generalizing d with
  | refl p => simpa using hp
  | call r h ih => simpa [add_assoc] using ih (hp.2 r)

/-- **The rule of potentials.** A program that goes by a memory keeps to the
limits of a potential, if the weight of a call is what the potential gains. -/
theorem Keeps.of_follows {τ : Type} {next : τ → (o : O) → Resp o → τ} {ok : τ → O → Prop}
    {P : τ → α → Prop} {memory : τ} {v : τ → M} (hp : p.Follows next ok P memory)
    (hgain : ∀ memory o r, ok memory o → v (next memory o r) = v memory + w o)
    (hI : ∀ memory, I (v memory)) (hQ : ∀ memory a, P memory a → Q (v memory) a) :
    p.Keeps w I Q (v memory) := by
  induction p generalizing memory with
  | ret a => exact hQ memory a hp
  | call o k ih =>
      refine ⟨hI memory, fun r => ?_⟩
      have hrest := ih r (hp.2 r)
      rwa [hgain memory o r hp.1] at hrest

/-- Limits may be counted from elsewhere. -/
theorem Keeps.shift {I' : M → Prop} {Q' : M → α → Prop} (d' : M) (hp : p.Keeps w I Q d)
    (hI : ∀ d, I d → I' (d' + d)) (hQ : ∀ d a, Q d a → Q' (d' + d) a) :
    p.Keeps w I' Q' (d' + d) := by
  induction p generalizing d with
  | ret a => exact hQ d a hp
  | call o k ih =>
      refine ⟨hI d hp.1, fun r => ?_⟩
      have hrest := ih r (hp.2 r)
      rwa [← add_assoc] at hrest

/-- A program whose calls weigh nothing stays where it is. -/
theorem Keeps.of_obeys {pre : O → Prop} {P : α → Prop} (hp : p.Obeys pre (fun _ _ => True) P)
    (hpre : ∀ o, pre o → w o = 0) (hI : I d) (hQ : ∀ a, Q d a) : p.Keeps w I Q d := by
  induction p with
  | ret a => exact hQ a
  | call o k ih =>
      refine ⟨hI, fun r => ?_⟩
      have hrest := ih r (hp.2 r trivial)
      rwa [← add_zero d, ← hpre o hp.1] at hrest

/-- **A program over programs** keeps to the limits it keeps to, if each of
its operations comes to what it weighs, and to nothing before it is done. -/
theorem Keeps.subst {O' : Type} {Resp' : O' → Type} {w' : O' → M}
    {f : (o : O) → Prog O' Resp' (Resp o)} (hp : p.Keeps w I Q d)
    (hf : ∀ o, (f o).Keeps w' (· = 0) (fun d _ => d = w o) 0) :
    (p.subst f).Keeps w' I Q d := by
  induction p generalizing d with
  | ret a => exact hp
  | call o k ih =>
      have hfirst : (f o).Keeps w' I (fun d' _ => d' = d + w o) (d + 0) := by
        refine (hf o).shift d ?_ ?_
        · rintro _ rfl
          rw [add_zero]
          exact hp.1
        · rintro _ a rfl
          rfl
      rw [add_zero] at hfirst
      refine Follows.bind hfirst ?_
      rintro _ r rfl
      exact ih r (hp.2 r)

end Prog

/-! ## The journal of a pool -/

namespace Pool

variable {ι σ α : Type} [DecidableEq ι] {exec : σ → (o : O) → σ × Resp o}

/-- Only what has a turn calls. -/
theorem mem_of_journal {pool : Pool ι σ O Resp α} {schedule : List ι} {entry : ι × (o : O) × Resp o}
    (h : entry ∈ pool.journal exec schedule) : entry.1 ∈ schedule := by
  induction schedule generalizing pool with
  | nil => cases h
  | cons i schedule ih =>
      rcases List.mem_append.mp h with hfirst | hrest
      · obtain ⟨event, -, rfl⟩ := List.mem_map.mp hfirst
        exact List.mem_cons_self
      · exact List.mem_cons_of_mem _ (ih hrest)

/-- A journal weighs what each of them has called. -/
theorem weigh_eq_sum_own (w : O → M) {journal : Journal ι O Resp} {s : Finset ι}
    (h : ∀ entry ∈ journal, entry.1 ∈ s) :
    weigh w (journal.map Prod.snd) = ∑ i ∈ s, weigh w (Journal.own i journal) := by
  induction journal with
  | nil => simp [Journal.own]
  | cons entry journal ih =>
      obtain ⟨j, event⟩ := entry
      have hown : ∀ i, weigh w (Journal.own i ((j, event) :: journal)) =
          (if j = i then w event.1 else 0) + weigh w (Journal.own i journal) := by
        intro i
        by_cases hj : j = i <;> simp [Journal.own, hj]
      have hmem : j ∈ s := h _ List.mem_cons_self
      rw [List.map_cons, weigh_cons, ih fun entry hentry => h entry (List.mem_cons_of_mem _ hentry)]
      simp only [hown, Finset.sum_add_distrib, Finset.sum_ite_eq, hmem, if_true]

/-- **The journal weighs what its programs have called.** -/
theorem weigh_journal (exec : σ → (o : O) → σ × Resp o) (w : O → M) (pool : Pool ι σ O Resp α)
    (schedule : List ι) :
    weigh w ((pool.journal exec schedule).map Prod.snd) =
      ∑ i ∈ schedule.toFinset, weigh w (Journal.own i (pool.journal exec schedule)) :=
  weigh_eq_sum_own w fun _ hentry => List.mem_toFinset.mpr (mem_of_journal hentry)

/-- **Debts of one.** Where each program owes nothing or one, and nothing when
it has returned, they owe no more together than have not returned. -/
theorem weigh_journal_bounds (exec : σ → (o : O) → σ × Resp o) {w : O → ℤ}
    (pool : Pool ι σ O Resp α) (schedule : List ι)
    (h : ∀ i, (pool.procs i).Keeps w (fun d => 0 ≤ d ∧ d ≤ 1) (fun d _ => d = 0) 0) :
    0 ≤ weigh w ((pool.journal exec schedule).map Prod.snd) ∧
      weigh w ((pool.journal exec schedule).map Prod.snd) ≤
        (schedule.toFinset.filter fun i =>
          ((Run.final (turn exec) pool schedule).procs i).returned = false).card := by
  have hown : ∀ i, 0 ≤ weigh w (Journal.own i (pool.journal exec schedule)) ∧
      weigh w (Journal.own i (pool.journal exec schedule)) ≤
        if ((Run.final (turn exec) pool schedule).procs i).returned = false then 1 else 0 := by
    intro i
    have hkeeps := (h i).reaches (pool.reaches_own exec schedule i)
    rw [zero_add] at hkeeps
    cases hproc : (Run.final (turn exec) pool schedule).procs i with
    | ret a =>
        rw [hproc] at hkeeps
        exact ⟨le_of_eq hkeeps.symm, le_of_eq hkeeps⟩
    | call o k =>
        rw [hproc] at hkeeps
        exact hkeeps.1
  rw [weigh_journal, Finset.card_filter, Nat.cast_sum]
  refine ⟨Finset.sum_nonneg fun i _ => (hown i).1, Finset.sum_le_sum fun i _ => ?_⟩
  rw [Nat.cast_ite, Nat.cast_one, Nat.cast_zero]
  exact (hown i).2

end Pool

end Llmap
