import Llmap.Common.Prog
/-!
# Pools in step

Two pools that run under one schedule, each over its own state. Their
programs keep in step when they make their calls in pairs and are answered
alike, each as the relation of the pair has it (`Prog.InStep`); from some
point on they may part, if what they still call is idle. A relation of the
two states that every pair of calls keeps, and every idle call of either
side, then holds under every schedule (`Pool.inStep_final`).

What is needed of a pool to keep the relation may be an invariant of its
own, and the idle calls of one side may be held to a condition.
-/

namespace Llmap

namespace Prog

variable {O : Type} {Resp : O → Type} {α : Type}

/-- **In step**: programs that make their calls in pairs, up to where
neither makes any that is not idle. A pair comes with the relation of its
answers. -/
inductive InStep (idle idle' : O → Prop) (Pairs : (o o' : O) → (Resp o → Resp o' → Prop) → Prop) :
    Prog O Resp α → Prog O Resp α → Prop
  | idle {p p' : Prog O Resp α} (h : p.Obeys idle (fun _ _ => True) fun _ => True)
      (h' : p'.Obeys idle' (fun _ _ => True) fun _ => True) : InStep idle idle' Pairs p p'
  | call {o o' : O} {R : Resp o → Resp o' → Prop} {k : Resp o → Prog O Resp α}
      {k' : Resp o' → Prog O Resp α} (h : Pairs o o' R)
      (hk : ∀ r r', R r r' → InStep idle idle' Pairs (k r) (k' r')) :
      InStep idle idle' Pairs (.call o k) (.call o' k')

end Prog

namespace Pool

variable {ι σ α : Type} [DecidableEq ι] {O : Type} {Resp : O → Type}
variable {exec : σ → (o : O) → σ × Resp o}
variable {idle idle' : ι → O → Prop} {Pairs : (o o' : O) → (Resp o → Resp o' → Prop) → Prop}

/-- **Pools in step**: their states are related, each meets its own
invariant, and their programs are in step. -/
structure InStep (I : σ → σ → Prop) (K : Pool ι σ O Resp α → Prop) (idle idle' : ι → O → Prop)
    (Pairs : (o o' : O) → (Resp o → Resp o' → Prop) → Prop) (pool pool' : Pool ι σ O Resp α) :
    Prop where
  shared : I pool.shared pool'.shared
  left : K pool
  right : K pool'
  procs : ∀ i, (pool.procs i).InStep (idle i) (idle' i) Pairs (pool'.procs i)

/-- What keeps two pools in step: a pair of calls keeps the relation and is
answered as the pair says; so does an idle call on the right, and one on
the left that meets the condition. -/
structure Keeps (exec : σ → (o : O) → σ × Resp o) (I : σ → σ → Prop)
    (K : Pool ι σ O Resp α → Prop) (D : Pool ι σ O Resp α → ι → Prop) (idle idle' : ι → O → Prop)
    (Pairs : (o o' : O) → (Resp o → Resp o' → Prop) → Prop) : Prop where
  turn : ∀ {pool} i, K pool → K (pool.turn exec i)
  call : ∀ {pool pool' : Pool ι σ O Resp α} {i o o' k k'} {R : Resp o → Resp o' → Prop},
    I pool.shared pool'.shared → K pool → K pool' → pool.procs i = .call o k →
    pool'.procs i = .call o' k' → Pairs o o' R →
    I (exec pool.shared o).1 (exec pool'.shared o').1 ∧
      R (exec pool.shared o).2 (exec pool'.shared o').2
  left : ∀ {pool : Pool ι σ O Resp α} {s' i o k}, I pool.shared s' → K pool → D pool i →
    pool.procs i = .call o k → idle i o → I (exec pool.shared o).1 s'
  right : ∀ {s s' i o}, I s s' → idle' i o → I s (exec s' o).1

variable {I : σ → σ → Prop} {K : Pool ι σ O Resp α → Prop} {D : Pool ι σ O Resp α → ι → Prop}
variable {pool pool' : Pool ι σ O Resp α}

/-- Programs of which one has moved on either side. -/
theorem inStep_update {p p' : Prog O Resp α} {i : ι}
    (h : ∀ j, (pool.procs j).InStep (idle j) (idle' j) Pairs (pool'.procs j))
    (hp : p.InStep (idle i) (idle' i) Pairs p') (j : ι) :
    (Function.update pool.procs i p j).InStep (idle j) (idle' j) Pairs
      (Function.update pool'.procs i p' j) := by
  by_cases hj : j = i
  · subst hj
    simpa only [Function.update_self] using hp
  · simpa only [Function.update_of_ne hj] using h j

/-- A turn on the left alone, where both programs are idle. -/
theorem InStep.turn_left (hkeeps : Keeps exec I K D idle idle' Pairs)
    (h : InStep I K idle idle' Pairs pool pool') {i : ι} (hD : D pool i)
    (hidle : (pool.procs i).Obeys (idle i) (fun _ _ => True) fun _ => True)
    (hidle' : (pool'.procs i).Obeys (idle' i) (fun _ _ => True) fun _ => True) :
    InStep I K idle idle' Pairs (pool.turn exec i) pool' ∧
      ((pool.turn exec i).procs i).Obeys (idle i) (fun _ _ => True) fun _ => True := by
  have hleft := hkeeps.turn i h.left
  cases hproc : pool.procs i with
  | ret a =>
      rw [turn_of_ret hproc]
      exact ⟨h, hidle⟩
  | call o k =>
      rw [hproc] at hidle
      rw [turn_of_call hproc] at hleft ⊢
      have hrest := hidle.2 (exec pool.shared o).2 trivial
      refine ⟨⟨hkeeps.left h.shared h.left hD hproc hidle.1, hleft, h.right, fun j => ?_⟩, ?_⟩
      · have hj := inStep_update h.procs (.idle hrest hidle') j
        rwa [Function.update_eq_self] at hj
      · simpa only [Function.update_self] using hrest

/-- A turn on the right alone, where both are. -/
theorem InStep.turn_right (hkeeps : Keeps exec I K D idle idle' Pairs)
    (h : InStep I K idle idle' Pairs pool pool') {i : ι}
    (hidle : (pool.procs i).Obeys (idle i) (fun _ _ => True) fun _ => True)
    (hidle' : (pool'.procs i).Obeys (idle' i) (fun _ _ => True) fun _ => True) :
    InStep I K idle idle' Pairs pool (pool'.turn exec i) := by
  have hright := hkeeps.turn i h.right
  cases hproc : pool'.procs i with
  | ret a => rwa [turn_of_ret hproc]
  | call o k =>
      rw [hproc] at hidle'
      rw [turn_of_call hproc] at hright ⊢
      refine ⟨hkeeps.right h.shared hidle'.1, h.left, hright, fun j => ?_⟩
      have hj := inStep_update h.procs (.idle hidle (hidle'.2 (exec pool'.shared o).2 trivial)) j
      rwa [Function.update_eq_self] at hj

/-- **One turn** keeps pools in step. -/
theorem InStep.turn (hkeeps : Keeps exec I K D idle idle' Pairs)
    (h : InStep I K idle idle' Pairs pool pool') {i : ι} (hD : D pool i) :
    InStep I K idle idle' Pairs (pool.turn exec i) (pool'.turn exec i) := by
  have hi := h.procs i
  generalize hproc : pool.procs i = p at hi
  generalize hproc' : pool'.procs i = p' at hi
  cases hi with
  | idle hidle hidle' =>
      subst hproc hproc'
      obtain ⟨hstep, hidle⟩ := h.turn_left hkeeps hD hidle hidle'
      exact hstep.turn_right hkeeps hidle hidle'
  | call hpair hk =>
      obtain ⟨hshared, hanswers⟩ := hkeeps.call h.shared h.left h.right hproc hproc' hpair
      have hleft := hkeeps.turn i h.left
      have hright := hkeeps.turn i h.right
      rw [turn_of_call hproc] at hleft ⊢
      rw [turn_of_call hproc'] at hright ⊢
      exact ⟨hshared, hleft, hright, inStep_update h.procs (hk _ _ hanswers)⟩

/-- **The rule for pools in step**: the relation holds under every
schedule along which the condition does. -/
theorem inStep_final (hkeeps : Keeps exec I K D idle idle' Pairs)
    (h : InStep I K idle idle' Pairs pool pool') {schedule : List ι}
    (hD : Run.Along (Pool.turn exec) D pool schedule) :
    InStep I K idle idle' Pairs (Run.final (Pool.turn exec) pool schedule)
      (Run.final (Pool.turn exec) pool' schedule) := by
  induction schedule generalizing pool pool' with
  | nil => exact h
  | cons i schedule ih => exact ih (h.turn hkeeps hD.1) hD.2

end Pool

end Llmap
