import Mathlib.Data.List.FinRange
import Llmap.Common.Prog
/-!
# Interleavings that come to one after another

Programs that share an object may be interleaved, and still leave it as if
each had run alone. The order to compare with is the one they return in,
which a run keeps beside its pool (`Ordered`). A pool agrees with that
order throughout a run just in case each turn does what it should
(`Ordered.serial_iff`): a call that is not its program's last changes
nothing, and the last does all that the program would do alone.
-/

namespace Llmap

/-- A pool of `n` programs, and those that have returned, in the order in
which they did. -/
structure Ordered (n : ℕ) (σ O : Type) (Resp : O → Type) (α : Type) where
  pool : Pool (Fin n) σ O Resp α
  order : List (Fin n)

namespace Ordered

variable {n : ℕ} {σ α O : Type} {Resp : O → Type}

/-- Programs at their start. One that makes no call has returned. -/
def start (shared : σ) (progs : Fin n → Prog O Resp α) : Ordered n σ O Resp α :=
  ⟨⟨shared, progs⟩, (List.finRange n).filter fun i => (progs i).returned⟩

variable (exec : σ → (o : O) → σ × Resp o)

/-- A turn of the pool; a program that returns at it is next in the
order. -/
def turn (s : Ordered n σ O Resp α) (i : Fin n) : Ordered n σ O Resp α :=
  ⟨s.pool.turn exec i,
    if (s.pool.procs i).returned = false ∧ ((s.pool.turn exec i).procs i).returned then
      s.order ++ [i]
    else s.order⟩

/-- What a program does alone. -/
def alone (progs : Fin n → Prog O Resp α) (shared : σ) (i : Fin n) : σ :=
  ((progs i).run exec shared).1

/-- **A turn as it should be**: it does nothing, or it is the last of its
program and does what the program does alone. -/
def Serially (progs : Fin n → Prog O Resp α) (s : Ordered n σ O Resp α) (i : Fin n) : Prop :=
  match s.pool.procs i with
  | .ret _ => True
  | .call o k =>
      (exec s.pool.shared o).1 =
        if (k (exec s.pool.shared o).2).returned then alone exec progs s.pool.shared i
        else s.pool.shared

variable {exec} {s : Ordered n σ O Resp α} {shared : σ} {progs : Fin n → Prog O Resp α}
variable {schedule : List (Fin n)} {i : Fin n}

theorem turn_of_ret {a : α} (h : s.pool.procs i = .ret a) : s.turn exec i = s := by
  simp [turn, Pool.turn_of_ret h, h]

theorem turn_of_call {o : O} {k : Resp o → Prog O Resp α} (h : s.pool.procs i = .call o k) :
    s.turn exec i =
      ⟨⟨(exec s.pool.shared o).1, Function.update s.pool.procs i (k (exec s.pool.shared o).2)⟩,
        if (k (exec s.pool.shared o).2).returned then s.order ++ [i] else s.order⟩ := by
  simp only [turn, Pool.turn_of_call h, Function.update_self]
  simp [h]

theorem serially_of_ret {a : α} (h : s.pool.procs i = .ret a) : Serially exec progs s i := by
  simp only [Serially, h]

theorem serially_iff_of_call {o : O} {k : Resp o → Prog O Resp α}
    (h : s.pool.procs i = .call o k) :
    Serially exec progs s i ↔ (exec s.pool.shared o).1 =
      if (k (exec s.pool.shared o).2).returned then ((progs i).run exec s.pool.shared).1
      else s.pool.shared := by
  simp only [Serially, h, alone]

/-! ## Who has returned -/

/-- The order lists those that have returned, each once. -/
def Lists (s : Ordered n σ O Resp α) : Prop :=
  s.order.Nodup ∧ ∀ i, i ∈ s.order ↔ (s.pool.procs i).returned = true

theorem lists_start : (start shared progs).Lists := by
  refine ⟨(List.nodup_finRange n).filter _, fun i => ?_⟩
  simp [start]

theorem lists_turn (h : s.Lists) (i : Fin n) : (s.turn exec i).Lists := by
  cases hproc : s.pool.procs i with
  | ret a => rwa [turn_of_ret hproc]
  | call o k =>
      obtain ⟨hnodup, hmem⟩ := h
      have hnot : i ∉ s.order := by simp [hmem, hproc]
      rw [turn_of_call hproc]
      cases hlast : (k (exec s.pool.shared o).2).returned with
      | true =>
          refine ⟨by simpa [List.nodup_append] using ⟨hnodup, fun j hj hji => hnot (hji ▸ hj)⟩,
            fun j => ?_⟩
          by_cases hj : j = i
          · simp [hj, hlast]
          · simp [hj, hmem]
      | false =>
          refine ⟨by simpa using hnodup, fun j => ?_⟩
          by_cases hj : j = i
          · simp [hj, hlast, hnot]
          · simp [hj, hmem]

/-- When all have returned, the order is one of all of them. -/
theorem order_perm (hall : ∀ i, ((Run.final (turn exec) (start shared progs) schedule).pool.procs
      i).returned = true) :
    (Run.final (turn exec) (start shared progs) schedule).order.Perm (List.finRange n) := by
  obtain ⟨hnodup, hmem⟩ : (Run.final (turn exec) (start shared progs) schedule).Lists :=
    Run.final_induct_of_step (fun _ i h => lists_turn h i) lists_start
  refine (List.perm_ext_iff_of_nodup hnodup (List.nodup_finRange n)).mpr fun i => ?_
  simp [hmem, hall]

/-! ## The rule -/

/-- A program that makes no call changes nothing. -/
theorem alone_of_returned (h : (progs i).returned = true) (shared : σ) :
    alone exec progs shared i = shared := by
  cases hprog : progs i with
  | ret a => rw [alone, hprog, Prog.run_ret]
  | call o k => simp [hprog] at h

theorem final_alone_of_returned {order : List (Fin n)}
    (h : ∀ i ∈ order, (progs i).returned = true) :
    Run.final (alone exec progs) shared order = shared := by
  induction order with
  | nil => rfl
  | cons i order ih =>
      rw [Run.final_cons, alone_of_returned (h i (List.mem_cons_self ..))]
      exact ih fun j hj => h j (List.mem_cons_of_mem _ hj)

/-- **One after another.** Throughout a run the object is as if the
programs that have returned had run alone, in the order they returned in,
just in case every turn is as it should be. -/
theorem serial_iff :
    (∀ before, before <+: schedule →
      (Run.final (turn exec) (start shared progs) before).pool.shared =
        Run.final (alone exec progs) shared
          (Run.final (turn exec) (start shared progs) before).order) ↔
      Run.Along (turn exec) (Serially exec progs) (start shared progs) schedule := by
  refine Run.always_iff_along (Q := fun _ _ => True)
    (I := fun s : Ordered n σ O Resp α =>
      s.pool.shared = Run.final (alone exec progs) shared s.order) ?_ ?_ ?_
  · intro s i hs _
    unfold Serially
    cases hproc : s.pool.procs i with
    | ret a => simp [turn_of_ret hproc, hs]
    | call o k =>
        rw [turn_of_call hproc]
        cases hlast : (k (exec s.pool.shared o).2).returned with
        | true => simp [Run.final_append, ← hs, hlast]
        | false => simp [← hs, hlast]
  · exact (final_alone_of_returned fun i hi => (List.mem_filter.mp hi).2).symm
  · exact Run.along_of_forall fun _ _ => trivial

end Ordered

end Llmap
