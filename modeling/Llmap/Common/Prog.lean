import Mathlib.Logic.Function.Basic
import Llmap.Common.Run
/-!
# Programs and their interleavings

A program calls operations of a shared object and goes on with the
answers: a tree of calls (`Prog`). The object is an `exec`, which carries
an operation out and answers it.

A program alone is `run` to its end. Several of them, any number, share
the object in a `Pool`: a turn lets one of them make its next call, and a
schedule is the list of the turns. What a pool keeps is read off its
calls. When each program calls only what it may (`Prog.Obeys`) and each
call keeps the invariant, every schedule does (`Pool.final_induct`).
-/

namespace Llmap

/-- A program over operations `O` that are answered in `Resp`. -/
inductive Prog (O : Type) (Resp : O → Type) (α : Type) where
  | ret (a : α)
  | call (o : O) (k : Resp o → Prog O Resp α)

namespace Prog

variable {O : Type} {Resp : O → Type} {α β σ : Type}

protected def bind (p : Prog O Resp α) (f : α → Prog O Resp β) : Prog O Resp β :=
  match p with
  | .ret a => f a
  | .call o k => .call o fun r => (k r).bind f

instance : Monad (Prog O Resp) where
  pure := .ret
  bind := Prog.bind

/-- One call. -/
def op (o : O) : Prog O Resp (Resp o) := .call o .ret

@[simp] theorem ret_bind (a : α) (f : α → Prog O Resp β) : (Prog.ret a >>= f) = f a := rfl

@[simp] theorem call_bind {o : O} (k : Resp o → Prog O Resp α) (f : α → Prog O Resp β) :
    (Prog.call o k >>= f) = .call o fun r => k r >>= f := rfl

theorem bind_assoc {γ : Type} (p : Prog O Resp α) (f : α → Prog O Resp β)
    (g : β → Prog O Resp γ) : (p >>= f >>= g) = p >>= fun a => f a >>= g := by
  induction p with
  | ret a => rfl
  | call o k ih => exact congrArg (call o) (funext fun r => ih r)

/-- The call a program is about to make. -/
def next? : Prog O Resp α → Option O
  | .ret _ => none
  | .call o _ => some o

@[simp] theorem next?_ret (a : α) : (ret a : Prog O Resp α).next? = none := rfl

@[simp] theorem next?_call {o : O} (k : Resp o → Prog O Resp α) : (call o k).next? = some o := rfl

theorem next?_eq_some_iff {p : Prog O Resp α} {o : O} : p.next? = some o ↔ ∃ k, p = .call o k := by
  cases p with
  | ret a => simp
  | call o' k =>
      simp only [next?_call, Option.some.injEq]
      constructor
      · rintro rfl
        exact ⟨k, rfl⟩
      · rintro ⟨k', h⟩
        exact (call.inj h).1

/-- Whether a program has come to its end. -/
def returned : Prog O Resp α → Bool
  | .ret _ => true
  | .call _ _ => false

@[simp] theorem returned_ret (a : α) : (ret a : Prog O Resp α).returned = true := rfl

@[simp] theorem returned_call {o : O} (k : Resp o → Prog O Resp α) :
    (call o k).returned = false := rfl

/-- What a program has returned. -/
def result? : Prog O Resp α → Option α
  | .ret a => some a
  | .call _ _ => none

/-- A program over other operations, call by call. -/
def lift {O' : Type} {Resp' : O' → Type} (f : O → O') (back : ∀ o, Resp' (f o) → Resp o) :
    Prog O Resp α → Prog O' Resp' α
  | .ret a => .ret a
  | .call o k => .call (f o) fun r => (k (back o r)).lift f back

/-- A program over the programs its operations stand for. -/
def subst {O' : Type} {Resp' : O' → Type} (f : (o : O) → Prog O' Resp' (Resp o)) :
    Prog O Resp α → Prog O' Resp' α
  | .ret a => .ret a
  | .call o k => f o >>= fun r => (k r).subst f

/-! ## Alone -/

/-- The state a program leaves and what it returns, when nothing comes
between its calls. -/
def run (exec : σ → (o : O) → σ × Resp o) : Prog O Resp α → σ → σ × α
  | .ret a, s => (s, a)
  | .call o k, s => (k (exec s o).2).run exec (exec s o).1

variable {exec : σ → (o : O) → σ × Resp o}

@[simp] theorem run_ret (a : α) (s : σ) : (ret a : Prog O Resp α).run exec s = (s, a) := rfl

@[simp] theorem run_call (o : O) (k : Resp o → Prog O Resp α) (s : σ) :
    (call o k).run exec s = (k (exec s o).2).run exec (exec s o).1 := rfl

theorem run_bind (p : Prog O Resp α) (f : α → Prog O Resp β) (s : σ) :
    (p >>= f).run exec s = (f (p.run exec s).2).run exec (p.run exec s).1 := by
  induction p generalizing s with
  | ret a => rfl
  | call o k ih => exact ih _ _

/-- An operation may be carried out by the program it stands for. -/
theorem run_subst {O' : Type} {Resp' : O' → Type} {exec' : σ → (o : O') → σ × Resp' o}
    (f : (o : O) → Prog O' Resp' (Resp o)) (p : Prog O Resp α) (s : σ) :
    (p.subst f).run exec' s = p.run (fun s o => (f o).run exec' s) s := by
  induction p generalizing s with
  | ret a => rfl
  | call o k ih =>
      rw [subst, run_bind, run_call]
      exact ih _ _

/-- What a program calls, and what it is answered. -/
def trace (exec : σ → (o : O) → σ × Resp o) : Prog O Resp α → σ → List ((o : O) × Resp o)
  | .ret _, _ => []
  | .call o k, s => ⟨o, (exec s o).2⟩ :: (k (exec s o).2).trace exec (exec s o).1

@[simp] theorem trace_ret (a : α) (s : σ) : (ret a : Prog O Resp α).trace exec s = [] := rfl

@[simp] theorem trace_call (o : O) (k : Resp o → Prog O Resp α) (s : σ) :
    (call o k).trace exec s =
      ⟨o, (exec s o).2⟩ :: (k (exec s o).2).trace exec (exec s o).1 := rfl

theorem trace_bind (p : Prog O Resp α) (f : α → Prog O Resp β) (s : σ) :
    (p >>= f).trace exec s =
      p.trace exec s ++ (f (p.run exec s).2).trace exec (p.run exec s).1 := by
  induction p generalizing s with
  | ret a => rfl
  | call o k ih =>
      rw [call_bind, trace_call, trace_call, List.cons_append]
      exact congrArg _ (ih _ _)

/-! ## What a program may call -/

/-- **Obedience.** Every operation the program calls satisfies `pre`, and
every value it returns satisfies `Q`, as long as what it is answered
satisfies `post`. -/
def Obeys (pre : O → Prop) (post : (o : O) → Resp o → Prop) (Q : α → Prop) : Prog O Resp α → Prop
  | .ret a => Q a
  | .call o k => pre o ∧ ∀ r, post o r → (k r).Obeys pre post Q

variable {pre : O → Prop} {post : (o : O) → Resp o → Prop} {P : α → Prop} {Q : β → Prop}

theorem Obeys.bind {p : Prog O Resp α} {f : α → Prog O Resp β} (hp : p.Obeys pre post P)
    (hf : ∀ a, P a → (f a).Obeys pre post Q) : (p >>= f).Obeys pre post Q := by
  induction p with
  | ret a => exact hf a hp
  | call o k ih => exact ⟨hp.1, fun r hr => ih r (hp.2 r hr)⟩

theorem Obeys.mono {pre' : O → Prop} {p : Prog O Resp α} (hp : p.Obeys pre post P)
    (h : ∀ o, pre o → pre' o) : p.Obeys pre' post P := by
  induction p with
  | ret a => exact hp
  | call o k ih => exact ⟨h o hp.1, fun r hr => ih r (hp.2 r hr)⟩

theorem Obeys.run {p : Prog O Resp α} (hp : p.Obeys pre (fun _ _ => True) P) (s : σ) :
    P (p.run exec s).2 := by
  induction p generalizing s with
  | ret a => exact hp
  | call o k ih => exact ih _ (hp.2 _ trivial) _

/-- Whatever an obedient program called was permitted. -/
theorem Obeys.of_mem_trace {p : Prog O Resp α} (hp : p.Obeys pre (fun _ _ => True) P) {s : σ}
    {event : (o : O) × Resp o} (h : event ∈ p.trace exec s) : pre event.1 := by
  induction p generalizing s with
  | ret a => cases h
  | call o k ih =>
      rcases List.mem_cons.mp h with rfl | hrest
      · exact hp.1
      · exact ih _ (hp.2 _ trivial) hrest

/-- **Two worlds.** A program runs alike in two that carry out alike what
it calls. -/
theorem Obeys.run_congr {exec' : σ → (o : O) → σ × Resp o} {p : Prog O Resp α}
    (hp : p.Obeys pre (fun _ _ => True) P) (h : ∀ s o, pre o → exec s o = exec' s o) (s : σ) :
    p.run exec s = p.run exec' s ∧ p.trace exec s = p.trace exec' s := by
  induction p generalizing s with
  | ret a => exact ⟨rfl, rfl⟩
  | call o k ih =>
      have hsame := h s o hp.1
      obtain ⟨hrun, htrace⟩ := ih (exec s o).2 (hp.2 _ trivial) (exec s o).1
      rw [run_call, run_call, trace_call, trace_call, ← hsame]
      exact ⟨hrun, congrArg _ htrace⟩

/-! ## What a program goes by -/

/-- **A program and its memory.** Every operation the program calls is one
its memory permits, what it is answered goes into the memory, and what it
returns is right by the memory it ends with. -/
def Follows {τ : Type} (next : τ → (o : O) → Resp o → τ) (ok : τ → O → Prop)
    (Q : τ → α → Prop) : τ → Prog O Resp α → Prop
  | memory, .ret a => Q memory a
  | memory, .call o k => ok memory o ∧ ∀ r, (k r).Follows next ok Q (next memory o r)

theorem Follows.bind {τ : Type} {next : τ → (o : O) → Resp o → τ} {ok : τ → O → Prop}
    {P : τ → α → Prop} {Q : τ → β → Prop} {memory : τ} {p : Prog O Resp α}
    {f : α → Prog O Resp β} (hp : p.Follows next ok P memory)
    (hf : ∀ memory a, P memory a → (f a).Follows next ok Q memory) :
    (p >>= f).Follows next ok Q memory := by
  induction p generalizing memory with
  | ret a => exact hf memory a hp
  | call o k ih => exact ⟨hp.1, fun r => ih r (hp.2 r)⟩

theorem Follows.mono {τ : Type} {next : τ → (o : O) → Resp o → τ} {ok : τ → O → Prop}
    {P Q : τ → α → Prop} {memory : τ} {p : Prog O Resp α} (hp : p.Follows next ok P memory)
    (h : ∀ memory a, P memory a → Q memory a) : p.Follows next ok Q memory := by
  induction p generalizing memory with
  | ret a => exact h memory a hp
  | call o k ih => exact ⟨hp.1, fun r => ih r (hp.2 r)⟩

/-! ## What a program yields -/

/-- **Whatever it is answered**, what a program calls and what it returns
are as `Q` says. -/
def Yields : Prog O Resp α → (List ((o : O) × Resp o) → α → Prop) → Prop
  | .ret a, Q => Q [] a
  | .call o k, Q => ∀ r, (k r).Yields fun rest a => Q (⟨o, r⟩ :: rest) a

theorem Yields.run {p : Prog O Resp α} {Q : List ((o : O) × Resp o) → α → Prop} (h : p.Yields Q)
    (s : σ) : Q (p.trace exec s) (p.run exec s).2 := by
  induction p generalizing s Q with
  | ret a => exact h
  | call o k ih => exact ih _ (h _) _

theorem Yields.mono {p : Prog O Resp α} {Q Q' : List ((o : O) × Resp o) → α → Prop}
    (h : p.Yields Q) (hQ : ∀ trace a, Q trace a → Q' trace a) : p.Yields Q' := by
  induction p generalizing Q Q' with
  | ret a => exact hQ _ _ h
  | call o k ih => exact fun r => ih r (h r) fun trace a => hQ _ a

theorem Yields.bind {p : Prog O Resp α} {f : α → Prog O Resp β}
    {P : List ((o : O) × Resp o) → α → Prop} {Q : List ((o : O) × Resp o) → β → Prop}
    (hp : p.Yields P) (hf : ∀ trace a, P trace a → (f a).Yields fun rest b => Q (trace ++ rest) b) :
    (p >>= f).Yields Q := by
  induction p generalizing P Q with
  | ret a => exact hf [] a hp
  | call o k ih => exact fun r => ih r (hp r) fun trace a => hf (⟨o, r⟩ :: trace) a

end Prog

/-! ## Together -/

/-- Programs that share a state, each where it has got to. -/
structure Pool (ι σ : Type) (O : Type) (Resp : O → Type) (α : Type) where
  shared : σ
  procs : ι → Prog O Resp α

namespace Pool

variable {ι σ α : Type} [DecidableEq ι] {O : Type} {Resp : O → Type}
variable (exec : σ → (o : O) → σ × Resp o)

/-- One program's turn: it makes its next call. One that has returned
does nothing. -/
def turn (pool : Pool ι σ O Resp α) (i : ι) : Pool ι σ O Resp α :=
  match pool.procs i with
  | .ret _ => pool
  | .call o k =>
      { shared := (exec pool.shared o).1
        procs := Function.update pool.procs i (k (exec pool.shared o).2) }

/-- A condition on the call a turn is about to make. -/
def Calls (C : σ → O → Prop) (pool : Pool ι σ O Resp α) (i : ι) : Prop :=
  ∀ o ∈ (pool.procs i).next?, C pool.shared o

instance {C : σ → O → Prop} [∀ s o, Decidable (C s o)] (pool : Pool ι σ O Resp α) (i : ι) :
    Decidable (Calls C pool i) :=
  inferInstanceAs (Decidable (∀ o ∈ (pool.procs i).next?, C pool.shared o))

variable {exec} {pool : Pool ι σ O Resp α} {i : ι}

theorem turn_of_ret {a : α} (h : pool.procs i = .ret a) : pool.turn exec i = pool := by
  simp only [turn, h]

theorem turn_of_call {o : O} {k : Resp o → Prog O Resp α} (h : pool.procs i = .call o k) :
    pool.turn exec i =
      ⟨(exec pool.shared o).1, Function.update pool.procs i (k (exec pool.shared o).2)⟩ := by
  simp only [turn, h]

/-- A turn moves no other program. -/
theorem turn_procs_of_ne {j : ι} (h : j ≠ i) : (pool.turn exec i).procs j = pool.procs j := by
  cases hproc : pool.procs i with
  | ret a => rw [turn_of_ret hproc]
  | call o k =>
      rw [turn_of_call hproc]
      exact Function.update_of_ne h _ _

section Obeys

variable {pre : O → Prop} {post : (o : O) → Resp o → Prop} {Q : α → Prop}

/-- A program that is answered as promised stays obedient. -/
theorem turn_obeys {j : ι} (h : (pool.procs j).Obeys pre post Q)
    (hanswer : ∀ o ∈ (pool.procs i).next?, post o (exec pool.shared o).2) :
    ((pool.turn exec i).procs j).Obeys pre post Q := by
  by_cases hj : j = i
  · subst hj
    cases hproc : pool.procs j with
    | ret a => rwa [turn_of_ret hproc]
    | call o k =>
        have hpost := hanswer o (by rw [hproc]; rfl)
        rw [hproc] at h
        rw [turn_of_call hproc]
        simpa only [Function.update_self] using h.2 _ hpost
  · rwa [turn_procs_of_ne hj]

/-- **The rule for pools.** An invariant of the shared state that every
permitted call keeps, with an answer as promised, is kept by every
schedule of obedient programs; and they stay obedient. -/
theorem final_induct {I : σ → Prop} {C : σ → O → Prop} {schedule : List ι}
    (hexec : ∀ s o, I s → pre o → C s o → I (exec s o).1 ∧ post o (exec s o).2)
    (hshared : I pool.shared) (hprocs : ∀ i, (pool.procs i).Obeys pre post Q)
    (hcalls : Run.Along (turn exec) (Calls C) pool schedule) :
    I (Run.final (turn exec) pool schedule).shared ∧
      ∀ i, ((Run.final (turn exec) pool schedule).procs i).Obeys pre post Q := by
  refine Run.final_induct (I := fun pool => I pool.shared ∧ ∀ i, (pool.procs i).Obeys pre post Q)
    ?_ ⟨hshared, hprocs⟩ hcalls
  rintro pool i ⟨hI, hobeys⟩ hC
  cases hproc : pool.procs i with
  | ret a =>
      rw [turn_of_ret hproc]
      exact ⟨hI, hobeys⟩
  | call o k =>
      have hnext : o ∈ (pool.procs i).next? := by
        rw [hproc]
        rfl
      have hcall := hobeys i
      rw [hproc] at hcall
      obtain ⟨hkeep, hanswer⟩ := hexec pool.shared o hI hcall.1 (hC o hnext)
      refine ⟨?_, fun j => turn_obeys (hobeys j) fun o' ho' => ?_⟩
      · rwa [turn_of_call hproc]
      · obtain rfl : o = o' := Option.some.inj (hnext.symm.trans ho')
        exact hanswer

end Obeys

/-! ## What was called -/

section History

variable (exec) in
/-- What a turn calls, and what it is answered. -/
def made (pool : Pool ι σ O Resp α) (i : ι) : List ((o : O) × Resp o) :=
  match pool.procs i with
  | .ret _ => []
  | .call o _ => [⟨o, (exec pool.shared o).2⟩]

variable (exec) in
/-- What is called under a schedule. -/
def history : Pool ι σ O Resp α → List ι → List ((o : O) × Resp o)
  | _, [] => []
  | pool, i :: schedule => pool.made exec i ++ history (pool.turn exec i) schedule

/-- **The rule for histories.** What holds of no history at the start, and
goes on to hold when an operation is carried out and put down, holds of
what was called under any schedule and the state it leads to. -/
theorem history_induct {I : List ((o : O) × Resp o) → σ → Prop} {schedule : List ι}
    (hcall : ∀ past s o, I past s → I (past ++ [⟨o, (exec s o).2⟩]) (exec s o).1)
    (hstart : I [] pool.shared) :
    I (pool.history exec schedule) (Run.final (turn exec) pool schedule).shared := by
  -- the induction is on the schedule, over whatever was called before
  suffices hall : ∀ past, I past pool.shared →
      I (past ++ pool.history exec schedule) (Run.final (turn exec) pool schedule).shared from
    hall [] hstart
  clear hstart
  induction schedule generalizing pool with
  | nil => simp [history]
  | cons i schedule ih =>
      intro past hpast
      rw [history, Run.final_cons, ← List.append_assoc]
      refine ih _ ?_
      cases hproc : pool.procs i with
      | ret a =>
          rw [turn_of_ret hproc, made, hproc]
          simpa using hpast
      | call o k =>
          rw [turn_of_call hproc, made, hproc]
          exact hcall past pool.shared o hpast

variable (exec) in
/-- Operations carried out one after another. -/
def replay : σ → List O → List ((o : O) × Resp o)
  | _, [] => []
  | s, o :: rest => ⟨o, (exec s o).2⟩ :: replay (exec s o).1 rest

/-- What a pool calls is answered as if it were called so in a row. -/
theorem history_eq_replay (pool : Pool ι σ O Resp α) (schedule : List ι) :
    pool.history exec schedule =
      replay exec pool.shared ((pool.history exec schedule).map Sigma.fst) := by
  induction schedule generalizing pool with
  | nil => rfl
  | cons i schedule ih =>
      rw [history]
      have hrest := ih (pool.turn exec i)
      cases hproc : pool.procs i with
      | ret a =>
          rw [turn_of_ret hproc] at hrest ⊢
          rw [made, hproc]
          exact hrest
      | call o k =>
          rw [turn_of_call hproc] at hrest ⊢
          rw [made, hproc]
          exact congrArg (List.cons _) hrest

section View

variable {τ : Type} {view : σ → τ} {mine : O → Bool}

/-- A part of the state that only some operations look at and change: what
they are answered does not depend on the others. -/
theorem filter_replay
    (hmine : ∀ s s' o, mine o = true → view s = view s' →
      (exec s o).2 = (exec s' o).2 ∧ view (exec s o).1 = view (exec s' o).1)
    (hother : ∀ s o, mine o = false → view (exec s o).1 = view s) {s s' : σ}
    (hview : view s = view s') (ops : List O) :
    (replay exec s ops).filter (fun entry => mine entry.1) =
      replay exec s' (ops.filter mine) := by
  induction ops generalizing s s' with
  | nil => rfl
  | cons o ops ih =>
      cases ho : mine o with
      | false =>
          rw [replay, List.filter_cons_of_neg (by simp [ho]),
            List.filter_cons_of_neg (by simp [ho])]
          exact ih ((hother s o ho).trans hview)
      | true =>
          obtain ⟨hanswer, hnext⟩ := hmine s s' o ho hview
          rw [replay, List.filter_cons_of_pos (by simp [ho]),
            List.filter_cons_of_pos (by simp [ho]),
            replay, hanswer, ih hnext]

/-- **Noninterference.** Two pools that make the same calls of a part of
the state are answered alike, whatever else they call. -/
theorem history_filter_congr {κ β : Type} [DecidableEq κ]
    (hmine : ∀ s s' o, mine o = true → view s = view s' →
      (exec s o).2 = (exec s' o).2 ∧ view (exec s o).1 = view (exec s' o).1)
    (hother : ∀ s o, mine o = false → view (exec s o).1 = view s)
    {pool : Pool ι σ O Resp α} {pool' : Pool κ σ O Resp β} {schedule : List ι}
    {schedule' : List κ} (hview : view pool.shared = view pool'.shared)
    (hsame : ((pool.history exec schedule).map Sigma.fst).filter mine =
      ((pool'.history exec schedule').map Sigma.fst).filter mine) :
    (pool.history exec schedule).filter (fun entry => mine entry.1) =
      (pool'.history exec schedule').filter (fun entry => mine entry.1) := by
  rw [history_eq_replay pool, history_eq_replay pool', filter_replay hmine hother hview,
    filter_replay hmine hother (rfl : view pool'.shared = _), hsame]

end View

end History

end Pool

end Llmap
