import Mathlib.Algebra.Order.Group.Defs
import Mathlib.Data.List.Induction
import Mathlib.Tactic.Common
/-!
# Lockout after failed attempts

A counter of failed attempts that locks for some time when it is full. An
attempt under a lock is turned away whatever it shows; the first attempt
after a lock starts the count again, and so does one that passes. The
count does not decay otherwise.

A log is what came of the attempts so far, with their times (`Reaches`).
When the times do not run backwards, two things hold of every log. A full
row of failures is followed by nothing but refusals until the lock is over
(`Reaches.limited`). And in a window as long as a lock, in which no
attempt passes, no more attempts fail than fill the counter
(`Reaches.window`).
-/

namespace Llmap

/-- The failures counted, and the end of the lock. -/
structure Lockout (T : Type*) where
  failures : ℕ
  lockedUntil : Option T

namespace Lockout

/-- What comes of an attempt. -/
inductive Outcome where
  | passed
  | failed
  | limited
deriving DecidableEq

variable {T : Type*} [LinearOrder T] [Add T] (max : ℕ) (duration : T)

/-- Nothing is counted. -/
def new : Lockout T := ⟨0, none⟩

/-- An attempt at a time, which shows what is right or does not. -/
def attempt (state : Lockout T) (now : T) (correct : Bool) : Lockout T × Outcome :=
  if state.lockedUntil.any (now < ·) then (state, .limited)
  else if correct then (new, .passed)
  else
    let failures := (if state.lockedUntil.isSome then 0 else state.failures) + 1
    (⟨failures, if max ≤ failures then some (now + duration) else none⟩, .failed)

/-- **A log and the state it leads to.** -/
inductive Reaches : List (T × Outcome) → Lockout T → Prop
  | start : Reaches [] new
  | attempt {log : List (T × Outcome)} {state : Lockout T} (now : T) (correct : Bool) :
      Reaches log state →
      Reaches (log ++ [(now, (state.attempt max duration now correct).2)])
        (state.attempt max duration now correct).1

/-- The failures in a row at the end of a log: those since an attempt
passed. -/
def failuresInARow (log : List (T × Outcome)) : ℕ :=
  ((log.map Prod.snd).reverse.takeWhile (· ≠ .passed)).count .failed

variable {log : List (T × Outcome)} {state : Lockout T}

omit [LinearOrder T] [Add T] in
theorem failuresInARow_append (entry : T × Outcome) :
    failuresInARow (log ++ [entry]) =
      match entry.2 with
      | .passed => 0
      | .failed => failuresInARow log + 1
      | .limited => failuresInARow log := by
  obtain ⟨now, outcome⟩ := entry
  cases outcome <;> simp [failuresInARow]

/-- What an attempt may do. -/
theorem attempt_cases (state : Lockout T) (now : T) (correct : Bool) :
    (∃ e, state.lockedUntil = some e ∧ now < e ∧
        state.attempt max duration now correct = (state, .limited)) ∨
      (∀ e, state.lockedUntil = some e → e ≤ now) ∧
        (correct = true ∧ state.attempt max duration now correct = (new, .passed) ∨
          correct = false ∧ ∃ failures,
            failures = (if state.lockedUntil.isSome then 0 else state.failures) + 1 ∧
            state.attempt max duration now correct =
              (⟨failures, if max ≤ failures then some (now + duration) else none⟩, .failed)) := by
  unfold attempt
  cases hlock : state.lockedUntil with
  | none => cases correct <;> simp
  | some e =>
      by_cases hnow : now < e
      · exact .inl ⟨e, rfl, hnow, by simp [hnow]⟩
      · refine .inr ⟨fun e' he' => ?_, ?_⟩
        · obtain rfl := Option.some.inj he'
          exact le_of_not_gt hnow
        · cases correct <;> simp [hnow]

variable {max duration}

/-! ## What is counted -/

/-- **What the counter says**: unlocked it is short of the limit, locked it
is at it, and it is the row of failures but for full rows. -/
theorem Reaches.counted (h : Reaches max duration log state) (hmax : 1 ≤ max) :
    (state.lockedUntil = none → state.failures < max) ∧
      (state.lockedUntil ≠ none → state.failures = max) ∧
      failuresInARow log % max = state.failures % max := by
  induction h with
  | start => exact ⟨fun _ => hmax, fun hlock => absurd rfl hlock, rfl⟩
  | @attempt log state now correct _ ih =>
      obtain ⟨hfree, hfull, hrow⟩ := ih
      rw [failuresInARow_append]
      rcases attempt_cases max duration state now correct with
        ⟨e, -, -, heq⟩ | ⟨-, ⟨-, heq⟩ | ⟨-, failures, hfailures, heq⟩⟩
      · rw [heq]
        exact ⟨hfree, hfull, hrow⟩
      · rw [heq]
        exact ⟨fun _ => hmax, fun hlock => absurd rfl hlock, rfl⟩
      · -- a row starts again after a lock, where a full one is over
        have hcount : (failuresInARow log + 1) % max = failures % max := by
          rw [hfailures, Nat.add_mod, hrow]
          cases hlock : state.lockedUntil with
          | none => simp [Nat.add_mod]
          | some e => simp [hfull (by simp [hlock])]
        have hle : failures ≤ max := by
          rw [hfailures]
          cases hlock : state.lockedUntil with
          | none => exact hfree hlock
          | some e => simpa using hmax
        rw [heq]
        refine ⟨?_, ?_, hcount⟩
        · intro hnone
          by_contra hge
          have hge' : max ≤ failures := not_lt.mp hge
          simp [hge'] at hnone
        · intro hsome
          by_contra hne
          have hnot : ¬ max ≤ failures := fun hge => hne (le_antisymm hle hge)
          simp [hnot] at hsome

/-- The last attempt of a log. -/
theorem Reaches.last {entry : T × Outcome} (h : Reaches max duration (log ++ [entry]) state) :
    ∃ before now correct, Reaches max duration log before ∧
      entry = (now, (before.attempt max duration now correct).2) ∧
      state = (before.attempt max duration now correct).1 := by
  generalize hlog : log ++ [entry] = full at h
  cases h with
  | start => simp at hlog
  | attempt now correct hbefore =>
      obtain ⟨rfl, hentry⟩ := List.append_inj' hlog rfl
      exact ⟨_, now, correct, hbefore, List.singleton_inj.mp hentry, rfl⟩

theorem Reaches.of_append {rest : List (T × Outcome)}
    (h : Reaches max duration (log ++ rest) state) : ∃ before, Reaches max duration log before := by
  induction rest using List.reverseRecOn generalizing state with
  | nil => exact ⟨state, by simpa using h⟩
  | append_singleton rest entry ih =>
      rw [← List.append_assoc] at h
      obtain ⟨before, -, -, hbefore, -⟩ := h.last
      exact ih hbefore

/-! ## A full row -/

/-- Under a lock nothing but refusals. -/
theorem Reaches.locked {t : T} {before after : List (T × Outcome)} (hmax : 1 ≤ max)
    (h : Reaches max duration (before ++ (t, .failed) :: after) state)
    (hrow : max ∣ failuresInARow (before ++ [(t, .failed)]))
    (hafter : ∀ entry ∈ after, entry.1 < t + duration) :
    state.lockedUntil = some (t + duration) ∧ ∀ entry ∈ after, entry.2 = .limited := by
  -- the induction is on what came after, from its end
  induction after using List.reverseRecOn generalizing state with
  | nil =>
      obtain ⟨-, -, hcount⟩ := h.counted hmax
      obtain ⟨earlier, now, correct, -, hentry, rfl⟩ := h.last
      obtain ⟨rfl, houtcome⟩ := Prod.mk.inj hentry
      refine ⟨?_, by simp⟩
      rcases attempt_cases max duration earlier t correct with
        ⟨-, -, -, heq⟩ | ⟨-, ⟨-, heq⟩ | ⟨-, failures, hfailures, heq⟩⟩
      · rw [heq] at houtcome
        cases houtcome
      · rw [heq] at houtcome
        cases houtcome
      · rw [heq] at hcount ⊢
        rw [Nat.mod_eq_zero_of_dvd hrow] at hcount
        have hfull : max ≤ failures :=
          Nat.le_of_dvd (by omega) (Nat.dvd_of_mod_eq_zero hcount.symm)
        exact if_pos hfull
  | append_singleton after entry ih =>
      rw [← List.cons_append, ← List.append_assoc] at h
      obtain ⟨earlier, now, correct, hearlier, rfl, rfl⟩ := h.last
      obtain ⟨hlock, hlimited⟩ :=
        ih hearlier fun entry hentry => hafter entry (List.mem_append_left _ hentry)
      have hnow : now < t + duration :=
        hafter _ (List.mem_append_right _ (List.mem_singleton_self _))
      have hturned : earlier.attempt max duration now correct = (earlier, .limited) := by
        simp [Lockout.attempt, hlock, hnow]
      rw [hturned]
      refine ⟨hlock, fun entry hentry => ?_⟩
      rcases List.mem_append.mp hentry with hold | hlast
      · exact hlimited entry hold
      · rw [List.mem_singleton.mp hlast]

/-- **A full row locks.** After a failure that fills a row, whatever is
attempted before the lock is over is turned away. -/
theorem Reaches.limited {t now : T} {outcome : Outcome} {before after : List (T × Outcome)}
    (hmax : 1 ≤ max) (h : Reaches max duration (before ++ (t, .failed) :: after) state)
    (hordered : (before ++ (t, .failed) :: after).Pairwise fun left right => left.1 ≤ right.1)
    (hrow : max ∣ failuresInARow (before ++ [(t, .failed)])) (hentry : (now, outcome) ∈ after)
    (hnow : now < t + duration) : outcome = .limited := by
  obtain ⟨earlier, later, rfl⟩ := List.append_of_mem hentry
  have hsplit : before ++ (t, .failed) :: (earlier ++ (now, outcome) :: later) =
      (before ++ (t, .failed) :: (earlier ++ [(now, outcome)])) ++ later := by simp
  rw [hsplit] at h hordered
  obtain ⟨reached, hreached⟩ := h.of_append
  refine (hreached.locked hmax hrow fun entry hmem => ?_).2 (now, outcome) (by simp)
  rcases List.mem_append.mp hmem with hearlier | hlast
  · -- whatever came before the attempt is no later
    have hsofar := (List.pairwise_append.mp hordered).1
    have hafter := (List.pairwise_cons.mp (List.pairwise_append.mp hsofar).2.1).2
    have hle := (List.pairwise_append.mp hafter).2.2 entry hearlier _ (List.mem_singleton_self _)
    exact hle.trans_lt hnow
  · rw [List.mem_singleton.mp hlast]
    exact hnow

/-! ## A window -/

/-- The failures between two times, the latter not included. -/
def failuresWithin (log : List (T × Outcome)) (start finish : T) : ℕ :=
  log.countP fun entry => start ≤ entry.1 ∧ entry.1 < finish ∧ entry.2 = .failed

omit [Add T] in
theorem failuresWithin_append (start finish : T) (entry : T × Outcome) :
    failuresWithin (log ++ [entry]) start finish = failuresWithin log start finish +
      if start ≤ entry.1 ∧ entry.1 < finish ∧ entry.2 = .failed then 1 else 0 := by
  simp [failuresWithin, List.countP_append, List.countP_singleton]

omit [Add T] in
/-- Nothing has failed yet in a window that is still to come. -/
theorem failuresWithin_eq_zero {start finish : T} (h : ∀ entry ∈ log, entry.1 < start) :
    failuresWithin log start finish = 0 := by
  rw [failuresWithin, List.countP_eq_zero]
  intro entry hentry
  simp [not_le.mpr (h entry hentry)]

/-- Before a window is over, its failures are in the counter; or the lock
they led to is still on when it is over. -/
theorem Reaches.within [AddRightMono T] {start : T} (hmax : 1 ≤ max)
    (h : Reaches max duration log state)
    (hordered : log.Pairwise fun left right => left.1 ≤ right.1)
    (hpassed : ∀ entry ∈ log, start ≤ entry.1 → entry.1 < start + duration →
      entry.2 ≠ .passed) :
    failuresWithin log start (start + duration) ≤ max ∧
      ((∀ entry ∈ log, entry.1 < start + duration) →
        (state.lockedUntil = none →
          failuresWithin log start (start + duration) ≤ state.failures) ∧
        ∀ e, state.lockedUntil = some e →
          failuresWithin log start (start + duration) = 0 ∨ start + duration ≤ e) := by
  induction h with
  | start => simp [failuresWithin, new]
  | @attempt log state now correct hlog ih =>
      obtain ⟨hpast, -, hlater⟩ := List.pairwise_append.mp hordered
      obtain ⟨hle, hinv⟩ :=
        ih hpast fun entry hentry => hpassed entry (List.mem_append_left _ hentry)
      have hnow : ∀ entry ∈ log, entry.1 ≤ now := fun entry hentry =>
        hlater entry hentry _ (List.mem_singleton_self _)
      obtain ⟨hfree, -, -⟩ := hlog.counted hmax
      rw [failuresWithin_append]
      by_cases hbefore : now < start
      · -- the window is still to come
        have hzero : failuresWithin log start (start + duration) = 0 :=
          failuresWithin_eq_zero fun entry hentry => (hnow entry hentry).trans_lt hbefore
        simp [hzero, not_le.mpr hbefore]
      · rw [not_lt] at hbefore
        by_cases hover : start + duration ≤ now
        · -- the window is over, and what is said before it is over says nothing
          rw [if_neg fun hin => (not_lt.mpr hover) hin.2.1]
          refine ⟨hle, fun hall => ?_⟩
          exact absurd (hall _ (List.mem_append_right _ (List.mem_singleton_self _)))
            (not_lt.mpr hover)
        · rw [not_le] at hover
          have hin := hpassed _ (List.mem_append_right _ (List.mem_singleton_self _)) hbefore hover
          obtain ⟨hcounted, hlocked⟩ := hinv fun entry hentry => (hnow entry hentry).trans_lt hover
          rcases attempt_cases max duration state now correct with
            ⟨e, -, -, heq⟩ | ⟨hopen, ⟨-, heq⟩ | ⟨-, failures, hfailures, heq⟩⟩
          · rw [heq]
            simpa using ⟨hle, fun _ => ⟨hcounted, hlocked⟩⟩
          · rw [heq] at hin
            exact absurd rfl hin
          · -- the counter goes up with the window, or starts with it after a lock
            have hcount : failuresWithin log start (start + duration) + 1 ≤ failures ∧
                failures ≤ max := by
              rw [hfailures]
              cases hlock : state.lockedUntil with
              | none =>
                  have hlt := hfree hlock
                  have hless := hcounted hlock
                  simp only [Option.isSome_none, Bool.false_eq_true, if_false]
                  omega
              | some e =>
                  have hzero := (hlocked e hlock).resolve_right fun hlong =>
                    (not_lt.mpr (hlong.trans (hopen e hlock))) hover
                  simp only [Option.isSome_some, if_true]
                  omega
            rw [heq, if_pos ⟨hbefore, hover, rfl⟩]
            refine ⟨hcount.1.trans hcount.2, fun _ => ⟨fun _ => hcount.1, fun e he => ?_⟩⟩
            dsimp only at he
            split_ifs at he with hfull
            obtain rfl := Option.some.inj he
            exact .inr (add_le_add_left hbefore duration)

/-- **A window has at most a full row.** In a window as long as a lock, in
which no attempt passes, at most `max` fail. -/
theorem Reaches.window [AddRightMono T] {start : T} (hmax : 1 ≤ max)
    (h : Reaches max duration log state)
    (hordered : log.Pairwise fun left right => left.1 ≤ right.1)
    (hpassed : ∀ entry ∈ log, start ≤ entry.1 → entry.1 < start + duration →
      entry.2 ≠ .passed) :
    failuresWithin log start (start + duration) ≤ max :=
  (h.within hmax hordered hpassed).1

end Lockout

end Llmap
