import Llmap.Common.Lockout
import Llmap.Plain
import Llmap.Sessions.Model
/-!
# Throttled logins

`login` counts the failures of each client and locks it out. The attempts
of one client are a `Lockout`, whatever other clients and sessions do in
between: the counter of eight bits is the number it stands for, as it
never goes past the limit, and nothing but the client's own logins looks
at it or changes it.
-/

namespace Llmap

namespace Sessions

/-- An attempt as a counter that locks. -/
def LoginAttempt.lockout (attempt : LoginAttempt) : Lockout DateTime :=
  ⟨attempt.failures.toNat, attempt.lockedUntil⟩

/-- The attempts of a client. A client that has made none, or passed, has
no entry. -/
def SessionState.attempt (state : SessionState) (clientKey : String) : LoginAttempt :=
  state.attempts.getD clientKey ⟨0, none⟩

/-- What comes of a login. -/
def outcomeOf : Except AdminAuthError SessionGrant → Lockout.Outcome
  | .ok _ => .passed
  | .error .rateLimited => .limited
  | .error _ => .failed

/-- The logins of a client. -/
def Section.isLoginFor (clientKey : String) : Section → Bool
  | login _ _ clientKey' _ _ _ => clientKey' = clientKey
  | _ => false

/-- A login of a client, with its time and its answer. -/
def Entry.loginFor? (clientKey : String) :
    Entry → Option (DateTime × Except AdminAuthError SessionGrant)
  | ⟨.login _ _ clientKey' _ _ now, answer⟩ =>
      if clientKey' = clientKey then some (now, answer) else none
  | _ => none

/-- The logins of a client, with their times and answers. -/
def loginsFor (clientKey : String) (history : List Entry) :
    List (DateTime × Except AdminAuthError SessionGrant) :=
  history.filterMap (Entry.loginFor? clientKey)

/-- What came of the logins of a client. -/
def outcomes (logins : List (DateTime × Except AdminAuthError SessionGrant)) :
    List (DateTime × Lockout.Outcome) :=
  logins.map fun login => (login.1, outcomeOf login.2)

section Lockout

variable [Digests] [Argon2] [Sealing] {manager : AdminSessionManager} {state : SessionState}
variable {clientKey : String}

/-! ## One login -/

/-- **A login is an attempt** at its client's lockout, as long as the
counter has room. -/
theorem lockout_login (username password : String) (token csrfToken : TokenBytes)
    (now : DateTime)
    (hroom : (state.attempt clientKey).lockedUntil = none →
      (state.attempt clientKey).failures.toNat < manager.policy.maxFailedAttempts.toNat)
    (hmax : 1 ≤ manager.policy.maxFailedAttempts.toNat) :
    let result := manager.login state username password clientKey token csrfToken now
    (state.attempt clientKey).lockout.attempt manager.policy.maxFailedAttempts.toNat
        manager.policy.lockoutDuration now (manager.credentialsMatch username password) =
      ((result.1.attempt clientKey).lockout, outcomeOf result.2) := by
  simp only [AdminSessionManager.login, SessionState.attempt] at hroom ⊢
  generalize state.attempts.getD clientKey ⟨0, none⟩ = attempt at hroom ⊢
  by_cases hlocked : attempt.lockedUntil.any (now < ·) = true
  · simp [Lockout.attempt, LoginAttempt.lockout, hlocked, outcomeOf]
  · by_cases hmatch : manager.credentialsMatch username password = true
    · simp [Lockout.attempt, LoginAttempt.lockout, hlocked, hmatch, outcomeOf, Lockout.new]
    · -- the counter is short of the limit, which is a byte, and does not saturate
      have hlimit := manager.policy.maxFailedAttempts.toNat_lt
      cases hlock : attempt.lockedUntil with
      | none =>
          have hcount : (saturatingSuccU8 attempt.failures).toNat = attempt.failures.toNat + 1 := by
            have hlt := hroom hlock
            rw [toNat_saturatingSuccU8]
            omega
          simp [Lockout.attempt, LoginAttempt.lockout, hlock, hmatch, outcomeOf, hcount,
            UInt8.le_iff_toNat_le]
      | some e =>
          have hopen : ¬ now < e := by simpa [hlock] using hlocked
          simp [Lockout.attempt, LoginAttempt.lockout, hlock, hopen, hmatch, outcomeOf,
            UInt8.le_iff_toNat_le, toNat_saturatingSuccU8]

/-- A login of another client leaves the attempts as they are. -/
theorem attempt_login_of_ne (username password : String) {clientKey' : String}
    (token csrfToken : TokenBytes) (now : DateTime) (hne : clientKey' ≠ clientKey) :
    (manager.login state username password clientKey' token csrfToken now).1.attempt clientKey =
      state.attempt clientKey := by
  unfold AdminSessionManager.login SessionState.attempt
  dsimp only
  split
  · simp [Std.ExtTreeMap.getD_insert, hne]
  · split
    · simp [Std.ExtTreeMap.getD_erase, hne]
    · simp [Std.ExtTreeMap.getD_insert, hne]

/-- So does every other section. -/
theorem attempt_exec_of_ne {sec : Section} (h : sec.isLoginFor clientKey = false) :
    (manager.exec state sec).1.attempt clientKey = state.attempt clientKey := by
  cases sec with
  | login username password clientKey' token csrfToken now =>
      have hne : clientKey' ≠ clientKey := by simpa [Section.isLoginFor] using h
      exact attempt_login_of_ne username password token csrfToken now hne
  | authenticate sessionToken csrfToken requireCsrf now =>
      simp only [AdminSessionManager.exec, AdminSessionManager.authenticate]
      split
      · rfl
      · split_ifs <;> rfl
  | storeCsrf sessionToken csrfToken =>
      simp only [AdminSessionManager.exec, AdminSessionManager.storeCsrf]
      split <;> rfl
  | logout sessionToken => rfl
  | activeSessionCount now => rfl

/-- What a login is answered, and what it leaves, is by the attempts of its
client alone. -/
theorem login_congr {state' : SessionState} (username password : String)
    (token csrfToken : TokenBytes) (now : DateTime)
    (h : state.attempt clientKey = state'.attempt clientKey) :
    (manager.login state username password clientKey token csrfToken now).2 =
        (manager.login state' username password clientKey token csrfToken now).2 ∧
      (manager.login state username password clientKey token csrfToken now).1.attempt clientKey =
        (manager.login state' username password clientKey token csrfToken now).1.attempt
          clientKey := by
  unfold SessionState.attempt at h ⊢
  unfold AdminSessionManager.login
  rw [h]
  dsimp only
  split
  · simp
  · split <;> simp

/-! ## Any calls, however they interleave -/

omit [Digests] [Argon2] [Sealing] in
theorem loginsFor_append (history : List Entry) (entry : Entry) :
    loginsFor clientKey (history ++ [entry]) =
      loginsFor clientKey history ++ (entry.loginFor? clientKey).toList := by
  rw [loginsFor, List.filterMap_append]
  cases h : entry.loginFor? clientKey <;> simp [h, loginsFor]

omit [Digests] [Argon2] [Sealing] in
theorem loginFor?_of_not {entry : Entry} (h : entry.1.isLoginFor clientKey = false) :
    entry.loginFor? clientKey = none := by
  obtain ⟨sec, answer⟩ := entry
  cases sec with
  | login => exact if_neg (by simpa [Section.isLoginFor] using h)
  | _ => rfl

/-- **The logins of a client are attempts at its lockout.** -/
theorem reaches_history {ι : Type} [DecidableEq ι] (calls : ι → Call) (schedule : List ι)
    (hmax : 1 ≤ manager.policy.maxFailedAttempts.toNat) :
    Lockout.Reaches manager.policy.maxFailedAttempts.toNat manager.policy.lockoutDuration
      (outcomes (loginsFor clientKey (manager.historyOf calls schedule)))
      ((manager.stateAfter calls schedule).attempt clientKey).lockout := by
  refine Pool.history_induct (I := fun (history : List Entry) (state : SessionState) =>
    Lockout.Reaches manager.policy.maxFailedAttempts.toNat manager.policy.lockoutDuration
      (outcomes (loginsFor clientKey history)) (state.attempt clientKey).lockout) ?_ ?_
  · intro history state sec ih
    cases hsec : sec.isLoginFor clientKey with
    | false =>
        rw [loginsFor_append, loginFor?_of_not hsec, attempt_exec_of_ne hsec]
        simpa using ih
    | true =>
        cases sec with
        | login username password clientKey' token csrfToken now =>
            obtain rfl : clientKey' = clientKey := by simpa [Section.isLoginFor] using hsec
            have hattempt := lockout_login username password token csrfToken now
              (ih.counted hmax).1 hmax
            have hnext := Lockout.Reaches.attempt now
              (manager.credentialsMatch username password) ih
            rw [hattempt] at hnext
            simpa [loginsFor_append, Entry.loginFor?, outcomes, AdminSessionManager.exec]
              using hnext
        | _ => cases hsec
  · exact .start

omit [Digests] [Argon2] [Sealing] in
theorem time?_of_loginFor? {entry : Entry} {login : DateTime × Except AdminAuthError SessionGrant}
    (h : entry.loginFor? clientKey = some login) : entry.1.time? = some login.1 := by
  obtain ⟨sec, answer⟩ := entry
  cases sec with
  | login =>
      simp only [Entry.loginFor?] at h
      split_ifs at h
      cases h
      rfl
  | _ => cases h

omit [Digests] [Argon2] [Sealing] in
/-- Where times do not run backwards, those of one client's logins do
not. -/
theorem pairwise_outcomes {history : List Entry} (h : (times history).Pairwise (· ≤ ·)) :
    (outcomes (loginsFor clientKey history)).Pairwise fun left right => left.1 ≤ right.1 := by
  rw [times, List.pairwise_filterMap] at h
  rw [outcomes, List.pairwise_map, loginsFor, List.pairwise_filterMap]
  refine h.imp ?_
  intro left right hle login hlogin login' hlogin'
  exact hle _ (time?_of_loginFor? hlogin) _ (time?_of_loginFor? hlogin')

omit [Digests] [Argon2] [Sealing] in
theorem loginsFor_filter (history : List Entry) :
    loginsFor clientKey (history.filter fun entry => entry.1.isLoginFor clientKey) =
      loginsFor clientKey history := by
  rw [loginsFor, loginsFor, List.filterMap_filter]
  congr 1
  funext entry
  cases h : entry.1.isLoginFor clientKey with
  | false => exact (loginFor?_of_not h).symm
  | true => rfl

omit [Digests] [Argon2] [Sealing] in
theorem outcomeOf_eq_passed {answer : Except AdminAuthError SessionGrant}
    (h : outcomeOf answer = .passed) : ∃ grant, answer = .ok grant := by
  cases answer with
  | ok grant => exact ⟨grant, rfl⟩
  | error error => cases error <;> cases h

omit [Digests] [Argon2] [Sealing] in
theorem outcomeOf_eq_limited {answer : Except AdminAuthError SessionGrant}
    (h : outcomeOf answer = .limited) : answer = .error .rateLimited := by
  cases answer with
  | ok grant => cases h
  | error error =>
      cases error with
      | rateLimited => rfl
      | _ => cases h

/-- **Logins are throttled, client by client.** Whatever calls are made of
a manager and however their sections interleave, as long as their times
do not run backwards. In a window as long as a lockout in which no login
of a client succeeds, at most `max_failed_attempts` of its logins fail. A
failure that fills a row locks the client out: whatever it presents, it is
turned away until the lockout is over. And any other calls that have the
same logins of this client give them the same answers. -/
theorem login_throttled {ι : Type} [DecidableEq ι] (manager : AdminSessionManager)
    (hmax : 1 ≤ manager.policy.maxFailedAttempts) (calls : ι → Call) (schedule : List ι)
    (hordered : (times (manager.historyOf calls schedule)).Pairwise (· ≤ ·))
    (clientKey : String) :
    let logins := loginsFor clientKey (manager.historyOf calls schedule)
    let duration := manager.policy.lockoutDuration
    (∀ start, (∀ login ∈ logins, start ≤ login.1 → login.1 < start + duration →
          ∀ grant, login.2 ≠ .ok grant) →
        logins.countP (fun login => start ≤ login.1 ∧ login.1 < start + duration ∧
          login.2 = .error .invalidCredentials) ≤ manager.policy.maxFailedAttempts.toNat) ∧
      (∀ before time after,
        logins = before ++ (time, .error .invalidCredentials) :: after →
        manager.policy.maxFailedAttempts.toNat ∣ Lockout.failuresInARow
          (outcomes (before ++ [(time, .error .invalidCredentials)])) →
        ∀ login ∈ after, login.1 < time + duration → login.2 = .error .rateLimited) ∧
      ∀ (κ : Type) [DecidableEq κ] (calls' : κ → Call) (schedule' : List κ),
        ((manager.historyOf calls schedule).map Sigma.fst).filter (Section.isLoginFor clientKey) =
          ((manager.historyOf calls' schedule').map Sigma.fst).filter
            (Section.isLoginFor clientKey) →
        loginsFor clientKey (manager.historyOf calls' schedule') = logins := by
  intro logins duration
  have hpos : 1 ≤ manager.policy.maxFailedAttempts.toNat := by
    simpa using UInt8.le_iff_toNat_le.mp hmax
  have hreaches : Lockout.Reaches _ duration (outcomes logins) _ :=
    reaches_history calls schedule hpos
  have houtcomes : (outcomes logins).Pairwise fun left right => left.1 ≤ right.1 :=
    pairwise_outcomes hordered
  refine ⟨fun start hnone => ?_, fun before time after hlogins hrow login hlogin hbefore => ?_, ?_⟩
  · have hpassed : ∀ entry ∈ outcomes logins, start ≤ entry.1 → entry.1 < start + duration →
        entry.2 ≠ .passed := by
      intro entry hentry hstart hend hpassed
      obtain ⟨login, hlogin, rfl⟩ := List.mem_map.mp hentry
      obtain ⟨grant, hgrant⟩ := outcomeOf_eq_passed hpassed
      exact hnone login hlogin hstart hend grant hgrant
    refine le_trans ?_ (hreaches.window hpos houtcomes hpassed)
    rw [Lockout.failuresWithin, outcomes, List.countP_map]
    refine List.countP_mono_left fun login _ hfailed => ?_
    simp only [decide_eq_true_eq] at hfailed
    simp [hfailed.1, hfailed.2.1, hfailed.2.2, outcomeOf]
  · rw [hlogins, outcomes, List.map_append, List.map_cons] at hreaches houtcomes
    rw [outcomes, List.map_append] at hrow
    exact outcomeOf_eq_limited
      (hreaches.limited hpos houtcomes hrow (List.mem_map.mpr ⟨login, hlogin, rfl⟩) hbefore)
  · intro κ _ calls' schedule' hsame
    have hmine : ∀ state state' sec, Section.isLoginFor clientKey sec = true →
        SessionState.attempt state clientKey = SessionState.attempt state' clientKey →
          (manager.exec state sec).2 = (manager.exec state' sec).2 ∧
            (manager.exec state sec).1.attempt clientKey =
              (manager.exec state' sec).1.attempt clientKey := by
      intro state state' sec hsec hview
      cases sec with
      | login username password clientKey' token csrfToken now =>
          obtain rfl : clientKey' = clientKey := by simpa [Section.isLoginFor] using hsec
          exact login_congr username password token csrfToken now hview
      | _ => cases hsec
    have hother : ∀ state sec, Section.isLoginFor clientKey sec = false →
        (manager.exec state sec).1.attempt clientKey = state.attempt clientKey :=
      fun state sec hsec => attempt_exec_of_ne hsec
    have hview : (start calls).shared.attempt clientKey =
        (start calls').shared.attempt clientKey := rfl
    have hcongr := Pool.history_filter_congr hmine hother hview hsame
    calc loginsFor clientKey (manager.historyOf calls' schedule')
        = loginsFor clientKey ((manager.historyOf calls' schedule').filter
            fun entry => entry.1.isLoginFor clientKey) := (loginsFor_filter _).symm
      _ = loginsFor clientKey ((manager.historyOf calls schedule).filter
            fun entry => entry.1.isLoginFor clientKey) := congrArg _ hcongr.symm
      _ = logins := loginsFor_filter _

end Lockout

/-! ## A siege -/

section Siege

open scoped Plain

/-- Five wrong guesses and the right password from one client, with a
login from another in between. -/
def siege (i : Fin 7) : Call :=
  if i = 4 then
    .login "admin" "correct horse" "10.0.0.2" (Vector.replicate 32 1) (Vector.replicate 32 2)
      (minutes 4)
  else
    .login "admin" (if i = 6 then "correct horse" else "battery staple") "10.0.0.1"
      (Vector.replicate 32 3) (Vector.replicate 32 4) (minutes i)

/-- The right password comes too late. -/
theorem login_throttled_siege :
    ((loginsFor "10.0.0.1" (admin.historyOf siege (List.finRange 7))).map Prod.fst =
        [minutes 0, minutes 1, minutes 2, minutes 3, minutes 5, minutes 6]) ∧
      ∀ login ∈ (loginsFor "10.0.0.1" (admin.historyOf siege (List.finRange 7))).drop 5,
        login.2 = .error .rateLimited := by
  refine ⟨by decide +kernel, fun login hlogin => ?_⟩
  have hearly : ∀ login ∈ (loginsFor "10.0.0.1" (admin.historyOf siege (List.finRange 7))).drop 5,
      login.1 < minutes 5 + admin.policy.lockoutDuration := by decide +kernel
  exact (login_throttled admin (by decide) siege (List.finRange 7) (by decide +kernel)
    "10.0.0.1").2.1 ([0, 1, 2, 3].map fun i => (minutes i, .error .invalidCredentials)) (minutes 5)
    ((loginsFor "10.0.0.1" (admin.historyOf siege (List.finRange 7))).drop 5) (by decide +kernel)
    (by decide +kernel) login hlogin (hearly login hlogin)

end Siege

end Sessions

end Llmap
