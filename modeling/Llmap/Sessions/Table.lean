import Llmap.Plain
import Llmap.Sessions.Log
/-!
# The sessions' table and their log

The manager keeps a table of sessions and agrees with their log. A
session in the table is what `track` says of its token, and a token that
is tracked and has no session has expired (`Mirrors`). Every section keeps
it so; what is accepted, and how many sessions are active, can then be
read off the log (`authenticate_iff_accepts`).
-/

namespace Llmap

namespace Sessions

section Mirrors

variable {log : List Event} {token : String}
variable [Digests] (manager : AdminSessionManager) (texts : Set String)

/-- **A token's standing and its session.** There is neither; or there is
a standing that has expired; or both, and the session is the standing. -/
inductive Matches (times : List DateTime) : Option Standing → Option Session → Prop
  | unknown : Matches times none none
  | expired {standing : Standing} {time : DateTime} (htime : time ∈ times)
      (hexpired : ¬ manager.policy.Within standing.createdAt standing.lastUse time) :
      Matches times (some standing) none
  | held (standing : Standing) (htext : standing.csrfToken ∈ texts)
      (hsome : standing.csrfToken ≠ "") :
      Matches times (some standing)
        (some ⟨standing.createdAt, standing.lastUse, manager.digest standing.csrfToken⟩)

/-- **The table and the log**: they match at every token, and a session is
some token's. -/
structure Mirrors (log : List Event) (times : List DateTime) (sessions : Table Bytes Session) :
    Prop where
  matched : ∀ token ∈ texts,
    Matches manager texts times (track manager.policy token log) sessions[manager.digest token]?
  keyed : ∀ key ∈ sessions, ∃ token ∈ texts, manager.digest token = key

variable {manager texts} {times : List DateTime} {sessions : Table Bytes Session}

omit [Digests] in
theorem retained_iff {now : DateTime} {session : Session} :
    manager.retained now session = true ↔
      manager.policy.Within session.createdAt session.lastSeenAt now := by
  simp [AdminSessionManager.retained, SessionPolicy.Within]

theorem Matches.mono {times' : List DateTime} {standing : Option Standing}
    {session : Option Session} (h : Matches manager texts times standing session)
    (hsub : times ⊆ times') : Matches manager texts times' standing session := by
  cases h with
  | unknown => exact .unknown
  | expired htime hexpired => exact .expired (hsub htime) hexpired
  | held standing htext hsome => exact .held standing htext hsome

/-- What is not retained at a time that has come has expired. -/
theorem Matches.retain {now : DateTime} {standing : Option Standing} {session : Option Session}
    (h : Matches manager texts times standing session) (hnow : now ∈ times) :
    Matches manager texts times standing (session.filter fun s => manager.retained now s) := by
  cases h with
  | unknown => exact .unknown
  | expired htime hexpired => exact .expired htime hexpired
  | held standing htext hsome =>
      rw [Option.filter_some]
      split_ifs with hretained
      · exact .held standing htext hsome
      · exact .expired hnow fun hwithin => hretained (retained_iff.mpr hwithin)

theorem Mirrors.mono {times' : List DateTime} (h : Mirrors manager texts log times sessions)
    (hsub : times ⊆ times') : Mirrors manager texts log times' sessions :=
  ⟨fun token htoken => (h.matched token htoken).mono hsub, h.keyed⟩

theorem Mirrors.retain {now : DateTime} (h : Mirrors manager texts log times sessions)
    (hnow : now ∈ times) :
    Mirrors manager texts log times
      (sessions.filter fun _ session => manager.retained now session) := by
  refine ⟨fun token htoken => ?_, fun key hkey => ?_⟩
  · rw [Std.ExtTreeMap.getElem?_filter']
    exact (h.matched token htoken).retain hnow
  · exact h.keyed key (Std.ExtTreeMap.mem_of_mem_filter hkey)

/-- **At one token.** What is done to a session, with what is put down of
it, need only be right at its own token. -/
theorem Mirrors.update {log' : List Event} {sessions' : Table Bytes Session}
    (hdigest : Set.InjOn manager.digest texts) (htoken : token ∈ texts)
    (h : Mirrors manager texts log times sessions)
    (htrack : ∀ token' ≠ token,
      track manager.policy token' log' = track manager.policy token' log)
    (hother : ∀ key ≠ manager.digest token, sessions'[key]? = sessions[key]?)
    (hmatch : Matches manager texts times (track manager.policy token log')
      sessions'[manager.digest token]?) :
    Mirrors manager texts log' times sessions' := by
  refine ⟨fun token' htoken' => ?_, fun key hkey => ?_⟩
  · by_cases heq : token' = token
    · rw [heq]
      exact hmatch
    · rw [htrack token' heq, hother _ fun hsame => heq (hdigest htoken' htoken hsame)]
      exact h.matched token' htoken'
  · by_cases heq : key = manager.digest token
    · exact ⟨token, htoken, heq.symm⟩
    · rw [Std.ExtTreeMap.mem_iff_isSome_getElem?, hother key heq,
        ← Std.ExtTreeMap.mem_iff_isSome_getElem?] at hkey
      exact h.keyed key hkey

/-- A session is put in with the event that changes it. -/
theorem Mirrors.insert (event : Event) {session : Session}
    (hdigest : Set.InjOn manager.digest texts) (htoken : event.token ∈ texts)
    (h : Mirrors manager texts log times sessions)
    (hmatch : Matches manager texts times
      (follow manager.policy event.token (track manager.policy event.token log) event)
      (some session)) :
    Mirrors manager texts (log ++ [event]) times
      (sessions.insert (manager.digest event.token) session) := by
  refine h.update hdigest htoken (fun token' hne => track_append_of_ne hne) ?_ ?_
  · intro key hne
    simp [Std.ExtTreeMap.getElem?_insert, hne.symm]
  · rw [track_append, Std.ExtTreeMap.getElem?_insert_self]
    exact hmatch

/-- The session a live token is authenticated against is its standing. -/
theorem Mirrors.held (h : Mirrors manager texts log times sessions) (htoken : token ∈ texts)
    {session : Session} (hsession : sessions[manager.digest token]? = some session) :
    ∃ csrf ∈ texts, csrf ≠ "" ∧ session.csrfDigest = manager.digest csrf ∧
      track manager.policy token log =
        some ⟨session.createdAt, session.lastSeenAt, csrf⟩ := by
  have hmatch := h.matched token htoken
  rw [hsession] at hmatch
  generalize htrack : track manager.policy token log = standing at hmatch
  cases hmatch with
  | held standing htext hsome => exact ⟨_, htext, hsome, rfl, rfl⟩

/-- A standing that has not expired is held. -/
theorem Mirrors.of_track {now : DateTime} (h : Mirrors manager texts log times sessions)
    (htoken : token ∈ texts) (hnow : ∀ time ∈ times, time ≤ now) {standing : Standing}
    (htrack : track manager.policy token log = some standing)
    (hwithin : manager.policy.Within standing.createdAt standing.lastUse now) :
    sessions[manager.digest token]? =
      some ⟨standing.createdAt, standing.lastUse, manager.digest standing.csrfToken⟩ := by
  have hmatch := h.matched token htoken
  rw [htrack] at hmatch
  generalize sessions[manager.digest token]? = session at hmatch
  cases hmatch with
  | expired htime hexpired => exact absurd (hwithin.of_le (hnow _ htime)) hexpired
  | held standing htext hsome => rfl

/-- **The count**: as many sessions are retained as tokens stand. -/
theorem Mirrors.size_retained {now : DateTime} (h : Mirrors manager texts log times sessions)
    (hdigest : Set.InjOn manager.digest texts) (hnow : ∀ time ∈ times, time ≤ now)
    (htracked : ∀ token standing, track manager.policy token log = some standing →
      token ∈ texts) :
    (sessions.filter fun _ session => manager.retained now session).size =
      {token | ∃ standing, track manager.policy token log = some standing ∧
        manager.policy.Within standing.createdAt standing.lastUse now}.ncard := by
  have hkeys : manager.digest '' {token | ∃ standing,
      track manager.policy token log = some standing ∧
        manager.policy.Within standing.createdAt standing.lastUse now} =
      {key | key ∈ sessions.filter fun _ session => manager.retained now session} := by
    ext key
    constructor
    · rintro ⟨token, ⟨standing, htrack, hwithin⟩, rfl⟩
      have hsession := h.of_track (htracked token standing htrack) hnow htrack hwithin
      rw [Set.mem_ofPred_eq, Std.ExtTreeMap.mem_iff_isSome_getElem?,
        Std.ExtTreeMap.getElem?_filter', hsession]
      simp [retained_iff, hwithin]
    · intro hkey
      obtain ⟨token, htoken, rfl⟩ := h.keyed key (Std.ExtTreeMap.mem_of_mem_filter hkey)
      rw [Set.mem_ofPred_eq, Std.ExtTreeMap.mem_iff_isSome_getElem?,
        Std.ExtTreeMap.getElem?_filter', Option.isSome_filter, Option.any_eq_true] at hkey
      obtain ⟨session, hsession, hretained⟩ := hkey
      obtain ⟨csrf, -, -, -, htrack⟩ := h.held htoken hsession
      exact ⟨token, ⟨_, htrack, retained_iff.mp hretained⟩, rfl⟩
  have hsub : {token | ∃ standing, track manager.policy token log = some standing ∧
      manager.policy.Within standing.createdAt standing.lastUse now} ⊆ texts := by
    rintro token ⟨standing, htrack, -⟩
    exact htracked token standing htrack
  rw [Table.size_eq_ncard, ← hkeys, (hdigest.mono hsub).ncard_image]

end Mirrors

/-! ## Section by section -/

section Exec

variable [Digests]

/-- What `authenticate` may do. -/
theorem AdminSessionManager.authenticate_cases (manager : AdminSessionManager)
    (state : SessionState) (sessionToken : String) (csrfToken : Option String)
    (requireCsrf : Bool) (now : DateTime) :
    (state.sessions[manager.digest sessionToken]? = none ∧
        manager.authenticate state sessionToken csrfToken requireCsrf now =
          (state, .error .invalidSession)) ∨
      ∃ session, state.sessions[manager.digest sessionToken]? = some session ∧
        ((¬ manager.policy.Within session.createdAt session.lastSeenAt now ∧
            manager.authenticate state sessionToken csrfToken requireCsrf now =
              ({ state with sessions := state.sessions.erase (manager.digest sessionToken) },
                .error .invalidSession)) ∨
          manager.policy.Within session.createdAt session.lastSeenAt now ∧
            ((requireCsrf = true ∧ manager.digest (csrfToken.getD "") ≠ session.csrfDigest ∧
                manager.authenticate state sessionToken csrfToken requireCsrf now =
                  (state, .error .invalidCsrf)) ∨
              (requireCsrf = true → manager.digest (csrfToken.getD "") = session.csrfDigest) ∧
                manager.authenticate state sessionToken csrfToken requireCsrf now =
                  ({ state with
                      sessions := state.sessions.insert (manager.digest sessionToken)
                        { session with lastSeenAt := now } }, .ok ()))) := by
  cases hsession : state.sessions[manager.digest sessionToken]? with
  | none => exact .inl ⟨rfl, by simp only [authenticate, hsession]⟩
  | some session =>
      refine .inr ⟨session, rfl, ?_⟩
      simp only [authenticate, hsession]
      have hexpired : manager.expired now session = true ↔
          ¬ manager.policy.Within session.createdAt session.lastSeenAt now := by
        rw [manager.expired_eq_not_retained, ← retained_iff]
        simp
      by_cases hwithin : manager.policy.Within session.createdAt session.lastSeenAt now
      · refine .inr ⟨hwithin, ?_⟩
        have hlive : ¬ manager.expired now session = true := fun h => hexpired.mp h hwithin
        by_cases hcsrf : requireCsrf = true ∧
            manager.digest (csrfToken.getD "") ≠ session.csrfDigest
        · exact .inl ⟨hcsrf.1, hcsrf.2, by rw [if_neg hlive, if_pos hcsrf]⟩
        · refine .inr ⟨fun hrequire => ?_, by rw [if_neg hlive, if_neg hcsrf]⟩
          by_contra hne
          exact hcsrf ⟨hrequire, hne⟩
      · exact .inl ⟨hwithin, by rw [if_pos (hexpired.mpr hwithin)]⟩

/-- **What is accepted stands**, with the CSRF token if one is required,
whatever the clock says. -/
theorem Mirrors.of_authenticate {manager : AdminSessionManager} {texts : Set String}
    {state : SessionState} {log : List Event} {times : List DateTime} {token : String}
    {csrfToken : Option String} {requireCsrf : Bool} {now : DateTime}
    (h : Mirrors manager texts log times state.sessions)
    (hdigest : Set.InjOn manager.digest texts) (htoken : token ∈ texts)
    (hpresented : csrfToken.getD "" ∈ texts)
    (hok : (manager.authenticate state token csrfToken requireCsrf now).2 = .ok ()) :
    ∃ standing, track manager.policy token log = some standing ∧
      manager.policy.Within standing.createdAt standing.lastUse now ∧
      (requireCsrf = true → csrfToken = some standing.csrfToken) := by
  rcases manager.authenticate_cases state token csrfToken requireCsrf now with
    ⟨-, heq⟩ | ⟨session, hsession, ⟨-, heq⟩ | ⟨hwithin, ⟨-, -, heq⟩ | ⟨hcsrf, -⟩⟩⟩
  · simp [heq] at hok
  · simp [heq] at hok
  · simp [heq] at hok
  · obtain ⟨csrf, htext, hsome, hdigested, htrack⟩ := h.held htoken hsession
    refine ⟨_, htrack, hwithin, fun hrequire => ?_⟩
    -- what is presented has the digest of the token issued, which is some text
    have hsame := hdigest hpresented htext ((hcsrf hrequire).trans hdigested)
    cases csrfToken with
    | none => exact absurd hsame.symm hsome
    | some presented => exact congrArg some hsame

/-- **What is accepted** is what stands, with the CSRF token if one is
required. -/
theorem Mirrors.authenticate_iff {manager : AdminSessionManager} {texts : Set String}
    {state : SessionState} {log : List Event} {times : List DateTime} {token : String}
    {csrfToken : Option String} {requireCsrf : Bool} {now : DateTime}
    (h : Mirrors manager texts log times state.sessions)
    (hdigest : Set.InjOn manager.digest texts) (htoken : token ∈ texts)
    (hpresented : csrfToken.getD "" ∈ texts) (hnow : ∀ time ∈ times, time ≤ now) :
    (manager.authenticate state token csrfToken requireCsrf now).2 = .ok () ↔
      ∃ standing, track manager.policy token log = some standing ∧
        manager.policy.Within standing.createdAt standing.lastUse now ∧
        (requireCsrf = true → csrfToken = some standing.csrfToken) := by
  constructor
  · exact h.of_authenticate hdigest htoken hpresented
  · rintro ⟨standing, htrack, hwithin, hcsrf⟩
    have hsession := h.of_track htoken hnow htrack hwithin
    rcases manager.authenticate_cases state token csrfToken requireCsrf now with
      ⟨hnone, -⟩ | ⟨session, hfound, ⟨hexpired, -⟩ | ⟨-, ⟨hrequire, hne, -⟩ | ⟨-, heq⟩⟩⟩
    · rw [hsession] at hnone
      cases hnone
    · obtain rfl := Option.some.inj (hsession.symm.trans hfound)
      exact absurd hwithin hexpired
    · obtain rfl := Option.some.inj (hsession.symm.trans hfound)
      exact absurd (by rw [hcsrf hrequire]; rfl) hne
    · rw [heq]

variable [Argon2] [Sealing]

/-- The texts a section takes the digests of. -/
def Entry.texts : Entry → List String
  | ⟨.login .., .ok grant⟩ => [grant.token, grant.csrfToken]
  | ⟨.login .., .error _⟩ => []
  | ⟨.authenticate sessionToken csrfToken _ _, _⟩ => [sessionToken, csrfToken.getD ""]
  | ⟨.storeCsrf sessionToken csrfToken, _⟩ => [sessionToken, randomToken csrfToken]
  | ⟨.logout sessionToken, _⟩ => [sessionToken]
  | ⟨.activeSessionCount _, _⟩ => []

/-- What `login` does with sessions. -/
theorem AdminSessionManager.login_cases (manager : AdminSessionManager)
    (state : SessionState) (username password clientKey : String) (token csrfToken : TokenBytes)
    (now : DateTime) :
    let result := manager.login state username password clientKey token csrfToken now
    let sessions := state.sessions.filter fun _ session => manager.retained now session
    (∃ error, result.2 = .error error ∧ result.1.sessions = sessions) ∨
      ∃ grant, result.2 = .ok grant ∧ grant.token = randomToken token ∧
        grant.csrfToken = randomToken csrfToken ∧
        result.1.sessions = sessions.insert (manager.digest grant.token)
          ⟨now, now, manager.digest grant.csrfToken⟩ := by
  unfold login
  dsimp only
  split
  · exact .inl ⟨_, rfl, rfl⟩
  · split
    · exact .inr ⟨_, rfl, rfl, rfl, rfl⟩
    · exact .inl ⟨_, rfl, rfl⟩

variable {manager : AdminSessionManager} {texts : Set String} {state : SessionState}
variable {history : List Entry}

omit [Digests] [Argon2] [Sealing] in
theorem logOf_append (history : List Entry) (entry : Entry) :
    logOf (history ++ [entry]) = logOf history ++ entry.event?.toList := by
  rw [logOf, List.filterMap_append]
  cases h : entry.event? <;> simp [h, logOf]

omit [Digests] [Argon2] [Sealing] in
theorem times_append (history : List Entry) (entry : Entry) :
    times (history ++ [entry]) = times history ++ entry.1.time?.toList := by
  rw [times, List.filterMap_append]
  cases h : entry.1.time? <;> simp [h, times]

/-- **Every section keeps the table and the log together**, when the texts
it takes the digests of are told apart by them, and a token drawn is some
text. -/
theorem Mirrors.exec (hdigest : Set.InjOn manager.digest texts)
    (hdrawn : ∀ bytes, randomToken bytes ≠ "") (sec : Section)
    (htexts : ∀ text ∈ Entry.texts ⟨sec, (manager.exec state sec).2⟩, text ∈ texts)
    (h : Mirrors manager texts (logOf history) (times history) state.sessions) :
    Mirrors manager texts (logOf (history ++ [⟨sec, (manager.exec state sec).2⟩]))
      (times (history ++ [⟨sec, (manager.exec state sec).2⟩]))
      (manager.exec state sec).1.sessions := by
  have hmono : times history ⊆ times (history ++ [⟨sec, (manager.exec state sec).2⟩]) := by
    rw [times_append]
    exact List.subset_append_left ..
  have hnow : ∀ now ∈ sec.time?, now ∈ times (history ++ [⟨sec, (manager.exec state sec).2⟩]) := by
    intro now hnow
    rw [times_append, Option.mem_def.mp hnow]
    simp
  replace h := h.mono hmono
  rw [logOf_append]
  generalize times (history ++ [⟨sec, (manager.exec state sec).2⟩]) = times at h hnow
  cases sec with
  | login username password clientKey token csrfToken now =>
      replace h := h.retain (hnow now rfl)
      dsimp only [AdminSessionManager.exec] at htexts ⊢
      rcases manager.login_cases state username password clientKey token csrfToken now with
        ⟨error, herror, hsessions⟩ | ⟨grant, hgrant, -, hcsrf, hsessions⟩
      · rw [herror, hsessions]
        simpa [Entry.event?] using h
      · rw [hgrant] at htexts
        rw [hgrant, hsessions]
        have htoken : grant.token ∈ texts := htexts _ (by simp [Entry.texts])
        have htext : grant.csrfToken ∈ texts := htexts _ (by simp [Entry.texts])
        refine h.insert (.granted grant.token grant.csrfToken now) hdigest htoken ?_
        simp only [follow, Event.token, if_true]
        exact .held ⟨now, now, grant.csrfToken⟩ htext (hcsrf ▸ hdrawn csrfToken)
  | authenticate sessionToken csrfToken requireCsrf now =>
      dsimp only [AdminSessionManager.exec] at htexts ⊢
      have htoken : sessionToken ∈ texts := htexts _ (by simp [Entry.texts])
      rcases manager.authenticate_cases state sessionToken csrfToken requireCsrf now with
        ⟨-, heq⟩ | ⟨session, hsession, ⟨hexpired, heq⟩ | ⟨hwithin, ⟨-, -, heq⟩ | ⟨-, heq⟩⟩⟩
      · rw [heq]
        simpa [Entry.event?] using h
      · rw [heq]
        obtain ⟨csrf, -, -, -, htrack⟩ := h.held htoken hsession
        simp only [Entry.event?, Option.toList_none, List.append_nil]
        refine h.update hdigest htoken (fun _ _ => rfl) ?_ ?_
        · intro key hne
          simp [Std.ExtTreeMap.getElem?_erase, hne.symm]
        · rw [htrack, Std.ExtTreeMap.getElem?_erase_self]
          exact .expired (hnow now rfl) hexpired
      · rw [heq]
        simpa [Entry.event?] using h
      · rw [heq]
        obtain ⟨csrf, htext, hsome, hcsrf, htrack⟩ := h.held htoken hsession
        refine h.insert (.used sessionToken now) hdigest htoken ?_
        simp only [follow, Event.token, if_true, htrack, Option.filter_some, hwithin, hcsrf,
          decide_true, Option.map_some]
        exact .held ⟨session.createdAt, now, csrf⟩ htext hsome
  | storeCsrf sessionToken csrfToken =>
      have htoken : sessionToken ∈ texts := htexts _ (by simp [Entry.texts])
      have htext : randomToken csrfToken ∈ texts := htexts _ (by simp [Entry.texts])
      cases hsession : state.sessions[manager.digest sessionToken]? with
      | none =>
          simpa [AdminSessionManager.exec, AdminSessionManager.storeCsrf, hsession, Entry.event?]
            using h
      | some session =>
          obtain ⟨csrf, -, -, -, htrack⟩ := h.held htoken hsession
          simp only [AdminSessionManager.exec, AdminSessionManager.storeCsrf, hsession,
            Entry.event?, Option.toList_some]
          refine h.insert (.issued sessionToken (randomToken csrfToken)) hdigest htoken ?_
          simp only [follow, Event.token, if_true, htrack, Option.map_some]
          exact .held ⟨session.createdAt, session.lastSeenAt, randomToken csrfToken⟩ htext
            (hdrawn csrfToken)
  | logout sessionToken =>
      have htoken : sessionToken ∈ texts := htexts _ (by simp [Entry.texts])
      refine h.update hdigest htoken (fun token' hne => track_append_of_ne hne) ?_ ?_
      · intro key hne
        simp [AdminSessionManager.exec, AdminSessionManager.logout, Std.ExtTreeMap.getElem?_erase,
          hne.symm]
      · simp only [AdminSessionManager.exec, AdminSessionManager.logout, Entry.event?,
          Option.toList_some, track_append, follow, if_true, Std.ExtTreeMap.getElem?_erase_self]
        exact .unknown
  | activeSessionCount now =>
      have hretained := h.retain (hnow now rfl)
      simpa [Entry.event?, AdminSessionManager.exec, AdminSessionManager.activeSessionCount]
        using hretained

omit [Digests] [Argon2] in
/-- What is put down of a token has a text the section took the digest
of. -/
theorem Entry.mem_texts {entry : Entry} {event : Event} (h : entry.event? = some event) :
    event.token ∈ entry.texts := by
  obtain ⟨sec, answer⟩ := entry
  cases sec with
  | login =>
      cases answer with
      | error => cases h
      | ok grant =>
          cases h
          simp [Event.token, Entry.texts]
  | authenticate =>
      cases answer with
      | error => cases h
      | ok =>
          cases h
          simp [Event.token, Entry.texts]
  | storeCsrf =>
      cases answer with
      | error => cases h
      | ok =>
          cases h
          simp [Event.token, Entry.texts]
  | logout =>
      cases h
      simp [Event.token, Entry.texts]
  | activeSessionCount => cases h

/-! ## Any calls, however they interleave -/

/-- A call that is rejected is not put down. -/
theorem event?_of_rejected {token : String} {csrfToken : Option String} {requireCsrf : Bool}
    {now : DateTime}
    (h : (manager.exec state (.authenticate token csrfToken requireCsrf now)).2 ≠ .ok ()) :
    Entry.event? ⟨.authenticate token csrfToken requireCsrf now,
      (manager.exec state (.authenticate token csrfToken requireCsrf now)).2⟩ = none := by
  generalize (manager.exec state (.authenticate token csrfToken requireCsrf now)).2 = answer at h
  cases answer with
  | error => rfl
  | ok => exact absurd rfl h

omit [Digests] [Argon2] [Sealing] in
theorem mirrors_nil (manager : AdminSessionManager) [Digests] (texts : Set String) :
    Mirrors manager texts [] [] (SessionState.default).sessions := by
  refine ⟨fun token htoken => ?_, fun key hkey => ?_⟩
  · simp only [track, List.foldl_nil, SessionState.default, Std.ExtTreeMap.getElem?_empty]
    exact .unknown
  · simp [SessionState.default] at hkey

/-- **The table and the log of any calls**, however their sections
interleave. -/
theorem mirrors_history {ι : Type} [DecidableEq ι] {calls : ι → Call} {schedule : List ι}
    (hdigest : Set.InjOn manager.digest texts) (hdrawn : ∀ bytes, randomToken bytes ≠ "")
    (htexts : ∀ entry ∈ manager.historyOf calls schedule, ∀ text ∈ entry.texts, text ∈ texts) :
    Mirrors manager texts (logOf (manager.historyOf calls schedule))
      (times (manager.historyOf calls schedule)) (manager.stateAfter calls schedule).sessions := by
  refine Pool.history_induct (I := fun history state =>
    (∀ entry ∈ history, ∀ text ∈ Entry.texts entry, text ∈ texts) →
      Mirrors manager texts (logOf history) (times history) state.sessions) ?_ ?_ htexts
  · intro history state sec ih hall
    refine (ih fun entry hentry => hall entry (List.mem_append_left _ hentry)).exec hdigest hdrawn
      sec (hall _ ?_)
    exact List.mem_append_right _ (List.mem_singleton_self _)
  · intro _
    exact mirrors_nil manager texts

omit [Digests] [Argon2] in
/-- A drawn token is some text, where no bytes are written as none. -/
theorem randomToken_ne_empty [LawfulSealing] (hnil : Sealing.base64UrlEncode [] = "")
    (bytes : TokenBytes) : randomToken bytes ≠ "" := by
  intro hempty
  have hdecode := congrArg Sealing.base64UrlDecode (hempty.trans hnil.symm)
  rw [randomToken, LawfulSealing.base64Url_decode_encode, LawfulSealing.base64Url_decode_encode]
    at hdecode
  have hlength := congrArg List.length (Option.some.inj hdecode)
  simp at hlength

/-- **Sessions refine their log.** Whatever calls are made of a manager and
however their sections interleave, at any time that is not before the
times so far: a token is authenticated exactly when the log says it is to
be accepted; a call that is rejected changes nothing of what is accepted
later; and there are as many active sessions as tokens to be accepted.
Tokens are granted once, and digests tell the texts of the run apart. -/
theorem authenticate_iff_accepts [LawfulSealing] {ι : Type} [DecidableEq ι]
    (manager : AdminSessionManager) (calls : ι → Call) (schedule : List ι) (texts : Set String)
    (hnil : Sealing.base64UrlEncode [] = "") (hdigest : Set.InjOn manager.digest texts)
    (htexts : ∀ entry ∈ manager.historyOf calls schedule, ∀ text ∈ entry.texts, text ∈ texts)
    (hfresh : ((logOf (manager.historyOf calls schedule)).filterMap Event.grant?).Nodup)
    (now : DateTime) (hnow : ∀ time ∈ times (manager.historyOf calls schedule), time ≤ now) :
    let log := logOf (manager.historyOf calls schedule)
    let state := manager.stateAfter calls schedule
    (∀ token ∈ texts, ∀ csrfToken : Option String, csrfToken.getD "" ∈ texts →
      ∀ requireCsrf,
        let result := manager.authenticate state token csrfToken requireCsrf now
        (result.2 = .ok () ↔ Accepts manager.policy log token csrfToken requireCsrf now) ∧
          (result.2 ≠ .ok () →
            ∀ token' ∈ texts, ∀ csrfToken' : Option String, csrfToken'.getD "" ∈ texts →
              ∀ requireCsrf' later, now ≤ later →
                ((manager.authenticate result.1 token' csrfToken' requireCsrf' later).2 = .ok () ↔
                  Accepts manager.policy log token' csrfToken' requireCsrf' later))) ∧
      (manager.activeSessionCount state now).2 =
        {token | Accepts manager.policy log token none false now}.ncard := by
  intro log state
  have hdrawn := randomToken_ne_empty hnil
  have hmirrors := mirrors_history hdigest hdrawn htexts
  have haccepts {token : String} {csrfToken : Option String} {requireCsrf : Bool}
      {now : DateTime} : Accepts manager.policy log token csrfToken requireCsrf now ↔ _ :=
    accepts_iff_track hfresh
  refine ⟨fun token htoken csrfToken hcsrf requireCsrf => ⟨?_, fun hrejected => ?_⟩, ?_⟩
  · rw [haccepts]
    exact hmirrors.authenticate_iff hdigest htoken hcsrf hnow
  · intro token' htoken' csrfToken' hcsrf' requireCsrf' later hlater
    rw [haccepts]
    -- the rejected call is one more section, and is not put down
    have hafter := hmirrors.exec hdigest hdrawn
      (.authenticate token csrfToken requireCsrf now) (by simp [Entry.texts, htoken, hcsrf])
    rw [logOf_append, event?_of_rejected hrejected, Option.toList_none, List.append_nil] at hafter
    refine hafter.authenticate_iff hdigest htoken' hcsrf' fun time htime => ?_
    rw [times_append, List.mem_append] at htime
    rcases htime with hpast | hlast
    · exact (hnow time hpast).trans hlater
    · simp only [Section.time?, Option.toList_some, List.mem_singleton] at hlast
      rw [hlast]
      exact hlater
  · simp only [haccepts, Bool.false_eq_true, false_implies, and_true]
    refine hmirrors.size_retained hdigest hnow fun token standing htrack => ?_
    obtain ⟨event, hevent, rfl⟩ := exists_of_track htrack
    obtain ⟨entry, hentry, hput⟩ := List.mem_filterMap.mp hevent
    exact htexts entry hentry _ (Entry.mem_texts hput)

end Exec

/-! ## A day -/

section Day

open scoped Plain

/-- Two sessions, one of them used, given another CSRF token and used
again, and the other logged out of. -/
def day : Fin 6 → Call
  | 0 => .login "admin" "correct horse" "127.0.0.1" (Vector.replicate 32 1)
      (Vector.replicate 32 2) (minutes 0)
  | 1 => .login "admin" "correct horse" "127.0.0.1" (Vector.replicate 32 3)
      (Vector.replicate 32 4) (minutes 10)
  | 2 => .authenticate (randomToken (Vector.replicate 32 1)) none false (minutes 20)
  | 3 => .issueCsrf (randomToken (Vector.replicate 32 1)) (Vector.replicate 32 5) (minutes 25)
  | 4 => .logout (randomToken (Vector.replicate 32 3))
  | 5 => .activeSessionCount (minutes 30)

theorem digest_injective : Function.Injective admin.digest := asBytes_injective

/-- The logout comes between the two sections of the CSRF token's issue;
half an hour after it the session that is left is still to be accepted,
with the new CSRF token. -/
theorem authenticate_iff_accepts_day :
    let schedule : List (Fin 6) := [0, 1, 2, 3, 4, 3, 5]
    let token := randomToken (Vector.replicate 32 1)
    let csrfToken := randomToken (Vector.replicate 32 5)
    ((admin.authenticate (admin.stateAfter day schedule) token (some csrfToken) true
        (minutes 55)).2 = .ok () ↔
      Accepts admin.policy (logOf (admin.historyOf day schedule)) token (some csrfToken) true
        (minutes 55)) ∧
      (admin.authenticate (admin.stateAfter day schedule) token (some csrfToken) true
        (minutes 55)).2 = .ok () := by
  refine ⟨((authenticate_iff_accepts admin day [0, 1, 2, 3, 4, 3, 5] Set.univ (by decide +kernel)
    digest_injective.injOn (fun _ _ _ _ => trivial) (by decide +kernel) (minutes 55)
    (by decide +kernel)).1 _ trivial _ trivial true).1, by decide +kernel⟩

end Day

end Sessions

end Llmap
