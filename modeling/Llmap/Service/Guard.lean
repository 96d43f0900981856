import Llmap.Service.Control
/-!
# Nothing without a session

The steps of the process that an administrator alone may have made, and the
responses that an administrator alone may see: to write an account, to replace
the accounts of the router, to log a session out, to read the audit history,
and whatever else a request of the control plane has done for it, but for its
session to be checked (`Task.privilege`). A task makes none of them, and
answers with none of them, before its own request has been let in by a session,
and to change something by the session's CSRF token too (`LetIn`).

That a session lets a request in is one step, and any number of tasks run
beside it. By the log of the sessions the token was to be accepted then, and
so it was granted to a login that showed the administrator's name and password
(`privileged_steps_authorized`).
-/

namespace Llmap

namespace Service

open Providers Secrets Storage Sessions

section Guard

variable [Serde]

/-! ## What needs a session -/

/-- What a step needs, whoever makes it: a session, if anything, and whether a
CSRF token. -/
def Op.privilege : Op → Option Bool
  | .store (.upsert ..) | .store (.rotate ..) | .store (.updateAccountJson ..)
  | .store (.deleteAccount _) | .replaceAccounts _ | .resetAccountHealth _
  | .sessions (.logout _) => some true
  | .recentAudit _ | .sessions (.storeCsrf ..) | .sessions (.activeSessionCount _)
  | .sessionCount _ => some false
  | _ => none

omit [Serde] in
/-- Whether a task is an administrator's, and whether it changes anything. -/
def Task.admin : Task → Option Bool
  | .dashboard _ | .session .. | .accounts _ | .audit _ => some false
  | .logout _ | .write .. => some true
  | _ => none

/-- **What a step of a task needs.** An administrator's task reads the clock and
has its session checked first; whatever else it does needs what the task needs,
or more. -/
def Task.privilege (task : Task) (o : Op) : Option Bool :=
  match o with
  | .now | .sessions (.authenticate ..) => none
  | o =>
      match task.admin with
      | none => o.privilege
      | some changes => some (changes || o.privilege = some true)

omit [Serde] in
/-- What a response needs. -/
def Content.privilege : Content → Option Bool
  | .id _ => some true
  | .session .. | .accounts _ | .events _ | .dashboardPage => some false
  | _ => none

omit [Serde] in
/-- The headers of a request to the control plane. -/
def Task.headers : Task → HeaderMap
  | .dashboard headers | .logout headers | .session headers _ | .accounts headers
  | .write headers _ | .audit headers => headers
  | _ => []

/-- **A request that was let in**: its cookie's token was authenticated, with
the CSRF token it presents if one is required. -/
def LetIn (headers : HeaderMap) (requireCsrf : Bool) (past : Past) : Prop :=
  ∃ token required now, cookieValue headers adminSessionCookie = some token ∧
    (requireCsrf = true → required = true) ∧
    ⟨.sessions (.authenticate token (presentedCsrf headers) required now), .ok ()⟩ ∈ past

/-- What a task may do, by what it did. -/
def Permitted (task : Task) (past : Past) (o : Op) : Prop :=
  ∀ requireCsrf ∈ task.privilege o, LetIn task.headers requireCsrf past

/-- What a task may answer. -/
def Shown (task : Task) (past : Past) (response : Option Response) : Prop :=
  ∀ shown ∈ response, ∀ requireCsrf ∈ shown.content.privilege,
    LetIn task.headers requireCsrf past

variable {headers : HeaderMap} {past : Past} {task : Task}

theorem Task.privilege_eq_none {o : Op} (htask : task.admin = none) (ho : o.privilege = none) :
    task.privilege o = none := by
  unfold Task.privilege
  split
  · rfl
  · rfl
  · rw [htask]
    exact ho

/-- A step that needs a CSRF token is one of a task that changes something, or
would be of any. -/
theorem Task.privilege_eq_true {changes : Bool} {o : Op} (htask : task.admin = some changes)
    (h : task.privilege o = some true) : changes = true ∨ o.privilege = some true := by
  unfold Task.privilege at h
  split at h
  · cases h
  · cases h
  · rw [htask] at h
    simpa using h

theorem LetIn.append {requireCsrf : Bool} (h : LetIn headers requireCsrf past) (later : Past) :
    LetIn headers requireCsrf (past ++ later) := by
  obtain ⟨token, required, now, htoken, hrequired, hmem⟩ := h
  exact ⟨token, required, now, htoken, hrequired, List.mem_append_left _ hmem⟩

/-- What needs a session has one where a CSRF token has been presented. -/
theorem LetIn.of_required {requireCsrf requireCsrf' : Bool} (h : LetIn headers requireCsrf past)
    (hle : requireCsrf' = true → requireCsrf = true) : LetIn headers requireCsrf' past := by
  obtain ⟨token, required, now, htoken, hrequired, hmem⟩ := h
  exact ⟨token, required, now, htoken, fun hcsrf => hrequired (hle hcsrf), hmem⟩

/-! ## Tasks without a session -/

/-- A step that needs nothing. -/
abbrev Free (o : Op) : Prop := o.privilege = none

/-- A part that needs nothing, whatever it is answered. -/
abbrev FreePart {α : Type} (p : Part α) : Prop :=
  p.Obeys Free (fun _ _ => True) (fun _ => True)

theorem stored_free {α : Type} {p : Prog Storage.Section Storage.Section.Resp α}
    (h : p.Obeys (fun s => Free (.store s)) (fun _ _ => True) (fun _ => True)) :
    FreePart (stored p) :=
  h.lift (fun _ hs => hs) fun _ _ _ => trivial

/-- **The data plane needs no session.** -/
theorem answered_free [Sealing] [Chrono] [Digests] (setup : Setup) (o : DataPlane.Op) :
    FreePart (answered setup o) := by
  refine (answered_serves setup o).mono fun step hserves => ?_
  cases o with
  | send request =>
      obtain ⟨step, rfl⟩ := hserves
      rfl
  | count | now | elapsed | credentialSnapshot | choose | loadAccount | startRequest
  | recordOutcome | appendProxyAudit =>
      obtain rfl := hserves
      rfl

theorem refreshDueOauth_free [Sealing] [Urls] [Chrono] (box : SecretBox) (now : DateTime)
    (exchange : OAuthRefreshCandidate → Exchange) :
    FreePart (stored (refreshDueOauth box now exchange)) := by
  refine stored_free (refreshDueOauth_obeys ?_ ?_ box now exchange)
  · exact rfl
  · exact fun _ _ _ _ => rfl

/-- A task that needs nothing, and answers with nothing that does. -/
abbrev FreeTask (p : Part (Option Response)) : Prop :=
  p.Obeys Free (fun _ _ => True)
    (fun response => ∀ shown ∈ response, shown.content.privilege = none)

/-- It goes by any past, if the task is not an administrator's. -/
theorem byPast_of_free {p : Part (Option Response)} (h : FreeTask p) (htask : task.admin = none) :
    p.ByPast (Permitted task) (Shown task) past := by
  refine Prog.ByPast.of_obeys (I := fun _ => True) h trivial (fun _ _ _ _ => trivial) ?_ ?_
  · intro past o _ hfree requireCsrf hprivilege
    rw [Task.privilege_eq_none htask hfree] at hprivilege
    cases hprivilege
  · intro past response _ hresponse shown hshown requireCsrf hprivilege
    rw [hresponse shown hshown] at hprivilege
    cases hprivilege

/-! ## Tasks with one -/

/-- A step that a session without a CSRF token suffices for. -/
abbrev Reading (requireCsrf : Bool) (o : Op) : Prop := o.privilege = some true → requireCsrf = true

/-- **Once it is let in, a request may go on.** -/
theorem byPast_of_letIn {requireCsrf : Bool} {p : Part Response}
    (htask : task.admin = some requireCsrf)
    (hp : p.Obeys (Reading requireCsrf) (fun _ _ => True) (fun response =>
      response.content.privilege = some true → requireCsrf = true))
    (h : LetIn task.headers requireCsrf past) :
    p.ByPast (Permitted task) (fun past response => Shown task past (some response)) past := by
  refine Prog.ByPast.of_obeys (I := LetIn task.headers requireCsrf) hp h
    (fun past o r hin => hin.append _) ?_ ?_
  · rintro past o hin hreading (_ | _) hprivilege
    · exact hin.of_required (by simp)
    · exact hin.of_required fun _ => (Task.privilege_eq_true htask hprivilege).elim id hreading
  · rintro past response hin hreading shown hshown (_ | _) hprivilege
    · exact hin.of_required (by simp)
    · obtain rfl := Option.some.inj hshown
      exact hin.of_required fun _ => hreading hprivilege

/-- `authenticated_session` lets a request in. -/
theorem authenticatedSession_byPast (task : Task) (requireCsrf : Bool) (past : Past) :
    (authenticatedSession task.headers requireCsrf).ByPast (Permitted task)
      (fun past result => ∀ session, result = .ok session → LetIn task.headers requireCsrf past)
      past := by
  unfold authenticatedSession
  split
  · rintro session ⟨⟩
  · rename_i token htoken
    refine ⟨by rintro _ ⟨⟩, fun now => ⟨by rintro _ ⟨⟩, ?_⟩⟩
    rintro ((_ | _ | _ | _) | _)
    · rintro session ⟨⟩
    · rintro session ⟨⟩
    · rintro session ⟨⟩
    · rintro session ⟨⟩
    · intro session _
      exact ⟨token, requireCsrf, now, htoken, id, List.mem_append_right _ (by simp)⟩

/-- **A guarded handler** goes by its past, if it needs no CSRF token that it
does not require. -/
theorem guarded_byPast (task : Task) {requireCsrf : Bool} {handler : String → Part Response}
    (htask : task.admin = some requireCsrf)
    (h : ∀ session, (handler session).Obeys (Reading requireCsrf) (fun _ _ => True)
      (fun response => response.content.privilege = some true → requireCsrf = true)) :
    (guarded task.headers requireCsrf handler).ByPast (Permitted task)
      (fun past response => Shown task past (some response)) past := by
  refine (authenticatedSession_byPast task requireCsrf past).bind ?_
  rintro past (rejection | session) hin
  · intro shown hshown requireCsrf hprivilege
    obtain rfl := Option.some.inj hshown
    cases rejection <;> cases hprivilege
  · exact byPast_of_letIn htask (h session) (hin session rfl)

/-- With the CSRF token, a handler may do anything. -/
theorem obeys_with_csrf (p : Part Response) :
    p.Obeys (Reading true) (fun _ _ => True)
      (fun response => response.content.privilege = some true → true = true) := by
  induction p with
  | ret response => exact fun _ => rfl
  | call o k ih => exact ⟨fun _ => rfl, fun r _ => ih r⟩

theorem byPast_map_some {p : Part Response}
    (h : p.ByPast (Permitted task) (fun past response => Shown task past (some response)) past) :
    (some <$> p).ByPast (Permitted task) (Shown task) past :=
  h.bind fun _ _ hshown => hshown

variable [Sealing] [Urls] [Chrono] [Codecs] [Digests]

omit [Urls] [Codecs] in
/-- A request that is handled by the data plane needs no session. -/
theorem proxied_free (setup : Setup)
    (p : DataPlane.Part (Except Admin.ApiError DataPlane.ProxyResponse)) :
    FreeTask (p.subst (answered setup) >>= fun response => .ret (some (.ofProxy response))) := by
  refine (Prog.obeys_subst (answered_free setup) p).bind fun response _ => ?_
  intro shown hshown
  obtain rfl := Option.some.inj hshown
  cases response <;> rfl

theorem reverseProxied_free (setup : Setup) (request : DataPlane.Incoming) :
    FreeTask (reverseProxied setup request) := by
  unfold reverseProxied
  split
  · rintro shown ⟨⟩
  · exact proxied_free setup _

theorem handleRequest_free (setup : Setup) (request : ForwardRequest) :
    FreeTask (ForwardProxyHandler.handleRequest setup request) := by
  unfold ForwardProxyHandler.handleRequest
  split
  · intro shown hshown
    obtain rfl := Option.some.inj hshown
    rfl
  · split
    · rintro shown ⟨⟩
    · exact proxied_free setup _

/-- **Every task goes by its past**: it does nothing that needs a session,
and shows nothing, before its request has been let in. -/
theorem task_byPast (setup : Setup) (task : Task) :
    (task.prog setup).ByPast (Permitted task) (Shown task) [] := by
  cases task with
  | reverse request => exact byPast_of_free (reverseProxied_free setup request) rfl
  | forward request => exact byPast_of_free (handleRequest_free setup request) rfl
  | redirect | loginPage =>
      refine byPast_of_free (fun shown hshown => ?_) rfl
      obtain rfl := Option.some.inj hshown
      rfl
  | dashboard headers =>
      refine byPast_map_some ((authenticatedSession_byPast (.dashboard headers) false []).bind ?_)
      rintro past (rejection | session) hin shown hshown requireCsrf hprivilege
      · obtain rfl := Option.some.inj hshown
        cases hprivilege
      · obtain rfl := Option.some.inj hshown
        obtain rfl : false = requireCsrf := Option.some.inj hprivilege
        exact hin session rfl
  | login peer username password token csrfToken =>
      refine byPast_of_free (Prog.Obeys.bind (P := fun response =>
        response.content.privilege = none) ⟨rfl, fun now _ => ⟨rfl, ?_⟩⟩ ?_) rfl
      · rintro ((_ | _ | _ | _) | grant) -
        · exact rfl
        · exact rfl
        · exact rfl
        · exact rfl
        · dsimp only
          split <;> exact rfl
      · intro response hresponse shown hshown
        obtain rfl := Option.some.inj hshown
        exact hresponse
  | logout headers =>
      exact byPast_map_some
        (guarded_byPast (.logout headers) rfl fun _ => obeys_with_csrf _)
  | write headers request =>
      exact byPast_map_some
        (guarded_byPast (.write headers request) rfl fun _ => obeys_with_csrf _)
  | session headers csrfToken =>
      refine byPast_map_some (guarded_byPast (.session headers csrfToken) rfl
        fun session => ⟨nofun, fun now _ => ?_⟩)
      refine Prog.Obeys.bind (P := fun _ => True) ⟨nofun, ?_⟩ ?_
      · rintro (error | _) -
        · exact trivial
        · exact ⟨nofun, fun _ _ => trivial⟩
      · rintro (error | csrf) -
        · exact nofun
        · exact ⟨nofun, fun _ _ => ⟨nofun, fun _ _ => ⟨nofun, fun _ _ => ⟨nofun,
            fun _ _ => nofun⟩⟩⟩⟩
  | accounts headers =>
      refine byPast_map_some (guarded_byPast (.accounts headers) rfl
        fun session => ⟨nofun, fun rows _ => ?_⟩)
      dsimp only
      cases rows.mapM publicAccount <;> exact nofun
  | audit headers =>
      refine byPast_map_some (guarded_byPast (.audit headers) rfl
        fun session => ⟨nofun, ?_⟩)
      rintro (error | events) - <;> exact nofun
  | metrics =>
      refine byPast_of_free ⟨rfl, fun _ _ => ⟨rfl, fun _ _ => ⟨rfl, fun _ _ => ⟨rfl,
        fun _ _ shown hshown => ?_⟩⟩⟩⟩ rfl
      obtain rfl := Option.some.inj hshown
      rfl
  | refresh exchange =>
      exact byPast_of_free ⟨rfl, fun now _ => (refreshDueOauth_free setup.box now exchange).bind
        fun _ _ => nofun⟩ rfl

end Guard

/-! ## The sessions of a run -/

section Sessions

variable [Serde] {ι ω : Type}

/-- What a log says of the sessions. -/
def sessionsOf (log : Log ι) : List Sessions.Entry :=
  log.filterMap fun
    | (_, ⟨.sessions s, r⟩) => some ⟨s, r⟩
    | _ => none

theorem sessionsOf_append (before after : Log ι) :
    sessionsOf (before ++ after) = sessionsOf before ++ sessionsOf after :=
  List.filterMap_append

theorem mem_sessionsOf {log : Log ι} {entry : Sessions.Entry} (h : entry ∈ sessionsOf log) :
    ∃ i, (i, ⟨.sessions entry.1, entry.2⟩) ∈ log := by
  obtain ⟨⟨i, o, r⟩, hmem, hentry⟩ := List.mem_filterMap.mp h
  cases o with
  | sessions s =>
      obtain rfl := Option.some.inj hentry
      exact ⟨i, hmem⟩
  | store | recentAudit | choose | startRequest | recordOutcome | replaceAccounts
  | resetAccountHealth | sessionCount | transport | count | load | now | elapsed => cases hentry

variable [Urls] [Digests] [Argon2] [Sealing] [Chrono]
variable {world : World ω} {setup : Setup} {state : State ω}

/-- **The sessions' table and the log of a run** agree, whatever else is done
in between. -/
theorem mirrors_run {journal : Log ι} {texts : Set String}
    (hserial : Journal.Serial (world.exec setup) state journal) (hstart : state.sessions = .default)
    (hdigest : Set.InjOn setup.manager.digest texts) (hdrawn : ∀ bytes, randomToken bytes ≠ "")
    (htexts : ∀ entry ∈ sessionsOf journal, ∀ text ∈ entry.texts, text ∈ texts) :
    Mirrors setup.manager texts (logOf (sessionsOf journal)) (times (sessionsOf journal))
      (journal.state (world.exec setup) state).sessions.sessions := by
  refine hserial.final_induct (I := fun journal state =>
    (∀ entry ∈ sessionsOf journal, ∀ text ∈ Sessions.Entry.texts entry, text ∈ texts) →
      Mirrors setup.manager texts (logOf (sessionsOf journal)) (times (sessionsOf journal))
        state.sessions.sessions) ?_ ?_ htexts
  · intro _
    rw [hstart]
    exact mirrors_nil setup.manager texts
  · intro past state i o ih hall
    rw [sessionsOf_append] at hall ⊢
    have hpast := ih fun entry hentry => hall entry (List.mem_append_left _ hentry)
    cases o with
    | sessions s =>
        refine hpast.exec hdigest hdrawn s (hall _ ?_)
        exact List.mem_append_right _ (List.mem_singleton_self _)
    | store s =>
        change Mirrors setup.manager texts (logOf (sessionsOf past ++ []))
          (times (sessionsOf past ++ [])) (world.store state s).1.sessions.sessions
        rwa [List.append_nil, World.sessions_store]
    | recentAudit | choose | startRequest | recordOutcome | replaceAccounts
    | resetAccountHealth | sessionCount | transport | count | load | now | elapsed =>
        change Mirrors setup.manager texts (logOf (sessionsOf past ++ []))
          (times (sessionsOf past ++ [])) state.sessions.sessions
        rwa [List.append_nil]

omit [Chrono] [Urls] [Serde] in
/-- A login that is granted showed the administrator's name and password. -/
theorem credentialsMatch_of_login {manager : AdminSessionManager} {sessions : SessionState}
    {username password peer : String} {token csrfToken : TokenBytes} {now : DateTime}
    {grant : SessionGrant}
    (h : (manager.login sessions username password peer token csrfToken now).2 = .ok grant) :
    manager.credentialsMatch username password = true := by
  unfold AdminSessionManager.login at h
  dsimp only at h
  split at h
  · cases h
  · split at h
    · assumption
    · cases h

end Sessions

/-! ## Any tasks, however they interleave -/

section Authorized

variable [Serde] [Digests] [Argon2] {ι ω : Type}

/-- **Authorized.** Before this point of a log, the request of a task was let
in by the token of its cookie, with its CSRF token if one is required; the
sessions' log accepted them then; and a login had been granted that token
before, with the administrator's name and password. -/
def Authorized (setup : Setup) (tasks : ι → Task) (log : Log ι) (i : ι) (requireCsrf : Bool) :
    Prop :=
  ∃ token required now earlier later,
    cookieValue (tasks i).headers adminSessionCookie = some token ∧
    (requireCsrf = true → required = true) ∧
    log = earlier ++ (i, ⟨.sessions (.authenticate token (presentedCsrf (tasks i).headers) required
      now), .ok ()⟩) :: later ∧
    Accepts setup.manager.policy (logOf (sessionsOf earlier)) token
      (presentedCsrf (tasks i).headers) required now ∧
    ∃ j username password peer drawn csrfDrawn grantedAt grant,
      (j, ⟨.sessions (.login username password peer drawn csrfDrawn grantedAt), .ok grant⟩) ∈
        earlier ∧
      grant.token = token ∧ setup.manager.credentialsMatch username password = true

variable [Urls] [Sealing] [Chrono] [DecidableEq ι]
variable {world : World ω} {setup : Setup} {state : State ω} {tasks : ι → Task}

/-- What was let in was authorized. -/
theorem authorized_of_letIn [LawfulSealing] {journal : Log ι} {texts : Set String} {i : ι}
    {requireCsrf : Bool} (hserial : Journal.Serial (world.exec setup) state journal)
    (hstart : state.sessions = .default) (hnil : Sealing.base64UrlEncode [] = "")
    (hdigest : Set.InjOn setup.manager.digest texts)
    (htexts : ∀ entry ∈ sessionsOf journal, ∀ text ∈ entry.texts, text ∈ texts)
    (hfresh : ((logOf (sessionsOf journal)).filterMap Event.grant?).Nodup)
    (h : LetIn (tasks i).headers requireCsrf (Journal.own i journal)) :
    Authorized setup tasks journal i requireCsrf := by
  obtain ⟨token, required, now, htoken, hrequired, hmem⟩ := h
  obtain ⟨earlier, later, rfl, hearlier, hanswer⟩ := hserial.of_mem_own hmem
  refine ⟨token, required, now, earlier, later, htoken, hrequired, rfl, ?_⟩
  have hentry : (⟨.authenticate token (presentedCsrf (tasks i).headers) required now, .ok ()⟩ :
      Sessions.Entry) ∈ sessionsOf (earlier ++ (i, ⟨.sessions (.authenticate token
        (presentedCsrf (tasks i).headers) required now), .ok ()⟩) :: later) := by
    rw [sessionsOf_append]
    exact List.mem_append_right _ List.mem_cons_self
  have htext := htexts _ hentry
  rw [sessionsOf_append] at htexts hfresh
  have hmirrors := mirrors_run hearlier hstart hdigest (randomToken_ne_empty hnil)
    fun entry hpast => htexts entry (List.mem_append_left _ hpast)
  -- the answer it had is that of the table, and the table agrees with the log
  obtain ⟨standing, htrack, hwithin, hcsrf⟩ := hmirrors.of_authenticate hdigest
    (htext _ (by simp [Sessions.Entry.texts])) (htext _ (by simp [Sessions.Entry.texts]))
    hanswer.symm
  rw [logOf, List.filterMap_append, List.filterMap_append] at hfresh
  have hstands := (stands_iff_track (List.nodup_append.mp hfresh).1).mpr htrack
  refine ⟨⟨_, _, _, hstands, hwithin, hcsrf⟩, ?_⟩
  obtain ⟨first, hgranted⟩ := hstands.granted
  obtain ⟨⟨s, r⟩, hpast, hevent⟩ := List.mem_filterMap.mp hgranted
  obtain ⟨j, hlogin⟩ := mem_sessionsOf hpast
  obtain ⟨before, between, hbefore⟩ := List.append_of_mem hlogin
  rw [hbefore] at hearlier
  have hanswer := hearlier.answer
  cases s with
  | login username password peer drawn csrfDrawn grantedAt =>
      cases r with
      | error error => cases hevent
      | ok grant =>
          obtain ⟨htoken, -, -⟩ := Event.granted.inj (Option.some.inj hevent)
          exact ⟨j, username, password, peer, drawn, csrfDrawn, grantedAt, grant, hlogin, htoken,
            credentialsMatch_of_login hanswer.symm⟩
  | authenticate => cases r <;> cases hevent
  | storeCsrf => cases r <;> cases hevent
  | logout => cases hevent
  | activeSessionCount => cases hevent

/-- **Nothing without a session.** Whatever tasks the process has and however
their steps interleave: every step of a task that needs a session, and every
response that does, was authorized before, when the request of the task was
checked. Tokens are granted once, and digests tell the texts of the run
apart. -/
theorem privileged_steps_authorized [LawfulSealing] [Codecs] (world : World ω) (setup : Setup)
    (expiredBefore : DateTime) (database : Database) (outside : ω) (state : State ω)
    (hstart : started setup expiredBefore database outside = .ok state) (tasks : ι → Task)
    (schedule : List ι) (texts : Set String) (hnil : Sealing.base64UrlEncode [] = "")
    (hdigest : Set.InjOn setup.manager.digest texts)
    (htexts : ∀ entry ∈ sessionsOf (log world setup tasks state schedule),
      ∀ text ∈ entry.texts, text ∈ texts)
    (hfresh : ((logOf (sessionsOf (log world setup tasks state schedule))).filterMap
      Event.grant?).Nodup) :
    (∀ before i o r after, log world setup tasks state schedule = before ++ (i, ⟨o, r⟩) :: after →
      ∀ requireCsrf ∈ (tasks i).privilege o, Authorized setup tasks before i requireCsrf) ∧
    ∀ i response, ((Run.final (Pool.turn (world.exec setup)) (opening setup tasks state)
        schedule).procs i).result? = some (some response) →
      ∀ requireCsrf ∈ response.content.privilege,
        Authorized setup tasks (log world setup tasks state schedule) i requireCsrf := by
  have hempty : state.sessions = .default := by
    obtain ⟨accounts, -, rfl⟩ := map_eq_ok_iff.mp hstart
    rfl
  have hserial : Journal.Serial (world.exec setup) state (log world setup tasks state schedule) :=
    ((opening setup tasks state).journal_serial (world.exec setup) schedule).1
  refine ⟨fun before i o r after hlog requireCsrf hprivilege => ?_,
    fun i response hresult requireCsrf hprivilege => ?_⟩
  · have hpermitted := Pool.byPast_of_journal (task_byPast setup (tasks i)) hlog
    rw [hlog] at hserial
    rw [hlog, sessionsOf_append] at htexts hfresh
    rw [logOf, List.filterMap_append, List.filterMap_append] at hfresh
    exact authorized_of_letIn hserial.upTo hempty hnil hdigest
      (fun entry hentry => htexts entry (List.mem_append_left _ hentry))
      (List.nodup_append.mp hfresh).1 (hpermitted requireCsrf hprivilege)
  · have hreaches := (opening setup tasks state).reaches_own (world.exec setup) schedule i
    rw [Prog.eq_ret_of_result? hresult] at hreaches
    have hshown := (task_byPast setup (tasks i)).of_ret hreaches
    exact authorized_of_letIn hserial hempty hnil hdigest htexts hfresh
      (hshown response rfl requireCsrf hprivilege)

end Authorized

section Visit

open scoped Plain

/-- The step that logs a session out, by whom and of which token. -/
def loggedOut? : Fin 2 × (o : Op) × o.Resp → Option (Fin 2 × String)
  | (i, ⟨.sessions (.logout token), _⟩) => some (i, token)
  | _ => none

theorem eq_of_loggedOut? {entry : Fin 2 × (o : Op) × o.Resp} {i : Fin 2} {token : String}
    (h : loggedOut? entry = some (i, token)) : entry = (i, ⟨.sessions (.logout token), ()⟩) := by
  unfold loggedOut? at h
  split at h
  · obtain ⟨rfl, rfl⟩ := Prod.mk.inj (Option.some.inj h)
    rfl
  · cases h

/-- The headers of an administrator's request. -/
def presenting (token csrfToken : String) : HeaderMap :=
  [("cookie", asBytes (adminSessionCookie ++ "=" ++ token)), ("x-llmap-csrf", asBytes csrfToken)]

/-- A login, and the logout of its session. -/
def visit : Fin 2 → Task
  | 0 => .login "127.0.0.1" "admin" "correct horse" (Vector.replicate 32 1) (Vector.replicate 32 2)
  | 1 => .logout (presenting (hex (List.replicate 32 1)) (hex (List.replicate 32 2)))

/-- The session is logged out of, and that was authorized. -/
theorem privileged_steps_authorized_visit :
    let := hexadecimal
    ∃ before after, log World.still Setup.plain visit (.fresh .empty) [0, 0, 1, 1, 1] =
        before ++ (1, ⟨.sessions (.logout (hex (List.replicate 32 1))), ()⟩) :: after ∧
      Authorized Setup.plain visit before 1 true := by
  let := hexadecimal
  have := lawful_hexadecimal
  have hlogout : (log World.still Setup.plain visit (.fresh .empty) [0, 0, 1, 1, 1]).filterMap
      loggedOut? = [(1, hex (List.replicate 32 1))] := by decide +kernel
  have hmem : (1, ⟨.sessions (.logout (hex (List.replicate 32 1))), ()⟩) ∈
      log World.still Setup.plain visit (.fresh .empty) [0, 0, 1, 1, 1] := by
    obtain ⟨entry, hmem, hentry⟩ := List.mem_filterMap.mp
      (hlogout ▸ List.mem_singleton_self (1, hex (List.replicate 32 1)))
    exact eq_of_loggedOut? hentry ▸ hmem
  obtain ⟨before, after, hlog⟩ := List.append_of_mem hmem
  refine ⟨before, after, hlog, ?_⟩
  exact (privileged_steps_authorized World.still Setup.plain (minutes 0) .empty () (.fresh .empty)
    rfl visit [0, 0, 1, 1, 1] Set.univ (by decide +kernel) digest_injective.injOn
    (fun _ _ _ _ => trivial) (by decide +kernel)).1 before 1 _ _ after hlog true rfl

end Visit

end Service

end Llmap
