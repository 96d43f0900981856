import Llmap.Admin.Routes
import Llmap.Storage.Accounts
/-!
# What a handler reports

A handler that writes accounts writes first, and does more after: it
appends to the audit log, refreshes the routes, resets the health of the
account. Each of these may fail, and a handler that fails says so, whether
or not it has written.

To say what fails, the handlers are given over the functions they call
(`Request.calls`), each of which answers or fails, with an error of its
own or with one of SQLite. Where SQLite does not fail they are the
handlers of the sections (`subst_calls`).
-/

namespace Llmap

namespace Admin

open Providers Secrets Routing Storage DataPlane

/-! ## Calls -/

/-- What a handler calls. -/
inductive Call where
  | loadAccount (accountId : String)
  | writeCredential (ambient : Ambient) (account : ProviderAccount) (credential : String)
      (rotates : Bool)
  | setAccountEnabled (accountId : String) (enabled : Bool)
  | deleteAccount (accountId : String)
  | appendAudit (event : AuditEvent)
  | routeAccounts
  | replaceRouteAccounts (accounts : List RouteAccount)
  | resetAccountHealth (accountId : String)

/-- What it is answered. -/
abbrev Call.Resp : Call → Type
  | .loadAccount _ => Except StorageError (ProviderAccount × String)
  | .writeCredential .. | .setAccountEnabled .. | .deleteAccount _ | .appendAudit _ =>
      Except StorageError Unit
  | .routeAccounts => Except StorageError (List RouteAccount)
  | .replaceRouteAccounts _ => Unit
  | .resetAccountHealth _ => Except DataPlaneError Unit

/-- A handler, by its calls. -/
abbrev Calls := Prog Call Call.Resp (Except ApiError Reply)

/-- `refresh_routes`, and what comes after it. -/
def refreshCalls (next : Calls) : Calls :=
  .call .routeAccounts fun
    | .error error => .ret (.error (storageError error))
    | .ok accounts => .call (.replaceRouteAccounts accounts) fun _ => next

/-- How the handlers that pause, resume and delete end. -/
def finishCalls (ambient : Ambient) (action accountId : String) :
    Except StorageError Unit → Calls
  | .error error => .ret (.error (storageError error))
  | .ok () =>
      .call (.appendAudit (auditEvent ambient.auditedAt action accountId none 204)) fun _ =>
        refreshCalls (.ret (.ok ⟨204, none⟩))

/-- `admin_create_account_api` after its write. -/
def createdCalls (ambient : Ambient) (account : ProviderAccount) : Calls :=
  .call (.appendAudit (auditEvent ambient.auditedAt "account.upsert" account.id
    (some (providerName account.kind)) 201)) fun _ =>
  refreshCalls (.call (.resetAccountHealth account.id) fun
    | .error error => .ret (.error (dataPlaneError error))
    | .ok () => .ret (.ok ⟨201, some account.id⟩))

/-- `admin_rotate_account_credential_api` after its write. -/
def rotatedCalls (ambient : Ambient) (accountId : String) (account : ProviderAccount) : Calls :=
  .call (.resetAccountHealth accountId) fun
    | .error error => .ret (.error (dataPlaneError error))
    | .ok () =>
        .call (.appendAudit (auditEvent ambient.auditedAt "account.credential.rotate" accountId
          (some (providerName account.kind)) 204)) fun _ => .ret (.ok ⟨204, none⟩)

/-- A write of a credential, and what comes after it. -/
def writeCalls (ambient : Ambient) (account : ProviderAccount) (credential : String)
    (rotates : Bool) (next : Calls) : Calls :=
  .call (.writeCredential ambient account credential rotates) fun
    | .error error => .ret (.error (storageError error))
    | .ok () => next

section Handlers

variable [Serde] [Sealing] [Urls] [Chrono]

omit [Serde] [Sealing] [Chrono] in
/-- The handler of a request, by its calls. -/
def Request.calls : Request → Calls
  | .create ambient input =>
      match validateAccountInput input with
      | .error message =>
          .ret (.error ⟨400, "invalid_account", message,
            "Correct the account fields and retry. Credentials and proxy userinfo are write-only."⟩)
      | .ok () =>
          if input.kind = .claudeOauth then
            .call (.loadAccount input.id) fun loaded =>
              writeCalls ambient input.account input.credential loaded.isOk
                (createdCalls ambient input.account)
          else
            writeCalls ambient input.account input.credential false
              (createdCalls ambient input.account)
  | .rotate ambient accountId credential =>
      if credentialAccepted credential = false then
        .ret (.error ⟨400, "invalid_credential",
          "Credential must be present and no larger than 32 KiB.",
          "Paste the complete provider credential or OAuth envelope and retry."⟩)
      else
        .call (.loadAccount accountId) fun
          | .error error => .ret (.error (storageError error))
          | .ok (account, _) =>
              writeCalls ambient account credential (account.kind = .claudeOauth)
                (rotatedCalls ambient accountId account)
  | .setEnabled ambient accountId enabled =>
      .call (.setAccountEnabled accountId enabled)
        (finishCalls ambient (if enabled then "account.resume" else "account.pause") accountId)
  | .delete ambient accountId =>
      .call (.deleteAccount accountId) (finishCalls ambient "account.delete" accountId)

/-- What carries a call out. -/
def Call.part (box : SecretBox) : (c : Call) → Part c.Resp
  | .loadAccount accountId => stored (Storage.loadAccount box accountId)
  | .writeCredential ambient account credential rotates =>
      Admin.writeCredential box ambient account credential rotates
  | .setAccountEnabled accountId enabled => stored (Storage.setAccountEnabled accountId enabled)
  | .deleteAccount accountId => stored (Storage.deleteAccount accountId)
  | .appendAudit event => stored (Storage.appendAudit event)
  | .routeAccounts => stored Storage.routeAccounts
  | .replaceRouteAccounts accounts => Prog.op (Op.replaceRouteAccounts accounts)
  | .resetAccountHealth accountId => Admin.resetAccountHealth accountId

/-! ## The same handlers -/

/-- What a handler does after `refresh_routes`. -/
def refreshed (next : Handler) : Except StorageError Unit → Handler
  | .error error => .ret (.error (storageError error))
  | .ok () => next

theorem subst_refreshCalls (box : SecretBox) (next : Calls) :
    (refreshCalls next).subst (Call.part box) =
      refreshRoutes >>= refreshed (next.subst (Call.part box)) := by
  simp only [refreshCalls, Prog.subst, Call.part, refreshRoutes, Prog.bind_assoc]
  refine congrArg _ (funext fun answer => ?_)
  cases answer <;> rfl

theorem subst_finishCalls (box : SecretBox) (ambient : Ambient) (action accountId : String)
    (written : Except StorageError Unit) :
    (finishCalls ambient action accountId written).subst (Call.part box) =
      finishWrite ambient action accountId written := by
  cases written with
  | error error => rfl
  | ok done =>
      simp only [finishCalls, Prog.subst, subst_refreshCalls, Call.part, finishWrite]
      rfl

theorem subst_createCalls (box : SecretBox) (ambient : Ambient) (account : ProviderAccount)
    (credential : String) (rotates : Bool) :
    (writeCalls ambient account credential rotates (createdCalls ambient account)).subst
      (Call.part box) = createAccount box ambient account credential rotates := by
  simp only [writeCalls, createdCalls, Prog.subst, Call.part, createAccount]
  refine congrArg _ (funext fun written => ?_)
  cases written with
  | error error => rfl
  | ok done =>
      simp only [Prog.subst, subst_refreshCalls, Call.part]
      refine congrArg _ (funext fun _ => congrArg _ (funext fun refreshed => ?_))
      cases refreshed with
      | error error => rfl
      | ok done =>
          dsimp only [Admin.refreshed]
          refine congrArg _ (funext fun reset => ?_)
          cases reset <;> rfl

/-- **The calls are the handlers'.** Carried out section by section, they
are the programs of the handlers. -/
theorem subst_calls (box : SecretBox) (request : Request) :
    request.calls.subst (Call.part box) = request.handler box := by
  cases request with
  | create ambient input =>
      simp only [Request.calls, Request.handler, adminCreateAccountApi]
      cases validateAccountInput input with
      | error message => rfl
      | ok done =>
          simp only [createRotates]
          by_cases hkind : input.kind = .claudeOauth
          · have hkind' : input.account.kind = .claudeOauth := hkind
            simp only [if_pos hkind, if_pos hkind', Prog.subst, subst_createCalls, Call.part,
              Prog.bind_assoc]
            rfl
          · have hkind' : input.account.kind ≠ .claudeOauth := hkind
            simp only [if_neg hkind, if_neg hkind', subst_createCalls]
            rfl
  | rotate ambient accountId credential =>
      simp only [Request.calls, Request.handler, adminRotateAccountCredentialApi]
      split
      · rfl
      · simp only [Prog.subst, Call.part]
        refine congrArg _ (funext fun loaded => ?_)
        cases loaded with
        | error error => rfl
        | ok loaded =>
            simp only [writeCalls, rotatedCalls, Prog.subst, Call.part]
            refine congrArg _ (funext fun written => ?_)
            cases written with
            | error error => rfl
            | ok done =>
                dsimp only
                simp only [Prog.subst, Call.part]
                refine congrArg _ (funext fun reset => ?_)
                cases reset with
                | error error => rfl
                | ok done => rfl
  | setEnabled ambient accountId enabled =>
      simp only [Request.calls, Request.handler, adminSetAccountEnabledApi, Prog.subst, Call.part,
        subst_finishCalls]
  | delete ambient accountId =>
      simp only [Request.calls, Request.handler, adminDeleteAccountApi, Prog.subst, Call.part,
        subst_finishCalls]

/-! ## Runs in which SQLite may fail -/

omit [Serde] [Sealing] [Urls] [Chrono] in
/-- What a call is answered when SQLite fails. The router's do not ask
it. -/
def Call.broken (message : String) : (c : Call) → Option c.Resp
  | .loadAccount _ => some (.error (.database message))
  | .writeCredential .. => some (.error (.database message))
  | .setAccountEnabled .. => some (.error (.database message))
  | .deleteAccount _ => some (.error (.database message))
  | .appendAudit _ => some (.error (.database message))
  | .routeAccounts => some (.error (.database message))
  | .replaceRouteAccounts _ => none
  | .resetAccountHealth _ => none

/-- Which calls SQLite fails at, and the text of its error. -/
abbrev Faults := Call → Option String

/-- Carries a call out. One that SQLite fails at writes nothing. -/
def State.call (box : SecretBox) (faults : Faults) (state : State) (c : Call) : State × c.Resp :=
  match (faults c).bind c.broken with
  | some answer => (state, answer)
  | none => (c.part box).run State.exec state

/-- What a request comes to. -/
def answered (box : SecretBox) (faults : Faults) (state : State) (request : Request) :
    State × Except ApiError Reply :=
  request.calls.run (State.call box faults) state

/-- Where SQLite does not fail, it is what the handler comes to. -/
theorem answered_of_none (box : SecretBox) (state : State) (request : Request) :
    answered box (fun _ => none) state request = (request.handler box).run State.exec state := by
  rw [← subst_calls, Prog.run_subst]
  rfl

omit [Sealing] [Urls] [Chrono] in
theorem run_stored {α : Type} (p : Prog Section Section.Resp α) (state : State) :
    (stored p).run State.exec state =
      ({ state with database := (p.run Database.exec state.database).1 },
        (p.run Database.exec state.database).2) := by
  induction p generalizing state with
  | ret a => rfl
  | call s k ih => exact ih _ _

/-! ## What a write does -/

/-- **Rewritten under one id**: what is there now parses, and the rows of
the other accounts are as they were. -/
structure Rewrites (accountId : String) (before after : Database) : Prop where
  others : ∀ id, id ≠ accountId → after.providerAccounts[id]? = before.providerAccounts[id]?
  own : ∀ row, after.providerAccounts[accountId]? = some row → Parses row

/-- **A write is made or it is not.** A call that fails has written
nothing; one that does not has left the router, the audit log and the other
accounts alone. -/
structure Writes (accountId : String) (before after : State) (answer : Except StorageError Unit) :
    Prop where
  failed : ∀ error, answer = .error error → after = before
  router : after.router = before.router
  audits : after.database.auditEvents = before.database.auditEvents
  made : answer = .ok () → Rewrites accountId before.database after.database

variable {box : SecretBox} {faults : Faults} {state : State}

omit [Sealing] [Urls] [Chrono] in
theorem Writes.refused (accountId : String) (error : StorageError) :
    Writes accountId state state (.error error) :=
  ⟨fun _ _ => rfl, rfl, rfl, nofun⟩

omit [Sealing] [Urls] [Chrono] in
theorem audits_exec {database : Database} {s : Section} (h : ∀ row, s ≠ .insertAudit row) :
    (database.exec s).1.auditEvents = database.auditEvents := by
  cases s with
  | insertAudit row => exact absurd rfl (h row)
  | replace id expected ciphertext expiresAt =>
      simp only [Database.exec]
      split <;> rfl
  | deleteAccount id =>
      simp only [Database.exec]
      split <;> rfl
  | _ => rfl

/-- No operation on accounts is in the audit log. -/
theorem audits_apply (box : SecretBox) (database : Database) (op : Storage.Op) :
    (op.apply box database).1.auditEvents = database.auditEvents := by
  rcases apply_cases box database op with ⟨hsame, -⟩ | ⟨s, hs, heq⟩
  · rw [hsame]
  · rw [heq]
    exact audits_exec (by cases hs <;> simp)

section Made

variable [LawfulSerde] [LawfulSealing]

/-- What an operation writes under its id parses. A refresh is none of them:
it keeps what is there. -/
theorem parses_apply {op : Storage.Op} {database : Database} {row : AccountRow}
    (hop : ∀ nonce candidate refreshed previousValidUntil,
      op ≠ .replace nonce candidate refreshed previousValidUntil)
    (hmade : (op.apply box database).2 = .ok true)
    (hrow : (op.apply box database).1.providerAccounts[op.id]? = some row) : Parses row := by
  rcases apply_cases box database op with ⟨-, hnot⟩ | ⟨s, hs, heq⟩
  · exact absurd hmade hnot
  · rw [heq] at hrow
    cases hs with
    | upsert hsealed =>
        obtain ⟨redacted, hredacted, -, -⟩ := sealedRow_spec hsealed
        obtain rfl := Option.some.inj (by simpa [Storage.Op.id] using hrow)
        exact ⟨_, hredacted⟩
    | rotate hsealed =>
        obtain ⟨redacted, hredacted, -, -⟩ := sealedRow_spec hsealed
        obtain rfl := Option.some.inj (by simpa [Storage.Op.id] using hrow)
        exact ⟨_, hredacted⟩
    | replace => exact absurd rfl (hop _ _ _ _)
    | setEnabled hbefore haccount =>
        simp only [hbefore, Storage.Op.id, Database.accounts_updateAccountJson, if_true,
          Option.map_some, Option.some.injEq] at hrow
        rw [← hrow]
        exact ⟨_, LawfulSerde.accountFromStr_toString _⟩
    | delete => simp [Storage.Op.id] at hrow

/-- A function of the store that is an operation writes so. -/
theorem Writes.of_op (box : SecretBox) (op : Storage.Op) {p : Store Unit}
    (h : op.prog box = p.done)
    (hop : ∀ nonce candidate refreshed previousValidUntil,
      op ≠ .replace nonce candidate refreshed previousValidUntil) :
    Writes op.id state ((stored p).run State.exec state).1
      ((stored p).run State.exec state).2 := by
  have hdone : op.apply box state.database =
      ((p.run Database.exec state.database).1,
        (p.run Database.exec state.database).2.map fun _ => true) := by
    rw [Storage.Op.apply, h]
    exact Prog.run_bind _ _ _
  rw [run_stored]
  refine ⟨fun error herror => ?_, rfl, ?_, fun hok => ?_⟩
  · have hfailed : ∃ error, (op.apply box state.database).2 = .error error := by
      rw [hdone]
      cases hanswer : (p.run Database.exec state.database).2 with
      | error error => exact ⟨error, rfl⟩
      | ok done =>
          rw [hanswer] at herror
          cases herror
    obtain ⟨error, hfailed⟩ := hfailed
    have hsame := apply_of_error hfailed
    rw [hdone] at hsame
    exact congrArg (fun database => { state with database := database }) hsame
  · have haudits := audits_apply box state.database op
    rw [hdone] at haudits
    exact haudits
  · have hmade : (op.apply box state.database).2 = .ok true := by
      rw [hdone]
      exact congrArg (Except.map fun _ => true) hok
    have hafter : (op.apply box state.database).1 = (p.run Database.exec state.database).1 :=
      congrArg Prod.fst hdone
    refine ⟨fun id hne => ?_, fun row hrow => parses_apply hop hmade ?_⟩
    · change (p.run Database.exec state.database).1.providerAccounts[id]? = _
      rw [← hafter]
      exact (apply_of_ne hne).1
    · rw [hafter]
      exact hrow

theorem call_writeCredential (box : SecretBox) (faults : Faults) (state : State)
    (ambient : Ambient) (account : ProviderAccount) (credential : String) (rotates : Bool) :
    let c := Call.writeCredential ambient account credential rotates
    Writes account.id state (state.call box faults c).1 (state.call box faults c).2 := by
  intro c
  unfold State.call
  cases hfault : faults c with
  | some message => exact .refused _ _
  | none =>
      cases rotates with
      | true =>
          exact Writes.of_op box (.rotate ambient.nonces account credential
            (ambient.now + minutes 10)) rfl (by simp)
      | false => exact Writes.of_op box (.upsert ambient.nonces account credential) rfl (by simp)

theorem call_setAccountEnabled (box : SecretBox) (faults : Faults) (state : State)
    (accountId : String) (enabled : Bool) :
    let c := Call.setAccountEnabled accountId enabled
    Writes accountId state (state.call box faults c).1 (state.call box faults c).2 := by
  intro c
  unfold State.call
  cases hfault : faults c with
  | some message => exact .refused _ _
  | none => exact Writes.of_op box (.setEnabled accountId enabled) rfl (by simp)

theorem call_deleteAccount (box : SecretBox) (faults : Faults) (state : State)
    (accountId : String) :
    let c := Call.deleteAccount accountId
    Writes accountId state (state.call box faults c).1 (state.call box faults c).2 := by
  intro c
  unfold State.call
  cases hfault : faults c with
  | some message => exact .refused _ _
  | none => exact Writes.of_op box (.delete accountId) rfl (by simp)

end Made

/-! ## What comes after it -/

/-- The accounts can be read and handed to the router. -/
def Refreshes (faults : Faults) (database : Database) : Prop :=
  faults .routeAccounts = none ∧ ∃ accounts, routeList (accountRows database) = .ok accounts

omit [Sealing] [Chrono] in
/-- They can if every row holds an account. -/
theorem exists_routeList_iff {database : Database} :
    (∃ accounts, routeList (accountRows database) = .ok accounts) ↔
      ∀ (id : String) (row : AccountRow), database.providerAccounts[id]? = some row →
        Parses row := by
  rw [← exists_listed_iff]
  change (∃ accounts, (listAccounts.run Database.exec database).2.map _ = .ok accounts) ↔ _
  cases (listAccounts.run Database.exec database).2 with
  | error error => simp [Except.map]
  | ok listed => simp [Except.map]

omit [Sealing] [Chrono] in
/-- After a write under one id, that is up to the other accounts. -/
theorem Rewrites.refreshes_iff {accountId : String} {before after : Database}
    (h : Rewrites accountId before after) :
    Refreshes faults after ↔ faults .routeAccounts = none ∧
      ∀ id row, id ≠ accountId → before.providerAccounts[id]? = some row → Parses row := by
  unfold Refreshes
  rw [exists_routeList_iff]
  refine and_congr_right fun _ => ⟨fun hall id row hne hrow => ?_, fun hothers id row hrow => ?_⟩
  · exact hall id row ((h.others id hne).trans hrow)
  · by_cases hid : id = accountId
    · subst hid
      exact h.own row hrow
    · exact hothers id row hid ((h.others id hid).symm.trans hrow)

/-- **What a handler reports** of a write to an account, from the state
the write left: the accounts stay as they are, it succeeds if `good` and
otherwise fails, and if it succeeds it has appended one event, which names
the account. -/
structure Reports (accountId : String) (good : Prop) (before : State)
    (outcome : State × Except ApiError Reply) : Prop where
  accounts : outcome.1.database.providerAccounts = before.database.providerAccounts
  history : outcome.1.database.credentialHistory = before.database.credentialHistory
  ok_iff : (∃ reply, outcome.2 = .ok reply) ↔ good
  audits : good → ∃ row : AuditRow, row.accountId = some accountId ∧
    outcome.1.database.auditEvents = before.database.auditEvents ++ [row]

omit [Sealing] [Urls] [Chrono] in
/-- A state with one more event in the audit log. -/
def State.audited (state : State) (row : AuditRow) : State where
  database := { state.database with auditEvents := state.database.auditEvents ++ [row] }
  router := state.router

theorem call_appendAudit (box : SecretBox) (state : State) {event : AuditEvent}
    (h : faults (.appendAudit event) = none) :
    ∃ row : AuditRow, row.accountId = event.accountId ∧
      (state.call box faults (.appendAudit event)).1 = state.audited row := by
  unfold State.call
  rw [h]
  exact ⟨_, rfl, rfl⟩

theorem call_routeAccounts (box : SecretBox) (faults : Faults) (state : State) :
    (state.call box faults .routeAccounts).1 = state ∧
      ∀ accounts, (state.call box faults .routeAccounts).2 = .ok accounts ↔
        faults .routeAccounts = none ∧ routeList (accountRows state.database) = .ok accounts := by
  unfold State.call
  cases hfault : faults .routeAccounts with
  | some message => exact ⟨rfl, fun accounts => ⟨by rintro ⟨⟩, by rintro ⟨⟨⟩, -⟩⟩⟩
  | none =>
      have hread : (Call.routeAccounts.part box).run State.exec state =
          (state, routeList (accountRows state.database)) := run_stored _ _
      refine ⟨congrArg Prod.fst hread, fun accounts => ?_⟩
      have hanswer := congrArg Prod.snd hread
      dsimp only [Option.bind_none] at hanswer ⊢
      rw [hanswer]
      exact ⟨fun h => ⟨rfl, h⟩, fun h => h.2⟩

theorem call_resetAccountHealth (box : SecretBox) (faults : Faults) (state : State)
    (accountId : String) :
    (state.call box faults (.resetAccountHealth accountId)).1.database = state.database ∧
      ((state.call box faults (.resetAccountHealth accountId)).2 = .ok () ↔
        accountId ∈ state.router.accounts) := by
  have hcall : state.call box faults (.resetAccountHealth accountId) =
      (Admin.resetAccountHealth accountId).run State.exec state := by
    unfold State.call
    cases faults (.resetAccountHealth accountId) <;> rfl
  rw [hcall]
  refine ⟨rfl, ?_⟩
  change (state.router.resetAccountHealth accountId).2.mapError _ = _ ↔ _
  unfold Router.resetAccountHealth
  rw [Std.ExtTreeMap.mem_iff_isSome_getElem?]
  cases state.router.accounts[accountId]? with
  | none => exact ⟨by rintro ⟨⟩, by rintro ⟨⟩⟩
  | some account => exact ⟨fun _ => rfl, fun _ => rfl⟩

/-- A refresh that fails ends a handler, and leaves the state as it is. -/
theorem run_refreshCalls_of_not (box : SecretBox) (next : Calls)
    (h : ¬ Refreshes faults state.database) :
    ∃ error, (refreshCalls next).run (State.call box faults) state = (state, .error error) := by
  obtain ⟨hstate, hanswer⟩ := call_routeAccounts box faults state
  rw [refreshCalls, Prog.run_call, hstate]
  cases hlist : (state.call box faults .routeAccounts).2 with
  | error error => exact ⟨_, rfl⟩
  | ok accounts =>
      obtain ⟨hfault, hrows⟩ := (hanswer accounts).mp hlist
      exact absurd ⟨hfault, accounts, hrows⟩ h

/-- After one that does not, the router has the new list. -/
theorem run_refreshCalls (box : SecretBox) (next : Calls) {accounts : List RouteAccount}
    (hfault : faults .routeAccounts = none)
    (hrows : routeList (accountRows state.database) = .ok accounts) :
    (refreshCalls next).run (State.call box faults) state =
      next.run (State.call box faults)
        { state with router := state.router.replaceAccounts accounts } := by
  obtain ⟨hstate, hanswer⟩ := call_routeAccounts box faults state
  rw [refreshCalls, Prog.run_call, hstate, (hanswer accounts).mpr ⟨hfault, hrows⟩]
  dsimp only
  rw [Prog.run_call]
  unfold State.call
  cases faults (.replaceRouteAccounts accounts) <;> rfl

/-- Pausing, resuming and deleting are reported when the accounts can be
read. -/
theorem reports_finish (haudit : ∀ event, faults (.appendAudit event) = none)
    (ambient : Ambient) (action accountId : String) :
    Reports accountId (Refreshes faults state.database) state
      ((finishCalls ambient action accountId (.ok ())).run (State.call box faults) state) := by
  obtain ⟨row, hrow, hafter⟩ := call_appendAudit box state (haudit
    (auditEvent ambient.auditedAt action accountId none 204))
  rw [finishCalls, Prog.run_call, hafter]
  by_cases hgood : Refreshes faults state.database
  · obtain ⟨accounts, hlist⟩ := hgood.2
    have hlist' : routeList (accountRows (state.audited row).database) = .ok accounts := hlist
    rw [run_refreshCalls box _ hgood.1 hlist']
    exact ⟨rfl, rfl, ⟨fun _ => hgood, fun _ => ⟨_, rfl⟩⟩, fun _ => ⟨row, hrow, rfl⟩⟩
  · have hgood' : ¬ Refreshes faults (state.audited row).database := hgood
    obtain ⟨error, hfailed⟩ := run_refreshCalls_of_not box (.ret (.ok ⟨204, none⟩)) hgood'
    rw [hfailed]
    refine ⟨rfl, rfl, ⟨?_, fun h => absurd h hgood⟩, fun h => absurd h hgood⟩
    rintro ⟨reply, ⟨⟩⟩

omit [Serde] [Sealing] [Urls] [Chrono] in
/-- A router knows the accounts of the list it was handed. -/
theorem mem_replaceAccounts {router : Router} {accounts : List RouteAccount} {id : String}
    (h : ∃ account ∈ accounts, account.id = id) :
    id ∈ (router.replaceAccounts accounts).accounts := by
  obtain ⟨account, haccount, rfl⟩ := h
  rw [Std.ExtTreeMap.mem_iff_isSome_getElem?]
  change (router.replacement accounts)[account.id]?.isSome = true
  rw [replacement_getElem?, Option.isSome_map, ← Std.ExtTreeMap.mem_iff_isSome_getElem?]
  exact Table.mem_collect (List.mem_map.mpr ⟨account, haccount, rfl⟩)

omit [Sealing] [Chrono] in
/-- The list of the routes has every account there is. -/
theorem exists_mem_routeList {database : Database} {id : String} {row : AccountRow}
    {account : ProviderAccount} {accounts : List RouteAccount}
    (hrow : database.providerAccounts[id]? = some row)
    (haccount : Serde.accountFromStr row.accountJson = .ok account)
    (hlist : routeList (accountRows database) = .ok accounts) :
    ∃ route ∈ accounts, route.id = account.id := by
  obtain ⟨listed, hlisted, rfl⟩ := map_eq_ok_iff.mp hlist
  obtain ⟨shown, hshown, hid⟩ := List.mem_map.mp
    ((mem_listed_iff hlisted account.id).mpr ⟨id, row, account, hrow, haccount, rfl⟩)
  exact ⟨routeAccount shown, List.mem_map.mpr ⟨shown, hshown, rfl⟩, hid⟩

/-- An account that is created is reported when the accounts can be read:
the router then knows it. -/
theorem reports_create (haudit : ∀ event, faults (.appendAudit event) = none) (ambient : Ambient)
    (account : ProviderAccount)
    (hknown : ∀ accounts, routeList (accountRows state.database) = .ok accounts →
      ∃ route ∈ accounts, route.id = account.id) :
    Reports account.id (Refreshes faults state.database) state
      ((createdCalls ambient account).run (State.call box faults) state) := by
  obtain ⟨row, hrow, hafter⟩ := call_appendAudit box state (haudit
    (auditEvent ambient.auditedAt "account.upsert" account.id (some (providerName account.kind))
      201))
  rw [createdCalls, Prog.run_call, hafter]
  by_cases hgood : Refreshes faults state.database
  · obtain ⟨accounts, hlist⟩ := hgood.2
    have hlist' : routeList (accountRows (state.audited row).database) = .ok accounts := hlist
    rw [run_refreshCalls box _ hgood.1 hlist', Prog.run_call]
    obtain ⟨hdatabase, hreset⟩ := call_resetAccountHealth box faults
      ⟨(state.audited row).database, (state.audited row).router.replaceAccounts accounts⟩ account.id
    rw [hreset.mpr (mem_replaceAccounts (hknown accounts hlist))]
    have haccounts := congrArg Database.providerAccounts hdatabase
    have hhistory := congrArg Database.credentialHistory hdatabase
    have haudits := congrArg Database.auditEvents hdatabase
    exact ⟨haccounts, hhistory, ⟨fun _ => hgood, fun _ => ⟨_, rfl⟩⟩,
      fun _ => ⟨row, hrow, haudits⟩⟩
  · have hgood' : ¬ Refreshes faults (state.audited row).database := hgood
    obtain ⟨error, hfailed⟩ := run_refreshCalls_of_not box _ hgood'
    rw [hfailed]
    refine ⟨rfl, rfl, ⟨?_, fun h => absurd h hgood⟩, fun h => absurd h hgood⟩
    rintro ⟨reply, ⟨⟩⟩

/-- A credential that is rotated is reported when the router knows the
account. -/
theorem reports_rotate (haudit : ∀ event, faults (.appendAudit event) = none) (ambient : Ambient)
    (accountId : String) (account : ProviderAccount) :
    Reports accountId (accountId ∈ state.router.accounts) state
      ((rotatedCalls ambient accountId account).run (State.call box faults) state) := by
  obtain ⟨hdatabase, hreset⟩ := call_resetAccountHealth box faults state accountId
  rw [rotatedCalls, Prog.run_call]
  cases hanswer : (state.call box faults (.resetAccountHealth accountId)).2 with
  | error error =>
      have hunknown : accountId ∉ state.router.accounts := by
        intro hknown
        rw [hreset.mpr hknown] at hanswer
        cases hanswer
      refine ⟨congrArg Database.providerAccounts hdatabase,
        congrArg Database.credentialHistory hdatabase, ⟨?_, fun h => absurd h hunknown⟩,
        fun h => absurd h hunknown⟩
      rintro ⟨reply, ⟨⟩⟩
  | ok done =>
      obtain ⟨row, hrow, hafter⟩ := call_appendAudit box
        (state.call box faults (.resetAccountHealth accountId)).1 (haudit
          (auditEvent ambient.auditedAt "account.credential.rotate" accountId
            (some (providerName account.kind)) 204))
      dsimp only
      rw [Prog.run_call, hafter]
      have haccounts := congrArg Database.providerAccounts hdatabase
      have hhistory := congrArg Database.credentialHistory hdatabase
      have haudits := congrArg (fun database => database.auditEvents ++ [row]) hdatabase
      exact ⟨haccounts, hhistory, ⟨fun _ => hreset.mp hanswer, fun _ => ⟨_, rfl⟩⟩,
        fun _ => ⟨row, hrow, haudits⟩⟩

/-! ## Truthfulness -/

/-- The accounts of the store have changed. -/
def Changed (before after : State) : Prop :=
  after.database.providerAccounts ≠ before.database.providerAccounts ∨
    after.database.credentialHistory ≠ before.database.credentialHistory

omit [Serde] [Sealing] [Urls] [Chrono] in
/-- The account a request is about. -/
def Request.accountId : Request → String
  | .create _ input => input.id
  | .rotate _ accountId _ => accountId
  | .setEnabled _ accountId _ => accountId
  | .delete _ accountId => accountId

/-- **The truth.** If the accounts have changed, the handler answers that
it succeeded, and one event has been appended to the audit log, which
names the account. -/
def Truthful (request : Request) (before : State) (outcome : State × Except ApiError Reply) :
    Prop :=
  Changed before outcome.1 → (∃ reply, outcome.2 = .ok reply) ∧
    ∃ row : AuditRow, row.accountId = some request.accountId ∧
      outcome.1.database.auditEvents = before.database.auditEvents ++ [row]

/-- **What a handler does after its write can be done**, by the state
before it. For a rotation, the router knows the account. For any other,
SQLite does not fail at reading the accounts, and the rows of the other
accounts parse. -/
def FollowsUp (faults : Faults) (state : State) (request : Request) : Prop :=
  match request with
  | .rotate _ accountId _ => accountId ∈ state.router.accounts
  | request => faults .routeAccounts = none ∧ ∀ id row, id ≠ request.accountId →
      state.database.providerAccounts[id]? = some row → Parses row

omit [Sealing] [Urls] [Chrono] in
theorem not_changed (state : State) : ¬ Changed state state := by
  rintro (h | h) <;> exact h rfl

omit [Sealing] [Urls] [Chrono] in
/-- A write that has changed the accounts and the report of it are truthful
exactly if the report is good. -/
theorem truthful_iff {request : Request} {accountId : String} {written : State}
    {answer : Except StorageError Unit} {outcome : State × Except ApiError Reply} {good : Prop}
    (hwrites : Writes accountId state written answer)
    (hfailed : ∀ error, answer = .error error → ∃ error', outcome = (written, .error error'))
    (hreports : answer = .ok () → Reports request.accountId good written outcome)
    (hchanged : Changed state outcome.1) : Truthful request state outcome ↔ good := by
  cases answer with
  | error error =>
      obtain ⟨error', houtcome⟩ := hfailed error rfl
      rw [houtcome, hwrites.failed error rfl] at hchanged
      exact absurd hchanged (not_changed state)
  | ok done =>
      have hreport := hreports rfl
      constructor
      · exact fun h => hreport.ok_iff.mp (h hchanged).1
      · intro hgood _
        obtain ⟨row, hrow, haudits⟩ := hreport.audits hgood
        exact ⟨hreport.ok_iff.mpr hgood, row, hrow, by rw [haudits, hwrites.audits]⟩

theorem call_loadAccount (box : SecretBox) (faults : Faults) (state : State)
    (accountId : String) : (state.call box faults (.loadAccount accountId)).1 = state := by
  unfold State.call
  cases hfault : faults (.loadAccount accountId) with
  | some message => rfl
  | none => exact congrArg Prod.fst (run_stored (Storage.loadAccount box accountId) state)

variable [LawfulSerde] [LawfulSealing]

/-- A handler that writes a credential, by its report. -/
theorem truthful_writeCalls {request : Request} {ambient : Ambient} {account : ProviderAccount}
    {credential : String} {rotates : Bool} {next : Calls} {good : Prop}
    (hreports :
      let written := state.call box faults (.writeCredential ambient account credential rotates)
      written.2 = .ok () → Reports request.accountId good written.1
        (next.run (State.call box faults) written.1))
    (hchanged : Changed state ((writeCalls ambient account credential rotates next).run
      (State.call box faults) state).1) :
    Truthful request state ((writeCalls ambient account credential rotates next).run
      (State.call box faults) state) ↔ good := by
  refine truthful_iff (call_writeCredential box faults state ambient account credential rotates)
    ?_ ?_ hchanged
  · intro error herror
    refine ⟨storageError error, ?_⟩
    simp only [writeCalls, Prog.run_call, herror, Prog.run_ret]
  · intro hok
    simp only [writeCalls, Prog.run_call, hok]
    exact hreports hok

/-- What a write of a credential leaves under its id. -/
theorem exists_row_of_write {ambient : Ambient} {account : ProviderAccount} {credential : String}
    {rotates : Bool}
    (h : (state.call box faults (.writeCredential ambient account credential rotates)).2 = .ok ()) :
    ∃ row redacted,
      (state.call box faults (.writeCredential ambient account credential
        rotates)).1.database.providerAccounts[account.id]? = some row ∧
      Serde.accountFromStr row.accountJson = .ok { account with egressProxies := redacted } := by
  unfold State.call at h ⊢
  cases hfault : faults (.writeCredential ambient account credential rotates) with
  | some message =>
      rw [hfault] at h
      cases h
  | none =>
      rw [hfault] at h
      cases hrow : sealedRow box ambient.nonces account credential with
      | error error =>
          cases rotates <;>
            simp [Call.part, writeCredential, stored, rotateAccountCredential, upsertAccount, hrow,
              Prog.lift] at h
      | ok row =>
          obtain ⟨redacted, hredacted, -, -⟩ := sealedRow_spec hrow
          refine ⟨row, redacted, ?_, hredacted⟩
          cases rotates <;>
            simp [Call.part, writeCredential, stored, rotateAccountCredential, upsertAccount, hrow,
              Prog.lift, State.exec]

/-- **When a handler tells the truth.** Whatever the accounts, whatever
the router knows and whatever SQLite fails at, but for the audit: a
handler that changes the accounts says so and is audited exactly if what
it does after its write can be done. -/
theorem admin_mutation_truthful_iff (box : SecretBox) (faults : Faults)
    (haudit : ∀ event, faults (.appendAudit event) = none) (state : State) (request : Request)
    (hchanged : Changed state (answered box faults state request).1) :
    Truthful request state (answered box faults state request) ↔
      FollowsUp faults state request := by
  cases request with
  | create ambient input =>
      have hcreate : ∀ rotates,
          let outcome := (writeCalls ambient input.account input.credential rotates
            (createdCalls ambient input.account)).run (State.call box faults) state
          Changed state outcome.1 → (Truthful (.create ambient input) state outcome ↔
            FollowsUp faults state (.create ambient input)) := by
        intro rotates outcome hchanged
        refine truthful_writeCalls (fun hok => ?_) hchanged
        have hmade := (call_writeCredential box faults state ambient input.account input.credential
          rotates).made hok
        have hgood : Refreshes faults _ ↔ FollowsUp faults state (.create ambient input) :=
          hmade.refreshes_iff
        obtain ⟨row, redacted, hrow, haccount⟩ := exists_row_of_write hok
        rw [← hgood]
        refine reports_create haudit ambient input.account fun accounts hlist => ?_
        obtain ⟨route, hroute, hid⟩ := exists_mem_routeList hrow haccount hlist
        exact ⟨route, hroute, hid⟩
      cases hvalid : validateAccountInput input with
      | error message =>
          simp only [answered, Request.calls, hvalid] at hchanged
          exact absurd hchanged (not_changed state)
      | ok done =>
          by_cases hkind : input.kind = .claudeOauth
          · simp only [answered, Request.calls, hvalid, if_pos hkind, Prog.run_call,
              call_loadAccount] at hchanged ⊢
            exact hcreate _ hchanged
          · simp only [answered, Request.calls, hvalid, if_neg hkind] at hchanged ⊢
            exact hcreate _ hchanged
  | rotate ambient accountId credential =>
      unfold answered Request.calls at hchanged ⊢
      dsimp only at hchanged ⊢
      split at hchanged
      · exact absurd hchanged (not_changed state)
      · rename_i haccepted
        rw [if_neg haccepted]
        rw [Prog.run_call, call_loadAccount] at hchanged ⊢
        cases hloaded : (state.call box faults (.loadAccount accountId)).2 with
        | error error =>
            rw [hloaded] at hchanged
            exact absurd hchanged (not_changed state)
        | ok loaded =>
            rw [hloaded] at hchanged
            refine truthful_writeCalls (fun hok => ?_) hchanged
            have hwrites := call_writeCredential box faults state ambient loaded.1 credential
              (loaded.1.kind = .claudeOauth)
            change Reports accountId (accountId ∈ state.router.accounts) _ _
            rw [← hwrites.router]
            exact reports_rotate haudit ambient accountId loaded.1
  | setEnabled ambient accountId enabled =>
      unfold answered Request.calls at hchanged ⊢
      rw [Prog.run_call] at hchanged ⊢
      have hwrites := call_setAccountEnabled box faults state accountId enabled
      refine truthful_iff hwrites ?_ ?_ hchanged
      · intro error herror
        rw [herror]
        exact ⟨_, rfl⟩
      · intro hok
        have hgood : Refreshes faults _ ↔
            FollowsUp faults state (.setEnabled ambient accountId enabled) :=
          (hwrites.made hok).refreshes_iff
        rw [hok, ← hgood]
        exact reports_finish haudit ambient _ accountId
  | delete ambient accountId =>
      unfold answered Request.calls at hchanged ⊢
      rw [Prog.run_call] at hchanged ⊢
      have hwrites := call_deleteAccount box faults state accountId
      refine truthful_iff hwrites ?_ ?_ hchanged
      · intro error herror
        rw [herror]
        exact ⟨_, rfl⟩
      · intro hok
        have hgood : Refreshes faults _ ↔ FollowsUp faults state (.delete ambient accountId) :=
          (hwrites.made hok).refreshes_iff
        rw [hok, ← hgood]
        exact reports_finish haudit ambient _ accountId

end Handlers

section Example

open scoped Plain

/-- A store with one account. -/
def oneStored : Database :=
  ((Storage.Op.upsert ⟨Vector.replicate 24 0, Vector.replicate 24 1⟩
    (Plain.account "a" .anthropicApiKey true) "first").apply Plain.box Database.empty).1

/-- The request that gives it another credential. -/
def rotateOne : Request :=
  .rotate ⟨0, 0, ⟨Vector.replicate 24 2, Vector.replicate 24 3⟩⟩ "a" "second"

/-- SQLite fails at reading the accounts. -/
def unreadable : Faults
  | .routeAccounts => some "disk I/O error"
  | _ => none

/-- A router that knows the account: its credential is changed, and that
is said and audited. -/
theorem admin_mutation_truthful_known :
    let before : State := ⟨oneStored, .new [⟨"a", "anthropic_api_key", true, true, 0, 0, ∅, none⟩]⟩
    let outcome := answered Plain.box (fun _ => none) before rotateOne
    Changed before outcome.1 ∧ Truthful rotateOne before outcome := by
  intro before outcome
  have hchanged : Changed before outcome.1 := .inl (by decide +kernel)
  have hknown : "a" ∈ before.router.accounts := by decide +kernel
  exact ⟨hchanged, (admin_mutation_truthful_iff Plain.box (fun _ => none) (fun _ => rfl) before
    rotateOne hchanged).mpr hknown⟩

/-- **Written and not reported.** A router that does not know the account:
the credential is changed, and the handler answers with an error and
appends nothing to the audit log. And where the accounts cannot be read
after it, a pause is answered with an error too, though it is made and
audited. -/
theorem admin_mutation_untruthful :
    let before : State := ⟨oneStored, .new []⟩
    let rotated := answered Plain.box (fun _ => none) before rotateOne
    let pause := Request.setEnabled ⟨0, 0, ⟨Vector.replicate 24 2, Vector.replicate 24 3⟩⟩ "a" false
    let paused := answered Plain.box unreadable before pause
    ((loadAccount Plain.box "a").run Database.exec rotated.1.database).2 =
        .ok (Plain.account "a" .anthropicApiKey true, "second") ∧
      rotated.2 = .error ⟨503, "routing_state_unavailable", "no eligible account is available",
        "Retry after the in-memory routing state has refreshed."⟩ ∧
      rotated.1.database.auditEvents = [] ∧
      ((loadAccount Plain.box "a").run Database.exec paused.1.database).2 =
        .ok (Plain.account "a" .anthropicApiKey false, "first") ∧
      paused.2 = .error ⟨503, "storage_unavailable", "database operation failed: disk I/O error",
        "Retry after the encrypted SQLite store is healthy."⟩ ∧
      paused.1.database.auditEvents.map AuditRow.accountId = [some "a"] := by
  exact ⟨by decide +kernel, by decide +kernel, by decide +kernel, by decide +kernel,
    by decide +kernel, by decide +kernel⟩

end Example

end Admin

end Llmap
