import Llmap.Admin.Activity
import Llmap.Plain
/-!
# Accounts that fail the others

`credential_snapshot` and `oauth_refresh_candidates` go through all the
accounts and fail at the first one they cannot decode. How a credential is
decoded depends on the kind of its account, and the handlers that write it
do not try. An account that is created with a credential that looks like
an envelope and is none fails the snapshot for every client, and the
refresh for every account (`unreadable_account_fails_all`).

Both answer at every time just in case every account is `Healthy`, and a
run keeps the accounts healthy just in case each of its writes does
(`answers_iff_writesHealthy`).
-/

namespace Llmap

namespace Admin

open Providers Secrets Storage Auth

section Health

variable [Serde] [Sealing] [Chrono]

/-- A ciphertext that opens, under an id, to a credential of the account's
kind. -/
def Decodes (box : SecretBox) (id : String) (accountJson : Serde.AccountJson)
    (ciphertext : String) : Prop :=
  ∃ account credential decoded, Serde.accountFromStr accountJson = .ok account ∧
    box.decrypt ciphertext (credentialData id) = .ok credential ∧
    decodedCredential account.kind credential = .ok decoded

/-- **A healthy account.** Its credential decodes, and so does the one it
replaced, whose time can be read. -/
def HealthyRow (box : SecretBox) (id : String) (row : AccountRow) (history : Option HistoryRow) :
    Prop :=
  Decodes box id row.accountJson row.credentialCiphertext ∧
    ∀ replaced ∈ history, Decodes box id row.accountJson replaced.credentialCiphertext ∧
      (Chrono.parseFromRfc3339 replaced.expiresAt).isSome

/-- Every account is healthy. -/
def Healthy (box : SecretBox) (database : Database) : Prop :=
  ∀ id, ∀ row ∈ database.providerAccounts[id]?,
    HealthyRow box id row database.credentialHistory[id]?

/-- **A healthy write.** The account is healthy as it is about to be
written: under its new kind too, and with what it is about to replace. -/
def WritesHealthySection (box : SecretBox) (database : Database) : Section → Prop
  | .upsert id row => HealthyRow box id row none
  | .rotate id row expiresAt =>
      HealthyRow box id row (database.providerAccounts[id]?.map fun previous =>
        ⟨previous.credentialCiphertext, expiresAt⟩)
  | .replace id expected ciphertext expiresAt =>
      ∀ row ∈ database.providerAccounts[id]?, row.credentialCiphertext = expected →
        HealthyRow box id { row with credentialCiphertext := ciphertext }
          (some ⟨expected, expiresAt⟩)
  | .updateAccountJson id accountJson =>
      ∀ row ∈ database.providerAccounts[id]?,
        HealthyRow box id { row with accountJson := accountJson } database.credentialHistory[id]?
  | _ => True

/-- The same of an operation. -/
def WritesHealthy (box : SecretBox) (state : State) : Op → Prop
  | .store s => WritesHealthySection box state.database s
  | _ => True

/-! The conditions can be evaluated. -/

/-- `Decodes`, computed. -/
def decodes (box : SecretBox) (id : String) (accountJson : Serde.AccountJson)
    (ciphertext : String) : Bool :=
  match Serde.accountFromStr accountJson, box.decrypt ciphertext (credentialData id) with
  | .ok account, .ok credential => (decodedCredential account.kind credential).isOk
  | _, _ => false

omit [Chrono] in
theorem decodes_iff {box : SecretBox} {id : String} {accountJson : Serde.AccountJson}
    {ciphertext : String} :
    decodes box id accountJson ciphertext = true ↔ Decodes box id accountJson ciphertext := by
  unfold decodes Decodes
  cases haccount : Serde.accountFromStr accountJson with
  | error error => simp
  | ok account =>
      cases hcredential : box.decrypt ciphertext (credentialData id) with
      | error error => simp
      | ok credential =>
          cases hdecoded : decodedCredential account.kind credential with
          | error error => simp [hdecoded, Except.isOk, Except.toBool]
          | ok decoded =>
              obtain ⟨token, expiry⟩ := decoded
              simp [hdecoded, Except.isOk, Except.toBool]

instance (box : SecretBox) (id : String) (accountJson : Serde.AccountJson) (ciphertext : String) :
    Decidable (Decodes box id accountJson ciphertext) :=
  decidable_of_iff _ decodes_iff

instance (box : SecretBox) (id : String) (row : AccountRow) (history : Option HistoryRow) :
    Decidable (HealthyRow box id row history) :=
  inferInstanceAs (Decidable (_ ∧ ∀ replaced ∈ history, _))

instance (box : SecretBox) (state : State) : (o : Op) → Decidable (WritesHealthy box state o)
  | .store (.upsert id row) => inferInstanceAs (Decidable (HealthyRow box id row none))
  | .store (.rotate id row _) => inferInstanceAs (Decidable (HealthyRow box id row _))
  | .store (.replace id _ _ _) =>
      inferInstanceAs (Decidable (∀ row ∈ state.database.providerAccounts[id]?, _ → _))
  | .store (.updateAccountJson id _) =>
      inferInstanceAs (Decidable (∀ row ∈ state.database.providerAccounts[id]?, HealthyRow ..))
  | .store (.selectAccount _) | .store .selectAccounts | .store .selectCredentials
  | .store (.deleteAccount _) | .store (.insertAudit _) | .replaceRouteAccounts _
  | .resetAccountHealth _ => .isTrue trivial

/-! ## What the queries need -/

variable {box : SecretBox} {database : Database}

/-- A replaced credential is entered at every time just in case it decodes
and its time can be read: it is decoded before its grace ends. -/
theorem entered_always_iff [Digests] (authenticator : Authenticator) {account : ProviderAccount}
    (credential : AccountCredential) {replaced : HistoryRow} :
    (∀ now, ∃ entered,
      withHistory box authenticator now account credential replaced = .ok entered) ↔
      (∃ previous decoded,
        box.decrypt replaced.credentialCiphertext (credentialData account.id) = .ok previous ∧
          decodedCredential account.kind previous = .ok decoded) ∧
        (Chrono.parseFromRfc3339 replaced.expiresAt).isSome := by
  simp only [withHistory_eq_ok_iff]
  constructor
  · intro hall
    obtain ⟨-, validUntil, hparse, -⟩ := hall 0
    have hbefore : validUntil - 1 < validUntil := Int.sub_lt_self _ Int.one_pos
    obtain ⟨entered, validUntil', hparse', hcases⟩ := hall (validUntil - 1)
    obtain rfl : validUntil = validUntil' := Option.some.inj (hparse.symm.trans hparse')
    rcases hcases with ⟨hover, -⟩ | ⟨-, previous, token, expiry, hprevious, hdecoded, -⟩
    · exact absurd hover (not_le_of_gt hbefore)
    · exact ⟨⟨previous, (token, expiry), hprevious, hdecoded⟩, by simp [hparse]⟩
  · rintro ⟨⟨previous, ⟨token, expiry⟩, hprevious, hdecoded⟩, hparses⟩ now
    obtain ⟨validUntil, hparse⟩ := Option.isSome_iff_exists.mp hparses
    rcases le_or_gt validUntil now with hover | hvalid
    · exact ⟨credential, validUntil, hparse, .inl ⟨hover, rfl⟩⟩
    · exact ⟨_, validUntil, hparse, .inr ⟨hvalid, previous, token, expiry, hprevious, hdecoded,
        rfl⟩⟩

omit [Chrono] in
theorem decodes_of_account {accountJson : Serde.AccountJson} {ciphertext id : String}
    {account : ProviderAccount} (haccount : Serde.accountFromStr accountJson = .ok account) :
    Decodes box id accountJson ciphertext ↔
      ∃ credential decoded, box.decrypt ciphertext (credentialData id) = .ok credential ∧
        decodedCredential account.kind credential = .ok decoded := by
  simp [Decodes, haccount]

/-- **An account enters every snapshot just in case it is healthy.** -/
theorem healthyRow_iff [Digests] (authenticator : Authenticator) {row : AccountRow}
    {history : Option HistoryRow} {account : ProviderAccount}
    (haccount : Serde.accountFromStr row.accountJson = .ok account) :
    HealthyRow box account.id row history ↔
      ∀ now, ∃ entered, accountCredential box authenticator now row history = .ok entered := by
  simp only [HealthyRow, decodes_of_account haccount, accountCredential_eq_ok_iff]
  constructor
  · rintro ⟨⟨secret, ⟨token, expiry⟩, hsecret, hdecoded⟩, hreplaced⟩ now
    cases history with
    | none => exact ⟨_, account, secret, token, expiry, _, haccount, hsecret, hdecoded, rfl, rfl⟩
    | some replaced =>
        obtain ⟨credential, hcredential⟩ :=
          (entered_always_iff authenticator _).mpr (hreplaced replaced rfl) now
        exact ⟨_, account, secret, token, expiry, credential, haccount, hsecret, hdecoded,
          hcredential, rfl⟩
  · intro hall
    obtain ⟨-, account', secret, token, expiry, -, haccount', hsecret, hdecoded, -, -⟩ := hall 0
    obtain rfl : account = account' := Except.ok.inj (haccount.symm.trans haccount')
    refine ⟨⟨secret, (token, expiry), hsecret, hdecoded⟩, ?_⟩
    rintro replaced rfl
    refine (entered_always_iff authenticator
      ((AccountCredential.active' authenticator account.id token).withCurrentExpiry expiry)).mp
        fun now => ?_
    -- the credential the history is added to is the same at all times
    obtain ⟨-, account', secret', token', expiry', credential, haccount', hsecret', hdecoded',
      hcredential, -⟩ := hall now
    obtain rfl : account = account' := Except.ok.inj (haccount.symm.trans haccount')
    obtain rfl : secret = secret' := Except.ok.inj (hsecret.symm.trans hsecret')
    obtain ⟨rfl, rfl⟩ : token = token' ∧ expiry = expiry' := by
      simpa using hdecoded.symm.trans hdecoded'
    exact ⟨credential, hcredential⟩

/-- **The snapshot answers at every time just in case every account is
healthy.** -/
theorem credentialSnapshot_always_iff [Digests] (authenticator : Authenticator)
    (hreadable : Readable box database) :
    (∀ now, ∃ snapshot, ((credentialSnapshot box authenticator now).run Database.exec
      database).2 = .ok snapshot) ↔ Healthy box database := by
  have hrows : ∀ now, (∃ snapshot, ((credentialSnapshot box authenticator now).run Database.exec
      database).2 = .ok snapshot) ↔
      ∀ id : String, ∀ row ∈ database.providerAccounts[id]?, ∃ entered,
        accountCredential box authenticator now row database.credentialHistory[id]? =
          .ok entered := by
    intro now
    change (∃ snapshot, Except.map CredentialSnapshot.available (List.mapM _
      (database.providerAccounts.toList.map _)) = .ok snapshot) ↔ _
    simp only [map_eq_ok_iff]
    rw [exists_comm]
    simp only [exists_and_left, exists_eq', and_true, exists_mapM_iff, List.forall_mem_map]
    simp only [Prod.forall, Std.ExtTreeMap.mem_toList_iff_getElem?_eq_some, Option.mem_def]
  simp only [hrows]
  constructor
  · intro hall id row hrow
    obtain ⟨account, -, -, haccount, rfl, -, -⟩ := hreadable.account id row hrow
    exact (healthyRow_iff authenticator haccount).mpr fun now => hall now account.id row hrow
  · intro hhealthy now id row hrow
    obtain ⟨account, -, -, haccount, rfl, -, -⟩ := hreadable.account id row hrow
    exact (healthyRow_iff authenticator haccount).mp (hhealthy account.id row hrow) now

omit [Sealing] [Chrono] in
/-- A credential that decodes is no envelope or parses as one. -/
theorem envelope_of_decoded {credential : String} {decoded : String × Option DateTime}
    (h : decodedCredential .claudeOauth credential = .ok decoded)
    (hbrace : ¬ startsWithStr (trimStart credential) "\x7b" = false) :
    ∃ envelope, Serde.envelopeFromStr credential = .ok envelope := by
  have hcond : ¬ ((ProviderKind.claudeOauth ≠ .claudeOauth) ∨
      startsWithStr (trimStart credential) "\x7b" = false) := by simpa using hbrace
  rw [decodedCredential, if_neg hcond] at h
  split at h
  · cases h
  · exact ⟨_, ‹_›⟩

omit [Chrono] in
/-- The endpoints are all that is put back into an account. -/
theorem hydrated_eq {account hydrated : ProviderAccount} {ciphertext : Option String}
    (h : hydrateAccountEgress box account ciphertext = .ok hydrated) :
    ∃ egressProxies, hydrated = { account with egressProxies := egressProxies } := by
  unfold hydrateAccountEgress at h
  repeat' split at h
  all_goals cases h
  · exact ⟨account.egressProxies, rfl⟩
  · exact ⟨_, rfl⟩

omit [Chrono] in
/-- A healthy account does not fail the refresh. -/
theorem refreshCandidate_of_healthy (hreadable : Readable box database) {id : String}
    {row : AccountRow} (hrow : database.providerAccounts[id]? = some row)
    (hdecodes : Decodes box id row.accountJson row.credentialCiphertext) (now : DateTime) :
    ∃ found, refreshCandidate box now row = .ok found := by
  obtain ⟨account, hydrated, -, haccount, rfl, hhydrate, -⟩ := hreadable.account id row hrow
  obtain ⟨credential, decoded, hopens, hdecoded⟩ := (decodes_of_account haccount).mp hdecodes
  obtain ⟨egressProxies, rfl⟩ := hydrated_eq hhydrate
  simp only [refreshCandidate, haccount, hhydrate]
  split
  · exact ⟨none, rfl⟩
  · rename_i henvelope
    have hkind : account.kind = .claudeOauth := by
      by_contra hne
      exact henvelope (.inl hne)
    rw [hkind] at hdecoded
    simp only [hopens]
    split
    · exact ⟨none, rfl⟩
    · rename_i hbrace
      obtain ⟨envelope, hparse⟩ := envelope_of_decoded hdecoded hbrace
      simp only [hparse]
      exact ⟨_, rfl⟩

/-- **Both queries answer at every time just in case every account is
healthy.** -/
theorem answers_iff_healthy [Digests] (authenticator : Authenticator)
    (hreadable : Readable box database) :
    (∀ now,
      (∃ snapshot, ((credentialSnapshot box authenticator now).run Database.exec database).2 =
        .ok snapshot) ∧
      ∃ candidates, ((oauthRefreshCandidates box now).run Database.exec database).2 =
        .ok candidates) ↔ Healthy box database := by
  rw [← credentialSnapshot_always_iff authenticator hreadable]
  refine ⟨fun h now => (h now).1, fun h now => ⟨h now, ?_⟩⟩
  have hhealthy := (credentialSnapshot_always_iff authenticator hreadable).mp h
  obtain ⟨found, hfound⟩ : ∃ found, (database.providerAccounts.toList.map Prod.snd).mapM
      (refreshCandidate box now) = .ok found := by
    rw [exists_mapM_iff, List.forall_mem_map]
    rintro ⟨id, row⟩ hmem
    have hrow := Std.ExtTreeMap.mem_toList_iff_getElem?_eq_some.mp hmem
    exact refreshCandidate_of_healthy hreadable hrow (hhealthy id row hrow).1 now
  exact ⟨found.filterMap id, map_eq_ok_iff.mpr ⟨found, hfound, rfl⟩⟩

/-! ## What the writes need -/

/-- Where one account is written, the accounts stay healthy just in case
that one is. -/
theorem healthy_iff_at {after : Database} (id : String) (h : Healthy box database)
    (haccounts : ∀ id', id ≠ id' →
      after.providerAccounts[id']? = database.providerAccounts[id']?)
    (hhistory : ∀ id', id ≠ id' →
      after.credentialHistory[id']? = database.credentialHistory[id']?) :
    Healthy box after ↔
      ∀ row ∈ after.providerAccounts[id]?, HealthyRow box id row after.credentialHistory[id]? := by
  refine ⟨fun hafter => hafter id, fun hwritten id' => ?_⟩
  by_cases hid : id = id'
  · exact hid ▸ hwritten
  · rw [haccounts id' hid, hhistory id' hid]
    exact h id'

/-- **One section** keeps the accounts healthy just in case its write is
healthy. -/
theorem Healthy.exec_iff (h : Healthy box database) (hreadable : Readable box database)
    (s : Section) : Healthy box (database.exec s).1 ↔ WritesHealthySection box database s := by
  cases s with
  | upsert id row =>
      rw [healthy_iff_at id h (fun id' hne => by simp [hne]) (fun id' hne => by simp [hne])]
      simp [WritesHealthySection]
  | rotate id row expiresAt =>
      rw [healthy_iff_at id h (fun id' hne => by simp [hne])
        (fun id' hne => by simp [Database.history_rotate, hne])]
      simp only [Database.accounts_rotate, Database.history_rotate, if_pos, Option.mem_def,
        Option.some.injEq, forall_eq']
      cases hprevious : database.providerAccounts[id]? with
      | some previous => simp [WritesHealthySection, hprevious]
      | none =>
          -- an account that is not there has no history
          have hnone : database.credentialHistory[id]? = none := by
            refine Option.eq_none_iff_forall_ne_some.mpr fun replaced hreplaced => ?_
            have hmem := (hreadable.history id replaced hreplaced).1
            simp [Std.ExtTreeMap.mem_iff_isSome_getElem?, hprevious] at hmem
          simp [WritesHealthySection, hprevious, hnone]
  | replace id expected ciphertext expiresAt =>
      by_cases hcurrent : ∃ row, database.providerAccounts[id]? = some row ∧
          row.credentialCiphertext = expected
      · obtain ⟨row, hrow, hexpected⟩ := hcurrent
        rw [Database.exec_replace_of_eq database id hrow hexpected, healthy_iff_at id h
          (fun id' hne => by simp [Std.ExtTreeMap.getElem?_insert, hne])
          (fun id' hne => by simp [Std.ExtTreeMap.getElem?_insert, hne])]
        simp [WritesHealthySection, hrow, hexpected]
      · have hne : ∀ row, database.providerAccounts[id]? = some row →
            row.credentialCiphertext ≠ expected := fun row hrow heq => hcurrent ⟨row, hrow, heq⟩
        rw [Database.exec_replace_of_ne database id hne]
        exact iff_of_true h fun row hrow heq => absurd heq (hne row hrow)
  | updateAccountJson id accountJson =>
      have hat : Healthy box (database.exec (.updateAccountJson id accountJson)).1 ↔ _ :=
        healthy_iff_at id h (fun id' hne => by simp [hne]) (fun id' hne => rfl)
      rw [hat]
      simp only [Database.accounts_updateAccountJson, if_pos, Option.mem_def,
        Option.map_eq_some_iff, forall_exists_index, and_imp, forall_apply_eq_imp_iff₂]
      rfl
  | deleteAccount id =>
      refine iff_of_true (fun id' row hrow => ?_) trivial
      rw [Database.accounts_deleteAccount] at hrow
      split at hrow
      · cases hrow
      · rename_i hne
        rw [Database.history_deleteAccount, if_neg fun hsame => hne hsame.1]
        exact h id' row hrow
  | selectAccount | selectAccounts | selectCredentials | insertAudit =>
      exact iff_of_true h trivial

/-! ## Runs -/

variable [Urls] {ι : Type} [DecidableEq ι]

/-- **When no account fails the others**, under any schedule of any
requests and refreshes from an empty store: both queries answer at every
time in every state reached just in case every write on the way is
healthy. -/
theorem answers_iff_writesHealthy [LawfulSerde] [LawfulSealing] [Digests] (box : SecretBox)
    (activities : ι → Activity) (router : Routing.Router) (authenticator : Authenticator)
    (schedule : List ι) :
    (∀ before, before <+: schedule → ∀ now,
      (∃ snapshot, ((credentialSnapshot box authenticator now).run Database.exec
        (ran box activities ⟨.empty, router⟩ before).shared.database).2 = .ok snapshot) ∧
      ∃ candidates, ((oauthRefreshCandidates box now).run Database.exec
        (ran box activities ⟨.empty, router⟩ before).shared.database).2 = .ok candidates) ↔
      Run.Along (Pool.turn State.exec) (Pool.Calls (WritesHealthy box))
        (started box activities ⟨.empty, router⟩) schedule := by
  have hreadable : ∀ before,
      Readable box (ran box activities ⟨.empty, router⟩ before).shared.database :=
    fun before => (readable_ran box activities (readable_empty box) before).1
  rw [forall₂_congr fun before _ => answers_iff_healthy authenticator (hreadable before)]
  refine Run.always_iff_along (I := fun pool : Activities ι => Healthy box pool.shared.database)
    (Q := fun pool _ => Readable box pool.shared.database) (fun pool i hhealthy hread => ?_) ?_
    (Run.along_iff.mpr fun before _ _ => hreadable before)
  · cases hproc : pool.procs i with
    | ret a =>
        rw [Pool.turn_of_ret hproc]
        exact iff_of_true hhealthy (by simp [Pool.Calls, hproc])
    | call o k =>
        rw [Pool.turn_of_call hproc]
        simp only [Pool.Calls, hproc, Prog.next?_call, Option.mem_def, Option.some.injEq,
          forall_eq']
        cases o with
        | store s => exact hhealthy.exec_iff hread s
        | replaceRouteAccounts accounts => exact iff_of_true hhealthy trivial
        | resetAccountHealth accountId => exact iff_of_true hhealthy trivial
  · intro id row hrow
    simp [started, Database.empty] at hrow

end Health

section Example

open scoped Plain

/-- An account is created with a credential. -/
def createdWith (id credential : String) : Activity :=
  .handle (.create ⟨0, 0, Vector.replicate 24 0, Vector.replicate 24 1⟩
    ⟨id, id, .claudeOauth, (Plain.account id .claudeOauth true).baseUrl, true, ∅, [],
      none, none, credential⟩)

/-- Two accounts are created: a good one, and one with a credential. -/
def twoAccounts (credential : String) : Fin 2 → Activity
  | 0 => createdWith "b" (Plain.tokenText "token")
  | 1 => createdWith "a" credential

/-- The first to its end, then the second. -/
def twoAccountsSchedule : List (Fin 2) := (List.finRange 2).flatMap (List.replicate 6)

/-- Two good accounts do not fail each other. -/
theorem answers_with_two_accounts :
    Run.Along (Pool.turn State.exec) (Pool.Calls (WritesHealthy Plain.box))
        (started Plain.box (twoAccounts "token") ⟨.empty, .new []⟩) twoAccountsSchedule ∧
      ∀ before, before <+: twoAccountsSchedule → ∀ now,
        (∃ snapshot, ((credentialSnapshot Plain.box ⟨Vector.replicate 32 0⟩ now).run Database.exec
          (ran Plain.box (twoAccounts "token") ⟨.empty, .new []⟩ before).shared.database).2 =
            .ok snapshot) ∧
        ∃ candidates, ((oauthRefreshCandidates Plain.box now).run Database.exec
          (ran Plain.box (twoAccounts "token") ⟨.empty, .new []⟩ before).shared.database).2 =
            .ok candidates := by
  have hhealthy : Run.Along (Pool.turn State.exec) (Pool.Calls (WritesHealthy Plain.box))
      (started Plain.box (twoAccounts "token") ⟨.empty, .new []⟩) twoAccountsSchedule := by
    decide +kernel
  exact ⟨hhealthy, (answers_iff_writesHealthy Plain.box (twoAccounts "token") (.new [])
    ⟨Vector.replicate 32 0⟩ twoAccountsSchedule).mpr hhealthy⟩

/-- **An account that fails the others.** Both requests succeed. After the
first the queries answer, and after the second, whose credential is a
brace and no envelope, neither does. -/
theorem unreadable_account_fails_all :
    (∀ i, ((ran Plain.box (twoAccounts "\x7b") ⟨.empty, .new []⟩ twoAccountsSchedule).procs
      i).result? = some true) ∧
    (((credentialSnapshot Plain.box ⟨Vector.replicate 32 0⟩ 0).run Database.exec
      (ran Plain.box (twoAccounts "\x7b") ⟨.empty, .new []⟩
        (twoAccountsSchedule.take 6)).shared.database).2.isOk = true ∧
      ((oauthRefreshCandidates Plain.box 0).run Database.exec
        (ran Plain.box (twoAccounts "\x7b") ⟨.empty, .new []⟩
          (twoAccountsSchedule.take 6)).shared.database).2.isOk = true) ∧
    ((credentialSnapshot Plain.box ⟨Vector.replicate 32 0⟩ 0).run Database.exec
      (ran Plain.box (twoAccounts "\x7b") ⟨.empty, .new []⟩
        twoAccountsSchedule).shared.database).2 = .error .invalidData ∧
      ((oauthRefreshCandidates Plain.box 0).run Database.exec
        (ran Plain.box (twoAccounts "\x7b") ⟨.empty, .new []⟩
          twoAccountsSchedule).shared.database).2 =
        .error (.invalidAccount "EOF while parsing an object") := by
  refine ⟨by decide +kernel, ⟨by decide +kernel, by decide +kernel⟩, by decide +kernel,
    by decide +kernel⟩

end Example

end Admin

end Llmap
