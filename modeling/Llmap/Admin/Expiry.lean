import Llmap.Admin.Activity
import Llmap.Plain
/-!
# Expired tokens

A token that an account had and has no longer is accepted for a while, in
its grace. A refresh ends the grace with the token's own expiry, or after
ten minutes if that is earlier. The handlers that create an account over
another and that rotate a credential end it after ten minutes, whatever
the token's expiry, so that they bring an expired token back to life
(`rotated_token_outlives_expiry`).

A token that is stored with an expiry only, at most `t`, is accepted at no
time from `t` on if no rotation gives it a grace beyond `t`
(`expired_token_not_accepted`).
-/

namespace Llmap

namespace Admin

open Providers Secrets Storage Auth

section Expiry

variable [Serde] [Sealing] [Urls] [Chrono]

/-- A stored credential that is not the token, and has it as the token of
an envelope only with an expiry, no later than `t`. -/
def GivesUntil (token : String) (t : DateTime) (credential : String) : Prop :=
  credential ≠ token ∧
    ∀ expiry, decodedCredential .claudeOauth credential = .ok (token, expiry) →
      ∃ instant, expiry = some instant ∧ instant ≤ t

/-- **Stored until `t`.** Every credential an account has is such. -/
def StoredUntil (box : SecretBox) (token : String) (t : DateTime) (database : Database) : Prop :=
  ∀ (id : String) (row : AccountRow) (credential : String),
    database.providerAccounts[id]? = some row →
      box.decrypt row.credentialCiphertext (credentialData id) = .ok credential →
        GivesUntil token t credential

/-- **A grace until `t`.** Where a rotation is about to replace the token,
the token stays valid until `t` at most. -/
def GraceUntil (box : SecretBox) (token : String) (t : DateTime) (state : State) : Op → Prop
  | .store (.rotate id _ expiresAt) =>
      ∀ (previous : AccountRow) (credential : String) (expiry : Option DateTime)
        (validUntil : DateTime), state.database.providerAccounts[id]? = some previous →
          box.decrypt previous.credentialCiphertext (credentialData id) = .ok credential →
            decodedCredential .claudeOauth credential = .ok (token, expiry) →
              Chrono.parseFromRfc3339 expiresAt = some validUntil → validUntil ≤ t
  | _ => True

/-- **The invariant.** What the history has of the token is valid until
`t` at most. -/
def HistoryUntil (box : SecretBox) (token : String) (t : DateTime) (database : Database) : Prop :=
  ∀ (id : String) (history : HistoryRow) (credential : String),
    database.credentialHistory[id]? = some history →
      box.decrypt history.credentialCiphertext (credentialData id) = .ok credential →
        GivesUntil token t credential ∧
          ∀ expiry validUntil, decodedCredential .claudeOauth credential = .ok (token, expiry) →
            Chrono.parseFromRfc3339 history.expiresAt = some validUntil → validUntil ≤ t

variable {box : SecretBox} {token : String} {t : DateTime} {database : Database}

/-! The conditions can be computed, where the token of a credential is
looked up rather than quantified over. -/

instance (token : String) (t : DateTime) (credential : String) :
    Decidable (GivesUntil token t credential) :=
  decidable_of_iff (credential ≠ token ∧
      ∀ decoded ∈ (decodedCredential .claudeOauth credential).toOption, decoded.1 = token →
        decoded.2.any (fun instant => instant ≤ t) = true) <| by
    refine and_congr_right fun _ => ?_
    cases decodedCredential .claudeOauth credential with
    | error error => simp [Except.toOption]
    | ok decoded =>
        obtain ⟨held, expiry⟩ := decoded
        simp [Except.toOption, Option.any_eq_true]

instance (box : SecretBox) (token : String) (t : DateTime) (database : Database) :
    Decidable (StoredUntil box token t database) :=
  decidable_of_iff (∀ pair ∈ database.providerAccounts.toList,
      ∀ credential ∈ (box.decrypt pair.2.credentialCiphertext (credentialData pair.1)).toOption,
        GivesUntil token t credential) <| by
    constructor
    · intro h id row credential hrow hopens
      refine h (id, row) (Std.ExtTreeMap.mem_toList_iff_getElem?_eq_some.mpr hrow) credential ?_
      rw [hopens]
      rfl
    · rintro h ⟨id, row⟩ hpair credential hcredential
      refine h id row credential (Std.ExtTreeMap.mem_toList_iff_getElem?_eq_some.mp hpair) ?_
      cases hopens : box.decrypt row.credentialCiphertext (credentialData id) with
      | error error => simp [hopens, Except.toOption] at hcredential
      | ok opened => simpa [hopens, Except.toOption] using hcredential

/-- What `GraceUntil` says of a rotation, by lookups. -/
def graceUntil (box : SecretBox) (token : String) (t : DateTime) (state : State) : Op → Bool
  | .store (.rotate id _ expiresAt) =>
      state.database.providerAccounts[id]?.all fun previous =>
        match box.decrypt previous.credentialCiphertext (credentialData id) with
        | .error _ => true
        | .ok credential =>
            match decodedCredential .claudeOauth credential with
            | .error _ => true
            | .ok (held, _) => held ≠ token ||
                (Chrono.parseFromRfc3339 expiresAt).all fun validUntil => validUntil ≤ t
  | _ => true

omit [Urls] in
theorem graceUntil_iff {state : State} {o : Op} :
    graceUntil box token t state o = true ↔ GraceUntil box token t state o := by
  unfold graceUntil GraceUntil
  split
  · rename_i id row expiresAt
    cases state.database.providerAccounts[id]? with
    | none => simp
    | some previous =>
        simp only [Option.all_some, Option.some.injEq]
        cases hopens : box.decrypt previous.credentialCiphertext (credentialData id) with
        | error error =>
            refine iff_of_true rfl ?_
            rintro previous' credential' - - rfl hopens'
            cases hopens.symm.trans hopens'
        | ok credential =>
            dsimp only
            cases hdecoded : decodedCredential .claudeOauth credential with
            | error error =>
                refine iff_of_true rfl ?_
                rintro previous' credential' expiry' - rfl hopens' hdecoded'
                obtain rfl : credential = credential' := Except.ok.inj (hopens.symm.trans hopens')
                cases hdecoded.symm.trans hdecoded'
            | ok decoded =>
                obtain ⟨held, expiry⟩ := decoded
                simp only [Bool.or_eq_true, decide_eq_true_eq, Option.all_eq_true]
                constructor
                · rintro h previous' credential' expiry' validUntil rfl hopens' hdecoded' hparse
                  obtain rfl : credential = credential' :=
                    Except.ok.inj (hopens.symm.trans hopens')
                  obtain rfl : held = token :=
                    congrArg Prod.fst (Except.ok.inj (hdecoded.symm.trans hdecoded'))
                  rcases h with hne | hall
                  · exact absurd rfl hne
                  · exact hall validUntil hparse
                · intro h
                  by_cases hheld : held = token
                  · subst hheld
                    exact .inr fun validUntil hparse =>
                      h previous credential expiry validUntil rfl hopens hdecoded hparse
                  · exact .inl hheld
  · simp

instance (box : SecretBox) (token : String) (t : DateTime) (state : State) (o : Op) :
    Decidable (GraceUntil box token t state o) :=
  decidable_of_iff _ graceUntil_iff

/-! ## What an account is admitted by -/

omit [Urls] in
/-- **Evidence.** An account that admits a digest has a credential, or had
one that is in its grace, whose token has the digest. -/
theorem exists_of_admits [Digests] {authenticator : Authenticator} {now : DateTime}
    {row : AccountRow} {history : Option HistoryRow} {entered : AccountCredential}
    {presented : Bytes} (h : accountCredential box authenticator now row history = .ok entered)
    (hadmits : entered.admits presented now = true) :
    ∃ account, Serde.accountFromStr row.accountJson = .ok account ∧
      ((∃ credential held expiry,
        box.decrypt row.credentialCiphertext (credentialData account.id) = .ok credential ∧
        decodedCredential account.kind credential = .ok (held, expiry) ∧
        presented = authenticator.digest held ∧ ∀ instant, expiry = some instant → now < instant) ∨
      ∃ replaced credential held expiry validUntil, history = some replaced ∧
        box.decrypt replaced.credentialCiphertext (credentialData account.id) = .ok credential ∧
        decodedCredential account.kind credential = .ok (held, expiry) ∧
        Chrono.parseFromRfc3339 replaced.expiresAt = some validUntil ∧
        presented = authenticator.digest held ∧ now < validUntil) := by
  obtain ⟨account, secret, current, expiry, credential, haccount, hsecret, hcurrent, hcredential,
    rfl⟩ := accountCredential_eq_ok_iff.mp h
  refine ⟨account, haccount, ?_⟩
  -- a paused account admits nothing
  have hlive : credential.admits presented now = true := by
    cases hen : account.enabled with
    | true => simpa [hen] using hadmits
    | false => simp [hen, admits_iff, AccountCredential.paused] at hadmits
  obtain ⟨-, hversion⟩ := admits_iff.mp hlive
  have hbase : ∀ {version : CredentialVersion},
      version = ⟨authenticator.digest current, expiry⟩ →
      version.notExpired now = true ∧ presented = version.digest →
        presented = authenticator.digest current ∧
          ∀ instant, expiry = some instant → now < instant := by
    rintro _ rfl ⟨hvalid, hdigest⟩
    exact ⟨hdigest, notExpired_iff.mp hvalid⟩
  cases history with
  | none =>
      obtain rfl := Except.ok.inj hcredential
      rcases hversion with hversion | ⟨version, hmem, -⟩
      · exact .inl ⟨secret, current, expiry, hsecret, hcurrent, hbase rfl hversion⟩
      · cases hmem
  | some replaced =>
      obtain ⟨validUntil, hparse, ⟨-, rfl⟩ | ⟨hvalid, previous, held, until', hopened, hdecoded,
        rfl⟩⟩ := withHistory_eq_ok_iff.mp hcredential
      · rcases hversion with hversion | ⟨version, hmem, -⟩
        · exact .inl ⟨secret, current, expiry, hsecret, hcurrent, hbase rfl hversion⟩
        · cases hmem
      · rcases hversion with hversion | ⟨version, hmem, -, hdigest⟩
        · exact .inl ⟨secret, current, expiry, hsecret, hcurrent, hbase rfl hversion⟩
        · obtain rfl := List.mem_singleton.mp hmem
          exact .inr ⟨replaced, previous, held, until', validUntil, rfl, hopened, hdecoded,
            hparse, hdigest, hvalid⟩

/-! ## What a section does to the history -/

omit [Urls] in
theorem HistoryUntil.rotate (h : HistoryUntil box token t database) {router : Routing.Router}
    {id expiresAt : String} {row : AccountRow} (hstored : StoredUntil box token t database)
    (hgrace : GraceUntil box token t ⟨database, router⟩ (.store (.rotate id row expiresAt))) :
    HistoryUntil box token t (database.exec (.rotate id row expiresAt)).1 := by
  intro id' history credential hhistory hopens
  rw [Database.history_rotate] at hhistory
  split at hhistory
  · rename_i heq
    subst heq
    cases hprevious : database.providerAccounts[id]? with
    | none =>
        rw [hprevious] at hhistory
        exact h id history credential hhistory hopens
    | some previous =>
        rw [hprevious] at hhistory
        obtain rfl := Option.some.inj hhistory
        refine ⟨hstored id previous credential hprevious hopens, fun expiry validUntil => ?_⟩
        exact hgrace previous credential expiry validUntil hprevious hopens
  · exact h id' history credential hhistory hopens

omit [Urls] in
/-- The grace a refresh gives ends with the token's own expiry. -/
theorem HistoryUntil.replace [LawfulChrono] (h : HistoryUntil box token t database)
    {id expected ciphertext expiresAt : String} (hstored : StoredUntil box token t database)
    (hlegal : ∃ plaintext envelope now,
      box.decrypt expected (credentialData id) = .ok plaintext ∧
      startsWithStr (trimStart plaintext) "\x7b" = true ∧
      Serde.envelopeFromStr plaintext = .ok envelope ∧
      expiresAt = Chrono.toRfc3339
        (min (envelope.expiresAt.getD (now + minutes 10)) (now + minutes 10))) :
    HistoryUntil box token t (database.exec (.replace id expected ciphertext expiresAt)).1 := by
  by_cases hcurrent : ∃ row, database.providerAccounts[id]? = some row ∧
      row.credentialCiphertext = expected
  · obtain ⟨row, hrow, rfl⟩ := hcurrent
    obtain ⟨plaintext, envelope, now, hplain, hbrace, henvelope, rfl⟩ := hlegal
    rw [Database.exec_replace_of_eq database id hrow rfl]
    intro id' history credential hhistory hopens
    simp only [Std.ExtTreeMap.getElem?_insert, Std.LawfulEqCmp.compare_eq_iff_eq] at hhistory
    split at hhistory
    · rename_i heq
      subst heq
      obtain rfl := Option.some.inj hhistory
      have hgives := hstored id row credential hrow hopens
      refine ⟨hgives, fun expiry validUntil hdecoded hparse => ?_⟩
      obtain rfl : plaintext = credential := Except.ok.inj (hplain.symm.trans hopens)
      obtain ⟨instant, rfl, hle⟩ := hgives.2 expiry hdecoded
      have hexpiry : envelope.expiresAt = some instant := by
        rw [decodedCredential, if_neg (by simp [hbrace]), henvelope] at hdecoded
        dsimp only at hdecoded
        split at hdecoded
        · cases hdecoded
        · exact congrArg Prod.snd (Except.ok.inj hdecoded)
      rw [LawfulChrono.parse_toRfc3339, hexpiry] at hparse
      split at hparse
      · obtain rfl := Option.some.inj hparse
        exact (min_le_left _ _).trans hle
      · cases hparse
    · exact h id' history credential hhistory hopens
  · have hne : ∀ row, database.providerAccounts[id]? = some row →
        row.credentialCiphertext ≠ expected := fun row hrow heq => hcurrent ⟨row, hrow, heq⟩
    rw [Database.exec_replace_of_ne database id hne]
    exact h

/-- **One operation.** -/
theorem HistoryUntil.exec [LawfulChrono] {state : State} {o : Op}
    (h : HistoryUntil box token t state.database) (hlegal : Legal box o)
    (hstored : StoredUntil box token t state.database)
    (hgrace : GraceUntil box token t state o) :
    HistoryUntil box token t (state.exec o).1.database := by
  cases o with
  | replaceRouteAccounts accounts => exact h
  | resetAccountHealth accountId => exact h
  | store s =>
      cases s with
      | rotate id row expiresAt => exact h.rotate hstored hgrace
      | replace id expected ciphertext expiresAt => exact h.replace hstored hlegal.1
      | upsert id row =>
          intro id' history credential hhistory
          change (state.database.exec (.upsert id row)).1.credentialHistory[id']? = _ at hhistory
          rw [Database.history_upsert] at hhistory
          split at hhistory
          · cases hhistory
          · exact h id' history credential hhistory
      | deleteAccount id =>
          intro id' history credential hhistory
          change (state.database.exec (.deleteAccount id)).1.credentialHistory[id']? = _ at hhistory
          rw [Database.history_deleteAccount] at hhistory
          split at hhistory
          · cases hhistory
          · exact h id' history credential hhistory
      | selectAccount | selectAccounts | selectCredentials | updateAccountJson | insertAudit =>
          exact h

/-! ## Runs -/

/-- The tokens a database has, under whatever kind they are read. -/
def HoldsToken (box : SecretBox) (database : Database) (held : String) : Prop :=
  ∃ (id ciphertext credential : String) (kind : ProviderKind) (expiry : Option DateTime),
    (database.current id = some ciphertext ∨
      database.credentialHistory[id]?.map HistoryRow.credentialCiphertext = some ciphertext) ∧
    box.decrypt ciphertext (credentialData id) = .ok credential ∧
    decodedCredential kind credential = .ok (held, expiry)

omit [Sealing] [Urls] [Chrono] in
/-- A credential read as another kind than OAuth's is its own token. -/
theorem GivesUntil.claudeOauth_of_decoded {kind : ProviderKind} {credential : String}
    {expiry : Option DateTime} (h : GivesUntil token t credential)
    (hdecoded : decodedCredential kind credential = .ok (token, expiry)) :
    decodedCredential .claudeOauth credential = .ok (token, expiry) := by
  by_cases hkind : kind = .claudeOauth
  · rwa [hkind] at hdecoded
  · rw [decodedCredential, if_pos (.inl hkind)] at hdecoded
    exact absurd (congrArg Prod.fst (Except.ok.inj hdecoded)) h.1

omit [Urls] in
/-- **From the tables to the answer.** -/
theorem not_accepted_of_until [Digests] {authenticator : Authenticator} {now : DateTime}
    {snapshot : CredentialSnapshot} (hreadable : Readable box database)
    (hstored : StoredUntil box token t database) (hhistory : HistoryUntil box token t database)
    (hnow : t ≤ now)
    (hdigest : ∀ held, HoldsToken box database held →
      authenticator.digest token = authenticator.digest held → token = held)
    (hsnapshot : ((credentialSnapshot box authenticator now).run Database.exec database).2 =
      .ok snapshot) (decision : AuthDecision) :
    authenticator.authorize .enforce (some token) snapshot now ≠ .ok decision := by
  intro haccepted
  obtain ⟨entries, rfl, hrows⟩ := credentialSnapshot_eq_ok_iff.mp hsnapshot
  obtain ⟨accountId, hfound, -⟩ := authorize_enforce_eq_ok_iff.mp haccepted
  obtain ⟨entered, hentered, -⟩ := Option.map_eq_some_iff.mp hfound
  have hadmits := List.find?_some hentered
  have hmem : entered ∈ entries := List.mem_reverse.mp (List.mem_of_find?_eq_some hentered)
  obtain ⟨⟨id, row⟩, -, hrow, hcredential⟩ := exists_of_mem_forall₂ hrows hmem
  obtain ⟨account, haccount, hevidence⟩ := exists_of_admits hcredential hadmits
  -- an account is stored under its own id
  obtain ⟨account', -, -, haccount', hid, -, -⟩ := hreadable.account id row hrow
  obtain rfl : account = account' := Except.ok.inj (haccount.symm.trans haccount')
  rw [hid] at hevidence
  rcases hevidence with ⟨credential, held, expiry, hopens, hdecoded, hsame, hlive⟩ |
    ⟨replaced, credential, held, expiry, validUntil, hreplaced, hopens, hdecoded, hparse, hsame,
      hlive⟩
  · obtain rfl : token = held := hdigest held
      ⟨id, _, credential, account.kind, expiry, .inl (by rw [Database.current, hrow]; rfl), hopens,
        hdecoded⟩ hsame
    have hgives := hstored id row credential hrow hopens
    obtain ⟨instant, hexpiry, hle⟩ := hgives.2 expiry (hgives.claudeOauth_of_decoded hdecoded)
    exact absurd (hlive instant hexpiry) (not_lt_of_ge (hle.trans hnow))
  · obtain rfl : token = held := hdigest held
      ⟨id, _, credential, account.kind, expiry, .inr (by rw [hreplaced]; rfl), hopens,
        hdecoded⟩ hsame
    obtain ⟨hgives, hgrace⟩ := hhistory id replaced credential hreplaced hopens
    have hle := hgrace expiry validUntil (hgives.claudeOauth_of_decoded hdecoded) hparse
    exact absurd hlive (not_lt_of_ge (hle.trans hnow))

variable {ι : Type} [DecidableEq ι]

/-- **No expired token is accepted**, under any schedule of any requests
and refreshes from an empty store: a token that is stored with an expiry
only, `t` at most, is accepted at no time from `t` on, as long as every
rotation that replaces it ends its grace by `t`. -/
theorem expired_token_not_accepted [LawfulSerde] [LawfulSealing] [LawfulChrono] [Digests]
    (box : SecretBox) (activities : ι → Activity) (router : Routing.Router) (token : String)
    (t : DateTime) (schedule : List ι)
    (hstored : ∀ before, before <+: schedule →
      StoredUntil box token t (ran box activities ⟨.empty, router⟩ before).shared.database)
    (hgrace : Run.Along (Pool.turn State.exec) (Pool.Calls (GraceUntil box token t))
      (started box activities ⟨.empty, router⟩) schedule)
    (authenticator : Authenticator) (now : DateTime) (hnow : t ≤ now)
    (hdigest : ∀ held,
      HoldsToken box (ran box activities ⟨.empty, router⟩ schedule).shared.database held →
        authenticator.digest token = authenticator.digest held → token = held)
    (snapshot : CredentialSnapshot)
    (hsnapshot : ((credentialSnapshot box authenticator now).run Database.exec
      (ran box activities ⟨.empty, router⟩ schedule).shared.database).2 = .ok snapshot)
    (decision : AuthDecision) :
    authenticator.authorize .enforce (some token) snapshot now ≠ .ok decision := by
  have hcalls : Run.Along (Pool.turn State.exec)
      (Pool.Calls fun state o => StoredUntil box token t state.database ∧
        GraceUntil box token t state o) (started box activities ⟨.empty, router⟩) schedule := by
    rw [Run.along_iff] at hgrace ⊢
    intro before i hprefix o ho
    exact ⟨hstored before ((List.prefix_append _ _).trans hprefix), hgrace before i hprefix o ho⟩
  obtain ⟨⟨hreadable, hhistory⟩, -⟩ := Pool.final_induct
    (I := fun state : State => Readable box state.database ∧
      HistoryUntil box token t state.database)
    (fun state o h hlegal hcall =>
      ⟨⟨(readable_exec h.1 hlegal).1, h.2.exec hlegal hcall.1 hcall.2⟩,
        (readable_exec h.1 hlegal).2⟩)
    ⟨readable_empty box, fun _ _ _ h => by simp [started, Database.empty] at h⟩
    (fun i => activity_obedient (activities i)) hcalls
  exact not_accepted_of_until hreadable (hstored schedule (List.prefix_refl _)) hhistory hnow
    hdigest hsnapshot decision

end Expiry

section Example

open scoped Plain

/-- An account is created, with a token that expires a minute into time. -/
def expiringCreate : Activity :=
  .handle (.create ⟨0, 0, Vector.replicate 24 0, Vector.replicate 24 1⟩
    ⟨"a", "a", .claudeOauth, (Plain.account "a" .claudeOauth true).baseUrl, true, ∅, [],
      none, none, Plain.expiringText "old"⟩)

/-- Its credential is rotated, at a time. -/
def rotatedAt (now : DateTime) : Activity :=
  .handle (.rotate ⟨now, now, Vector.replicate 24 2, Vector.replicate 24 3⟩ "a"
    (Plain.expiringText "new"))

/-- The account is created, and rotated then. -/
def expiringActivities (now : DateTime) : Fin 2 → Activity
  | 0 => expiringCreate
  | 1 => rotatedAt now

/-- The first to its end, then the second. -/
def expiringSchedule : List (Fin 2) := [0, 0, 0, 0, 0, 0, 1, 1, 1, 1]

/-- A rotation nine minutes before time gives the token the minute it has
left; then it is over. -/
theorem expired_token_not_accepted_in_time :
    (⟨Vector.replicate 32 0⟩ : Authenticator).authorize .enforce (some "old")
      (.available [⟨"a", true, ⟨asBytes "new", some (minutes 1)⟩, []⟩]) (minutes 1) ≠
        .ok ⟨true, false, some "a"⟩ := by
  have hstored : ∀ before ∈ expiringSchedule.inits, StoredUntil Plain.box "old" (minutes 1)
      (ran Plain.box (expiringActivities (minutes (-9))) ⟨.empty, .new []⟩
        before).shared.database := by
    decide +kernel
  refine expired_token_not_accepted Plain.box (expiringActivities (minutes (-9))) (.new []) "old"
    (minutes 1) expiringSchedule (fun before hprefix => ?_) (by decide +kernel) _ (minutes 1) le_rfl
    (fun _ _ hsame => asBytes_injective hsame) _ (by decide +kernel) _
  exact hstored before ((List.mem_inits _ _).mpr hprefix)

/-- **A token that outlives its expiry.** Both requests succeed, and the
token is stored only with an expiry of one minute; rotated out at time
zero, it is accepted at five minutes. -/
theorem rotated_token_outlives_expiry :
    (∀ i, ((ran Plain.box (expiringActivities 0) ⟨.empty, .new []⟩ expiringSchedule).procs
      i).result? = some true) ∧
    (∀ before ∈ expiringSchedule.inits, StoredUntil Plain.box "old" (minutes 1)
      (ran Plain.box (expiringActivities 0) ⟨.empty, .new []⟩ before).shared.database) ∧
      ∃ snapshot, ((credentialSnapshot Plain.box ⟨Vector.replicate 32 0⟩ (minutes 5)).run
          Database.exec (ran Plain.box (expiringActivities 0) ⟨.empty, .new []⟩
            expiringSchedule).shared.database).2 = .ok snapshot ∧
        (⟨Vector.replicate 32 0⟩ : Authenticator).authorize .enforce (some "old") snapshot
          (minutes 5) = .ok ⟨true, false, some "a"⟩ := by
  refine ⟨by decide +kernel, by decide +kernel,
    .available [⟨"a", true, ⟨asBytes "new", some (minutes 1)⟩,
      [⟨asBytes "old", some (minutes 10)⟩]⟩], by decide +kernel, by decide +kernel⟩

end Example

end Admin

end Llmap
