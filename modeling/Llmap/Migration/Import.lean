import Llmap.Migration.Lines
import Llmap.Storage.Accounts
/-!
# Import

What `import_claudeproxy_env` does to a store. It goes through the accounts
one after another: one whose id is stored is passed over, unless it is to be
replaced, and any other is written in a transaction of its own
(`run_importLoop_cons`).

A failure ends the loop and takes nothing back, so a failed import changes
nothing if it has only passed accounts over before (`NothingBefore`), and
hardly otherwise.
-/

namespace Llmap

namespace Migration

open Providers Secrets Storage Egress

section Run

variable [Serde] [Sealing] [Urls]

/-! ## One account -/

/-- **A write that can be made**: SQLite does not fail at it, every endpoint
of the account parses, and its endpoints and its credential are sealed. -/
structure Writable (box : SecretBox) (faults : Faults) (nonces : ℕ → WriteNonces) (call : ℕ)
    (imported : ImportedAccount) : Prop where
  sqlite : faults call = none
  endpoints : ∀ source ∈ imported.account.egressProxies, ∃ endpoint,
    ProxyEndpoint.parse source = .ok endpoint
  egress : ∃ stored, box.encrypt (nonces call).egress
    (Serde.egressToString imported.account.egressProxies) (egressData imported.account.id) =
      .ok stored
  credential : ∃ stored, box.encrypt (nonces call).credential imported.credential
    (credentialData imported.account.id) = .ok stored

omit [Serde] [Sealing] in
theorem exists_parsedEgress_iff {sources : List String} :
    (∃ endpoints, parsedEgress sources = .ok endpoints) ↔
      ∀ source ∈ sources, ∃ endpoint, ProxyEndpoint.parse source = .ok endpoint := by
  unfold parsedEgress
  rw [exists_mapM_iff]
  refine forall₂_congr fun source _ => ?_
  cases ProxyEndpoint.parse source with
  | error error => simp [Except.mapError]
  | ok endpoint => simp [Except.mapError]

variable {box : SecretBox} {faults : Faults} {nonces : ℕ → WriteNonces} {existing : List String}
  {replace : Bool} {call : ℕ} {summary : ImportSummary} {accounts : List ImportedAccount}
  {imported : ImportedAccount} {database : Database}

/-- Such an account has a row. -/
theorem writable_iff : Writable box faults nonces call imported ↔ faults call = none ∧
    ∃ row, sealedRow box (nonces call) imported.account imported.credential = .ok row := by
  constructor
  · intro h
    obtain ⟨endpoints, hendpoints⟩ := exists_parsedEgress_iff.mpr h.endpoints
    obtain ⟨egress, hegress⟩ := h.egress
    obtain ⟨ciphertext, hcredential⟩ := h.credential
    refine ⟨h.sqlite, ?_⟩
    simp only [sealedRow, accountStorageValues, hendpoints, hegress, hcredential]
    exact ⟨_, rfl⟩
  · rintro ⟨hfault, row, hrow⟩
    obtain ⟨accountJson, egress, ciphertext, hvalues, hcredential, -⟩ := sealedRow_eq_ok hrow
    obtain ⟨endpoints, hendpoints, hegress, -⟩ := accountStorageValues_eq_ok hvalues
    exact ⟨hfault, exists_parsedEgress_iff.mp ⟨endpoints, hendpoints⟩, ⟨egress, hegress⟩,
      ciphertext, hcredential⟩

/-- An account the loop passes over. -/
def Skips (existing : List String) (replace : Bool) (imported : ImportedAccount) : Prop :=
  imported.account.id ∈ existing ∧ replace = false

/-- An account at which the loop fails. -/
def Fails (skips : ImportedAccount → Prop) (box : SecretBox) (faults : Faults)
    (nonces : ℕ → WriteNonces) (call : ℕ) (imported : ImportedAccount) : Prop :=
  ¬ skips imported ∧ ¬ Writable box faults nonces call imported

/-! ## The loop -/

/-- What the loop comes to. -/
abbrev looped (box : SecretBox) (faults : Faults) (nonces : ℕ → WriteNonces)
    (existing : List String) (replace : Bool) (call : ℕ) (summary : ImportSummary)
    (accounts : List ImportedAccount) (database : Database) :
    Database × Except MigrationError ImportSummary :=
  (importLoop box faults nonces existing replace call summary accounts).run Database.exec database

/-- **What the loop does with its next account**: it passes it over, it
fails there, or it writes it and goes on. -/
theorem run_importLoop_cons (imported : ImportedAccount) (accounts : List ImportedAccount)
    (summary : ImportSummary) (database : Database) :
    let run := looped box faults nonces existing replace
    (Skips existing replace imported ∧ run call summary (imported :: accounts) database =
        run (call + 1) { summary with skippedExisting := summary.skippedExisting + 1 } accounts
          database) ∨
      (Fails (Skips existing replace) box faults nonces call imported ∧
        ∃ error, run call summary (imported :: accounts) database = (database, .error error)) ∨
      ¬ Skips existing replace imported ∧ Writable box faults nonces call imported ∧ ∃ row,
        sealedRow box (nonces call) imported.account imported.credential = .ok row ∧
        run call summary (imported :: accounts) database =
          run (call + 1) { summary with imported := summary.imported + 1 } accounts
            (database.exec (.upsert imported.account.id row)).1 := by
  intro run
  by_cases hskips : imported.account.id ∈ existing ∧ replace = false
  · refine .inl ⟨hskips, ?_⟩
    simp only [run, looped]
    rw [importLoop, if_pos hskips]
  · refine .inr ?_
    simp only [run, looped, Fails, writable_iff]
    rw [importLoop, if_neg hskips]
    cases hfault : faults call with
    | some message => exact .inl ⟨⟨hskips, by simp⟩, _, rfl⟩
    | none =>
        unfold upsertAccount
        cases hrow : sealedRow box (nonces call) imported.account imported.credential with
        | error error => exact .inl ⟨⟨hskips, by simp⟩, _, rfl⟩
        | ok row => exact .inr ⟨hskips, by simp, row, rfl, rfl⟩

/-- **The loop leaves what is not in its list.** -/
theorem looped_of_notMem {id : String} (h : id ∉ accounts.map (·.account.id)) :
    let ran := looped box faults nonces existing replace call summary accounts database
    ran.1.providerAccounts[id]? = database.providerAccounts[id]? ∧
      ran.1.credentialHistory[id]? = database.credentialHistory[id]? := by
  intro ran
  simp only [ran]
  induction accounts generalizing call summary database with
  | nil => exact ⟨rfl, rfl⟩
  | cons imported accounts ih =>
      rw [List.map_cons, List.mem_cons, not_or] at h
      rcases run_importLoop_cons imported accounts summary database with
        ⟨-, hrun⟩ | ⟨-, error, hrun⟩ | ⟨-, -, row, -, hrun⟩
      · rw [hrun]
        exact ih h.2
      · rw [hrun]
        exact ⟨rfl, rfl⟩
      · rw [hrun]
        obtain ⟨hrow, hhistory⟩ := ih h.2
        rw [hrow, hhistory, Database.accounts_upsert, Database.history_upsert,
          if_neg (Ne.symm h.1), if_neg (Ne.symm h.1)]
        exact ⟨rfl, rfl⟩

/-! ## The first failure -/

/-- **The first account that fails**, counted from a call on. -/
structure FirstFailure (skips : ImportedAccount → Prop) (box : SecretBox) (faults : Faults)
    (nonces : ℕ → WriteNonces) (call : ℕ) (accounts : List ImportedAccount) (k : ℕ) : Prop where
  fails : ∃ imported, accounts[k]? = some imported ∧
    Fails skips box faults nonces (call + k) imported
  first : ∀ j < k, ∀ earlier, accounts[j]? = some earlier →
    ¬ Fails skips box faults nonces (call + j) earlier

variable {skips : ImportedAccount → Prop} {k : ℕ}

theorem FirstFailure.cons (h : FirstFailure skips box faults nonces (call + 1) accounts k)
    (himported : ¬ Fails skips box faults nonces call imported) :
    FirstFailure skips box faults nonces call (imported :: accounts) (k + 1) := by
  obtain ⟨failed, hfailed, hfails⟩ := h.fails
  refine ⟨⟨failed, hfailed, ?_⟩, fun j hj earlier hearlier => ?_⟩
  · rwa [Nat.add_right_comm] at hfails
  · match j, hearlier with
    | 0, hearlier =>
        obtain rfl := Option.some.inj hearlier
        exact himported
    | j + 1, hearlier =>
        have hlater := h.first j (by omega) earlier hearlier
        rwa [Nat.add_right_comm] at hlater

theorem FirstFailure.tail
    (h : FirstFailure skips box faults nonces call (imported :: accounts) (k + 1)) :
    FirstFailure skips box faults nonces (call + 1) accounts k := by
  obtain ⟨failed, hfailed, hfails⟩ := h.fails
  refine ⟨⟨failed, hfailed, ?_⟩, fun j hj earlier hearlier => ?_⟩
  · rwa [Nat.add_right_comm]
  · have hlater := h.first (j + 1) (by omega) earlier hearlier
    rwa [Nat.add_right_comm]

/-- **A loop that fails** does so at a first account. -/
theorem exists_firstFailure {error : MigrationError}
    (h : (looped box faults nonces existing replace call summary accounts database).2 =
      .error error) :
    ∃ k, FirstFailure (Skips existing replace) box faults nonces call accounts k := by
  induction accounts generalizing call summary database with
  | nil => cases h
  | cons imported accounts ih =>
      rcases run_importLoop_cons imported accounts summary database with
        ⟨hskips, hrun⟩ | ⟨hfails, -⟩ | ⟨-, hwritable, row, -, hrun⟩
      · rw [hrun] at h
        obtain ⟨k, hfirst⟩ := ih h
        exact ⟨k + 1, hfirst.cons fun hfails => hfails.1 hskips⟩
      · exact ⟨0, ⟨imported, rfl, hfails⟩, nofun⟩
      · rw [hrun] at h
        obtain ⟨k, hfirst⟩ := ih h
        exact ⟨k + 1, hfirst.cons fun hfails => hfails.2 hwritable⟩

/-- And a loop fails if an account does. It has written nothing if those
before are passed over. -/
theorem looped_of_firstFailure
    (h : FirstFailure (Skips existing replace) box faults nonces call accounts k) :
    let ran := looped box faults nonces existing replace call summary accounts database
    (∃ error, ran.2 = .error error) ∧
      ((∀ j < k, ∀ earlier, accounts[j]? = some earlier → Skips existing replace earlier) →
        ran.1 = database) := by
  intro ran
  simp only [ran]
  induction accounts generalizing call summary database k with
  | nil =>
      obtain ⟨_, hnone, -⟩ := h.fails
      cases hnone
  | cons imported accounts ih =>
      rcases run_importLoop_cons imported accounts summary database with
        ⟨hskips, hrun⟩ | ⟨-, error, hrun⟩ | ⟨hskips, hwritable, row, -, hrun⟩
      · rw [hrun]
        cases k with
        | zero =>
            obtain ⟨failed, hfailed, hfails⟩ := h.fails
            obtain rfl := Option.some.inj hfailed
            exact absurd hskips hfails.1
        | succ k =>
            obtain ⟨herror, hsame⟩ := ih h.tail
            refine ⟨herror, fun hbefore => hsame fun j hj earlier hearlier => ?_⟩
            exact hbefore (j + 1) (by omega) earlier hearlier
      · rw [hrun]
        exact ⟨⟨error, rfl⟩, fun _ => rfl⟩
      · rw [hrun]
        cases k with
        | zero =>
            obtain ⟨failed, hfailed, hfails⟩ := h.fails
            obtain rfl := Option.some.inj hfailed
            exact absurd hwritable hfails.2
        | succ k =>
            refine ⟨(ih h.tail).1, fun hbefore => ?_⟩
            exact absurd (hbefore 0 (by omega) imported rfl) hskips

/-- **What is written before a failure stays.** -/
theorem looped_row (summary : ImportSummary) (database : Database)
    (hnodup : (accounts.map (·.account.id)).Nodup)
    (h : FirstFailure (Skips existing replace) box faults nonces call accounts k) {j : ℕ}
    (hj : j < k) (himported : accounts[j]? = some imported)
    (hskips : ¬ Skips existing replace imported) :
    ∃ row, sealedRow box (nonces (call + j)) imported.account imported.credential = .ok row ∧
      (looped box faults nonces existing replace call summary accounts
        database).1.providerAccounts[imported.account.id]? = some row := by
  induction accounts generalizing call summary database k j with
  | nil => cases himported
  | cons next accounts ih =>
      obtain ⟨hfresh, hnodup⟩ := List.nodup_cons.mp hnodup
      obtain ⟨k, rfl⟩ : ∃ n, k = n + 1 := ⟨k - 1, by omega⟩
      have hlater : ∀ {summary database} i, j = i + 1 → ∃ row,
          sealedRow box (nonces (call + j)) imported.account imported.credential = .ok row ∧
            (looped box faults nonces existing replace (call + 1) summary accounts
              database).1.providerAccounts[imported.account.id]? = some row := by
        rintro summary database i rfl
        rw [show call + (i + 1) = call + 1 + i by omega]
        exact ih summary database hnodup h.tail (by omega) himported
      rcases run_importLoop_cons next accounts summary database with
        ⟨hnext, hrun⟩ | ⟨hfails, -⟩ | ⟨-, -, row, hrow, hrun⟩
      · rw [hrun]
        cases j with
        | zero =>
            obtain rfl := Option.some.inj himported
            exact absurd hnext hskips
        | succ i => exact hlater i rfl
      · exact absurd hfails (h.first 0 (by omega) next rfl)
      · rw [hrun]
        cases j with
        | zero =>
            obtain rfl := Option.some.inj himported
            refine ⟨row, hrow, ?_⟩
            rw [(looped_of_notMem hfresh).1, Database.accounts_upsert, if_pos rfl]
        | succ i => exact hlater i rfl

/-! ## The import -/

omit [Sealing] in
/-- The listing is one read. -/
theorem run_listAccounts_bind (next : Except StorageError (List PublicAccount) →
      Prog Section Section.Resp (Except MigrationError ImportSummary)) (database : Database) :
    (listAccounts.bind next).run Database.exec database =
      (next (listAccounts.run Database.exec database).2).run Database.exec database :=
  rfl

/-- Where the accounts can be listed, an import is its loop. -/
theorem run_import_of_listed {listed : List PublicAccount} (hfault : faults 0 = none)
    (hlisted : (listAccounts.run Database.exec database).2 = .ok listed) :
    (importClaudeproxyEnv box faults nonces accounts replace).run Database.exec database =
      looped box faults nonces (listed.map (·.id)) replace 1 ⟨0, 0⟩ accounts database := by
  unfold importClaudeproxyEnv
  rw [hfault]
  dsimp only
  rw [run_listAccounts_bind, hlisted]

/-- Where they cannot, it fails at once. -/
theorem run_import_of_not (box : SecretBox) (nonces : ℕ → WriteNonces)
    (accounts : List ImportedAccount) (replace : Bool)
    (h : ¬ (faults 0 = none ∧ ∃ listed, (listAccounts.run Database.exec database).2 = .ok listed)) :
    ∃ error, (importClaudeproxyEnv box faults nonces accounts replace).run Database.exec database =
      (database, .error error) := by
  unfold importClaudeproxyEnv
  cases hfault : faults 0 with
  | some message => exact ⟨_, rfl⟩
  | none =>
      dsimp only
      rw [run_listAccounts_bind]
      cases hlisted : (listAccounts.run Database.exec database).2 with
      | error error => exact ⟨_, rfl⟩
      | ok listed => exact absurd ⟨hfault, listed, hlisted⟩ h

/-- **An account that an import passes over**: one of its id is stored, and
is not to be replaced. -/
def Passed (database : Database) (replace : Bool) (imported : ImportedAccount) : Prop :=
  replace = false ∧ ∃ (id : String) (row : AccountRow) (account : ProviderAccount),
    database.providerAccounts[id]? = some row ∧
      Serde.accountFromStr row.accountJson = .ok account ∧ account.id = imported.account.id

omit [Sealing] in
/-- The loop passes these over. -/
theorem skips_eq_passed (replace : Bool) {listed : List PublicAccount}
    (h : (listAccounts.run Database.exec database).2 = .ok listed) :
    Skips (listed.map (·.id)) replace = Passed database replace := by
  funext imported
  exact propext (and_comm.trans (and_congr_right fun _ => mem_listed_iff h _))

/-- **Nothing is written before the first failure**: if the accounts of the
store can be listed, those of the file before the first that cannot be
written are passed over. -/
def NothingBefore (box : SecretBox) (faults : Faults) (nonces : ℕ → WriteNonces)
    (accounts : List ImportedAccount) (replace : Bool) (database : Database) : Prop :=
  faults 0 = none →
    (∀ (id : String) (row : AccountRow), database.providerAccounts[id]? = some row → Parses row) →
    ∀ k, FirstFailure (Passed database replace) box faults nonces 1 accounts k →
      ∀ j < k, ∀ earlier, accounts[j]? = some earlier → Passed database replace earlier

/-- **No ciphertext twice**: no credential is sealed now as what is stored
for its account. -/
def Fresh (box : SecretBox) (nonces : ℕ → WriteNonces) (accounts : List ImportedAccount)
    (database : Database) : Prop :=
  ∀ k imported ciphertext row, accounts[k]? = some imported →
    box.encrypt (nonces (1 + k)).credential imported.credential
      (credentialData imported.account.id) = .ok ciphertext →
    database.providerAccounts[imported.account.id]? = some row →
    row.credentialCiphertext ≠ ciphertext

/-- Two stores with the same rows of accounts and of history. -/
def SameRows (database database' : Database) : Prop :=
  database.providerAccounts = database'.providerAccounts ∧
    database.credentialHistory = database'.credentialHistory

/-- **When a failed import changes nothing**: if nothing is written before
the first failure, and only then, since a credential is sealed anew. -/
theorem failed_import_unchanged_iff [LegacyCrates] {source : String}
    (hparse : parseClaudeproxyEnv source = .ok accounts) (box : SecretBox) (faults : Faults)
    (nonces : ℕ → WriteNonces) (replace : Bool) (database : Database) :
    let ran := (importClaudeproxyEnv box faults nonces accounts replace).run Database.exec database
    (NothingBefore box faults nonces accounts replace database →
        (∃ error, ran.2 = .error error) → SameRows ran.1 database) ∧
      (Fresh box nonces accounts database →
        ((∃ error, ran.2 = .error error) → SameRows ran.1 database) →
          NothingBefore box faults nonces accounts replace database) := by
  intro ran
  by_cases hready : faults 0 = none ∧
      ∃ listed, (listAccounts.run Database.exec database).2 = .ok listed
  · obtain ⟨hfault, listed, hlisted⟩ := hready
    have hran : ran = looped box faults nonces (listed.map (·.id)) replace 1 ⟨0, 0⟩ accounts
        database := run_import_of_listed hfault hlisted
    have hskips := skips_eq_passed replace hlisted
    rw [hran]
    refine ⟨fun hnothing ⟨error, herror⟩ => ?_, fun hfresh hsame _ _ k hfirst j hj earlier
      hearlier => ?_⟩
    · obtain ⟨k, hfirst⟩ := exists_firstFailure herror
      have hbefore : ∀ j < k, ∀ earlier, accounts[j]? = some earlier →
          Skips (listed.map (·.id)) replace earlier := by
        rw [hskips] at hfirst ⊢
        exact hnothing hfault (exists_listed_iff.mp ⟨listed, hlisted⟩) k hfirst
      rw [(looped_of_firstFailure hfirst).2 hbefore]
      exact ⟨rfl, rfl⟩
    · rw [← hskips] at hfirst ⊢
      by_contra hwritten
      obtain ⟨row, hrow, hstored⟩ := looped_row ⟨0, 0⟩ database (nodup_ids_of_parse hparse) hfirst
        hj hearlier hwritten
      obtain ⟨accountJson, egress, ciphertext, -, hcredential, rfl⟩ := sealedRow_eq_ok hrow
      rw [(hsame (looped_of_firstFailure hfirst).1).1] at hstored
      exact hfresh j earlier ciphertext _ hearlier hcredential hstored rfl
  · obtain ⟨error, hran⟩ := run_import_of_not box nonces accounts replace hready
    have hran : ran = (database, .error error) := hran
    rw [hran]
    refine ⟨fun _ _ => ⟨rfl, rfl⟩, fun _ _ hfault hrows => ?_⟩
    exact absurd ⟨hfault, exists_listed_iff.mpr hrows⟩ hready

end Run

section Example

open scoped Plain

/-- Nonces that are always the same. -/
def zeroNonces : WriteNonces := ⟨Vector.replicate 24 0, Vector.replicate 24 0⟩

/-- An account behind a proxy that is none. -/
def proxiedText : String := "\x7b\"type\":\"anthropic\",\"apiKey\":\"k\",\"proxyUrl\":\"x\"\x7d"

/-- Its document. -/
def proxiedDocument : Json :=
  .object [("type", .string "anthropic"), ("apiKey", .string "k"), ("proxyUrl", .string "x")]

/-- A file of two accounts, the second behind a proxy that is none. -/
def proxiedLines : List String :=
  ["CLAUDE_ACCOUNT_1_NAME=a", "CLAUDE_ACCOUNT_1=" ++ keyText, "CLAUDE_ACCOUNT_2_NAME=b",
    "CLAUDE_ACCOUNT_2=" ++ proxiedText]

/-- Its accounts. -/
def proxiedAccounts : List ImportedAccount :=
  [⟨{ Plain.account "claudeproxy-1" .anthropicApiKey true with label := "a" }, "k"⟩,
    ⟨{ Plain.account "claudeproxy-2" .anthropicApiKey true with
        label := "b"
        egressProxies := ["x"] }, "k"⟩]

theorem parse_proxiedLines :
    letI := LegacyCrates.listed [(keyText, keyDocument), (proxiedText, proxiedDocument)]
    letI := Urls.listed [("https://api.anthropic.com/", anthropicUrl)]
    parseClaudeproxyEnv (fileOf proxiedLines) = .ok proxiedAccounts := by
  let := LegacyCrates.listed [(keyText, keyDocument), (proxiedText, proxiedDocument)]
  let := Urls.listed [("https://api.anthropic.com/", anthropicUrl)]
  have hread : assignments (fileOf proxiedLines) =
      [⟨"CLAUDE_ACCOUNT_1_NAME", 1, true, "a", true⟩,
        ⟨"CLAUDE_ACCOUNT_1", 1, false, keyText, true⟩,
        ⟨"CLAUDE_ACCOUNT_2_NAME", 2, true, "b", true⟩,
        ⟨"CLAUDE_ACCOUNT_2", 2, false, proxiedText, true⟩] := by
    rw [assignments_fileOf (by simp [proxiedLines]) (by decide +kernel) (by decide +kernel)]
    decide +kernel
  rw [parse_eq, hread]
  decide +kernel

/-- A store with the first account, and another credential. -/
def olderStore : Database :=
  ((Op.upsert zeroNonces (Plain.account "claudeproxy-1" .anthropicApiKey true) "older").apply
    Plain.box Database.empty).1

/-- The second account is refused, and the first has lost its credential to
the file. -/
theorem failed_import_overwrites :
    letI := LegacyCrates.listed [(keyText, keyDocument), (proxiedText, proxiedDocument)]
    letI := Urls.listed [("https://api.anthropic.com/", anthropicUrl)]
    let ran := (importClaudeproxyEnv Plain.box (fun _ => none) (fun _ => zeroNonces)
      proxiedAccounts true).run Database.exec olderStore
    parseClaudeproxyEnv (fileOf proxiedLines) = .ok proxiedAccounts ∧
      ran.2 = .error (.storage (.invalidAccount
        "invalid egress proxy: unsupported proxy scheme")) ∧
      ((loadAccount Plain.box "claudeproxy-1").run Database.exec olderStore).2.map Prod.snd =
        .ok "older" ∧
      ((loadAccount Plain.box "claudeproxy-1").run Database.exec ran.1).2.map Prod.snd = .ok "k" ∧
      ¬ SameRows ran.1 olderStore := by
  let := LegacyCrates.listed [(keyText, keyDocument), (proxiedText, proxiedDocument)]
  let := Urls.listed [("https://api.anthropic.com/", anthropicUrl)]
  intro ran
  refine ⟨parse_proxiedLines, by decide +kernel, by decide +kernel, by decide +kernel, fun h => ?_⟩
  have hsame := congrArg (fun rows => rows["claudeproxy-1"]?.map (·.credentialCiphertext)) h.1
  exact absurd hsame (by decide +kernel)

/-- The credentials of the file are not sealed as the older one is. -/
theorem fresh_olderStore :
    Fresh Plain.box (fun _ => zeroNonces) proxiedAccounts olderStore := by
  intro k imported ciphertext row himported hencrypt hrow
  match k, himported with
  | 0, himported =>
      obtain rfl := Option.some.inj himported
      have hother : ∀ row ∈ olderStore.providerAccounts["claudeproxy-1"]?,
          (Plain.box.encrypt zeroNonces.credential "k" (credentialData "claudeproxy-1")).toOption ≠
            some row.credentialCiphertext := by decide +kernel
      rintro rfl
      exact hother row hrow (congrArg Except.toOption hencrypt)
  | 1, himported =>
      obtain rfl := Option.some.inj himported
      have hnone : olderStore.providerAccounts["claudeproxy-2"]? = none := by decide +kernel
      exact absurd (hnone.symm.trans hrow) nofun
  | k + 2, himported => exact absurd himported nofun

/-- Without `replace` the first account is passed over, and nothing is
written before the second is refused, as it has to be: the file's
credentials are not sealed as the stored one is. -/
theorem failed_import_unchanged_stored :
    letI := LegacyCrates.listed [(keyText, keyDocument), (proxiedText, proxiedDocument)]
    letI := Urls.listed [("https://api.anthropic.com/", anthropicUrl)]
    let ran := (importClaudeproxyEnv Plain.box (fun _ => none) (fun _ => zeroNonces)
      proxiedAccounts false).run Database.exec olderStore
    parseClaudeproxyEnv (fileOf proxiedLines) = .ok proxiedAccounts ∧
      ran.2 = .error (.storage (.invalidAccount
        "invalid egress proxy: unsupported proxy scheme")) ∧ SameRows ran.1 olderStore ∧
      Fresh Plain.box (fun _ => zeroNonces) proxiedAccounts olderStore := by
  let := LegacyCrates.listed [(keyText, keyDocument), (proxiedText, proxiedDocument)]
  let := Urls.listed [("https://api.anthropic.com/", anthropicUrl)]
  intro ran
  have hran : ran.2 = .error (.storage (.invalidAccount
      "invalid egress proxy: unsupported proxy scheme")) := by decide +kernel
  have hnothing : NothingBefore Plain.box (fun _ => none) (fun _ => zeroNonces) proxiedAccounts
      false olderStore := by
    intro _ _ k hfirst j hj earlier hearlier
    obtain ⟨failed, hfailed, -⟩ := hfirst.fails
    obtain ⟨hk, -⟩ := List.getElem?_eq_some_iff.mp hfailed
    have hlength : proxiedAccounts.length = 2 := rfl
    obtain rfl : j = 0 := by omega
    obtain rfl := Option.some.inj hearlier
    have hid : olderStore.providerAccounts["claudeproxy-1"]?.map (·.accountJson.id) =
        some "claudeproxy-1" := by decide +kernel
    obtain ⟨row, hrow, hid⟩ := Option.map_eq_some_iff.mp hid
    exact ⟨rfl, "claudeproxy-1", row, row.accountJson, hrow, rfl, hid⟩
  exact ⟨parse_proxiedLines, hran, (failed_import_unchanged_iff parse_proxiedLines Plain.box
    (fun _ => none) (fun _ => zeroNonces) false olderStore).1 hnothing ⟨_, hran⟩,
    fresh_olderStore⟩

end Example

end Migration

end Llmap
