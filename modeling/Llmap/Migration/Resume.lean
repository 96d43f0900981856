import Llmap.Migration.Import
/-!
# Imports that are resumed

Without `replace`, an import adds what is missing and touches nothing else
(`Extends`), whether it fails or not, and one that succeeds leaves nothing
missing (`Complete`). The two determine the accounts (`Extends.unique`), so
it does not matter in how many runs they came.

What is missing is read off the texts of the rows, which have an id of
their own. That it is the row's is kept by whatever the store does
(`OwnTexts`).
-/

namespace Llmap

namespace Migration

open Providers Secrets Storage

/-! ## Adding what is missing -/

section Extend

variable [Serde] [Sealing] [Urls] {box : SecretBox} {accounts : List ImportedAccount}
  {database database' database'' : Database}

/-- **A store with more accounts**: what was there is as it was, and what
is there besides is an account of a list. -/
structure Extends (box : SecretBox) (accounts : List ImportedAccount)
    (database database' : Database) : Prop where
  kept : ∀ id ∈ database.providerAccounts,
    database'.providerAccounts[id]? = database.providerAccounts[id]? ∧
      database'.credentialHistory[id]? = database.credentialHistory[id]?
  added : ∀ id ∉ database.providerAccounts, ∀ row, database'.providerAccounts[id]? = some row →
    database'.credentialHistory[id]? = none ∧
      ∃ imported ∈ accounts, imported.account.id = id ∧
        Holds box id row (imported.account, imported.credential)
  absent : ∀ id ∉ database.providerAccounts, id ∉ database'.providerAccounts →
    database'.credentialHistory[id]? = database.credentialHistory[id]?

/-- No account of a list is missing. -/
def Complete (accounts : List ImportedAccount) (database : Database) : Prop :=
  ∀ imported ∈ accounts, imported.account.id ∈ database.providerAccounts

theorem Extends.refl (box : SecretBox) (accounts : List ImportedAccount) (database : Database) :
    Extends box accounts database database where
  kept _ _ := ⟨rfl, rfl⟩
  added id hid row hrow := by
    refine absurd ?_ hid
    rw [Std.ExtTreeMap.mem_iff_isSome_getElem?, hrow]
    rfl
  absent _ _ _ := rfl

theorem Extends.mem (h : Extends box accounts database database') {id : String}
    (hid : id ∈ database.providerAccounts) : id ∈ database'.providerAccounts := by
  rw [Std.ExtTreeMap.mem_iff_isSome_getElem?] at hid ⊢
  rw [(h.kept id (Std.ExtTreeMap.mem_iff_isSome_getElem?.mpr hid)).1]
  exact hid

theorem Extends.trans (h : Extends box accounts database database')
    (h' : Extends box accounts database' database'') :
    Extends box accounts database database'' where
  kept id hid := by
    obtain ⟨hrow, hhistory⟩ := h.kept id hid
    obtain ⟨hrow', hhistory'⟩ := h'.kept id (h.mem hid)
    exact ⟨hrow'.trans hrow, hhistory'.trans hhistory⟩
  added id hid row hrow := by
    by_cases hid' : id ∈ database'.providerAccounts
    · obtain ⟨hkept, hhistory⟩ := h'.kept id hid'
      rw [hhistory]
      exact h.added id hid row (hkept ▸ hrow)
    · exact h'.added id hid' row hrow
  absent id hid hid'' := by
    have hid' : id ∉ database'.providerAccounts := fun hmem => hid'' (h'.mem hmem)
    exact (h'.absent id hid' hid'').trans (h.absent id hid hid')

theorem Extends.mono {accounts' : List ImportedAccount}
    (h : Extends box accounts database database')
    (hsubset : accounts ⊆ accounts') : Extends box accounts' database database' where
  kept := h.kept
  added id hid row hrow := by
    obtain ⟨hhistory, imported, hmem, hholds⟩ := h.added id hid row hrow
    exact ⟨hhistory, imported, hsubset hmem, hholds⟩
  absent := h.absent

/-- Two rows of one account, up to their ciphertexts. -/
def SameAccount (box : SecretBox) (id : String) (row row' : AccountRow) : Prop :=
  row.accountJson = row'.accountJson ∧ openedRow box id row = openedRow box id row'

/-- Two stores with the same accounts and histories, up to ciphertexts. -/
def SameAccounts (box : SecretBox) (database database' : Database) : Prop :=
  ∀ id : String, Option.Rel (SameAccount box id) database.providerAccounts[id]?
      database'.providerAccounts[id]? ∧
    database.credentialHistory[id]? = database'.credentialHistory[id]?

theorem sameAccount_of_holds {id : String} {row row' : AccountRow}
    {held : ProviderAccount × String} (h : Holds box id row held) (h' : Holds box id row' held) :
    SameAccount box id row row' := by
  obtain ⟨endpoints, hparsed, htext⟩ := h.text
  obtain ⟨endpoints', hparsed', htext'⟩ := h'.text
  obtain rfl := Except.ok.inj (hparsed.symm.trans hparsed')
  exact ⟨htext.trans htext'.symm, h.opens.trans h'.opens.symm⟩

/-- **What is added is determined** by the list, if nothing is missing. -/
theorem Extends.unique (hnodup : (accounts.map (·.account.id)).Nodup)
    (h : Extends box accounts database database') (hcomplete : Complete accounts database')
    (h' : Extends box accounts database database'') (hcomplete' : Complete accounts database'') :
    SameAccounts box database' database'' := by
  intro id
  by_cases hid : id ∈ database.providerAccounts
  · obtain ⟨hrow, hhistory⟩ := h.kept id hid
    obtain ⟨hrow', hhistory'⟩ := h'.kept id hid
    rw [hrow, hrow', hhistory, hhistory']
    refine ⟨?_, rfl⟩
    cases database.providerAccounts[id]? with
    | none => exact .none
    | some row => exact .some ⟨rfl, rfl⟩
  · cases hrow : database'.providerAccounts[id]? with
    | none =>
        cases hrow' : database''.providerAccounts[id]? with
        | none =>
            refine ⟨.none, ?_⟩
            rw [h.absent id hid (by simpa using hrow), h'.absent id hid (by simpa using hrow')]
        | some row' =>
            obtain ⟨-, imported, hmem, rfl, -⟩ := h'.added id hid row' hrow'
            have hthere := Std.ExtTreeMap.mem_iff_isSome_getElem?.mp (hcomplete imported hmem)
            rw [hrow] at hthere
            cases hthere
    | some row =>
        obtain ⟨hhistory, imported, hmem, rfl, hholds⟩ := h.added id hid row hrow
        have hthere := Std.ExtTreeMap.mem_iff_isSome_getElem?.mp (hcomplete' imported hmem)
        obtain ⟨row', hrow'⟩ := Option.isSome_iff_exists.mp hthere
        obtain ⟨hhistory', imported', hmem', hsame, hholds'⟩ := h'.added _ hid row' hrow'
        obtain rfl := List.inj_on_of_nodup_map hnodup hmem' hmem hsame
        rw [hrow', hhistory, hhistory']
        exact ⟨.some (sameAccount_of_holds hholds hholds'), rfl⟩

/-- What is there besides is what the list has. -/
theorem Extends.opened (hnodup : (accounts.map (·.account.id)).Nodup)
    (h : Extends box accounts database database') (hcomplete : Complete accounts database')
    {id : String} (hid : id ∉ database.providerAccounts) :
    database'.providerAccounts[id]?.map (openedRow box id) =
      (accounts.find? (·.account.id = id)).map fun imported =>
        .ok (imported.account, imported.credential) := by
  cases hrow : database'.providerAccounts[id]? with
  | none =>
      have hnone : accounts.find? (·.account.id = id) = none := by
        refine List.find?_eq_none.mpr fun imported himported heq => ?_
        have hthere := Std.ExtTreeMap.mem_iff_isSome_getElem?.mp (hcomplete imported himported)
        rw [of_decide_eq_true heq, hrow] at hthere
        cases hthere
      rw [hnone]
      rfl
  | some row =>
      obtain ⟨-, imported, hmem, rfl, hholds⟩ := h.added id hid row hrow
      have hfound : accounts.find? (·.account.id = imported.account.id) = some imported := by
        have hsome : (accounts.find? (·.account.id = imported.account.id)).isSome = true :=
          List.find?_isSome.mpr ⟨imported, hmem, decide_eq_true rfl⟩
        obtain ⟨found, hfound⟩ := Option.isSome_iff_exists.mp hsome
        have hid := List.find?_some hfound
        have heq := List.inj_on_of_nodup_map hnodup (List.mem_of_find?_eq_some hfound) hmem
          (of_decide_eq_true hid)
        rw [hfound, heq]
      rw [hfound]
      exact congrArg some hholds.opens

/-! ## Stores -/

/-- Every row has an account of its own id for its text. -/
def OwnTexts (database : Database) : Prop :=
  ∀ (id : String) (row : AccountRow), database.providerAccounts[id]? = some row →
    ∃ account, Serde.accountFromStr row.accountJson = .ok account ∧ account.id = id

/-- A store that was made by operations, whatever key each came with. -/
def storeOf [Chrono] (operations : List (SecretBox × Op)) : Database :=
  Run.final (fun database operation => (operation.2.apply operation.1 database).1) Database.empty
    operations

variable [LawfulSerde] [LawfulSealing]

omit [LawfulSealing] in
theorem exists_of_holds {id : String} {row : AccountRow} {held : ProviderAccount × String}
    (h : Holds box id row held) :
    ∃ account, Serde.accountFromStr row.accountJson = .ok account ∧ account.id = held.1.id := by
  obtain ⟨endpoints, -, htext⟩ := h.text
  refine ⟨redacted held.1 endpoints, ?_, rfl⟩
  rw [htext, LawfulSerde.accountFromStr_toString]

theorem ownTexts_apply [Chrono] (h : OwnTexts database) (op : Op) :
    OwnTexts (op.apply box database).1 := by
  intro id row hrow
  by_cases hid : id = op.id
  · subst hid
    rcases apply_cases box database op with ⟨hsame, -⟩ | ⟨s, hs, heq⟩
    · rw [hsame] at hrow
      exact h _ row hrow
    · rw [heq] at hrow
      cases hs with
      | upsert hsealed =>
          obtain rfl := Option.some.inj (by simpa [Op.id] using hrow)
          exact exists_of_holds (holds_of_sealedRow hsealed)
      | rotate hsealed =>
          obtain rfl := Option.some.inj (by simpa [Op.id] using hrow)
          exact exists_of_holds (holds_of_sealedRow hsealed)
      | @replace _ _ _ _ _ before hcipher hbefore hcurrent =>
          -- the text of the row stays
          rw [Database.exec_replace_of_eq _ _ hbefore hcurrent] at hrow
          obtain rfl := Option.some.inj (by simpa [Op.id] using hrow)
          exact h _ before hbefore
      | setEnabled hbefore haccount =>
          obtain ⟨account, hown, hid⟩ := h _ _ hbefore
          obtain rfl := Except.ok.inj (haccount.symm.trans hown)
          obtain rfl := Option.some.inj (by simpa [Op.id, hbefore] using hrow)
          exact ⟨_, LawfulSerde.accountFromStr_toString _, hid⟩
      | delete => simp [Op.id] at hrow
  · rw [(apply_of_ne hid).1] at hrow
    exact h id row hrow

theorem ownTexts_storeOf [Chrono] (operations : List (SecretBox × Op)) :
    OwnTexts (storeOf operations) := by
  refine Run.final_induct_of_step (I := OwnTexts) (fun database operation h => ?_) ?_
  · exact ownTexts_apply h operation.2
  · intro id row hrow
    simp [Database.empty] at hrow

omit [LawfulSealing] in
theorem Extends.ownTexts (h : Extends box accounts database database')
    (hown : OwnTexts database) : OwnTexts database' := by
  intro id row hrow
  by_cases hid : id ∈ database.providerAccounts
  · rw [(h.kept id hid).1] at hrow
    exact hown id row hrow
  · obtain ⟨-, imported, -, rfl, hholds⟩ := h.added id hid row hrow
    exact exists_of_holds hholds

omit [Sealing] [LawfulSerde] [LawfulSealing] in
/-- **The listing has the ids of the rows.** -/
theorem exists_listed (hown : OwnTexts database) :
    ∃ listed, (listAccounts.run Database.exec database).2 = .ok listed ∧
      ∀ id, id ∈ listed.map (·.id) ↔ id ∈ database.providerAccounts := by
  obtain ⟨listed, hlisted⟩ := exists_listed_iff.mpr fun id row hrow =>
    (hown id row hrow).imp fun _ => And.left
  refine ⟨listed, hlisted, fun id => (mem_listed_iff hlisted id).trans ⟨?_, fun hid => ?_⟩⟩
  · rintro ⟨id', row, account, hrow, haccount, rfl⟩
    obtain ⟨account', haccount', rfl⟩ := hown id' row hrow
    obtain rfl := Except.ok.inj (haccount'.symm.trans haccount)
    rw [Std.ExtTreeMap.mem_iff_isSome_getElem?, hrow]
    rfl
  · obtain ⟨row, hrow⟩ :=
      Option.isSome_iff_exists.mp (Std.ExtTreeMap.mem_iff_isSome_getElem?.mp hid)
    obtain ⟨account, haccount, hid⟩ := hown id row hrow
    exact ⟨id, row, account, hrow, haccount, hid⟩

/-! ## Runs -/

variable {faults : Faults} {nonces : ℕ → WriteNonces} {existing : List String} {call : ℕ}
  {summary : ImportSummary} {imported : ImportedAccount}

omit [Sealing] [Urls] [LawfulSerde] [LawfulSealing] in
theorem mem_upsert_iff {id id' : String} {row : AccountRow} :
    id' ∈ (database.exec (.upsert id row)).1.providerAccounts ↔
      id = id' ∨ id' ∈ database.providerAccounts := by
  simp [Database.exec]

omit [LawfulSerde] [LawfulSealing] in
/-- A new row of an account of the list extends a store. -/
theorem extends_upsert {row : AccountRow} (hmem : imported ∈ accounts)
    (hnew : imported.account.id ∉ database.providerAccounts)
    (hholds : Holds box imported.account.id row (imported.account, imported.credential)) :
    Extends box accounts database (database.exec (.upsert imported.account.id row)).1 where
  kept id hid := by
    have hne : imported.account.id ≠ id := fun heq => hnew (heq ▸ hid)
    rw [Database.accounts_upsert, Database.history_upsert, if_neg hne, if_neg hne]
    exact ⟨rfl, rfl⟩
  added id hid row' hrow := by
    rw [Database.accounts_upsert] at hrow
    split at hrow
    · rename_i hsame
      subst hsame
      obtain rfl := Option.some.inj hrow
      rw [Database.history_upsert, if_pos rfl]
      exact ⟨rfl, imported, hmem, rfl, hholds⟩
    · refine absurd ?_ hid
      rw [Std.ExtTreeMap.mem_iff_isSome_getElem?, hrow]
      rfl
  absent id hid hid' := by
    have hne : imported.account.id ≠ id := fun heq => hid' (mem_upsert_iff.mpr (.inl heq))
    rw [Database.history_upsert, if_neg hne]

/-- **The loop adds what is missing**, if what it does not pass over is not
there. -/
theorem looped_extends (hnodup : (accounts.map (·.account.id)).Nodup)
    (hnew : ∀ imported ∈ accounts, ¬ Skips existing false imported →
      imported.account.id ∉ database.providerAccounts) :
    Extends box accounts database
      (looped box faults nonces existing false call summary accounts database).1 := by
  induction accounts generalizing call summary database with
  | nil => exact .refl ..
  | cons imported accounts ih =>
      obtain ⟨hfresh, hnodup⟩ := List.nodup_cons.mp hnodup
      obtain ⟨himported, hnew⟩ := List.forall_mem_cons.mp hnew
      rcases run_importLoop_cons imported accounts summary database with
        ⟨-, hrun⟩ | ⟨-, error, hrun⟩ | ⟨hskips, -, row, hrow, hrun⟩
      · rw [hrun]
        exact (ih hnodup hnew).mono (List.subset_cons_self ..)
      · rw [hrun]
        exact .refl ..
      · rw [hrun]
        have hadded := extends_upsert (List.mem_cons_self (l := accounts)) (himported hskips)
          (holds_of_sealedRow hrow)
        refine hadded.trans ((ih hnodup fun other hother hskips' hmem => ?_).mono
          (List.subset_cons_self ..))
        rcases mem_upsert_iff.mp hmem with heq | hmem
        · exact hfresh (List.mem_map.mpr ⟨other, hother, heq.symm⟩)
        · exact hnew other hother hskips' hmem

omit [LawfulSerde] [LawfulSealing] in
/-- The loop takes nothing away. -/
theorem mem_looped {id : String} (h : id ∈ database.providerAccounts) :
    id ∈ (looped box faults nonces existing false call summary accounts
      database).1.providerAccounts := by
  induction accounts generalizing call summary database with
  | nil => exact h
  | cons imported accounts ih =>
      rcases run_importLoop_cons imported accounts summary database with
        ⟨-, hrun⟩ | ⟨-, error, hrun⟩ | ⟨-, -, row, -, hrun⟩
      · rw [hrun]
        exact ih h
      · rw [hrun]
        exact h
      · rw [hrun]
        exact ih (mem_upsert_iff.mpr (.inr h))

omit [LawfulSerde] [LawfulSealing] in
/-- **A loop that comes to its end** has written every account it has not
passed over, and counted each. -/
theorem looped_eq_ok {summary' : ImportSummary}
    (h : (looped box faults nonces existing false call summary accounts database).2 =
      .ok summary') :
    (∀ imported ∈ accounts, Skips existing false imported ∨ imported.account.id ∈
        (looped box faults nonces existing false call summary accounts
          database).1.providerAccounts) ∧
      summary'.imported + summary'.skippedExisting =
        summary.imported + summary.skippedExisting + accounts.length := by
  induction accounts generalizing call summary database with
  | nil =>
      obtain rfl := Except.ok.inj h
      exact ⟨fun imported himported => absurd himported List.not_mem_nil, rfl⟩
  | cons imported accounts ih =>
      rcases run_importLoop_cons imported accounts summary database with
        ⟨hskips, hrun⟩ | ⟨-, error, hrun⟩ | ⟨-, -, row, -, hrun⟩
      · rw [hrun] at h ⊢
        obtain ⟨hall, hcount⟩ := ih h
        refine ⟨List.forall_mem_cons.mpr ⟨.inl hskips, hall⟩, ?_⟩
        rw [List.length_cons]
        dsimp only at hcount
        omega
      · rw [hrun] at h
        cases h
      · rw [hrun] at h ⊢
        obtain ⟨hall, hcount⟩ := ih h
        refine ⟨List.forall_mem_cons.mpr ⟨.inr (mem_looped (mem_upsert_iff.mpr (.inl rfl))), hall⟩,
          ?_⟩
        rw [List.length_cons]
        dsimp only at hcount
        omega

omit [LawfulSerde] [LawfulSealing] in
/-- Where every account is passed over, nothing is written. -/
theorem looped_of_skips (h : ∀ imported ∈ accounts, Skips existing false imported) :
    looped box faults nonces existing false call summary accounts database = (database,
      .ok { summary with skippedExisting := summary.skippedExisting + accounts.length }) := by
  induction accounts generalizing call summary with
  | nil => rfl
  | cons imported accounts ih =>
      obtain ⟨hskips, h⟩ := List.forall_mem_cons.mp h
      rcases run_importLoop_cons imported accounts summary database with
        ⟨-, hrun⟩ | ⟨hfails, -⟩ | ⟨hnot, -⟩
      · rw [hrun, ih h, List.length_cons, Nat.add_assoc, Nat.add_comm 1]
      · exact absurd hskips hfails.1
      · exact absurd hskips hnot

/-- **An import adds what is missing**, and nothing else, whether it fails
or not. -/
theorem import_extends (box : SecretBox) (faults : Faults) (nonces : ℕ → WriteNonces)
    (hown : OwnTexts database) (hnodup : (accounts.map (·.account.id)).Nodup) :
    Extends box accounts database
      ((importClaudeproxyEnv box faults nonces accounts false).run Database.exec database).1 := by
  obtain ⟨listed, hlisted, hids⟩ := exists_listed hown
  by_cases hfault : faults 0 = none
  · rw [run_import_of_listed hfault hlisted]
    refine looped_extends hnodup fun imported _ hskips hmem => hskips ⟨?_, rfl⟩
    exact (hids _).mpr hmem
  · obtain ⟨error, hrun⟩ := run_import_of_not box nonces accounts false fun h => hfault h.1
    rw [hrun]
    exact .refl ..

omit [LawfulSerde] [LawfulSealing] in
/-- **An import that succeeds leaves nothing missing**, and has counted
every account. -/
theorem import_complete (hown : OwnTexts database)
    (h : ((importClaudeproxyEnv box faults nonces accounts false).run Database.exec database).2 =
      .ok summary) :
    Complete accounts
        ((importClaudeproxyEnv box faults nonces accounts false).run Database.exec database).1 ∧
      summary.imported + summary.skippedExisting = accounts.length := by
  obtain ⟨listed, hlisted, hids⟩ := exists_listed hown
  by_cases hfault : faults 0 = none
  · rw [run_import_of_listed hfault hlisted] at h ⊢
    obtain ⟨hall, hcount⟩ := looped_eq_ok h
    refine ⟨fun imported himported => (hall imported himported).elim (fun hskips => ?_) id, ?_⟩
    · exact mem_looped ((hids _).mp hskips.1)
    · dsimp only at hcount
      omega
  · obtain ⟨error, hrun⟩ := run_import_of_not box nonces accounts false fun h => hfault h.1
    rw [hrun] at h
    cases h

omit [LawfulSerde] [LawfulSealing] in
/-- Where nothing is missing, an import does nothing. -/
theorem import_of_complete (hown : OwnTexts database) (hcomplete : Complete accounts database)
    (hfault : faults 0 = none) :
    (importClaudeproxyEnv box faults nonces accounts false).run Database.exec database =
      (database, .ok ⟨0, accounts.length⟩) := by
  obtain ⟨listed, hlisted, hids⟩ := exists_listed hown
  have hskips : ∀ imported ∈ accounts, Skips (listed.map (·.id)) false imported :=
    fun imported himported => ⟨(hids _).mpr (hcomplete imported himported), rfl⟩
  rw [run_import_of_listed hfault hlisted, looped_of_skips hskips, Nat.zero_add]

/-- **Import without `replace` is conservative, idempotent and resumable.**
Whatever is in the store and whatever is in the file: an import that
succeeds leaves the accounts that were there, adds exactly the others of
the file as the file has them, and counts each account of the file once.
Another import then adds none and changes nothing. And had there been one
before, of the file or of any part it begins with, whether it came to its
end or failed on the way, the accounts would be the same. -/
theorem import_resumable [Chrono] [LegacyCrates] {source : String}
    (hparse : parseClaudeproxyEnv source = .ok accounts) (operations : List (SecretBox × Op))
    (box : SecretBox) (faults : Faults) (nonces : ℕ → WriteNonces) (summary : ImportSummary) :
    let database := storeOf operations
    let ran := (importClaudeproxyEnv box faults nonces accounts false).run Database.exec database
    ran.2 = .ok summary →
      (∀ id ∈ database.providerAccounts,
        ran.1.providerAccounts[id]? = database.providerAccounts[id]? ∧
          ran.1.credentialHistory[id]? = database.credentialHistory[id]?) ∧
      (∀ id ∉ database.providerAccounts, ran.1.providerAccounts[id]?.map (openedRow box id) =
        (accounts.find? (·.account.id = id)).map fun imported =>
          .ok (imported.account, imported.credential)) ∧
      summary.imported + summary.skippedExisting = accounts.length ∧
      (∀ (faults' : Faults) (nonces' : ℕ → WriteNonces), faults' 0 = none →
        (importClaudeproxyEnv box faults' nonces' accounts false).run Database.exec ran.1 =
          (ran.1, .ok ⟨0, accounts.length⟩)) ∧
      ∀ (n : ℕ) (faults₁ faults₂ : Faults) (nonces₁ nonces₂ : ℕ → WriteNonces)
        (summary₂ : ImportSummary),
        let before := (importClaudeproxyEnv box faults₁ nonces₁ (accounts.take n) false).run
          Database.exec database
        let resumed := (importClaudeproxyEnv box faults₂ nonces₂ accounts false).run
          Database.exec before.1
        resumed.2 = .ok summary₂ → SameAccounts box resumed.1 ran.1 := by
  intro database ran hran
  have hown : OwnTexts database := ownTexts_storeOf operations
  have hnodup := nodup_ids_of_parse hparse
  have hextends : Extends box accounts database ran.1 :=
    import_extends box faults nonces hown hnodup
  obtain ⟨hcomplete, hcount⟩ := import_complete hown hran
  refine ⟨hextends.kept, fun id hid => ?_, hcount, fun faults' nonces' hfault => ?_, ?_⟩
  · exact hextends.opened hnodup hcomplete hid
  · exact import_of_complete (hextends.ownTexts hown) hcomplete hfault
  · intro n faults₁ faults₂ nonces₁ nonces₂ summary₂ before resumed hresumed
    have htaken : ((accounts.take n).map (·.account.id)).Nodup :=
      ((List.take_sublist n accounts).map _).nodup hnodup
    have hbefore : Extends box accounts database before.1 :=
      (import_extends box faults₁ nonces₁ hown htaken).mono (List.take_subset n accounts)
    have hown' := hbefore.ownTexts hown
    have hafter : Extends box accounts before.1 resumed.1 :=
      import_extends box faults₂ nonces₂ hown' hnodup
    obtain ⟨hcomplete', -⟩ := import_complete hown' hresumed
    exact (hbefore.trans hafter).unique hnodup hcomplete' hextends hcomplete

end Extend

section Example

open scoped Plain

/-- Three runs: the whole file, and before that its first account, which
SQLite then failed to go on from. -/
theorem import_resumable_mixed :
    letI := LegacyCrates.listed [(keyText, keyDocument)]
    letI := Urls.listed [("https://api.anthropic.com/", anthropicUrl)]
    let imports := fun (faults : Faults) =>
      importClaudeproxyEnv Plain.box faults (fun _ => zeroNonces) mixedAccounts false
    let ran := (imports fun _ => none).run Database.exec Database.empty
    let before := (imports fun call => if call = 2 then some "disk full" else none).run
      Database.exec Database.empty
    let resumed := (imports fun _ => none).run Database.exec before.1
    parseClaudeproxyEnv (fileOf mixedLines) = .ok mixedAccounts ∧ ran.2 = .ok ⟨2, 0⟩ ∧
      before.2 = .error (.storage (.database "disk full")) ∧ resumed.2 = .ok ⟨1, 1⟩ ∧
      SameAccounts Plain.box resumed.1 ran.1 ∧
      (imports fun _ => none).run Database.exec ran.1 = (ran.1, .ok ⟨0, 2⟩) := by
  let := LegacyCrates.listed [(keyText, keyDocument)]
  let := Urls.listed [("https://api.anthropic.com/", anthropicUrl)]
  intro imports ran before resumed
  have hran : ran.2 = .ok ⟨2, 0⟩ := by decide +kernel
  have hresumed : resumed.2 = .ok ⟨1, 1⟩ := by decide +kernel
  obtain ⟨-, -, -, hagain, hresumable⟩ := import_resumable parse_mixedLines [] Plain.box
    (fun _ => none) (fun _ => zeroNonces) ⟨2, 0⟩ hran
  exact ⟨parse_mixedLines, hran, by decide +kernel, hresumed,
    hresumable 2 _ _ _ _ ⟨1, 1⟩ hresumed, hagain _ _ rfl⟩

end Example

end Migration

end Llmap
