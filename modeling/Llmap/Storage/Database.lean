import Llmap.Providers.Account
import Llmap.Common.Prog
/-!
# The database

The tables of `SqliteStore` and what the store does to them. The store
reaches its connection through a mutex, so what it does under one lock is
one step: a `Section`. A section that writes is a transaction, and SQLite
carries it out whole or not at all; one that SQLite fails to carry out
leaves the tables as they were, and is no step. Only the insertion of an
audit event says whether it was carried out, since its callers go on
without it.

The column `updated_at` is written and never read, and the table of
migrations is read by no section; neither is modelled.
-/

namespace Llmap

namespace Storage

open Providers

variable [Serde]

/-- A row of `provider_accounts`, under its id. -/
structure AccountRow where
  accountJson : Serde.AccountJson
  credentialCiphertext : String
  egressCiphertext : Option String
deriving DecidableEq

/-- A row of `credential_history`, under its account's id. -/
structure HistoryRow where
  credentialCiphertext : String
  expiresAt : String
deriving DecidableEq

/-- A row of `audit_events`. Its id is its place. -/
structure AuditRow where
  occurredAt : String
  actor : String
  action : String
  accountId : Option String
  provider : Option String
  model : Option String
  sessionId : Option String
  status : Option UInt16
  outcome : String
  latencyMs : Option UInt64
deriving DecidableEq

/-- The tables. -/
structure Database where
  providerAccounts : Table String AccountRow
  credentialHistory : Table String HistoryRow
  auditEvents : List AuditRow
deriving DecidableEq

/-- The database `SqliteStore::open` creates. -/
def Database.empty : Database := ⟨∅, ∅, []⟩

/-- What the store does under one lock. -/
inductive Section where
  /-- The transaction of `upsert_account`. -/
  | upsert (id : String) (row : AccountRow)
  /-- The transaction of `rotate_account_credential`. -/
  | rotate (id : String) (row : AccountRow) (expiresAt : String)
  /-- The transaction of `replace_oauth_if_current`. -/
  | replace (id expected ciphertext expiresAt : String)
  /-- `SELECT ... FROM provider_accounts WHERE id = ?1`. -/
  | selectAccount (id : String)
  /-- `SELECT ... FROM provider_accounts ORDER BY id`. -/
  | selectAccounts
  /-- The join of `credential_snapshot`. -/
  | selectCredentials
  /-- `UPDATE provider_accounts SET account_json = ?2 WHERE id = ?1`. -/
  | updateAccountJson (id : String) (accountJson : Serde.AccountJson)
  /-- `DELETE FROM provider_accounts WHERE id = ?1`. -/
  | deleteAccount (id : String)
  /-- `INSERT INTO audit_events`. -/
  | insertAudit (row : AuditRow)
deriving DecidableEq

/-- What a section answers. -/
abbrev Section.Resp : Section → Type
  | .upsert .. | .rotate .. | .updateAccountJson .. => Unit
  | .insertAudit .. => Except String Unit
  | .replace .. | .deleteAccount .. => Bool
  | .selectAccount .. => Option AccountRow
  | .selectAccounts => List AccountRow
  | .selectCredentials => List (AccountRow × Option HistoryRow)

namespace Database

/-- The history after a rotation: the credential it replaces, if there is
one. -/
def rotatedHistory (database : Database) (id expiresAt : String) : Table String HistoryRow :=
  match database.providerAccounts[id]? with
  | none => database.credentialHistory
  | some previous =>
      database.credentialHistory.insert id ⟨previous.credentialCiphertext, expiresAt⟩

/-- Carries a section out, as SQLite does when it does not fail. -/
def exec (database : Database) : (s : Section) → Database × s.Resp
  | .upsert id row =>
      ({ database with
         providerAccounts := database.providerAccounts.insert id row
         credentialHistory := database.credentialHistory.erase id }, ())
  | .rotate id row expiresAt =>
      ({ database with
         providerAccounts := database.providerAccounts.insert id row
         credentialHistory := database.rotatedHistory id expiresAt }, ())
  | .replace id expected ciphertext expiresAt =>
      match database.providerAccounts[id]?.filter (·.credentialCiphertext = expected) with
      | none => (database, false)
      | some row =>
          ({ database with
             providerAccounts := database.providerAccounts.insert id
               { row with credentialCiphertext := ciphertext }
             credentialHistory := database.credentialHistory.insert id ⟨expected, expiresAt⟩ },
           true)
  | .selectAccount id => (database, database.providerAccounts[id]?)
  | .selectAccounts => (database, database.providerAccounts.toList.map Prod.snd)
  | .selectCredentials =>
      (database, database.providerAccounts.toList.map fun (id, row) =>
        (row, database.credentialHistory[id]?))
  | .updateAccountJson id accountJson =>
      ({ database with
         providerAccounts := database.providerAccounts.modify id fun row =>
           { row with accountJson := accountJson } }, ())
  | .deleteAccount id =>
      -- the history goes with its account: ON DELETE CASCADE
      if database.providerAccounts.contains id then
        ({ database with
           providerAccounts := database.providerAccounts.erase id
           credentialHistory := database.credentialHistory.erase id }, true)
      else (database, false)
  | .insertAudit row => ({ database with auditEvents := database.auditEvents ++ [row] }, .ok ())

/-! What each writing section leaves under an id. A section that only
reads leaves the tables as they are, by definition. -/

variable (database : Database) (id id' : String)

@[simp] theorem accounts_upsert (row : AccountRow) :
    (database.exec (.upsert id row)).1.providerAccounts[id']? =
      if id = id' then some row else database.providerAccounts[id']? := by
  simp [exec, Std.ExtTreeMap.getElem?_insert]

@[simp] theorem history_upsert (row : AccountRow) :
    (database.exec (.upsert id row)).1.credentialHistory[id']? =
      if id = id' then none else database.credentialHistory[id']? := by
  simp [exec, Std.ExtTreeMap.getElem?_erase]

@[simp] theorem accounts_rotate (row : AccountRow) (expiresAt : String) :
    (database.exec (.rotate id row expiresAt)).1.providerAccounts[id']? =
      if id = id' then some row else database.providerAccounts[id']? := by
  simp [exec, Std.ExtTreeMap.getElem?_insert]

theorem history_rotate (row : AccountRow) (expiresAt : String) :
    (database.exec (.rotate id row expiresAt)).1.credentialHistory[id']? =
      if id = id' then
        (database.providerAccounts[id]?.map fun previous =>
          ⟨previous.credentialCiphertext, expiresAt⟩).or database.credentialHistory[id]?
      else database.credentialHistory[id']? := by
  simp only [exec, rotatedHistory]
  cases hrow : database.providerAccounts[id]? with
  | none =>
      by_cases h : id = id'
      · simp [h]
      · simp [h]
  | some previous => simp [Std.ExtTreeMap.getElem?_insert]

@[simp] theorem accounts_updateAccountJson (accountJson : Serde.AccountJson) :
    (database.exec (.updateAccountJson id accountJson)).1.providerAccounts[id']? =
      if id = id' then database.providerAccounts[id]?.map fun row =>
        { row with accountJson := accountJson }
      else database.providerAccounts[id']? := by
  simp [exec, Std.ExtTreeMap.getElem?_modify]

@[simp] theorem accounts_deleteAccount :
    (database.exec (.deleteAccount id)).1.providerAccounts[id']? =
      if id = id' then none else database.providerAccounts[id']? := by
  simp only [exec]
  split
  · simp [Std.ExtTreeMap.getElem?_erase]
  · rename_i habsent
    by_cases h : id = id'
    · subst h
      simpa using habsent
    · simp [h]

/-- Deleting an account that is not there leaves its history too. -/
theorem history_deleteAccount :
    (database.exec (.deleteAccount id)).1.credentialHistory[id']? =
      if id = id' ∧ id ∈ database.providerAccounts then none
      else database.credentialHistory[id']? := by
  simp only [exec]
  split
  · rename_i hpresent
    simp [Std.ExtTreeMap.getElem?_erase, Std.ExtTreeMap.contains_iff_mem.mp hpresent]
  · rename_i habsent
    have hnot : id ∉ database.providerAccounts := by simpa using habsent
    simp [hnot]

/-- A replacement that is refused leaves the tables as they are. -/
theorem exec_replace_of_ne {expected ciphertext expiresAt : String}
    (h : ∀ row, database.providerAccounts[id]? = some row →
      row.credentialCiphertext ≠ expected) :
    database.exec (.replace id expected ciphertext expiresAt) = (database, false) := by
  have hnone : database.providerAccounts[id]?.filter (·.credentialCiphertext = expected) =
      none := by
    rw [Option.filter_eq_none_iff]
    intro row hrow
    simpa using h row hrow
  simp only [exec, hnone]

/-- A replacement that is made changes the account's credential and its
history, and nothing else. -/
theorem exec_replace_of_eq {expected ciphertext expiresAt : String} {row : AccountRow}
    (hrow : database.providerAccounts[id]? = some row)
    (h : row.credentialCiphertext = expected) :
    database.exec (.replace id expected ciphertext expiresAt) =
      ({ database with
         providerAccounts := database.providerAccounts.insert id
           { row with credentialCiphertext := ciphertext }
         credentialHistory := database.credentialHistory.insert id ⟨expected, expiresAt⟩ },
       true) := by
  have hsome : database.providerAccounts[id]?.filter (·.credentialCiphertext = expected) =
      some row := by
    rw [hrow, Option.filter_some, if_pos (by simpa using h)]
  simp only [exec, hsome]

end Database

end Storage

end Llmap
