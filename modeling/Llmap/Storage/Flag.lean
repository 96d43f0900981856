import Llmap.Storage.Model
import Llmap.Common.Serial
import Llmap.Plain
/-!
# Pausing and resuming beside other writes

Every operation of the store is one section, but for
`set_account_enabled`: it reads an account's text under one lock and
writes all of it back, with the flag changed, under another. What was
written in between to the same text is lost, while the credential and the
endpoints, which are other columns, stay; so the account can come to have
the kind of one write and the credential of another
(`setEnabled_reverts_upsert`).

The operations are serialisable as long as each write-back finds the text
it was made from, but for the flag (`serialisable_of_writesBack`). The
condition is exact, for the order in which the operations return.
-/

namespace Llmap

namespace Storage

open Providers Secrets

section Flag

variable [Serde] [Sealing] [Urls] [Chrono] {n : ℕ}

/-- Operations that share a store, and the order they return in. -/
abbrev Operations (n : ℕ) :=
  Ordered n Database Section Section.Resp (Except StorageError Bool)

/-- What operations and their database come to under a schedule. -/
def interleaved (box : SecretBox) (ops : Fin n → Op) (database : Database)
    (schedule : List (Fin n)) : Operations n :=
  Run.final (Ordered.turn Database.exec) (.start database fun i => (ops i).prog box) schedule

/-- The database after operations one after another. -/
def sequential (box : SecretBox) (ops : Fin n → Op) (database : Database)
    (order : List (Fin n)) : Database :=
  Run.final (fun database i => ((ops i).apply box database).1) database order

/-- **A write-back in time**: where it is about to be made, the account is
gone, or its text says the same but for the flag. -/
def WritesBack (operations : Operations n) (i : Fin n) : Prop :=
  ∀ id accountJson, (operations.pool.procs i).next? = some (.updateAccountJson id accountJson) →
    ∀ row, operations.pool.shared.providerAccounts[id]? = some row →
      ∃ account enabled, Serde.accountFromStr row.accountJson = .ok account ∧
        accountJson = Serde.accountToString { account with enabled := enabled }

/-- Where an operation has got to: it has made no call, or it is pausing
or resuming an account it has read, or it has returned. -/
inductive Stage (box : SecretBox) (op : Op) :
    Prog Section Section.Resp (Except StorageError Bool) → Prop
  | begun : Stage box op (op.prog box)
  | read (id : String) (enabled : Bool) (account : ProviderAccount)
      (hop : op = .setEnabled id enabled) :
      Stage box op (.call (.updateAccountJson id
        (Serde.accountToString { account with enabled := enabled })) fun _ => .ret (.ok true))
  | returned (answer : Except StorageError Bool) : Stage box op (.ret answer)

variable {box : SecretBox} {database : Database} {ops : Fin n → Op}

/-! ## The write-back -/

omit [Sealing] [Urls] [Chrono] in
/-- Writing back changes nothing where the text is in place already, or
the account is gone. -/
theorem update_eq_self {id : String} {accountJson : Serde.AccountJson}
    (h : ∀ row, database.providerAccounts[id]? = some row → row.accountJson = accountJson) :
    (database.exec (.updateAccountJson id accountJson)).1 = database := by
  have haccounts : (database.exec (.updateAccountJson id accountJson)).1.providerAccounts =
      database.providerAccounts := by
    refine Std.ExtTreeMap.ext_getElem? fun id' => ?_
    rw [Database.accounts_updateAccountJson]
    split
    · rename_i hid
      subst hid
      cases hrow : database.providerAccounts[id]? with
      | none => rfl
      | some row => rw [Option.map_some, ← h row hrow]
    · rfl
  exact congrArg (fun accounts => { database with providerAccounts := accounts }) haccounts

omit [Sealing] [Urls] [Chrono] in
/-- Two texts written to an account that is there leave the same database
only if they are the same. -/
theorem update_injective {id : String} {row : AccountRow}
    {accountJson accountJson' : Serde.AccountJson}
    (hrow : database.providerAccounts[id]? = some row)
    (h : (database.exec (.updateAccountJson id accountJson)).1 =
      (database.exec (.updateAccountJson id accountJson')).1) : accountJson = accountJson' := by
  have hid := congrArg (fun database : Database => database.providerAccounts[id]?) h
  simp only [Database.accounts_updateAccountJson, hrow, if_true, Option.map_some,
    Option.some.injEq, AccountRow.mk.injEq] at hid
  exact hid.1

/-- **The write-back alone.** It does what pausing or resuming the account
there and then would do, just in case it is in time. -/
theorem update_eq_apply_iff [LawfulSerde] {id : String} {enabled : Bool}
    {read : ProviderAccount} :
    (database.exec (.updateAccountJson id
      (Serde.accountToString { read with enabled := enabled }))).1 =
        ((Op.setEnabled id enabled).apply box database).1 ↔
      ∀ row, database.providerAccounts[id]? = some row →
        ∃ account enabled', Serde.accountFromStr row.accountJson = .ok account ∧
          Serde.accountToString { read with enabled := enabled } =
            Serde.accountToString { account with enabled := enabled' } := by
  rw [apply_setEnabled]
  cases hrow : database.providerAccounts[id]? with
  | none =>
      refine iff_of_true (update_eq_self fun row h => ?_) (by simp)
      rw [hrow] at h
      cases h
  | some row =>
      simp only [Option.some.injEq, forall_eq']
      cases hjson : Serde.accountFromStr row.accountJson with
      | error error =>
          -- the text there cannot be read, and so is none that was written
          refine iff_of_false (fun heq => ?_) (by simp)
          have hself : (database.exec (.updateAccountJson id row.accountJson)).1 = database :=
            update_eq_self fun row' h => by rw [Option.some.inj (hrow.symm.trans h)]
          have hsame := update_injective hrow (heq.trans hself.symm)
          rw [← hsame, LawfulSerde.accountFromStr_toString] at hjson
          cases hjson
      | ok account =>
          constructor
          · intro heq
            exact ⟨account, enabled, rfl, update_injective hrow heq⟩
          · rintro ⟨account', enabled', hok, heq⟩
            obtain rfl : account = account' := Except.ok.inj hok
            have hdecoded := congrArg Serde.accountFromStr heq
            rw [LawfulSerde.accountFromStr_toString,
              LawfulSerde.accountFromStr_toString] at hdecoded
            obtain rfl : enabled = enabled' :=
              congrArg ProviderAccount.enabled (Except.ok.inj hdecoded)
            rw [heq]

/-! ## Stages -/

/-- Every operation makes no call, or one, or it pauses or resumes an
account. -/
theorem prog_cases (box : SecretBox) (op : Op) :
    (∃ answer, op.prog box = .ret answer) ∨
      (∃ (s : Section) (f : s.Resp → Except StorageError Bool),
        (∀ id accountJson, s ≠ .updateAccountJson id accountJson) ∧
        op.prog box = .call s fun answer => .ret (f answer)) ∨
      ∃ id enabled, op = .setEnabled id enabled := by
  cases op with
  | upsert nonces account credential =>
      simp only [Op.prog, Store.done, upsertAccount]
      cases sealedRow box nonces account credential with
      | error error => exact .inl ⟨_, rfl⟩
      | ok row => exact .inr (.inl ⟨_, _, by simp, rfl⟩)
  | rotate nonces account credential previousValidUntil =>
      simp only [Op.prog, Store.done, rotateAccountCredential]
      cases sealedRow box nonces account credential with
      | error error => exact .inl ⟨_, rfl⟩
      | ok row => exact .inr (.inl ⟨_, _, by simp, rfl⟩)
  | replace nonce candidate refreshed previousValidUntil =>
      simp only [Op.prog, replaceOauthIfCurrent]
      cases box.encrypt nonce (Serde.envelopeToString refreshed)
          (credentialData candidate.account.id) with
      | error error => exact .inl ⟨_, rfl⟩
      | ok ciphertext => exact .inr (.inl ⟨_, _, by simp, rfl⟩)
  | setEnabled id enabled => exact .inr (.inr ⟨id, enabled, rfl⟩)
  | delete id => exact .inr (.inl ⟨_, _, by simp, rfl⟩)

/-- **A turn of `set_account_enabled`'s first lock**: the account is read,
and the operation has failed without effect or is about to write back. -/
theorem setEnabled_read (box : SecretBox) (id : String) (enabled : Bool) :
    ∃ k, (Op.setEnabled id enabled).prog box = .call (.selectAccount id) k ∧
      ∀ database : Database,
        (∃ error, k (database.exec (.selectAccount id)).2 = .ret (.error error) ∧
          ((Op.setEnabled id enabled).apply box database).1 = database) ∨
        ∃ account : ProviderAccount, k (database.exec (.selectAccount id)).2 =
          .call (.updateAccountJson id (Serde.accountToString { account with enabled := enabled }))
            fun _ => .ret (.ok true) := by
  refine ⟨_, rfl, fun database => ?_⟩
  rw [apply_setEnabled]
  simp only [Database.exec]
  cases hrow : database.providerAccounts[id]? with
  | none => exact .inl ⟨_, rfl, rfl⟩
  | some row =>
      dsimp only
      cases hjson : Serde.accountFromStr row.accountJson with
      | error error => exact .inl ⟨_, rfl, rfl⟩
      | ok account => exact .inr ⟨account, rfl⟩

/-- An operation that is answered goes to its next stage. -/
theorem Stage.next {op : Op} {s : Section}
    {k : s.Resp → Prog Section Section.Resp (Except StorageError Bool)}
    (h : Stage box op (.call s k)) (database : Database) :
    Stage box op (k (database.exec s).2) := by
  generalize hp : Prog.call s k = p at h
  cases h with
  | begun =>
      rcases prog_cases box op with ⟨answer, hprog⟩ | ⟨s', f, -, hprog⟩ | ⟨id, enabled, rfl⟩
      · cases hp.trans hprog
      · cases hp.trans hprog
        exact .returned _
      · obtain ⟨k', hprog, hread⟩ := setEnabled_read box id enabled
        cases hp.trans hprog
        rcases hread database with ⟨error, hfailed, -⟩ | ⟨account, hwriting⟩
        · exact hfailed ▸ .returned _
        · exact hwriting ▸ .read id enabled account rfl
  | read id enabled account hop =>
      cases hp
      exact .returned _
  | returned answer => cases hp

/-- **A turn of an operation is as it should be just in case a write-back
is in time.** -/
theorem serially_iff_writesBack [LawfulSerde] {operations : Operations n} {i : Fin n}
    (hstage : Stage box (ops i) (operations.pool.procs i)) :
    Ordered.Serially Database.exec (fun i => (ops i).prog box) operations i ↔
      WritesBack operations i := by
  generalize hp : operations.pool.procs i = p at hstage
  cases hstage with
  | begun =>
      rcases prog_cases box (ops i) with ⟨answer, hprog⟩ | ⟨s, f, hs, hprog⟩ | ⟨id, enabled, hop⟩
      · rw [hprog] at hp
        exact iff_of_true (Ordered.serially_of_ret hp) (by simp [WritesBack, hp])
      · rw [hprog] at hp
        refine iff_of_true ((Ordered.serially_iff_of_call hp).mpr ?_) (by simp [WritesBack, hp, hs])
        simp [hprog]
      · obtain ⟨k, hprog, hread⟩ := setEnabled_read box id enabled
        rw [hop, hprog] at hp
        refine iff_of_true ((Ordered.serially_iff_of_call hp).mpr ?_) (by simp [WritesBack, hp])
        rcases hread operations.pool.shared with ⟨error, hfailed, halone⟩ | ⟨account, hwriting⟩
        · rw [hfailed, hop]
          exact halone.symm
        · rw [hwriting]
          rfl
  | read id enabled account hop =>
      refine (Ordered.serially_iff_of_call hp).trans ?_
      simp only [hop, Prog.returned_ret, if_true]
      refine update_eq_apply_iff.trans ⟨fun hrow id' accountJson hnext => ?_, fun hwrites => ?_⟩
      · rw [hp] at hnext
        cases hnext
        exact hrow
      · exact hwrites id _ (by rw [hp]; rfl)
  | returned answer => exact iff_of_true (Ordered.serially_of_ret hp) (by simp [WritesBack, hp])

/-! ## Runs -/

/-- Every operation is at one of its stages, throughout a run. -/
theorem stage_interleaved (box : SecretBox) (ops : Fin n → Op) (database : Database)
    (schedule : List (Fin n)) (i : Fin n) :
    Stage box (ops i) ((interleaved box ops database schedule).pool.procs i) := by
  have hall : ∀ i, Stage box (ops i) ((interleaved box ops database schedule).pool.procs i) := by
    refine Run.final_induct_of_step
      (I := fun operations : Operations n => ∀ i, Stage box (ops i) (operations.pool.procs i)) ?_ ?_
    · intro operations j hstage i
      cases hproc : operations.pool.procs j with
      | ret answer =>
          rw [Ordered.turn_of_ret hproc]
          exact hstage i
      | call s k =>
          rw [Ordered.turn_of_call hproc]
          refine (Function.forall_update_iff _ fun i p => Stage box (ops i) p).mpr
            ⟨Stage.next (hproc ▸ hstage j) _, fun i _ => hstage i⟩ i
    · intro i
      exact .begun
  exact hall i

/-- The two conditions on a run are one. -/
theorem along_serially_iff [LawfulSerde] (box : SecretBox) (ops : Fin n → Op)
    (database : Database) (schedule : List (Fin n)) :
    Run.Along (Ordered.turn Database.exec)
        (Ordered.Serially Database.exec fun i => (ops i).prog box)
        (.start database fun i => (ops i).prog box) schedule ↔
      Run.Along (Ordered.turn Database.exec) WritesBack
        (.start database fun i => (ops i).prog box) schedule := by
  induction schedule using List.reverseRecOn with
  | nil => exact Iff.rfl
  | append_singleton schedule i ih =>
      have hturn := serially_iff_writesBack (stage_interleaved box ops database schedule i)
      simp only [Run.along_append, Run.Along, and_true, ih]
      exact and_congr_right fun _ => hturn

/-- **When pausing and resuming is serialisable.** Throughout an
interleaving the database is the one of the operations that have returned,
run one after another in the order they returned in, just in case every
write-back is in time; and so, when they are in time and all have
returned, it is the one of all operations in some order. -/
theorem serialisable_of_writesBack [LawfulSerde] (box : SecretBox) (ops : Fin n → Op)
    (database : Database) (schedule : List (Fin n)) :
    ((∀ before, before <+: schedule →
      (interleaved box ops database before).pool.shared =
        sequential box ops database (interleaved box ops database before).order) ↔
      Run.Along (Ordered.turn Database.exec) WritesBack
        (.start database fun i => (ops i).prog box) schedule) ∧
    (Run.Along (Ordered.turn Database.exec) WritesBack
        (.start database fun i => (ops i).prog box) schedule →
      (∀ i, ((interleaved box ops database schedule).pool.procs i).returned = true) →
        ∃ order : List (Fin n), order.Perm (List.finRange n) ∧
          (interleaved box ops database schedule).pool.shared =
            sequential box ops database order) := by
  have hexact := Ordered.serial_iff.trans (along_serially_iff box ops database schedule)
  refine ⟨hexact, fun hintime hall => ?_⟩
  exact ⟨_, Ordered.order_perm hall, hexact.mpr hintime schedule (List.prefix_refl _)⟩

end Flag

section Example

open scoped Plain

/-- A database of one account, with a key. -/
def keyDatabase : Database :=
  ((Op.upsert ⟨Vector.replicate 24 0, Vector.replicate 24 1⟩
    (Plain.account "a" .anthropicApiKey true) "key").apply Plain.box .empty).1

/-- The account is paused by one administrator and resumed by another. -/
def flagOps : Fin 2 → Op
  | 0 => .setEnabled "a" false
  | 1 => .setEnabled "a" true

/-- Both read the account before either writes it back, and one after the
other comes to the same. -/
theorem serialisable_flags : ∃ order : List (Fin 2), order.Perm (List.finRange 2) ∧
    (interleaved Plain.box flagOps keyDatabase [0, 1, 0, 1]).pool.shared =
      sequential Plain.box flagOps keyDatabase order := by
  have hturn : ∀ (before : List (Fin 2)) (i : Fin 2),
      (((interleaved Plain.box flagOps keyDatabase before).pool.procs i).next?.all fun
        | .updateAccountJson id accountJson =>
            (interleaved Plain.box flagOps keyDatabase before).pool.shared.providerAccounts[id]?.all
              fun row => accountJson = { row.accountJson with enabled := accountJson.enabled }
        | _ => true) = true →
      WritesBack (interleaved Plain.box flagOps keyDatabase before) i := by
    intro before i hcheck id accountJson hnext row hrow
    simp only [hnext, hrow, Option.all_some] at hcheck
    exact ⟨row.accountJson, accountJson.enabled, rfl, of_decide_eq_true hcheck⟩
  refine (serialisable_of_writesBack Plain.box flagOps keyDatabase [0, 1, 0, 1]).2 ?_ ?_
  · exact ⟨hturn [] 0 (by decide +kernel), hturn [0] 1 (by decide +kernel),
      hturn [0, 1] 0 (by decide +kernel), hturn [0, 1, 0] 1 (by decide +kernel), trivial⟩
  · decide +kernel

/-- The account is paused by one administrator, and created anew by
another, as an account that signs in with OAuth. -/
def revertingOps : Fin 2 → Op
  | 0 => .setEnabled "a" false
  | 1 => .upsert ⟨Vector.replicate 24 2, Vector.replicate 24 3⟩
      (Plain.account "a" .claudeOauth true) (Plain.tokenText "token")

/-- **A write that is lost.** Both operations succeed; the account has the
kind it had before and the credential it was created anew with, which no
order of the two gives. -/
theorem setEnabled_reverts_upsert :
    (∀ i, ((interleaved Plain.box revertingOps keyDatabase [0, 1, 0]).pool.procs i).result? =
      some (.ok true)) ∧
    (∀ order : List (Fin 2), order.Perm (List.finRange 2) →
      (interleaved Plain.box revertingOps keyDatabase
          [0, 1, 0]).pool.shared.providerAccounts["a"]? ≠
        (sequential Plain.box revertingOps keyDatabase order).providerAccounts["a"]?) ∧
    ((loadAccount Plain.box "a").run Database.exec
      (interleaved Plain.box revertingOps keyDatabase [0, 1, 0]).pool.shared).2 =
        .ok (Plain.account "a" .anthropicApiKey false, (Plain.tokenText "token")) := by
  refine ⟨by decide +kernel, fun order horder => ?_, by decide +kernel⟩
  have hmem : order ∈ (List.finRange 2).permutations' := List.mem_permutations'.mpr horder
  have hall : ∀ order ∈ (List.finRange 2).permutations',
      (interleaved Plain.box revertingOps keyDatabase
          [0, 1, 0]).pool.shared.providerAccounts["a"]? ≠
        (sequential Plain.box revertingOps keyDatabase order).providerAccounts["a"]? := by
    decide +kernel
  exact hall order hmem

end Example

end Storage

end Llmap
