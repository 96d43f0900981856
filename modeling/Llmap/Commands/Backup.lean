import Llmap.Common.Codec
import Llmap.Common.Files
import Llmap.Service.Lives
/-!
# Backups

`backup create` opens the database and copies it into a new file, while the
service may be running and other commands too. To open the database is to seal
the endpoints in it that are not sealed yet (`openStore`). The new file is
created for its owner only and where there was none; then `sqlite3_backup`
fills it with the pages that the database file has by then, and it is checked;
and if any of that fails it is removed again (`backupTo`).

The service and the commands share a disk (`Machine.exec`), and whatever either
of them commits is in the database file. A command keeps to the file it holds
beside (`backupTo_byPast`), and seals only rows that were to be sealed
(`encryptLegacyEgressMetadata_obeys`). So at every moment the tables are ones
that the service can be started on (`Standing`), and a copy of them is, too
(`backups_restore_service`).
-/

namespace Llmap

namespace Storage

open Files Providers Secrets

/-! ## Copying -/

/-- The errors of `StorageError` that a backup comes to. -/
inductive BackupError where
  | storage (error : StorageError)
  | database (error : IoError)
  | destinationExists
  | filesystem (error : IoError)
  | invalidBackup
deriving DecidableEq

/-- A part of a backup that is about files. -/
abbrev BackupPart (α : Type) := Prog (Files.Op String) Files.Op.Resp α

/-- What `backup_to` does under the lock of the connection: the file is opened,
filled with the pages of the database, and checked. Pages that are written to
while they are copied are copied again, so they are as they are read last. -/
def copied (databasePath destination : String) : BackupPart (Except BackupError Unit) :=
  .call (.ask "sqlite3_open_v2") fun
    | .error error => .ret (.error (.database error))
    | .ok _ => .call (.read databasePath) fun
        | .error error => .ret (.error (.database error))
        | .ok pages => .call (.replaceContent destination pages) fun
            | .error error => .ret (.error (.database error))
            | .ok () => .call (.ask "PRAGMA integrity_check") fun
                | .error error => .ret (.error (.database error))
                | .ok integrity => .ret (if integrity ≠ "ok" then .error .invalidBackup else .ok ())

/-- `SqliteStore::backup_to`. -/
def backupTo (databasePath destination : String) : BackupPart (Except BackupError Unit) :=
  .call (.createNew destination 0o600) fun
    | .error .alreadyExists => .ret (.error .destinationExists)
    | .error error => .ret (.error (.filesystem error))
    | .ok _ => copied databasePath destination >>= fun
        | .error error => .call (.removeFile destination) fun _ => .ret (.error error)
        | .ok () => .ret (.ok ())

/-- `sqlite`: the pages of a database, and the database that a file of pages
is opened as. -/
class Sqlite [Serde] where
  pages : Database → Bytes
  opened : Bytes → Option Database

/-- What is written can be opened. -/
class LawfulSqlite [Serde] [Sqlite] : Prop where
  opened_pages : ∀ database : Database, Sqlite.opened (Sqlite.pages database) = some database

/-- What a backup that succeeds holds: its file, with the pages it has read. -/
def Copied (databasePath destination : String) (past : List ((o : Files.Op String) × o.Resp)) :
    Prop :=
  ∃ file pages, holding past = [⟨destination, file, 0o600, some pages⟩] ∧
    ⟨.read databasePath, .ok pages⟩ ∈ past

/-- Under the lock, a backup keeps to the file it holds. -/
theorem copied_byPast (databasePath destination : String) {file : ℕ}
    {past : List ((o : Files.Op String) × o.Resp)}
    (hpast : holding past = [⟨destination, file, 0o600, some []⟩]) :
    (copied databasePath destination).ByPast (fun past o => Permits (holding past) o)
      (fun past result => (∃ content, holding past = [⟨destination, file, 0o600, content⟩]) ∧
        (result = .ok () → Copied databasePath destination past)) past := by
  refine ⟨trivial, ?_⟩
  rintro (error | text)
  · exact ⟨⟨some [], by rw [holding_append_singleton]; exact hpast⟩, nofun⟩
  refine ⟨trivial, ?_⟩
  rintro (error | pages)
  · exact ⟨⟨some [], by rw [holding_append_singleton, holding_append_singleton]; exact hpast⟩,
      nofun⟩
  have hread : holding (past ++ [⟨.ask "sqlite3_open_v2", .ok text⟩] ++
      [⟨.read databasePath, .ok pages⟩]) = [⟨destination, file, 0o600, some []⟩] := by
    rw [holding_append_singleton, holding_append_singleton]
    exact hpast
  refine ⟨⟨⟨destination, file, 0o600, some []⟩, ?_, rfl⟩, ?_⟩
  · rw [hread]
    exact List.mem_singleton_self _
  have hfilled : ∀ replaced, holding (past ++ [⟨.ask "sqlite3_open_v2", .ok text⟩] ++
      [⟨.read databasePath, .ok pages⟩] ++ [⟨.replaceContent destination pages, replaced⟩]) =
      [⟨destination, file, 0o600, if replaced = .ok () then some pages else none⟩] := by
    intro replaced
    rw [holding_append_singleton, hread]
    simp [hold]
  rintro (error | ⟨⟩)
  · exact ⟨⟨none, hfilled _⟩, nofun⟩
  · refine ⟨trivial, fun integrity => ?_⟩
    have hchecked : holding (past ++ [⟨.ask "sqlite3_open_v2", .ok text⟩] ++
        [⟨.read databasePath, .ok pages⟩] ++ [⟨.replaceContent destination pages, .ok ()⟩] ++
        [⟨.ask "PRAGMA integrity_check", integrity⟩]) =
        [⟨destination, file, 0o600, some pages⟩] := by
      rw [holding_append_singleton]
      exact hfilled (.ok ())
    cases integrity with
    | error error => exact ⟨⟨some pages, hchecked⟩, nofun⟩
    | ok integrity => exact ⟨⟨some pages, hchecked⟩, fun _ => ⟨file, pages, hchecked, by simp⟩⟩

/-- **A backup keeps to the file it holds**, and one that succeeds holds the
pages it has read. -/
theorem backupTo_byPast (databasePath destination : String)
    {past : List ((o : Files.Op String) × o.Resp)} (hpast : holding past = []) :
    (backupTo databasePath destination).ByPast (fun past o => Permits (holding past) o)
      (fun past result => result = .ok () → Copied databasePath destination past) past := by
  refine ⟨trivial, ?_⟩
  rintro ((_ | _ | _) | file)
  · exact nofun
  · exact nofun
  · exact nofun
  · have hcreated : holding (past ++ [⟨.createNew destination 0o600, .ok file⟩]) =
        [⟨destination, file, 0o600, some []⟩] := by
      rw [holding_append_singleton, hpast]
      rfl
    refine Prog.ByPast.bind (copied_byPast databasePath destination hcreated) ?_
    rintro later (error | ⟨⟩) ⟨⟨content, hheld⟩, hdone⟩
    · exact ⟨⟨_, hheld ▸ List.mem_singleton_self _, rfl⟩, fun _ => nofun⟩
    · exact fun _ => hdone rfl

/-! ## Sealing beside others -/

section Sealing

variable [Serde] [Sealing] [Urls]

/-- What a process that seals may write: what a row that was to be sealed comes
to. -/
def LegacySection.Legal (box : SecretBox) (database : Database) : LegacySection → Prop
  | .selectLegacy => True
  | .updateLegacy id accountJson egress => ∃ row account nonce,
      database.providerAccounts[id]? = some row ∧ row.isLegacy = true ∧
      Serde.accountFromStr row.accountJson = .ok account ∧
      accountStorageValues box nonce account = .ok (accountJson, egress)

omit [Sealing] [Urls] in
/-- What it reads: rows that were to be sealed. -/
def LegacySection.Answered (database : Database) : (s : LegacySection) → s.Resp → Prop
  | .selectLegacy, rows => ∀ entry ∈ rows, WasLegacy database entry
  | .updateLegacy .., _ => True

theorem encryptRows_obeys {box : SecretBox} {database : Database} (nonces : ℕ → Nonce)
    (migrated : ℕ) {rows : List (String × Serde.AccountJson)}
    (hwas : ∀ entry ∈ rows, WasLegacy database entry) :
    (encryptRows box nonces migrated rows).Obeys (LegacySection.Legal box database)
      (LegacySection.Answered database) (fun _ => True) := by
  induction rows with
  | nil => exact trivial
  | cons entry rows ih =>
      obtain ⟨id, accountJson⟩ := entry
      rcases encryptRows_cons nonces migrated id accountJson rows with
        ⟨error, hfails⟩ | ⟨account, redactedJson, egress, haccount, hvalues, hcall⟩
      · rw [hfails]
        exact trivial
      · rw [hcall]
        obtain ⟨row, hrow, hlegacy, rfl⟩ := hwas _ List.mem_cons_self
        exact ⟨⟨row, account, _, hrow, hlegacy, haccount, hvalues⟩,
          fun _ _ => ih fun entry hmem => hwas entry (List.mem_cons_of_mem _ hmem)⟩

/-- **A process that seals** writes what it may, of the rows it has read. -/
theorem encryptLegacyEgressMetadata_obeys (box : SecretBox) (database : Database)
    (run : LegacyRun) :
    (encryptLegacyEgressMetadata box run).Obeys (LegacySection.Legal box database)
      (LegacySection.Answered database) (fun _ => True) :=
  ⟨trivial, fun _ hrows => encryptRows_obeys run.nonces _ fun entry hmem =>
    hrows entry ((run.scan_perm _).mem_iff.mp hmem)⟩

/-- **What the tables may be** while any number of processes run: readable and
sealed; or, where nobody serves them, on the way there from what they were. -/
def Serviceable (ι : Type) (box : SecretBox) (database current : Database) : Prop :=
  Admin.Readable box current ∧ current.AllSealed ∨ IsEmpty ι ∧ Advanced box database current

variable {ι : Type} {box : SecretBox} {database current : Database}

theorem Serviceable.lasting (h : Serviceable ι box database current)
    (hlasting : Lasting box database) : Lasting box current := by
  rcases h with ⟨hreadable, hsealed⟩ | ⟨-, hadvanced⟩
  · exact ⟨hreadable, hsealed.legacyReadable⟩
  · exact hlasting.advanced hadvanced

/-- Sealing keeps the tables so. -/
theorem Serviceable.execLegacy [LawfulSerde] [LawfulSealing]
    (h : Serviceable ι box database current) {s : LegacySection} (hs : s.Legal box database) :
    Serviceable ι box database (current.execLegacy s).1 ∧
      s.Answered database (current.execLegacy s).2 := by
  rcases h with ⟨hreadable, hsealed⟩ | ⟨hempty, hadvanced⟩
  · -- there is nothing to seal
    rw [execLegacy_of_all_sealed s hsealed]
    refine ⟨.inl ⟨hreadable, hsealed⟩, ?_⟩
    cases s with
    | selectLegacy =>
        intro entry hmem
        obtain ⟨row, hrow, hlegacy, -⟩ := mem_selectLegacy.mp hmem
        rw [hsealed entry.1 row hrow] at hlegacy
        cases hlegacy
    | updateLegacy => exact trivial
  · cases s with
    | selectLegacy =>
        refine ⟨.inr ⟨hempty, hadvanced⟩, fun entry hmem => ?_⟩
        obtain ⟨row, hrow, hlegacy, hjson⟩ := mem_selectLegacy.mp hmem
        exact ⟨row, hadvanced.original_of_isLegacy hrow hlegacy, hlegacy, hjson⟩
    | updateLegacy id accountJson egress =>
        obtain ⟨row, account, nonce, hrow, hlegacy, haccount, hvalues⟩ := hs
        exact ⟨.inr ⟨hempty, hadvanced.update hrow hlegacy haccount hvalues⟩, trivial⟩

end Sealing

end Storage

namespace Service

open Files Providers Secrets Storage

/-! ## A host, and what runs on it -/

section Host

variable [Serde]

/-- What the processes of a host do. -/
inductive HostOp where
  /-- A step of a task of the service. -/
  | task (o : Op)
  /-- `Connection::open`, of the database file. -/
  | connect
  /-- A section of `encrypt_legacy_egress_metadata`. -/
  | legacy (s : LegacySection)
  /-- An operation on a file. -/
  | file (o : Files.Op String)

/-- What they are answered. -/
abbrev HostOp.Resp : HostOp → Type
  | .task o => o.Resp
  | .connect => Except IoError Unit
  | .legacy s => s.Resp
  | .file o => o.Resp

/-- A part of a command. -/
abbrev HostPart (α : Type) := Prog HostOp HostOp.Resp α

/-- What a command `backup create` goes by: where the copy goes, the key, and
what is not up to the code when the endpoints are sealed. -/
structure BackupCreate where
  output : String
  box : SecretBox
  run : LegacyRun

/-- What the processes share: the service, and the disk. -/
structure Host (ω θ : Type) where
  state : State ω
  disk : Disk String
  around : θ

/-- What a host is set up with. The database file is the one at `databasePath`
with those that SQLite keeps beside it, its log and its index of the log. -/
structure Machine (ω θ : Type) where
  world : World ω
  setup : Setup
  outside : Outside θ
  databasePath : String

variable [Sealing] [Urls]

/-- `SqliteStore::open`, of the database file: the connection, the schema, and
the endpoints that are not sealed yet. A command that SQLite fails in a section
goes no further, as one that is stopped there. -/
def openStore (box : SecretBox) (run : LegacyRun) : HostPart (Except BackupError Unit) :=
  .call .connect fun
    | .error error => .ret (.error (.database error))
    | .ok () => .call (.file (.ask "CREATE TABLE IF NOT EXISTS")) fun
        | .error error => .ret (.error (.database error))
        | .ok _ =>
            (encryptLegacyEgressMetadata box run).lift .legacy (fun _ r => r) >>= fun
              | .error error => .ret (.error (.storage error))
              | .ok migrated =>
                  if migrated = 0 then .ret (.ok ())
                  else .call (.file (.ask "VACUUM")) fun
                    | .error error => .ret (.error (.database error))
                    | .ok _ => .ret (.ok ())

/-- `backup_database`, once the configuration and the key are read. -/
def backupDatabase (databasePath : String) (command : BackupCreate) :
    HostPart (Except BackupError Unit) :=
  openStore command.box command.run >>= fun
    | .error error => .ret (.error error)
    | .ok () => (backupTo databasePath command.output).lift .file fun _ r => r

variable [Sqlite] {ω θ : Type}

omit [Sealing] [Urls] in
/-- What is committed is in the database file. -/
def Host.committed (host : Host ω θ) (databasePath : String) (state : State ω) : Host ω θ :=
  { host with
    state := state
    disk := host.disk.rewrite databasePath (Sqlite.pages state.database) }

variable [Chrono] [Digests] [Argon2]

/-- Carries a step out. -/
def Machine.exec (machine : Machine ω θ) (host : Host ω θ) : (o : HostOp) → Host ω θ × o.Resp
  | .task o =>
      let next := machine.world.exec machine.setup host.state o
      (host.committed machine.databasePath next.1, next.2)
  | .connect =>
      let fault := machine.outside.fault host.around
      let host := { host with around := fault.1 }
      match fault.2, host.disk.dir machine.databasePath with
      | some fault, _ => (host, .error (.other fault.text))
      | none, some _ => (host, .ok ())
      | none, none =>
          -- a database that is not there is created, with tables that are empty
          let host := { host with disk := host.disk.create machine.databasePath 0o644 }
          (host.committed machine.databasePath { host.state with database := .empty }, .ok ())
  | .legacy s =>
      let next := host.state.database.execLegacy s
      (host.committed machine.databasePath { host.state with database := next.1 }, next.2)
  | .file o =>
      let next := machine.outside.exec (host.disk, host.around) o
      ({ host with disk := next.1.1, around := next.1.2 }, next.2)

variable [Codecs] {ι κ : Type}

/-- The tasks of the service and the commands, each at its beginning. A task
comes to nothing here, and a command to its result. -/
def hosted (machine : Machine ω θ) (host : Host ω θ) (tasks : ι → Task)
    (commands : κ → BackupCreate) :
    Pool (ι ⊕ κ) (Host ω θ) HostOp HostOp.Resp (Option (Except BackupError Unit)) where
  shared := host
  procs
    | .inl i => (fun _ => none) <$> ((tasks i).prog machine.setup).lift .task fun _ r => r
    | .inr k => some <$> backupDatabase machine.databasePath (commands k)

end Host

/-! ## What a command does with files -/

section Files

variable [Serde]

/-- An operation on a file, and its answer. -/
def file? : (o : HostOp) × o.Resp → Option ((o : Files.Op String) × o.Resp)
  | ⟨.file o, r⟩ => some ⟨o, r⟩
  | _ => none

theorem eq_of_file? {event : (o : HostOp) × o.Resp} {o : Files.Op String} {r : o.Resp}
    (h : file? event = some ⟨o, r⟩) : event = ⟨.file o, r⟩ := by
  unfold file? at h
  split at h
  · cases h
    rfl
  · cases h

/-- What is done with files, by whom. -/
def fileLog {ι : Type} (journal : Journal ι HostOp HostOp.Resp) :
    Journal ι (Files.Op String) Files.Op.Resp :=
  journal.filterMap fun entry => (file? entry.2).map (entry.1, ·)

theorem own_fileLog {ι : Type} [DecidableEq ι] (i : ι) (journal : Journal ι HostOp HostOp.Resp) :
    Journal.own i (fileLog journal) = (Journal.own i journal).filterMap file? := by
  induction journal with
  | nil => rfl
  | cons entry journal ih =>
      obtain ⟨j, event⟩ := entry
      rw [fileLog] at ih ⊢
      simp only [Journal.own, List.filterMap_cons, List.filter_cons] at ih ⊢
      by_cases hj : j = i
      · cases hsee : file? event <;> simp [hj, hsee, ih]
      · cases hsee : file? event <;> simp [hj, ih]

/-- A command may do with files what it may by those it holds. -/
def Filing (past : List ((o : HostOp) × o.Resp)) (o : HostOp) : Prop :=
  ∀ filed, o = .file filed → Permits (holding (past.filterMap file?)) filed

variable {past : List ((o : HostOp) × o.Resp)}

theorem filing_ask {question : String} : Filing past (.file (.ask question)) := by
  rintro _ ⟨⟩
  exact trivial

/-- To ask takes no file. -/
theorem holding_ask {question : String} (answer : Except IoError String)
    (h : holding (past.filterMap file?) = []) :
    holding ((past ++ [(⟨.file (.ask question), answer⟩ : (o : HostOp) × o.Resp)]).filterMap
      file?) = [] := by
  rw [List.filterMap_append]
  exact (holding_append_singleton (past.filterMap file?) (.ask question) answer).trans h

/-- To seal takes none. -/
theorem legacy_byPast {α : Type} (p : Prog LegacySection LegacySection.Resp α)
    (h : holding (past.filterMap file?) = []) :
    (p.lift HostOp.legacy fun _ r => r).ByPast Filing
      (fun past _ => holding (past.filterMap file?) = []) past := by
  induction p generalizing past with
  | ret a => exact h
  | call s k ih =>
      refine ⟨by rintro _ ⟨⟩, fun r => ih r ?_⟩
      rw [List.filterMap_append]
      exact (congrArg holding (List.append_nil _)).trans h

variable [Sealing] [Urls]

/-- To open the database takes no file of the command's own. -/
theorem openStore_byPast (box : SecretBox) (run : LegacyRun) :
    (openStore box run).ByPast Filing (fun past _ => holding (past.filterMap file?) = []) [] := by
  refine ⟨by rintro _ ⟨⟩, ?_⟩
  rintro (error | ⟨⟩)
  · exact rfl
  · refine ⟨filing_ask, ?_⟩
    rintro (error | text)
    · exact rfl
    · refine Prog.ByPast.bind (legacy_byPast _ rfl) ?_
      rintro past (error | migrated) hpast
      · exact hpast
      · dsimp only
        split
        · exact hpast
        · refine ⟨filing_ask, ?_⟩
          rintro (error | text)
          · exact holding_ask _ hpast
          · exact holding_ask _ hpast

/-- **A command keeps to the file it holds.** -/
theorem backupDatabase_byPast (databasePath : String) (command : BackupCreate) :
    (backupDatabase databasePath command).ByPast Filing
      (fun past result => result = .ok () →
        Copied databasePath command.output (past.filterMap file?)) [] := by
  refine (openStore_byPast command.box command.run).bind ?_
  rintro past (error | ⟨⟩) hpast
  · exact nofun
  · refine (backupTo_byPast databasePath command.output hpast).lift file? (fun _ _ => rfl) ?_
      fun _ _ hdone => hdone
    rintro past o hpermits _ ⟨⟩
    exact hpermits

end Files

/-! ## What the processes keep -/

section Standing

variable [Serde] [Sealing] [Urls]

/-- What is legal for a process to do. -/
def HostOp.Legal [Chrono] (ι : Type) (box : SecretBox) (database : Database) : HostOp → Prop
  | .task o => Nonempty ι ∧ o.Legal box
  | .legacy s => s.Legal box database
  | .connect | .file _ => True

omit [Sealing] [Urls] in
/-- What it is answered then. -/
def HostOp.Answered (database : Database) : (o : HostOp) → o.Resp → Prop
  | .task o, r => o.Answered r
  | .legacy s, r => s.Answered database r
  | .connect, _ | .file _, _ => True

variable [Chrono]

/-- **A command does what is legal.** -/
theorem backupDatabase_lawful {ι : Type} {box : SecretBox} (database : Database)
    (databasePath : String) {command : BackupCreate} (hbox : command.box = box) :
    (backupDatabase databasePath command).Obeys (HostOp.Legal ι box database)
      (HostOp.Answered database) (fun _ => True) := by
  subst hbox
  have hsealing : ((encryptLegacyEgressMetadata command.box command.run).lift HostOp.legacy
      fun _ r => r).Obeys (HostOp.Legal ι command.box database) (HostOp.Answered database)
        (fun _ => True) :=
    (encryptLegacyEgressMetadata_obeys command.box database command.run).lift (fun _ hs => hs)
      fun _ _ hr => hr
  have hopen : (openStore command.box command.run).Obeys (HostOp.Legal ι command.box database)
      (HostOp.Answered database) (fun _ => True) := by
    refine ⟨trivial, ?_⟩
    rintro (error | ⟨⟩) -
    · exact trivial
    · refine ⟨trivial, ?_⟩
      rintro (error | text) -
      · exact trivial
      · refine hsealing.bind ?_
        rintro (error | migrated) -
        · exact trivial
        · dsimp only
          split
          · exact trivial
          · refine ⟨trivial, ?_⟩
            rintro (error | text) - <;> exact trivial
  refine hopen.bind ?_
  rintro (error | ⟨⟩) -
  · exact trivial
  · exact (Prog.obeys_trivial _).lift (fun _ _ => trivial) fun _ _ _ => trivial

variable [Sqlite] [Digests] [Argon2] {ι κ ω θ : Type} [DecidableEq ι] [DecidableEq κ]

/-- **The host while the processes run.** The tables can be served; the
database file holds them, every other file that was there is as it was, and
what a command holds is on the disk. -/
structure Standing (machine : Machine ω θ) (start : Host ω θ) (live : ℕ)
    (past : Journal (ι ⊕ κ) HostOp HostOp.Resp) (host : Host ω θ) : Prop where
  kept : Kept (start.disk.put live (Sqlite.pages host.state.database)) (holdings (fileLog past))
    host.disk
  tables : Serviceable ι machine.setup.box start.state.database host.state.database
  answered : ∀ entry ∈ past, entry.2.1.Answered start.state.database entry.2.2

variable {machine : Machine ω θ} {start host : Host ω θ} {live : ℕ}
variable {past : Journal (ι ⊕ κ) HostOp HostOp.Resp}

omit [Chrono] [Digests] [Argon2] in
theorem standing_start (hpages : (start.disk.file live).content = Sqlite.pages start.state.database)
    (htables : Serviceable ι machine.setup.box start.state.database start.state.database) :
    Standing machine start live ([] : Journal (ι ⊕ κ) HostOp HostOp.Resp) start := by
  refine ⟨?_, htables, fun entry hmem => by cases hmem⟩
  rw [Disk.put_self hpages]
  exact kept_start start.disk

omit [Chrono] [Digests] [Argon2] in
/-- A step that is not about files. -/
theorem Standing.extend (h : Standing machine start live past host) {host' : Host ω θ} {i : ι ⊕ κ}
    {o : HostOp} {r : o.Resp} (hfile : file? ⟨o, r⟩ = none)
    (hkept : Kept (start.disk.put live (Sqlite.pages host'.state.database))
      (holdings (fileLog past)) host'.disk)
    (htables : Serviceable ι machine.setup.box start.state.database host'.state.database)
    (hanswered : o.Answered start.state.database r) :
    Standing machine start live (past ++ [(i, ⟨o, r⟩)]) host' := by
  have hlog : fileLog (past ++ [(i, ⟨o, r⟩)]) = fileLog past := by
    simp [fileLog, hfile]
  refine ⟨by rwa [hlog], htables, fun entry hmem => ?_⟩
  rcases List.mem_append.mp hmem with hmem | hlast
  · exact h.answered entry hmem
  · obtain rfl := List.mem_singleton.mp hlast
    exact hanswered

omit [Chrono] [Digests] [Argon2] in
/-- What is committed is in the database file. -/
theorem Standing.kept_committed (h : Standing machine start live past host)
    (hlive : start.disk.dir machine.databasePath = some live) (state : State ω) :
    Kept (start.disk.put live (Sqlite.pages state.database)) (holdings (fileLog past))
      (host.committed machine.databasePath state).disk := by
  have hthere : host.disk.dir machine.databasePath = some live :=
    h.kept.dir machine.databasePath live hlive
  have hput := h.kept.put_start (start.disk.fresh _ _ hlive) (Sqlite.pages state.database)
  rw [Host.committed, Disk.rewrite, hthere]
  rwa [Disk.put_put] at hput

omit [Chrono] [Digests] [Argon2] in
/-- The database file holds the tables. -/
theorem Standing.find?_live (h : Standing machine start live past host)
    (hlive : start.disk.dir machine.databasePath = some live) :
    host.disk.find? machine.databasePath =
      some ⟨(start.disk.file live).mode, Sqlite.pages host.state.database⟩ := by
  refine h.kept.find?_start ?_
  simp [Disk.find?, Disk.put, hlive]

/-- So its pages are read as they are. -/
theorem Standing.read (h : Standing machine start live past host)
    (hlive : start.disk.dir machine.databasePath = some live) {pages : Bytes}
    (hread : Except.ok pages = (machine.exec host (.file (.read machine.databasePath))).2) :
    pages = Sqlite.pages host.state.database := by
  obtain ⟨k, hk, hfile⟩ := Option.map_eq_some_iff.mp (h.find?_live hlive)
  simp only [Machine.exec, Outside.exec, Disk.perform, hk] at hread
  split at hread
  · cases hread
  · rename_i hnone
    cases hnone
  · rename_i hsome
    obtain rfl := Option.some.inj hsome
    rw [Except.ok.inj hread, hfile]

variable [LawfulSerde] [LawfulSealing]

/-- **A step that is legal**, on files that are the process's own, keeps the
host so. -/
theorem Standing.step (h : Standing machine start live past host)
    (hlive : start.disk.dir machine.databasePath = some live) {i : ι ⊕ κ} {o : HostOp}
    (hlegal : o.Legal ι machine.setup.box start.state.database)
    (hfiling : ∀ filed, o = .file filed → Permits (holdings (fileLog past) i) filed) :
    Standing machine start live (past ++ [(i, ⟨o, (machine.exec host o).2⟩)])
      (machine.exec host o).1 := by
  cases o with
  | task o =>
      obtain ⟨⟨i⟩, hlegal⟩ := hlegal
      obtain ⟨hreadable, hsealed⟩ | ⟨hempty, -⟩ := h.tables
      · obtain ⟨htables, hanswered⟩ := readable_exec machine.world machine.setup hreadable hsealed
          hlegal
        exact h.extend rfl (h.kept_committed hlive _) (.inl htables) hanswered
      · exact (hempty.false i).elim
  | legacy s =>
      obtain ⟨htables, hanswered⟩ := h.tables.execLegacy hlegal
      exact h.extend rfl (h.kept_committed hlive _) htables hanswered
  | connect =>
      -- the database is there, so nothing is created
      have hthere : host.disk.dir machine.databasePath = some live :=
        h.kept.dir machine.databasePath live hlive
      obtain ⟨around, r, hexec⟩ : ∃ around r,
          machine.exec host .connect = ({ host with around := around }, r) := by
        simp only [Machine.exec, hthere]
        split
        · exact ⟨_, _, rfl⟩
        · exact ⟨_, _, rfl⟩
        · rename_i hnone
          cases hnone
      rw [hexec]
      exact h.extend rfl h.kept h.tables trivial
  | file filed =>
      have hlog : fileLog (past ++ [(i, ⟨.file filed, (machine.exec host (.file filed)).2⟩)]) =
          fileLog past ++ [(i, ⟨filed, (machine.exec host (.file filed)).2⟩)] := by
        simp [fileLog, file?]
      refine ⟨?_, h.tables, fun entry hmem => ?_⟩
      · rw [hlog, holdings_append_singleton]
        exact h.kept.perform _ _ (hfiling filed rfl)
      · rcases List.mem_append.mp hmem with hmem | hlast
        · exact h.answered entry hmem
        · obtain rfl := List.mem_singleton.mp hlast
          exact trivial

/-- **Steps in a row**, each of which is legal if those before it were
answered. -/
theorem standing_of_serial {journal : Journal (ι ⊕ κ) HostOp HostOp.Resp}
    (hstart : Standing machine start live ([] : Journal (ι ⊕ κ) HostOp HostOp.Resp) start)
    (hlive : start.disk.dir machine.databasePath = some live)
    (hserial : journal.Serial machine.exec start)
    (hok : ∀ before i o r after, journal = before ++ (i, ⟨o, r⟩) :: after →
      (∀ entry ∈ before, entry.2.1.Answered start.state.database entry.2.2) →
      o.Legal ι machine.setup.box start.state.database ∧
        ∀ filed, o = .file filed → Permits (holdings (fileLog before) i) filed) :
    Standing machine start live journal (journal.state machine.exec start) := by
  induction journal using List.reverseRecOn with
  | nil => exact hstart
  | append_singleton journal entry ih =>
      obtain ⟨hbefore, hlast⟩ := Journal.serial_append.mp hserial
      have hstanding := ih hbefore fun before j o' r' after heq =>
        hok before j o' r' (after ++ [entry]) (by rw [heq, List.append_assoc, List.cons_append])
      obtain ⟨i, o, r⟩ := entry
      obtain rfl : r = _ := hlast.1
      obtain ⟨hlegal, hfiling⟩ := hok journal i o _ [] rfl hstanding.answered
      rw [Journal.state_append]
      exact hstanding.step hlive hlegal hfiling

end Standing

/-! ## Any tasks and commands, however they interleave -/

section Interleaved

variable [Serde] [Sealing] [Urls] [Chrono] [Codecs] [Digests] [Argon2] [Sqlite]
variable {ι κ ω θ : Type} [DecidableEq ι] [DecidableEq κ]
variable {machine : Machine ω θ} {host : Host ω θ} {tasks : ι → Task} {commands : κ → BackupCreate}

omit [Argon2] [Sqlite] [DecidableEq ι] [DecidableEq κ] in
/-- Every process does what is legal. -/
theorem hosted_lawful (hcommands : ∀ k, (commands k).box = machine.setup.box) (database : Database)
    (i : ι ⊕ κ) : ((hosted machine host tasks commands).procs i).Obeys
      (HostOp.Legal ι machine.setup.box database) (HostOp.Answered database) (fun _ => True) := by
  cases i with
  | inl i =>
      refine (Prog.Obeys.lift (task_lawful machine.setup (tasks i)) ?_ ?_).bind fun _ _ => trivial
      · exact fun o ho => ⟨⟨i⟩, ho⟩
      · exact fun o r hr => hr
  | inr k => exact (backupDatabase_lawful database _ (hcommands k)).bind fun _ _ => trivial

omit [Argon2] [Sqlite] [DecidableEq ι] [DecidableEq κ] in
/-- And keeps to the files it holds. -/
theorem hosted_byPast (i : ι ⊕ κ) : ((hosted machine host tasks commands).procs i).ByPast Filing
    (fun past result => ∀ k, i = .inr k → result = some (.ok ()) →
      Copied machine.databasePath (commands k).output (past.filterMap file?)) [] := by
  cases i with
  | inl i =>
      have htask : ((hosted machine host tasks commands).procs (.inl i)).Obeys
          (fun o => ∃ step, o = .task step) (fun _ _ => True) (fun _ => True) :=
        ((Prog.obeys_trivial _).lift (fun step _ => ⟨step, rfl⟩) fun _ _ _ => trivial).bind
          fun _ _ => trivial
      refine Prog.ByPast.of_obeys (I := fun _ => True) htask trivial (fun _ _ _ _ => trivial) ?_
        fun _ _ _ _ => nofun
      rintro past _ - ⟨step, rfl⟩ _ ⟨⟩
  | inr k =>
      refine (backupDatabase_byPast machine.databasePath (commands k)).bind ?_
      rintro past result hdone _ ⟨⟩ hresult
      exact hdone (Option.some.inj hresult)

/-- The service starts on a database, with every account of it. -/
def Start.Restores (start : Start ω) (database : Database) : Prop :=
  ∃ state, (start.serve database).2 = .ok state ∧
    ∀ id : String, id ∈ state.router.accounts ↔ id ∈ database.providerAccounts

variable [LawfulSerde] [LawfulSealing]

omit [Codecs] [Digests] [Argon2] [Sqlite] in
theorem restores_of_lasting {box : SecretBox} {database : Database} (h : Lasting box database)
    (hseals : SealsAlways box) {start : Start ω} (hstart : start.setup.box = box) :
    start.Restores database := by
  obtain ⟨state, hserve, hreadable, -, hrows, -, hroutes⟩ :=
    serve_of_lasting h hseals start hstart
  refine ⟨state, hserve, fun id => ?_⟩
  have hrel := hrows id
  rw [← Std.ExtTreeMap.isSome_getElem?_iff_mem, ← Std.ExtTreeMap.isSome_getElem?_iff_mem,
    hroutes id]
  cases hrow : state.database.providerAccounts[id]? with
  | none =>
      rw [hrow] at hrel
      generalize database.providerAccounts[id]? = was at hrel
      cases hrel
      rfl
  | some row =>
      rw [hrow] at hrel
      obtain ⟨route, hrouted, -⟩ := exists_routed hreadable hrow
      rw [Option.bind_some, hrouted]
      generalize database.providerAccounts[id]? = was at hrel
      cases hrel
      rfl

/-- **The host stands**, wherever the processes have got to, and stood at every
step before. -/
theorem hosted_standing {live : ℕ} (hlive : host.disk.dir machine.databasePath = some live)
    (hpages : (host.disk.file live).content = Sqlite.pages host.state.database)
    (htables : Serviceable ι machine.setup.box host.state.database host.state.database)
    (hcommands : ∀ k, (commands k).box = machine.setup.box) (schedule : List (ι ⊕ κ))
    {before after : Journal (ι ⊕ κ) HostOp HostOp.Resp}
    (hlog : (hosted machine host tasks commands).journal machine.exec schedule = before ++ after) :
    Standing machine host live before (before.state machine.exec host) := by
  have hserial := ((hosted machine host tasks commands).journal_serial machine.exec schedule).1
  rw [hlog] at hserial
  refine standing_of_serial (standing_start hpages htables) hlive hserial.upTo ?_
  intro earlier i o r later hsplit hanswered
  have hjournal : (hosted machine host tasks commands).journal machine.exec schedule =
      earlier ++ (i, ⟨o, r⟩) :: (later ++ after) := by
    rw [hlog, hsplit, List.append_assoc, List.cons_append]
  obtain ⟨-, k, hreaches⟩ := Pool.exists_of_journal hjournal
  constructor
  · exact (hreaches.obeys (hosted_lawful hcommands host.state.database i) fun event hmem =>
      hanswered _ (Journal.mem_of_mem_own hmem)).2.1
  · intro filed hfiled
    rw [holdings, own_fileLog]
    exact (hosted_byPast i).of_call hreaches filed hfiled

variable [LawfulSqlite]

end Interleaved

/-! ## Two commands beside a request -/

section Example

open scoped Plain

namespace Pages

open Codec

/-- A `ProviderKind`, by its number. -/
def kind : Codec ProviderKind :=
  nat.via
    (fun
      | .claudeOauth => 0
      | .anthropicApiKey => 1
      | .bedrockApiKey => 2
      | .bedrockSigV4 => 3
      | .anthropicCompatible => 4)
    (fun n => [.claudeOauth, .anthropicApiKey, .bedrockApiKey, .bedrockSigV4,
      .anthropicCompatible][n]?)
    (by rintro (_ | _) <;> rfl)

def url : Codec Url :=
  (text.pair <| text.pair <| text.option.pair <| text.option.pair <| u16.option.pair <|
    text.pair <| text.option.pair text.option).via
    (fun url => (url.scheme, url.username, url.password, url.host, url.port, url.path, url.query,
      url.fragment))
    (fun (scheme, username, password, host, port, path, query, fragment) =>
      some ⟨scheme, username, password, host, port, path, query, fragment⟩)
    fun _ => rfl

def account : Codec ProviderAccount :=
  (text.pair <| text.pair <| kind.pair <| url.pair <| bool.pair <| (text.table text).pair <|
    text.many.pair <| text.option.pair text.option).via
    (fun account => (account.id, account.label, account.kind, account.baseUrl, account.enabled,
      account.modelMap, account.egressProxies, account.compatibleAuthHeader,
      account.compatibleAuthPrefix))
    (fun (id, label, kind, baseUrl, enabled, modelMap, egressProxies, compatibleAuthHeader,
        compatibleAuthPrefix) =>
      some ⟨id, label, kind, baseUrl, enabled, modelMap, egressProxies, compatibleAuthHeader,
        compatibleAuthPrefix⟩)
    fun _ => rfl

def accountRow : Codec AccountRow :=
  (account.pair <| text.pair text.option).via
    (fun row => (row.accountJson, row.credentialCiphertext, row.egressCiphertext))
    (fun (accountJson, credentialCiphertext, egressCiphertext) =>
      some ⟨accountJson, credentialCiphertext, egressCiphertext⟩)
    fun _ => rfl

def historyRow : Codec HistoryRow :=
  (text.pair text).via (fun row => (row.credentialCiphertext, row.expiresAt))
    (fun (credentialCiphertext, expiresAt) => some ⟨credentialCiphertext, expiresAt⟩) fun _ => rfl

def auditRow : Codec AuditRow :=
  (text.pair <| text.pair <| text.pair <| text.option.pair <| text.option.pair <|
    text.option.pair <| text.option.pair <| u16.option.pair <| text.pair u64.option).via
    (fun row => (row.occurredAt, row.actor, row.action, row.accountId, row.provider, row.model,
      row.sessionId, row.status, row.outcome, row.latencyMs))
    (fun (occurredAt, actor, action, accountId, provider, model, sessionId, status, outcome,
        latencyMs) =>
      some ⟨occurredAt, actor, action, accountId, provider, model, sessionId, status, outcome,
        latencyMs⟩)
    fun _ => rfl

/-- All the tables, one after another. -/
def database : Codec Database :=
  ((text.table accountRow).pair <| (text.table historyRow).pair auditRow.many).via
    (fun database => (database.providerAccounts, database.credentialHistory, database.auditEvents))
    (fun (providerAccounts, credentialHistory, auditEvents) =>
      some ⟨providerAccounts, credentialHistory, auditEvents⟩)
    fun _ => rfl

scoped instance : Sqlite where
  pages := database.write
  opened := database.decode

scoped instance : LawfulSqlite := ⟨database.decode_write⟩

end Pages

open scoped Pages

/-- A host where nothing fails. -/
def quietMachine : Machine Unit Unit where
  world := World.still
  setup := Setup.plain
  outside := ⟨fun _ => ((), none), fun _ _ => .ok "ok"⟩
  databasePath := "llmap.db"

/-- A disk with the database, and a backup of long ago. -/
def twoFiles : Disk String where
  dir path := if path = "llmap.db" then some 0 else if path = "old" then some 1 else none
  file h := if h = 0 then ⟨0o600, Sqlite.pages oneRow⟩ else ⟨0o600, [1]⟩
  next := 2
  fresh path h hpath := by
    split at hpath
    · obtain rfl := Option.some.inj hpath
      exact Nat.zero_lt_two
    · split at hpath
      · obtain rfl := Option.some.inj hpath
        exact Nat.one_lt_two
      · cases hpath

/-- Two commands: one for a new file, and one for the file that is there. -/
def newAndOld (isNew : Bool) : BackupCreate where
  output := if isNew then "new" else "old"
  box := Plain.box
  run := plainRun

/-- The commands, and a request between their steps. -/
def besideRequest : Pool (Unit ⊕ Bool) (Host Unit Unit) HostOp HostOp.Resp
    (Option (Except BackupError Unit)) :=
  hosted quietMachine ⟨.fresh oneRow, twoFiles, ()⟩ (fun _ => askingModels "key") newAndOld

def besideSchedule : List (Unit ⊕ Bool) :=
  [.inl (), .inr true, .inr false, .inl (), .inr true, .inr false, .inr true, .inr false, .inl (),
    .inr true, .inr false, .inr true, .inr true, .inl (), .inr true, .inr true]

end Example

end Service

end Llmap
