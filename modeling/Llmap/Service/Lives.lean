import Llmap.Admin.Health
import Llmap.Admin.Routes
import Llmap.Service.Control
import Llmap.Storage.Legacy
/-!
# Lives

The process may be stopped anywhere, by its host or by `shutdown_signal`,
and started again. All that is left of a life is the database: the router,
the sessions, the chains and the counters begin anew. A start does not go
through when a row cannot be read: `open` seals the endpoints that are not
sealed yet, and `route_accounts` reads every account.

Neither a life nor a start leaves a row that the next start cannot read
(`Lasting`), so the tables of any number of lives, each cut off anywhere,
can be served again. This rests on what is legal for a task to write
(`task_lawful`), which is what it is for the activities of the control plane.
-/

namespace Llmap

namespace Storage

open Secrets Providers Routing Admin

section Rows

variable [Serde] [Sealing] [Urls] {box : SecretBox} {database current : Database}

/-- The account that the router is given for a row. -/
def AccountRow.routed (row : AccountRow) : Option RouteAccount :=
  (publicAccount row).toOption.map routeAccount

/-- Every endpoint is sealed. -/
def Database.AllSealed (database : Database) : Prop :=
  ∀ (id : String) row, database.providerAccounts[id]? = some row → row.isLegacy = false

omit [Sealing] in
theorem Database.AllSealed.legacyReadable (h : database.AllSealed) : LegacyReadable database := by
  intro id row hrow hlegacy
  rw [h id row hrow] at hlegacy
  cases hlegacy

/-- **Tables that last.** They can be read, and what is not sealed can be. -/
structure Lasting (box : SecretBox) (database : Database) : Prop where
  readable : Readable box database
  legacy : LegacyReadable database

/-- A row of a database that sealing has got to, and the row it was. -/
theorem Advanced.of_row (h : Advanced box database current) {id : String} {row : AccountRow}
    (hrow : current.providerAccounts[id]? = some row) :
    ∃ was, database.providerAccounts[id]? = some was ∧ LegacyStage box was row := by
  have hrel := h.rows id
  rw [hrow] at hrel
  generalize database.providerAccounts[id]? = found at hrel
  cases hrel with
  | some hstage => exact ⟨_, rfl, hstage⟩

/-- No account is lost. -/
theorem Advanced.mem_iff (h : Advanced box database current) (id : String) :
    id ∈ current.providerAccounts ↔ id ∈ database.providerAccounts := by
  have hrel := h.rows id
  rw [← Std.ExtTreeMap.isSome_getElem?_iff_mem, ← Std.ExtTreeMap.isSome_getElem?_iff_mem]
  generalize database.providerAccounts[id]? = was at hrel
  generalize current.providerAccounts[id]? = now at hrel
  cases hrel <;> rfl

/-- **Sealing leaves tables that last.** -/
theorem Lasting.advanced (h : Lasting box database) (hadvanced : Advanced box database current) :
    Lasting box current where
  readable := by
    refine ⟨fun id row hrow => ?_, fun id history hhistory => ?_⟩
    · obtain ⟨was, hwas,
          rfl | ⟨-, account, endpoints, haccount, -, hcurrent, hhydrate, hsame, -⟩⟩ :=
        hadvanced.of_row hrow
      · exact h.readable.account id row hwas
      · obtain ⟨account', -, credential, haccount', hid, -, hdecrypt⟩ :=
          h.readable.account id was hwas
        rw [haccount] at haccount'
        obtain rfl := Except.ok.inj haccount'
        exact ⟨_, account, credential, hcurrent, hid, hhydrate, hsame ▸ hdecrypt⟩
    · rw [hadvanced.history] at hhistory
      obtain ⟨hmem, hopens⟩ := h.readable.history id history hhistory
      exact ⟨(hadvanced.mem_iff id).mpr hmem, hopens⟩
  legacy := fun id row hrow hlegacy =>
    h.legacy id row (hadvanced.original_of_isLegacy hrow hlegacy) hlegacy

/-! ## Opening the database -/

variable [LawfulSerde] [LawfulSealing]

/-- **Sealing that is left alone** comes to its end, and leaves every row
sealed. -/
theorem encryptLegacyEgressMetadata_run (h : Lasting box database) (hseals : SealsAlways box)
    (run : LegacyRun) :
    ∃ opened n,
      (encryptLegacyEgressMetadata box run).run Database.execLegacy database = (opened, .ok n) ∧
        Advanced box database opened ∧ opened.AllSealed := by
  have hwas : ∀ entry ∈ run.scan (database.execLegacy .selectLegacy).2, WasLegacy database entry :=
    (Advanced.refl box database).wasLegacy_of_mem run
  have hdone := encryptRows_completes h.legacy hseals run.nonces
    (database.execLegacy .selectLegacy).2.length hwas database
  -- the run is that of a process which has as many turns as it takes
  obtain ⟨turns, hshared, hproc⟩ := Pool.exists_alone Database.execLegacy
    (LegacyPool.start box database fun _ : Unit => run) (i := ()) rfl
  have hunderway := underway_reached box database (fun _ : Unit => run)
    ((List.replicate turns ()).map LegacyAct.turn)
  have hreached : LegacyPool.reached box database (fun _ : Unit => run)
      ((List.replicate turns ()).map LegacyAct.turn) =
        Run.final (Pool.turn Database.execLegacy) (LegacyPool.start box database fun _ => run)
          (List.replicate turns ()) :=
    List.foldl_map
  rw [hreached] at hunderway
  have hresult := congrArg Prog.result? hproc
  rw [Prog.result?, LegacyPool.start, encryptLegacyEgressMetadata, Prog.run_call] at hresult
  refine ⟨_, _, Prod.ext rfl hdone, ?_, fun id row hrow => ?_⟩
  · have hadvanced := hunderway.advanced
    rwa [hshared] at hadvanced
  · exact hunderway.all_sealed (hresult.trans (congrArg some hdone)) (by rw [hshared]; exact hrow)

/-! ## Writing rows -/

omit [LawfulSerde] in
theorem isLegacy_sealedRow {nonces : WriteNonces} {account : ProviderAccount} {credential : String}
    {row : AccountRow} (h : sealedRow box nonces account credential = .ok row) :
    row.isLegacy = false := by
  obtain ⟨accountJson, egress, ciphertext, hvalues, -, rfl⟩ := sealedRow_eq_ok h
  simp [AccountRow.isLegacy, egress_ne_empty hvalues]

omit [LawfulSerde] in
/-- **What is legal leaves every row sealed.** -/
theorem Database.AllSealed.exec [Chrono] (h : database.AllSealed) {s : Section}
    (hlegal : LegalSection box s) : (database.exec s).1.AllSealed := by
  intro id row hrow
  cases s with
  | upsert id' row' =>
      obtain ⟨nonces, account, credential, -, hsealed⟩ := hlegal
      rw [Database.accounts_upsert] at hrow
      split at hrow
      · exact Option.some.inj hrow ▸ isLegacy_sealedRow hsealed
      · exact h id row hrow
  | rotate id' row' expiresAt =>
      obtain ⟨nonces, account, credential, -, hsealed⟩ := hlegal
      rw [Database.accounts_rotate] at hrow
      split at hrow
      · exact Option.some.inj hrow ▸ isLegacy_sealedRow hsealed
      · exact h id row hrow
  | replace id' expected ciphertext expiresAt =>
      simp only [Database.exec] at hrow
      split at hrow
      · exact h id row hrow
      · rename_i found hfound
        simp only [Std.ExtTreeMap.getElem?_insert, Std.LawfulEqCmp.compare_eq_iff_eq] at hrow
        split at hrow
        · -- only the credential is another one
          obtain rfl := Option.some.inj hrow
          exact h id' found (Option.filter_eq_some_iff.mp hfound).1
        · exact h id row hrow
  | updateAccountJson id' accountJson =>
      rw [Database.accounts_updateAccountJson] at hrow
      split at hrow
      · obtain ⟨found, hfound, rfl⟩ := Option.map_eq_some_iff.mp hrow
        exact h id' found hfound
      · exact h id row hrow
  | deleteAccount id' =>
      rw [Database.accounts_deleteAccount] at hrow
      split at hrow
      · cases hrow
      · exact h id row hrow
  | selectAccount | selectAccounts | selectCredentials | insertAudit => exact h id row hrow

end Rows

end Storage

namespace Admin

open Secrets Providers Routing Storage

variable [Serde] [Sealing] [Urls] {box : SecretBox} {database : Database}

/-- **What is routed of readable tables**: for every row its account, and
nothing else. -/
theorem Readable.routes (h : Readable box database) :
    ∃ accounts, (routeAccounts.run Database.exec database).2 = .ok accounts ∧
      ∀ id : String, (Router.new accounts).accounts[id]? =
        database.providerAccounts[id]?.bind AccountRow.routed := by
  have hpublic : ∀ (id : String) row, database.providerAccounts[id]? = some row →
      ∃ account, publicAccount row = .ok account ∧ account.id = id := by
    intro id row hrow
    obtain ⟨account, -, -, haccount, hid, -, -⟩ := h.account id row hrow
    simp only [publicAccount, haccount]
    exact ⟨_, rfl, hid⟩
  have hrows : ∀ row, row ∈ accountRows database ↔
      ∃ id : String, database.providerAccounts[id]? = some row := by
    intro row
    simp [accountRows, Database.exec, Std.ExtTreeMap.mem_toList_iff_getElem?_eq_some]
  have hread : ∀ row ∈ accountRows database, ∃ account, publicAccount row = .ok account := by
    intro row hrow
    obtain ⟨id, hid⟩ := (hrows row).mp hrow
    obtain ⟨account, haccount, -⟩ := hpublic id row hid
    exact ⟨account, haccount⟩
  obtain ⟨listed, hlisted⟩ := exists_mapM_iff.mpr hread
  refine ⟨listed.map routeAccount, ?_, fun id => ?_⟩
  · change ((accountRows database).mapM publicAccount).map _ = _
    rw [hlisted]
    rfl
  -- what the router has under an id is of the one row with that id
  have hof : ∀ account, (Router.new (listed.map routeAccount)).accounts[id]? = some account →
      database.providerAccounts[id]?.bind AccountRow.routed = some account := by
    intro account haccount
    have hmem := Table.mem_of_getElem?_collect haccount
    simp only [List.map_map, List.mem_map, Function.comp_apply, Prod.mk.injEq] at hmem
    obtain ⟨listedAccount, hmem, hid, rfl⟩ := hmem
    obtain ⟨row, hrow, hpub⟩ := exists_of_mem_mapM hlisted hmem
    obtain ⟨id', hid'⟩ := (hrows row).mp hrow
    obtain ⟨account', hpub', hown⟩ := hpublic id' row hid'
    rw [hpub] at hpub'
    obtain rfl := Except.ok.inj hpub'
    obtain rfl : id' = id := hown.symm.trans hid
    simp [hid', AccountRow.routed, hpub, Except.toOption]
  cases hfound : (Router.new (listed.map routeAccount)).accounts[id]? with
  | some account => exact (hof account hfound).symm
  | none =>
      cases hrow : database.providerAccounts[id]? with
      | none => rfl
      | some row =>
          -- a row of its own would have been listed
          obtain ⟨account, hpub, hid⟩ := hpublic id row hrow
          obtain ⟨account', hmem, hpub'⟩ := exists_mem_of_mapM hlisted ((hrows row).mpr ⟨id, hrow⟩)
          rw [hpub] at hpub'
          obtain rfl := Except.ok.inj hpub'
          have hcollected : id ∈ (Router.new (listed.map routeAccount)).accounts := by
            have hpair : (id, routeAccount account) ∈
                (listed.map routeAccount).map fun account => (account.id, account) := by
              simp only [List.map_map, List.mem_map, Function.comp_apply, Prod.mk.injEq]
              exact ⟨account, hmem, hid, rfl⟩
            exact Table.mem_collect hpair
          rw [← Std.ExtTreeMap.isSome_getElem?_iff_mem, hfound] at hcollected
          cases hcollected

end Admin

namespace Service

open Auth Providers Secrets Egress Routing Storage Sessions

section Legal

variable [Serde] [Sealing] [Urls] [Chrono]

/-- What is legal for a task to do. -/
def Op.Legal (box : SecretBox) : Op → Prop
  | .store s => Admin.LegalSection box s
  | _ => True

/-- What it is answered then. -/
def Op.Answered : (o : Op) → o.Resp → Prop
  | .store s, r => Admin.AnsweredSection s r
  | _, _ => True

/-- A part of a task that does what is legal. -/
abbrev Lawful {α : Type} (box : SecretBox) (p : Part α) : Prop :=
  p.Obeys (Op.Legal box) Op.Answered fun _ => True

theorem stored_lawful {α : Type} {box : SecretBox} {p : Prog Storage.Section Storage.Section.Resp α}
    (h : Admin.ObedientStore box p) : Lawful box (stored p) :=
  Prog.Obeys.lift h (fun _ hs => hs) fun _ _ hr => hr

theorem handler_lawful (box : SecretBox) (request : Admin.Request) :
    Lawful box ((request.handler box).lift adminOp adminResp) := by
  have hobedient : Admin.Obedient box (request.handler box) :=
    (Admin.activity_obedient (.handle request)).of_bind
  refine hobedient.lift (fun o ho => ?_) fun o r hr => ?_
  · cases o with
    | store s => exact ho
    | replaceRouteAccounts | resetAccountHealth => exact trivial
  · cases o with
    | store s => exact hr
    | replaceRouteAccounts | resetAccountHealth => exact trivial

variable [Codecs] [Digests]

/-- **A task does what is legal**, whatever it is answered by readable
tables. -/
theorem task_lawful (setup : Setup) (task : Task) : Lawful setup.box (task.prog setup) := by
  cases hproxies : task.proxies with
  | false =>
      refine control_induct (R := fun p => Lawful setup.box p) (fun _ => trivial)
        (fun hp hf => hp.bind fun a _ => hf a) ?_ ⟨trivial, fun _ _ => trivial⟩
        (handler_lawful setup.box) ?_ hproxies
      · intro α o k hplain hk
        refine ⟨?_, fun r _ => hk r⟩
        cases o with
        | store s => exact hplain.elim
        | _ => exact trivial
      · exact fun now exchange => stored_lawful (Admin.refreshDueOauth_obedient now exchange)
  | true =>
      rcases Task.prog_cases setup hproxies with ⟨answer, hprog⟩ | ⟨request, f, -, hprog⟩
      · rw [hprog]
        exact trivial
      · rw [hprog]
        -- a request reads, and writes into the audit history
        refine (Prog.obeys_subst (fun o => ?_) _).bind fun response _ => trivial
        refine (answered_serves setup o).imp (fun step hstep => ?_) fun _ _ _ => trivial
        cases o with
        | send request =>
            obtain ⟨step', rfl⟩ := hstep
            exact trivial
        | count | now | elapsed | credentialSnapshot | choose | loadAccount | startRequest
        | recordOutcome | appendProxyAudit =>
            obtain rfl := hstep
            exact trivial

variable [Argon2] [LawfulSerde] [LawfulSealing] {ι ω : Type} [DecidableEq ι]

omit [Codecs] [DecidableEq ι] in
/-- **A step that is legal keeps the tables readable, and sealed**, and is
answered as the task expects. -/
theorem readable_exec (world : World ω) (setup : Setup) {state : State ω} {o : Op}
    (hreadable : Admin.Readable setup.box state.database) (hsealed : state.database.AllSealed)
    (hlegal : o.Legal setup.box) :
    (Admin.Readable setup.box (world.exec setup state o).1.database ∧
      (world.exec setup state o).1.database.AllSealed) ∧
      o.Answered (world.exec setup state o).2 := by
  cases o with
  | store s =>
      change (Admin.Readable setup.box (world.store state s).1.database ∧
        (world.store state s).1.database.AllSealed) ∧
        Admin.AnsweredSection s (world.store state s).2
      constructor
      · obtain ⟨outside, heq | heq⟩ := world.store_state state s
        · rw [heq]
          exact ⟨hreadable.exec hlegal, hsealed.exec hlegal⟩
        · rw [heq]
          exact ⟨hreadable, hsealed⟩
      · by_cases haudit : ∃ row, s = .insertAudit row
        · obtain ⟨row, rfl⟩ := haudit
          exact trivial
        · rw [world.store_of_ne fun row heq => haudit ⟨row, heq⟩]
          exact hreadable.answered s
  | _ => exact ⟨⟨hreadable, hsealed⟩, trivial⟩

/-- **A life keeps the tables readable, and sealed**, wherever it is cut
off. -/
theorem readable_served (world : World ω) (setup : Setup) (tasks : ι → Task) {state : State ω}
    (hreadable : Admin.Readable setup.box state.database) (hsealed : state.database.AllSealed)
    (schedule : List ι) :
    let left := (Run.final (Pool.turn (world.exec setup)) (opening setup tasks state)
      schedule).shared.database
    Admin.Readable setup.box left ∧ left.AllSealed := by
  refine (Pool.final_induct
    (I := fun state : State ω => Admin.Readable setup.box state.database ∧ state.database.AllSealed)
    (C := fun _ _ => True) (fun state o hstate hlegal _ => ?_) ⟨hreadable, hsealed⟩
    (fun i => task_lawful setup (tasks i)) (Run.along_of_forall fun _ _ _ _ => trivial)).1
  exact readable_exec world setup hstate.1 hstate.2 hlegal

end Legal

/-! ## Starting, and being stopped -/

/-- What a start of the process goes by: its configuration and keys, what is
not up to the code when the endpoints are sealed, the instant that audit
events are kept from, and what is around it. -/
structure Start (ω : Type) [Serde] where
  setup : Setup
  run : LegacyRun
  expiredBefore : DateTime
  outside : ω

/-- How far a life gets: it is stopped after some sections of
`encrypt_legacy_egress_metadata`, or after some turns of its tasks. -/
inductive Span (ι : Type) where
  | opening (sections : ℕ)
  | serving (schedule : List ι)

section Lives

variable [Serde] [Sealing] [Urls] [Chrono] {ι ω : Type}

/-- **A life of the process.** -/
structure Life (ι ω : Type) extends Start ω where
  world : World ω
  tasks : ι → Task
  span : Span ι

/-- `SqliteStore::open`, for tables that are there, and `serve` up to where
the tasks begin: what the database is then, and what they begin with. -/
def Start.serve (start : Start ω) (database : Database) :
    Database × Except StorageError (State ω) :=
  match
    (encryptLegacyEgressMetadata start.setup.box start.run).run Database.execLegacy database with
  | (opened, .error error) => (opened, .error error)
  | (opened, .ok _) =>
      ((pruneAuditBefore start.expiredBefore opened).1,
        started start.setup start.expiredBefore opened start.outside)

variable [Codecs] [Digests] [Argon2] [DecidableEq ι]

/-- What a life leaves of the database it finds. -/
def Life.leaves (life : Life ι ω) (database : Database) : Database :=
  match life.span with
  | .opening sections =>
      (LegacyPool.reached life.setup.box database (fun _ : Unit => life.run)
        (List.replicate sections (.turn ()))).shared
  | .serving schedule =>
      match life.serve database with
      | (left, .error _) => left
      | (_, .ok state) =>
          (Run.final (Pool.turn (life.world.exec life.setup))
            (opening life.setup life.tasks state) schedule).shared.database

/-- What one life after another leaves. -/
def livedThrough (lives : List (Life ι ω)) (database : Database) : Database :=
  Run.final (fun database life => Life.leaves life database) database lives

variable [LawfulSerde] [LawfulSealing] {box : SecretBox} {database : Database}

omit [Codecs] [Digests] [Argon2] [Chrono] [LawfulSerde] [LawfulSealing] in
/-- An account of readable tables is routed, and has nothing in flight. -/
theorem exists_routed (h : Admin.Readable box database) {id : String} {row : AccountRow}
    (hrow : database.providerAccounts[id]? = some row) :
    ∃ route, row.routed = some route ∧ route.healthy = true ∧ route.inFlight = 0 ∧
      route.depletedUntil = none := by
  obtain ⟨account, -, -, haccount, -, -, -⟩ := h.account id row hrow
  simp only [AccountRow.routed, publicAccount, haccount]
  exact ⟨_, rfl, rfl, rfl, rfl⟩

omit [Codecs] [Digests] [Argon2] in
/-- **A start goes through.** It serves the accounts it finds, with every
endpoint sealed. -/
theorem serve_of_lasting (h : Lasting box database) (hseals : SealsAlways box) (start : Start ω)
    (hbox : start.setup.box = box) :
    ∃ state, (start.serve database).2 = .ok state ∧ Admin.Readable box state.database ∧
      state.database.AllSealed ∧
      (∀ id : String, Option.Rel (LegacyStage box) database.providerAccounts[id]?
        state.database.providerAccounts[id]?) ∧
      state.database.credentialHistory = database.credentialHistory ∧
      ∀ id : String, state.router.accounts[id]? =
        state.database.providerAccounts[id]?.bind AccountRow.routed := by
  obtain ⟨opened, n, hrun, hadvanced, hsealed⟩ :=
    encryptLegacyEgressMetadata_run h hseals start.run
  have hopened : Admin.Readable box opened := (h.advanced hadvanced).readable
  -- what is pruned is not read at the start
  have hpruned : Admin.Readable box (pruneAuditBefore start.expiredBefore opened).1 :=
    ⟨hopened.account, hopened.history⟩
  obtain ⟨accounts, hlisted, hroutes⟩ := hpruned.routes
  refine ⟨⟨(pruneAuditBefore start.expiredBefore opened).1, .new accounts, .default,
    .new start.setup.policy, fun _ => 0, start.outside⟩, ?_, hpruned, hsealed, hadvanced.rows,
    hadvanced.history, hroutes⟩
  subst hbox
  simp only [Start.serve, hrun, started, hlisted]
  rfl

/-- **A life leaves tables that last**, wherever it is cut off. -/
theorem leaves_lasting (h : Lasting box database) (hseals : SealsAlways box) {life : Life ι ω}
    (hbox : life.setup.box = box) : Lasting box (life.leaves database) := by
  subst hbox
  unfold Life.leaves
  split
  · exact h.advanced (underway_reached _ database _ _).advanced
  · obtain ⟨state, hserve, hreadable, hsealed, -⟩ :=
      serve_of_lasting h hseals life.toStart rfl
    rw [← Prod.mk.eta (p := life.serve database), hserve]
    obtain ⟨hreadable', hsealed'⟩ :=
      readable_served life.world life.setup life.tasks hreadable hsealed _
    exact ⟨hreadable', hsealed'.legacyReadable⟩

theorem livedThrough_lasting (h : Lasting box database) (hseals : SealsAlways box)
    {lives : List (Life ι ω)} (hlives : ∀ life ∈ lives, life.setup.box = box) :
    Lasting box (livedThrough lives database) := by
  induction lives generalizing database with
  | nil => exact h
  | cons life lives ih =>
      exact ih (leaves_lasting h hseals (hlives life List.mem_cons_self))
        fun later hlater => hlives later (List.mem_cons_of_mem _ hlater)

/-- **A restart serves what there is.** After any number of lives on tables
that last, each stopped anywhere, while it sealed endpoints or served tasks in
any order, the process starts. Every account that the lives left is there,
under the same id and with the same credential, and what credentials were
rotated out is as it was; each account opens, with its endpoints sealed; and
the router has it as its row says, healthy and with nothing in flight, and has
no other. -/
theorem restart_serves_tables (hlasting : Lasting box database) (hseals : SealsAlways box)
    (lives : List (Life ι ω)) (hlives : ∀ life ∈ lives, life.setup.box = box) (start : Start ω)
    (hstart : start.setup.box = box) :
    ∃ state, (start.serve (livedThrough lives database)).2 = .ok state ∧
      (∀ id : String, state.router.accounts[id]? =
        state.database.providerAccounts[id]?.bind AccountRow.routed) ∧
      (∀ (id : String) row, state.database.providerAccounts[id]? = some row →
        row.isLegacy = false ∧
        (∃ account credential, account.id = id ∧ openedRow box id row = .ok (account, credential)) ∧
        ∃ route, row.routed = some route ∧ route.healthy = true ∧ route.inFlight = 0 ∧
          route.depletedUntil = none) ∧
      (∀ id : String,
        state.database.providerAccounts[id]?.map AccountRow.credentialCiphertext =
          (livedThrough lives database).providerAccounts[id]?.map
            AccountRow.credentialCiphertext) ∧
      state.database.credentialHistory = (livedThrough lives database).credentialHistory := by
  obtain ⟨state, hserve, hreadable, hsealed, hrows, hhistory, hroutes⟩ :=
    serve_of_lasting (livedThrough_lasting hlasting hseals hlives) hseals start hstart
  refine ⟨state, hserve, hroutes, fun id row hrow =>
    ⟨hsealed id row hrow, ?_, exists_routed hreadable hrow⟩, fun id => ?_, hhistory⟩
  · obtain ⟨account, hydrated, credential, haccount, hid, hhydrate, hdecrypt⟩ :=
      hreadable.account id row hrow
    have hopens : openedRow box id row = .ok (hydrated, credential) := by
      simp only [openedRow, haccount, hhydrate, hdecrypt]
    obtain ⟨egressProxies, hsame⟩ := Admin.hydrated_eq hhydrate
    exact ⟨hydrated, credential, by rw [hsame]; exact hid, hopens⟩
  · have hrel := hrows id
    generalize (livedThrough lives database).providerAccounts[id]? = was at hrel
    generalize state.database.providerAccounts[id]? = now at hrel
    cases hrel with
    | none => rfl
    | some hstage =>
        rcases hstage with rfl | ⟨-, account, endpoints, -, -, -, -, hsame, -⟩
        · rfl
        · exact congrArg some hsame

end Lives

section Example

open scoped Plain

/-- A start of the service of the examples. -/
def Start.plain : Start Unit := ⟨Setup.plain, plainRun, minutes 0, ()⟩

/-- Two lives: one that is stopped as it reads what is to be sealed, and one
that is stopped within the first request. -/
def shortLives : List (Life Unit Unit) :=
  [⟨Start.plain, World.still, fun _ => .metrics, .opening 1⟩,
    ⟨Start.plain, World.still, fun _ => askingModels "key", .serving [(), (), ()]⟩]

/-- The store of the examples is readable, and sealed. -/
theorem sealed_oneRow : Admin.Readable Plain.box oneRow ∧ oneRow.AllSealed := by
  have hempty : (Database.empty).AllSealed := fun id row hrow => by simp [Database.empty] at hrow
  unfold oneRow upsertAccount
  split
  · exact ⟨Admin.readable_empty _, hempty⟩
  · rename_i row hrow
    have hlegal : Admin.LegalSection Plain.box
        (.upsert (Plain.account "a" .anthropicApiKey true).id row) := ⟨_, _, _, rfl, hrow⟩
    exact ⟨(Admin.readable_empty _).exec hlegal, hempty.exec hlegal⟩

theorem lasting_oneRow : Lasting Plain.box oneRow :=
  ⟨sealed_oneRow.1, sealed_oneRow.2.legacyReadable⟩

/-- The account is served again. -/
theorem restart_serves_tables_one :
    ∃ state, (Start.plain.serve (livedThrough shortLives oneRow)).2 = .ok state ∧
      "a" ∈ state.router.accounts := by
  have hseals : SealsAlways Plain.box := fun nonce plaintext associatedData => ⟨_, rfl⟩
  obtain ⟨state, hserve, hroutes, hrows, hkept, -⟩ := restart_serves_tables lasting_oneRow hseals
    shortLives (by simp [shortLives]; decide) Start.plain rfl
  have hleft : ((livedThrough shortLives oneRow).providerAccounts["a"]?.map
      AccountRow.credentialCiphertext).isSome = true := by decide +kernel
  rw [← hkept "a", Option.isSome_map] at hleft
  obtain ⟨row, hrow⟩ := Option.isSome_iff_exists.mp hleft
  obtain ⟨-, -, route, hroute, -⟩ := hrows "a" row hrow
  refine ⟨state, hserve, ?_⟩
  rw [← Std.ExtTreeMap.isSome_getElem?_iff_mem, hroutes "a", hrow, Option.bind_some, hroute]
  rfl

end Example

end Service

end Llmap
