import Llmap.Admin.Model
import Llmap.Routing.InFlight
import Llmap.Plain
/-!
# What the router is told of the accounts

Each handler that writes accounts reads them all afterwards and hands them
to the router. The two are under different locks, so that a list may be
handed over when a newer one already was, and the router then goes on with
an account that has been paused or deleted (`stale_list_installed_last`).

To say when this does not happen, a run is watched: how many writes there
were, how many of them each handler's list has seen, and how many the list
the router has. The router agrees with the store whenever the list it was
handed last has seen every write (`agrees_of_seen`); and it comes to that
when no list is handed over after a newer one, as every handler that
succeeds tells the router of its own write (`agrees_of_inOrder`).
-/

namespace Llmap

namespace Admin

open Providers Secrets Routing Storage

section Watched

variable [Serde]

/-- The operations that write accounts. -/
def Op.writesAccounts : Op → Bool
  | .store (.upsert ..) | .store (.rotate ..) | .store (.replace ..)
  | .store (.updateAccountJson ..) | .store (.deleteAccount ..) => true
  | _ => false

/-- The operation that hands accounts to the router. -/
def Op.installs : Op → Bool
  | .replaceRouteAccounts _ => true
  | _ => false

/-- Handlers that are watched: the writes so far, how many of them each
handler had seen when it last read the accounts, and how many the list had
that the router was handed last. -/
structure Watched (ι : Type) where
  pool : Pool ι State Op Op.Resp (Except ApiError Reply)
  written : ℕ
  seen : ι → ℕ
  installed : ℕ

variable {ι : Type} [DecidableEq ι]

/-- One handler's turn. -/
def Watched.turn (watched : Watched ι) (i : ι) : Watched ι :=
  match (watched.pool.procs i).next? with
  | none => watched
  | some o => {
      pool := watched.pool.turn State.exec i
      written := if o.writesAccounts then watched.written + 1 else watched.written
      seen := if o = .store .selectAccounts then
          Function.update watched.seen i watched.written
        else watched.seen
      installed := if o.installs then watched.seen i else watched.installed }

/-- What a request's handlers come to under a schedule. -/
def watched [Sealing] [Urls] [Chrono] (box : SecretBox) (requests : ι → Request) (state : State)
    (schedule : List ι) : Watched ι :=
  Run.final Watched.turn
    { pool := ⟨state, fun i => (requests i).handler box⟩, written := 0, seen := fun _ => 0
      installed := 0 } schedule

/-- The rows of the accounts. -/
def accountRows (database : Database) : List AccountRow :=
  (database.exec .selectAccounts).2

/-- The list `route_accounts` makes of rows. -/
def routeList [Urls] (rows : List AccountRow) : Except StorageError (List RouteAccount) :=
  (rows.mapM publicAccount).map fun accounts => accounts.map routeAccount

/-- What the store says of an account to the router: whether it is
enabled, and its models. -/
def exposed (account : RouteAccount) : Bool × Finset String := (account.enabled, account.models)

/-- **Agreement.** The router has the accounts that `route_accounts` would
list, enabled or not as listed, and with the models listed. -/
def State.Agrees [Urls] (state : State) : Prop :=
  ∃ accounts, (routeAccounts.run Database.exec state.database).2 = .ok accounts ∧
    ∀ id : String, state.router.accounts[id]?.map exposed =
      (Router.new accounts).accounts[id]?.map exposed

/-! ## The router's part -/

omit [Serde] in
@[simp] theorem exposed_carryOver (accounts : Table String RouteAccount) (account : RouteAccount) :
    exposed (Router.carryOver accounts account) = exposed account := by
  unfold Router.carryOver
  split <;> rfl

omit [Serde] in
/-- A router that is handed a list exposes what a new one would. -/
theorem exposed_replaceAccounts (router : Router) (accounts : List RouteAccount) (id : String) :
    (router.replaceAccounts accounts).accounts[id]?.map exposed =
      (Router.new accounts).accounts[id]?.map exposed := by
  change (router.replacement accounts)[id]?.map exposed = _
  rw [replacement_getElem?, Option.map_map]
  congr 1
  funext account
  exact exposed_carryOver _ _

omit [Serde] in
/-- Resetting an account's health exposes nothing else. -/
theorem exposed_resetAccountHealth (router : Router) (accountId id : String) :
    (router.resetAccountHealth accountId).1.accounts[id]?.map exposed =
      router.accounts[id]?.map exposed := by
  unfold Router.resetAccountHealth
  split
  · rfl
  · rename_i account haccount
    simp only [Std.ExtTreeMap.getElem?_insert, Std.LawfulEqCmp.compare_eq_iff_eq]
    split
    · rename_i hid
      rw [← hid, haccount]
      rfl
    · rfl

/-! ## What a handler hands over -/

/-- What a handler remembers: the rows it read last. -/
def remember (memory : Option (List AccountRow)) : (o : Op) → o.Resp → Option (List AccountRow)
  | .store .selectAccounts, rows => some rows
  | _, _ => memory

/-- A list that is handed over is the one of the rows read last. -/
def HandsOver [Urls] (memory : Option (List AccountRow)) : Op → Prop
  | .replaceRouteAccounts accounts => ∃ rows, memory = some rows ∧ routeList rows = .ok accounts
  | _ => True

variable [Urls]

theorem stored_follows {α : Type} (p : Prog Section Section.Resp α)
    (memory : Option (List AccountRow)) :
    (stored p).Follows remember HandsOver (fun _ _ => True) memory := by
  induction p generalizing memory with
  | ret a => trivial
  | call s k ih => exact ⟨trivial, fun r => ih r _⟩

theorem refreshRoutes_follows (memory : Option (List AccountRow)) :
    refreshRoutes.Follows remember HandsOver (fun _ _ => True) memory := by
  have hread : (stored routeAccounts).Follows remember HandsOver
      (fun memory answer => ∃ rows, memory = some rows ∧ routeList rows = answer) memory :=
    ⟨trivial, fun rows => ⟨rows, rfl, rfl⟩⟩
  refine hread.bind ?_
  rintro memory (error | accounts) hrows
  · trivial
  · exact ⟨hrows, fun _ => trivial⟩

theorem resetAccountHealth_follows (accountId : String) (memory : Option (List AccountRow)) :
    (resetAccountHealth accountId).Follows remember HandsOver (fun _ _ => True) memory :=
  ⟨trivial, fun _ => trivial⟩

variable [Chrono] [Sealing]

/-- **Every handler hands over what it read last.** -/
theorem handler_follows (box : SecretBox) (request : Request)
    (memory : Option (List AccountRow)) :
    (request.handler box).Follows remember HandsOver (fun _ _ => True) memory := by
  refine handler_induct (R := fun p => ∀ memory,
    p.Follows remember HandsOver (fun _ _ => True) memory) ?_ ?_ ?_ ?_ ?_ ?_ ?_ ?_
      refreshRoutes_follows resetAccountHealth_follows request memory
  · exact fun _ _ => trivial
  · exact fun hp hf memory => (hp memory).bind fun memory a _ => hf a memory
  · exact fun _ => stored_follows _
  · exact fun _ _ _ => stored_follows _
  · exact fun _ _ _ _ => stored_follows _
  · exact fun _ _ => stored_follows _
  · exact fun _ => stored_follows _
  · exact fun _ _ _ _ _ _ => stored_follows _

/-! ## What one turn keeps -/

omit [Urls] [Sealing] [Chrono] in
theorem rows_exec {state : State} {o : Op} (h : o.writesAccounts = false) :
    accountRows (state.exec o).1.database = accountRows state.database := by
  cases o with
  | store s =>
      cases s with
      | upsert | rotate | replace | updateAccountJson | deleteAccount => cases h
      | selectAccount | selectAccounts | selectCredentials | insertAudit => rfl
  | replaceRouteAccounts accounts => rfl
  | resetAccountHealth accountId => rfl

omit [Sealing] [Chrono] in
theorem agrees_exec {state : State} {o : Op} (hwrites : o.writesAccounts = false)
    (hinstalls : o.installs = false) (h : state.Agrees) : (state.exec o).1.Agrees := by
  obtain ⟨accounts, hlist, hexposed⟩ := h
  refine ⟨accounts, (congrArg routeList (rows_exec hwrites)).trans hlist, fun id => ?_⟩
  rw [← hexposed id]
  cases o with
  | store s => rfl
  | replaceRouteAccounts accounts => cases hinstalls
  | resetAccountHealth accountId => exact exposed_resetAccountHealth _ _ _

omit [Sealing] [Chrono] in
/-- A router that is handed the list of the rows there are agrees. -/
theorem agrees_of_installed {state : State} {accounts : List RouteAccount}
    (h : routeList (accountRows state.database) = .ok accounts) :
    (state.exec (.replaceRouteAccounts accounts)).1.Agrees :=
  ⟨accounts, h, exposed_replaceAccounts _ _⟩

/-- **The invariant.** No count is ahead of the writes; a handler whose
list has seen every write remembers the rows there are; and the router
agrees once the list it has was read after every write. -/
structure Watched.Sound (watched : Watched ι) : Prop where
  seen_le : ∀ i, watched.seen i ≤ watched.written
  installed_le : watched.installed ≤ watched.written
  remembers : ∀ i, ∃ memory,
    (watched.pool.procs i).Follows remember HandsOver (fun _ _ => True) memory ∧
    ∀ rows, memory = some rows → watched.seen i = watched.written →
      rows = accountRows watched.pool.shared.database
  agrees : watched.installed = watched.written → watched.pool.shared.Agrees

omit [Urls] [Sealing] [Chrono] in
theorem Watched.turn_of_ret {watched : Watched ι} {i : ι} {answer : Except ApiError Reply}
    (h : watched.pool.procs i = .ret answer) : watched.turn i = watched := by
  simp only [Watched.turn, h, Prog.next?_ret]

omit [Urls] [Sealing] [Chrono] in
theorem Watched.turn_of_call {watched : Watched ι} {i : ι} {o : Op} {k : o.Resp → Handler}
    (h : watched.pool.procs i = .call o k) :
    watched.turn i = {
      pool := ⟨(watched.pool.shared.exec o).1,
        Function.update watched.pool.procs i (k (watched.pool.shared.exec o).2)⟩
      written := if o.writesAccounts then watched.written + 1 else watched.written
      seen := if o = .store .selectAccounts then
          Function.update watched.seen i watched.written
        else watched.seen
      installed := if o.installs then watched.seen i else watched.installed } := by
  simp only [Watched.turn, h, Prog.next?_call, Pool.turn_of_call h]

omit [Urls] [Sealing] [Chrono] in
theorem remember_of_ne {memory : Option (List AccountRow)} {o : Op}
    (h : o ≠ .store .selectAccounts) (r : o.Resp) : remember memory o r = memory := by
  cases o with
  | store s =>
      cases s with
      | selectAccounts => exact absurd rfl h
      | _ => rfl
  | _ => rfl

omit [Sealing] [Chrono] in
/-- A write leaves every count behind. -/
theorem Watched.Sound.of_write {watched : Watched ι} (h : watched.Sound) {i : ι} {o : Op}
    {k : o.Resp → Handler} (hproc : watched.pool.procs i = .call o k)
    (hwrites : o.writesAccounts = true) : (watched.turn i).Sound := by
  have hread : o ≠ .store .selectAccounts := by
    rintro rfl
    cases hwrites
  have hinstalls : o.installs = false := by
    cases o with
    | replaceRouteAccounts accounts => cases hwrites
    | _ => rfl
  rw [Watched.turn_of_call hproc]
  simp only [hwrites, if_true, if_neg hread, hinstalls]
  refine ⟨fun j => ?_, ?_, fun j => ?_, fun heq => ?_⟩
  · exact (h.seen_le j).trans (Nat.le_succ _)
  · exact h.installed_le.trans (Nat.le_succ _)
  · have hbehind := h.seen_le j
    obtain ⟨memory, hfollows, -⟩ := h.remembers j
    by_cases hj : j = i
    · subst hj
      rw [hproc] at hfollows
      refine ⟨remember memory o (watched.pool.shared.exec o).2, ?_, fun rows _ hseen => ?_⟩
      · simpa only [Function.update_self] using hfollows.2 _
      · change watched.seen j = watched.written + 1 at hseen
        omega
    · refine ⟨memory, ?_, fun rows _ hseen => ?_⟩
      · simpa only [Function.update_of_ne hj] using hfollows
      · change watched.seen j = watched.written + 1 at hseen
        omega
  · have hbehind := h.installed_le
    change watched.installed = watched.written + 1 at heq
    omega

omit [Sealing] [Chrono] in
/-- Reading the accounts brings a handler up to date. -/
theorem Watched.Sound.of_read {watched : Watched ι} (h : watched.Sound) {i : ι}
    {k : List AccountRow → Handler}
    (hproc : watched.pool.procs i = .call (.store .selectAccounts) k) :
    (watched.turn i).Sound := by
  rw [Watched.turn_of_call hproc]
  refine ⟨fun j => ?_, h.installed_le, fun j => ?_, fun heq => ?_⟩
  · by_cases hj : j = i
    · simp [hj, Op.writesAccounts]
    · simpa [hj, Op.writesAccounts] using h.seen_le j
  · obtain ⟨memory, hfollows, hrows⟩ := h.remembers j
    by_cases hj : j = i
    · subst hj
      rw [hproc] at hfollows
      refine ⟨some (accountRows watched.pool.shared.database), ?_, fun rows hmemory _ => ?_⟩
      · simp only [Function.update_self]
        exact hfollows.2 (accountRows watched.pool.shared.database)
      · exact (Option.some.inj hmemory).symm
    · refine ⟨memory, ?_, fun rows hmemory hseen => ?_⟩
      · simpa only [Function.update_of_ne hj] using hfollows
      · exact hrows rows hmemory (by simpa [hj, Op.writesAccounts] using hseen)
  · exact agrees_exec rfl rfl (h.agrees heq)

omit [Sealing] [Chrono] in
/-- Handing over a list brings the router to where the handler was, and
any other operation changes no count. -/
theorem Watched.Sound.of_other {watched : Watched ι} (h : watched.Sound) {i : ι} {o : Op}
    {k : o.Resp → Handler} (hproc : watched.pool.procs i = .call o k)
    (hwrites : o.writesAccounts = false) (hread : o ≠ .store .selectAccounts) :
    (watched.turn i).Sound := by
  rw [Watched.turn_of_call hproc]
  simp only [hwrites, if_neg hread]
  refine ⟨h.seen_le, ?_, fun j => ?_, fun heq => ?_⟩
  · dsimp only
    split
    · exact h.seen_le i
    · exact h.installed_le
  · obtain ⟨memory, hfollows, hrows⟩ := h.remembers j
    refine ⟨memory, ?_, fun rows hmemory hseen => ?_⟩
    · by_cases hj : j = i
      · subst hj
        rw [hproc] at hfollows
        have hnext := hfollows.2 (watched.pool.shared.exec o).2
        rw [remember_of_ne hread] at hnext
        simpa only [Function.update_self] using hnext
      · simpa only [Function.update_of_ne hj] using hfollows
    · exact (hrows rows hmemory hseen).trans (rows_exec hwrites).symm
  · cases o with
    | replaceRouteAccounts accounts =>
        change watched.seen i = watched.written at heq
        obtain ⟨memory, hfollows, hrows⟩ := h.remembers i
        rw [hproc] at hfollows
        obtain ⟨⟨rows, hmemory, hlist⟩, -⟩ := hfollows
        rw [hrows rows hmemory heq] at hlist
        exact agrees_of_installed hlist
    | store s => exact agrees_exec hwrites rfl (h.agrees heq)
    | resetAccountHealth accountId => exact agrees_exec rfl rfl (h.agrees heq)

omit [Sealing] [Chrono] in
theorem Watched.Sound.turn {watched : Watched ι} (h : watched.Sound) (i : ι) :
    (watched.turn i).Sound := by
  cases hproc : watched.pool.procs i with
  | ret answer => rwa [Watched.turn_of_ret hproc]
  | call o k =>
      cases hwrites : o.writesAccounts with
      | true => exact h.of_write hproc hwrites
      | false =>
          by_cases hread : o = .store .selectAccounts
          · subst hread
            exact h.of_read hproc
          · exact h.of_other hproc hwrites hread

/-! ## Runs -/

/-- The invariant holds throughout a run. -/
theorem sound_watched {state : State} (hstart : state.Agrees) (box : SecretBox)
    (requests : ι → Request) (schedule : List ι) :
    (watched box requests state schedule).Sound := by
  refine Run.final_induct_of_step (I := Watched.Sound) (fun _ i h => h.turn i) ?_
  refine ⟨fun _ => le_rfl, le_rfl, fun i => ⟨none, handler_follows box _ _, ?_⟩, fun _ => hstart⟩
  intro rows hmemory
  cases hmemory

/-- **A list that has seen every write.** Under any schedule of any number
of handlers, from a store and a router that agree: they agree whenever the
list that the router was handed last was read after the last write. -/
theorem agrees_of_seen {state : State} (hstart : state.Agrees) (box : SecretBox)
    (requests : ι → Request) (schedule : List ι)
    (hseen : (watched box requests state schedule).installed =
      (watched box requests state schedule).written) :
    (watched box requests state schedule).pool.shared.Agrees :=
  (sound_watched hstart box requests schedule).agrees hseen

/-! ## Telling the router -/

/-- Where a handler is with a write of its own: the router has been told
of it, or the accounts have not been read since, or they have and have not
been handed over. -/
inductive Phase where
  | told
  | wrote
  | read
deriving DecidableEq

/-- Where an operation brings it. -/
def Phase.after (phase : Phase) (o : Op) (_ : o.Resp) : Phase :=
  if o.writesAccounts then .wrote
  else if o = .store .selectAccounts then (if phase = .wrote then .read else phase)
  else if o.installs then (if phase = .read then .told else phase)
  else phase

/-- A part of a handler that comes to `Q` from a phase. -/
abbrev Comes {α : Type} (Q : Phase → α → Prop) (phase : Phase) (p : Part α) : Prop :=
  p.Follows Phase.after (fun _ _ => True) Q phase

/-- A section that has nothing to do with it. -/
def Quiet (s : Section) : Prop :=
  (Op.store s).writesAccounts = false ∧ s ≠ .selectAccounts

omit [Urls] [Sealing] [Chrono] in
theorem Quiet.after {s : Section} (h : Quiet s) (phase : Phase) (r : s.Resp) :
    phase.after (.store s) r = phase := by
  simp [Phase.after, h.1, h.2, Op.installs]

omit [Urls] [Sealing] [Chrono] in
theorem stored_quiet {α : Type} {p : Prog Section Section.Resp α}
    (h : p.Obeys Quiet (fun _ _ => True) fun _ => True) (phase : Phase) :
    Comes (fun phase' _ => phase' = phase) phase (stored p) := by
  induction p with
  | ret a => rfl
  | call s k ih =>
      refine ⟨trivial, fun r => ?_⟩
      rw [h.1.after]
      exact ih r (h.2 r trivial)

omit [Urls] [Chrono] in
theorem loadAccount_quiet (box : SecretBox) (accountId : String) :
    (loadAccount box accountId).Obeys Quiet (fun _ _ => True) fun _ => True :=
  ⟨⟨rfl, by simp⟩, fun _ _ => trivial⟩

omit [Urls] [Sealing] in
theorem appendAudit_quiet (event : AuditEvent) :
    (appendAudit event).Obeys Quiet (fun _ _ => True) fun _ => True :=
  ⟨⟨rfl, by simp⟩, fun _ _ => trivial⟩

/-- A write that succeeds is to be told of. -/
def Wrote {ε α : Type} (phase : Phase) (answer : Except ε α) : Prop :=
  answer.isOk = true → phase = .wrote

/-- An answer of success is given when the router has been told. -/
def Told {ε α : Type} (phase : Phase) (answer : Except ε α) : Prop :=
  answer.isOk = true → phase = .told

theorem writeCredential_wrote (box : SecretBox) (ambient : Ambient) (account : ProviderAccount)
    (credential : String) (rotates : Bool) (phase : Phase) :
    Comes Wrote phase (writeCredential box ambient account credential rotates) := by
  unfold writeCredential
  cases rotates with
  | true =>
      simp only [if_true, rotateAccountCredential]
      cases sealedRow box ambient.nonces account credential with
      | error error => exact fun h => by cases h
      | ok row => exact ⟨trivial, fun _ _ => rfl⟩
  | false =>
      simp only [Bool.false_eq_true, if_false, upsertAccount]
      cases sealedRow box ambient.nonces account credential with
      | error error => exact fun h => by cases h
      | ok row => exact ⟨trivial, fun _ _ => rfl⟩

omit [Urls] [Sealing] [Chrono] in
theorem setAccountEnabled_wrote (accountId : String) (enabled : Bool) (phase : Phase) :
    Comes Wrote phase (stored (setAccountEnabled accountId enabled)) := by
  refine ⟨trivial, fun row => ?_⟩
  cases row with
  | none => exact fun h => by cases h
  | some row =>
      dsimp only
      cases Serde.accountFromStr row.accountJson with
      | error error => exact fun h => by cases h
      | ok account => exact ⟨trivial, fun _ _ => rfl⟩

omit [Urls] [Sealing] [Chrono] in
theorem deleteAccount_wrote (accountId : String) (phase : Phase) :
    Comes Wrote phase (stored (deleteAccount accountId)) :=
  ⟨trivial, fun _ _ => rfl⟩

omit [Sealing] [Chrono] in
theorem refreshRoutes_told : Comes Told .wrote refreshRoutes := by
  have hread : Comes (fun phase _ => phase = .read) .wrote (stored routeAccounts) :=
    ⟨trivial, fun _ => rfl⟩
  refine hread.bind ?_
  rintro phase (error | accounts) rfl
  · exact fun h => by cases h
  · exact ⟨trivial, fun _ _ => rfl⟩

omit [Sealing] in
theorem finishWrite_told (ambient : Ambient) (action accountId : String)
    {written : Except StorageError Unit} {phase : Phase} (h : Wrote phase written) :
    Comes Told phase (finishWrite ambient action accountId written) := by
  unfold finishWrite
  cases written with
  | error error => exact fun h => by cases h
  | ok done =>
      obtain rfl : phase = .wrote := h rfl
      refine (stored_quiet (appendAudit_quiet _) .wrote).bind fun phase _ hphase => ?_
      subst hphase
      refine refreshRoutes_told.bind fun phase answer htold => ?_
      cases answer with
      | error error => exact fun h => by cases h
      | ok done => exact fun _ => htold rfl

/-- **Success means the router was told**, but for the handler that
rotates a credential, which tells it nothing. -/
theorem handler_told (box : SecretBox) {request : Request}
    (h : ∀ ambient accountId credential, request ≠ .rotate ambient accountId credential) :
    Comes Told .told (request.handler box) := by
  cases request with
  | create ambient input =>
      simp only [Request.handler, adminCreateAccountApi]
      cases validateAccountInput input with
      | error message => exact fun h => by cases h
      | ok done =>
          have hrotates : Comes (fun _ _ => True) .told (createRotates box input.account) := by
            unfold createRotates
            split
            · exact (stored_quiet (loadAccount_quiet box _) .told).bind fun _ _ _ => trivial
            · trivial
          refine hrotates.bind fun phase rotates _ => ?_
          unfold createAccount
          refine (writeCredential_wrote _ _ _ _ _ phase).bind fun phase answer hwrote => ?_
          cases answer with
          | error error => exact fun h => by cases h
          | ok done =>
              obtain rfl : phase = .wrote := hwrote rfl
              refine (stored_quiet (appendAudit_quiet _) .wrote).bind fun phase _ hphase => ?_
              subst hphase
              refine refreshRoutes_told.bind fun phase answer htold => ?_
              cases answer with
              | error error => exact fun h => by cases h
              | ok done =>
                  obtain rfl : phase = .told := htold rfl
                  refine ⟨trivial, fun answer => ?_⟩
                  cases answer with
                  | error error => exact fun h => by cases h
                  | ok done => exact fun _ => rfl
  | rotate ambient accountId credential => exact absurd rfl (h _ _ _)
  | setEnabled ambient accountId enabled =>
      exact (setAccountEnabled_wrote _ _ _).bind fun _ _ hwrote => finishWrite_told _ _ _ hwrote
  | delete ambient accountId =>
      exact (deleteAccount_wrote _ _).bind fun _ _ hwrote => finishWrite_told _ _ _ hwrote

/-- **Lists in order.** A list that is about to be handed over has seen
every write that the one the router has had seen. -/
def Watched.InOrder (watched : Watched ι) (i : ι) : Prop :=
  ∀ o ∈ (watched.pool.procs i).next?, o.installs = true → watched.installed ≤ watched.seen i

instance (watched : Watched ι) (i : ι) : Decidable (watched.InOrder i) :=
  inferInstanceAs (Decidable (∀ o ∈ (watched.pool.procs i).next?, _))

/-- **No write is forgotten**: the router has been told of all of them, or
some handler is still to tell it of the last. -/
def Watched.Covered (watched : Watched ι) : Prop :=
  ∃ phases : ι → Phase, (∀ i, Comes Told (phases i) (watched.pool.procs i)) ∧
    (watched.installed = watched.written ∨
      ∃ i, phases i = .wrote ∨ (phases i = .read ∧ watched.seen i = watched.written))

omit [Sealing] [Chrono] in
theorem Watched.Covered.turn {watched : Watched ι} (h : watched.Covered)
    (hsound : watched.Sound) {i : ι} (horder : watched.InOrder i) : (watched.turn i).Covered := by
  obtain ⟨phases, hcomes, hcovered⟩ := h
  cases hproc : watched.pool.procs i with
  | ret answer =>
      rw [Watched.turn_of_ret hproc]
      exact ⟨phases, hcomes, hcovered⟩
  | call o k =>
      have hself : Comes Told ((phases i).after o (watched.pool.shared.exec o).2)
          (k (watched.pool.shared.exec o).2) := by
        have hcall := hcomes i
        rw [hproc] at hcall
        exact hcall.2 _
      have hinorder := horder o (by rw [hproc]; rfl)
      rw [Watched.turn_of_call hproc]
      refine ⟨Function.update phases i ((phases i).after o (watched.pool.shared.exec o).2),
        fun j => ?_, ?_⟩
      · by_cases hj : j = i
        · subst hj
          simpa only [Function.update_self] using hself
        · simpa only [Function.update_of_ne hj] using hcomes j
      · dsimp only
        cases hwrites : o.writesAccounts with
        | true => exact .inr ⟨i, .inl (by simp [Phase.after, hwrites])⟩
        | false =>
            rcases hcovered with heq | ⟨j, hj⟩
            · -- the router knew of every write, and is handed no older list
              refine .inl ?_
              simp only [Bool.false_eq_true, if_false]
              split
              · rename_i hinstalls
                have hle := hinorder hinstalls
                have hseen := hsound.seen_le i
                omega
              · exact heq
            · by_cases hji : j = i
              · -- the handler that was to tell the router has its turn
                subst hji
                by_cases hread : o = .store .selectAccounts
                · subst hread
                  refine .inr ⟨j, .inr ?_⟩
                  rcases hj with hj | ⟨hj, -⟩ <;> simp [Phase.after, hj, Op.writesAccounts]
                · cases hinstalls : o.installs with
                  | true =>
                      rcases hj with hj | ⟨hj, hseen⟩
                      · exact .inr ⟨j, .inl (by simp [Phase.after, hj, hwrites, hread])⟩
                      · exact .inl (by simpa using hseen)
                  | false =>
                      refine .inr ⟨j, ?_⟩
                      simpa [Phase.after, hwrites, hread, hinstalls] using hj
              · refine .inr ⟨j, ?_⟩
                have hseen : (if o = .store .selectAccounts then
                    Function.update watched.seen i watched.written else watched.seen) j =
                    watched.seen j := by
                  split
                  · exact Function.update_of_ne hji _ _
                  · rfl
                simpa [Function.update_of_ne hji, hseen] using hj

/-- **When the router agrees with the store.** Handlers that create, pause,
resume and delete accounts run under any schedule, from a store and a
router that agree. If no list is handed over that has seen fewer writes
than the one the router has, then once all handlers have answered success
the router agrees with the store; in particular an account that is paused
or gone in the store is not enabled in the router. -/
theorem agrees_of_inOrder {state : State} (hstart : state.Agrees) (box : SecretBox)
    (requests : ι → Request)
    (hrequests : ∀ i ambient accountId credential,
      requests i ≠ .rotate ambient accountId credential)
    (schedule : List ι)
    (horder : Run.Along Watched.turn Watched.InOrder (watched box requests state []) schedule)
    (hdone : ∀ i, ∃ reply,
      ((watched box requests state schedule).pool.procs i).result? = some (.ok reply)) :
    (watched box requests state schedule).pool.shared.Agrees := by
  have hboth : (watched box requests state schedule).Sound ∧
      (watched box requests state schedule).Covered := by
    refine Run.final_induct (I := fun watched : Watched ι => watched.Sound ∧ watched.Covered)
      (fun watched i h hi => ⟨h.1.turn i, h.2.turn h.1 hi⟩) ⟨?_, ?_⟩ horder
    · exact sound_watched hstart box requests []
    · exact ⟨fun _ => .told, fun i => handler_told box (hrequests i), .inl rfl⟩
  obtain ⟨phases, hcomes, heq | ⟨i, hi⟩⟩ := hboth.2
  · exact agrees_of_seen hstart box requests schedule heq
  · -- a handler that has answered success has told the router
    exfalso
    obtain ⟨reply, hreply⟩ := hdone i
    have hcome := hcomes i
    cases hproc : (watched box requests state schedule).pool.procs i with
    | call o k =>
        rw [hproc] at hreply
        cases hreply
    | ret answer =>
        rw [hproc] at hreply hcome
        obtain rfl : answer = .ok reply := Option.some.inj hreply
        have htold : phases i = .told := hcome rfl
        rcases hi with hi | ⟨hi, -⟩ <;> simp [hi] at htold

end Watched

section Example

open scoped Plain

/-- A store of one account, and the router made from it. -/
def routedState : State where
  database := ((Storage.Op.upsert ⟨Vector.replicate 24 0, Vector.replicate 24 1⟩
    (Plain.account "a" .anthropicApiKey true) "key").apply Plain.box .empty).1
  router := .new [⟨"a", "anthropic_api_key", true, true, 0, 0, ∅, none⟩]

/-- An administrator creates a second account, and another pauses the
first. -/
def routedRequests : Fin 2 → Request
  | 0 => .create ⟨0, 0, Vector.replicate 24 2, Vector.replicate 24 3⟩
      ⟨"b", "b", .anthropicApiKey, (Plain.account "b" .anthropicApiKey true).baseUrl, true, ∅, [],
        none, none, "key"⟩
  | 1 => .setEnabled ⟨0, 0, Vector.replicate 24 4, Vector.replicate 24 5⟩ "a" false

theorem routedState_agrees : routedState.Agrees :=
  ⟨[⟨"a", "anthropic_api_key", true, true, 0, 0, ∅, none⟩], by decide +kernel, fun _ => rfl⟩

/-- The two handlers interleaved, with their lists handed over in
order. -/
theorem agrees_in_order :
    (watched Plain.box routedRequests routedState
          [0, 1, 0, 1, 1, 0, 0, 1, 1, 0]).pool.shared.Agrees := by
  refine agrees_of_inOrder routedState_agrees _ _ ?_ _ (by decide +kernel) ?_
  · intro i ambient accountId credential
    match i with
    | 0 => exact Request.noConfusion
    | 1 => exact Request.noConfusion
  · intro i
    match i with
    | 0 => exact ⟨⟨201, some "b"⟩, by decide +kernel⟩
    | 1 => exact ⟨⟨204, none⟩, by decide +kernel⟩

/-- **A stale list that is handed over last.** The first handler reads the
accounts, the second pauses one of them and tells the router, and then the
first hands over what it read. Both succeed; the account is paused in the
store, and the router has it enabled. -/
theorem stale_list_installed_last :
    let last := watched Plain.box routedRequests routedState [0, 0, 0, 1, 1, 1, 1, 1, 0, 0]
    routedState.Agrees ∧
      (last.pool.procs 0).result? = some (.ok ⟨201, some "b"⟩) ∧
      (last.pool.procs 1).result? = some (.ok ⟨204, none⟩) ∧
      (last.pool.shared.database.providerAccounts["a"]?.map fun row => row.accountJson.enabled) =
        some false ∧
      (last.pool.shared.router.accounts["a"]?.map fun account => account.enabled) = some true ∧
      ¬ last.pool.shared.Agrees := by
  refine ⟨routedState_agrees, by decide +kernel, by decide +kernel, by decide +kernel,
    by decide +kernel, ?_⟩
  rintro ⟨accounts, hlist, hexposed⟩
  have hlisted : ((routeAccounts.run Database.exec (watched Plain.box routedRequests routedState
      [0, 0, 0, 1, 1, 1, 1, 1, 0, 0]).pool.shared.database).2.toOption.map fun accounts =>
        (Router.new accounts).accounts["a"]?.map exposed) = some (some (false, ∅)) := by
    decide +kernel
  have hrouted : ((watched Plain.box routedRequests routedState
      [0, 0, 0, 1, 1, 1, 1, 1, 0, 0]).pool.shared.router.accounts["a"]?.map exposed) =
        some (true, ∅) := by
    decide +kernel
  rw [hlist] at hlisted
  have hsame := (hexposed "a").symm.trans hrouted
  simp [Except.toOption, hsame] at hlisted

end Example

end Admin

end Llmap
