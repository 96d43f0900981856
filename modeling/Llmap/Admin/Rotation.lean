import Llmap.Admin.Metadata
import Llmap.Admin.Report
import Llmap.Common.InStep
/-!
# Rotating a credential beside other writes

`admin_rotate_account_credential_api` loads the whole account under one
lock and writes it back, with the new credential, under another. What
other handlers did to the account in between is lost: a pause is undone, an
account that was deleted is there again (`rotation_undoes_pause`).

What the others would have left is what they leave in the same schedule
without the rotation. The two runs are kept in step: rows are related by
what they have but credentials (`Same`), and the other handlers make the
same calls of them. The rotation's one write keeps rows related exactly if
the account it writes back is the one it finds.
-/

namespace Llmap

namespace Admin

open Providers Secrets Routing Storage

/-! ## With the rotation and without it -/

section InStep

variable [Serde] [Sealing]

/-- The row an operation puts, and the id it puts it under. -/
def Op.put? : Op → Option (String × AccountRow)
  | .store (.upsert id row) => some (id, row)
  | .store (.rotate id row _) => some (id, row)
  | _ => none

/-- **Calls in pairs**, with and without the rotation: the same id is read,
and found to have the same; the same row is put, by a rotation or not; a
text with the same is written back; the same id is deleted. -/
inductive Pairs (box : SecretBox) : (o o' : Op) → (o.Resp → o'.Resp → Prop) → Prop
  | read (id : String) : Pairs box (.store (.selectAccount id)) (.store (.selectAccount id))
      (Option.Rel (Same box))
  | put {id : String} {row : AccountRow} {o o' : Op} (h : o.put? = some (id, row))
      (h' : o'.put? = some (id, row)) : Pairs box o o' fun _ _ => True
  | flag (id : String) {text text' : Serde.AccountJson}
      (h : (Serde.accountFromStr text).map withoutEgress =
        (Serde.accountFromStr text').map withoutEgress) :
      Pairs box (.store (.updateAccountJson id text)) (.store (.updateAccountJson id text'))
        fun _ _ => True
  | delete (id : String) : Pairs box (.store (.deleteAccount id)) (.store (.deleteAccount id)) Eq

/-- States whose rows have the same. -/
def Related (box : SecretBox) (state state' : State) : Prop :=
  ∀ id : String, Option.Rel (Same box) state.database.providerAccounts[id]?
    state'.database.providerAccounts[id]?

variable {box : SecretBox} {state state' : State} {o o' : Op}

theorem Related.metadata_eq (h : Related box state state') (id : String) :
    metadata box state.database id = metadata box state'.database id := by
  have hid := h id
  unfold metadata
  generalize state.database.providerAccounts[id]? = row at hid ⊢
  generalize state'.database.providerAccounts[id]? = row' at hid ⊢
  cases hid with
  | none => rfl
  | some hsame => exact congrArg some hsame.hydrated_eq

theorem related_refl (box : SecretBox) (state : State) : Related box state state := by
  intro id
  cases state.database.providerAccounts[id]? with
  | none => exact .none
  | some row => exact .some (.refl box row)

omit [Sealing] in
theorem accounts_exec_of_puts {id : String} {row : AccountRow} (h : o.put? = some (id, row))
    (id' : String) :
    (state.exec o).1.database.providerAccounts[id']? =
      if id = id' then some row else state.database.providerAccounts[id']? := by
  cases o with
  | replaceRouteAccounts accounts => cases h
  | resetAccountHealth accountId => cases h
  | store s =>
      cases s with
      | upsert id row =>
          obtain ⟨rfl, rfl⟩ := Prod.mk.inj (Option.some.inj h)
          exact Database.accounts_upsert _ _ _ _
      | rotate id row expiresAt =>
          obtain ⟨rfl, rfl⟩ := Prod.mk.inj (Option.some.inj h)
          exact Database.accounts_rotate _ _ _ _ _
      | _ => cases h

/-- The same row put on both sides. -/
theorem Related.put (h : Related box state state') {id : String} {row : AccountRow}
    (ho : o.put? = some (id, row)) (ho' : o'.put? = some (id, row)) :
    Related box (state.exec o).1 (state'.exec o').1 := by
  intro id'
  rw [accounts_exec_of_puts ho, accounts_exec_of_puts ho']
  split
  · exact .some (.refl box row)
  · exact h id'

/-- A row put on one side, where there is one that has the same. -/
theorem Related.put_left (h : Related box state state') {id : String} {row before : AccountRow}
    (ho : o.put? = some (id, row)) (hbefore : state.database.providerAccounts[id]? = some before)
    (hsame : Same box row before) : Related box (state.exec o).1 state' := by
  intro id'
  rw [accounts_exec_of_puts ho]
  split
  · rename_i hid
    subst hid
    have hid := h id
    rw [hbefore] at hid
    generalize state'.database.providerAccounts[id]? = row' at hid ⊢
    cases hid with
    | some hother => exact .some (hsame.trans hother)
  · exact h id'

/-- The same id deleted on both sides, with the same answer. -/
theorem Related.delete (h : Related box state state') (id : String) :
    Related box (state.exec (.store (.deleteAccount id))).1
        (state'.exec (.store (.deleteAccount id))).1 ∧
      (state.exec (.store (.deleteAccount id))).2 =
        (state'.exec (.store (.deleteAccount id))).2 := by
  refine ⟨fun id' => ?_, ?_⟩
  · change Option.Rel _ (state.database.exec (.deleteAccount id)).1.providerAccounts[id']?
      (state'.database.exec (.deleteAccount id)).1.providerAccounts[id']?
    rw [Database.accounts_deleteAccount, Database.accounts_deleteAccount]
    split
    · exact .none
    · exact h id'
  · have hid := h id
    simp only [State.exec, Database.exec, Std.ExtTreeMap.contains_eq_isSome_getElem?]
    generalize state.database.providerAccounts[id]? = row at hid ⊢
    generalize state'.database.providerAccounts[id]? = row' at hid ⊢
    cases hid <;> rfl

/-- Texts that have the same, written back on both sides, where they leave
the endpoints. -/
theorem Related.flag (h : Related box state state') (id : String)
    {text text' : Serde.AccountJson}
    (htext : (Serde.accountFromStr text).map withoutEgress =
      (Serde.accountFromStr text').map withoutEgress)
    (hfits : ∀ row, state.database.providerAccounts[id]? = some row →
      endpoints box { row with accountJson := text } = endpoints box row)
    (hfits' : ∀ row, state'.database.providerAccounts[id]? = some row →
      endpoints box { row with accountJson := text' } = endpoints box row) :
    Related box (state.exec (.store (.updateAccountJson id text))).1
      (state'.exec (.store (.updateAccountJson id text'))).1 := by
  intro id'
  change Option.Rel _ (state.database.exec (.updateAccountJson id text)).1.providerAccounts[id']?
    (state'.database.exec (.updateAccountJson id text')).1.providerAccounts[id']?
  rw [Database.accounts_updateAccountJson, Database.accounts_updateAccountJson]
  split
  · have hid := h id
    generalize state.database.providerAccounts[id]? = row at hid hfits ⊢
    generalize state'.database.providerAccounts[id]? = row' at hid hfits' ⊢
    cases hid with
    | none => exact .none
    | some hsame =>
        refine .some ⟨htext, ?_⟩
        rw [hfits _ rfl, hfits' _ rfl]
        exact hsame.egress
  · exact h id'

theorem Related.idle_left (h : Related box state state') (ho : o.writesAccounts = false) :
    Related box (state.exec o).1 state' := by
  intro id
  rw [accounts_exec_of_idle ho]
  exact h id

theorem Related.idle_right (h : Related box state state') (ho : o.writesAccounts = false) :
    Related box state (state'.exec o).1 := by
  intro id
  rw [accounts_exec_of_idle ho]
  exact h id

variable [Urls] {ι : Type} [DecidableEq ι] {r : ι}

/-- Handlers that share the store and the router. -/
abbrev Handlers (ι : Type) := Pool ι State Op Op.Resp (Except ApiError Reply)

omit [DecidableEq ι] in
/-- A text that is about to be written back fits. -/
theorem Sound.endpoints_eq {pool : Handlers ι} (h : Sound box pool) {i : ι} {id : String}
    {text : Serde.AccountJson} {k : Unit → Handler}
    (hproc : pool.procs i = .call (.store (.updateAccountJson id text)) k) {row : AccountRow}
    (hrow : pool.shared.database.providerAccounts[id]? = some row) :
    endpoints box { row with accountJson := text } = endpoints box row := by
  obtain ⟨memory, hfollows, hfresh⟩ := h.procs i
  rw [hproc] at hfollows
  obtain ⟨account, enabled, hmemory, rfl⟩ := hfollows.1
  exact (hfresh id account hmemory).2 row hrow enabled

/-- **The account is still there**: what the rotation is about to write has
the account that is stored under its id. -/
def WritesBack (box : SecretBox) (r : ι) (pool : Handlers ι) (i : ι) : Prop :=
  i = r → ∀ o ∈ (pool.procs i).next?, ∀ put ∈ o.put?,
    metadata box pool.shared.database put.1 = some (hydrated box put.2)

instance (box : SecretBox) (r : ι) (pool : Handlers ι) (i : ι) :
    Decidable (WritesBack box r pool i) :=
  inferInstanceAs (Decidable (i = r → ∀ o ∈ (pool.procs i).next?, ∀ put ∈ o.put?,
    metadata box pool.shared.database put.1 = some (hydrated box put.2)))

/-- What is idle with the rotation: anything that writes no account, and
the write of the rotation. -/
def IdleWith (box : SecretBox) (r i : ι) (o : Op) : Prop :=
  o.writesAccounts = false ∨ i = r ∧ ∃ id row account, o.put? = some (id, row) ∧
    hydrated box row = .ok account

omit [Urls] [DecidableEq ι] in
/-- The write of the rotation keeps the rows related, if the account is
still there. -/
theorem Related.write_left {pool : Handlers ι} (h : Related box pool.shared state')
    {id : String} {row : AccountRow} {account : ProviderAccount}
    (ho : o.put? = some (id, row))
    (hrow : hydrated box row = .ok account)
    (hfound : metadata box pool.shared.database id = some (hydrated box row)) :
    Related box (pool.shared.exec o).1 state' := by
  obtain ⟨before, hbefore, hsame⟩ := Option.map_eq_some_iff.mp hfound
  exact h.put_left ho hbefore (same_of_hydrated hrow (hsame.trans hrow))

/-- What keeps the handlers with the rotation and without it in step. -/
theorem keeps_inStep [LawfulSerde] [LawfulSealing] (box : SecretBox) (r : ι) :
    Pool.Keeps (ι := ι) State.exec (Related box) (Sound box) (WritesBack box r) (IdleWith box r)
      (fun _ o => o.writesAccounts = false) (Pairs box) where
  turn i h := h.turn i
  call := by
    intro pool pool' i o o' k k' R h hsound hsound' hproc hproc' hpair
    cases hpair with
    | read id => exact ⟨h, h id⟩
    | put ho ho' => exact ⟨h.put ho ho', trivial⟩
    | flag id htext =>
        refine ⟨h.flag id htext (fun row hrow => ?_) (fun row hrow => ?_), trivial⟩
        · exact hsound.endpoints_eq hproc hrow
        · exact hsound'.endpoints_eq hproc' hrow
    | delete id => exact h.delete id
  left := by
    rintro pool state' i o k h - hwrites hproc (hidle | ⟨rfl, id, row, account, ho, hrow⟩)
    · exact h.idle_left hidle
    · refine h.write_left ho hrow (hwrites rfl o ?_ (id, row) ho)
      rw [hproc]
      rfl
  right h ho := h.idle_right ho

/-! ## The handlers in step -/

omit [Sealing] [Urls] in
/-- A part of a handler that writes no account. -/
abbrev Idle {α : Type} (p : Part α) : Prop :=
  p.Obeys (fun o => o.writesAccounts = false) (fun _ _ => True) fun _ => True

variable [Chrono]

omit [Sealing] [Chrono] in
theorem idle_refreshRoutes : Idle refreshRoutes := by
  refine Prog.Obeys.bind (P := fun _ => True) ⟨rfl, fun _ _ => trivial⟩ ?_
  rintro (error | accounts) -
  · trivial
  · exact ⟨rfl, fun _ _ => trivial⟩

omit [Sealing] in
theorem idle_finishWrite (ambient : Ambient) (action accountId : String)
    (written : Except StorageError Unit) : Idle (finishWrite ambient action accountId written) := by
  cases written with
  | error error => trivial
  | ok done =>
      refine ⟨rfl, fun _ _ => idle_refreshRoutes.bind ?_⟩
      rintro (error | _) -
      · trivial
      · trivial

/-- **A credential that is written**: its row is put, if it can be sealed,
and what is idle after it is idle after all. -/
theorem writeCredential_cases (box : SecretBox) (ambient : Ambient) (account : ProviderAccount)
    (credential : String) (rotates : Bool) {rest : Except StorageError Unit → Handler}
    (hrest : ∀ written, Idle (rest written)) :
    (∃ error, sealedRow box ambient.nonces account credential = .error error ∧
        Idle (writeCredential box ambient account credential rotates >>= rest)) ∨
      ∃ row o k, sealedRow box ambient.nonces account credential = .ok row ∧
        (writeCredential box ambient account credential rotates >>= rest) = .call o k ∧
        o.put? = some (account.id, row) ∧ ∀ answer, Idle (k answer) := by
  cases hrow : sealedRow box ambient.nonces account credential with
  | error error =>
      refine .inl ⟨error, rfl, ?_⟩
      cases rotates with
      | true =>
          simp only [writeCredential, rotateAccountCredential, hrow]
          exact hrest _
      | false =>
          simp only [writeCredential, upsertAccount, hrow]
          exact hrest _
  | ok row =>
      refine .inr ?_
      cases rotates with
      | true =>
          simp only [writeCredential, rotateAccountCredential, hrow]
          exact ⟨row, _, _, rfl, rfl, rfl, fun _ => hrest _⟩
      | false =>
          simp only [writeCredential, upsertAccount, hrow]
          exact ⟨row, _, _, rfl, rfl, rfl, fun _ => hrest _⟩

variable (box) in
/-- Programs of one handler, with the rotation and without it. -/
abbrev Together (r i : ι) (p p' : Handler) : Prop :=
  p.InStep (IdleWith box r i) (fun o => o.writesAccounts = false) (Pairs box) p'

variable {i : ι}

omit [Urls] [DecidableEq ι] [Chrono] in
theorem together_of_idle {p p' : Handler} (h : Idle p) (h' : Idle p') :
    Together box r i p p' :=
  .idle (h.mono fun _ => .inl) h'

omit [DecidableEq ι] in
theorem together_write {ambient : Ambient} {account : ProviderAccount} {credential : String}
    {rotates rotates' : Bool} {rest : Except StorageError Unit → Handler}
    (hrest : ∀ written, Idle (rest written)) :
    Together box r i (writeCredential box ambient account credential rotates >>= rest)
      (writeCredential box ambient account credential rotates' >>= rest) := by
  obtain ⟨error, hrow, hidle⟩ | ⟨row, o, k, hrow, hcall, hputs, hk⟩ :=
    writeCredential_cases box ambient account credential rotates hrest
  · obtain ⟨error', -, hidle'⟩ | ⟨row', o', k', hrow', -⟩ :=
      writeCredential_cases box ambient account credential rotates' hrest
    · exact together_of_idle hidle hidle'
    · rw [hrow] at hrow'
      cases hrow'
  · obtain ⟨error', hrow', -⟩ | ⟨row', o', k', hrow', hcall', hputs', hk'⟩ :=
      writeCredential_cases box ambient account credential rotates' hrest
    · rw [hrow] at hrow'
      cases hrow'
    · obtain rfl : row = row' := Except.ok.inj (hrow.symm.trans hrow')
      rw [hcall, hcall']
      exact .call (.put hputs hputs') fun answer answer' _ =>
        together_of_idle (hk answer) (hk' answer')

omit [DecidableEq ι] in
theorem together_createAccount (ambient : Ambient) (account : ProviderAccount)
    (credential : String) (rotates rotates' : Bool) :
    Together box r i (createAccount box ambient account credential rotates)
      (createAccount box ambient account credential rotates') := by
  refine together_write fun written => ?_
  cases written with
  | error error => trivial
  | ok done =>
      refine ⟨rfl, fun _ _ => idle_refreshRoutes.bind ?_⟩
      rintro (error | _) -
      · trivial
      · refine ⟨rfl, ?_⟩
        rintro (error | _) -
        · trivial
        · trivial

omit [DecidableEq ι] in
theorem together_setEnabled [LawfulSerde] (ambient : Ambient) (accountId : String)
    (enabled : Bool) :
    Together box r i (adminSetAccountEnabledApi ambient accountId enabled)
      (adminSetAccountEnabledApi ambient accountId enabled) := by
  have hrest := idle_finishWrite ambient (if enabled then "account.resume" else "account.pause")
    accountId
  refine .call (.read accountId) ?_
  rintro _ _ (⟨htext, -⟩ | _)
  · rename_i row row'
    cases hread : Serde.accountFromStr row.accountJson with
    | error error =>
        cases hread' : Serde.accountFromStr row'.accountJson with
        | error error' =>
            simp only [hread, hread']
            exact together_of_idle (hrest (.error (.invalidAccount error)))
              (hrest (.error (.invalidAccount error')))
        | ok account' =>
            rw [hread, hread'] at htext
            cases htext
    | ok account =>
        cases hread' : Serde.accountFromStr row'.accountJson with
        | error error' =>
            rw [hread, hread'] at htext
            cases htext
        | ok account' =>
            rw [hread, hread'] at htext
            simp only [hread, hread']
            refine .call (.flag accountId ?_) fun _ _ _ =>
              together_of_idle (hrest (.ok ())) (hrest (.ok ()))
            rw [LawfulSerde.accountFromStr_toString, LawfulSerde.accountFromStr_toString]
            have hflagged := congrArg (fun account : ProviderAccount =>
              { account with enabled := enabled }) (Except.ok.inj htext)
            exact congrArg Except.ok hflagged
  · exact together_of_idle (hrest (.error .notFound)) (hrest (.error .notFound))

omit [DecidableEq ι] in
/-- **A handler that does not rotate** keeps in step with itself. -/
theorem together_handler [LawfulSerde] {request : Request}
    (h : ∀ ambient accountId credential, request ≠ .rotate ambient accountId credential) :
    Together box r i (request.handler box) (request.handler box) := by
  cases request with
  | rotate ambient accountId credential => exact absurd rfl (h ambient accountId credential)
  | setEnabled ambient accountId enabled => exact together_setEnabled ambient accountId enabled
  | delete ambient accountId =>
      have hrest := idle_finishWrite ambient "account.delete" accountId
      refine .call (.delete accountId) ?_
      rintro deleted _ rfl
      exact together_of_idle (hrest (if deleted then .ok () else .error .notFound))
        (hrest (if deleted then .ok () else .error .notFound))
  | create ambient input =>
      simp only [Request.handler, adminCreateAccountApi]
      cases validateAccountInput input with
      | error message => exact together_of_idle trivial trivial
      | ok done =>
          simp only [createRotates]
          split
          · unfold loadAccount
            exact .call (.read input.account.id) fun row row' _ =>
              together_createAccount ambient input.account input.credential
                (loadedRow box input.account.id row).isOk (loadedRow box input.account.id row').isOk
          · exact together_createAccount ambient input.account input.credential false false

/-! ## The rotation -/

variable [LawfulSerde] [LawfulSealing]

omit [DecidableEq ι] [Chrono] in
/-- A row that was sealed holds the account that was. -/
theorem hydrated_of_sealedRow {nonces : WriteNonces} {account : ProviderAccount}
    {credential : String} {row : AccountRow}
    (h : sealedRow box nonces account credential = .ok row) : hydrated box row = .ok account := by
  obtain ⟨redacted, hstored, -, hfilled⟩ := sealedRow_spec h
  unfold hydrated
  rw [hstored]
  exact hfilled

omit [DecidableEq ι] in
/-- A write of the rotation puts a row that holds an account. -/
theorem obeys_write {ambient : Ambient} {account : ProviderAccount} {credential : String}
    {rotates : Bool} {rest : Except StorageError Unit → Handler}
    (hrest : ∀ written, Idle (rest written)) :
    (writeCredential box ambient account credential rotates >>= rest).Obeys (IdleWith box r r)
      (fun _ _ => True) fun _ => True := by
  obtain ⟨error, -, hidle⟩ | ⟨row, o, k, hrow, hcall, hputs, hk⟩ :=
    writeCredential_cases box ambient account credential rotates hrest
  · exact hidle.mono fun _ => .inl
  · rw [hcall]
    refine ⟨.inr ⟨rfl, account.id, row, account, hputs, hydrated_of_sealedRow hrow⟩,
      fun answer _ => ?_⟩
    exact (hk answer).mono fun _ => .inl

omit [DecidableEq ι] in
/-- The rotation writes one row, which holds the account it loaded. -/
theorem idleWith_rotate (ambient : Ambient) (accountId credential : String) :
    (adminRotateAccountCredentialApi box ambient accountId credential).Obeys (IdleWith box r r)
      (fun _ _ => True) fun _ => True := by
  unfold adminRotateAccountCredentialApi
  split
  · trivial
  · unfold loadAccount
    simp only [stored, Prog.lift, Prog.call_bind, Prog.ret_bind]
    refine ⟨.inl rfl, fun row _ => ?_⟩
    dsimp only
    cases loadedRow box accountId row with
    | error error => trivial
    | ok loaded =>
        refine obeys_write fun written => ?_
        cases written with
        | error error => trivial
        | ok done =>
            refine ⟨rfl, ?_⟩
            rintro (error | _) -
            · trivial
            · exact ⟨rfl, fun _ _ => trivial⟩

/-- Handlers of requests, from a state they share. -/
def beside (box : SecretBox) (requests : ι → Request) (state : State) : Handlers ι :=
  ⟨state, fun i => (requests i).handler box⟩

/-- The same handlers but for one, which does nothing. -/
def without (box : SecretBox) (requests : ι → Request) (r : ι) (state : State) : Handlers ι :=
  ⟨state, Function.update (fun i => (requests i).handler box) r (.ret (.ok ⟨204, none⟩))⟩

omit [DecidableEq ι] [LawfulSerde] [LawfulSealing] in
theorem sound_beside {state : State} (hkeyed : Keyed state.database) (requests : ι → Request) :
    Sound box (beside box requests state) :=
  ⟨hkeyed, fun i => ⟨none, careful_handler box (requests i) none, by rintro _ _ ⟨⟩⟩⟩

omit [LawfulSerde] [LawfulSealing] in
theorem sound_without {state : State} (hkeyed : Keyed state.database) (requests : ι → Request) :
    Sound box (without box requests r state) := by
  refine ⟨hkeyed, fun i => ⟨none, ?_, by rintro _ _ ⟨⟩⟩⟩
  by_cases hi : i = r
  · subst hi
    simp only [without, Function.update_self]
    trivial
  · simp only [without, Function.update_of_ne hi]
    exact careful_handler box (requests i) none

/-- The handlers with the rotation and without it set out in step. -/
theorem inStep_start {state : State} (hkeyed : Keyed state.database) {requests : ι → Request}
    {ambient : Ambient} {accountId credential : String}
    (hrotate : requests r = .rotate ambient accountId credential)
    (hothers : ∀ i ≠ r, ∀ ambient accountId credential,
      requests i ≠ .rotate ambient accountId credential) :
    Pool.InStep (Related box) (Sound box) (IdleWith box r) (fun _ o => o.writesAccounts = false)
      (Pairs box) (beside box requests state) (without box requests r state) := by
  refine ⟨related_refl box state, sound_beside hkeyed requests, sound_without hkeyed requests,
    fun i => ?_⟩
  by_cases hi : i = r
  · subst hi
    simp only [beside, without, Function.update_self, hrotate]
    exact .idle (idleWith_rotate ambient accountId credential) trivial
  · simp only [beside, without, Function.update_of_ne hi]
    exact together_handler (hothers i hi)

omit [LawfulSerde] [LawfulSealing] in
/-- Without the rotation, its turn does nothing. -/
theorem turn_without (box : SecretBox) (requests : ι → Request) (r : ι) (state : State)
    (schedule : List ι) :
    (Run.final (Pool.turn State.exec) (without box requests r state) schedule).turn State.exec r =
      Run.final (Pool.turn State.exec) (without box requests r state) schedule := by
  have hret : (Run.final (Pool.turn State.exec) (without box requests r state) schedule).procs r =
      .ret (.ok ⟨204, none⟩) := by
    refine Run.final_induct_of_step (I := fun pool : Handlers ι =>
      pool.procs r = .ret (.ok ⟨204, none⟩)) (fun pool i h => ?_) ?_
    · by_cases hi : i = r
      · rw [hi, Pool.turn_of_ret h, h]
      · rw [Pool.turn_procs_of_ne (Ne.symm hi), h]
    · simp only [without, Function.update_self]
  exact Pool.turn_of_ret hret

/-- **Rotating a credential changes nothing else**, under any schedule of
any number of other handlers that create, pause, resume and delete
accounts, exactly if the account it writes back is the account it finds:
all along the run, the metadata under every id is what the others would
have left without the rotation. -/
theorem rotation_keeps_metadata_iff (box : SecretBox) (requests : ι → Request) (r : ι)
    (ambient : Ambient) (accountId credential : String)
    (hrotate : requests r = .rotate ambient accountId credential)
    (hothers : ∀ i ≠ r, ∀ ambient accountId credential,
      requests i ≠ .rotate ambient accountId credential)
    (state : State) (hkeyed : Keyed state.database) (schedule : List ι) :
    (∀ before, before <+: schedule → ∀ id,
      metadata box (Run.final (Pool.turn State.exec) (beside box requests state)
          before).shared.database id =
        metadata box (Run.final (Pool.turn State.exec) (without box requests r state)
          before).shared.database id) ↔
      Run.Along (Pool.turn State.exec) (WritesBack box r) (beside box requests state) schedule := by
  constructor
  · intro hkept
    rw [Run.along_iff]
    rintro before i hbefore rfl o ho ⟨id, row⟩ hputs
    have hnow := hkept before ((List.prefix_append _ _).trans hbefore) id
    have hnext := hkept (before ++ [i]) hbefore id
    obtain ⟨k, hproc⟩ := Prog.next?_eq_some_iff.mp ho
    rw [Run.final_append, Run.final_append, Run.final_cons, Run.final_cons, Run.final_nil,
      Run.final_nil, turn_without, ← hnow, Pool.turn_of_call hproc] at hnext
    rw [← hnext, metadata, accounts_exec_of_puts hputs, if_pos rfl, Option.map_some]
  · intro halong before hbefore id
    have hstep := Pool.inStep_final (keeps_inStep box r) (inStep_start hkeyed hrotate hothers)
      (halong.of_prefix hbefore)
    exact hstep.shared.metadata_eq id

end InStep

section Example

open scoped Plain

/-- The rotation of the one stored account, and another request. -/
def rotateBeside (other : Request) : Bool → Request
  | true => rotateOne
  | false => other

/-- The account is paused. -/
def pauseOne : Request :=
  .setEnabled ⟨0, 0, ⟨Vector.replicate 24 4, Vector.replicate 24 5⟩⟩ "a" false

/-- The account is deleted. -/
def deleteOne : Request :=
  .delete ⟨0, 0, ⟨Vector.replicate 24 4, Vector.replicate 24 5⟩⟩ "a"

/-- One account is stored, and the router knows it. -/
def oneRouted : State :=
  ⟨oneStored, .new [⟨"a", "anthropic_api_key", true, true, 0, 0, ∅, none⟩]⟩

/-- A pause that is done before the rotation reads the account stays. -/
theorem rotation_keeps_earlier_pause :
    let schedule := [false, false, false, false, false, true, true, true, true]
    let pool := Run.final (Pool.turn State.exec)
      (beside Plain.box (rotateBeside pauseOne) oneRouted) schedule
    ((pool.procs true).returned = true ∧ (pool.procs false).returned = true ∧
      metadata Plain.box pool.shared.database "a" =
        some (.ok (Plain.account "a" .anthropicApiKey false))) ∧
    ∀ before, before <+: schedule → ∀ id,
      metadata Plain.box (Run.final (Pool.turn State.exec)
          (beside Plain.box (rotateBeside pauseOne) oneRouted) before).shared.database id =
        metadata Plain.box (Run.final (Pool.turn State.exec)
          (without Plain.box (rotateBeside pauseOne) true oneRouted)
          before).shared.database id := by
  refine ⟨by decide +kernel, ?_⟩
  refine (rotation_keeps_metadata_iff Plain.box (rotateBeside pauseOne) true _ _ _ rfl ?_
    oneRouted ?_ _).mpr ?_
  · rintro (_ | _) hi ambient accountId credential ⟨⟩
    exact hi rfl
  · decide +kernel
  · decide +kernel

/-- **A pause is undone, a deleted account is back.** The rotation reads
the account, another handler pauses it (or deletes it) and has answered,
and the rotation writes it back: in the end it takes part again (is stored
again), where without the rotation it is paused (is gone). -/
theorem rotation_undoes_pause :
    let paused := [true, false, false, false, false, false, true, true, true]
    let deleted := [true, false, false, false, false, true, true]
    let after := fun other schedule => Run.final (Pool.turn State.exec)
      (beside Plain.box (rotateBeside other) oneRouted) schedule
    let otherwise := fun other schedule => Run.final (Pool.turn State.exec)
      (without Plain.box (rotateBeside other) true oneRouted) schedule
    ((∀ i, ((after pauseOne paused).procs i).returned = true) ∧
      metadata Plain.box (after pauseOne paused).shared.database "a" =
        some (.ok (Plain.account "a" .anthropicApiKey true)) ∧
      metadata Plain.box (otherwise pauseOne paused).shared.database "a" =
        some (.ok (Plain.account "a" .anthropicApiKey false))) ∧
    (∀ i, ((after deleteOne deleted).procs i).returned = true) ∧
      metadata Plain.box (after deleteOne deleted).shared.database "a" =
        some (.ok (Plain.account "a" .anthropicApiKey true)) ∧
      metadata Plain.box (otherwise deleteOne deleted).shared.database "a" = none := by
  decide +kernel

end Example

end Admin

end Llmap
