import Llmap.Admin.Routes
import Llmap.Storage.Accounts
/-!
# Metadata under concurrent writes

What a row of the account table has besides its credential, and what the
handlers of the administration may write of it. A handler that pauses or
resumes reads the account under one lock and writes its text under
another, and writes nothing but the text. Such a text leaves the endpoints
of the row it is written to as they are, whatever was done to the row in
between (`Sound`).
-/

namespace Llmap

namespace Admin

open Providers Secrets Routing Storage

/-! ## Metadata -/

/-- An account without its endpoints. -/
def withoutEgress (account : ProviderAccount) : ProviderAccount :=
  { account with egressProxies := [] }

theorem eq_of_withoutEgress {account account' : ProviderAccount}
    (h : withoutEgress account = withoutEgress account')
    (hegress : account.egressProxies = account'.egressProxies) : account = account' := by
  cases account
  cases account'
  simp_all [withoutEgress]

section Metadata

variable [Serde] [Sealing]

/-- The account a row holds, its credential apart. -/
def hydrated (box : SecretBox) (row : AccountRow) : Except StorageError ProviderAccount :=
  match Serde.accountFromStr row.accountJson with
  | .error error => .error (.invalidAccount error)
  | .ok account => hydrateAccountEgress box account row.egressCiphertext

/-- **The metadata** under an id: what the store has there, but for the
credential. -/
def metadata (box : SecretBox) (database : Database) (id : String) :
    Option (Except StorageError ProviderAccount) :=
  database.providerAccounts[id]?.map (hydrated box)

/-- The endpoints of a row. -/
def endpoints (box : SecretBox) (row : AccountRow) : Except StorageError (List String) :=
  (hydrated box row).map ProviderAccount.egressProxies

/-- Rows that have the same, but for their credentials and for how their
endpoints are stored. -/
structure Same (box : SecretBox) (row row' : AccountRow) : Prop where
  text : (Serde.accountFromStr row.accountJson).map withoutEgress =
    (Serde.accountFromStr row'.accountJson).map withoutEgress
  egress : endpoints box row = endpoints box row'

variable {box : SecretBox} {row row' row'' : AccountRow}

theorem Same.refl (box : SecretBox) (row : AccountRow) : Same box row row := ⟨rfl, rfl⟩

theorem Same.trans (h : Same box row row') (h' : Same box row' row'') : Same box row row'' :=
  ⟨h.text.trans h'.text, h.egress.trans h'.egress⟩

/-- Endpoints are all that is filled in. -/
theorem withoutEgress_hydrate {account filled : ProviderAccount} {ciphertext : Option String}
    (h : hydrateAccountEgress box account ciphertext = .ok filled) :
    withoutEgress filled = withoutEgress account := by
  unfold hydrateAccountEgress at h
  split at h
  · rw [Except.ok.inj h]
  · split at h
    · cases h
    · split at h
      · cases h
      · rw [← Except.ok.inj h]
        rfl

/-- What rows that have the same hold. -/
theorem Same.hydrated_eq (h : Same box row row') : hydrated box row = hydrated box row' := by
  obtain ⟨htext, hegress⟩ := h
  unfold endpoints at hegress
  cases hfirst : hydrated box row with
  | error error =>
      cases hsecond : hydrated box row' with
      | error error' =>
          rw [hfirst, hsecond] at hegress
          exact congrArg _ (Except.error.inj hegress)
      | ok account' =>
          rw [hfirst, hsecond] at hegress
          cases hegress
  | ok account =>
      cases hsecond : hydrated box row' with
      | error error' =>
          rw [hfirst, hsecond] at hegress
          cases hegress
      | ok account' =>
          rw [hfirst, hsecond] at hegress
          refine congrArg _ (eq_of_withoutEgress ?_ (Except.ok.inj hegress))
          unfold hydrated at hfirst hsecond
          split at hfirst
          · cases hfirst
          · rename_i stored hstored
            split at hsecond
            · cases hsecond
            · rename_i stored' hstored'
              rw [hstored, hstored'] at htext
              rw [withoutEgress_hydrate hfirst, withoutEgress_hydrate hsecond]
              exact Except.ok.inj htext

/-- Rows that hold the same account have the same. -/
theorem same_of_hydrated {account : ProviderAccount} (h : hydrated box row = .ok account)
    (h' : hydrated box row' = .ok account) : Same box row row' := by
  refine ⟨?_, ?_⟩
  · have htext : ∀ {row : AccountRow}, hydrated box row = .ok account →
        (Serde.accountFromStr row.accountJson).map withoutEgress = .ok (withoutEgress account) := by
      intro row h
      unfold hydrated at h
      split at h
      · cases h
      · rename_i stored hstored
        rw [hstored, withoutEgress_hydrate h]
        rfl
    rw [htext h, htext h']
  · rw [endpoints, endpoints, h, h']

/-! ## Texts that are written back -/

/-- The flag has nothing to do with the endpoints. -/
theorem hydrate_flagged (box : SecretBox) (account : ProviderAccount) (enabled : Bool)
    (ciphertext : Option String) :
    (hydrateAccountEgress box { account with enabled := enabled } ciphertext).map
        ProviderAccount.egressProxies =
      (hydrateAccountEgress box account ciphertext).map ProviderAccount.egressProxies := by
  unfold hydrateAccountEgress
  dsimp only
  split
  · rfl
  · cases box.decrypt _ (egressData account.id) with
    | error error => rfl
    | ok plaintext =>
        dsimp only
        cases Serde.egressFromStr plaintext <;> rfl

/-- Endpoints that are sealed are read by the id alone. -/
theorem hydrate_sealed {account account' : ProviderAccount} {ciphertext : Option String}
    {sealed : String} (hsealed : ciphertext.filter (· ≠ "") = some sealed)
    (hid : account.id = account'.id) :
    (hydrateAccountEgress box account ciphertext).map ProviderAccount.egressProxies =
      (hydrateAccountEgress box account' ciphertext).map ProviderAccount.egressProxies := by
  unfold hydrateAccountEgress
  rw [hsealed, hid]
  dsimp only
  cases box.decrypt sealed (egressData account'.id) with
  | error error => rfl
  | ok plaintext =>
      dsimp only
      cases Serde.egressFromStr plaintext <;> rfl

/-- **A text fits a row**: written there, whatever its flag, it leaves the
endpoints as they are. -/
def Fits (box : SecretBox) (row : AccountRow) (account : ProviderAccount) : Prop :=
  ∀ enabled, endpoints box
    { row with accountJson := Serde.accountToString { account with enabled := enabled } } =
      endpoints box row

/-- A row that a write of an account under its id leaves. -/
def Sealed [Urls] (box : SecretBox) (id : String) (row : AccountRow) : Prop :=
  ∃ nonces account credential, account.id = id ∧
    sealedRow box nonces account credential = .ok row

variable [LawfulSerde] {account : ProviderAccount}

omit [Sealing] in
theorem endpoints_written [Sealing] (box : SecretBox) (row : AccountRow)
    (account : ProviderAccount) :
    endpoints box { row with accountJson := Serde.accountToString account } =
      (hydrateAccountEgress box account row.egressCiphertext).map
        ProviderAccount.egressProxies := by
  unfold endpoints hydrated
  rw [LawfulSerde.accountFromStr_toString]

/-- The text of a row fits it. -/
theorem fits_own (h : Serde.accountFromStr row.accountJson = .ok account) :
    Fits box row account := by
  intro enabled
  rw [endpoints_written, hydrate_flagged]
  unfold endpoints hydrated
  rw [h]

omit [LawfulSerde] in
/-- What fits a row fits it with another text that does. -/
theorem Fits.rewritten {other : ProviderAccount} {enabled : Bool} (h : Fits box row account)
    (hother : Fits box row other) :
    Fits box { row with accountJson := Serde.accountToString { other with enabled := enabled } }
      account := by
  intro enabled'
  rw [hother enabled]
  exact h enabled'

omit [LawfulSerde] in
/-- A row that is sealed has its endpoints sealed. -/
theorem egressCiphertext_of_sealedRow [Urls] [LawfulSealing] {nonces : WriteNonces}
    {credential : String}
    (h : sealedRow box nonces account credential = .ok row) :
    ∃ sealed, row.egressCiphertext.filter (· ≠ "") = some sealed := by
  obtain ⟨accountJson, egress, ciphertext, hvalues, -, rfl⟩ := sealedRow_eq_ok h
  obtain ⟨endpoints, -, hegress, -⟩ := accountStorageValues_eq_ok hvalues
  refine ⟨egress, ?_⟩
  rw [Option.filter_some, if_pos (by simpa using SecretBox.ne_empty_of_encrypt hegress)]

/-- Any text with the id of a sealed row fits it. -/
theorem Sealed.fits [Urls] [LawfulSealing] {id : String} (h : Sealed box id row)
    (hid : account.id = id) : Fits box row account := by
  obtain ⟨nonces, written, credential, hwritten, hrow⟩ := h
  obtain ⟨sealed, hsealed⟩ := egressCiphertext_of_sealedRow hrow
  obtain ⟨redacted, hstored, -, -⟩ := sealedRow_spec hrow
  intro enabled
  have hsame : ({ account with enabled := enabled } : ProviderAccount).id =
      ({ written with egressProxies := redacted } : ProviderAccount).id := hid.trans hwritten.symm
  rw [endpoints_written, hydrate_sealed hsealed hsame]
  unfold endpoints hydrated
  rw [hstored]

end Metadata

/-! ## What a handler writes -/

section Sound

variable [Serde]

/-- What a handler remembers: the account it read last, and under which
id. -/
def recollect (memory : Option (String × ProviderAccount)) :
    (o : Op) → o.Resp → Option (String × ProviderAccount)
  | .store (.selectAccount id), some row =>
      match Serde.accountFromStr row.accountJson with
      | .ok account => some (id, account)
      | .error _ => memory
  | _, _ => memory

/-- What it may write: rows that are sealed, and the text of the account it
remembers. -/
def Allowed [Sealing] [Urls] (box : SecretBox) (memory : Option (String × ProviderAccount)) :
    Op → Prop
  | .store (.upsert id row) => Sealed box id row
  | .store (.rotate id row _) => Sealed box id row
  | .store (.replace ..) => False
  | .store (.updateAccountJson id text) => ∃ account enabled, memory = some (id, account) ∧
      text = Serde.accountToString { account with enabled := enabled }
  | _ => True

/-- A part of a handler that writes so. -/
abbrev Careful [Sealing] [Urls] {α : Type} (box : SecretBox) (p : Part α) : Prop :=
  ∀ memory, p.Follows recollect (Allowed box) (fun _ _ => True) memory

variable [Sealing] [Urls] [Chrono] (box : SecretBox)

omit [Chrono] in
theorem careful_setAccountEnabled (accountId : String) (enabled : Bool) :
    Careful box (stored (setAccountEnabled accountId enabled)) := by
  intro memory
  refine ⟨trivial, ?_⟩
  rintro (_ | row)
  · trivial
  · simp only [recollect]
    cases hread : Serde.accountFromStr row.accountJson with
    | error error => trivial
    | ok account => exact ⟨⟨account, enabled, rfl, rfl⟩, fun _ => trivial⟩

omit [Chrono] in
/-- A function of the store that writes nothing. -/
theorem careful_of_idle {α : Type} {p : Prog Section Section.Resp α}
    (h : p.Obeys (fun s => (Op.store s).writesAccounts = false) (fun _ _ => True) fun _ => True) :
    Careful box (stored p) := by
  induction p with
  | ret a => exact fun _ => trivial
  | call s k ih =>
      intro memory
      refine ⟨?_, fun r => ih r (h.2 r trivial) _⟩
      cases s with
      | upsert | rotate | replace | updateAccountJson => cases h.1
      | selectAccount | selectAccounts | selectCredentials | deleteAccount | insertAudit => trivial

/-- **Every handler writes so.** -/
theorem careful_handler (request : Request) : Careful box (request.handler box) := by
  refine handler_induct (R := fun p => Careful box p) ?_ ?_ ?_ ?_ ?_
    (careful_setAccountEnabled box) ?_ ?_ ?_ ?_ request
  · exact fun _ _ => trivial
  · exact fun hp hf memory => (hp memory).bind fun memory a _ => hf a memory
  · exact fun accountId => careful_of_idle box ⟨rfl, fun _ _ => trivial⟩
  · intro nonces account credential memory
    unfold upsertAccount
    cases hrow : sealedRow box nonces account credential with
    | error error => trivial
    | ok row => exact ⟨⟨nonces, account, credential, rfl, hrow⟩, fun _ => trivial⟩
  · intro nonces account credential previousValidUntil memory
    unfold rotateAccountCredential
    cases hrow : sealedRow box nonces account credential with
    | error error => trivial
    | ok row => exact ⟨⟨nonces, account, credential, rfl, hrow⟩, fun _ => trivial⟩
  · exact fun accountId memory => ⟨trivial, fun _ => trivial⟩
  · exact fun _ _ _ _ _ _ memory => ⟨trivial, fun _ => trivial⟩
  · intro memory
    refine Prog.Follows.bind (P := fun _ _ => True) ⟨trivial, fun _ => trivial⟩ ?_
    rintro memory (error | accounts) -
    · trivial
    · exact ⟨trivial, fun _ => trivial⟩
  · exact fun accountId memory => ⟨trivial, fun _ => trivial⟩

/-! ## The invariant of a pool -/

omit [Sealing] [Urls] [Chrono] in
/-- Rows stand under the ids of their accounts, as every write leaves
them. -/
def Keyed (database : Database) : Prop :=
  ∀ (id : String) (row : AccountRow) (account : ProviderAccount),
    database.providerAccounts[id]? = some row →
      Serde.accountFromStr row.accountJson = .ok account → account.id = id

omit [Sealing] [Urls] [Chrono] in
theorem keyed_iff {database : Database} :
    Keyed database ↔ ∀ entry ∈ database.providerAccounts.toList,
      ∀ account ∈ (Serde.accountFromStr entry.2.accountJson).toOption, account.id = entry.1 := by
  constructor
  · rintro h ⟨id, row⟩ hentry account haccount
    exact h id row account (Std.ExtTreeMap.mem_toList_iff_getElem?_eq_some.mp hentry)
      (mem_toOption_iff.mp haccount)
  · intro h id row account hrow haccount
    exact h (id, row) (Std.ExtTreeMap.mem_toList_iff_getElem?_eq_some.mpr hrow) account
      (mem_toOption_iff.mpr haccount)

omit [Sealing] [Urls] [Chrono] in
instance (database : Database) : Decidable (Keyed database) :=
  decidable_of_iff' _ keyed_iff

/-- What is remembered has the id it was read under, and fits the row that
is there now. -/
def Fresh (database : Database) (memory : Option (String × ProviderAccount)) : Prop :=
  ∀ id account, memory = some (id, account) → account.id = id ∧
    ∀ row, database.providerAccounts[id]? = some row → Fits box row account

/-- **The invariant**: rows are keyed, and each handler writes what it may
and remembers what fits. -/
structure Sound {ι : Type} (pool : Pool ι State Op Op.Resp (Except ApiError Reply)) : Prop where
  keyed : Keyed pool.shared.database
  procs : ∀ i, ∃ memory, (pool.procs i).Follows recollect (Allowed box) (fun _ _ => True) memory ∧
    Fresh box pool.shared.database memory

variable {box} {state : State} {memory memory' : Option (String × ProviderAccount)} {o : Op}

omit [Sealing] [Urls] [Chrono] in
/-- An operation that writes no accounts leaves them. -/
theorem accounts_exec_of_idle (h : o.writesAccounts = false) :
    (state.exec o).1.database.providerAccounts = state.database.providerAccounts := by
  cases o with
  | store s =>
      cases s with
      | upsert | rotate | replace | updateAccountJson | deleteAccount => cases h
      | selectAccount | selectAccounts | selectCredentials | insertAudit => rfl
  | replaceRouteAccounts accounts => rfl
  | resetAccountHealth accountId => rfl

variable [LawfulSerde] [LawfulSealing]

omit [Chrono] in
theorem keyed_of_sealed {id : String} {row : AccountRow} {account : ProviderAccount}
    (h : Sealed box id row) (haccount : Serde.accountFromStr row.accountJson = .ok account) :
    account.id = id := by
  obtain ⟨nonces, written, credential, rfl, hrow⟩ := h
  obtain ⟨redacted, hstored, -, -⟩ := sealedRow_spec hrow
  rw [haccount] at hstored
  rw [Except.ok.inj hstored]

omit [Chrono] [LawfulSerde] [LawfulSealing] in
/-- A row of the accounts after an operation is as it was, or sealed, or
it has been given a text that was remembered. -/
theorem row_exec {id : String} {row : AccountRow} (hallowed : Allowed box memory o)
    (hrow : (state.exec o).1.database.providerAccounts[id]? = some row) :
    state.database.providerAccounts[id]? = some row ∨ Sealed box id row ∨
      ∃ before account enabled, state.database.providerAccounts[id]? = some before ∧
        memory = some (id, account) ∧
        row = { before with
          accountJson := Serde.accountToString { account with enabled := enabled } } := by
  cases hwrites : o.writesAccounts with
  | false =>
      rw [accounts_exec_of_idle hwrites] at hrow
      exact .inl hrow
  | true =>
      cases o with
      | replaceRouteAccounts accounts => cases hwrites
      | resetAccountHealth accountId => cases hwrites
      | store s =>
          change (state.database.exec s).1.providerAccounts[id]? = some row at hrow
          cases s with
          | selectAccount | selectAccounts | selectCredentials | insertAudit => cases hwrites
          | replace => exact hallowed.elim
          | upsert id' row' =>
              rw [Database.accounts_upsert] at hrow
              split at hrow
              · rename_i hid
                subst hid
                obtain rfl := Option.some.inj hrow
                exact .inr (.inl hallowed)
              · exact .inl hrow
          | rotate id' row' expiresAt =>
              rw [Database.accounts_rotate] at hrow
              split at hrow
              · rename_i hid
                subst hid
                obtain rfl := Option.some.inj hrow
                exact .inr (.inl hallowed)
              · exact .inl hrow
          | deleteAccount id' =>
              rw [Database.accounts_deleteAccount] at hrow
              split at hrow
              · cases hrow
              · exact .inl hrow
          | updateAccountJson id' text =>
              rw [Database.accounts_updateAccountJson] at hrow
              split at hrow
              · rename_i hid
                subst hid
                obtain ⟨account, enabled, hmemory, rfl⟩ := hallowed
                obtain ⟨before, hbefore, rfl⟩ := Option.map_eq_some_iff.mp hrow
                exact .inr (.inr ⟨before, account, enabled, hbefore, hmemory, rfl⟩)
              · exact .inl hrow

omit [Chrono] in
theorem keyed_exec (hkeyed : Keyed state.database) (hallowed : Allowed box memory o)
    (hfresh : Fresh box state.database memory) : Keyed (state.exec o).1.database := by
  intro id row account hrow haccount
  obtain hsame | hsealed | ⟨before, read, enabled, -, hmemory, rfl⟩ := row_exec hallowed hrow
  · exact hkeyed id row account hsame haccount
  · exact keyed_of_sealed hsealed haccount
  · rw [LawfulSerde.accountFromStr_toString] at haccount
    rw [← Except.ok.inj haccount]
    exact (hfresh id read hmemory).1

omit [Chrono] in
/-- What fits goes on to fit, whoever writes. -/
theorem fresh_exec (hallowed : Allowed box memory o) (hfresh : Fresh box state.database memory)
    (h : Fresh box state.database memory') : Fresh box (state.exec o).1.database memory' := by
  intro id account hmemory'
  obtain ⟨hid, hfits⟩ := h id account hmemory'
  refine ⟨hid, fun row hrow => ?_⟩
  obtain hsame | hsealed | ⟨before, read, enabled, hbefore, hmemory, rfl⟩ := row_exec hallowed hrow
  · exact hfits row hsame
  · exact hsealed.fits hid
  · exact (hfits before hbefore).rewritten ((hfresh id read hmemory).2 before hbefore)

omit [Urls] [Chrono] [LawfulSealing] in
/-- What is read fits. -/
theorem fresh_recollect (hkeyed : Keyed state.database) (h : Fresh box state.database memory) :
    Fresh box state.database (recollect memory o (state.exec o).2) := by
  cases o with
  | replaceRouteAccounts accounts => exact h
  | resetAccountHealth accountId => exact h
  | store s =>
      cases s with
      | selectAccount id =>
          change Fresh box state.database
            (recollect memory (.store (.selectAccount id)) state.database.providerAccounts[id]?)
          cases hrow : state.database.providerAccounts[id]? with
          | none => exact h
          | some row =>
              cases hread : Serde.accountFromStr row.accountJson with
              | error error => simpa only [recollect, hread] using h
              | ok account =>
                  intro id' account' hmemory
                  simp only [recollect, hread, Option.some.injEq, Prod.mk.injEq] at hmemory
                  obtain ⟨rfl, rfl⟩ := hmemory
                  refine ⟨hkeyed id row account hrow hread, fun row' hrow' => ?_⟩
                  obtain rfl := Option.some.inj (hrow.symm.trans hrow')
                  exact fits_own hread
      | _ => exact h

omit [Chrono] in
/-- **One turn** keeps the invariant. -/
theorem Sound.turn {ι : Type} [DecidableEq ι]
    {pool : Pool ι State Op Op.Resp (Except ApiError Reply)} (h : Sound box pool) (i : ι) :
    Sound box (pool.turn State.exec i) := by
  cases hproc : pool.procs i with
  | ret answer => rwa [Pool.turn_of_ret hproc]
  | call o k =>
      obtain ⟨memory, hfollows, hfresh⟩ := h.procs i
      rw [hproc] at hfollows
      rw [Pool.turn_of_call hproc]
      refine ⟨keyed_exec h.keyed hfollows.1 hfresh, fun j => ?_⟩
      by_cases hj : j = i
      · subst hj
        refine ⟨recollect memory o (pool.shared.exec o).2, ?_, ?_⟩
        · simpa only [Function.update_self] using hfollows.2 (pool.shared.exec o).2
        · exact fresh_exec hfollows.1 hfresh (fresh_recollect h.keyed hfresh)
      · obtain ⟨memory', hfollows', hfresh'⟩ := h.procs j
        refine ⟨memory', ?_, fresh_exec hfollows.1 hfresh hfresh'⟩
        simpa only [Function.update_of_ne hj] using hfollows'

end Sound

end Admin

end Llmap
