import Llmap.Admin.Model
/-!
# Requests and refreshes together

The administrator's handlers and the rounds of OAuth refresh share one
store, interleaved in any way. Every section that one of them calls is
`Legal`: it says what the section was made from, which the section alone
does not show. What the legal sections keep is that the tables can be read
(`Readable`): accounts parse under the id they are stored at, and what was
sealed opens.
-/

namespace Llmap

namespace Admin

open Providers Secrets Egress Storage

section Activity

variable [Serde] [Sealing] [Urls] [Chrono]

/-- What goes on in a proxy, as far as it writes accounts. -/
inductive Activity where
  | handle (request : Request)
  | refresh (now : DateTime) (exchange : OAuthRefreshCandidate → Exchange)

/-- The program an activity is. It returns whether it answered success; a
refresh answers nobody. -/
def Activity.prog (box : SecretBox) : Activity → Part Bool
  | .handle request => do
      let answer ← request.handler box
      return answer.isOk
  | .refresh now exchange => do
      let _ ← stored (refreshDueOauth box now exchange)
      return true

/-- Activities that share a store, each where it has got to. -/
abbrev Activities (ι : Type) := Pool ι State Op Op.Resp Bool

variable {ι : Type} [DecidableEq ι]

/-- Activities at their start. -/
def started (box : SecretBox) (activities : ι → Activity) (state : State) : Activities ι :=
  ⟨state, fun i => (activities i).prog box⟩

/-- What activities come to under a schedule. -/
def ran (box : SecretBox) (activities : ι → Activity) (state : State) (schedule : List ι) :
    Activities ι :=
  Run.final (Pool.turn State.exec) (started box activities state) schedule

/-! ## What is called, and what is answered -/

/-- **What a section is made from**: a row seals an account under its id, a
text is that of an account with the id, and a replacement knows the
envelope it replaces. -/
def LegalSection (box : SecretBox) : Section → Prop
  | .upsert id row | .rotate id row _ =>
      ∃ nonces account credential, account.id = id ∧
        sealedRow box nonces account credential = .ok row
  | .replace id expected ciphertext expiresAt =>
      (∃ plaintext envelope now, box.decrypt expected (credentialData id) = .ok plaintext ∧
        startsWithStr (trimStart plaintext) "\x7b" = true ∧
        Serde.envelopeFromStr plaintext = .ok envelope ∧
        expiresAt = Chrono.toRfc3339
          (min (envelope.expiresAt.getD (now + minutes 10)) (now + minutes 10))) ∧
        ∃ nonce text, box.encrypt nonce text (credentialData id) = .ok ciphertext
  | .updateAccountJson id accountJson =>
      ∃ account : ProviderAccount, account.id = id ∧ accountJson = Serde.accountToString account
  | _ => True

/-- What a section is answered: an account that is read has the id it is
read at. -/
def AnsweredSection : (s : Section) → s.Resp → Prop
  | .selectAccount id, row => ∀ found account, row = some found →
      Serde.accountFromStr found.accountJson = .ok account → account.id = id
  | _, _ => True

/-- The same of an operation. -/
def Legal (box : SecretBox) : Op → Prop
  | .store s => LegalSection box s
  | _ => True

/-- The same of an answer. -/
def Answered : (o : Op) → o.Resp → Prop
  | .store s, answer => AnsweredSection s answer
  | _, _ => True

/-- A part of an activity that calls what is legal. -/
abbrev Obedient {α : Type} (box : SecretBox) (p : Part α) : Prop :=
  p.Obeys (Legal box) Answered fun _ => True

/-- A function of the store that does. -/
abbrev ObedientStore {α : Type} (box : SecretBox) (p : Prog Section Section.Resp α) : Prop :=
  p.Obeys (LegalSection box) AnsweredSection fun _ => True

variable {box : SecretBox}

theorem stored_obedient {α : Type} {p : Prog Section Section.Resp α} (h : ObedientStore box p) :
    Obedient box (stored p) := by
  induction p with
  | ret a => trivial
  | call s k ih => exact ⟨h.1, fun r hr => ih r (h.2 r hr)⟩

theorem upsertAccount_obedient (nonces : WriteNonces) (account : ProviderAccount)
    (credential : String) : ObedientStore box (upsertAccount box nonces account credential) := by
  unfold upsertAccount
  cases hrow : sealedRow box nonces account credential with
  | error error => trivial
  | ok row => exact ⟨⟨nonces, account, credential, rfl, hrow⟩, fun _ _ => trivial⟩

theorem rotateAccountCredential_obedient (nonces : WriteNonces) (account : ProviderAccount)
    (credential : String) (previousValidUntil : DateTime) :
    ObedientStore box
      (rotateAccountCredential box nonces account credential previousValidUntil) := by
  unfold rotateAccountCredential
  cases hrow : sealedRow box nonces account credential with
  | error error => trivial
  | ok row => exact ⟨⟨nonces, account, credential, rfl, hrow⟩, fun _ _ => trivial⟩

theorem loadAccount_obedient (accountId : String) :
    ObedientStore box (loadAccount box accountId) :=
  ⟨trivial, fun _ _ => trivial⟩

/-- What `set_account_enabled` writes back has the id it was read at. -/
theorem setAccountEnabled_obedient (accountId : String) (enabled : Bool) :
    ObedientStore box (setAccountEnabled accountId enabled) := by
  refine ⟨trivial, fun row hanswer => ?_⟩
  cases row with
  | none => trivial
  | some row =>
      dsimp only
      cases hjson : Serde.accountFromStr row.accountJson with
      | error error => trivial
      | ok account =>
          have hid : account.id = accountId := hanswer row account rfl hjson
          exact ⟨⟨{ account with enabled := enabled }, hid, rfl⟩, fun _ _ => trivial⟩

omit [Urls] [Chrono] in
/-- What a candidate knows of the credential it expects. -/
theorem envelope_of_refreshCandidate {now : DateTime} {row : AccountRow}
    {candidate : OAuthRefreshCandidate}
    (h : refreshCandidate box now row = .ok (some candidate)) :
    ∃ plaintext, box.decrypt candidate.expectedCiphertext (credentialData candidate.account.id) =
        .ok plaintext ∧
      startsWithStr (trimStart plaintext) "\x7b" = true ∧
      Serde.envelopeFromStr plaintext = .ok candidate.envelope := by
  unfold refreshCandidate at h
  repeat' split at h
  all_goals cases h
  rename_i plaintext hdecrypt hbrace _ envelope henvelope
  exact ⟨plaintext, hdecrypt, by simpa using hbrace, henvelope⟩

theorem refreshEach_obedient {now : DateTime} {exchange : OAuthRefreshCandidate → Exchange}
    (candidates : List OAuthRefreshCandidate)
    (hcandidates : ∀ candidate ∈ candidates, ∃ plaintext,
      box.decrypt candidate.expectedCiphertext (credentialData candidate.account.id) =
        .ok plaintext ∧
      startsWithStr (trimStart plaintext) "\x7b" = true ∧
      Serde.envelopeFromStr plaintext = .ok candidate.envelope)
    (summary : OAuthRefreshSummary) :
    ObedientStore box (refreshEach box now exchange summary candidates) := by
  induction candidates generalizing summary with
  | nil => trivial
  | cons candidate rest ih =>
      have hrest := fun summary =>
        ih (fun c hc => hcandidates c (List.mem_cons_of_mem _ hc)) summary
      obtain ⟨plaintext, hdecrypt, hbrace, henvelope⟩ :=
        hcandidates candidate (List.mem_cons_self ..)
      rw [refreshEach]
      split
      · exact hrest _
      · split
        · exact hrest _
        · rename_i refreshed _
          refine Prog.Obeys.bind (P := fun _ => True) ?_ ?_
          · unfold replaceOauthIfCurrent
            split
            · trivial
            · rename_i ciphertext hsealed
              exact ⟨⟨⟨plaintext, candidate.envelope, now, hdecrypt, hbrace, henvelope, rfl⟩,
                _, _, hsealed⟩, fun _ _ => trivial⟩
          · rintro (error | changed) -
            · exact hrest _
            · cases changed <;> exact hrest _

theorem refreshDueOauth_obedient (now : DateTime) (exchange : OAuthRefreshCandidate → Exchange) :
    ObedientStore box (refreshDueOauth box now exchange) := by
  refine Prog.Obeys.bind (P := fun answer => ∃ rows : List AccountRow,
    (rows.mapM (refreshCandidate box now)).map (fun found => found.filterMap id) = answer)
    ⟨trivial, fun rows _ => ⟨rows, rfl⟩⟩ ?_
  rintro (error | candidates) ⟨rows, hrows⟩
  · trivial
  · obtain ⟨found, hfound, rfl⟩ := map_eq_ok_iff.mp hrows
    refine refreshEach_obedient _ (fun candidate hcandidate => ?_) _
    obtain ⟨row, -, hrow⟩ := exists_of_mem_mapM (b := some candidate) hfound
      (by simpa using hcandidate)
    exact envelope_of_refreshCandidate hrow

/-- **Every activity calls what is legal.** -/
theorem activity_obedient (activity : Activity) : Obedient box (activity.prog box) := by
  cases activity with
  | handle request =>
      refine Prog.Obeys.bind (P := fun _ => True) ?_ fun _ _ => trivial
      refine handler_induct (R := fun p => Obedient box p) (fun _ => trivial)
        (fun hp hf => hp.bind fun a _ => hf a) ?_ ?_ ?_ ?_ ?_ ?_ ?_ ?_ request
      · exact fun _ => stored_obedient (loadAccount_obedient _)
      · exact fun _ _ _ => stored_obedient (upsertAccount_obedient _ _ _)
      · exact fun _ _ _ _ => stored_obedient (rotateAccountCredential_obedient _ _ _ _)
      · exact fun _ _ => stored_obedient (setAccountEnabled_obedient _ _)
      · exact fun _ => ⟨trivial, fun _ _ => trivial⟩
      · exact fun _ _ _ _ _ _ => ⟨trivial, fun _ _ => trivial⟩
      · refine Prog.Obeys.bind (P := fun _ => True) ⟨trivial, fun _ _ => trivial⟩ ?_
        rintro (error | accounts) -
        · trivial
        · exact ⟨trivial, fun _ _ => trivial⟩
      · exact fun _ => ⟨trivial, fun _ _ => trivial⟩
  | refresh now exchange =>
      exact Prog.Obeys.bind (P := fun _ => True) (stored_obedient (refreshDueOauth_obedient _ _))
        fun _ _ => trivial

/-! ## Tables that can be read -/

/-- **Readable tables.** Every account parses, under the id it is stored
at, and its endpoints and its credential open; and so does every
credential of the history, which is that of an account there is. -/
structure Readable (box : SecretBox) (database : Database) : Prop where
  account : ∀ (id : String) (row : AccountRow), database.providerAccounts[id]? = some row →
    ∃ account hydrated credential, Serde.accountFromStr row.accountJson = .ok account ∧
      account.id = id ∧ hydrateAccountEgress box account row.egressCiphertext = .ok hydrated ∧
      box.decrypt row.credentialCiphertext (credentialData id) = .ok credential
  history : ∀ (id : String) (history : HistoryRow), database.credentialHistory[id]? = some history →
    id ∈ database.providerAccounts ∧
      ∃ credential, box.decrypt history.credentialCiphertext (credentialData id) = .ok credential

omit [Urls] [Chrono] in
theorem readable_empty (box : SecretBox) : Readable box .empty :=
  ⟨fun id row h => by simp [Database.empty] at h, fun id history h => by simp [Database.empty] at h⟩

omit [Urls] [Chrono] in
/-- Whether the endpoints of an account open depends on its id only. -/
theorem hydrate_of_id {account account' hydrated : ProviderAccount} {ciphertext : Option String}
    (h : hydrateAccountEgress box account ciphertext = .ok hydrated)
    (hid : account'.id = account.id) :
    ∃ hydrated', hydrateAccountEgress box account' ciphertext = .ok hydrated' := by
  unfold hydrateAccountEgress at h ⊢
  rw [hid]
  cases hstored : ciphertext.filter (· ≠ "") with
  | none => exact ⟨_, rfl⟩
  | some stored =>
      simp only [hstored] at h ⊢
      cases hplain : box.decrypt stored (egressData account.id) with
      | error error => simp [hplain] at h
      | ok plaintext =>
          simp only [hplain] at h ⊢
          cases hegress : Serde.egressFromStr plaintext with
          | error error => simp [hegress] at h
          | ok egressProxies => exact ⟨_, rfl⟩

section Laws

variable [LawfulSerde] [LawfulSealing] {database : Database}

omit [Chrono] in
/-- The row of an account can be read. -/
theorem readable_sealedRow {nonces : WriteNonces} {account : ProviderAccount}
    {credential id : String} {row : AccountRow} (hid : account.id = id)
    (h : sealedRow box nonces account credential = .ok row) :
    ∃ account hydrated credential, Serde.accountFromStr row.accountJson = .ok account ∧
      account.id = id ∧ hydrateAccountEgress box account row.egressCiphertext = .ok hydrated ∧
      box.decrypt row.credentialCiphertext (credentialData id) = .ok credential := by
  obtain ⟨redacted, hjson, hdecrypt, hhydrate⟩ := sealedRow_spec h
  exact ⟨_, _, _, hjson, hid, hhydrate, hid ▸ hdecrypt⟩

theorem Readable.upsert (h : Readable box database) {id : String} {row : AccountRow}
    (hlegal : LegalSection box (.upsert id row)) :
    Readable box (database.exec (.upsert id row)).1 := by
  obtain ⟨nonces, account, credential, hid, hrow⟩ := hlegal
  refine ⟨fun id' row' hrow' => ?_, fun id' history hhistory => ?_⟩
  · rw [Database.accounts_upsert] at hrow'
    split at hrow'
    · rename_i heq
      obtain rfl : row = row' := Option.some.inj hrow'
      exact heq ▸ readable_sealedRow hid hrow
    · exact h.account id' row' hrow'
  · rw [Database.history_upsert] at hhistory
    split at hhistory
    · cases hhistory
    · rename_i hne
      obtain ⟨hmem, hopens⟩ := h.history id' history hhistory
      refine ⟨?_, hopens⟩
      simpa [Database.exec] using .inr hmem

theorem Readable.rotate (h : Readable box database) {id expiresAt : String} {row : AccountRow}
    (hlegal : LegalSection box (.rotate id row expiresAt)) :
    Readable box (database.exec (.rotate id row expiresAt)).1 := by
  obtain ⟨nonces, account, credential, hid, hrow⟩ := hlegal
  refine ⟨fun id' row' hrow' => ?_, fun id' history hhistory => ?_⟩
  · rw [Database.accounts_rotate] at hrow'
    split at hrow'
    · rename_i heq
      obtain rfl : row = row' := Option.some.inj hrow'
      exact heq ▸ readable_sealedRow hid hrow
    · exact h.account id' row' hrow'
  · have hkeeps : ∀ id', id' ∈ database.providerAccounts →
        id' ∈ (database.exec (.rotate id row expiresAt)).1.providerAccounts := by
      intro id' hmem
      simpa [Database.exec] using .inr hmem
    rw [Database.history_rotate] at hhistory
    split at hhistory
    · rename_i heq
      subst heq
      cases hprevious : database.providerAccounts[id]? with
      | none =>
          rw [hprevious] at hhistory
          obtain ⟨hmem, hopens⟩ := h.history id history hhistory
          exact ⟨hkeeps id hmem, hopens⟩
      | some previous =>
          -- what is rotated out is what the account had
          rw [hprevious] at hhistory
          obtain rfl := Option.some.inj hhistory
          obtain ⟨-, -, opened, -, -, -, hopens⟩ := h.account id previous hprevious
          exact ⟨by simp [Database.exec], opened, hopens⟩
    · obtain ⟨hmem, hopens⟩ := h.history id' history hhistory
      exact ⟨hkeeps id' hmem, hopens⟩

omit [Urls] [Chrono] [LawfulSerde] in
theorem Readable.replace (h : Readable box database) {id expected ciphertext expiresAt : String}
    (hsealed : ∃ nonce text, box.encrypt nonce text (credentialData id) = .ok ciphertext) :
    Readable box (database.exec (.replace id expected ciphertext expiresAt)).1 := by
  by_cases hcurrent : ∃ row, database.providerAccounts[id]? = some row ∧
      row.credentialCiphertext = expected
  · obtain ⟨row, hrow, hexpected⟩ := hcurrent
    obtain ⟨nonce, text, hsealed⟩ := hsealed
    obtain ⟨account, hydrated, opened, hjson, hid, hhydrate, hopens⟩ := h.account id row hrow
    rw [Database.exec_replace_of_eq database id hrow hexpected]
    refine ⟨fun id' row' hrow' => ?_, fun id' history hhistory => ?_⟩
    · simp only [Std.ExtTreeMap.getElem?_insert, Std.LawfulEqCmp.compare_eq_iff_eq] at hrow'
      split at hrow'
      · rename_i heq
        obtain rfl := Option.some.inj hrow'
        subst heq
        exact ⟨account, hydrated, text, hjson, hid, hhydrate,
          SecretBox.decrypt_of_encrypt hsealed⟩
      · exact h.account id' row' hrow'
    · simp only [Std.ExtTreeMap.getElem?_insert, Std.LawfulEqCmp.compare_eq_iff_eq] at hhistory
      split at hhistory
      · rename_i heq
        obtain rfl := Option.some.inj hhistory
        subst heq hexpected
        exact ⟨by simp, opened, hopens⟩
      · obtain ⟨hmem, hopened⟩ := h.history id' history hhistory
        exact ⟨by simp [hmem], hopened⟩
  · have hne : ∀ row, database.providerAccounts[id]? = some row →
        row.credentialCiphertext ≠ expected := fun row hrow heq => hcurrent ⟨row, hrow, heq⟩
    rw [Database.exec_replace_of_ne database id hne]
    exact h

omit [Urls] [Chrono] [LawfulSealing] in
theorem Readable.updateAccountJson (h : Readable box database) {id : String}
    {account : ProviderAccount} (hid : account.id = id) :
    Readable box
      (database.exec (.updateAccountJson id (Serde.accountToString account))).1 := by
  refine ⟨fun id' row' hrow' => ?_, fun id' history hhistory => ?_⟩
  · rw [Database.accounts_updateAccountJson] at hrow'
    split at hrow'
    · rename_i heq
      subst heq
      obtain ⟨row, hrow, rfl⟩ := Option.map_eq_some_iff.mp hrow'
      obtain ⟨read, hydrated, opened, hjson, hread, hhydrate, hopens⟩ := h.account id row hrow
      obtain ⟨hydrated', hhydrate'⟩ := hydrate_of_id hhydrate (hid.trans hread.symm)
      exact ⟨account, hydrated', opened, LawfulSerde.accountFromStr_toString _, hid, hhydrate',
        hopens⟩
    · exact h.account id' row' hrow'
  · obtain ⟨hmem, hopens⟩ := h.history id' history hhistory
    refine ⟨?_, hopens⟩
    rw [← Std.ExtTreeMap.isSome_getElem?_iff_mem] at hmem ⊢
    rw [Database.accounts_updateAccountJson]
    split
    · rename_i heq
      subst heq
      simpa using hmem
    · exact hmem

omit [Urls] [Chrono] [LawfulSerde] [LawfulSealing] in
theorem Readable.deleteAccount (h : Readable box database) (id : String) :
    Readable box (database.exec (.deleteAccount id)).1 := by
  refine ⟨fun id' row' hrow' => ?_, fun id' history hhistory => ?_⟩
  · rw [Database.accounts_deleteAccount] at hrow'
    split at hrow'
    · cases hrow'
    · exact h.account id' row' hrow'
  · rw [Database.history_deleteAccount] at hhistory
    split at hhistory
    · cases hhistory
    · rename_i hkept
      obtain ⟨hmem, hopens⟩ := h.history id' history hhistory
      refine ⟨?_, hopens⟩
      have hne : id ≠ id' := by
        rintro rfl
        exact hkept ⟨rfl, hmem⟩
      rw [← Std.ExtTreeMap.isSome_getElem?_iff_mem, Database.accounts_deleteAccount, if_neg hne,
        Std.ExtTreeMap.isSome_getElem?_iff_mem]
      exact hmem

/-- **Legal sections keep the tables readable.** -/
theorem Readable.exec (h : Readable box database) {s : Section} (hlegal : LegalSection box s) :
    Readable box (database.exec s).1 := by
  cases s with
  | upsert id row => exact h.upsert hlegal
  | rotate id row expiresAt => exact h.rotate hlegal
  | replace id expected ciphertext expiresAt => exact h.replace hlegal.2
  | updateAccountJson id accountJson =>
      obtain ⟨account, hid, rfl⟩ := hlegal
      exact h.updateAccountJson hid
  | deleteAccount id => exact h.deleteAccount id
  | selectAccount | selectAccounts | selectCredentials => exact h
  | insertAudit row => exact ⟨h.account, h.history⟩

omit [Urls] [Chrono] [LawfulSerde] [LawfulSealing] in
/-- What is read of readable tables is as promised. -/
theorem Readable.answered (h : Readable box database) (s : Section) :
    AnsweredSection s (database.exec s).2 := by
  cases s with
  | selectAccount id =>
      intro row account hrow haccount
      obtain ⟨account', -, -, haccount', hid, -, -⟩ := h.account id row hrow
      rw [haccount] at haccount'
      exact Except.ok.inj haccount' ▸ hid
  | _ => trivial

/-- **One operation.** -/
theorem readable_exec {state : State} {o : Op} (h : Readable box state.database)
    (hlegal : Legal box o) :
    Readable box (state.exec o).1.database ∧ Answered o (state.exec o).2 := by
  cases o with
  | store s => exact ⟨h.exec hlegal, h.answered s⟩
  | replaceRouteAccounts accounts => exact ⟨h, trivial⟩
  | resetAccountHealth accountId => exact ⟨h, trivial⟩

/-- **Runs.** Under any schedule the tables can be read, and what is called
next is legal. -/
theorem readable_ran (box : SecretBox) (activities : ι → Activity) {state : State}
    (hstart : Readable box state.database) (schedule : List ι) :
    Readable box (ran box activities state schedule).shared.database ∧
      ∀ i, Obedient box ((ran box activities state schedule).procs i) :=
  Pool.final_induct (I := fun state : State => Readable box state.database) (C := fun _ _ => True)
    (fun _ _ hreadable hlegal _ => readable_exec hreadable hlegal) hstart
    (fun i => activity_obedient (activities i))
    (Run.along_of_forall fun _ _ _ _ => trivial)

end Laws

end Activity

end Admin

end Llmap
