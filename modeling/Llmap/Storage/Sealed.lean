import Llmap.Storage.Accounts
/-!
# Ciphertexts and what they are for

Credentials and endpoints are stored as ciphertexts, in three columns of two
tables. Each is sealed under associated data that names its account and its
purpose, `account:<id>` or `account-egress:<id>`, and opened under the data
of the place it is read from. No two accounts or purposes have the same data.

So an adversary who puts the stored strings into any of the columns, at any
account, gains nothing: what opens at an account was once written for it. What
was written, and for whom, is read off the operations that have succeeded
(`Ledger`).
-/

namespace Llmap

namespace Storage

open Auth Providers Secrets Egress

/-! ## Associated data -/

theorem credentialData_injective {id id' : String} (h : credentialData id = credentialData id') :
    id = id' := by
  have htext := congrArg String.toList (asBytes_injective h)
  rw [String.toList_append, String.toList_append] at htext
  exact String.toList_inj.mp (List.append_cancel_left htext)

theorem egressData_injective {id id' : String} (h : egressData id = egressData id') : id = id' := by
  have htext := congrArg String.toList (asBytes_injective h)
  rw [String.toList_append, String.toList_append] at htext
  exact String.toList_inj.mp (List.append_cancel_left htext)

/-- **Two purposes.** They part behind the word `account`, with a colon and a
hyphen. -/
theorem credentialData_ne_egressData (id id' : String) : credentialData id ≠ egressData id' := by
  intro h
  have htext := congrArg String.toList (asBytes_injective h)
  rw [String.toList_append, String.toList_append] at htext
  have hchar := congrArg (fun text : List Char => text[7]?) htext
  rw [List.getElem?_append_left (by decide), List.getElem?_append_left (by decide)] at hchar
  exact absurd hchar (by decide)

/-! ## What is encrypted -/

/-- A call of `SecretBox::encrypt`. -/
structure Encryption where
  nonce : Nonce
  plaintext : String
  associatedData : Bytes

section Encryptions

variable [Serde]

/-- The credential an operation writes, with the account it is for. -/
def Op.credential? : Op → Option (String × String)
  | .upsert _ account credential | .rotate _ account credential _ => some (account.id, credential)
  | .replace _ candidate refreshed _ =>
      some (candidate.account.id, Serde.envelopeToString refreshed)
  | .setEnabled .. | .delete .. => none

/-- The endpoints an operation writes, with the account they are for. -/
def Op.egress? : Op → Option (String × List String)
  | .upsert _ account _ | .rotate _ account _ _ => some (account.id, account.egressProxies)
  | .replace .. | .setEnabled .. | .delete .. => none

/-- What an operation encrypts. -/
def Op.encryptions : Op → List Encryption
  | .upsert nonces account credential | .rotate nonces account credential _ =>
      [⟨nonces.egress, Serde.egressToString account.egressProxies, egressData account.id⟩,
        ⟨nonces.credential, credential, credentialData account.id⟩]
  | .replace nonce candidate refreshed _ =>
      [⟨nonce, Serde.envelopeToString refreshed, credentialData candidate.account.id⟩]
  | .setEnabled .. | .delete .. => []

/-- A credential was once written for an account. -/
def CredentialWritten (done : List Op) (id credential : String) : Prop :=
  ∃ op ∈ done, op.credential? = some (id, credential)

/-- A list of endpoints was once written for an account. -/
def EgressWritten (done : List Op) (id : String) (egressProxies : List String) : Prop :=
  ∃ op ∈ done, op.egress? = some (id, egressProxies)

/-- Everything is encrypted under the data of its account and purpose. -/
theorem mem_encryptions {op : Op} {e : Encryption} (h : e ∈ op.encryptions) :
    (∃ id, op.credential? = some (id, e.plaintext) ∧ e.associatedData = credentialData id) ∨
    ∃ id egressProxies, op.egress? = some (id, egressProxies) ∧
      e.plaintext = Serde.egressToString egressProxies ∧ e.associatedData = egressData id := by
  cases op with
  | upsert nonces account credential | rotate nonces account credential previousValidUntil =>
      simp only [Op.encryptions, List.mem_cons, List.not_mem_nil, or_false] at h
      rcases h with rfl | rfl
      · exact .inr ⟨account.id, account.egressProxies, rfl, rfl, rfl⟩
      · exact .inl ⟨account.id, rfl, rfl⟩
  | replace nonce candidate refreshed previousValidUntil =>
      simp only [Op.encryptions, List.mem_singleton] at h
      subst h
      exact .inl ⟨candidate.account.id, rfl, rfl⟩
  | setEnabled | delete => cases h

variable [Sealing]

/-- The string an encryption gives. -/
def Encryption.Gives (box : SecretBox) (e : Encryption) (stored : String) : Prop :=
  box.encrypt e.nonce e.plaintext e.associatedData = .ok stored

/-- A string that was encrypted to be stored. -/
def Produced (box : SecretBox) (done : List Op) (stored : String) : Prop :=
  ∃ op ∈ done, ∃ e ∈ op.encryptions, e.Gives box stored

/-- **Ideal sealing** of what was stored: a string opens only under data that
it was sealed under. -/
def OpensOnlyAsSealed (box : SecretBox) (done : List Op) : Prop :=
  ∀ stored associatedData plaintext, Produced box done stored →
    box.decrypt stored associatedData = .ok plaintext →
    ∃ op ∈ done, ∃ e ∈ op.encryptions, e.associatedData = associatedData ∧ e.Gives box stored

variable [LawfulSealing] {box : SecretBox} {done : List Op} {id stored : String}

/-- What opens as the credential of an account was written for it. -/
theorem credentialWritten_of_decrypt (hideal : OpensOnlyAsSealed box done)
    (hproduced : Produced box done stored) {secret : String}
    (hdecrypt : box.decrypt stored (credentialData id) = .ok secret) :
    CredentialWritten done id secret := by
  obtain ⟨op, hop, e, he, hdata, hgives⟩ := hideal stored _ secret hproduced hdecrypt
  have hopens := SecretBox.decrypt_of_encrypt hgives
  rw [hdata, hdecrypt] at hopens
  obtain rfl : secret = e.plaintext := Except.ok.inj hopens
  rcases mem_encryptions he with ⟨id', hcredential, hdata'⟩ | ⟨id', egressProxies, -, -, hdata'⟩
  · obtain rfl : id' = id := credentialData_injective (hdata'.symm.trans hdata)
    exact ⟨op, hop, hcredential⟩
  · exact absurd (hdata.symm.trans hdata') (credentialData_ne_egressData id id')

/-- What opens as the endpoints of an account was written for it. -/
theorem egressWritten_of_decrypt [LawfulSerde] (hideal : OpensOnlyAsSealed box done)
    (hproduced : Produced box done stored) {plaintext : String} {egressProxies : List String}
    (hdecrypt : box.decrypt stored (egressData id) = .ok plaintext)
    (hread : Serde.egressFromStr plaintext = .ok egressProxies) :
    EgressWritten done id egressProxies := by
  obtain ⟨op, hop, e, he, hdata, hgives⟩ := hideal stored _ plaintext hproduced hdecrypt
  have hopens := SecretBox.decrypt_of_encrypt hgives
  rw [hdata, hdecrypt] at hopens
  obtain rfl : plaintext = e.plaintext := Except.ok.inj hopens
  rcases mem_encryptions he with ⟨id', -, hdata'⟩ | ⟨id', written, hegress, htext, hdata'⟩
  · exact absurd (hdata'.symm.trans hdata) (credentialData_ne_egressData id' id)
  · obtain rfl : id' = id := egressData_injective (hdata'.symm.trans hdata)
    rw [htext, LawfulSerde.egressFromStr_toString] at hread
    obtain rfl : written = egressProxies := Except.ok.inj hread
    exact ⟨op, hop, hegress⟩

end Encryptions

/-! ## What the store holds -/

section Ledgers

variable [Serde] [Sealing] [Urls] [Chrono]

/-- A database, and the operations that have succeeded on it. -/
structure Ledger where
  database : Database
  done : List Op

/-- One operation. -/
def Ledger.step (box : SecretBox) (ledger : Ledger) (op : Op) : Ledger where
  database := (op.apply box ledger.database).1
  done := if (op.apply box ledger.database).2 = .ok true then ledger.done ++ [op] else ledger.done

/-- Where operations lead from the empty store. -/
def Ledger.reached (box : SecretBox) (ops : List Op) : Ledger :=
  Run.final (Ledger.step box) ⟨Database.empty, []⟩ ops

/-- A ciphertext one of the columns has. -/
def Database.HoldsCiphertext (database : Database) (stored : String) : Prop :=
  (∃ (id : String) (row : AccountRow), database.providerAccounts[id]? = some row ∧
    (row.credentialCiphertext = stored ∨ row.egressCiphertext = some stored)) ∨
  ∃ (id : String) (history : HistoryRow), database.credentialHistory[id]? = some history ∧
    history.credentialCiphertext = stored

/-- A row is of its own account, and its ciphertexts were encrypted to be
stored. -/
structure RowAccounted (box : SecretBox) (done : List Op) (id : String) (row : AccountRow) :
    Prop where
  own : ∃ account, Serde.accountFromStr row.accountJson = .ok account ∧ account.id = id
  credential : Produced box done row.credentialCiphertext
  egress : ∃ egress, row.egressCiphertext = some egress ∧ Produced box done egress

/-- The invariant. -/
structure Accounted (box : SecretBox) (done : List Op) (database : Database) : Prop where
  rows : ∀ (id : String) row, database.providerAccounts[id]? = some row →
    RowAccounted box done id row
  history : ∀ (id : String) history, database.credentialHistory[id]? = some history →
    Produced box done history.credentialCiphertext

variable {box : SecretBox} {done : List Op} {database : Database}

omit [Urls] [Chrono] in
theorem Accounted.produced (h : Accounted box done database) {stored : String}
    (hstored : database.HoldsCiphertext stored) : Produced box done stored := by
  rcases hstored with ⟨id, row, hrow, rfl | hegress⟩ | ⟨id, history, hhistory, rfl⟩
  · exact (h.rows id row hrow).credential
  · obtain ⟨egress, hrowEgress, hproduced⟩ := (h.rows id row hrow).egress
    rw [hegress] at hrowEgress
    exact Option.some.inj hrowEgress ▸ hproduced
  · exact h.history id history hhistory

omit [Urls] [Chrono] in
theorem Produced.mono {stored : String} (h : Produced box done stored) (op : Op) :
    Produced box (done ++ [op]) stored := by
  obtain ⟨earlier, hmem, e, he, hgives⟩ := h
  exact ⟨earlier, List.mem_append_left _ hmem, e, he, hgives⟩

omit [Urls] [Chrono] in
theorem Accounted.mono (h : Accounted box done database) (op : Op) :
    Accounted box (done ++ [op]) database where
  rows id row hrow :=
    { own := (h.rows id row hrow).own
      credential := (h.rows id row hrow).credential.mono op
      egress := by
        obtain ⟨egress, hegress, hproduced⟩ := (h.rows id row hrow).egress
        exact ⟨egress, hegress, hproduced.mono op⟩ }
  history id history hhistory := (h.history id history hhistory).mono op

omit [Urls] [Chrono] in
theorem produced_last {op : Op} (e : Encryption) (he : e ∈ op.encryptions) {stored : String}
    (hgives : e.Gives box stored) : Produced box (done ++ [op]) stored :=
  ⟨op, List.mem_append_right _ (List.mem_singleton_self op), e, he, hgives⟩

/-! One lemma for each section that writes. -/

section Sections

variable {id : String} {row : AccountRow}

omit [Urls] [Chrono] in
theorem Accounted.upsert (h : Accounted box done database) (hnew : RowAccounted box done id row) :
    Accounted box done (database.exec (.upsert id row)).1 where
  rows id' current hcurrent := by
    rw [Database.accounts_upsert] at hcurrent
    split at hcurrent
    · rename_i hid
      obtain rfl := Option.some.inj hcurrent
      exact hid ▸ hnew
    · exact h.rows id' current hcurrent
  history id' history hhistory := by
    rw [Database.history_upsert] at hhistory
    split at hhistory
    · cases hhistory
    · exact h.history id' history hhistory

omit [Urls] [Chrono] in
theorem Accounted.rotate (h : Accounted box done database) (expiresAt : String)
    (hnew : RowAccounted box done id row) :
    Accounted box done (database.exec (.rotate id row expiresAt)).1 where
  rows id' current hcurrent := by
    rw [Database.accounts_rotate] at hcurrent
    split at hcurrent
    · rename_i hid
      obtain rfl := Option.some.inj hcurrent
      exact hid ▸ hnew
    · exact h.rows id' current hcurrent
  history id' history hhistory := by
    rw [Database.history_rotate] at hhistory
    split at hhistory
    · -- the history has what the account had, if it was there
      cases hprevious : database.providerAccounts[id]? with
      | none =>
          rw [hprevious] at hhistory
          exact h.history id history hhistory
      | some previous =>
          rw [hprevious] at hhistory
          obtain rfl := Option.some.inj hhistory
          exact (h.rows id previous hprevious).credential
    · exact h.history id' history hhistory

omit [Urls] [Chrono] in
theorem Accounted.replace (h : Accounted box done database) (expected expiresAt : String)
    {ciphertext : String} (hnew : Produced box done ciphertext) :
    Accounted box done (database.exec (.replace id expected ciphertext expiresAt)).1 := by
  by_cases hmade : ∃ row, database.providerAccounts[id]? = some row ∧
      row.credentialCiphertext = expected
  · obtain ⟨row, hrow, rfl⟩ := hmade
    rw [Database.exec_replace_of_eq _ _ hrow rfl]
    have hbefore := h.rows id row hrow
    refine ⟨fun id' current hcurrent => ?_, fun id' history hhistory => ?_⟩
    · simp only [Std.ExtTreeMap.getElem?_insert, Std.LawfulEqCmp.compare_eq_iff_eq] at hcurrent
      split at hcurrent
      · rename_i hid
        obtain rfl := Option.some.inj hcurrent
        exact hid ▸ ⟨hbefore.own, hnew, hbefore.egress⟩
      · exact h.rows id' current hcurrent
    · simp only [Std.ExtTreeMap.getElem?_insert, Std.LawfulEqCmp.compare_eq_iff_eq] at hhistory
      split at hhistory
      · obtain rfl := Option.some.inj hhistory
        exact hbefore.credential
      · exact h.history id' history hhistory
  · rw [Database.exec_replace_of_ne _ _ fun row hrow hsame => hmade ⟨row, hrow, hsame⟩]
    exact h

omit [Urls] [Chrono] in
theorem Accounted.updateAccountJson (h : Accounted box done database)
    {accountJson : Serde.AccountJson}
    (hown : ∃ account, Serde.accountFromStr accountJson = .ok account ∧ account.id = id) :
    Accounted box done (database.exec (.updateAccountJson id accountJson)).1 where
  rows id' current hcurrent := by
    rw [Database.accounts_updateAccountJson] at hcurrent
    split at hcurrent
    · rename_i hid
      obtain ⟨before, hbefore, rfl⟩ := Option.map_eq_some_iff.mp hcurrent
      have haccounted := h.rows id before hbefore
      exact hid ▸ ⟨hown, haccounted.credential, haccounted.egress⟩
    · exact h.rows id' current hcurrent
  history := h.history

omit [Urls] [Chrono] in
theorem Accounted.deleteAccount (h : Accounted box done database) (id : String) :
    Accounted box done (database.exec (.deleteAccount id)).1 where
  rows id' current hcurrent := by
    rw [Database.accounts_deleteAccount] at hcurrent
    split at hcurrent
    · cases hcurrent
    · exact h.rows id' current hcurrent
  history id' history hhistory := by
    rw [Database.history_deleteAccount] at hhistory
    split at hhistory
    · cases hhistory
    · exact h.history id' history hhistory

end Sections

variable [LawfulSerde]

omit [Chrono] in
/-- The row of an account is accounted for by the operation that writes it. -/
theorem rowAccounted_of_sealedRow {nonces : WriteNonces} {account : ProviderAccount}
    {credential : String} {row : AccountRow} {op : Op}
    (hop : op.encryptions =
      [⟨nonces.egress, Serde.egressToString account.egressProxies, egressData account.id⟩,
        ⟨nonces.credential, credential, credentialData account.id⟩])
    (h : sealedRow box nonces account credential = .ok row) :
    RowAccounted box (done ++ [op]) account.id row := by
  obtain ⟨accountJson, egress, ciphertext, hvalues, hcredential, rfl⟩ := sealedRow_eq_ok h
  obtain ⟨endpoints, -, hegress, rfl⟩ := accountStorageValues_eq_ok hvalues
  refine ⟨⟨_, LawfulSerde.accountFromStr_toString _, rfl⟩, ?_, ?_⟩
  · refine produced_last ⟨nonces.credential, credential, credentialData account.id⟩ ?_ hcredential
    rw [hop]
    exact List.mem_cons_of_mem _ (List.mem_singleton_self _)
  · refine ⟨egress, rfl, ?_⟩
    refine produced_last ⟨nonces.egress, _, egressData account.id⟩ ?_ hegress
    rw [hop]
    exact List.mem_cons_self

/-- **Every operation** keeps the store accounted for. -/
theorem accounted_step {ledger : Ledger} (h : Accounted box ledger.done ledger.database) (op : Op) :
    Accounted box (ledger.step box op).done (ledger.step box op).database := by
  rcases apply_cases box ledger.database op with ⟨hsame, hnot⟩ | ⟨s, hs, heq⟩
  · rw [Ledger.step, hsame, if_neg hnot]
    exact h
  · rw [Ledger.step, heq, if_pos rfl]
    cases hs with
    | upsert hrow => exact (h.mono _).upsert (rowAccounted_of_sealedRow rfl hrow)
    | rotate hrow => exact (h.mono _).rotate _ (rowAccounted_of_sealedRow rfl hrow)
    | replace hcipher hrow hcurrent =>
        exact (h.mono _).replace _ _ (produced_last ⟨_, _, _⟩ List.mem_cons_self hcipher)
    | setEnabled hrow haccount =>
        obtain ⟨account, hown, hid⟩ := (h.rows _ _ hrow).own
        obtain rfl := Except.ok.inj (haccount.symm.trans hown)
        exact (h.mono _).updateAccountJson ⟨_, LawfulSerde.accountFromStr_toString _, hid⟩
    | delete hpresent => exact (h.mono _).deleteAccount _

theorem accounted_reached (box : SecretBox) (ops : List Op) :
    Accounted box (Ledger.reached box ops).done (Ledger.reached box ops).database := by
  refine Run.final_induct_of_step
    (I := fun ledger : Ledger => Accounted box ledger.done ledger.database)
    (fun ledger op h => accounted_step h op) ?_
  constructor
  · intro id row hrow
    simp [Database.empty] at hrow
  · intro id history hhistory
    simp [Database.empty] at hhistory

end Ledgers

/-! ## Rearranged ciphertexts -/

section Reading

variable [Serde] [Sealing] {box : SecretBox} {done : List Op}

/-- **What an adversary may make of the tables**: any of the stored ciphertexts
in each of the three columns. The texts of the accounts stay where they are.
Rows may go missing, and the history may be any. -/
structure Rearranged (database tampered : Database) : Prop where
  accountJson : ∀ (id : String) row, tampered.providerAccounts[id]? = some row →
    ∃ before, database.providerAccounts[id]? = some before ∧ row.accountJson = before.accountJson
  credential : ∀ (id : String) row, tampered.providerAccounts[id]? = some row →
    database.HoldsCiphertext row.credentialCiphertext
  egress : ∀ (id : String) row, tampered.providerAccounts[id]? = some row →
    ∃ egress, row.egressCiphertext = some egress ∧ database.HoldsCiphertext egress
  history : ∀ (id : String) history, tampered.credentialHistory[id]? = some history →
    database.HoldsCiphertext history.credentialCiphertext

/-- The form of a stored value, `v1.<nonce>.<ciphertext>`. -/
def WellFormed (stored : String) : Prop :=
  ∃ nonce encrypted, stored = "v1." ++ nonce ++ "." ++ encrypted ∧
    '.' ∉ nonce.toList ∧ '.' ∉ encrypted.toList ∧
    (∃ bytes, Sealing.base64UrlDecode nonce = some bytes ∧ bytes.length = 24) ∧
    ∃ bytes, Sealing.base64UrlDecode encrypted = some bytes

omit [Serde] in
theorem wellFormed_of_parts {stored : String} {found : Bytes × Bytes}
    (h : SecretBox.parts stored = some found) : WellFormed stored := by
  unfold SecretBox.parts at h
  split at h
  · rename_i nonce encrypted hsplit
    have hpieces : stored.toList.splitOn '.' = ["v1".toList, nonce.toList, encrypted.toList] := by
      have htexts := congrArg (List.map String.toList) hsplit
      simpa [List.map_map, Function.comp_def] using htexts
    have hfree : ∀ piece ∈ stored.toList.splitOn '.', '.' ∉ piece :=
      fun piece hmem => notMem_of_mem_splitOn hmem
    rw [hpieces] at hfree
    have hjoined : ['.'].intercalate (stored.toList.splitOn '.') = stored.toList :=
      List.intercalate_splitOn '.'
    have htext : stored = "v1." ++ nonce ++ "." ++ encrypted := by
      rw [← String.toList_inj, ← hjoined, hpieces]
      simp [List.intercalate]
    split at h
    · rename_i nonceBytes bytes hnonce hencrypted
      split at h
      · rename_i hlength
        exact ⟨nonce, encrypted, htext, hfree _ (by simp), hfree _ (by simp),
          ⟨nonceBytes, hnonce, hlength⟩, bytes, hencrypted⟩
      · cases h
    · cases h
  · cases h

omit [Serde] in
/-- **Anything of another form is rejected.** -/
theorem decrypt_of_not_wellFormed {stored : String} (h : ¬ WellFormed stored)
    (associatedData : Bytes) : box.decrypt stored associatedData = .error .invalidCiphertext := by
  unfold SecretBox.decrypt
  cases hparts : SecretBox.parts stored with
  | none => rfl
  | some found => exact absurd (wellFormed_of_parts hparts) h

omit [Serde] in
theorem wellFormed_of_decrypt {stored plaintext : String} {associatedData : Bytes}
    (h : box.decrypt stored associatedData = .ok plaintext) : WellFormed stored := by
  by_contra hform
  rw [decrypt_of_not_wellFormed hform] at h
  cases h

/-- What a row is loaded as. -/
theorem loadedRow_eq_ok {id : String} {found : Option AccountRow} {account : ProviderAccount}
    {token : String} (h : loadedRow box id found = .ok (account, token)) :
    ∃ row stored secret expiry, found = some row ∧
      Serde.accountFromStr row.accountJson = .ok stored ∧
      hydrateAccountEgress box stored row.egressCiphertext = .ok account ∧
      box.decrypt row.credentialCiphertext (credentialData id) = .ok secret ∧
      decodedCredential account.kind secret = .ok (token, expiry) := by
  unfold loadedRow at h
  split at h
  · cases h
  · rename_i row
    split at h
    · cases h
    · rename_i opened secret hopened
      obtain ⟨stored, hstored, hhydrated, hsecret⟩ := openedRow_eq_ok_iff.mp hopened
      split at h
      · cases h
      · rename_i accessToken expiry hdecoded
        cases h
        exact ⟨row, stored, secret, expiry, rfl, hstored, hhydrated, hsecret, hdecoded⟩

/-- Endpoints that are filled in come of the ciphertext. -/
theorem hydrate_eq_ok {stored account : ProviderAccount} {egress : String} (hegress : egress ≠ "")
    (h : hydrateAccountEgress box stored (some egress) = .ok account) :
    ∃ plaintext egressProxies, box.decrypt egress (egressData stored.id) = .ok plaintext ∧
      Serde.egressFromStr plaintext = .ok egressProxies ∧
      account = { stored with egressProxies := egressProxies } := by
  simp only [hydrateAccountEgress, Option.filter_some, decide_eq_true hegress, if_true] at h
  split at h
  · cases h
  · rename_i plaintext hplaintext
    split at h
    · cases h
    · rename_i egressProxies hread
      exact ⟨plaintext, egressProxies, hplaintext, hread, (Except.ok.inj h).symm⟩

theorem ne_empty_of_produced [LawfulSealing] {stored : String}
    (h : Produced box done stored) : stored ≠ "" := by
  obtain ⟨op, -, e, -, hgives⟩ := h
  exact SecretBox.ne_empty_of_encrypt hgives

/-- **What is loaded for an account was written for it**, wherever the
ciphertexts are. -/
theorem loaded_written [LawfulSerde] [LawfulSealing] {database tampered : Database}
    (hideal : OpensOnlyAsSealed box done) (haccounted : Accounted box done database)
    (hrearranged : Rearranged database tampered) {id token : String} {account : ProviderAccount}
    (h : loadedRow box id tampered.providerAccounts[id]? = .ok (account, token)) :
    account.id = id ∧ EgressWritten done id account.egressProxies ∧
      ∃ secret expiry, CredentialWritten done id secret ∧
        decodedCredential account.kind secret = .ok (token, expiry) := by
  obtain ⟨row, stored, secret, expiry, hrow, hstored, hhydrated, hsecret, hdecoded⟩ :=
    loadedRow_eq_ok h
  obtain ⟨before, hbefore, hjson⟩ := hrearranged.accountJson id row hrow
  obtain ⟨own, hown, hid⟩ := (haccounted.rows id before hbefore).own
  obtain rfl : own = stored := by
    rw [hjson, hown] at hstored
    exact Except.ok.inj hstored
  obtain ⟨egress, hegress, hheld⟩ := hrearranged.egress id row hrow
  have hproduced := haccounted.produced hheld
  rw [hegress] at hhydrated
  obtain ⟨plaintext, egressProxies, hopens, hread, rfl⟩ :=
    hydrate_eq_ok (ne_empty_of_produced hproduced) hhydrated
  rw [hid] at hopens
  refine ⟨hid, egressWritten_of_decrypt hideal hproduced hopens hread, secret, expiry, ?_, hdecoded⟩
  exact credentialWritten_of_decrypt hideal
    (haccounted.produced (hrearranged.credential id row hrow)) hsecret

variable [Chrono] [Digests]

/-- What an account enters a snapshot with, when it is made of credentials that
were written for it: one is its own, and the history may add another. -/
def EntersWith (authenticator : Authenticator) (done : List Op) (account : ProviderAccount)
    (entered : AccountCredential) : Prop :=
  ∃ secret token expiry filled, CredentialWritten done account.id secret ∧
    decodedCredential account.kind secret = .ok (token, expiry) ∧
    (filled = (AccountCredential.active' authenticator account.id token).withCurrentExpiry expiry ∨
      ∃ previous previousToken previousExpiry validUntil,
        CredentialWritten done account.id previous ∧
        decodedCredential account.kind previous = .ok (previousToken, previousExpiry) ∧
        filled = ((AccountCredential.active' authenticator account.id token).withCurrentExpiry
          expiry).withPrevious authenticator previousToken validUntil) ∧
    (if account.enabled then filled else filled.paused) = entered

/-- **What an account enters a snapshot with was written for it.** -/
theorem entersWith_of_accountCredential [LawfulSealing] {database tampered : Database}
    (hideal : OpensOnlyAsSealed box done) (haccounted : Accounted box done database)
    (hrearranged : Rearranged database tampered) {authenticator : Authenticator} {now : DateTime}
    {id : String} {row : AccountRow} {entered : AccountCredential}
    (hrow : tampered.providerAccounts[id]? = some row)
    (h : accountCredential box authenticator now row tampered.credentialHistory[id]? =
      .ok entered) :
    ∃ account, Serde.accountFromStr row.accountJson = .ok account ∧ account.id = id ∧
      EntersWith authenticator done account entered := by
  obtain ⟨account, secret, token, expiry, filled, haccount, hsecret, hdecoded, hfilled, rfl⟩ :=
    accountCredential_eq_ok_iff.mp h
  obtain ⟨before, hbefore, hjson⟩ := hrearranged.accountJson id row hrow
  obtain ⟨own, hown, hid⟩ := (haccounted.rows id before hbefore).own
  obtain rfl : own = account := by
    rw [hjson, hown] at haccount
    exact Except.ok.inj haccount
  refine ⟨own, haccount, hid, secret, token, expiry, filled, ?_, hdecoded, ?_, rfl⟩
  · exact credentialWritten_of_decrypt hideal
      (haccounted.produced (hrearranged.credential id row hrow)) hsecret
  · cases hhistory : tampered.credentialHistory[id]? with
    | none =>
        rw [hhistory] at hfilled
        exact .inl (Except.ok.inj hfilled).symm
    | some history =>
        rw [hhistory] at hfilled
        obtain ⟨validUntil, -, ⟨-, rfl⟩ | ⟨-, previous, previousToken, previousExpiry, hprevious,
          hpreviousDecoded, rfl⟩⟩ := withHistory_eq_ok_iff.mp hfilled
        · exact .inl rfl
        · refine .inr ⟨previous, previousToken, previousExpiry, validUntil, ?_, hpreviousDecoded,
            rfl⟩
          exact credentialWritten_of_decrypt hideal
            (haccounted.produced (hrearranged.history id history hhistory)) hprevious

/-! ## What reading comes to -/

/-- An account of which a snapshot is made. -/
theorem accountCredential_of_snapshot {database : Database} {authenticator : Authenticator}
    {now : DateTime} {snapshot : CredentialSnapshot} {id : String} {row : AccountRow}
    (h : ((credentialSnapshot box authenticator now).run Database.exec database).2 = .ok snapshot)
    (hrow : database.providerAccounts[id]? = some row) :
    ∃ entered, accountCredential box authenticator now row database.credentialHistory[id]? =
      .ok entered := by
  obtain ⟨credentials, -, hentries⟩ := credentialSnapshot_eq_ok_iff.mp h
  obtain ⟨entered, -, hentry⟩ := exists_of_mem_forall₂ hentries.flip
    (Std.ExtTreeMap.mem_toList_iff_getElem?_eq_some.mpr hrow)
  exact ⟨entered, hentry.2⟩

/-- **Reading what was written.** Loading an account fails, or gives endpoints
and a token that were once written for it, and a snapshot fails, or every
account enters it with credentials that were. -/
structure ReadsWritten (box : SecretBox) (done : List Op) (tampered : Database) : Prop where
  load : ∀ id account token,
    ((loadAccount box id).run Database.exec tampered).2 = .ok (account, token) →
    account.id = id ∧ EgressWritten done id account.egressProxies ∧
      ∃ secret expiry, CredentialWritten done id secret ∧
        decodedCredential account.kind secret = .ok (token, expiry)
  snapshot : ∀ authenticator now snapshot,
    ((credentialSnapshot box authenticator now).run Database.exec tampered).2 = .ok snapshot →
    ∃ credentials, snapshot = .available credentials ∧
      List.Forall₂ (fun (entry : String × AccountRow) entered =>
        ∃ account, Serde.accountFromStr entry.2.accountJson = .ok account ∧
          account.id = entry.1 ∧ EntersWith authenticator done account entered)
        tampered.providerAccounts.toList credentials

/-- **Reading nothing else.** Where a ciphertext that is opened is not of the
form, loading an account or taking a snapshot fails. An empty text stands for
no endpoints, and a history whose time is over is not opened. -/
structure RejectsMalformed (box : SecretBox) (database : Database) : Prop where
  loadCredential : ∀ (id : String) row, database.providerAccounts[id]? = some row →
    ¬ WellFormed row.credentialCiphertext →
    ∀ loaded, ((loadAccount box id).run Database.exec database).2 ≠ .ok loaded
  loadEgress : ∀ (id : String) row egress, database.providerAccounts[id]? = some row →
    row.egressCiphertext = some egress → egress ≠ "" → ¬ WellFormed egress →
    ∀ loaded, ((loadAccount box id).run Database.exec database).2 ≠ .ok loaded
  snapshotCredential : ∀ (id : String) row, database.providerAccounts[id]? = some row →
    ¬ WellFormed row.credentialCiphertext → ∀ authenticator now snapshot,
    ((credentialSnapshot box authenticator now).run Database.exec database).2 ≠ .ok snapshot
  snapshotHistory : ∀ (id : String) row history validUntil,
    database.providerAccounts[id]? = some row → database.credentialHistory[id]? = some history →
    Chrono.parseFromRfc3339 history.expiresAt = some validUntil →
    ¬ WellFormed history.credentialCiphertext → ∀ authenticator now snapshot, now < validUntil →
    ((credentialSnapshot box authenticator now).run Database.exec database).2 ≠ .ok snapshot

theorem rejectsMalformed (box : SecretBox) (database : Database) :
    RejectsMalformed box database where
  loadCredential id row hrow hform := by
    rintro ⟨account, token⟩ hload
    obtain ⟨found, stored, secret, expiry, hfound, -, -, hsecret, -⟩ := loadedRow_eq_ok hload
    obtain rfl := Option.some.inj (hrow.symm.trans hfound)
    exact hform (wellFormed_of_decrypt hsecret)
  loadEgress id row egress hrow hegress hne hform := by
    rintro ⟨account, token⟩ hload
    obtain ⟨found, stored, secret, expiry, hfound, -, hhydrated, -, -⟩ := loadedRow_eq_ok hload
    obtain rfl := Option.some.inj (hrow.symm.trans hfound)
    rw [hegress] at hhydrated
    obtain ⟨plaintext, egressProxies, hopens, -, -⟩ := hydrate_eq_ok hne hhydrated
    exact hform (wellFormed_of_decrypt hopens)
  snapshotCredential id row hrow hform authenticator now snapshot hsnapshot := by
    obtain ⟨entered, hentered⟩ := accountCredential_of_snapshot hsnapshot hrow
    obtain ⟨account, secret, token, expiry, filled, -, hsecret, -⟩ :=
      accountCredential_eq_ok_iff.mp hentered
    exact hform (wellFormed_of_decrypt hsecret)
  snapshotHistory id row history validUntil hrow hhistory hparse hform authenticator now snapshot
      hvalid hsnapshot := by
    obtain ⟨entered, hentered⟩ := accountCredential_of_snapshot hsnapshot hrow
    obtain ⟨account, secret, token, expiry, filled, -, -, -, hfilled, -⟩ :=
      accountCredential_eq_ok_iff.mp hentered
    rw [hhistory] at hfilled
    obtain ⟨validUntil', hparse', hcases⟩ := withHistory_eq_ok_iff.mp hfilled
    obtain rfl := Option.some.inj (hparse.symm.trans hparse')
    rcases hcases with ⟨hover, -⟩ | ⟨-, previous, previousToken, previousExpiry, hprevious, -, -⟩
    · exact absurd hvalid (not_lt.mpr hover)
    · exact hform (wellFormed_of_decrypt hprevious)

end Reading

/-- **Ciphertexts are bound to an account and a purpose.** Whatever operations
have led to a store, and however its ciphertexts are rearranged, what is read
for an account was once written for it. And a string that has not the form
`v1.<nonce>.<ciphertext>` is rejected wherever it is opened. -/
theorem ciphertexts_bound [Serde] [Sealing] [Urls] [Chrono] [Digests] [LawfulSerde] [LawfulSealing]
    (box : SecretBox) (ops : List Op)
    (hideal : OpensOnlyAsSealed box (Ledger.reached box ops).done) :
    (∀ tampered, Rearranged (Ledger.reached box ops).database tampered →
      ReadsWritten box (Ledger.reached box ops).done tampered) ∧
    (∀ stored associatedData, ¬ WellFormed stored →
      box.decrypt stored associatedData = .error .invalidCiphertext) ∧
    ∀ database, RejectsMalformed box database := by
  have haccounted := accounted_reached box ops
  refine ⟨fun tampered hrearranged => ⟨fun id account token h => ?_,
    fun authenticator now snapshot h => ?_⟩,
    fun stored associatedData hform => decrypt_of_not_wellFormed hform associatedData,
    rejectsMalformed box⟩
  · exact loaded_written hideal haccounted hrearranged h
  · obtain ⟨credentials, rfl, hentries⟩ := credentialSnapshot_eq_ok_iff.mp h
    refine ⟨credentials, rfl, hentries.imp fun entry entered hentry => ?_⟩
    exact entersWith_of_accountCredential hideal haccounted hrearranged hentry.1 hentry.2

/-! ## Two accounts that swap credentials -/

/-- Where no ciphertext opens under other data, what was stored does not. -/
theorem opensOnlyAsSealed_of_ideal [Serde] [Sealing] [LawfulSealing] [IdealSealing]
    (box : SecretBox) (done : List Op) : OpensOnlyAsSealed box done := by
  rintro stored associatedData plaintext ⟨op, hop, e, he, hgives⟩ hdecrypt
  refine ⟨op, hop, e, he, ?_, hgives⟩
  unfold Encryption.Gives SecretBox.encrypt at hgives
  split at hgives
  · cases hgives
  · rename_i ciphertext hsealed
    cases hgives
    rw [SecretBox.decrypt, SecretBox.parts_encode] at hdecrypt
    simp only at hdecrypt
    split at hdecrypt
    · cases hdecrypt
    · rename_i message hopened
      exact (IdealSealing.associated_eq hsealed hopened).symm

namespace Labelled

/-- Bytes in front of others, which can be told from them. -/
def label : Bytes → Bytes
  | [] => [0]
  | byte :: rest => 1 :: byte :: label rest

/-- What is in front, and what follows. -/
def unlabel : Bytes → Option (Bytes × Bytes)
  | 0 :: message => some ([], message)
  | 1 :: byte :: rest => (unlabel rest).map fun found => (byte :: found.1, found.2)
  | _ => none

theorem unlabel_label (associated message : Bytes) :
    unlabel (label associated ++ message) = some (associated, message) := by
  induction associated with
  | nil => rfl
  | cons byte rest ih => simp [label, unlabel, ih]

/-- Sealing that puts the associated data in front of the message, and opens
it under no other. -/
@[reducible] def sealing : Sealing where
  encrypt _ _ associated message := some (label associated ++ message)
  decrypt _ _ associated sealed :=
    (unlabel sealed).bind fun found => if found.1 = associated then some found.2 else none
  base64UrlEncode := Sealing.clear.base64UrlEncode
  base64UrlDecode := Sealing.clear.base64UrlDecode

theorem lawful : @LawfulSealing sealing := by
  refine @LawfulSealing.mk sealing ?_ ?_ ?_
  · intro key nonce associated message sealed h
    obtain rfl := Option.some.inj h
    change (unlabel (label associated ++ message)).bind _ = _
    simp [unlabel_label]
  · exact @LawfulSealing.base64Url_decode_encode Sealing.clear Sealing.lawful_clear
  · exact @LawfulSealing.dot_notMem_base64Url Sealing.clear Sealing.lawful_clear

theorem ideal : @IdealSealing sealing := by
  refine @IdealSealing.mk sealing ?_
  intro key nonce associated associated' message message' sealed hsealed hopened
  obtain rfl := Option.some.inj hsealed
  change (unlabel (label associated ++ message)).bind _ = _ at hopened
  rw [unlabel_label, Option.bind_some] at hopened
  split at hopened
  · rename_i hsame
    exact hsame.symm
  · cases hopened

end Labelled

/-- Two accounts, each with a credential. -/
def twoWrites : List Op :=
  [.upsert ⟨Vector.replicate 24 0, Vector.replicate 24 0⟩ (Plain.account "a" .anthropicApiKey true)
      "one",
    .upsert ⟨Vector.replicate 24 0, Vector.replicate 24 0⟩ (Plain.account "b" .anthropicApiKey true)
      "two"]

/-- The tables with the credentials of the two swapped. -/
def swapCredentials [Serde] (database : Database) : Database :=
  { database with
    providerAccounts := database.providerAccounts.map fun id row =>
      { row with
        credentialCiphertext :=
          match database.providerAccounts[if id = "a" then "b" else "a"]? with
          | some other => other.credentialCiphertext
          | none => row.credentialCiphertext } }

theorem rearranged_swapCredentials [Serde] [Sealing] {box : SecretBox} {done : List Op}
    {database : Database} (h : Accounted box done database) :
    Rearranged database (swapCredentials database) := by
  have hbefore : ∀ (id : String) row, (swapCredentials database).providerAccounts[id]? = some row →
      ∃ before, database.providerAccounts[id]? = some before ∧
        row.accountJson = before.accountJson ∧ row.egressCiphertext = before.egressCiphertext ∧
        database.HoldsCiphertext row.credentialCiphertext := by
    intro id row hrow
    simp only [swapCredentials, Std.ExtTreeMap.getElem?_map] at hrow
    obtain ⟨before, hlookup, rfl⟩ := Option.map_eq_some_iff.mp hrow
    refine ⟨before, hlookup, rfl, rfl, .inl ?_⟩
    dsimp only
    cases hother : database.providerAccounts[if id = "a" then "b" else "a"]? with
    | none => exact ⟨id, before, hlookup, .inl rfl⟩
    | some other => exact ⟨_, other, hother, .inl rfl⟩
  constructor
  · intro id row hrow
    obtain ⟨before, hlookup, hjson, -, -⟩ := hbefore id row hrow
    exact ⟨before, hlookup, hjson⟩
  · intro id row hrow
    obtain ⟨before, -, -, -, hholds⟩ := hbefore id row hrow
    exact hholds
  · intro id row hrow
    obtain ⟨before, hlookup, -, hegress, -⟩ := hbefore id row hrow
    obtain ⟨egress, hsome, -⟩ := (h.rows id before hlookup).egress
    exact ⟨egress, hegress.trans hsome, .inl ⟨id, before, hlookup, .inr hsome⟩⟩
  · intro id history hhistory
    exact .inr ⟨id, history, hhistory, rfl⟩

open scoped Plain in
/-- With the credential of another account in its row, an account is not
loaded with that. -/
theorem ciphertexts_bound_swapped :
    letI := Labelled.sealing
    let reached := Ledger.reached Plain.box twoWrites
    Rearranged reached.database (swapCredentials reached.database) ∧
      ∀ account token, ((loadAccount Plain.box "a").run Database.exec
        (swapCredentials reached.database)).2 = .ok (account, token) → token = "one" := by
  let := Labelled.sealing
  have := Labelled.lawful
  have := Labelled.ideal
  intro reached
  have hswapped := rearranged_swapCredentials (accounted_reached Plain.box twoWrites)
  obtain ⟨hreads, -, -⟩ := ciphertexts_bound Plain.box twoWrites
    (opensOnlyAsSealed_of_ideal Plain.box reached.done)
  refine ⟨hswapped, fun account token hload => ?_⟩
  obtain ⟨-, -, secret, expiry, ⟨op, hop, hwritten⟩, hdecoded⟩ :=
    (hreads _ hswapped).load "a" account token hload
  have hdone : reached.done = twoWrites := rfl
  rw [hdone] at hop
  simp only [twoWrites, List.mem_cons, List.not_mem_nil, or_false] at hop
  rcases hop with rfl | rfl
  · obtain rfl : "one" = secret := congrArg Prod.snd (Option.some.inj hwritten)
    rw [decodedCredential, if_pos (.inr (by decide))] at hdecoded
    exact (congrArg Prod.fst (Except.ok.inj hdecoded)).symm
  · have hid : "b" = "a" := congrArg Prod.fst (Option.some.inj hwritten)
    exact absurd hid (by decide)

end Storage

end Llmap
