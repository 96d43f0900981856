import Llmap.Service.Admission
import Llmap.Service.Guard
/-!
# Revoked accounts

An account that is deleted, or paused, is out of use for every request that
comes in later. The store is asked by each request anew: what a client is let
in by is read from the tables, and so is what goes out. A request that has read
already, and the router, which may still have the account listed, make no
difference to that.

An account that is deleted stays so until it is created again: a pause or a
refresh of it that is still under way writes to no row.
-/

namespace Llmap

open Auth Providers Secrets Storage

namespace Storage

variable [Serde] {id : String} {database : Database}

/-- What gives an id a row. -/
def Section.creates (id : String) : Section → Prop
  | .upsert id' _ | .rotate id' _ _ => id' = id
  | _ => False

/-- What may let an account be used again. -/
def Section.restores (id : String) : Section → Prop
  | .updateAccountJson id' _ => id' = id
  | s => s.creates id

/-- There is no enabled account under an id. -/
def Database.Barred (id : String) (database : Database) : Prop :=
  ∀ row account, database.providerAccounts[id]? = some row →
    Serde.accountFromStr row.accountJson = .ok account → account.enabled = false

/-- A row that is there has been written before. -/
theorem Database.row_exec {s : Section} {row : AccountRow}
    (h : (database.exec s).1.providerAccounts[id]? = some row) :
    s.creates id ∨ ∃ was, database.providerAccounts[id]? = some was ∧
      (row.accountJson = was.accountJson ∨ s = .updateAccountJson id row.accountJson) := by
  cases s with
  | upsert id' row' =>
      rw [accounts_upsert] at h
      split at h
      · exact .inl ‹_›
      · exact .inr ⟨row, h, .inl rfl⟩
  | rotate id' row' expiresAt =>
      rw [accounts_rotate] at h
      split at h
      · exact .inl ‹_›
      · exact .inr ⟨row, h, .inl rfl⟩
  | replace id' expected ciphertext expiresAt =>
      simp only [exec] at h
      split at h
      · exact .inr ⟨row, h, .inl rfl⟩
      · rename_i found hfound
        simp only [Std.ExtTreeMap.getElem?_insert, Std.LawfulEqCmp.compare_eq_iff_eq] at h
        split at h
        · rename_i hid
          obtain rfl := Option.some.inj h
          exact .inr ⟨found, hid ▸ (Option.filter_eq_some_iff.mp hfound).1, .inl rfl⟩
        · exact .inr ⟨row, h, .inl rfl⟩
  | updateAccountJson id' accountJson =>
      rw [accounts_updateAccountJson] at h
      split at h
      · rename_i hid
        obtain ⟨found, hfound, rfl⟩ := Option.map_eq_some_iff.mp h
        exact .inr ⟨found, hid ▸ hfound, .inr (by rw [hid])⟩
      · exact .inr ⟨row, h, .inl rfl⟩
  | deleteAccount id' =>
      rw [accounts_deleteAccount] at h
      split at h
      · cases h
      · exact .inr ⟨row, h, .inl rfl⟩
  | selectAccount | selectAccounts | selectCredentials | insertAudit =>
      exact .inr ⟨row, h, .inl rfl⟩

/-- An id without a row stays without, until one is created. -/
theorem Database.absent_exec {s : Section} (h : database.providerAccounts[id]? = none)
    (hs : ¬ s.creates id) : (database.exec s).1.providerAccounts[id]? = none := by
  refine Option.eq_none_iff_forall_ne_some.mpr fun row hrow => ?_
  rcases row_exec hrow with hcreates | ⟨was, hwas, -⟩
  · exact hs hcreates
  · rw [h] at hwas
    cases hwas

/-- An account that is not enabled stays so, until it is written again. -/
theorem Database.Barred.exec {s : Section} (h : database.Barred id) (hs : ¬ s.restores id) :
    (database.exec s).1.Barred id := by
  intro row account hrow haccount
  rcases row_exec hrow with hcreates | ⟨was, hwas, hsame | rfl⟩
  · refine absurd ?_ hs
    cases s <;> first | exact hcreates | exact hcreates.elim
  · exact h was account hwas (hsame ▸ haccount)
  · exact absurd rfl hs

/-- An account that is paused is not enabled. -/
theorem Database.barred_paused [LawfulSerde] (database : Database) (id : String)
    (account : ProviderAccount) :
    (database.exec (.updateAccountJson id
      (Serde.accountToString { account with enabled := false }))).1.Barred id := by
  intro row found hrow hfound
  rw [accounts_updateAccountJson, if_pos rfl] at hrow
  obtain ⟨was, -, rfl⟩ := Option.map_eq_some_iff.mp hrow
  rw [LawfulSerde.accountFromStr_toString] at hfound
  rw [← Except.ok.inj hfound]

end Storage

/-! ## Any tasks, however they interleave -/

namespace Service

open DataPlane (UpstreamRequest)
open DataPlane.Transport (Client)

section Interleaved

variable [Serde] [Sealing] [Urls] [Chrono] [Codecs] [Digests] [Argon2] {ι ω : Type} [DecidableEq ι]
variable {world : World ω} {setup : Setup} {state : State ω}

omit [Codecs] in
/-- **What a newcomer finds in the tables**: what one section leaves, and the
sections after it keep. -/
theorem tables_since {I : Database → Prop} {ok : Storage.Section → Prop}
    (hexec : ∀ database s, I database → ok s → I (database.exec s).1) {s : Storage.Section}
    (hs : ∀ row, s ≠ .insertAudit row) (hleaves : ∀ database : Database, I (database.exec s).1)
    {early since earlier later : Log ι} {i j : ι} {answer : s.Resp} {event : (o : Op) × o.Resp}
    (hsince : ∀ entry ∈ since, ∀ s, entry.2.1 = .store s → ok s)
    (hsplit : early ++ (j, ⟨.store s, answer⟩) :: since = earlier ++ (i, event) :: later)
    (hnew : Journal.own i early = []) (hne : ⟨.store s, answer⟩ ≠ event) :
    I (Journal.state (world.exec setup) state earlier).database := by
  obtain ⟨between, rfl, hbetween⟩ := Journal.exists_between hsplit hnew hne
  rw [Journal.state_append, Journal.state_cons]
  have hkeeps : ∀ (state : State ω) o, I state.database → (∀ s, o = .store s → ok s) →
      I (world.exec setup state o).1.database := by
    intro state o hI ho
    cases o with
    | store s =>
        change I (world.store state s).1.database
        obtain ⟨outside, heq | heq⟩ := world.store_state state s
        · rw [heq]
          exact hexec _ s hI (ho s rfl)
        · rw [heq]
          exact hI
    | _ => exact hI
  refine Journal.state_induct (I := fun state : State ω => I state.database) hkeeps ?_
    fun entry hentry => hsince entry (hbetween hentry)
  change I (world.store _ s).1.database
  rw [world.store_of_ne hs]
  exact hleaves _

/-- **A deleted account is out of use.** Whatever tasks there are and however
their steps interleave: once an account is deleted, and as long as it is not
created or rotated in, a request that comes in later is sent with what another
account's row held; and a service that enforces lets no such request in by a
token of the account. -/
theorem deleted_account_unused (world : World ω) (setup : Setup) (state : State ω)
    (tasks : ι → Task) (schedule : List ι) (early since after : Log ι) (i j : ι) (id : String)
    (deleted : Bool) (client : Client) (upstream : UpstreamRequest)
    (r : Except DataPlane.TransportError DataPlane.UpstreamResponse)
    (hlog : log world setup tasks state schedule =
      (early ++ (j, ⟨.store (.deleteAccount id), deleted⟩) :: since) ++
        (i, ⟨.transport (.dispatch client upstream), r⟩) :: after)
    (hnew : Journal.own i early = [])
    (hsince : ∀ entry ∈ since, ∀ s, entry.2.1 = .store s → ¬ s.creates id) :
    let before := early ++ (j, ⟨.store (.deleteAccount id), deleted⟩) :: since
    ∃ request token, (tasks i).passed setup = some request ∧
      DataPlane.presentedToken request.headers = .ok token ∧
      (∃ ask now accountId account credential, accountId ≠ id ∧
        ReadBy world setup state before i accountId account credential ∧
        DataPlane.upstreamRequest request ask now account credential = .ok upstream) ∧
      (setup.plane.authMode = .enforce →
        ∃ id', id' ≠ id ∧ AdmittedBy world setup state before i (token.getD "") id') := by
  intro before
  have hserial := serial_before hlog
  obtain ⟨-, k, hreaches⟩ := Pool.exists_of_journal hlog
  obtain ⟨request, past, complete, part, hpassed, hspelled, hown, hgrounded, -⟩ :=
    task_launched hreaches
  obtain ⟨token, now, snapshot, decision, ask, accountId, account, credential, htoken, hnow,
    hsnapshot, hdecision, hask, hload, hupstream⟩ := hgrounded
  have hsub : complete ⊆ Journal.own i before := by
    rw [hown]
    exact List.subset_append_left ..
  -- wherever the task reads, there is no row
  have hgone : ∀ {earlier later : Log ι} {event : (o : Op) × o.Resp},
      before = earlier ++ (i, event) :: later →
      ⟨.store (.deleteAccount id), deleted⟩ ≠ event →
      (Journal.state (world.exec setup) state earlier).database.providerAccounts[id]? = none :=
    fun hsplit hne => tables_since (I := fun database => database.providerAccounts[id]? = none)
      (fun _ _ habsent hs => Database.absent_exec habsent hs) (by simp) (fun database => by simp)
      hsince hsplit hnew hne
  refine ⟨request, token, hpassed, htoken, ⟨ask, now, accountId, account, credential, ?_, ?_,
    hupstream⟩, fun hmode => ?_⟩
  · rintro rfl
    obtain ⟨earlier, later, hsplit, hloaded⟩ := readBy_of_spelled hserial hspelled hsub hload
    rw [hgone hsplit (by rintro ⟨⟩)] at hloaded
    cases hloaded
  · exact readBy_of_spelled hserial hspelled hsub hload
  · rw [hmode] at hdecision
    obtain ⟨id', hadmitted⟩ := admittedBy_of_spelled hserial hspelled hsub hnow hsnapshot hdecision
    refine ⟨id', ?_, hadmitted⟩
    rintro rfl
    obtain ⟨_, earlier, rows, later, -, hsplit, row, account, hrow, -⟩ := hadmitted
    rw [hgone hsplit (by rintro ⟨⟩)] at hrow
    cases hrow

/-- **A paused account lets nobody in.** Whatever tasks there are and however
their steps interleave: once an account is paused, and as long as its row is not
written again, a service that enforces lets no request that comes in later go
out by a token of the account. -/
theorem paused_account_admits_nobody [LawfulSerde] (world : World ω) (setup : Setup)
    (hmode : setup.plane.authMode = .enforce) (state : State ω) (tasks : ι → Task)
    (schedule : List ι) (early since after : Log ι) (i j : ι) (id : String)
    (account : ProviderAccount) (client : Client) (upstream : UpstreamRequest)
    (r : Except DataPlane.TransportError DataPlane.UpstreamResponse)
    (hlog : log world setup tasks state schedule =
      (early ++ (j, ⟨.store (.updateAccountJson id
        (Serde.accountToString { account with enabled := false })), ()⟩) :: since) ++
          (i, ⟨.transport (.dispatch client upstream), r⟩) :: after)
    (hnew : Journal.own i early = [])
    (hsince : ∀ entry ∈ since, ∀ s, entry.2.1 = .store s → ¬ s.restores id) :
    ∃ request token id', (tasks i).passed setup = some request ∧
      DataPlane.presentedToken request.headers = .ok token ∧ id' ≠ id ∧
      AdmittedBy world setup state (early ++ (j, ⟨.store (.updateAccountJson id
        (Serde.accountToString { account with enabled := false })), ()⟩) :: since) i
          (token.getD "") id' := by
  obtain ⟨-, k, hreaches⟩ := Pool.exists_of_journal hlog
  obtain ⟨request, past, complete, part, hpassed, hspelled, hown, hgrounded, -⟩ :=
    task_launched hreaches
  obtain ⟨token, now, snapshot, decision, -, -, -, -, htoken, hnow, hsnapshot, hdecision, -⟩ :=
    hgrounded
  rw [hmode] at hdecision
  have hsub : complete ⊆ Journal.own i _ := hown ▸ List.subset_append_left ..
  obtain ⟨id', hadmitted⟩ :=
    admittedBy_of_spelled (serial_before hlog) hspelled hsub hnow hsnapshot hdecision
  refine ⟨request, token, id', hpassed, htoken, ?_, hadmitted⟩
  rintro rfl
  obtain ⟨_, earlier, rows, later, -, hsplit, row, found, hrow, hfound, henabled, -⟩ := hadmitted
  have hbarred : Database.Barred id' (Journal.state (world.exec setup) state earlier).database :=
    tables_since (fun _ _ hbarred hs => hbarred.exec hs) (by simp)
      (fun database => database.barred_paused id' account) hsince hsplit hnew (by rintro ⟨⟩)
  rw [hbarred row found hrow hfound] at henabled
  cases henabled

end Interleaved

/-! ## A request after a deletion, and after a pause -/

section Example

open scoped Plain

/-- What matters of a step here. -/
inductive Mark where
  | deleted (id : String)
  | rewritten (id : String) (accountJson : Serde.AccountJson)
  | created
  | dispatched
  | other
deriving DecidableEq

/-- Who makes a step, and what it is. -/
def mark : Fin 3 × (o : Op) × o.Resp → Fin 3 × Mark
  | (i, ⟨.store (.deleteAccount id), _⟩) => (i, .deleted id)
  | (i, ⟨.store (.updateAccountJson id accountJson), _⟩) => (i, .rewritten id accountJson)
  | (i, ⟨.store (.upsert ..), _⟩) | (i, ⟨.store (.rotate ..), _⟩) => (i, .created)
  | (i, ⟨.transport (.dispatch ..), _⟩) => (i, .dispatched)
  | (i, _) => (i, .other)

theorem eq_of_deleted {entry : Fin 3 × (o : Op) × o.Resp} {i : Fin 3} {id : String}
    (h : mark entry = (i, .deleted id)) :
    ∃ deleted, entry = (i, ⟨.store (.deleteAccount id), deleted⟩) := by
  unfold mark at h
  split at h <;> cases h
  exact ⟨_, rfl⟩

theorem eq_of_rewritten {entry : Fin 3 × (o : Op) × o.Resp} {i : Fin 3} {id : String}
    {accountJson : Serde.AccountJson} (h : mark entry = (i, .rewritten id accountJson)) :
    entry = (i, ⟨.store (.updateAccountJson id accountJson), ()⟩) := by
  unfold mark at h
  split at h <;> cases h
  rfl

theorem eq_of_dispatched {entry : Fin 3 × (o : Op) × o.Resp} {i : Fin 3}
    (h : mark entry = (i, .dispatched)) :
    ∃ client upstream r, entry = (i, ⟨.transport (.dispatch client upstream), r⟩) := by
  unfold mark at h
  split at h <;> cases h
  exact ⟨_, _, _, rfl⟩

theorem mark_fst (entry : Fin 3 × (o : Op) × o.Resp) : (mark entry).1 = entry.1 := by
  unfold mark
  split <;> rfl

/-- Other steps write no row. -/
theorem not_restores_of_other {entry : Fin 3 × (o : Op) × o.Resp} {i : Fin 3} (id : String)
    (h : mark entry = (i, .other)) {s : Storage.Section} (hs : entry.2.1 = .store s) :
    ¬ s.restores id := by
  obtain ⟨j, o, r⟩ := entry
  obtain rfl : o = .store s := hs
  cases s with
  | upsert | rotate | updateAccountJson => cases h
  | replace | selectAccount | selectAccounts | selectCredentials | deleteAccount | insertAudit =>
      exact fun hrestores => hrestores

/-- Other steps, by whom they are made. -/
def others (who : List (Fin 3)) : List (Fin 3 × Mark) := who.map (·, .other)

/-- A log with one step of interest, and another one later. -/
theorem exists_of_marks {journal : Log (Fin 3)} {quiet still rest : List (Fin 3)}
    {first second : Fin 3 × Mark}
    (h : journal.map mark = (others quiet ++ first :: others still) ++ second :: others rest)
    (hquiet : 2 ∉ quiet) :
    ∃ early entry since entry' after, journal = (early ++ entry :: since) ++ entry' :: after ∧
      mark entry = first ∧ mark entry' = second ∧ Journal.own 2 early = [] ∧
      ∀ later ∈ since, ∀ s, later.2.1 = .store s → ∀ id, ¬ s.restores id := by
  obtain ⟨left, right, rfl, hleft, hright⟩ := List.map_eq_append_iff.mp h
  obtain ⟨early, middle, rfl, hearly, hmiddle⟩ := List.map_eq_append_iff.mp hleft
  obtain ⟨entry, since, rfl, hfirst, hsince⟩ := List.map_eq_cons_iff.mp hmiddle
  obtain ⟨entry', after, rfl, hsecond, -⟩ := List.map_eq_cons_iff.mp hright
  refine ⟨early, entry, since, entry', after, rfl, hfirst, hsecond, ?_,
    fun later hlater s hs id => ?_⟩
  · have hown : early.filter (fun entry => entry.1 = 2) = [] := by
      refine List.filter_eq_nil_iff.mpr fun entry hentry hmine => hquiet ?_
      have hmem := List.mem_map_of_mem (f := mark) hentry
      rw [hearly] at hmem
      obtain ⟨i, hi, heq⟩ := List.mem_map.mp hmem
      have hfst := mark_fst entry
      rw [← heq] at hfst
      obtain rfl : i = 2 := hfst.trans (by simpa using hmine)
      exact hi
    rw [Journal.own, hown]
    rfl
  · have hmem := List.mem_map_of_mem (f := mark) hlater
    rw [hsince] at hmem
    obtain ⟨i, -, heq⟩ := List.mem_map.mp hmem
    exact not_restores_of_other id heq.symm hs

/-- A store of two accounts. -/
def twoRows [Sealing] : Database :=
  [("a", "key"), ("b", "other")].foldl (fun database (id, credential) =>
    ((upsertAccount Plain.box ⟨Vector.replicate 24 0, Vector.replicate 24 1⟩
      (Plain.account id .anthropicApiKey true) credential).run Database.exec database).1) .empty

/-- An administrator logs in and writes, and a client of the second account
asks for the models. -/
def afterwards (request : Admin.Request) : Fin 3 → Task
  | 0 => .login "127.0.0.1" "admin" "correct horse" (Vector.replicate 32 1) (Vector.replicate 32 2)
  | 1 => .write (presenting (hex (List.replicate 32 1)) (hex (List.replicate 32 2))) request
  | 2 => askingModels "other"

/-- What the write takes from outside. -/
def Ambient.still : Admin.Ambient :=
  ⟨minutes 0, minutes 0, ⟨Vector.replicate 24 0, Vector.replicate 24 1⟩⟩

/-- After the deletion of the first account the second one is used. -/
theorem deleted_account_unused_other :
    let := hexadecimal
    ∃ before accountId account credential, accountId ≠ "a" ∧
      ReadBy World.still Setup.plain (.fresh twoRows) before (2 : Fin 3) accountId account
        credential := by
  let := hexadecimal
  have hmarks : (log World.still Setup.plain (afterwards (.delete Ambient.still "a"))
      (.fresh twoRows) (List.replicate 2 0 ++ List.replicate 6 1 ++ List.replicate 11 2)).map mark =
      (others [0, 0, 1, 1] ++ (1, .deleted "a") :: others ([1, 1, 1] ++ List.replicate 10 2)) ++
        (2, .dispatched) :: others [] := by
    decide +kernel
  obtain ⟨early, entry, since, entry', after, hlog, hdeleted, hsent, hnew, hsince⟩ :=
    exists_of_marks hmarks (by decide)
  obtain ⟨deleted, rfl⟩ := eq_of_deleted hdeleted
  obtain ⟨client, upstream, r, rfl⟩ := eq_of_dispatched hsent
  have hcreated : ∀ entry ∈ since, ∀ s, entry.2.1 = .store s → ¬ s.creates "a" := by
    intro entry hentry s hs hcreates
    refine hsince entry hentry s hs "a" ?_
    cases s <;> first | exact hcreates | exact hcreates.elim
  obtain ⟨-, -, -, -, ⟨-, -, accountId, account, credential, hother, hread, -⟩, -⟩ :=
    deleted_account_unused World.still Setup.plain (.fresh twoRows) _ _ early since after 2 1 "a"
      deleted client upstream r hlog hnew hcreated
  exact ⟨_, accountId, account, credential, hother, hread⟩

/-- After the first account is paused, the client is let in by the second. -/
theorem paused_account_admits_nobody_other :
    let := hexadecimal
    Setup.plain.plane.authMode = .enforce ∧ ∃ before id, id ≠ "a" ∧
      AdmittedBy World.still Setup.plain (.fresh twoRows) before (2 : Fin 3) "other" id := by
  let := hexadecimal
  refine ⟨rfl, ?_⟩
  have hmarks : (log World.still Setup.plain (afterwards (.setEnabled Ambient.still "a" false))
      (.fresh twoRows) (List.replicate 2 0 ++ List.replicate 7 1 ++ List.replicate 11 2)).map mark =
      (others [0, 0, 1, 1, 1] ++ (1, .rewritten "a" (Serde.accountToString
        { Plain.account "a" .anthropicApiKey true with enabled := false })) ::
          others ([1, 1, 1] ++ List.replicate 10 2)) ++ (2, .dispatched) :: others [] := by
    decide +kernel
  obtain ⟨early, entry, since, entry', after, hlog, hpaused, hsent, hnew, hsince⟩ :=
    exists_of_marks hmarks (by decide)
  obtain rfl := eq_of_rewritten hpaused
  obtain ⟨client, upstream, r, rfl⟩ := eq_of_dispatched hsent
  obtain ⟨request, token, id, hpassed, htoken, hother, hadmitted⟩ :=
    paused_account_admits_nobody World.still Setup.plain rfl (.fresh twoRows) _ _ early since after
      2 1 "a" _ client upstream r hlog hnew fun entry hentry s hs => hsince entry hentry s hs "a"
  have hkey : ((askingModels "other").passed Setup.plain).map
      (DataPlane.presentedToken ·.headers) = some (.ok (some "other")) := by
    decide +kernel
  change (askingModels "other").passed Setup.plain = some request at hpassed
  rw [hpassed, Option.map_some, htoken] at hkey
  obtain rfl := Except.ok.inj (Option.some.inj hkey)
  exact ⟨_, id, hother, hadmitted⟩

end Example

end Service

end Llmap
