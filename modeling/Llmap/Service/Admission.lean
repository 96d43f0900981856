import Llmap.Service.Outgoing
/-!
# Nothing goes out for a stranger

A service that enforces sends nothing upstream for a client that does not hold
a credential of some enabled account. When the task of the client asked, the
tables had a row of such an account, and the token the client showed was what
the row's credential stands for, not yet expired, or what the credential it
replaced stands for, in its grace (`StandsFor`). Accounts may have been written
before and after, by other tasks: what counts is the tables at that moment.
-/

namespace Llmap

open Auth Providers Secrets Storage

/-! ## What a snapshot says of the tables -/

namespace Auth

/-- What enforcement accepts, some account of the snapshot admits. A missing
token is taken for the empty one. -/
theorem admits_of_authorize [Digests] {authenticator : Authenticator} {token : Option String}
    {snapshot : CredentialSnapshot} {now : DateTime} {decision : AuthDecision}
    (h : authenticator.authorize .enforce token snapshot now = .ok decision) :
    ∃ accounts, snapshot = .available accounts ∧ ∃ account ∈ accounts,
      account.admits (authenticator.digest (token.getD "")) now = true := by
  unfold Authenticator.authorize at h
  cases snapshot with
  | unavailable => cases h
  | available accounts =>
      refine ⟨accounts, rfl, ?_⟩
      dsimp only at h
      rw [matchedAccountId_eq_find?] at h
      cases hfind : accounts.reverse.find?
          (·.admits (authenticator.digest (token.getD "")) now) with
      | none =>
          rw [hfind] at h
          cases h
      | some account =>
          refine ⟨account, List.mem_reverse.mp (List.mem_of_find?_eq_some hfind), ?_⟩
          have hadmits := List.find?_some hfind
          exact hadmits

end Auth

namespace Storage

variable [Serde] [Sealing] [Chrono] [Digests]

/-- **What a token stands for in the tables**: the credential of a row, while
it is not expired, or the one it replaced, while it is still accepted. -/
def StandsFor (box : SecretBox) (authenticator : Authenticator) (database : Database)
    (id token : String) (row : AccountRow) (account : ProviderAccount) (now : DateTime) : Prop :=
  (∃ secret current expiry,
      box.decrypt row.credentialCiphertext (credentialData account.id) = .ok secret ∧
      decodedCredential account.kind secret = .ok (current, expiry) ∧
      (∀ instant, expiry = some instant → now < instant) ∧
      authenticator.digest token = authenticator.digest current) ∨
    ∃ history validUntil secret previous expiry,
      database.credentialHistory[id]? = some history ∧
      Chrono.parseFromRfc3339 history.expiresAt = some validUntil ∧ now < validUntil ∧
      box.decrypt history.credentialCiphertext (credentialData account.id) = .ok secret ∧
      decodedCredential account.kind secret = .ok (previous, expiry) ∧
      authenticator.digest token = authenticator.digest previous

/-- An entry of a snapshot that admits a token is of an enabled account, whose
credential the token stands for. -/
theorem standsFor_of_admits {box : SecretBox} {authenticator : Authenticator} {database : Database}
    {id token : String} {row : AccountRow} {now : DateTime} {entered : AccountCredential}
    (hentered : accountCredential box authenticator now row database.credentialHistory[id]? =
      .ok entered)
    (hadmits : entered.admits (authenticator.digest token) now = true) :
    ∃ account, Serde.accountFromStr row.accountJson = .ok account ∧ account.enabled = true ∧
      StandsFor box authenticator database id token row account now := by
  obtain ⟨account, secret, current, expiry, credential, haccount, hsecret, hcurrent, hcredential,
    rfl⟩ := accountCredential_eq_ok_iff.mp hentered
  obtain ⟨hactive, hversions⟩ := admits_iff.mp hadmits
  have henabled : account.enabled = true := by
    by_contra hpaused
    rw [if_neg hpaused] at hactive
    cases hactive
  rw [if_pos henabled] at hversions
  refine ⟨account, haccount, henabled, ?_⟩
  have hnow : ∀ version : CredentialVersion, version.expiresAt = expiry →
      version.notExpired now = true → ∀ instant, expiry = some instant → now < instant :=
    fun version hexpiry hvalid instant hinstant =>
      notExpired_iff.mp hvalid instant (hexpiry.trans hinstant)
  cases hhistory : database.credentialHistory[id]? with
  | none =>
      rw [hhistory] at hcredential
      obtain rfl := Except.ok.inj hcredential
      rcases hversions with ⟨hvalid, hdigest⟩ | ⟨version, hmem, -⟩
      · exact .inl ⟨secret, current, expiry, hsecret, hcurrent, hnow _ rfl hvalid, hdigest⟩
      · cases hmem
  | some history =>
      rw [hhistory] at hcredential
      obtain ⟨validUntil, hparse, ⟨-, rfl⟩ | ⟨hgrace, previous, replaced, replacedExpiry, hprevious,
        hreplaced, rfl⟩⟩ := withHistory_eq_ok_iff.mp hcredential
      · rcases hversions with ⟨hvalid, hdigest⟩ | ⟨version, hmem, -⟩
        · exact .inl ⟨secret, current, expiry, hsecret, hcurrent, hnow _ rfl hvalid, hdigest⟩
        · cases hmem
      · rcases hversions with ⟨hvalid, hdigest⟩ | ⟨version, hmem, -, hdigest⟩
        · exact .inl ⟨secret, current, expiry, hsecret, hcurrent, hnow _ rfl hvalid, hdigest⟩
        · obtain rfl := List.mem_singleton.mp hmem
          exact .inr ⟨history, validUntil, previous, replaced, replacedExpiry, hhistory, hparse,
            hgrace, hprevious, hreplaced, hdigest⟩

end Storage

/-! ## Any tasks, however they interleave -/

namespace Service

open DataPlane (UpstreamRequest)
open DataPlane.Transport (Client)

section Interleaved

variable [Serde] [Sealing] [Urls] [Chrono] [Codecs] [Digests] [Argon2] {ι ω : Type} [DecidableEq ι]

omit [Urls] [Codecs] [Argon2] in
/-- A snapshot was taken of the rows there were. -/
theorem snapshot_byPast (setup : Setup) (now : DateTime) :
    (answered setup (.credentialSnapshot now)).ByPast (fun _ _ => True)
      (fun past result => ∃ rows, ⟨.store .selectCredentials, rows⟩ ∈ past ∧
        (rows.mapM fun (row, history) => accountCredential setup.box setup.plane.authenticator now
          row history).map .available = result) [] :=
  ⟨trivial, fun rows => ⟨rows, List.mem_singleton_self _, rfl⟩⟩

/-- **Admitted by an account**: when a task asked, at the time it read, the
tables had an enabled account under the id, whose credential the token stands
for. -/
def AdmittedBy (world : World ω) (setup : Setup) (state : State ω) (log : Log ι) (i : ι)
    (token id : String) : Prop :=
  ∃ now earlier rows later, (i, ⟨.now, now⟩) ∈ log ∧
    log = earlier ++ (i, ⟨.store .selectCredentials, rows⟩) :: later ∧
    let database := (Journal.state (world.exec setup) state earlier).database
    ∃ row account, database.providerAccounts[id]? = some row ∧
      Serde.accountFromStr row.accountJson = .ok account ∧ account.enabled = true ∧
      StandsFor setup.box setup.plane.authenticator database id token row account now

omit [Codecs] in
/-- What a request of a task was let in by, it was admitted by. -/
theorem admittedBy_of_spelled {world : World ω} {setup : Setup} {state : State ω} {journal : Log ι}
    {i : ι} {past : DataPlane.Trace} {complete : Past} {now : DateTime}
    {snapshot : CredentialSnapshot} {token : Option String} {decision : AuthDecision}
    (hserial : Journal.Serial (world.exec setup) state journal)
    (hspelled : Prog.Spelled (answered setup) past complete)
    (hsub : complete ⊆ Journal.own i journal) (hnow : ⟨.now, now⟩ ∈ past)
    (hsnapshot : ⟨.credentialSnapshot now, .ok snapshot⟩ ∈ past)
    (hdecision : setup.plane.authenticator.authorize .enforce token snapshot now = .ok decision) :
    ∃ id, AdmittedBy world setup state journal i (token.getD "") id := by
  obtain ⟨accounts, rfl, entered, hentered, hadmits⟩ := admits_of_authorize hdecision
  obtain ⟨clock, hclock, hclocked⟩ := hspelled.of_mem hnow
  obtain ⟨snapped, hsnapped, hown⟩ := hspelled.of_mem hsnapshot
  obtain ⟨rows, hrows, hmade⟩ := (snapshot_byPast setup now).of_ret hsnapped
  obtain ⟨earlier, later, hsplit, -, hanswer⟩ := hserial.of_mem_own (hsub (hown hrows))
  obtain rfl : rows = _ := hanswer
  -- the rows are those of the tables, so the snapshot is one of them
  obtain ⟨_, heq, hforall⟩ := credentialSnapshot_eq_ok_iff.mp hmade
  obtain rfl := CredentialSnapshot.available.inj heq
  obtain ⟨⟨id, row⟩, -, hrow, hcredential⟩ := exists_of_mem_forall₂ hforall hentered
  obtain ⟨account, haccount, henabled, hstands⟩ := standsFor_of_admits hcredential hadmits
  refine ⟨id, now, earlier, _, later, ?_, hsplit, row, account, hrow, haccount, henabled, hstands⟩
  rw [hclock.op_eq] at hclocked
  exact Journal.mem_of_mem_own (hsub (hclocked (List.mem_singleton_self _)))

/-- **Nothing goes out for a stranger.** Whatever tasks there are and however
their steps interleave: before a service that enforces sends a request upstream,
the task of that request has read the clock and the tables; and in the tables,
as they were then, is an enabled account whose credential the client's token
stands for at that time. -/
theorem dispatches_admitted (world : World ω) (setup : Setup)
    (hmode : setup.plane.authMode = .enforce) (state : State ω) (tasks : ι → Task)
    (schedule : List ι) (before after : Log ι) (i : ι) (client : Client)
    (upstream : UpstreamRequest)
    (r : Except DataPlane.TransportError DataPlane.UpstreamResponse)
    (hlog : log world setup tasks state schedule =
      before ++ (i, ⟨.transport (.dispatch client upstream), r⟩) :: after) :
    ∃ request token id, (tasks i).passed setup = some request ∧
      DataPlane.presentedToken request.headers = .ok token ∧
      AdmittedBy world setup state before i (token.getD "") id := by
  obtain ⟨-, k, hreaches⟩ := Pool.exists_of_journal hlog
  obtain ⟨request, past, complete, part, hpassed, hspelled, hown, hgrounded, -⟩ :=
    task_launched hreaches
  obtain ⟨token, now, snapshot, decision, -, -, -, -, htoken, hnow, hsnapshot, hdecision, -⟩ :=
    hgrounded
  rw [hmode] at hdecision
  have hsub : complete ⊆ Journal.own i before := hown ▸ List.subset_append_left ..
  obtain ⟨id, hadmitted⟩ :=
    admittedBy_of_spelled (serial_before hlog) hspelled hsub hnow hsnapshot hdecision
  exact ⟨request, token, id, hpassed, htoken, hadmitted⟩

end Interleaved

section Models

open scoped Plain
open DataPlane (listModelsUpstream)

/-- The models are asked for with the key of the one account there is. -/
theorem dispatches_admitted_models : Setup.plain.plane.authMode = .enforce ∧
    ∃ before id, AdmittedBy World.still Setup.plain (.fresh oneRow) before () "key" id := by
  refine ⟨rfl, ?_⟩
  obtain ⟨before, after, r, hlog⟩ := exists_dispatch
  obtain ⟨request, token, id, hpassed, htoken, hadmitted⟩ :=
    dispatches_admitted World.still Setup.plain rfl (.fresh oneRow) _ _ before after ()
      directClient listModelsUpstream r hlog
  have hkey : ((askingModels "key").passed Setup.plain).map
      (DataPlane.presentedToken ·.headers) = some (.ok (some "key")) := by
    decide +kernel
  rw [hpassed, Option.map_some, htoken] at hkey
  obtain rfl := Except.ok.inj (Option.some.inj hkey)
  exact ⟨before, id, hadmitted⟩

end Models

end Service

end Llmap
