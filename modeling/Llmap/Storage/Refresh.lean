import Llmap.Storage.Model
import Llmap.Plain
/-!
# OAuth refresh

`refresh_due_oauth` reads the accounts, asks the token endpoint of each
that is due for a new token, and writes the answer back. No lock is held
while the endpoint is asked, so that anything may be written in between;
what is written back is written only over the credential that was read.

What comes from outside, the answer of an endpoint, the clock when it
arrives and the nonce the new credential is sealed under, is an `Exchange`.
A request that cannot be built or sent, one that is not answered with
success and an answer that is no token response are all an exchange
without a response.

The theorem is over every interleaving of refreshers with the operations
of administrators (`replaces_only_what_it_read`), and rests on one
assumption: no credential is sealed as one that was stored before it
(`FreshSealing`).
-/

namespace Llmap

namespace Storage

open Providers Secrets Egress

/-- `OAuthTokenResponse`. -/
structure OAuthTokenResponse where
  accessToken : String
  expiresIn : UInt64
  refreshToken : Option String

/-- What one request to a token endpoint gets from outside. -/
structure Exchange where
  response : Option OAuthTokenResponse
  answeredAt : DateTime
  nonce : Nonce

/-- `OAuthRefreshSummary`. -/
structure OAuthRefreshSummary where
  refreshed : ℕ
  skipped : ℕ
  failed : ℕ
deriving DecidableEq

/-- The hosts a token endpoint may have. -/
def oauthHosts : List String := ["anthropic.com", "claude.com", "claude.ai"]

/-- `oauth_endpoint_allowed`. -/
def oauthEndpointAllowed (endpoint : Url) : Bool :=
  endpoint.host.any fun host =>
    oauthHosts.any fun allowed => host = allowed || host.endsWith ("." ++ allowed)

section Refresh

variable [Serde] [Sealing] [Urls]

/-- `refresh_oauth_candidate`. -/
def refreshOauthCandidate (exchange : Exchange) (candidate : OAuthRefreshCandidate) :
    Option OAuthCredentialEnvelope := do
  let endpoint ← candidate.envelope.tokenEndpoint
  guard (endpoint.scheme = "https" ∧ oauthEndpointAllowed endpoint)
  -- only the first proxy is used, and it must parse
  guard (candidate.account.egressProxies.head?.all fun proxy =>
    (ProxyEndpoint.parse proxy).isOk)
  guard (candidate.envelope.refreshToken.isSome ∧ candidate.envelope.clientId.isSome)
  let response ← exchange.response
  guard (response.accessToken ≠ "" ∧ 60 ≤ response.expiresIn.toNat ∧
    response.expiresIn.toNat ≤ 86400)
  return { candidate.envelope with
    accessToken := response.accessToken
    expiresAt := some (exchange.answeredAt + seconds response.expiresIn.toNat)
    refreshToken := response.refreshToken.or candidate.envelope.refreshToken }

/-- How long the token that a refresh replaces stays valid. -/
def refreshValidUntil (candidate : OAuthRefreshCandidate) (now : DateTime) : DateTime :=
  min (candidate.envelope.expiresAt.getD (now + minutes 10)) (now + minutes 10)

/-- The loop of `refresh_due_oauth`. -/
def refreshEach [Chrono] (box : SecretBox) (now : DateTime)
    (exchange : OAuthRefreshCandidate → Exchange) :
    OAuthRefreshSummary → List OAuthRefreshCandidate →
      Prog Section Section.Resp OAuthRefreshSummary
  | summary, [] => .ret summary
  | summary, candidate :: rest =>
      if candidate.due = false then
        refreshEach box now exchange { summary with skipped := summary.skipped + 1 } rest
      else
        match refreshOauthCandidate (exchange candidate) candidate with
        | none => refreshEach box now exchange { summary with failed := summary.failed + 1 } rest
        | some refreshed =>
            (replaceOauthIfCurrent box (exchange candidate).nonce candidate refreshed
              (refreshValidUntil candidate now)).bind fun
              | .ok true =>
                  refreshEach box now exchange
                    { summary with refreshed := summary.refreshed + 1 } rest
              | .ok false =>
                  refreshEach box now exchange { summary with skipped := summary.skipped + 1 } rest
              | .error _ =>
                  refreshEach box now exchange { summary with failed := summary.failed + 1 } rest

/-- `SqliteStore::refresh_due_oauth`. -/
def refreshDueOauth [Chrono] (box : SecretBox) (now : DateTime)
    (exchange : OAuthRefreshCandidate → Exchange) :
    Prog Section Section.Resp OAuthRefreshSummary :=
  (oauthRefreshCandidates box now).bind fun
    | .error _ => .ret ⟨0, 0, 1⟩
    | .ok candidates => refreshEach box now exchange ⟨0, 0, 0⟩ candidates

/-! ## Interleavings -/

/-- What runs beside the others: an operation, or a round of refreshes. -/
inductive Task where
  | operation (op : Op)
  | refresh (now : DateTime) (exchange : OAuthRefreshCandidate → Exchange)

/-- The program a task is. -/
def Task.prog [Chrono] (box : SecretBox) : Task → Prog Section Section.Resp Unit
  | .operation op => (op.prog box).bind fun _ => .ret ()
  | .refresh now exchange => (refreshDueOauth box now exchange).bind fun _ => .ret ()

/-- The tasks of a store, each where it has got to. -/
abbrev Tasks (ι : Type) := Pool ι Database Section Section.Resp Unit

variable {ι : Type} [DecidableEq ι]

/-- One task's turn: it takes the lock once. -/
def turn (tasks : Tasks ι) (i : ι) : Tasks ι := tasks.turn Database.exec i

/-- What tasks and their database come to under a schedule. -/
def reached [Chrono] (box : SecretBox) (tasks : ι → Task) (database : Database)
    (schedule : List ι) : Tasks ι :=
  Run.final turn ⟨database, fun i => (tasks i).prog box⟩ schedule

/-- The credential a section writes. -/
def Section.seals : Section → Option String
  | .upsert _ row | .rotate _ row _ => some row.credentialCiphertext
  | .replace _ _ ciphertext _ => some ciphertext
  | _ => none

/-- The sections that leave an account with another credential, or
none, whatever it had. -/
def Section.Overwrites (id : String) : Section → Prop
  | .upsert id' _ | .rotate id' _ _ | .deleteAccount id' => id' = id
  | _ => False

/-- The credential an account has. -/
def Database.current (database : Database) (id : String) : Option String :=
  database.providerAccounts[id]?.map AccountRow.credentialCiphertext

/-- **Fresh ciphertexts.** A credential that is about to be written is none
that any account had before. -/
def FreshSealing [Chrono] (box : SecretBox) (tasks : ι → Task) (database : Database)
    (schedule : List ι) : Prop :=
  ∀ before i, before ++ [i] <+: schedule →
    ∀ s ∈ ((reached box tasks database before).procs i).next?, ∀ ciphertext ∈ s.seals,
      ∀ earlier, earlier <+: before → ∀ id,
        (reached box tasks database earlier).shared.current id ≠ some ciphertext

end Refresh

section Interleaved

variable [Serde] {database : Database} {id : String}

/-! ## What a section does to a credential -/

/-- **One section.** An account keeps its credential, or loses it, or has
the one the section writes. -/
theorem current_exec (s : Section) :
    (database.exec s).1.current id = database.current id ∨
      (database.exec s).1.current id = none ∨
      ∃ ciphertext ∈ s.seals, (database.exec s).1.current id = some ciphertext := by
  unfold Database.current
  cases s with
  | upsert id' row =>
      rw [Database.accounts_upsert]
      split
      · exact .inr (.inr ⟨_, rfl, rfl⟩)
      · exact .inl rfl
  | rotate id' row expiresAt =>
      rw [Database.accounts_rotate]
      split
      · exact .inr (.inr ⟨_, rfl, rfl⟩)
      · exact .inl rfl
  | replace id' expected ciphertext expiresAt =>
      by_cases hrow : ∃ row, database.providerAccounts[id']? = some row ∧
          row.credentialCiphertext = expected
      · obtain ⟨row, hrow, hexpected⟩ := hrow
        rw [Database.exec_replace_of_eq database id' hrow hexpected]
        by_cases hid : id' = id
        · exact .inr (.inr ⟨ciphertext, rfl, by simp [hid]⟩)
        · exact .inl (by simp [Std.ExtTreeMap.getElem?_insert, hid])
      · push Not at hrow
        rw [Database.exec_replace_of_ne database id' hrow]
        exact .inl rfl
  | updateAccountJson id' accountJson =>
      rw [Database.accounts_updateAccountJson]
      split
      · rename_i hid
        subst hid
        exact .inl (by rw [Option.map_map]; rfl)
      · exact .inl rfl
  | deleteAccount id' =>
      rw [Database.accounts_deleteAccount]
      split
      · exact .inr (.inl rfl)
      · exact .inl rfl
  | selectAccount | selectAccounts | selectCredentials | insertAudit => exact .inl rfl

/-- An overwriting section leaves the account without a credential or with
the one it writes. -/
theorem current_of_overwrites {s : Section} (h : s.Overwrites id) :
    (database.exec s).1.current id = none ∨
      ∃ ciphertext ∈ s.seals, (database.exec s).1.current id = some ciphertext := by
  unfold Database.current
  cases s with
  | upsert id' row =>
      obtain rfl : id' = id := h
      exact .inr ⟨_, rfl, by simp⟩
  | rotate id' row expiresAt =>
      obtain rfl : id' = id := h
      exact .inr ⟨_, rfl, by simp⟩
  | deleteAccount id' =>
      obtain rfl : id' = id := h
      exact .inl (by simp)
  | replace | selectAccount | selectAccounts | selectCredentials | updateAccountJson
  | insertAudit => exact h.elim

/-- A replacement is made just where the account has the credential it
expects. -/
theorem replace_answer_iff {expected ciphertext expiresAt : String} :
    (database.exec (.replace id expected ciphertext expiresAt)).2 = true ↔
      database.current id = some expected := by
  unfold Database.current
  by_cases hrow : ∃ row, database.providerAccounts[id]? = some row ∧
      row.credentialCiphertext = expected
  · obtain ⟨row, hrow, hexpected⟩ := hrow
    rw [Database.exec_replace_of_eq database id hrow hexpected]
    simp [hrow, hexpected]
  · have hne : ∀ row, database.providerAccounts[id]? = some row →
        row.credentialCiphertext ≠ expected := by
      intro row h heq
      exact hrow ⟨row, h, heq⟩
    rw [Database.exec_replace_of_ne database id hne]
    simpa [Option.map_eq_some_iff] using hne

/-- A replacement of a spent credential is refused. -/
theorem replace_refused {expected ciphertext expiresAt : String}
    (h : database.current id ≠ some expected) :
    (database.exec (.replace id expected ciphertext expiresAt)).2 = false := by
  rw [← Bool.not_eq_true, replace_answer_iff]
  exact h

/-! ## Turns -/

variable [Sealing] [Urls] [Chrono] {box : SecretBox} {ι : Type} [DecidableEq ι]
variable {tasks : ι → Task} {schedule before : List ι} {i : ι}

theorem reached_concat :
    reached box tasks database (before ++ [i]) = turn (reached box tasks database before) i := by
  simp only [reached, Run.final_append, Run.final_cons, Run.final_nil]

/-- A task that calls a section leaves the tables as the section does. -/
theorem shared_of_next {s : Section}
    (h : ((reached box tasks database before).procs i).next? = some s) :
    (reached box tasks database (before ++ [i])).shared =
      ((reached box tasks database before).shared.exec s).1 := by
  obtain ⟨k, hcall⟩ := Prog.next?_eq_some_iff.mp h
  rw [reached_concat, turn, Pool.turn_of_call hcall]

/-- The assumption by the places of the schedule, where it can be
computed. -/
theorem freshSealing_iff : FreshSealing box tasks database schedule ↔
    ∀ n < schedule.length, ∀ i ∈ schedule[n]?,
      ∀ s ∈ ((reached box tasks database (schedule.take n)).procs i).next?,
        ∀ ciphertext ∈ s.seals, ∀ m ≤ n,
          ∀ pair ∈ (reached box tasks database (schedule.take m)).shared.providerAccounts.toList,
            pair.2.credentialCiphertext ≠ ciphertext := by
  constructor
  · intro h n hn i hi s hs ciphertext hseals m hm pair hpair heq
    have htake : schedule.take n ++ [i] <+: schedule := by
      rw [← (List.getElem?_eq_some_iff.mp hi).2, List.take_concat_get' _ _ hn]
      exact List.take_prefix _ _
    refine h _ i htake s hs ciphertext hseals _ (List.take_prefix_take_left hm) pair.1 ?_
    rw [Database.current, Std.ExtTreeMap.mem_toList_iff_getElem?_eq_some.mp hpair]
    exact congrArg some heq
  · intro h before i hbefore s hs ciphertext hseals earlier hearlier id hcurrent
    obtain ⟨row, hrow, hciphertext⟩ := Option.map_eq_some_iff.mp hcurrent
    obtain ⟨after, rfl⟩ := hbefore
    obtain ⟨mid, rfl⟩ := hearlier
    have hbefore : (earlier ++ mid ++ [i] ++ after).take (earlier ++ mid).length =
        earlier ++ mid := by
      rw [List.append_assoc]
      exact List.take_left
    have hearlier : (earlier ++ mid ++ [i] ++ after).take earlier.length = earlier := by
      simp only [List.append_assoc, List.take_left]
    refine h (earlier ++ mid).length (by simp) i (by simp) s (hbefore.symm ▸ hs) ciphertext
      hseals earlier.length (by simp) (id, row) ?_ hciphertext
    rw [hearlier]
    exact Std.ExtTreeMap.mem_toList_iff_getElem?_eq_some.mpr hrow

instance : Decidable (FreshSealing box tasks database schedule) :=
  decidable_of_iff _ freshSealing_iff.symm

/-- **Spent.** A credential that was stored once and that an account has no
longer does not come back. -/
theorem stays_spent (hfresh : FreshSealing box tasks database schedule)
    {earlier since : List ι} {id' ciphertext : String} (hearlier : earlier <+: since)
    (hstored : (reached box tasks database earlier).shared.current id' = some ciphertext)
    (hgone : (reached box tasks database since).shared.current id ≠ some ciphertext)
    (mid : List ι) (hmid : since ++ mid <+: schedule) :
    (reached box tasks database (since ++ mid)).shared.current id ≠ some ciphertext := by
  induction mid using List.reverseRecOn with
  | nil => simpa using hgone
  | append_singleton mid i ih =>
      rw [← List.append_assoc] at hmid ⊢
      have hkept := ih ((List.prefix_append _ _).trans hmid)
      cases hproc : (reached box tasks database (since ++ mid)).procs i with
      | ret a =>
          rw [reached_concat, turn, Pool.turn_of_ret hproc]
          exact hkept
      | call s k =>
          have hnext := Prog.next?_eq_some_iff.mpr ⟨k, hproc⟩
          rw [shared_of_next hnext]
          rcases current_exec s with h | h | ⟨fresh, hseals, h⟩
          · rwa [h]
          · simp [h]
          · rw [h]
            rintro heq
            obtain rfl : fresh = ciphertext := Option.some.inj heq
            exact hfresh _ i hmid s hnext fresh hseals earlier
              (hearlier.trans (List.prefix_append _ _)) id' hstored

/-! ## What a refresher goes by -/

/-- The candidates a refresher finds in a database. -/
def foundCandidates (box : SecretBox) (now : DateTime) (database : Database) :
    List OAuthRefreshCandidate :=
  ((oauthRefreshCandidates box now).run Database.exec database).2.toOption.getD []

/-- A section that replaces the credential of a candidate. -/
def Section.ReplacesOneOf (candidates : List OAuthRefreshCandidate) (s : Section) : Prop :=
  ∃ candidate ∈ candidates, ∃ ciphertext expiresAt,
    s = .replace candidate.account.id candidate.expectedCiphertext ciphertext expiresAt

omit [Chrono] [Urls] in
/-- A candidate expects the credential its row has. -/
theorem expected_of_refreshCandidate {now : DateTime} {row : AccountRow}
    {candidate : OAuthRefreshCandidate}
    (h : refreshCandidate box now row = .ok (some candidate)) :
    candidate.expectedCiphertext = row.credentialCiphertext := by
  unfold refreshCandidate at h
  repeat' split at h
  all_goals cases h
  rfl

omit [Chrono] [Urls] in
/-- A candidate that is found expects the credential of an account there
is. -/
theorem current_of_found {now : DateTime} {candidate : OAuthRefreshCandidate}
    (h : candidate ∈ foundCandidates box now database) :
    ∃ id', database.current id' = some candidate.expectedCiphertext := by
  change candidate ∈ (Except.toOption (Except.map (List.filterMap id)
    ((database.providerAccounts.toList.map Prod.snd).mapM (refreshCandidate box now)))).getD [] at h
  cases hfound : (database.providerAccounts.toList.map Prod.snd).mapM
      (refreshCandidate box now) with
  | error error => simp [hfound, Except.map, Except.toOption] at h
  | ok found =>
      rw [hfound] at h
      have hmem : some candidate ∈ found := by
        simpa [Except.map, Except.toOption] using h
      obtain ⟨row, hrow, hcandidate⟩ := exists_of_mem_mapM hfound hmem
      obtain ⟨⟨id', row'⟩, hpair, rfl⟩ := List.mem_map.mp hrow
      refine ⟨id', ?_⟩
      rw [Database.current, Std.ExtTreeMap.mem_toList_iff_getElem?_eq_some.mp hpair,
        expected_of_refreshCandidate hcandidate]
      rfl

/-- The loop replaces the credentials of the candidates it is given. -/
theorem refreshEach_obeys {now : DateTime} {exchange : OAuthRefreshCandidate → Exchange}
    {found : List OAuthRefreshCandidate} (rest : List OAuthRefreshCandidate)
    (hrest : rest ⊆ found) (summary : OAuthRefreshSummary) :
    (refreshEach box now exchange summary rest).Obeys (·.ReplacesOneOf found)
      (fun _ _ => True) fun _ => True := by
  induction rest generalizing summary with
  | nil => trivial
  | cons candidate rest ih =>
      have hmem := hrest (List.mem_cons_self ..)
      have ih' := fun summary => ih (fun c hc => hrest (List.mem_cons_of_mem _ hc)) summary
      rw [refreshEach]
      split
      · exact ih' _
      · split
        · exact ih' _
        · refine Prog.Obeys.bind (P := fun _ => True) ?_ ?_
          · unfold replaceOauthIfCurrent
            split
            · trivial
            · exact ⟨⟨candidate, hmem, _, _, rfl⟩, fun _ _ => trivial⟩
          · rintro (error | changed) -
            · exact ih' _
            · cases changed <;> exact ih' _

/-- What a refresher does once it has read the accounts. -/
theorem refresh_obeys_after_read {now : DateTime} {exchange : OAuthRefreshCandidate → Exchange}
    {pool : Tasks ι} (h : pool.procs i = (Task.refresh now exchange).prog box) :
    ((turn pool i).procs i).Obeys (·.ReplacesOneOf (foundCandidates box now pool.shared))
      (fun _ _ => True) fun _ => True := by
  have hcall : pool.procs i = .call .selectAccounts _ := h
  rw [turn, Pool.turn_of_call hcall]
  simp only [Function.update_self]
  refine Prog.Obeys.bind (P := fun _ => True) ?_ fun _ _ => trivial
  unfold foundCandidates oauthRefreshCandidates
  simp only [Prog.bind, Prog.run]
  cases Except.map (fun found => List.filterMap id found)
      (List.mapM (refreshCandidate box now) (pool.shared.exec .selectAccounts).2) with
  | error error => trivial
  | ok found => exact refreshEach_obeys found (fun _ h => h) _

/-- **A refresher goes by what it read.** It has not begun, or it has read
the accounts at some turn and only replaces credentials of the candidates
it found there. -/
theorem refresher_has_read {now : DateTime} {exchange : OAuthRefreshCandidate → Exchange}
    (htask : tasks i = .refresh now exchange) (before : List ι) :
    (reached box tasks database before).procs i = (tasks i).prog box ∨
      ∃ read, read ++ [i] <+: before ∧
        (reached box tasks database read).procs i = (tasks i).prog box ∧
        ((reached box tasks database before).procs i).Obeys
          (·.ReplacesOneOf (foundCandidates box now (reached box tasks database read).shared))
          (fun _ _ => True) fun _ => True := by
  induction before using List.reverseRecOn with
  | nil => exact .inl rfl
  | append_singleton before j ih =>
      rw [reached_concat]
      rcases ih with hstart | ⟨read, hread, hprog, hobeys⟩
      · by_cases hj : i = j
        · subst hj
          refine .inr ⟨before, List.prefix_refl _, hstart, ?_⟩
          rw [htask] at hstart
          exact refresh_obeys_after_read hstart
        · refine .inl ?_
          rw [turn, Pool.turn_procs_of_ne hj]
          exact hstart
      · exact .inr ⟨read, hread.trans (List.prefix_append _ _), hprog,
          Pool.turn_obeys hobeys fun _ _ => trivial⟩

/-! ## The compare-and-swap -/

/-- **What one replacement does**, at its turn: it is made only over the
credential it expects, and changes that credential and its history alone;
otherwise nothing changes. -/
theorem replace_at_turn {expected ciphertext expiresAt : String}
    (hnext : ((reached box tasks database before).procs i).next? =
      some (.replace id expected ciphertext expiresAt)) :
    let here := (reached box tasks database before).shared
    let there := (reached box tasks database (before ++ [i])).shared
    let answer := (here.exec (.replace id expected ciphertext expiresAt)).2
    (answer = true → ∃ row, here.providerAccounts[id]? = some row ∧
      row.credentialCiphertext = expected ∧
      there = { here with
        providerAccounts := here.providerAccounts.insert id
          { row with credentialCiphertext := ciphertext }
        credentialHistory := here.credentialHistory.insert id ⟨expected, expiresAt⟩ }) ∧
      (answer = false → there = here) := by
  intro here there answer
  have hthere : there = (here.exec (.replace id expected ciphertext expiresAt)).1 :=
    shared_of_next hnext
  refine ⟨fun hmade => ?_, fun hrefused => ?_⟩
  · obtain ⟨row, hrow, hexpected⟩ := Option.map_eq_some_iff.mp (replace_answer_iff.mp hmade)
    refine ⟨row, hrow, hexpected, ?_⟩
    rw [hthere, Database.exec_replace_of_eq here id hrow hexpected]
  · have hne : ∀ row, here.providerAccounts[id]? = some row →
        row.credentialCiphertext ≠ expected := by
      intro row hrow hexpected
      have hmade : answer = true :=
        replace_answer_iff.mpr (by simp [Database.current, hrow, hexpected])
      exact Bool.false_ne_true (hrefused ▸ hmade)
    rw [hthere, Database.exec_replace_of_ne here id hne]

/-- A credential that a replacement was made over is spent: what follows
it is fresh. -/
theorem spent_of_made (hfresh : FreshSealing box tasks database schedule)
    (hbefore : before ++ [i] <+: schedule) {expected ciphertext expiresAt : String}
    (hnext : ((reached box tasks database before).procs i).next? =
      some (.replace id expected ciphertext expiresAt))
    (hcurrent : (reached box tasks database before).shared.current id = some expected)
    (mid : List ι) (hmid : before ++ i :: mid <+: schedule) :
    (reached box tasks database (before ++ i :: mid)).shared.current id ≠ some expected := by
  have hnew : ciphertext ≠ expected := fun heq =>
    hfresh before i hbefore _ hnext ciphertext rfl before (List.prefix_refl _) id (heq ▸ hcurrent)
  have hgone : (reached box tasks database (before ++ [i])).shared.current id ≠ some expected := by
    obtain ⟨row, -, -, hthere⟩ := (replace_at_turn hnext).1 (replace_answer_iff.mpr hcurrent)
    rw [hthere]
    simpa [Database.current] using hnew
  have hsplit : before ++ [i] ++ mid = before ++ i :: mid := by simp
  rw [← hsplit] at hmid ⊢
  exact stays_spent hfresh (List.prefix_append before [i]) hcurrent hgone mid hmid

/-- A credential that was stored when an account is overwritten is spent
from then on. -/
theorem spent_of_overwritten (hfresh : FreshSealing box tasks database schedule)
    {earlier since : List ι} {j : ι} {id' expected : String} {s : Section}
    (hearlier : earlier <+: since)
    (hstored : (reached box tasks database earlier).shared.current id' = some expected)
    (hnext : ((reached box tasks database since).procs j).next? = some s)
    (hover : s.Overwrites id) (mid : List ι) (hmid : since ++ [j] ++ mid <+: schedule) :
    (reached box tasks database (since ++ [j] ++ mid)).shared.current id ≠ some expected := by
  have hgone : (reached box tasks database (since ++ [j])).shared.current id ≠ some expected := by
    rw [shared_of_next hnext]
    rcases current_of_overwrites hover with h | ⟨fresh, hseals, h⟩
    · rw [h]
      simp
    · rw [h]
      rintro heq
      obtain rfl : fresh = expected := Option.some.inj heq
      exact hfresh _ j ((List.prefix_append _ _).trans hmid) s hnext fresh hseals earlier hearlier
        id' hstored
  exact stays_spent hfresh (hearlier.trans (List.prefix_append _ _)) hstored hgone mid hmid

/-- **A refresh never overwrites a newer credential.** At a turn that
replaces a credential, under any schedule of any tasks:

* the replacement is made only over the credential it expects; then that
  credential changes, the history holds the one replaced, and all else is
  as it was; otherwise nothing changes;
* once it is made, no other that expects the same credential is;
* a refresher expects what it read at an earlier turn of its own, and if
  the account was written or deleted since then, it changes nothing. -/
theorem replaces_only_what_it_read (hfresh : FreshSealing box tasks database schedule)
    {after : List ι} (hschedule : schedule = before ++ i :: after)
    {expected ciphertext expiresAt : String}
    (hnext : ((reached box tasks database before).procs i).next? =
      some (.replace id expected ciphertext expiresAt)) :
    let here := (reached box tasks database before).shared
    let there := (reached box tasks database (before ++ [i])).shared
    let answer := (here.exec (.replace id expected ciphertext expiresAt)).2
    ((answer = true → ∃ row, here.providerAccounts[id]? = some row ∧
      row.credentialCiphertext = expected ∧
      there = { here with
        providerAccounts := here.providerAccounts.insert id
          { row with credentialCiphertext := ciphertext }
        credentialHistory := here.credentialHistory.insert id ⟨expected, expiresAt⟩ }) ∧
      (answer = false → there = here)) ∧
    (answer = true → ∀ mid j, before ++ i :: mid ++ [j] <+: schedule → ∀ ciphertext' expiresAt',
      ((reached box tasks database (before ++ i :: mid)).procs j).next? =
          some (.replace id expected ciphertext' expiresAt') →
        ((reached box tasks database (before ++ i :: mid)).shared.exec
          (.replace id expected ciphertext' expiresAt')).2 = false) ∧
    ∀ now exchange, tasks i = .refresh now exchange →
      ∃ read, read ++ [i] <+: before ∧
        (reached box tasks database read).procs i = (tasks i).prog box ∧
        (∃ candidate ∈ foundCandidates box now (reached box tasks database read).shared,
          id = candidate.account.id ∧ expected = candidate.expectedCiphertext) ∧
        ∀ mid j, read ++ i :: mid ++ [j] <+: before →
          ∀ s ∈ ((reached box tasks database (read ++ i :: mid)).procs j).next?,
            s.Overwrites id → answer = false := by
  intro here there answer
  have hbefore : before ++ [i] <+: schedule := by simp [hschedule]
  refine ⟨replace_at_turn hnext, fun hmade mid j hmid ciphertext' expiresAt' _ => ?_,
    fun now exchange htask => ?_⟩
  · have hmid' := (List.prefix_append _ _).trans hmid
    exact replace_refused
      (spent_of_made hfresh hbefore hnext (replace_answer_iff.mp hmade) mid hmid')
  · obtain hstart | ⟨read, hread, hprog, hobeys⟩ :
        (reached box tasks database before).procs i = (tasks i).prog box ∨ _ :=
      refresher_has_read htask before
    · -- a refresher that has not begun is about to read
      rw [hstart, htask] at hnext
      cases hnext
    · obtain ⟨k, hcall⟩ := Prog.next?_eq_some_iff.mp hnext
      rw [hcall] at hobeys
      obtain ⟨⟨candidate, hfound, _, _, hreplace⟩, -⟩ := hobeys
      injection hreplace with hid hexpected
      refine ⟨read, hread, hprog, ⟨candidate, hfound, hid, hexpected⟩, ?_⟩
      intro mid j hmid s hs hover
      obtain ⟨id', hstored⟩ := current_of_found hfound
      rw [← hexpected] at hstored
      obtain ⟨rest, rfl⟩ := hmid
      refine replace_refused (spent_of_overwritten hfresh ?_ hstored hs hover rest ?_)
      · exact List.prefix_append _ _
      · exact (List.prefix_append _ _).trans hbefore

end Interleaved

section Race

open scoped Plain

/-- A database of one account, whose token is due. -/
def racedDatabase : Database :=
  ((Op.upsert ⟨Vector.replicate 24 0, Vector.replicate 24 1⟩
    (Plain.account "a" .claudeOauth true) (Plain.refreshableText "old")).apply Plain.box .empty).1

/-- Two refreshers, each of which gets a new token. -/
def racingTasks (i : Fin 2) : Task :=
  .refresh 0 fun _ => ⟨some ⟨"new", 3600, none⟩, 0, Vector.replicate 24 (UInt8.ofNat (2 + i))⟩

/-- A credential of the account, sealed under a nonce of equal bytes. -/
def racedCiphertext (byte : UInt8) (credential : String) : String :=
  ((Plain.box.encrypt (Vector.replicate 24 byte) credential (credentialData "a")).toOption).getD ""

/-- The credential that both of them read. -/
def oldCiphertext : String := racedCiphertext 1 (Plain.refreshableText "old")

/-- The one that each of them puts in its place. -/
def newCiphertext (byte : UInt8) : String :=
  racedCiphertext byte (PlainSerde.envelopeToString
    { Plain.refreshable "new" with expiresAt := some (seconds 3600) })

/-- Of two refreshers that read the same credential, the second is
refused. -/
theorem replaces_once_in_race :
    ((reached Plain.box racingTasks racedDatabase [0, 1]).shared.exec
      (.replace "a" oldCiphertext (newCiphertext 2) (Chrono.toRfc3339 (minutes 1)))).2 = true ∧
    ((reached Plain.box racingTasks racedDatabase [0, 1, 0]).shared.exec
      (.replace "a" oldCiphertext (newCiphertext 3) (Chrono.toRfc3339 (minutes 1)))).2 =
        false := by
  obtain ⟨hfresh, hnext, hnext', hmade⟩ :
      FreshSealing Plain.box racingTasks racedDatabase [0, 1, 0, 1] ∧
      ((reached Plain.box racingTasks racedDatabase [0, 1]).procs 0).next? =
        some (.replace "a" oldCiphertext (newCiphertext 2) (Chrono.toRfc3339 (minutes 1))) ∧
      ((reached Plain.box racingTasks racedDatabase [0, 1, 0]).procs 1).next? =
        some (.replace "a" oldCiphertext (newCiphertext 3) (Chrono.toRfc3339 (minutes 1))) ∧
      ((reached Plain.box racingTasks racedDatabase [0, 1]).shared.exec
        (.replace "a" oldCiphertext (newCiphertext 2) (Chrono.toRfc3339 (minutes 1)))).2 =
          true := by
    decide +kernel
  have hschedule : ([0, 1, 0, 1] : List (Fin 2)) = [0, 1] ++ 0 :: [1] := rfl
  obtain ⟨-, honce, -⟩ := replaces_only_what_it_read hfresh hschedule hnext
  have hrefused := honce hmade [] 1 (List.prefix_refl _)
  rw [show ([0, 1] : List (Fin 2)) ++ 0 :: [] = [0, 1, 0] from rfl] at hrefused
  exact ⟨hmade, hrefused _ _ hnext'⟩

end Race

end Storage

end Llmap
