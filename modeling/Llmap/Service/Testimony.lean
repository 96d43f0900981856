import Llmap.Service.Admission
/-!
# What the audit history says is so

A row of the audit history that tells of a request is written by the task of
that request, from what that task saw: when it asked the clock, whom it found
the client to be, the account the router gave it and that it loaded, and what
came back for the one request it sent, if anything did. Tasks run beside each
other and rows come in any order; no row has anything in it that another task
saw (`audit_rows_attested`).
-/

namespace Llmap

open Auth Providers Secrets Routing Storage

/-! ## What a call has seen when it is audited -/

namespace DataPlane

variable [Codecs] [Serde] [Urls] [Digests] [Chrono]

/-- The status and the outcome that what came back is audited as. -/
def told (now : DateTime) : Except TransportError UpstreamResponse → UInt16 × String
  | .error _ => (502, "transport_failure")
  | .ok response =>
      (response.status, outcomeName (classifyStatus response.status response.headers now))

/-- The record of a client that was turned away. -/
def turnedAwayRecord (now : DateTime) (error : AuthError) (latencyMs : UInt64) :
    ProxyAuditRecord where
  occurredAt := now
  actor := "client:unmatched"
  accountId := none
  provider := none
  model := none
  sessionFingerprint := none
  status := (authFailure error).status
  outcome := "authentication_failed"
  latencyMs := latencyMs

/-- The record of a request that was sent. -/
def sentRecord (plane : Plane) (now : DateTime) (decision : AuthDecision) (ask : Asked)
    (provider accountId : String) (answer : Except TransportError UpstreamResponse)
    (latencyMs : UInt64) : ProxyAuditRecord where
  occurredAt := now
  actor := match decision.matchedAccountId with
    | some id => "client:" ++ id
    | none => "client:anonymous"
  accountId := some accountId
  provider := some provider
  model := if ask.model = "" then none else some ask.model
  sessionFingerprint := ask.session.map (metadataFingerprint plane.authenticator)
  status := (told now answer).1
  outcome := (told now answer).2
  latencyMs := latencyMs

/-- What a call sent, and what it was answered. -/
def sent? : (o : Op) × o.Resp → Option (UpstreamRequest × Except TransportError UpstreamResponse)
  | ⟨.send upstream, answer⟩ => some (upstream, answer)
  | _ => none

/-- All that it sent. -/
def sends (past : Trace) : List (UpstreamRequest × Except TransportError UpstreamResponse) :=
  past.filterMap sent?

/-- **A record of what a call has seen.** -/
def Attested (plane : Plane) (request : ProxyRequest) (past : Trace) (record : ProxyAuditRecord) :
    Prop :=
  ∃ token now snapshot latencyMs,
    presentedToken request.headers = .ok token ∧ ⟨.now, now⟩ ∈ past ∧
    ⟨.credentialSnapshot now, .ok snapshot⟩ ∈ past ∧ ⟨.elapsed, latencyMs⟩ ∈ past ∧
    ((∃ error, plane.authenticator.authorize plane.authMode token snapshot now = .error error ∧
        sends past = [] ∧ record = turnedAwayRecord now error latencyMs) ∨
      ∃ decision ask selection account credential upstream answer,
        plane.authenticator.authorize plane.authMode token snapshot now = .ok decision ∧
        asked request = .ok ask ∧
        ⟨.choose ⟨ask.session, ask.model⟩ now, .ok selection⟩ ∈ past ∧
        ⟨.loadAccount selection.accountId, .ok (account, credential)⟩ ∈ past ∧
        upstreamRequest request ask now account credential = .ok upstream ∧
        sends past = [(upstream, answer)] ∧
        record = sentRecord plane now decision ask selection.provider account.id answer latencyMs)

/-- A call that is audited is audited as what it has seen. -/
def Attesting (plane : Plane) (request : ProxyRequest) (past : Trace) (o : Op) : Prop :=
  ∀ record, o = .appendProxyAudit record → Attested plane request past record

/-- An answer that tells what came back. -/
def Answer.Tells (ask : Asked) (now : DateTime) (provider accountId : String)
    (upstream : UpstreamRequest) (past : Trace) (answer : Answer) : Prop :=
  ∀ trail ∈ answer.trail, ∃ received, sends past = [(upstream, received)] ∧
    trail = ⟨accountId, provider, ask.model, ask.session, (told now received).1,
      (told now received).2⟩

variable {plane : Plane} {request : ProxyRequest} {past : Trace}

omit [Codecs] [Serde] [Urls] [Digests] [Chrono] in
/-- A success is one whatever the headers are. -/
theorem classifyStatus_of_success {status : UInt16} (h : 200 ≤ status ∧ status < 300)
    (headers : HeaderMap) (now : DateTime) : classifyStatus status headers now = .success := by
  have hne : ∀ {other : UInt16}, ¬ other < 300 → status ≠ other := by
    rintro other hother rfl
    exact hother h.2
  have hserver : ¬ (500 ≤ status ∧ status ≤ 599) := by
    rintro ⟨hle, -⟩
    exact absurd (UInt16.lt_of_le_of_lt hle h.2) (by decide)
  rw [classifyStatus, if_neg, if_neg (hne (by decide)), if_neg (hne (by decide)), if_neg hserver]
  rintro (heq | heq)
  · exact hne (by decide) heq
  · exact hne (by decide) heq

omit [Serde] [Urls] [Digests] [Chrono] in
/-- A translated response is audited as what was received. -/
theorem told_translated (kind : ProviderKind) (stream : Bool) (response : UpstreamResponse)
    (now : DateTime) :
    told now (.ok (translatedResponse kind stream response)) = told now (.ok response) := by
  unfold translatedResponse
  split
  · rename_i hsuccess
    simp only [Bool.and_eq_true, decide_eq_true_eq] at hsuccess
    have hstatus : 200 ≤ response.status ∧ response.status < 300 := ⟨hsuccess.1.2, hsuccess.2⟩
    simp only [told, eventsOf, classifyStatus_of_success hstatus]
  · rfl

omit [Codecs] [Serde] [Urls] [Digests] [Chrono] in
@[simp] theorem sends_append (past later : Trace) :
    sends (past ++ later) = sends past ++ sends later :=
  List.filterMap_append

theorem deliver_attests (ask : Asked) (now : DateTime) (provider : String)
    (account : ProviderAccount) (upstream : UpstreamRequest) (h : sends past = []) :
    (deliver ask now provider account upstream).ByPast (Attesting plane request)
      (Answer.Tells ask now provider account.id upstream) past := by
  refine ⟨nofun, ?_⟩
  rintro (error | _)
  · exact nofun
  · refine ⟨nofun, ?_⟩
    rintro (error | response)
    · refine ⟨nofun, fun _ => ⟨nofun, fun _ => ?_⟩⟩
      rintro _ ⟨⟩
      refine ⟨.error error, ?_, rfl⟩
      simp only [sends_append, h]
      rfl
    · refine ⟨nofun, ?_⟩
      rintro (error | _)
      · exact nofun
      · refine ⟨nofun, fun _ => ?_⟩
        rintro _ ⟨⟩
        refine ⟨.ok response, ?_, ?_⟩
        · simp only [sends_append, h]
          rfl
        rw [← told_translated account.kind ask.stream response now]
        rfl

/-- An answer that comes of an account the call was given. -/
def Answer.Backed (request : ProxyRequest) (now : DateTime) (past : Trace) (answer : Answer) :
    Prop :=
  answer.trail = none ∨ ∃ ask selection account credential upstream,
    asked request = .ok ask ∧ ⟨.choose ⟨ask.session, ask.model⟩ now, .ok selection⟩ ∈ past ∧
    ⟨.loadAccount selection.accountId, .ok (account, credential)⟩ ∈ past ∧
    upstreamRequest request ask now account credential = .ok upstream ∧
    answer.Tells ask now selection.provider account.id upstream past

theorem forward_attests (request : ProxyRequest) (now : DateTime) (h : sends past = []) :
    (forward request now).ByPast (Attesting plane request) (Answer.Backed request now) past := by
  unfold forward
  split
  · exact .inl rfl
  · rename_i ask hask
    refine ⟨nofun, ?_⟩
    rintro (error | selection)
    · exact .inl rfl
    · refine ⟨nofun, ?_⟩
      rintro ((_ | _ | _) | ⟨account, credential⟩)
      · exact .inl rfl
      · exact .inl rfl
      · exact .inl rfl
      · dsimp only
        split
        · exact .inl rfl
        · rename_i upstream hupstream
          refine Prog.ByPast.weaken
            (deliver_attests ask now selection.provider account upstream ?_) ?_
          · simp only [sends_append, h]
            rfl
          intro later answer hsub htells
          refine .inr ⟨ask, selection, account, credential, upstream, hask, hsub ?_, hsub ?_,
            hupstream, htells⟩
          · simp
          · simp

/-- **A call is audited as what it has seen.** -/
theorem handle_attests (plane : Plane) (request : ProxyRequest) :
    (handle plane request).ByPast (Attesting plane request) (fun _ _ => True) [] := by
  refine ⟨nofun, fun _ => ?_⟩
  dsimp only
  split
  · exact trivial
  · split
    · exact trivial
    · rename_i token htoken
      refine ⟨nofun, fun now => ⟨nofun, ?_⟩⟩
      rintro (error | snapshot)
      · exact trivial
      · unfold authorized
        dsimp only
        split
        · rename_i error herror
          refine ⟨nofun, fun _ => ⟨nofun, fun latencyMs => ⟨?_, fun _ => trivial⟩⟩⟩
          rintro _ ⟨⟩
          exact ⟨token, now, snapshot, latencyMs, htoken, by simp, by simp, by simp,
            .inl ⟨error, herror, rfl, rfl⟩⟩
        · rename_i decision hdecision
          have hsent : ∀ seen : Trace, ⟨.now, now⟩ ∈ seen →
              ⟨.credentialSnapshot now, .ok snapshot⟩ ∈ seen → sends seen = [] →
              (forward request now >>= audited plane now decision).ByPast (Attesting plane request)
                (fun _ _ => True) seen := by
            intro seen hnow hsnapshot hnothing
            refine Prog.ByPast.bind (P := fun later answer => seen ⊆ later ∧
              answer.Backed request now later) ((forward_attests request now hnothing).weaken
                fun later answer hsub hbacked => ⟨hsub, hbacked⟩) ?_
            rintro later answer ⟨hsub, hbacked⟩
            unfold audited
            split
            · exact trivial
            · rename_i trail htrail
              refine ⟨nofun, fun latencyMs => ⟨?_, fun _ => trivial⟩⟩
              rintro _ ⟨⟩
              rcases hbacked with hnone | ⟨ask, selection, account, credential, upstream, hask,
                hchoose, hload, hupstream, htells⟩
              · rw [hnone] at htrail
                cases htrail
              · obtain ⟨received, hreceived, rfl⟩ := htells trail htrail
                have hsends : sends (later ++ [⟨.elapsed, latencyMs⟩]) =
                    [(upstream, received)] := by
                  rw [sends_append, hreceived]
                  rfl
                exact ⟨token, now, snapshot, latencyMs, htoken,
                  List.mem_append_left _ (hsub hnow), List.mem_append_left _ (hsub hsnapshot),
                  by simp, .inr ⟨decision, ask, selection, account, credential, upstream, received,
                    hdecision, hask, List.mem_append_left _ hchoose, List.mem_append_left _ hload,
                    hupstream, hsends, rfl⟩⟩
          unfold admitted
          dsimp only
          split
          · exact ⟨nofun, fun _ => hsent _ (by simp) (by simp) rfl⟩
          · exact hsent _ (by simp) (by simp) rfl

end DataPlane

/-! ## Any tasks, however they interleave -/

namespace Service

open DataPlane (turnedAwayRecord sentRecord sends UpstreamRequest UpstreamResponse TransportError)
open DataPlane.Transport (Client)

section Interleaved

variable [Serde] [Sealing] [Chrono] [Digests]

omit [Sealing] [Chrono] [Digests] in
/-- What went out, and what it was answered. -/
def cameBack? : (o : Op) × o.Resp →
    Option (UpstreamRequest × Except TransportError UpstreamResponse)
  | ⟨.transport (.dispatch _ upstream), answer⟩ => some (upstream, answer)
  | _ => none

omit [Sealing] [Chrono] [Digests] in
/-- All that a task was answered for what went out. -/
def received (past : Past) : List (UpstreamRequest × Except TransportError UpstreamResponse) :=
  past.filterMap cameBack?

omit [Sealing] [Chrono] [Digests] in
@[simp] theorem received_append (past later : Past) :
    received (past ++ later) = received past ++ received later :=
  List.filterMap_append

omit [Serde] [Sealing] [Chrono] [Digests] in
/-- **An answer that is what came back**: a response is the one thing that was
received, and with an error no response was. -/
def Came (upstream : UpstreamRequest) (answer : Except TransportError UpstreamResponse)
    (received : List (UpstreamRequest × Except TransportError UpstreamResponse)) : Prop :=
  match answer with
  | .ok response => received = [(upstream, .ok response)]
  | .error _ => received = [] ∨ ∃ error, received = [(upstream, .error error)]

omit [Sealing] [Chrono] [Digests] in
/-- From the client on. -/
theorem connect_came (request : UpstreamRequest) (client : Client) {past : Past}
    (h : received past = []) :
    ((DataPlane.Transport.connect request client).lift Op.transport fun _ r => r).ByPast
      (fun _ _ => True) (fun past result => Came request result (received past)) past := by
  refine ⟨trivial, ?_⟩
  rintro (_ | _ | _)
  · refine ⟨trivial, ?_⟩
    rintro (_ | _)
    · refine .inl ?_
      rw [received_append, received_append, h]
      rfl
    · refine ⟨trivial, ?_⟩
      rintro (error | response)
      · refine ⟨trivial, fun _ => .inr ⟨error, ?_⟩⟩
        rw [received_append, received_append, received_append, received_append, h]
        rfl
      · refine ⟨trivial, fun _ => ?_⟩
        change received _ = [(request, .ok response)]
        rw [received_append, received_append, received_append, received_append, h]
        rfl
  · refine .inl ?_
    rw [received_append, h]
    rfl
  · refine ⟨trivial, fun _ => .inl ?_⟩
    rw [received_append, received_append, h]
    rfl

/-- What a send returns is what came back. -/
theorem send_came (setup : Setup) (request : UpstreamRequest) :
    (answered setup (.send request)).ByPast (fun _ _ => True)
      (fun past result => Came request result (received past)) [] := by
  simp only [answered]
  unfold DataPlane.Transport.send
  split
  · exact .inl rfl
  · refine ⟨trivial, ?_⟩
    rintro (error | proxy)
    · exact .inl rfl
    · dsimp only
      split
      · refine ⟨trivial, ?_⟩
        rintro (error | addresses)
        · exact .inl rfl
        · exact connect_came request _ rfl
      · split
        · exact .inl rfl
        · exact connect_came request _ rfl

/-- For the other operations nothing goes out. -/
theorem received_eq_nil {setup : Setup} {o : DataPlane.Op} {own : Past} {q : Part o.Resp}
    (ho : ∀ upstream, o ≠ .send upstream) (h : (answered setup o).Reaches own q) :
    received own = [] := by
  refine List.filterMap_eq_nil_iff.mpr fun event hmem => ?_
  have hserves := (h.obeys (answered_serves setup o) fun _ _ => trivial).1 event hmem
  obtain ⟨step, r⟩ := event
  cases o with
  | send upstream => exact absurd rfl (ho upstream)
  | count | now | elapsed | credentialSnapshot | choose | loadAccount | startRequest
  | recordOutcome | appendProxyAudit =>
      obtain rfl : step = _ := hserves
      rfl

/-- **What came back for what was sent.** -/
theorem received_spelled {setup : Setup} {past : DataPlane.Trace} {complete : Past}
    (h : Prog.Spelled (answered setup) past complete) :
    ∃ parts, List.Forall₂ (fun sent part => Came sent.1 sent.2 part) (sends past) parts ∧
      received complete = parts.flatten := by
  refine h.forall₂_filterMap ?_ ?_
  · intro o r own hsent hway
    refine received_eq_nil ?_ hway
    rintro upstream rfl
    cases hsent
  · intro o r own sent hsent hway
    cases o with
    | send upstream =>
        obtain rfl := Option.some.inj hsent
        exact (send_came setup upstream).of_ret hway
    | _ => cases hsent

variable [Urls] [Codecs] [Argon2] {ι ω : Type} [DecidableEq ι]

/-- **What the audit history says is so.** Whatever tasks there are and however
their steps interleave: a row that tells of a request is written by a task that
passed one on, and has in it what that task saw. It read the clock and the
tables before. Either the client was not authorized by these, and the row says
so, and nothing went out; or the row names the account that the router chose
and the task then read, and the request was that account's, and the row has the
status of the response to it, the one thing that came back, or says that it
failed, and no response came back. -/
theorem audit_rows_attested (world : World ω) (setup : Setup) (state : State ω) (tasks : ι → Task)
    (schedule : List ι) (before after : Log ι) (i : ι) (row : AuditRow) (r : Except String Unit)
    (hrow : row.action = "proxy.request")
    (hlog : log world setup tasks state schedule =
      before ++ (i, ⟨.store (.insertAudit row), r⟩) :: after) :
    ∃ request token now accounts latencyMs, ∃ rows : List (AccountRow × Option HistoryRow),
      (tasks i).passed setup = some request ∧
      DataPlane.presentedToken request.headers = .ok token ∧
      (i, ⟨.now, now⟩) ∈ before ∧ (i, ⟨.store .selectCredentials, rows⟩) ∈ before ∧
      (rows.mapM fun (row, history) => accountCredential setup.box setup.plane.authenticator now
        row history) = .ok accounts ∧
      (i, ⟨.elapsed, latencyMs⟩) ∈ before ∧
      ((∃ error, setup.plane.authenticator.authorize setup.plane.authMode token
            (.available accounts) now = .error error ∧
          received (Journal.own i before) = [] ∧
          row = auditRow (proxyAuditEvent (turnedAwayRecord now error latencyMs))) ∨
        ∃ decision ask selection account credential upstream answer,
          setup.plane.authenticator.authorize setup.plane.authMode token (.available accounts) now =
            .ok decision ∧
          DataPlane.asked request = .ok ask ∧
          (i, ⟨.choose ⟨ask.session, ask.model⟩ now, .ok selection⟩) ∈ before ∧
          ReadBy world setup state before i selection.accountId account credential ∧
          DataPlane.upstreamRequest request ask now account credential = .ok upstream ∧
          Came upstream answer (received (Journal.own i before)) ∧
          row = auditRow (proxyAuditEvent (sentRecord setup.plane now decision ask
            selection.provider account.id answer latencyMs))) := by
  have hserial := serial_before hlog
  obtain ⟨-, k, hreaches⟩ := Pool.exists_of_journal hlog
  rcases task_underway hreaches with hcontrols | ⟨request, past, o, k, complete, part, k', hpassed,
    hpast, hspelled, hown, hpart⟩
  · -- the other tasks write no such rows
    have hmem : row.action ∈ Admin.auditActions := hcontrols
    simp [hrow, Admin.auditActions] at hmem
  · obtain ⟨record, rfl, rfl⟩ : ∃ record, o = .appendProxyAudit record ∧
        row = auditRow (proxyAuditEvent record) := by
      have hserves := serves_of_reaches hpart
      cases o with
      | appendProxyAudit record =>
          cases hserves
          exact ⟨record, rfl, rfl⟩
      | send =>
          obtain ⟨step, hstep⟩ := hserves
          cases hstep
      | count | now | elapsed | credentialSnapshot | choose | loadAccount | startRequest
      | recordOutcome => cases hserves
    have hsub : complete ⊆ Journal.own i before := by
      rw [hown]
      exact List.subset_append_left ..
    have hreceived : received (Journal.own i before) = received complete := by
      rw [hown, received, List.filterMap_append]
      exact (congrArg _ (received_eq_nil (by simp) hpart)).trans (List.append_nil _)
    rw [hreceived]
    obtain ⟨parts, hparts, hflat⟩ := received_spelled hspelled
    -- an operation of one step is in the log as that step
    have hop : ∀ {o : DataPlane.Op} {r : o.Resp} {step : Op} {r' : step.Resp}, ⟨o, r⟩ ∈ past →
        (∀ own, (answered setup o).Reaches own (.ret r) → own = [⟨step, r'⟩]) →
        (i, ⟨step, r'⟩) ∈ before := by
      intro o r step r' hmem hsingle
      obtain ⟨own, hway, hin⟩ := hspelled.of_mem hmem
      rw [hsingle own hway] at hin
      exact Journal.mem_of_mem_own (hsub (hin (List.mem_singleton_self _)))
    obtain ⟨token, now, snapshot, latencyMs, htoken, hnow, hsnapshot, helapsed, hwhich⟩ :=
      (DataPlane.handle_attests setup.plane request).of_call hpast record rfl
    obtain ⟨snapped, hsnapped, hin⟩ := hspelled.of_mem hsnapshot
    obtain ⟨rows, hrows, hmade⟩ := (snapshot_byPast setup now).of_ret hsnapped
    obtain ⟨accounts, haccounts, rfl⟩ := map_eq_ok_iff.mp hmade
    refine ⟨request, token, now, accounts, latencyMs, rows, hpassed, htoken,
      hop hnow fun _ hway => hway.op_eq, Journal.mem_of_mem_own (hsub (hin hrows)), haccounts,
      hop helapsed fun _ hway => hway.op_eq, ?_⟩
    rcases hwhich with ⟨error, herror, hsends, rfl⟩ | ⟨decision, ask, selection, account,
      credential, upstream, answer, hdecision, hask, hchoose, hload, hupstream, hsends, rfl⟩
    · rw [List.nil_append] at hsends
      rw [hsends, List.forall₂_nil_left_iff] at hparts
      rw [hflat, hparts]
      exact .inl ⟨error, herror, rfl, rfl⟩
    · refine .inr ⟨decision, ask, selection, account, credential, upstream, answer, hdecision, hask,
        hop hchoose fun _ hway => hway.op_eq, readBy_of_spelled hserial hspelled hsub hload,
        hupstream, ?_, rfl⟩
      rw [List.nil_append] at hsends
      rw [hsends] at hparts
      obtain ⟨part, rest, hcame, hrest, rfl⟩ := List.forall₂_cons_left_iff.mp hparts
      rw [List.forall₂_nil_left_iff] at hrest
      rw [hflat, hrest, List.flatten_cons, List.flatten_nil, List.append_nil]
      exact hcame

end Interleaved

section Models

open scoped Plain

/-- What is written into the audit history. -/
def audited? {ι : Type} : ι × (o : Op) × o.Resp → Option (ι × AuditRow)
  | (i, ⟨.store (.insertAudit row), _⟩) => some (i, row)
  | _ => none

theorem eq_of_audited? {ι : Type} {entry : ι × (o : Op) × o.Resp} {i : ι} {row : AuditRow}
    (h : audited? entry = some (i, row)) : ∃ r, entry = (i, ⟨.store (.insertAudit row), r⟩) := by
  unfold audited? at h
  split at h
  · obtain ⟨rfl, rfl⟩ := Prod.mk.inj (Option.some.inj h)
    exact ⟨_, rfl⟩
  · cases h

/-- The models are asked for: the row of that is of a response that came. -/
theorem audit_rows_attested_models : ∃ (before : Log Unit) (row : AuditRow)
    (upstream : DataPlane.UpstreamRequest) (response : DataPlane.UpstreamResponse),
    row.action = "proxy.request" ∧ row.status = some response.status ∧
      received (Journal.own () before) = [(upstream, .ok response)] := by
  have hwritten : ((log World.still Setup.plain (fun _ : Unit => askingModels "key") (.fresh oneRow)
      (List.replicate 20 ())).filterMap audited?).map (fun entry => (entry.2.action,
        entry.2.outcome)) = [("proxy.request", "success")] := by
    decide +kernel
  obtain ⟨⟨_, row⟩, hmem, hrow⟩ := List.mem_map.mp (hwritten ▸ List.mem_singleton_self _)
  obtain ⟨haction, houtcome⟩ := Prod.mk.inj hrow
  obtain ⟨entry, hmem, hentry⟩ := List.mem_filterMap.mp hmem
  obtain ⟨r, rfl⟩ := eq_of_audited? hentry
  obtain ⟨before, after, hlog⟩ := List.append_of_mem hmem
  obtain ⟨request, token, now, accounts, latencyMs, rows, -, -, -, -, -, -, hwhich⟩ :=
    audit_rows_attested World.still Setup.plain (.fresh oneRow) _ _ before after () row r haction
      hlog
  rcases hwhich with ⟨error, -, -, rfl⟩ | ⟨decision, ask, selection, account, credential, upstream,
    answer, -, -, -, -, -, hcame, rfl⟩
  · have hother : "authentication_failed" = "success" := houtcome
    simp at hother
  · cases answer with
    | error error =>
        have hother : "transport_failure" = "success" := houtcome
        simp at hother
    | ok response => exact ⟨before, _, upstream, response, haction, rfl, hcame⟩

end Models

end Service

end Llmap
