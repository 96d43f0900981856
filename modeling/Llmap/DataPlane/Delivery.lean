import Llmap.DataPlane.World
/-!
# Delivery

What comes of a request that was sent. It is sent once at most. If the
transport fails, the client is told, and the failure is counted and
audited. If a response comes back, `handle` records its outcome before it
hands the response on, and a router that no longer knows the account makes
it fail there: the client gets an error for a request that was answered,
and there is no audit of it (`response_lost_to_refresh`).

That is the only way to lose a response (`delivered_iff_not_orphaned`).
-/

namespace Llmap

namespace DataPlane

open Auth Providers Routing Storage

/-- **A response that is delivered**: the client gets its status, it is
counted, and it is audited once. -/
def Delivered (trace : Trace) (result : Except DataPlaneError ProxyResponse)
    (upstream : UpstreamRequest) (response : UpstreamResponse) : Prop :=
  (∃ returned, result = .ok returned ∧ returned.status = response.status) ∧
    Trace.counted .responsesTotal trace = 1 ∧
    ∃ record, Trace.audits trace = [record] ∧ record.accountId = some upstream.accountId ∧
      record.status = response.status

/-- **A failure that is reported**: the client is told, it is counted, and
it is audited once. -/
def Reported (trace : Trace) (result : Except DataPlaneError ProxyResponse)
    (upstream : UpstreamRequest) : Prop :=
  result = .error .upstreamUnavailable ∧ Trace.counted .upstreamFailuresTotal trace = 1 ∧
    ∃ record, Trace.audits trace = [record] ∧ record.accountId = some upstream.accountId ∧
      record.status = 502

/-- **What forwarding comes to**: nothing is sent, or the transport fails,
or a response is lost, or it is there. -/
inductive Forwarded : Trace → Answer → Prop where
  | unsent {trace answer} (replies : Trace.replies trace = []) : Forwarded trace answer
  | failed {trace upstream error trail}
      (replies : Trace.replies trace = [(upstream, .error error)])
      (counted : Trace.counted .upstreamFailuresTotal trace = 1)
      (audits : Trace.audits trace = [])
      (account : trail.accountId = upstream.accountId) (status : trail.status = 502) :
      Forwarded trace ⟨.error .upstreamUnavailable, some trail⟩
  | lost {trace upstream response error}
      (replies : Trace.replies trace = [(upstream, .ok response)])
      (orphaned : Trace.orphaned trace = true) : Forwarded trace (.failed error)
  | answered {trace upstream response returned trail}
      (replies : Trace.replies trace = [(upstream, .ok response)])
      (orphaned : Trace.orphaned trace = false)
      (counted : Trace.counted .responsesTotal trace = 1)
      (audits : Trace.audits trace = [])
      (returns : returned.status = response.status)
      (account : trail.accountId = upstream.accountId) (status : trail.status = response.status) :
      Forwarded trace ⟨.ok returned, some trail⟩

/-! ## Before a request is sent -/

/-- What `handle` asks before it sends. -/
def Op.preliminary : Op → Bool
  | .count .requestsTotal | .count .authenticationFailuresTotal | .now | .credentialSnapshot _
  | .choose .. | .loadAccount _ => true
  | _ => false

/-- A trace of nothing else. -/
def Trace.Preliminary (trace : Trace) : Prop := ∀ event ∈ trace, event.1.preliminary = true

namespace Trace.Preliminary

variable {before : Trace} (h : Trace.Preliminary before)

include h

theorem replies_eq : Trace.replies before = [] := by
  refine List.filterMap_eq_nil_iff.mpr fun event hevent => ?_
  obtain ⟨o, r⟩ := event
  have ho := h _ hevent
  cases o <;> first | rfl | cases ho

theorem audits_eq : Trace.audits before = [] := by
  refine List.filterMap_eq_nil_iff.mpr fun event hevent => ?_
  obtain ⟨o, r⟩ := event
  have ho := h _ hevent
  cases o <;> first | rfl | cases ho

theorem orphaned_eq : Trace.orphaned before = false := by
  refine List.any_eq_false.mpr fun event hevent => ?_
  obtain ⟨o, r⟩ := event
  have ho := h _ hevent
  cases o <;> first | exact Bool.false_ne_true | cases ho

theorem counted_eq {metric : Metric} (hmetric : (Op.count metric).preliminary = false) :
    Trace.counted metric before = 0 := by
  refine List.countP_eq_zero.mpr fun event hevent hcount => ?_
  have ho := h event hevent
  rw [of_decide_eq_true hcount, hmetric] at ho
  cases ho

end Trace.Preliminary

/-- What comes before a request is sent does not change what it comes
to. -/
theorem Forwarded.prepend {before trace : Trace} {answer : Answer} (h : Forwarded trace answer)
    (hbefore : Trace.Preliminary before) : Forwarded (before ++ trace) answer := by
  have hreplies : Trace.replies (before ++ trace) = Trace.replies trace := by
    rw [Trace.replies_append, hbefore.replies_eq, List.nil_append]
  have haudits : Trace.audits (before ++ trace) = Trace.audits trace := by
    rw [Trace.audits_append, hbefore.audits_eq, List.nil_append]
  have horphaned : Trace.orphaned (before ++ trace) = Trace.orphaned trace := by
    rw [Trace.orphaned_append, hbefore.orphaned_eq, Bool.false_or]
  have hcounted : ∀ metric, (Op.count metric).preliminary = false →
      Trace.counted metric (before ++ trace) = Trace.counted metric trace := by
    intro metric hmetric
    rw [Trace.counted_append, hbefore.counted_eq hmetric, Nat.zero_add]
  cases h with
  | unsent replies => exact .unsent (hreplies.trans replies)
  | failed replies counted audits account status =>
      exact .failed (hreplies.trans replies) ((hcounted _ rfl).trans counted)
        (haudits.trans audits) account status
  | lost replies orphaned => exact .lost (hreplies.trans replies) (horphaned.trans orphaned)
  | answered replies orphaned counted audits returns account status =>
      exact .answered (hreplies.trans replies) (horphaned.trans orphaned)
        ((hcounted _ rfl).trans counted) (haudits.trans audits) returns account status

section Handle

variable [Codecs] [Serde] [Urls] [Digests] [Chrono]

omit [Serde] [Urls] [Digests] [Chrono] in
/-- Translating a response leaves its status. -/
@[simp] theorem translatedResponse_status (kind : ProviderKind) (stream : Bool)
    (upstream : UpstreamResponse) :
    (translatedResponse kind stream upstream).status = upstream.status := by
  unfold translatedResponse
  split
  · rfl
  · rfl

omit [Serde] [Urls] [Digests] [Chrono] in
theorem deliver_yields (ask : Asked) (now : DateTime) (provider : String)
    {account : ProviderAccount} {upstream : UpstreamRequest}
    (haccount : upstream.accountId = account.id) :
    (deliver ask now provider account upstream).Yields Forwarded := by
  rintro (error | _)
  · exact .unsent rfl
  · rintro (error | response)
    · rintro recorded _
      exact .failed (rfl : _ = [(upstream, Except.error error)]) rfl rfl haccount.symm rfl
    · rintro (error | _)
      · exact .lost (rfl : _ = [(upstream, Except.ok response)]) rfl
      · rintro _
        exact .answered (rfl : _ = [(upstream, Except.ok response)]) rfl rfl rfl
          (translatedResponse_status ..) haccount.symm (translatedResponse_status ..)

theorem accountId_of_upstreamRequest {request : ProxyRequest} {ask : Asked} {now : DateTime}
    {account : ProviderAccount} {credential : String} {upstream : UpstreamRequest}
    (h : upstreamRequest request ask now account credential = .ok upstream) :
    upstream.accountId = account.id := by
  unfold upstreamRequest at h
  repeat' split at h
  all_goals cases h
  rfl

/-- **One step at a time, forwarding comes to one of the four.** -/
theorem forward_yields (request : ProxyRequest) (now : DateTime) :
    (forward request now).Yields Forwarded := by
  unfold forward
  split
  · exact .unsent rfl
  · rintro (error | selection)
    · exact .unsent rfl
    · rintro ((_ | _ | _) | ⟨account, credential⟩)
      · exact .unsent rfl
      · exact .unsent rfl
      · exact .unsent rfl
      · dsimp only
        split
        · exact .unsent rfl
        · rename_i ask _ _ upstream hupstream
          have hdelivered := deliver_yields ask now selection.provider
            (accountId_of_upstreamRequest hupstream)
          refine hdelivered.mono fun trace answer h => ?_
          exact h.prepend (List.forall_mem_cons.mpr ⟨rfl, List.forall_mem_singleton.mpr rfl⟩)

/-- **What is settled of a request**: how often it was sent, and what
became of it then. -/
def Settled (trace : Trace) (result : Except DataPlaneError ProxyResponse) : Prop :=
  (Trace.replies trace).length ≤ 1 ∧
    (∀ upstream response, (upstream, .ok response) ∈ Trace.replies trace →
      (Delivered trace result upstream response ↔ Trace.orphaned trace = false)) ∧
    ∀ upstream error, (upstream, .error error) ∈ Trace.replies trace →
      Reported trace result upstream

omit [Codecs] [Serde] [Urls] [Digests] [Chrono] in
theorem settled_of_unsent {trace : Trace} {result : Except DataPlaneError ProxyResponse}
    (h : Trace.replies trace = []) : Settled trace result := by
  refine ⟨by rw [h]; exact Nat.zero_le 1, ?_, ?_⟩
  · intro upstream response hmem
    rw [h] at hmem
    cases hmem
  · intro upstream error hmem
    rw [h] at hmem
    cases hmem

omit [Codecs] [Serde] [Urls] [Chrono] in
/-- **The audit settles a request.** -/
theorem audited_yields (plane : Plane) (now : DateTime) (decision : AuthDecision) {trace : Trace}
    {answer : Answer} (h : Forwarded trace answer) :
    (audited plane now decision answer).Yields
      fun rest result => Settled (trace ++ rest) result := by
  cases h with
  | unsent replies =>
      unfold audited
      split
      · exact settled_of_unsent (by rw [Trace.replies_append, replies]; rfl)
      · rintro latencyMs _
        exact settled_of_unsent (by rw [Trace.replies_append, replies]; rfl)
  | @failed upstream error trail replies counted audits account status =>
      rintro latencyMs submitted
      have hreplies := (Trace.replies_append trace [⟨.elapsed, latencyMs⟩,
        ⟨.appendProxyAudit _, submitted⟩]).trans ((List.append_nil _).trans replies)
      refine ⟨?_, ?_, ?_⟩
      · rw [hreplies]
        exact le_rfl
      · intro upstream' response hmem
        simp [hreplies] at hmem
      · intro upstream' error' hmem
        obtain ⟨rfl, rfl⟩ : upstream' = upstream ∧ error' = error := by
          simpa [hreplies] using hmem
        refine ⟨rfl, ?_, ?_⟩
        · rw [Trace.counted_append, counted]
          rfl
        · rw [Trace.audits_append, audits]
          exact ⟨_, rfl, congrArg some account, status⟩
  | @lost upstream response error replies orphaned =>
      have hreplies := (Trace.replies_append trace []).trans ((List.append_nil _).trans replies)
      refine ⟨?_, ?_, ?_⟩
      · rw [hreplies]
        exact le_rfl
      · intro upstream' response' hmem
        rw [Trace.orphaned_append, orphaned]
        refine iff_of_false ?_ (by simp)
        rintro ⟨⟨returned, hreturned, -⟩, -⟩
        cases hreturned
      · intro upstream' error' hmem
        simp [replies] at hmem
  | @answered upstream response returned trail replies orphaned counted audits returns account
      status =>
      rintro latencyMs submitted
      have hreplies := (Trace.replies_append trace [⟨.elapsed, latencyMs⟩,
        ⟨.appendProxyAudit _, submitted⟩]).trans ((List.append_nil _).trans replies)
      refine ⟨?_, ?_, ?_⟩
      · rw [hreplies]
        exact le_rfl
      · intro upstream' response' hmem
        obtain ⟨rfl, rfl⟩ : upstream' = upstream ∧ response' = response := by
          simpa [hreplies] using hmem
        refine iff_of_true ⟨⟨returned, rfl, returns⟩, ?_, ?_⟩ ?_
        · rw [Trace.counted_append, counted]
          rfl
        · rw [Trace.audits_append, audits]
          exact ⟨_, rfl, congrArg some account, status⟩
        · rw [Trace.orphaned_append, orphaned]
          rfl
      · intro upstream' error' hmem
        simp [hreplies] at hmem

/-- An admitted request is settled, after whatever came before it. -/
theorem admitted_yields (plane : Plane) (request : ProxyRequest) (now : DateTime)
    (decision : AuthDecision) (before : Trace) (hbefore : Trace.Preliminary before) :
    (admitted plane request now decision).Yields fun rest result =>
      Settled (before ++ rest) result := by
  have hsent : ∀ {before : Trace}, Trace.Preliminary before →
      (forward request now >>= audited plane now decision).Yields fun rest result =>
        Settled (before ++ rest) result := by
    intro before hbefore
    refine (forward_yields request now).bind fun trace answer h => ?_
    have haudited := audited_yields plane now decision (h.prepend hbefore)
    simpa only [List.append_assoc] using haudited
  unfold admitted
  cases decision.observedFailure with
  | false => exact hsent hbefore
  | true =>
      intro counted
      have hcount : Trace.Preliminary
          (before ++ [⟨.count .authenticationFailuresTotal, counted⟩]) := by
        intro event hevent
        rcases List.mem_append.mp hevent with hold | hnew
        · exact hbefore event hold
        · rw [List.mem_singleton.mp hnew]
          rfl
      have hsettled := hsent hcount
      simpa only [List.append_assoc, List.singleton_append] using hsettled

/-- **Every request is settled**, whatever it is answered on the way. -/
theorem handle_yields (plane : Plane) (request : ProxyRequest) :
    (handle plane request).Yields Settled := by
  intro counted
  dsimp only
  split
  · exact settled_of_unsent rfl
  · split
    · exact settled_of_unsent rfl
    · rintro now (error | snapshot)
      · exact settled_of_unsent rfl
      · unfold authorized
        dsimp only
        split
        · rintro _ latencyMs _
          exact settled_of_unsent rfl
        · refine admitted_yields plane request now _ [⟨.count .requestsTotal, counted⟩,
            ⟨.now, now⟩, ⟨.credentialSnapshot now, .ok snapshot⟩] ?_
          intro event hevent
          simp only [List.mem_cons, List.not_mem_nil, or_false] at hevent
          rcases hevent with rfl | rfl | rfl <;> rfl

/-- **When a response is delivered**, in every world: a request is sent
once at most, a response that comes back is delivered just in case the
router knows the account when its outcome is recorded, and a failure of
the transport is reported. -/
theorem delivered_iff_not_orphaned {ω : Type} (world : World ω) (plane : Plane)
    (shared : Shared ω) (request : ProxyRequest) :
    (Trace.replies (world.trace plane shared request)).length ≤ 1 ∧
      (∀ upstream response,
        (upstream, .ok response) ∈ Trace.replies (world.trace plane shared request) →
          (Delivered (world.trace plane shared request) (world.result plane shared request)
              upstream response ↔
            Trace.orphaned (world.trace plane shared request) = false)) ∧
      ∀ upstream error,
        (upstream, .error error) ∈ Trace.replies (world.trace plane shared request) →
          Reported (world.trace plane shared request) (world.result plane shared request)
            upstream :=
  (handle_yields plane request).run shared

end Handle

section Example

open scoped Plain
open World

/-- What is sent for a list of models. -/
def listModelsUpstream : UpstreamRequest :=
  ⟨"a", "GET", ⟨"https", "", none, some "api.anthropic.com", none, "/v1/models", none, none⟩,
    [], [],
    Table.collect [("x-api-key", "key")]⟩

/-- With nobody else at the router, a response is delivered. -/
theorem delivered_when_alone :
    let world := World.plain (fun _ => []) (.ok .unavailable) 200
    let plane : Plane := ⟨.off, ⟨Vector.replicate 32 0⟩, 0⟩
    Delivered (world.trace plane oneAccount (listModels []))
      (world.result plane oneAccount (listModels [])) listModelsUpstream ⟨200, [], []⟩ :=
  ((delivered_iff_not_orphaned (World.plain (fun _ => []) (.ok .unavailable) 200)
    ⟨.off, ⟨Vector.replicate 32 0⟩, 0⟩ oneAccount (listModels [])).2.1 listModelsUpstream
    ⟨200, [], []⟩ (by decide +kernel)).mpr (by decide +kernel)

/-- **A response lost to a refresh.** The account is removed while the
request is upstream. The response comes back with status 200; the client
is told that there is no capacity, and nothing is counted or audited. -/
theorem response_lost_to_refresh :
    let world := World.plain (fun step => if step = 6 then [.replaceAccounts []] else [])
      (.ok .unavailable) 200
    let plane : Plane := ⟨.off, ⟨Vector.replicate 32 0⟩, 0⟩
    Trace.replies (world.trace plane oneAccount (listModels [])) =
        [(listModelsUpstream, .ok ⟨200, [], []⟩)] ∧
      world.result plane oneAccount (listModels []) = .error .noCapacity ∧
      Trace.counted .responsesTotal (world.trace plane oneAccount (listModels [])) = 0 ∧
      Trace.audits (world.trace plane oneAccount (listModels [])) = [] := by
  decide +kernel

end Example

end DataPlane

end Llmap
