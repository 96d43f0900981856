import Llmap.DataPlane.Model
import Llmap.Egress.Chain
import Llmap.Egress.Policy
import Llmap.Plain
/-!
# Failover

`data_plane.rs`: the transport, which sends a request through the active
endpoint of its account's chain and records afterwards whether that went
well. A result is recorded of the account, that is, of the endpoint that
is active by then: a send that was under way when its endpoint was given
up counts against the next one (`failover_without_use`).

When every result is of a send through the endpoint that is active when
it is recorded, the counters are right: each is the number of failures in
a row among the sends through its endpoint, and no endpoint is given up
before its last three sends have failed (`failover_attributed`).
-/

namespace Llmap

namespace DataPlane

open Egress Net

/-- `AccountProxyChain`. -/
structure AccountProxyChain where
  sources : List String
  chain : ProxyChain

/-- `ReqwestTransport`. -/
structure ReqwestTransport where
  destinationPolicy : DestinationPolicy
  proxyChains : Table String AccountProxyChain

namespace ReqwestTransport

/-- `ReqwestTransport::new`. -/
def new (destinationPolicy : DestinationPolicy) : ReqwestTransport := ⟨destinationPolicy, ∅⟩

/-- The chain that is made of an account's sources. -/
def built [Urls] (sources : List String) : Except TransportError AccountProxyChain :=
  match sources.mapM ProxyEndpoint.parse with
  | .error _ => .error .failed
  | .ok endpoints =>
      match ProxyChain.new endpoints with
      | .error _ => .error .failed
      | .ok chain => .ok ⟨sources, chain⟩

/-- `ReqwestTransport::selected_proxy`. -/
def selectedProxy [Urls] (transport : ReqwestTransport) (accountId : String)
    (sources : List String) : ReqwestTransport × Except TransportError (Option ProxyEndpoint) :=
  if sources = [] then
    ({ transport with proxyChains := transport.proxyChains.erase accountId }, .ok none)
  else
    match transport.proxyChains[accountId]?.filter (fun existing => existing.sources = sources) with
    | some existing => (transport, .ok (some existing.chain.active))
    | none =>
        -- there is no chain, or the sources have changed
        match built sources with
        | .error error => (transport, .error error)
        | .ok state =>
            ({ transport with proxyChains := transport.proxyChains.insert accountId state },
              .ok (some state.chain.active))

/-- `ReqwestTransport::record_transport_result`. -/
def recordTransportResult (transport : ReqwestTransport) (accountId : String) (success : Bool) :
    ReqwestTransport :=
  match transport.proxyChains[accountId]? with
  | none => transport
  | some state =>
      let chain := if success then state.chain.recordSuccess else state.chain.recordFailure
      { transport with
        proxyChains := transport.proxyChains.insert accountId { state with chain := chain } }

end ReqwestTransport

/-! ## Sending -/

namespace Transport

/-- `reqwest::Client`, as a send sets it up: the proxy it goes through, and
the addresses that stand for a host. -/
structure Client where
  proxy : Option Url
  resolved : Option (String × List SocketAddr)
deriving DecidableEq

/-- What becomes of a `reqwest::ClientBuilder`. -/
inductive Building where
  | built
  | proxyRejected
  | failed
deriving DecidableEq

/-- What `send` asks of the transport and of what is around it. -/
inductive Op where
  /-- `ReqwestTransport::selected_proxy`. -/
  | selectedProxy (accountId : String) (sources : List String)
  /-- `DestinationPolicy::resolve_authorized`. -/
  | resolveAuthorized (url : Url)
  /-- A client is built. -/
  | client (client : Client)
  /-- Whether the headers are accepted. -/
  | headers (headers : Table String String)
  /-- The request itself, by a client. -/
  | dispatch (client : Client) (request : UpstreamRequest)
  /-- `ReqwestTransport::record_transport_result`. -/
  | recordTransportResult (accountId : String) (success : Bool)

/-- What it is answered. -/
abbrev Op.Resp : Op → Type
  | .selectedProxy .. => Except TransportError (Option ProxyEndpoint)
  | .resolveAuthorized _ => Except EgressError (List SocketAddr)
  | .client _ => Building
  | .headers _ => Bool
  | .dispatch .. => Except TransportError UpstreamResponse
  | .recordTransportResult .. => Unit

/-- A part of a send. -/
abbrev Part := Prog Op Op.Resp (Except TransportError UpstreamResponse)

/-- A send that fails is recorded as such. -/
def failed (accountId : String) : Part :=
  .call (.recordTransportResult accountId false) fun _ => .ret (.error .failed)

/-- `send` from the client on. -/
def connect (request : UpstreamRequest) (client : Client) : Part :=
  .call (.client client) fun
    | .proxyRejected => .ret (.error .failed)
    | .failed => failed request.accountId
    | .built => .call (.headers request.headers) fun
        | false => .ret (.error .failed)
        | true => .call (.dispatch client request) fun
            | .error _ => failed request.accountId
            | .ok response =>
                .call (.recordTransportResult request.accountId true) fun _ => .ret (.ok response)

/-- `destination_requires_local_resolution`. -/
def destinationRequiresLocalResolution (endpoint : ProxyEndpoint) : Bool :=
  endpoint.protocol = .socks5

/-- `ReqwestTransport::send`. -/
def send (policy : DestinationPolicy) (request : UpstreamRequest) : Part :=
  match request.url.host with
  | none => .ret (.error .failed)
  | some destinationHost =>
      .call (.selectedProxy request.accountId request.egressProxies) fun
        | .error error => .ret (.error error)
        | .ok proxy =>
            if proxy.all destinationRequiresLocalResolution then
              .call (.resolveAuthorized request.url) fun
                | .error _ => .ret (.error .failed)
                | .ok resolved =>
                    connect request ⟨proxy.map (·.url), some (destinationHost, resolved)⟩
            else
              match policy.authorize request.url with
              | .error _ => .ret (.error .failed)
              | .ok () => connect request ⟨proxy.map (·.url), none⟩

/-- What sends share: the transport, and what is around it. -/
structure Shared (ω : Type) where
  transport : ReqwestTransport
  outside : ω

/-- What is around a transport: the name service, and everything else. -/
structure World (ω : Type) where
  lookupHost : ω → String → UInt16 → Option (List SocketAddr)
  answer : ω → (o : Op) → ω × o.Resp

/-- Carries out what a send asks. -/
def World.exec [Urls] {ω : Type} (world : World ω) (shared : Shared ω) :
    (o : Op) → Shared ω × o.Resp
  | .selectedProxy accountId sources =>
      (⟨(shared.transport.selectedProxy accountId sources).1, shared.outside⟩,
        (shared.transport.selectedProxy accountId sources).2)
  | .resolveAuthorized url =>
      (⟨shared.transport, (world.answer shared.outside (.resolveAuthorized url)).1⟩,
        shared.transport.destinationPolicy.resolveAuthorized (world.lookupHost shared.outside) url)
  | .client client =>
      (⟨shared.transport, (world.answer shared.outside (.client client)).1⟩,
        (world.answer shared.outside (.client client)).2)
  | .headers headers =>
      (⟨shared.transport, (world.answer shared.outside (.headers headers)).1⟩,
        (world.answer shared.outside (.headers headers)).2)
  | .dispatch client request =>
      (⟨shared.transport, (world.answer shared.outside (.dispatch client request)).1⟩,
        (world.answer shared.outside (.dispatch client request)).2)
  | .recordTransportResult accountId success =>
      (⟨shared.transport.recordTransportResult accountId success, shared.outside⟩, ())

/-! ## What is seen of an account -/

/-- The index of an account's active endpoint. -/
def activeIndex? (a : String) (transport : ReqwestTransport) : Option ℕ :=
  transport.proxyChains[a]?.map fun state => (state.chain.activeIndex : ℕ)

/-- The failures in a row that are counted for an endpoint of an
account. -/
def failures? (a : String) (transport : ReqwestTransport) (j : ℕ) : Option ℕ :=
  transport.proxyChains[a]?.bind fun state => state.chain.failures? j

/-- Whether a step selects an endpoint of an account. -/
def Op.selects (a : String) : Op → Bool
  | .selectedProxy accountId _ => accountId = a
  | _ => false

/-- The result that a step records of an account. -/
def Op.records (a : String) : Op → Option Bool
  | .recordTransportResult accountId success => if accountId = a then some success else none
  | _ => none

/-- **Sends, watched.** Beside the sends themselves: the endpoint of the
account that each of them has selected, and the results recorded of those
sends, the last one first, each with the endpoint that was used. -/
structure Watched (ι ω : Type) where
  pool : Pool ι (Shared ω) Op Op.Resp (Except TransportError UpstreamResponse)
  selected : ι → Option ℕ
  results : List (ℕ × Bool)

namespace Watched

variable {ι ω : Type} [DecidableEq ι]

/-- The step a send is about to make. -/
def next? (watched : Watched ι ω) (i : ι) : Option Op := (watched.pool.procs i).next?

/-- The results that a step of a send adds. -/
def added (a : String) (watched : Watched ι ω) (i : ι) : List (ℕ × Bool) :=
  match (watched.next? i).bind (Op.records a), watched.selected i with
  | some success, some j => [(j, success)]
  | _, _ => []

/-- A step of a send. -/
def turn [Urls] (world : World ω) (a : String) (watched : Watched ι ω) (i : ι) : Watched ι ω where
  pool := watched.pool.turn world.exec i
  selected :=
    if (watched.next? i).any (Op.selects a) then
      Function.update watched.selected i
        (activeIndex? a (watched.pool.turn world.exec i).shared.transport)
    else watched.selected
  results := watched.added a i ++ watched.results

/-- The results of the sends through an endpoint, the last one first. -/
def outcomes (watched : Watched ι ω) (j : ℕ) : List Bool :=
  (watched.results.filter fun result => result.1 = j).map Prod.snd

/-- **A result that belongs where it is recorded**: the endpoint that its
send has selected is the active one. -/
def Attributed (a : String) (watched : Watched ι ω) (i : ι) : Prop :=
  ∀ o ∈ watched.next? i, (o.records a).isSome = true →
    watched.selected i = activeIndex? a watched.pool.shared.transport

instance (a : String) (watched : Watched ι ω) (i : ι) : Decidable (watched.Attributed a i) :=
  inferInstanceAs (Decidable (∀ o ∈ watched.next? i, (o.records a).isSome = true →
    watched.selected i = activeIndex? a watched.pool.shared.transport))

/-- Sends that are yet to come. -/
def opening (transport : ReqwestTransport) (outside : ω) (requests : ι → UpstreamRequest) :
    Watched ι ω where
  pool := ⟨⟨transport, outside⟩, fun i => send transport.destinationPolicy (requests i)⟩
  selected _ := none
  results := []

end Watched

/-- How many of the last results were failures in a row. -/
def streak (outcomes : List Bool) : ℕ := (outcomes.takeWhile (!·)).length

@[simp] theorem streak_cons_true (outcomes : List Bool) : streak (true :: outcomes) = 0 := rfl

@[simp] theorem streak_cons_false (outcomes : List Bool) :
    streak (false :: outcomes) = streak outcomes + 1 := by
  simp [streak]

/-- A streak of three is three failures. -/
theorem take_three_of_streak {outcomes : List Bool} (h : 3 ≤ streak outcomes) :
    outcomes.take 3 = [false, false, false] := by
  match outcomes, h with
  | true :: _, h => simp at h
  | false :: true :: _, h => simp at h
  | false :: false :: true :: _, h => simp at h
  | false :: false :: false :: _, _ => rfl

/-! ## What a step does to an account's chain -/

section Step

variable [Urls] {ω : Type} {world : World ω} {a : String}

/-- A step that is not about an account leaves its chain. -/
theorem proxyChains_exec_of_ne (shared : Shared ω) {o : Op} (hselects : o.selects a = false)
    (hrecords : o.records a = none) :
    (world.exec shared o).1.transport.proxyChains[a]? = shared.transport.proxyChains[a]? := by
  cases o with
  | selectedProxy accountId sources =>
      have hne : accountId ≠ a := by simpa [Op.selects] using hselects
      change (shared.transport.selectedProxy accountId sources).1.proxyChains[a]? = _
      unfold ReqwestTransport.selectedProxy
      repeat' split
      · simp [Std.ExtTreeMap.getElem?_erase, hne]
      · rfl
      · rfl
      · simp [Std.ExtTreeMap.getElem?_insert, hne]
  | recordTransportResult accountId success =>
      have hne : accountId ≠ a := by simpa [Op.records] using hrecords
      change (shared.transport.recordTransportResult accountId success).proxyChains[a]? = _
      unfold ReqwestTransport.recordTransportResult
      split
      · rfl
      · simp [Std.ExtTreeMap.getElem?_insert, hne]
  | resolveAuthorized | client | headers | dispatch => rfl

omit [Urls] in
/-- Recording changes the chain that is there. -/
theorem proxyChains_record (transport : ReqwestTransport) (success : Bool) :
    (transport.recordTransportResult a success).proxyChains[a]? =
      transport.proxyChains[a]?.map fun state => { state with
        chain := if success then state.chain.recordSuccess else state.chain.recordFailure } := by
  unfold ReqwestTransport.recordTransportResult
  split
  · rename_i hnone
    rw [hnone]
    rfl
  · rename_i state hstate
    rw [hstate, Std.ExtTreeMap.getElem?_insert_self]
    rfl

/-- Selecting leaves a chain of the same sources. -/
theorem selectedProxy_of_some {transport : ReqwestTransport} {sources : List String}
    {state : AccountProxyChain} (hne : sources ≠ [])
    (hstate : transport.proxyChains[a]? = some state)
    (hsources : state.sources = sources) :
    (transport.selectedProxy a sources).1 = transport := by
  simp [ReqwestTransport.selectedProxy, hne, hstate, hsources, Option.filter]

/-- Where there is no chain, selecting makes one or leaves none. -/
theorem selectedProxy_of_none {transport : ReqwestTransport} {sources : List String}
    (hne : sources ≠ []) (hnone : transport.proxyChains[a]? = none) :
    (transport.selectedProxy a sources).1 = transport ∨
      ∃ endpoints chain, ProxyChain.new endpoints = .ok chain ∧
        (transport.selectedProxy a sources).1.proxyChains[a]? = some ⟨sources, chain⟩ := by
  unfold ReqwestTransport.selectedProxy
  rw [if_neg hne, hnone, Option.filter_none]
  dsimp only
  cases hbuilt : ReqwestTransport.built sources with
  | error error => exact .inl rfl
  | ok state =>
      unfold ReqwestTransport.built at hbuilt
      split at hbuilt
      · cases hbuilt
      · rename_i endpoints _
        split at hbuilt
        · cases hbuilt
        · rename_i chain hchain
          obtain rfl := Except.ok.inj hbuilt
          exact .inr ⟨endpoints, chain, hchain, Std.ExtTreeMap.getElem?_insert_self⟩

end Step

/-! ## The counters of a chain -/

/-- **Counters that are right** by the results of the sends through each
endpoint: each is the streak of its endpoint, as far as it can count, and
every endpoint before the active one ended in three failures. -/
structure Counts (chain : ProxyChain) (outcomes : ℕ → List Bool) : Prop where
  counted : ∀ j, ∀ n ∈ chain.failures? j, n = min (streak (outcomes j)) 255
  passed : ∀ j < (chain.activeIndex : ℕ), 3 ≤ streak (outcomes j)

variable {chain : ProxyChain} {outcomes : ℕ → List Bool}

theorem counts_new {endpoints : List ProxyEndpoint} (h : ProxyChain.new endpoints = .ok chain)
    (houtcomes : ∀ j, outcomes j = []) : Counts chain outcomes := by
  obtain ⟨hactive, hzero⟩ := ProxyChain.new_spec h
  refine ⟨?_, ?_⟩
  · intro j n hn
    rw [hzero j n hn, houtcomes j]
    rfl
  · intro j hj
    omega

theorem Counts.recordSuccess (h : Counts chain outcomes) {outcomes' : ℕ → List Bool}
    (hactive : outcomes' chain.activeIndex = true :: outcomes chain.activeIndex)
    (hothers : ∀ j : ℕ, j ≠ chain.activeIndex → outcomes' j = outcomes j) :
    Counts chain.recordSuccess outcomes' := by
  refine ⟨?_, ?_⟩
  · intro j n hn
    rw [ProxyChain.failures?_recordSuccess] at hn
    by_cases hj : j = chain.activeIndex
    · subst hj
      rw [if_pos rfl] at hn
      obtain ⟨before, -, rfl⟩ := Option.map_eq_some_iff.mp hn
      rw [hactive]
      rfl
    · rw [if_neg hj] at hn
      rw [hothers j hj]
      exact h.counted j n hn
  · intro j hj
    change j < (chain.activeIndex : ℕ) at hj
    rw [hothers j (by omega)]
    exact h.passed j hj

theorem Counts.recordFailure (h : Counts chain outcomes) {outcomes' : ℕ → List Bool}
    (hactive : outcomes' chain.activeIndex = false :: outcomes chain.activeIndex)
    (hothers : ∀ j : ℕ, j ≠ chain.activeIndex → outcomes' j = outcomes j) :
    Counts chain.recordFailure outcomes' := by
  have hcounted : ∀ j, ∀ n ∈ chain.recordFailure.failures? j,
      n = min (streak (outcomes' j)) 255 := by
    intro j n hn
    rw [ProxyChain.failures?_recordFailure] at hn
    by_cases hj : j = chain.activeIndex
    · subst hj
      rw [if_pos rfl] at hn
      obtain ⟨before, hbefore, rfl⟩ := Option.map_eq_some_iff.mp hn
      have hcount := h.counted _ before hbefore
      rw [hactive, streak_cons_false]
      omega
    · rw [if_neg hj] at hn
      rw [hothers j hj]
      exact h.counted j n hn
  refine ⟨hcounted, ?_⟩
  intro j hj
  by_cases hjactive : j = chain.activeIndex
  · -- the active endpoint was given up just now
    subst hjactive
    rcases chain.activeIndex_recordFailure with hstays | ⟨-, n, hn, hthree⟩
    · omega
    · have hcount := hcounted _ n hn
      omega
  · rw [hothers j hjactive]
    refine h.passed j ?_
    rcases chain.activeIndex_recordFailure with hstays | ⟨hmoves, -⟩
    · omega
    · omega

/-! ## Every run -/

section Run

variable [Urls] {ι ω : Type} [DecidableEq ι] {world : World ω} {a : String}
variable {sources : List String} {watched : Watched ι ω}

/-- What sends may ask: of the account, the endpoints of its own list. -/
def Op.OfList (a : String) (sources : List String) : Op → Prop
  | .selectedProxy accountId sources' => accountId = a → sources' = sources
  | _ => True

omit [Urls] in
theorem send_obeys (policy : DestinationPolicy) {request : UpstreamRequest}
    (h : request.accountId = a → request.egressProxies = sources) :
    (send policy request).Obeys (Op.OfList a sources) (fun _ _ => True) (fun _ => True) := by
  have hconnect : ∀ client, (connect request client).Obeys (Op.OfList a sources)
      (fun _ _ => True) (fun _ => True) := by
    intro client
    refine ⟨trivial, ?_⟩
    rintro (_ | _ | _) -
    · refine ⟨trivial, ?_⟩
      rintro (_ | _) -
      · trivial
      · refine ⟨trivial, ?_⟩
        rintro (error | response) -
        · exact ⟨trivial, fun _ _ => trivial⟩
        · exact ⟨trivial, fun _ _ => trivial⟩
    · trivial
    · exact ⟨trivial, fun _ _ => trivial⟩
  unfold send
  split
  · trivial
  · refine ⟨h, ?_⟩
    rintro (error | proxy) -
    · trivial
    · dsimp only
      split
      · refine ⟨trivial, ?_⟩
        rintro (error | resolved) -
        · trivial
        · exact hconnect _
      · split
        · trivial
        · exact hconnect _

/-- **What attributed sends keep**: an account that has a chain has it of
its list, with counters that are right; before that, nothing is
recorded. -/
structure Fair (a : String) (sources : List String) (watched : Watched ι ω) : Prop where
  obeys : ∀ i, (watched.pool.procs i).Obeys (Op.OfList a sources) (fun _ _ => True) fun _ => True
  without : watched.pool.shared.transport.proxyChains[a]? = none → watched.results = []
  counts : ∀ state : AccountProxyChain,
    watched.pool.shared.transport.proxyChains[a]? = some state →
      state.sources = sources ∧ Counts state.chain watched.outcomes

/-- A step that adds no result leaves the outcomes. -/
theorem outcomes_turn_of_added {i : ι} (h : watched.added a i = []) :
    (watched.turn world a i).outcomes = watched.outcomes := by
  funext j
  simp [Watched.outcomes, Watched.turn, h]

omit [Urls] [DecidableEq ι] in
theorem added_of_records_eq_none {i : ι} {o : Op} (hnext : watched.next? i = some o)
    (h : o.records a = none) : watched.added a i = [] := by
  simp [Watched.added, hnext, h]

/-- What a step of a send leaves of the transport. -/
theorem transport_turn {i : ι} {o : Op} {k : o.Resp → Part}
    (hproc : watched.pool.procs i = .call o k) :
    (watched.turn world a i).pool.shared = (world.exec watched.pool.shared o).1 := by
  change (watched.pool.turn world.exec i).shared = _
  rw [Pool.turn_of_call hproc]

theorem obeys_turn (h : Fair a sources watched) (i j : ι) :
    ((watched.turn world a i).pool.procs j).Obeys (Op.OfList a sources) (fun _ _ => True)
      fun _ => True :=
  Pool.turn_obeys (h.obeys j) fun _ _ => trivial

/-- A result is recorded. -/
theorem Fair.record (h : Fair a sources watched) {i : ι} {success : Bool}
    {k : Unit → Part}
    (hproc : watched.pool.procs i = .call (.recordTransportResult a success) k)
    (hattributed : watched.selected i = activeIndex? a watched.pool.shared.transport) :
    Fair a sources (watched.turn world a i) := by
  have hadded : watched.added a i =
      (watched.selected i).toList.map fun j => (j, success) := by
    have hnext : watched.next? i = some (.recordTransportResult a success) := by
      rw [Watched.next?, hproc]
      rfl
    cases hselected : watched.selected i <;> simp [Watched.added, hnext, Op.records, hselected]
  have hchain : (watched.turn world a i).pool.shared.transport.proxyChains[a]? =
      watched.pool.shared.transport.proxyChains[a]?.map fun state => { state with
        chain := if success then state.chain.recordSuccess else state.chain.recordFailure } := by
    rw [transport_turn hproc]
    exact proxyChains_record _ success
  refine ⟨obeys_turn h i, ?_, ?_⟩
  · intro hnone
    rw [hchain, Option.map_eq_none_iff] at hnone
    have hidle : watched.selected i = none := by rw [hattributed, activeIndex?, hnone]; rfl
    change watched.added a i ++ watched.results = []
    rw [hadded, hidle, h.without hnone]
    rfl
  · intro state' hstate'
    rw [hchain] at hstate'
    obtain ⟨state, hstate, rfl⟩ := Option.map_eq_some_iff.mp hstate'
    obtain ⟨hsources, hcounts⟩ := h.counts state hstate
    have hselected : watched.selected i = some (state.chain.activeIndex : ℕ) := by
      rw [hattributed, activeIndex?, hstate]
      rfl
    have hactive : (watched.turn world a i).outcomes state.chain.activeIndex =
        success :: watched.outcomes state.chain.activeIndex := by
      simp [Watched.outcomes, Watched.turn, hadded, hselected]
    have hothers : ∀ j : ℕ, j ≠ state.chain.activeIndex →
        (watched.turn world a i).outcomes j = watched.outcomes j := by
      intro j hj
      simp [Watched.outcomes, Watched.turn, hadded, hselected, Ne.symm hj]
    refine ⟨hsources, ?_⟩
    cases success with
    | true => exact hcounts.recordSuccess hactive hothers
    | false => exact hcounts.recordFailure hactive hothers

/-- Nothing is recorded, and the chain stays. -/
theorem Fair.quiet (h : Fair a sources watched) {i : ι} (hadded : watched.added a i = [])
    (hchain : (watched.turn world a i).pool.shared.transport.proxyChains[a]? =
      watched.pool.shared.transport.proxyChains[a]?) :
    Fair a sources (watched.turn world a i) := by
  refine ⟨obeys_turn h i, ?_, ?_⟩
  · intro hnone
    change watched.added a i ++ watched.results = []
    rw [hadded, h.without (hchain.symm.trans hnone)]
    rfl
  · intro state hstate
    rw [outcomes_turn_of_added hadded]
    exact h.counts state (hchain.symm.trans hstate)

/-- An endpoint is selected. -/
theorem Fair.select (h : Fair a sources watched) (hne : sources ≠ []) {i : ι}
    {k : Except TransportError (Option ProxyEndpoint) → Part}
    (hproc : watched.pool.procs i = .call (.selectedProxy a sources) k) :
    Fair a sources (watched.turn world a i) := by
  have hadded : watched.added a i = [] := by
    refine added_of_records_eq_none (o := .selectedProxy a sources) ?_ rfl
    rw [Watched.next?, hproc]
    rfl
  have htransport : (watched.turn world a i).pool.shared.transport =
      (watched.pool.shared.transport.selectedProxy a sources).1 := by
    rw [transport_turn hproc]
    rfl
  cases hstate : watched.pool.shared.transport.proxyChains[a]? with
  | some state =>
      refine h.quiet hadded ?_
      rw [htransport, selectedProxy_of_some hne hstate (h.counts state hstate).1]
  | none =>
      rcases selectedProxy_of_none hne hstate with hsame | ⟨endpoints, chain, hnew, hinserted⟩
      · refine h.quiet hadded ?_
        rw [htransport, hsame]
      · -- the first chain of the account, before any result
        have hnothing : ∀ j, (watched.turn world a i).outcomes j = [] := by
          intro j
          rw [outcomes_turn_of_added hadded, Watched.outcomes, h.without hstate]
          rfl
        rw [← htransport] at hinserted
        refine ⟨obeys_turn h i, ?_, ?_⟩
        · intro hnone
          rw [hinserted] at hnone
          cases hnone
        · intro state hstate'
          obtain rfl : ⟨sources, chain⟩ = state := Option.some.inj (hinserted.symm.trans hstate')
          exact ⟨rfl, counts_new hnew hnothing⟩

/-- **One step of attributed sends.** -/
theorem Fair.turn (h : Fair a sources watched) (hne : sources ≠ []) {i : ι}
    (hattributed : watched.Attributed a i) : Fair a sources (watched.turn world a i) := by
  cases hproc : watched.pool.procs i with
  | ret result =>
      refine h.quiet (by simp [Watched.added, Watched.next?, hproc]) ?_
      change (watched.pool.turn world.exec i).shared.transport.proxyChains[a]? = _
      rw [Pool.turn_of_ret hproc]
  | call o k =>
      have hnext : watched.next? i = some o := by rw [Watched.next?, hproc]; rfl
      have hcall := h.obeys i
      rw [hproc] at hcall
      -- a step that is about another account, or about none
      have hother : o.selects a = false → o.records a = none →
          Fair a sources (watched.turn world a i) := by
        intro hselects hrecords
        refine h.quiet (added_of_records_eq_none hnext hrecords) ?_
        rw [transport_turn hproc]
        exact proxyChains_exec_of_ne _ hselects hrecords
      cases o with
      | selectedProxy accountId sources' =>
          by_cases hid : accountId = a
          · subst hid
            obtain rfl : sources' = sources := hcall.1 rfl
            exact h.select hne hproc
          · exact hother (by simpa [Op.selects] using hid) rfl
      | recordTransportResult accountId success =>
          by_cases hid : accountId = a
          · subst hid
            exact h.record hproc (hattributed _ hnext (by simp [Op.records]))
          · exact hother rfl (by simpa [Op.records] using hid)
      | resolveAuthorized | client | headers | dispatch => exact hother rfl rfl

omit [Urls] [DecidableEq ι] in
theorem fair_opening {transport : ReqwestTransport} (outside : ω) {requests : ι → UpstreamRequest}
    (hlist : ∀ i, (requests i).accountId = a → (requests i).egressProxies = sources)
    (hnone : transport.proxyChains[a]? = none) :
    Fair a sources (Watched.opening transport outside requests) := by
  refine ⟨fun i => send_obeys _ (hlist i), fun _ => rfl, ?_⟩
  intro state hstate
  cases hnone.symm.trans hstate

omit [Urls] [DecidableEq ι] in
/-- What is given up, or was before, ended in three failures. -/
theorem Fair.passed (h : Fair a sources watched) {j k : ℕ}
    (hactive : activeIndex? a watched.pool.shared.transport = some k) (hj : j < k) :
    3 ≤ streak (watched.outcomes j) := by
  obtain ⟨state, hstate, rfl⟩ := Option.map_eq_some_iff.mp hactive
  exact (h.counts state hstate).2.passed j hj

omit [Urls] in
/-- A result is counted for the active endpoint and for no other. -/
theorem failures?_record {transport : ReqwestTransport} {success : Bool} {j k : ℕ}
    (hactive : activeIndex? a transport = some j) (hk : k ≠ j) :
    failures? a (transport.recordTransportResult a success) k = failures? a transport k := by
  obtain ⟨state, hstate, rfl⟩ := Option.map_eq_some_iff.mp hactive
  rw [failures?, failures?, proxyChains_record, hstate]
  cases success with
  | true => exact (ProxyChain.failures?_recordSuccess k).trans (if_neg hk)
  | false => exact (ProxyChain.failures?_recordFailure k).trans (if_neg hk)

/-- **Failover is attributed to the endpoint used**, when every result is
of a send through the endpoint that is active when it is recorded. Any
number of sends share a transport that has no chain of the account yet,
and the account's list is fixed and not empty. At every step: an endpoint
that is given up has just had three failures in a row among the sends
through it, and so has every endpoint before the active one; and a result
of a send through one endpoint changes the count of no other. -/
theorem failover_attributed (transport : ReqwestTransport) (outside : ω) (world : World ω)
    (a : String) (sources : List String) (requests : ι → UpstreamRequest) (schedule : List ι)
    (hne : sources ≠ [])
    (hlist : ∀ i, (requests i).accountId = a → (requests i).egressProxies = sources)
    (hnone : transport.proxyChains[a]? = none)
    (hattributed : Run.Along (Watched.turn world a) (Watched.Attributed a)
      (Watched.opening transport outside requests) schedule) :
    ∀ before i, before ++ [i] <+: schedule →
      let watched := Run.final (Watched.turn world a)
        (Watched.opening transport outside requests) before
      let watched' := watched.turn world a i
      (∀ j, activeIndex? a watched.pool.shared.transport = some j →
        activeIndex? a watched'.pool.shared.transport = some (j + 1) →
        (watched'.outcomes j).take 3 = [false, false, false]) ∧
      (∀ k, activeIndex? a watched'.pool.shared.transport = some k →
        ∀ j < k, 3 ≤ streak (watched'.outcomes j)) ∧
      ∀ success j, (watched.next? i).bind (Op.records a) = some success →
        watched.selected i = some j → ∀ k, k ≠ j →
          failures? a watched'.pool.shared.transport k =
            failures? a watched.pool.shared.transport k := by
  intro before i hprefix watched watched'
  have hstep : watched.Attributed a i := Run.along_iff.mp hattributed before i hprefix
  have hbefore : Fair a sources watched :=
    Run.final_induct (fun _ _ h hattr => h.turn hne hattr) (fair_opening outside hlist hnone)
      (hattributed.of_prefix ((List.prefix_append before [i]).trans hprefix))
  have hafter : Fair a sources watched' := hbefore.turn hne hstep
  refine ⟨?_, ?_, ?_⟩
  · intro j _ hmoved
    exact take_three_of_streak (hafter.passed hmoved (Nat.lt_succ_self j))
  · intro k hactive j hj
    exact hafter.passed hactive hj
  · intro success j hrecords hselected k hk
    obtain ⟨o, hnext, hrecord⟩ := Option.bind_eq_some_iff.mp hrecords
    obtain ⟨rest, hproc⟩ := Prog.next?_eq_some_iff.mp hnext
    have hactive : activeIndex? a watched.pool.shared.transport = some j := by
      rw [← hstep o hnext (by rw [hrecord]; rfl), hselected]
    have htransport : watched'.pool.shared = (world.exec watched.pool.shared o).1 :=
      transport_turn hproc
    rw [htransport]
    cases o with
    | recordTransportResult accountId success' =>
        obtain rfl : accountId = a := by
          by_contra hid
          simp [Op.records, hid] at hrecord
        exact failures?_record hactive hk
    | selectedProxy | resolveAuthorized | client | headers | dispatch => cases hrecord

end Run

section Example

/-- Every client is built, every header accepted, and every dispatch
answered as it is said for the request's method. -/
def World.scripted : World Unit where
  lookupHost _ _ _ := none
  answer _
    | .selectedProxy .. => ((), .error .failed)
    | .resolveAuthorized _ => ((), .error .resolutionFailed)
    | .client _ => ((), Building.built)
    | .headers _ => ((), true)
    | .dispatch _ request =>
        ((), if request.method = "GET" then .ok ⟨200, [], []⟩ else .error .failed)
    | .recordTransportResult .. => ((), ())

/-- The endpoints of an account. -/
def threeProxies : List String :=
  ["http://first.io:3128", "http://second.io:3128", "socks5h://third.io:1080"]

/-- A request of an account with three endpoints. -/
def throughThree (method : String) : UpstreamRequest :=
  ⟨"a", method, ⟨"https", "", none, some "example.com", none, "/", none, none⟩, [],
    threeProxies, ∅⟩

/-- A transport that has sent nothing. -/
def unused : ReqwestTransport := .new ⟨["example.com"], false⟩

/-- Three sends that fail one after the other give the first endpoint
up. -/
theorem failover_after_three :
    letI := Urls.plain
    let watched := Run.final (Watched.turn World.scripted "a")
      (Watched.opening unused () fun _ : Fin 3 => throughThree "POST")
      (List.replicate 5 0 ++ List.replicate 5 1 ++ List.replicate 4 2)
    activeIndex? "a" watched.pool.shared.transport = some 0 ∧
      activeIndex? "a" (watched.turn World.scripted "a" 2).pool.shared.transport = some 1 ∧
      ((watched.turn World.scripted "a" 2).outcomes 0).take 3 = [false, false, false] := by
  let := Urls.plain
  refine ⟨by decide +kernel, by decide +kernel, ?_⟩
  exact (failover_attributed unused () World.scripted "a" threeProxies
    (fun _ : Fin 3 => throughThree "POST")
    (List.replicate 5 0 ++ List.replicate 5 1 ++ List.replicate 4 2 ++ [2]) (by decide)
    (fun _ _ => rfl) (by decide) (by decide +kernel) _ 2 (List.prefix_refl _)).1 0
    (by decide +kernel) (by decide +kernel)

/-- **An endpoint given up without use.** Six sends select the first
endpoint, and all of them fail. The first three failures make the second
endpoint active, and the others make the third one active, though nothing
was sent through the second. -/
theorem failover_without_use :
    letI := Urls.plain
    let watched := Run.final (Watched.turn World.scripted "a")
      (Watched.opening unused () fun _ : Fin 6 => throughThree "POST")
      (List.replicate 5 [0, 1, 2, 3, 4, 5]).flatten
    activeIndex? "a" watched.pool.shared.transport = some 2 ∧ watched.outcomes 1 = [] := by
  decide +kernel

end Example

end Transport

end DataPlane

end Llmap
