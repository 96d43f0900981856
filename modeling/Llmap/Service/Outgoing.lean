import Llmap.DataPlane.Delivery
import Llmap.DataPlane.Invocation
import Llmap.Service.Control
/-!
# What leaves the process

Any number of tasks run beside each other, accounts are written between any
two steps of a request, and chains of proxies are shared. A request that goes
out of the process is nevertheless its own task's alone: an account and its
credential were read from one row, at one moment of that task; the request is
what the two make of the client's, to the account's own origin; the policy
authorized where it goes; and the client that it goes out by is set up with a
proxy of that account's list, if the list has one, and never without
(`dispatches_confined`).
-/

namespace Llmap

open Auth Providers Secrets Egress Routing Storage

/-! ## What a call has done when it sends -/

namespace DataPlane

variable [Codecs] [Serde] [Urls] [Digests] [Chrono]

/-- **What a request is sent on.** The client was authorized by a snapshot,
and an account was loaded, whose request it is. -/
def Grounded (plane : Plane) (request : ProxyRequest) (past : Trace) (upstream : UpstreamRequest) :
    Prop :=
  ∃ token now snapshot decision ask accountId account credential,
    presentedToken request.headers = .ok token ∧ ⟨.now, now⟩ ∈ past ∧
    ⟨.credentialSnapshot now, .ok snapshot⟩ ∈ past ∧
    plane.authenticator.authorize plane.authMode token snapshot now = .ok decision ∧
    asked request = .ok ask ∧
    ⟨.loadAccount accountId, .ok (account, credential)⟩ ∈ past ∧
    upstreamRequest request ask now account credential = .ok upstream

/-- A call that sends has grounds to. -/
def Sending (plane : Plane) (request : ProxyRequest) (past : Trace) (o : Op) : Prop :=
  ∀ upstream, o = .send upstream → Grounded plane request past upstream

variable {plane : Plane} {request : ProxyRequest} {past : Trace}

theorem Grounded.append {upstream : UpstreamRequest} (h : Grounded plane request past upstream)
    (later : Trace) : Grounded plane request (past ++ later) upstream := by
  obtain ⟨token, now, snapshot, decision, ask, accountId, account, credential, htoken, hnow,
    hsnapshot, hdecision, hask, hload, hupstream⟩ := h
  exact ⟨token, now, snapshot, decision, ask, accountId, account, credential, htoken,
    List.mem_append_left _ hnow, List.mem_append_left _ hsnapshot, hdecision, hask,
    List.mem_append_left _ hload, hupstream⟩

theorem deliver_byPast {ask : Asked} {now : DateTime} {provider : String}
    {account : ProviderAccount} {upstream : UpstreamRequest}
    (h : Grounded plane request past upstream) :
    (deliver ask now provider account upstream).ByPast (Sending plane request) (fun _ _ => True)
      past := by
  refine ⟨nofun, ?_⟩
  rintro (error | _)
  · exact trivial
  · refine ⟨?_, ?_⟩
    · rintro _ ⟨⟩
      exact h.append _
    · rintro (error | response)
      · exact ⟨nofun, fun _ => ⟨nofun, fun _ => trivial⟩⟩
      · refine ⟨nofun, ?_⟩
        rintro (error | _)
        · exact trivial
        · exact ⟨nofun, fun _ => trivial⟩

theorem forward_byPast {token : Option String} {now : DateTime} {snapshot : CredentialSnapshot}
    {decision : AuthDecision} (htoken : presentedToken request.headers = .ok token)
    (hnow : ⟨.now, now⟩ ∈ past)
    (hsnapshot : ⟨.credentialSnapshot now, .ok snapshot⟩ ∈ past)
    (hdecision : plane.authenticator.authorize plane.authMode token snapshot now = .ok decision) :
    (forward request now).ByPast (Sending plane request) (fun _ _ => True) past := by
  unfold forward
  split
  · exact trivial
  · rename_i ask hask
    refine ⟨nofun, ?_⟩
    rintro (error | selection)
    · exact trivial
    · refine ⟨nofun, ?_⟩
      rintro ((_ | _ | _) | ⟨account, credential⟩)
      · exact trivial
      · exact trivial
      · exact trivial
      · dsimp only
        split
        · exact trivial
        · rename_i upstream hupstream
          refine deliver_byPast ⟨token, now, snapshot, decision, ask, selection.accountId, account,
            credential, htoken, ?_, ?_, hdecision, hask, ?_, hupstream⟩
          · exact List.mem_append_left _ (List.mem_append_left _ hnow)
          · exact List.mem_append_left _ (List.mem_append_left _ hsnapshot)
          · exact List.mem_append_right _ (List.mem_singleton_self _)

/-- **A call sends nothing without grounds.** -/
theorem handle_byPast (plane : Plane) (request : ProxyRequest) :
    (handle plane request).ByPast (Sending plane request) (fun _ _ => True) [] := by
  refine ⟨nofun, fun _ => ?_⟩
  dsimp only
  split
  · exact trivial
  · split
    · exact trivial
    · rename_i token htoken
      refine ⟨nofun, fun now => ⟨nofun, ?_⟩⟩
      rintro (error | snapshot)
      · exact trivial
      · unfold authorized
        dsimp only
        split
        · exact ⟨nofun, fun _ => ⟨nofun, fun _ => ⟨nofun, fun _ => trivial⟩⟩⟩
        · rename_i decision hdecision
          have hforward : ∀ later : Trace,
              (forward request now >>= audited plane now decision).ByPast (Sending plane request)
                (fun _ _ => True)
              (([] ++ [⟨.count .requestsTotal, ()⟩] ++ [⟨.now, now⟩] ++
                [⟨.credentialSnapshot now, .ok snapshot⟩]) ++ later) := by
            intro later
            refine (forward_byPast htoken (List.mem_append_left _ ?_) (List.mem_append_left _ ?_)
              hdecision).bind fun _ answer _ => ?_
            · simp
            · simp
            · unfold audited
              split
              · exact trivial
              · exact ⟨nofun, fun _ => ⟨nofun, fun _ => trivial⟩⟩
          unfold admitted
          dsimp only
          split
          · exact ⟨nofun, fun _ => hforward [_]⟩
          · exact hforward []

end DataPlane

namespace Service

open DataPlane (ProxyRequest UpstreamRequest ReqwestTransport AccountProxyChain Grounded
  handle_byPast)
open DataPlane.Transport (Client Building destinationRequiresLocalResolution)

section Steps

variable [Serde]

/-! ## The way out -/

/-- What a client was set up with, for a request: an endpoint that was selected
for its account, and addresses that its host was resolved to, or none where the
policy authorized it and the proxy is to resolve it. -/
def SetUp (setup : Setup) (request : UpstreamRequest) (client : Client) (past : Past) : Prop :=
  ∃ proxy : Option ProxyEndpoint,
    ⟨.transport (.selectedProxy request.accountId request.egressProxies), .ok proxy⟩ ∈ past ∧
    client.proxy = proxy.map (·.url) ∧
    ((proxy.all destinationRequiresLocalResolution = true ∧ ∃ host addresses,
        request.url.host = some host ∧ client.resolved = some (host, addresses) ∧
        ⟨.transport (.resolveAuthorized request.url), .ok addresses⟩ ∈ past) ∨
      proxy.all destinationRequiresLocalResolution = false ∧ client.resolved = none ∧
        setup.policy.authorize request.url = .ok ())

theorem SetUp.mono {setup : Setup} {request : UpstreamRequest} {client : Client} {past past' : Past}
    (h : SetUp setup request client past) (hsub : past ⊆ past') :
    SetUp setup request client past' := by
  obtain ⟨proxy, hselected, hproxy, hdestination⟩ := h
  refine ⟨proxy, hsub hselected, hproxy, hdestination.imp_left ?_⟩
  rintro ⟨hlocal, host, addresses, hhost, hresolved, hmem⟩
  exact ⟨hlocal, host, addresses, hhost, hresolved, hsub hmem⟩

/-- **How a request was put on its way**: a client was set up for it, and
built. -/
def Connected (setup : Setup) (request : UpstreamRequest) (client : Client) (past : Past) : Prop :=
  SetUp setup request client past ∧ ⟨.transport (.client client), Building.built⟩ ∈ past

/-- What goes out for a request of the data plane is what it sends, and was
put on its way. -/
def Dispatching (setup : Setup) (o : DataPlane.Op) (past : Past) (step : Op) : Prop :=
  ∀ client upstream, step = .transport (.dispatch client upstream) →
    o = .send upstream ∧ Connected setup upstream client past

theorem Dispatching.of_ne {setup : Setup} {o : DataPlane.Op} {past : Past} {step : Op}
    (h : ∀ client upstream, step ≠ .transport (.dispatch client upstream)) :
    Dispatching setup o past step :=
  fun client upstream heq => absurd heq (h client upstream)

/-- From the client on. -/
theorem connect_byPast {setup : Setup} {request : UpstreamRequest} {client : Client} {past : Past}
    (h : SetUp setup request client past) :
    ((DataPlane.Transport.connect request client).lift Op.transport fun _ r => r).ByPast
      (Dispatching setup (.send request)) (fun _ _ => True) past := by
  refine ⟨.of_ne (by simp), ?_⟩
  rintro (_ | _ | _)
  · refine ⟨.of_ne (by simp), ?_⟩
    rintro (_ | _)
    · exact trivial
    · refine ⟨?_, ?_⟩
      · rintro _ _ ⟨⟩
        dsimp only
        rw [List.append_assoc]
        exact ⟨rfl, h.mono (List.subset_append_left ..),
          List.mem_append_right _ List.mem_cons_self⟩
      · rintro (error | response) <;> exact ⟨.of_ne (by simp), fun _ => trivial⟩
  · exact trivial
  · exact ⟨.of_ne (by simp), fun _ => trivial⟩

theorem send_byPast (setup : Setup) (request : UpstreamRequest) :
    ((DataPlane.Transport.send setup.policy request).lift Op.transport fun _ r => r).ByPast
      (Dispatching setup (.send request)) (fun _ _ => True) [] := by
  unfold DataPlane.Transport.send
  split
  · exact trivial
  · rename_i host hhost
    refine ⟨.of_ne (by simp), ?_⟩
    rintro (error | proxy)
    · exact trivial
    · dsimp only
      split
      · rename_i hlocal
        refine ⟨.of_ne (by simp), ?_⟩
        rintro (error | addresses)
        · exact trivial
        · refine connect_byPast ⟨proxy, List.mem_cons_self, rfl,
            .inl ⟨hlocal, host, addresses, hhost, rfl, ?_⟩⟩
          exact List.mem_append_right _ (List.mem_singleton_self _)
      · rename_i hremote
        split
        · exact trivial
        · rename_i hauthorized
          exact connect_byPast ⟨proxy, List.mem_cons_self, rfl,
            .inr ⟨by simpa using hremote, rfl, hauthorized⟩⟩

variable [Sealing] [Chrono] [Digests]

/-- **Only a send goes out.** -/
theorem answered_dispatching (setup : Setup) (o : DataPlane.Op) :
    (answered setup o).ByPast (Dispatching setup o) (fun _ _ => True) [] := by
  cases o with
  | send request => exact send_byPast setup request
  | count | now | elapsed | credentialSnapshot | choose | loadAccount | startRequest
  | recordOutcome | appendProxyAudit =>
      refine Prog.ByPast.of_obeys (I := fun _ => True) (answered_serves setup _) trivial
        (fun _ _ _ _ => trivial) ?_ fun _ _ _ _ => trivial
      rintro past step - hserves client upstream rfl
      cases hserves

variable [Codecs] [Urls]

/-- **What a task has done when its request goes out**: it has grounds to send
it, each of them by steps of its own, and has put it on its way. -/
def Launched (setup : Setup) (task : Task) (own : Past) (client : Client)
    (upstream : UpstreamRequest) : Prop :=
  ∃ request past complete part, task.passed setup = some request ∧
    Prog.Spelled (answered setup) past complete ∧ own = complete ++ part ∧
    Grounded setup.plane request past upstream ∧ Connected setup upstream client part

/-- **Every task that sends.** -/
theorem task_launched {setup : Setup} {task : Task} {own : Past} {client : Client}
    {upstream : UpstreamRequest} {k : _ → Part (Option Response)}
    (h : (task.prog setup).Reaches own (.call (.transport (.dispatch client upstream)) k)) :
    Launched setup task own client upstream := by
  rcases task_underway h with hcontrols | ⟨request, past, o, k, complete, part, k', hpassed, hpast,
    hspelled, hown, hpart⟩
  · exact hcontrols.elim
  · obtain ⟨rfl, hconnected⟩ := (answered_dispatching setup o).of_call hpart client upstream rfl
    exact ⟨request, past, complete, part, hpassed, hspelled, hown,
      (handle_byPast setup.plane request).of_call hpast upstream rfl, hconnected⟩

end Steps

/-! ## The chains of proxies -/

section Chains

variable [Urls]

/-- **Chains that are their sources'**: the transport has the policy it was set
up with, and the endpoints of each chain are what its sources parse to. -/
structure Wired (policy : DestinationPolicy) (transport : ReqwestTransport) : Prop where
  policy : transport.destinationPolicy = policy
  chains : ∀ (accountId : String) (state : AccountProxyChain),
    transport.proxyChains[accountId]? = some state →
    state.sources.mapM ProxyEndpoint.parse = .ok state.chain.endpoints

variable {policy : DestinationPolicy} {transport : ReqwestTransport}

theorem wired_new (policy : DestinationPolicy) : Wired policy (.new policy) := by
  refine ⟨rfl, fun accountId state h => ?_⟩
  simp [ReqwestTransport.new] at h

theorem built_eq_ok {sources : List String} {state : AccountProxyChain}
    (h : ReqwestTransport.built sources = .ok state) :
    state.sources = sources ∧
      state.sources.mapM ProxyEndpoint.parse = .ok state.chain.endpoints := by
  unfold ReqwestTransport.built at h
  split at h
  · cases h
  · rename_i endpoints hendpoints
    split at h
    · cases h
    · rename_i chain hchain
      obtain rfl := Except.ok.inj h
      refine ⟨rfl, ?_⟩
      unfold ProxyChain.new at hchain
      split at hchain
      · obtain rfl := Except.ok.inj hchain
        exact hendpoints
      · cases hchain

/-- What `selected_proxy` may do. -/
theorem selectedProxy_cases (transport : ReqwestTransport) (accountId : String)
    (sources : List String) :
    (sources = [] ∧ transport.selectedProxy accountId sources =
        ({ transport with proxyChains := transport.proxyChains.erase accountId }, .ok none)) ∨
      sources ≠ [] ∧
        ((∃ state, transport.proxyChains[accountId]? = some state ∧ state.sources = sources ∧
            transport.selectedProxy accountId sources =
              (transport, .ok (some state.chain.active))) ∨
          (∃ error, transport.selectedProxy accountId sources = (transport, .error error)) ∨
          ∃ state, ReqwestTransport.built sources = .ok state ∧
            transport.selectedProxy accountId sources =
              ({ transport with proxyChains := transport.proxyChains.insert accountId state },
                .ok (some state.chain.active))) := by
  by_cases hsources : sources = []
  · exact .inl ⟨hsources, by rw [ReqwestTransport.selectedProxy, if_pos hsources]⟩
  · refine .inr ⟨hsources, ?_⟩
    unfold ReqwestTransport.selectedProxy
    rw [if_neg hsources]
    split
    · rename_i existing hexisting
      obtain ⟨hfound, hsame⟩ := Option.filter_eq_some_iff.mp hexisting
      exact .inl ⟨existing, hfound, of_decide_eq_true hsame, rfl⟩
    · split
      · rename_i error herror
        exact .inr (.inl ⟨error, rfl⟩)
      · rename_i state hstate
        exact .inr (.inr ⟨state, hstate, rfl⟩)

theorem Wired.selectedProxy (h : Wired policy transport) (accountId : String)
    (sources : List String) : Wired policy (transport.selectedProxy accountId sources).1 := by
  rcases selectedProxy_cases transport accountId sources with
    ⟨-, heq⟩ | ⟨-, ⟨_, -, -, heq⟩ | ⟨_, heq⟩ | ⟨state, hstate, heq⟩⟩
  · rw [heq]
    refine ⟨h.policy, fun id state hchain => h.chains id state ?_⟩
    rw [Std.ExtTreeMap.getElem?_erase] at hchain
    split at hchain
    · cases hchain
    · exact hchain
  · rw [heq]
    exact h
  · rw [heq]
    exact h
  · rw [heq]
    refine ⟨h.policy, fun id chained hchain => ?_⟩
    rw [Std.ExtTreeMap.getElem?_insert] at hchain
    split at hchain
    · obtain rfl := Option.some.inj hchain
      exact (built_eq_ok hstate).2
    · exact h.chains id chained hchain

theorem Wired.recordTransportResult (h : Wired policy transport) (accountId : String)
    (success : Bool) : Wired policy (transport.recordTransportResult accountId success) := by
  unfold ReqwestTransport.recordTransportResult
  split
  · exact h
  · rename_i state hstate
    refine ⟨h.policy, fun id chained hchain => ?_⟩
    rw [Std.ExtTreeMap.getElem?_insert] at hchain
    split at hchain
    · obtain rfl := Option.some.inj hchain
      have hendpoints := h.chains _ _ hstate
      cases success <;> exact hendpoints
    · exact h.chains id chained hchain

/-- **What is selected is of the account's list**: nothing of an empty one, and
an endpoint that a source of it parses to otherwise. -/
theorem Wired.of_selected (h : Wired policy transport) {accountId : String} {sources : List String}
    {proxy : Option ProxyEndpoint}
    (hselected : (transport.selectedProxy accountId sources).2 = .ok proxy) :
    (sources = [] → proxy = none) ∧ (sources ≠ [] → ∃ source ∈ sources, ∃ endpoint,
      proxy = some endpoint ∧ ProxyEndpoint.parse source = .ok endpoint) := by
  have hactive : ∀ state : AccountProxyChain, state.sources = sources →
      state.sources.mapM ProxyEndpoint.parse = .ok state.chain.endpoints →
      ∃ source ∈ sources, ProxyEndpoint.parse source = .ok state.chain.active := by
    rintro state rfl hparsed
    have hmem : state.chain.active ∈ state.chain.endpoints := List.get_mem _ _
    obtain ⟨source, hsource, hparse⟩ :=
      exists_of_mem_forall₂ (mapM_eq_ok_iff.mp hparsed) hmem
    exact ⟨source, hsource, hparse⟩
  rcases selectedProxy_cases transport accountId sources with
    ⟨rfl, heq⟩ | ⟨hne, ⟨state, hstate, hsources, heq⟩ | ⟨error, heq⟩ | ⟨state, hstate, heq⟩⟩
  · rw [heq] at hselected
    exact ⟨fun _ => (Except.ok.inj hselected).symm, fun hne => absurd rfl hne⟩
  · rw [heq] at hselected
    obtain ⟨source, hsource, hparse⟩ := hactive state hsources (h.chains _ _ hstate)
    exact ⟨fun hempty => absurd hempty hne,
      fun _ => ⟨source, hsource, _, (Except.ok.inj hselected).symm, hparse⟩⟩
  · rw [heq] at hselected
    cases hselected
  · rw [heq] at hselected
    obtain ⟨hsources, hparsed⟩ := built_eq_ok hstate
    obtain ⟨source, hsource, hparse⟩ := hactive state hsources hparsed
    exact ⟨fun hempty => absurd hempty hne,
      fun _ => ⟨source, hsource, _, (Except.ok.inj hselected).symm, hparse⟩⟩

end Chains

/-! ## Any tasks, however they interleave -/

section Interleaved

variable [Serde] [Sealing] [Urls] [Chrono] [Codecs] [Digests]

omit [Codecs] [Urls] in
/-- An account that was loaded was read from one row. -/
theorem loaded_byPast (setup : Setup) (accountId : String) :
    (answered setup (.loadAccount accountId)).ByPast (fun _ _ => True)
      (fun past result => ∀ loaded, result = .ok loaded → ∃ row,
        ⟨.store (.selectAccount accountId), row⟩ ∈ past ∧
          loadedRow setup.box accountId row = .ok loaded) [] := by
  change (stored (loadAccount setup.box accountId) >>= _).ByPast _ _ _
  unfold loadAccount
  refine ⟨trivial, fun row => ?_⟩
  intro loaded hloaded
  refine ⟨row, List.mem_singleton_self _, ?_⟩
  generalize loadedRow setup.box accountId row = result at hloaded
  cases result with
  | error error => cases hloaded
  | ok opened => exact congrArg Except.ok (Except.ok.inj hloaded)

omit [Codecs] in
theorem wired_run [Argon2] {ι ω : Type} {world : World ω} {setup : Setup} {state : State ω}
    {journal : Log ι} (hserial : Journal.Serial (world.exec setup) state journal)
    (h : Wired setup.policy state.transport) :
    Wired setup.policy (journal.state (world.exec setup) state).transport := by
  refine hserial.final_induct (I := fun _ state => Wired setup.policy state.transport) h ?_
  intro past state i o hwired
  cases o with
  | transport step =>
      cases step with
      | selectedProxy accountId sources => exact hwired.selectedProxy accountId sources
      | recordTransportResult accountId success => exact hwired.recordTransportResult ..
      | resolveAuthorized | client | headers | dispatch => exact hwired
  | store s =>
      change Wired setup.policy (world.store state s).1.transport
      rwa [World.transport_store]
  | recentAudit | sessions | choose | startRequest | recordOutcome | replaceAccounts
  | resetAccountHealth | sessionCount | count | load | now | elapsed => exact hwired

omit [Serde] [Sealing] [Urls] [Chrono] [Codecs] [Digests] in
theorem authorize_of_resolveAuthorized {policy : DestinationPolicy}
    {lookupHost : String → UInt16 → Option (List Net.SocketAddr)} {destination : Url}
    {addresses : List Net.SocketAddr}
    (h : policy.resolveAuthorized lookupHost destination = .ok addresses) :
    policy.authorize destination = .ok () := by
  unfold DestinationPolicy.resolveAuthorized at h
  split at h
  · cases h
  · assumption

omit [Sealing] in
theorem sameOrigin_of_upstreamRequest {request : ProxyRequest} {ask : DataPlane.Asked}
    {now : DateTime} {account : ProviderAccount} {credential : String} {upstream : UpstreamRequest}
    (h : DataPlane.upstreamRequest request ask now account credential = .ok upstream) :
    upstream.accountId = account.id ∧ upstream.egressProxies = account.egressProxies ∧
      Urls.sameOrigin upstream.url account.baseUrl = true := by
  obtain ⟨prepared, body, headers, finished, hprepared, -, -, hfinished, rfl⟩ :=
    DataPlane.upstreamRequest_eq_ok h
  refine ⟨rfl, rfl, ?_⟩
  rw [DataPlane.finalizeRequestAuth_url hfinished]
  exact (prepareRequestForStream_eq_ok_iff.mp hprepared).2.2.2.2.1

variable [Argon2] {ι ω : Type}

/-- **Read by a task**: an account and its credential, from what one row held
when the task read it. -/
def ReadBy (world : World ω) (setup : Setup) (state : State ω) (log : Log ι) (i : ι)
    (accountId : String) (account : ProviderAccount) (credential : String) : Prop :=
  ∃ earlier later : Log ι,
    let row :=
      (Journal.state (world.exec setup) state earlier).database.providerAccounts[accountId]?
    log = earlier ++ (i, ⟨.store (.selectAccount accountId), row⟩) :: later ∧
      loadedRow setup.box accountId row = .ok (account, credential)

omit [Serde] [Sealing] [Chrono] [Codecs] [Digests] [Argon2] in
/-- **Through the account's proxies**: what a client is set up with, to go to a
destination for an account. -/
structure Through (setup : Setup) (account : ProviderAccount) (destination : Url)
    (client : Client) : Prop where
  /-- It has no proxy if the account has none, and then the addresses. -/
  direct : account.egressProxies = [] → client.proxy = none ∧ client.resolved.isSome = true
  /-- Else it has one that a source of the account's list parses to, and the
  addresses if that one is not to resolve the host itself. -/
  proxied : account.egressProxies ≠ [] → ∃ source ∈ account.egressProxies, ∃ endpoint,
    ProxyEndpoint.parse source = .ok endpoint ∧ client.proxy = some endpoint.url ∧
      client.resolved.isSome = destinationRequiresLocalResolution endpoint
  /-- The addresses stand for the host of the destination, and `is_unsafe_ip`
  passes them if the policy is strict. -/
  pinned : ∀ host addresses, client.resolved = some (host, addresses) →
    destination.host = some host ∧ (setup.policy.allowUnsafePrivateNetworks = false →
      ∀ address ∈ addresses, isUnsafeIp address.ip = false)

variable [DecidableEq ι] {world : World ω} {setup : Setup} {state : State ω}

omit [Codecs] in
/-- What a request of a task loaded is read by it. -/
theorem readBy_of_spelled {journal : Log ι} {i : ι} {past : DataPlane.Trace} {complete : Past}
    {accountId : String} {account : ProviderAccount} {credential : String}
    (hserial : Journal.Serial (world.exec setup) state journal)
    (hspelled : Prog.Spelled (answered setup) past complete)
    (hsub : complete ⊆ Journal.own i journal)
    (hload : ⟨.loadAccount accountId, .ok (account, credential)⟩ ∈ past) :
    ReadBy world setup state journal i accountId account credential := by
  obtain ⟨own, hway, hown⟩ := hspelled.of_mem hload
  obtain ⟨row, hrow, hloaded⟩ := (loaded_byPast setup accountId).of_ret hway _ rfl
  obtain ⟨earlier, later, hjournal, -, hanswer⟩ := hserial.of_mem_own (hsub (hown hrow))
  obtain rfl : row = _ := hanswer
  exact ⟨earlier, later, hjournal, hloaded⟩

omit [Codecs] in
/-- A client that was set up for a request goes where the policy authorizes, and
through the account's proxies. -/
theorem through_of_setUp {journal : Log ι} {i : ι} {upstream : UpstreamRequest} {client : Client}
    {account : ProviderAccount} (hegress : upstream.egressProxies = account.egressProxies)
    (hserial : Journal.Serial (world.exec setup) state journal)
    (hwired : Wired setup.policy state.transport)
    (h : SetUp setup upstream client (Journal.own i journal)) :
    setup.policy.authorize upstream.url = .ok () ∧ Through setup account upstream.url client := by
  obtain ⟨proxy, hselected, hproxy, hdestination⟩ := h
  obtain ⟨_, _, -, hearlier, hanswer⟩ := hserial.of_mem_own hselected
  obtain ⟨hdirect, hthrough⟩ := (wired_run hearlier hwired).of_selected hanswer.symm
  rw [hegress] at hdirect hthrough
  -- the client has the addresses if there is no proxy, or one that wants them
  have hlocal : client.resolved.isSome = proxy.all destinationRequiresLocalResolution := by
    rcases hdestination with ⟨hall, host, addresses, -, hsome, -⟩ | ⟨hall, hnone, -⟩
    · rw [hall, hsome]
      rfl
    · rw [hall, hnone]
      rfl
  -- the addresses, if there are any, are what the policy resolved
  have hresolved : ∀ addresses, ⟨.transport (.resolveAuthorized upstream.url), .ok addresses⟩ ∈
      Journal.own i journal → ∃ lookupHost,
        setup.policy.resolveAuthorized lookupHost upstream.url = .ok addresses := by
    intro addresses hmem
    obtain ⟨earlier, _, -, hearlier, hanswer⟩ := hserial.of_mem_own hmem
    refine ⟨world.network.lookupHost (Journal.state (world.exec setup) state earlier).outside, ?_⟩
    rw [← (wired_run hearlier hwired).policy]
    exact hanswer.symm
  refine ⟨?_, fun hnone => ?_, fun hsome => ?_, fun host addresses hpinned => ?_⟩
  · rcases hdestination with ⟨-, _, addresses, -, -, hmem⟩ | ⟨-, -, hauthorized⟩
    · obtain ⟨lookupHost, hlookup⟩ := hresolved addresses hmem
      exact authorize_of_resolveAuthorized hlookup
    · exact hauthorized
  · obtain rfl := hdirect hnone
    exact ⟨hproxy, hlocal⟩
  · obtain ⟨source, hsource, endpoint, rfl, hparse⟩ := hthrough hsome
    exact ⟨source, hsource, endpoint, hparse, hproxy, hlocal⟩
  · rcases hdestination with ⟨-, _, _, hhost, hsome, hmem⟩ | ⟨-, hnone, -⟩
    · rw [hpinned] at hsome
      obtain ⟨rfl, rfl⟩ := Prod.mk.inj (Option.some.inj hsome)
      obtain ⟨lookupHost, hlookup⟩ := hresolved addresses hmem
      exact ⟨hhost, fun hstrict => isUnsafeIp_of_resolveAuthorized hstrict hlookup⟩
    · rw [hpinned] at hnone
      cases hnone

/-- What was done up to a step was done in a row. -/
theorem serial_before {tasks : ι → Task} {schedule : List ι} {before after : Log ι}
    (hlog : log world setup tasks state schedule = before ++ after) :
    Journal.Serial (world.exec setup) state before := by
  have hall := ((opening setup tasks state).journal_serial (world.exec setup) schedule).1
  change Journal.Serial _ _ (log world setup tasks state schedule) at hall
  rw [hlog] at hall
  exact hall.upTo

/-- **What leaves the process is confined.** Whatever tasks there are and
however their steps interleave: a request that goes out was built from what its
client sent, and from an account and a credential that its own task read from
one row; it goes to the origin of that account, which the policy authorizes;
and it goes out by a client that its task built, which goes through a proxy of
that account, if it has any. -/
theorem dispatches_confined (world : World ω) (setup : Setup) (expiredBefore : DateTime)
    (database : Database) (outside : ω) (state : State ω)
    (hstart : started setup expiredBefore database outside = .ok state) (tasks : ι → Task)
    (schedule : List ι) (before after : Log ι) (i : ι) (client : Client)
    (upstream : UpstreamRequest)
    (r : Except DataPlane.TransportError DataPlane.UpstreamResponse)
    (hlog : log world setup tasks state schedule =
      before ++ (i, ⟨.transport (.dispatch client upstream), r⟩) :: after) :
    ∃ request ask now accountId account credential,
      (tasks i).passed setup = some request ∧ DataPlane.asked request = .ok ask ∧
      ReadBy world setup state before i accountId account credential ∧
      DataPlane.upstreamRequest request ask now account credential = .ok upstream ∧
      Urls.sameOrigin upstream.url account.baseUrl = true ∧
      setup.policy.authorize upstream.url = .ok () ∧
      ⟨.transport (.client client), Building.built⟩ ∈ Journal.own i before ∧
      Through setup account upstream.url client := by
  have hwired : Wired setup.policy state.transport := by
    obtain ⟨accounts, -, rfl⟩ := map_eq_ok_iff.mp hstart
    exact wired_new setup.policy
  have hserial := serial_before hlog
  obtain ⟨-, k, hreaches⟩ := Pool.exists_of_journal hlog
  obtain ⟨request, past, complete, part, hpassed, hspelled, hown, hgrounded, hsetUp, hbuilt⟩ :=
    task_launched hreaches
  obtain ⟨token, now, snapshot, decision, ask, accountId, account, credential, -, -, -, -, hask,
    hload, hupstream⟩ := hgrounded
  obtain ⟨-, hegress, horigin⟩ := sameOrigin_of_upstreamRequest hupstream
  have hpart : part ⊆ Journal.own i before := by
    rw [hown]
    exact List.subset_append_right ..
  obtain ⟨hauthorized, hthrough⟩ :=
    through_of_setUp hegress hserial hwired (hsetUp.mono hpart)
  refine ⟨request, ask, now, accountId, account, credential, hpassed, hask, ?_, hupstream, horigin,
    hauthorized, hpart hbuilt, hthrough⟩
  refine readBy_of_spelled hserial hspelled ?_ hload
  rw [hown]
  exact List.subset_append_left ..

end Interleaved

section Models

open scoped Plain
open DataPlane (listModelsUpstream)

/-- What goes out. -/
def dispatched? {ι : Type} : ι × (o : Op) × o.Resp → Option (ι × Client × UpstreamRequest)
  | (i, ⟨.transport (.dispatch client upstream), _⟩) => some (i, client, upstream)
  | _ => none

theorem eq_of_dispatched? {ι : Type} {entry : ι × (o : Op) × o.Resp} {i : ι}
    {client : Client} {upstream : UpstreamRequest}
    (h : dispatched? entry = some (i, client, upstream)) :
    ∃ r, entry = (i, ⟨.transport (.dispatch client upstream), r⟩) := by
  unfold dispatched? at h
  split at h
  · obtain ⟨rfl, hsent⟩ := Prod.mk.inj (Option.some.inj h)
    obtain ⟨rfl, rfl⟩ := Prod.mk.inj hsent
    exact ⟨_, rfl⟩
  · cases h

/-- A client for the one address of the provider. -/
def directClient : Client :=
  ⟨none, listModelsUpstream.url.host.map fun host => (host, [⟨.v4 ⟨93, 184, 216, 34⟩, 443⟩])⟩

/-- The models are asked for with the key of the one account, and the request
goes out. -/
theorem exists_dispatch : ∃ before after r, log World.still Setup.plain
    (fun _ : Unit => askingModels "key") (.fresh oneRow) (List.replicate 11 ()) =
      before ++ ((), ⟨.transport (.dispatch directClient listModelsUpstream), r⟩) :: after := by
  have hsent : (log World.still Setup.plain (fun _ : Unit => askingModels "key") (.fresh oneRow)
      (List.replicate 11 ())).filterMap dispatched? = [((), directClient, listModelsUpstream)] := by
    decide +kernel
  obtain ⟨entry, hmem, hentry⟩ := List.mem_filterMap.mp
    (hsent ▸ List.mem_singleton_self ((), directClient, listModelsUpstream))
  obtain ⟨r, rfl⟩ := eq_of_dispatched? hentry
  obtain ⟨before, after, hlog⟩ := List.append_of_mem hmem
  exact ⟨before, after, r, hlog⟩

/-- It was built from the account's row, and goes out directly. -/
theorem dispatches_confined_models : ∃ before accountId account credential,
    ReadBy World.still Setup.plain (.fresh oneRow) before () accountId account credential ∧
      Urls.sameOrigin listModelsUpstream.url account.baseUrl = true ∧
      Through Setup.plain account listModelsUpstream.url directClient := by
  obtain ⟨before, after, r, hlog⟩ := exists_dispatch
  obtain ⟨request, ask, now, accountId, account, credential, -, -, hread, -, horigin, -, -,
      hthrough⟩ :=
    dispatches_confined World.still Setup.plain (minutes 0) oneRow () (.fresh oneRow) rfl _ _ before
      after () directClient listModelsUpstream r hlog
  exact ⟨before, accountId, account, credential, hread, horigin, hthrough⟩

end Models

end Service

end Llmap
