import Llmap.Routing.Model
/-!
# What a sticky session points at

Every account is stored under its own id, and every binding points at an
account that is present, enabled, healthy and not depleted past the
binding's last use. The two are kept by every operation, in any order and
at any instants, so they hold of every router a run reaches
(`sound_run`). The clause on depletion is what makes the binding's own
instant part of the invariant: clocks need not advance.
-/

namespace Llmap

namespace Routing

variable {router : Router}

/-- **An account a session may stick to** with its last use at `seen`. -/
def Serviceable (account : RouteAccount) (seen : DateTime) : Prop :=
  account.enabled = true ∧ account.healthy = true ∧
    ∀ depletedUntil, account.depletedUntil = some depletedUntil → depletedUntil ≤ seen

/-- **The router's invariant.** -/
structure Router.Sound (router : Router) : Prop where
  /-- Every account is stored under its own id. -/
  stored : ∀ (id : String) (account : RouteAccount),
    router.accounts[id]? = some account → account.id = id
  /-- Every binding points at an account it may stick to. -/
  bound : ∀ (session : String) (binding : SessionBinding),
    router.sessions[session]? = some binding →
    ∃ account : RouteAccount, router.accounts[binding.accountId]? = some account ∧
      Serviceable account binding.lastSeenAt

theorem serviceable_of_eligible {account : RouteAccount} {model : String} {now : DateTime}
    (h : eligible account model now = true) : Serviceable account now := by
  simp only [eligible, Bool.and_eq_true, Option.all_eq_true, decide_eq_true_eq] at h
  exact ⟨h.1.1.1, h.1.1.2, h.1.2⟩

/-! ## The accounts a selection may return -/

theorem leastLoaded_mem {accounts : List RouteAccount} {account : RouteAccount}
    (h : leastLoaded accounts = some account) : account ∈ accounts := by
  induction accounts using List.reverseRecOn generalizing account with
  | nil => simp [leastLoaded] at h
  | append_singleton accounts last ih =>
      simp only [leastLoaded, List.foldl_append, List.foldl_cons, List.foldl_nil] at h ih
      split at h
      · simp [← Option.some.inj h]
      · rename_i best hbest
        split at h
        · simp [← Option.some.inj h]
        · have hmem := ih hbest
          simp [← Option.some.inj h, hmem]

theorem freshAccount_spec {model : String} {now : DateTime} {account : RouteAccount}
    (hstored : ∀ (id : String) (account : RouteAccount),
      router.accounts[id]? = some account → account.id = id)
    (h : router.freshAccount model now = some account) :
    router.accounts[account.id]? = some account ∧ eligible account model now = true := by
  have hmem := leastLoaded_mem h
  simp only [List.mem_filter, List.mem_map, Prod.exists, exists_eq_right] at hmem
  obtain ⟨⟨id, hid⟩, helig⟩ := hmem
  rw [Std.ExtTreeMap.mem_toList_iff_getElem?_eq_some] at hid
  rw [hstored id account hid]
  exact ⟨hid, helig⟩

theorem stickyAccount_spec {session model : String} {now : DateTime} {account : RouteAccount}
    (h : router.stickyAccount session model now = some account) :
    ∃ binding, router.sessions[session]? = some binding ∧
      router.accounts[binding.accountId]? = some account ∧ eligible account model now = true := by
  simp only [Router.stickyAccount, Option.filter_eq_some_iff, Option.bind_eq_some_iff] at h
  obtain ⟨⟨binding, ⟨hbinding, -⟩, haccount⟩, helig⟩ := h
  exact ⟨binding, hbinding, haccount, helig⟩

/-! ## One operation -/

/-- A router whose sessions are some of a sound router's is sound. -/
theorem Router.Sound.of_sessions {sessions : Table String SessionBinding} (h : router.Sound)
    (hsub : ∀ (session : String) (binding : SessionBinding), sessions[session]? = some binding →
      router.sessions[session]? = some binding) :
    Router.Sound { router with sessions := sessions } where
  stored := h.stored
  bound session binding hb := h.bound session binding (hsub session binding hb)

/-- Changing one account keeps the router sound when no binding that
stays points at it, or when what makes it serviceable does not change. -/
theorem Router.Sound.of_insert {id : String} {account updated : RouteAccount}
    {sessions : Table String SessionBinding} (h : router.Sound)
    (haccount : router.accounts[id]? = some account) (hid : updated.id = account.id)
    (hsub : ∀ (session : String) (binding : SessionBinding), sessions[session]? = some binding →
      router.sessions[session]? = some binding)
    (hkeep : ∀ (session : String) (binding : SessionBinding),
      sessions[session]? = some binding → binding.accountId = id →
      Serviceable account binding.lastSeenAt → Serviceable updated binding.lastSeenAt) :
    Router.Sound { accounts := router.accounts.insert id updated, sessions := sessions } where
  stored id' account' h' := by
    simp only [Std.ExtTreeMap.getElem?_insert, Std.LawfulEqCmp.compare_eq_iff_eq] at h'
    split at h'
    · rename_i heq
      rw [← Option.some.inj h', hid, h.stored id account haccount, heq]
    · exact h.stored id' account' h'
  bound session binding hb := by
    obtain ⟨target, htarget, hserv⟩ := h.bound session binding (hsub session binding hb)
    simp only [Std.ExtTreeMap.getElem?_insert, Std.LawfulEqCmp.compare_eq_iff_eq]
    by_cases heq : id = binding.accountId
    · rw [if_pos heq]
      rw [← heq, haccount] at htarget
      have hta : account = target := Option.some.inj htarget
      exact ⟨updated, rfl, hkeep session binding hb heq.symm (hta ▸ hserv)⟩
    · rw [if_neg heq]
      exact ⟨target, htarget, hserv⟩

theorem getElem?_evict {sessions : Table String SessionBinding} {id session : String}
    {binding : SessionBinding} :
    (Router.evict sessions id)[session]? = some binding ↔
      sessions[session]? = some binding ∧ binding.accountId ≠ id := by
  simp [Router.evict, Option.filter_eq_some_iff]

theorem sound_new (accounts : List RouteAccount) : (Router.new accounts).Sound where
  stored id account h := by
    have hmem := Table.mem_of_getElem?_collect h
    simp only [List.mem_map, Prod.mk.injEq] at hmem
    obtain ⟨source, -, hid, rfl⟩ := hmem
    exact hid
  bound session binding h := by simp [Router.new] at h

theorem sound_startRequest (h : router.Sound) (id : String) : (router.startRequest id).1.Sound := by
  unfold Router.startRequest
  split
  · exact h
  · rename_i account haccount
    exact h.of_insert haccount rfl (fun _ _ hb => hb) fun _ _ _ _ hserv => hserv

theorem sound_resetAccountHealth (h : router.Sound) (id : String) :
    (router.resetAccountHealth id).1.Sound := by
  unfold Router.resetAccountHealth
  split
  · exact h
  · rename_i account haccount
    exact h.of_insert haccount rfl (fun _ _ hb => (getElem?_evict.mp hb).1)
      fun _ _ hb heq _ => absurd heq (getElem?_evict.mp hb).2

theorem sound_recordOutcome (h : router.Sound) (id : String) (outcome : UpstreamOutcome) :
    (router.recordOutcome id outcome).1.Sound := by
  unfold Router.recordOutcome
  split
  · exact h
  · rename_i account haccount
    by_cases hs : outcome = .success
    · subst hs
      exact h.of_insert haccount rfl (fun _ _ hb => by simpa using hb) fun _ _ _ _ hserv => hserv
    · -- every other outcome evicts the sessions of the account it marks
      simp only [if_neg hs]
      refine h.of_insert haccount ?_ (fun _ _ hb => (getElem?_evict.mp hb).1)
        fun _ _ hb heq _ => absurd heq (getElem?_evict.mp hb).2
      cases outcome <;> rfl

theorem sound_sessionCount (h : router.Sound) (now : DateTime) :
    (router.sessionCount now).1.Sound := by
  refine h.of_sessions fun session binding hb => ?_
  simp only [Router.liveSessions, Std.ExtTreeMap.getElem?_filter', Option.filter_eq_some_iff] at hb
  exact hb.1

theorem sound_chooseFresh (h : router.Sound) (request : RouteRequest) (now : DateTime) :
    (router.chooseFresh request now).1.Sound := by
  unfold Router.chooseFresh
  split
  · exact h
  · rename_i account hfresh
    obtain ⟨haccount, helig⟩ := freshAccount_spec h.stored hfresh
    refine ⟨h.stored, fun session binding hb => ?_⟩
    cases hs : request.sessionId with
    | none =>
        simp only [hs] at hb
        exact h.bound session binding hb
    | some sessionId =>
        simp only [hs, Std.ExtTreeMap.getElem?_insert, Std.LawfulEqCmp.compare_eq_iff_eq] at hb
        split at hb
        · rw [← Option.some.inj hb]
          exact ⟨account, haccount, serviceable_of_eligible helig⟩
        · exact h.bound session binding hb

theorem sound_choose (h : router.Sound) (request : RouteRequest) (now : DateTime) :
    (router.choose request now).1.Sound := by
  unfold Router.choose
  split
  · exact sound_chooseFresh h request now
  · rename_i sessionId _
    split
    · rename_i account hsticky
      obtain ⟨sticky, hbinding, haccount, helig⟩ := stickyAccount_spec hsticky
      refine ⟨h.stored, fun session binding hb => ?_⟩
      simp only [Std.ExtTreeMap.getElem?_modify, Std.LawfulEqCmp.compare_eq_iff_eq] at hb
      split at hb
      · rw [hbinding] at hb
        rw [← Option.some.inj hb]
        exact ⟨account, haccount, serviceable_of_eligible helig⟩
      · exact h.bound session binding hb
    · refine sound_chooseFresh (h.of_sessions fun session binding hb => ?_) request now
      simp only [Std.ExtTreeMap.getElem?_erase] at hb
      split at hb
      · cases hb
      · exact hb

/-! ## Replacing the accounts -/

@[simp] theorem carryOver_id (accounts : Table String RouteAccount) (account : RouteAccount) :
    (Router.carryOver accounts account).id = account.id := by
  unfold Router.carryOver
  split <;> rfl

@[simp] theorem carryOver_enabled (accounts : Table String RouteAccount) (account : RouteAccount) :
    (Router.carryOver accounts account).enabled = account.enabled := by
  unfold Router.carryOver
  split <;> rfl

/-- An account that replaces one with the same enabled flag takes over
its run-time state. -/
theorem carryOver_of_enabled {accounts : Table String RouteAccount}
    {account previous : RouteAccount} (h : accounts[account.id]? = some previous)
    (hen : previous.enabled = account.enabled) :
    Router.carryOver accounts account =
      { account with
        healthy := previous.healthy
        inFlight := previous.inFlight
        utilizationBasisPoints := previous.utilizationBasisPoints
        depletedUntil := previous.depletedUntil } := by
  simp [Router.carryOver, h, hen, Option.filter]

/-- What a replacement holds was in the list, brought up to date. -/
theorem mem_of_getElem?_replacement {accounts : List RouteAccount} {id : String}
    {account : RouteAccount} (h : (router.replacement accounts)[id]? = some account) :
    ∃ source ∈ accounts, source.id = id ∧ account = Router.carryOver router.accounts source := by
  have hmem := Table.mem_of_getElem?_collect h
  simp only [List.map_map, List.mem_map, Function.comp_apply, Prod.mk.injEq, carryOver_id] at hmem
  obtain ⟨source, hsource, hid, hcarry⟩ := hmem
  exact ⟨source, hsource, hid, hcarry.symm⟩

/-- **A refresh keeps the invariant.** A binding that stays points at an
account enabled in the replacement, and it was enabled before, being
bound: so the flag has not changed and the replacement took over the
health and the depletion the binding was made under. -/
theorem sound_replaceAccounts (h : router.Sound) (accounts : List RouteAccount) :
    (router.replaceAccounts accounts).Sound where
  stored id account ha := by
    obtain ⟨source, -, hid, rfl⟩ := mem_of_getElem?_replacement ha
    simpa using hid
  bound session binding hb := by
    simp only [Router.replaceAccounts, Std.ExtTreeMap.getElem?_filter',
      Option.filter_eq_some_iff, Option.any_eq_true] at hb
    obtain ⟨hbound, account, haccount, henabled⟩ := hb
    obtain ⟨source, -, hid, rfl⟩ := mem_of_getElem?_replacement haccount
    obtain ⟨previous, hprevious, hpen, hserv⟩ := h.bound session binding hbound
    have hsen : source.enabled = true := by simpa using henabled
    rw [← hid] at hprevious
    refine ⟨_, haccount, ?_⟩
    rw [carryOver_of_enabled hprevious (by rw [hpen, hsen])]
    exact ⟨hsen, hserv⟩

/-! ## Every run -/

theorem sound_apply (h : router.Sound) (op : Op) : (op.apply router).Sound := by
  cases op with
  | choose request now => exact sound_choose h request now
  | startRequest id => exact sound_startRequest h id
  | recordOutcome id outcome => exact sound_recordOutcome h id outcome
  | replaceAccounts accounts => exact sound_replaceAccounts h accounts
  | resetAccountHealth id => exact sound_resetAccountHealth h id
  | sessionCount now => exact sound_sessionCount h now

/-- **Every reachable router is sound.** Whatever accounts it starts
from, whatever is done to it and whenever: the accounts are stored under
their ids, and each sticky session points at an account that is present,
enabled, healthy and not depleted past the session's last use. -/
theorem sound_run (accounts : List RouteAccount) (ops : List Op) :
    (run (Router.new accounts) ops).Sound :=
  Run.final_induct_of_step (fun _ op h => sound_apply h op) (sound_new accounts)

end Routing

end Llmap
