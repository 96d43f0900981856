import Mathlib.Data.Prod.Lex
import Mathlib.Data.String.Basic
import Llmap.Routing.Binding
import Llmap.Routing.Standing
/-!
# Selection

What `choose` is for. The accounts that are eligible are ordered by their
requests in flight, their utilisation and their id (`rank`), and no two of
them are equal. A request is given the account its session sticks to, if
that is eligible, and else the least of them, in whatever order the accounts
are gone through (`chooseIn`). The choice is written down as the session's
binding, and nothing else is changed.
-/

namespace Llmap

namespace Routing

variable {router : Router} {values : List RouteAccount} {request : RouteRequest} {now : DateTime}

/-! ## The order of accounts -/

/-- What accounts are compared by. -/
def rank (account : RouteAccount) : ℕ ×ₗ ℕ ×ₗ String :=
  toLex (account.inFlight.toNat, toLex (account.utilizationBasisPoints.toNat, account.id))

/-- The source's comparison is that of the ranks. -/
theorem lighter_eq_lt_iff {left right : RouteAccount} :
    lighter left right = .lt ↔ rank left < rank right := by
  have hid : compare left.id right.id = .lt ↔ left.id < right.id := compare_lt_iff_lt
  simp only [lighter, rank, Ordering.then_eq_lt, Std.compare_eq_lt,
    Std.LawfulEqCmp.compare_eq_iff_eq, Prod.Lex.toLex_lt_toLex, UInt32.lt_iff_toNat_lt,
    UInt16.lt_iff_toNat_lt, UInt32.toNat_inj, UInt16.toNat_inj, hid]

/-- Nothing is chosen only from nothing. -/
theorem leastLoaded_eq_none {values : List RouteAccount} (h : leastLoaded values = none) :
    values = [] := by
  induction values using List.reverseRecOn with
  | nil => rfl
  | append_singleton values last _ =>
      simp only [leastLoaded, List.foldl_append, List.foldl_cons, List.foldl_nil] at h
      split at h
      · cases h
      · split at h <;> cases h

/-- One more account takes the place of the least loaded if it is lighter. -/
theorem leastLoaded_concat {before : RouteAccount} (h : leastLoaded values = some before)
    (last : RouteAccount) : leastLoaded (values ++ [last]) =
      if lighter last before = .lt then some last else some before := by
  rw [leastLoaded] at h
  rw [leastLoaded, List.foldl_append, h]
  rfl

/-- **None ranks below** the least loaded account. -/
theorem leastLoaded_le_rank {best : RouteAccount} (h : leastLoaded values = some best) :
    ∀ account ∈ values, rank best ≤ rank account := by
  induction values using List.reverseRecOn generalizing best with
  | nil => simp
  | append_singleton values last ih =>
      cases hbefore : leastLoaded values with
      | none =>
          obtain rfl := leastLoaded_eq_none hbefore
          obtain rfl : last = best := Option.some.inj h
          simp
      | some before =>
          rw [leastLoaded_concat hbefore] at h
          have hle := ih hbefore
          by_cases hlighter : lighter last before = .lt
          · rw [if_pos hlighter] at h
            obtain rfl := Option.some.inj h
            have hlt := lighter_eq_lt_iff.mp hlighter
            intro account haccount
            rcases List.mem_append.mp haccount with haccount | haccount
            · exact (hlt.trans_le (hle account haccount)).le
            · rw [List.mem_singleton.mp haccount]
          · rw [if_neg hlighter] at h
            obtain rfl := Option.some.inj h
            rw [lighter_eq_lt_iff, not_lt] at hlighter
            intro account haccount
            rcases List.mem_append.mp haccount with haccount | haccount
            · exact hle account haccount
            · rw [List.mem_singleton.mp haccount]
              exact hlighter

/-! ## Iteration orders -/

/-- The second branch of `choose`, where the accounts are gone through in
some order. -/
def Router.chooseFreshIn (router : Router) (values : List RouteAccount) (request : RouteRequest)
    (now : DateTime) : Router × Except RouteError RouteSelection :=
  match leastLoaded (values.filter fun account => eligible account request.model now) with
  | none => (router, .error .noEligibleAccount)
  | some account =>
      ({ router with
         sessions := match request.sessionId with
           | some sessionId => router.sessions.insert sessionId ⟨account.id, now⟩
           | none => router.sessions },
       .ok ⟨account.id, account.provider, false⟩)

/-- `Router::choose`, where `accounts.values()` has some order. -/
def Router.chooseIn (router : Router) (values : List RouteAccount) (request : RouteRequest)
    (now : DateTime) : Router × Except RouteError RouteSelection :=
  match request.sessionId with
  | none => router.chooseFreshIn values request now
  | some sessionId =>
      match router.stickyAccount sessionId request.model now with
      | some account =>
          ({ router with
             sessions := router.sessions.modify sessionId fun binding =>
               { binding with lastSeenAt := now } },
           .ok ⟨account.id, account.provider, true⟩)
      | none =>
          Router.chooseFreshIn { router with sessions := router.sessions.erase sessionId } values
            request now

/-- The accounts of a router in some order. -/
def Router.IsOrder (router : Router) (values : List RouteAccount) : Prop :=
  values.Perm (router.accounts.toList.map Prod.snd)

/-- Every account is stored under its own id. -/
def Router.Stored (router : Router) : Prop :=
  ∀ (id : String) (account : RouteAccount), router.accounts[id]? = some account → account.id = id

theorem stored_run (accounts : List RouteAccount) (ops : List Op) :
    (run (Router.new accounts) ops).Stored := (sound_run accounts ops).stored

theorem Router.IsOrder.mem_iff (horder : router.IsOrder values) (hstored : router.Stored)
    {account : RouteAccount} :
    account ∈ values ↔ router.accounts[account.id]? = some account := by
  rw [List.Perm.mem_iff horder]
  simp only [List.mem_map, Prod.exists, exists_eq_right,
    Std.ExtTreeMap.mem_toList_iff_getElem?_eq_some]
  constructor
  · rintro ⟨id, haccount⟩
    rw [hstored id account haccount]
    exact haccount
  · intro haccount
    exact ⟨account.id, haccount⟩

/-- An account that is there and eligible. -/
def Router.Offers (router : Router) (model : String) (now : DateTime) (account : RouteAccount) :
    Prop :=
  router.accounts[account.id]? = some account ∧ eligible account model now = true

/-- **The lightest of the accounts that are offered.** -/
structure Router.Lightest (router : Router) (model : String) (now : DateTime)
    (account : RouteAccount) : Prop where
  offered : router.Offers model now account
  least : ∀ other, router.Offers model now other → rank account ≤ rank other

/-- There is no other: ranks tell ids apart. -/
theorem Router.Lightest.unique {model : String} {account other : RouteAccount}
    (h : router.Lightest model now account) (h' : router.Lightest model now other) :
    account = other := by
  have hrank : rank account = rank other :=
    le_antisymm (h.least other h'.offered) (h'.least account h.offered)
  have hid : account.id = other.id := by
    simp only [rank, EmbeddingLike.apply_eq_iff_eq, Prod.mk.injEq] at hrank
    exact hrank.2.2
  have hpresent := h.offered.1
  rw [hid, h'.offered.1] at hpresent
  exact (Option.some.inj hpresent).symm

/-- **Any order gives the lightest account.** -/
theorem leastLoaded_eq_some_iff (horder : router.IsOrder values) (hstored : router.Stored)
    {model : String} {account : RouteAccount} :
    leastLoaded (values.filter fun account => eligible account model now) = some account ↔
      router.Lightest model now account := by
  have hmem : ∀ account, account ∈ values.filter (fun account => eligible account model now) ↔
      router.Offers model now account := by
    intro account
    rw [List.mem_filter, horder.mem_iff hstored]
    rfl
  have hlightest : ∀ {account}, leastLoaded
      (values.filter fun account => eligible account model now) = some account →
        router.Lightest model now account := by
    intro account h
    exact ⟨(hmem account).mp (leastLoaded_mem h),
      fun other hother => leastLoaded_le_rank h other ((hmem other).mpr hother)⟩
  refine ⟨hlightest, fun h => ?_⟩
  cases hleast : leastLoaded (values.filter fun account => eligible account model now) with
  | none =>
      have hnone := (hmem account).mpr h.offered
      rw [leastLoaded_eq_none hleast] at hnone
      cases hnone
  | some found => rw [(hlightest hleast).unique h]

theorem leastLoaded_eq_none_iff (horder : router.IsOrder values) (hstored : router.Stored)
    {model : String} :
    leastLoaded (values.filter fun account => eligible account model now) = none ↔
      ∀ account, ¬ router.Offers model now account := by
  constructor
  · intro hnone account hoffered
    have hmem : account ∈ values.filter (fun account => eligible account model now) :=
      List.mem_filter.mpr ⟨(horder.mem_iff hstored).mpr hoffered.1, hoffered.2⟩
    rw [leastLoaded_eq_none hnone] at hmem
    cases hmem
  · intro hnone
    by_contra hsome
    obtain ⟨account, haccount⟩ := Option.ne_none_iff_exists'.mp hsome
    exact hnone account ((leastLoaded_eq_some_iff horder hstored).mp haccount).offered

/-- No choice depends on the order. -/
theorem chooseIn_eq (horder : router.IsOrder values) (hstored : router.Stored)
    (request : RouteRequest) (now : DateTime) :
    router.chooseIn values request now = router.choose request now := by
  have hsame : leastLoaded (values.filter fun account => eligible account request.model now) =
      router.freshAccount request.model now := by
    refine Option.ext fun account => ?_
    rw [leastLoaded_eq_some_iff horder hstored]
    exact (leastLoaded_eq_some_iff (List.Perm.refl _) hstored).symm
  have hfresh : ∀ sessions, Router.chooseFreshIn { router with sessions := sessions } values
      request now = Router.chooseFresh { router with sessions := sessions } request now := by
    intro sessions
    unfold Router.chooseFreshIn Router.chooseFresh
    rw [hsame]
    rfl
  cases hsession : request.sessionId with
  | none =>
      simp only [Router.chooseIn, Router.choose, hsession]
      exact hfresh router.sessions
  | some session =>
      simp only [Router.chooseIn, Router.choose, hsession]
      cases router.stickyAccount session request.model now with
      | some account => rfl
      | none => exact hfresh _

/-! ## What is chosen -/

/-- **The account a request sticks to**: its session has a binding that is
not out of date, to an account that is there and eligible. -/
def Router.SticksTo (router : Router) (request : RouteRequest) (now : DateTime)
    (account : RouteAccount) : Prop :=
  ∃ session binding, request.sessionId = some session ∧
    router.sessions[session]? = some binding ∧ now ≤ binding.lastSeenAt + sessionIdleTimeout ∧
      router.accounts[binding.accountId]? = some account ∧
        eligible account request.model now = true

theorem stickyAccount_eq_some_iff {session model : String} {account : RouteAccount} :
    router.stickyAccount session model now = some account ↔
      router.SticksTo ⟨some session, model⟩ now account := by
  simp only [Router.stickyAccount, Router.SticksTo, Option.filter_eq_some_iff,
    Option.bind_eq_some_iff, decide_eq_true_eq, Option.some.injEq]
  constructor
  · rintro ⟨⟨binding, ⟨hbinding, hlive⟩, haccount⟩, heligible⟩
    exact ⟨session, binding, rfl, hbinding, hlive, haccount, heligible⟩
  · rintro ⟨session', binding, hsession, hbinding, hlive, haccount, heligible⟩
    obtain rfl := hsession
    exact ⟨⟨binding, ⟨hbinding, hlive⟩, haccount⟩, heligible⟩

/-- A request that sticks to an account is given it. -/
theorem choose_of_sticksTo {account : RouteAccount} (h : router.SticksTo request now account) :
    (router.choose request now).2 = .ok ⟨account.id, account.provider, true⟩ := by
  obtain ⟨sessionId, model⟩ := request
  obtain ⟨session, -, rfl, -⟩ := id h
  simp only [Router.choose, stickyAccount_eq_some_iff.mpr h]

/-- A request that sticks to none is given the lightest account. -/
theorem choose_of_not_sticksTo (h : ∀ account, ¬ router.SticksTo request now account) :
    (router.choose request now).2 = (router.freshAccount request.model now).elim
      (.error .noEligibleAccount) fun account => .ok ⟨account.id, account.provider, false⟩ := by
  have hfresh : ∀ sessions, (Router.chooseFresh { router with sessions := sessions }
      request now).2 = (router.freshAccount request.model now).elim
        (.error .noEligibleAccount) fun account => .ok ⟨account.id, account.provider, false⟩ := by
    intro sessions
    unfold Router.chooseFresh
    rw [show Router.freshAccount { router with sessions := sessions } request.model now =
      router.freshAccount request.model now from rfl]
    cases router.freshAccount request.model now with
    | none => rfl
    | some account => rfl
  obtain ⟨sessionId, model⟩ := request
  cases sessionId with
  | none => exact hfresh router.sessions
  | some session =>
      have hnone : router.stickyAccount session model now = none := by
        by_contra hsome
        obtain ⟨account, haccount⟩ := Option.ne_none_iff_exists'.mp hsome
        exact h account (stickyAccount_eq_some_iff.mp haccount)
      simp only [Router.choose, hnone]
      exact hfresh _

theorem freshAccount_eq_some_iff (hstored : router.Stored) {model : String}
    {account : RouteAccount} :
    router.freshAccount model now = some account ↔ router.Lightest model now account :=
  leastLoaded_eq_some_iff (List.Perm.refl _) hstored

theorem freshAccount_eq_none_iff (hstored : router.Stored) {model : String} :
    router.freshAccount model now = none ↔ ∀ account, ¬ router.Offers model now account :=
  leastLoaded_eq_none_iff (List.Perm.refl _) hstored

/-- **What a selection is to do.** -/
structure Router.Selects (router : Router) (request : RouteRequest) (now : DateTime)
    (after : Router) (answer : Except RouteError RouteSelection) : Prop where
  /-- It fails exactly if no account is eligible. -/
  fails_iff : answer = .error .noEligibleAccount ↔
    ∀ account, ¬ router.Offers request.model now account
  /-- A request that sticks to an account is given it. -/
  reuses : ∀ account, router.SticksTo request now account →
    answer = .ok ⟨account.id, account.provider, true⟩
  /-- Any other is given the one account that is lightest. -/
  lightest : (∀ account, ¬ router.SticksTo request now account) →
    (∃ account, router.Offers request.model now account) →
      ∃ account, router.Lightest request.model now account ∧
        (∀ other, router.Lightest request.model now other → other = account) ∧
          answer = .ok ⟨account.id, account.provider, false⟩
  /-- The session is bound to the account. -/
  binds : ∀ selection, answer = .ok selection → ∀ session, request.sessionId = some session →
    after.sessions[session]? = some ⟨selection.accountId, now⟩
  accounts : after.accounts = router.accounts
  others : ∀ session, request.sessionId ≠ some session →
    after.sessions[session]? = router.sessions[session]?

theorem selects_choose (hstored : router.Stored) (request : RouteRequest) (now : DateTime) :
    router.Selects request now (router.choose request now).1 (router.choose request now).2 where
  fails_iff := by
    by_cases hsticks : ∃ account, router.SticksTo request now account
    · obtain ⟨account, hsticks⟩ := hsticks
      rw [choose_of_sticksTo hsticks]
      obtain ⟨session, binding, -, -, -, hpresent, heligible⟩ := hsticks
      have hoffered : router.Offers request.model now account := by
        refine ⟨?_, heligible⟩
        rw [hstored _ account hpresent]
        exact hpresent
      exact ⟨fun h => (nomatch h), fun h => absurd hoffered (h account)⟩
    · rw [choose_of_not_sticksTo (not_exists.mp hsticks), ← freshAccount_eq_none_iff hstored]
      cases router.freshAccount request.model now with
      | none => simp
      | some account => simp
  reuses account h := choose_of_sticksTo h
  lightest hsticks hoffers := by
    rw [choose_of_not_sticksTo hsticks]
    cases hfresh : router.freshAccount request.model now with
    | none =>
        obtain ⟨account, hoffered⟩ := hoffers
        exact absurd hoffered ((freshAccount_eq_none_iff hstored).mp hfresh account)
    | some account =>
        have hlightest := (freshAccount_eq_some_iff hstored).mp hfresh
        exact ⟨account, hlightest, fun other hother => hother.unique hlightest, rfl⟩
  binds selection h session hsession := by
    obtain ⟨sessionId, model⟩ := request
    obtain rfl : sessionId = some session := hsession
    exact choose_binds hstored h
  accounts := choose_accounts router request now
  others session h := choose_sessions_of_ne h now

/-- **Selection.** In a router in which every account is stored under its
own id, which is every router there is, and whatever the order its accounts
are gone through in, a choice is what a selection is to be. -/
theorem selection_spec :
    (∀ accounts ops, (run (Router.new accounts) ops).Stored) ∧
      ∀ (router : Router) (values : List RouteAccount) (request : RouteRequest) (now : DateTime),
        router.Stored → router.IsOrder values → router.Selects request now
          (router.chooseIn values request now).1 (router.chooseIn values request now).2 := by
  refine ⟨stored_run, fun router values request now hstored horder => ?_⟩
  rw [chooseIn_eq horder hstored]
  exact selects_choose hstored request now

/-- Two accounts that are equally loaded, the second first. -/
theorem selection_spec_reversed :
    let router := Router.new [listedAccount "a" true, listedAccount "b" true]
    let values := [listedAccount "b" true, listedAccount "a" true]
    router.IsOrder values ∧
      router.Selects ⟨some "s", ""⟩ 0 (router.chooseIn values ⟨some "s", ""⟩ 0).1
        (router.chooseIn values ⟨some "s", ""⟩ 0).2 ∧
      (router.chooseIn values ⟨some "s", ""⟩ 0).2 = .ok ⟨"a", "anthropic", false⟩ := by
  intro router values
  have hstored : router.Stored := stored_run _ []
  have horder : router.IsOrder values := by
    rw [Router.IsOrder, show router.accounts.toList.map Prod.snd =
      [listedAccount "a" true, listedAccount "b" true] by decide +kernel]
    exact List.Perm.swap ..
  exact ⟨horder, selection_spec.2 router values _ 0 hstored horder, by decide +kernel⟩

end Routing

end Llmap
