import Llmap.Routing.Sticky
/-!
# In-flight conservation

The counter `in_flight` of an account is meant to be the number of
requests started through it and not yet answered. A run is accounted for
beside the router (`Ledger`), so that the two can be compared.

A refresh is the one operation that can part them. An account it lists
takes over the counter of the account it replaces, unless there is none
or the enabled flag differs: then it starts at zero, whatever is still
outstanding. The counters are right throughout a run exactly when no
refresh does that to an account with outstanding requests
(`balanced_iff_keeps`); `inFlight_lost_over_pause` is the smallest run
with one that does.
-/

namespace Llmap

namespace Routing

/-- A router, and per account the requests that were started through it
and whose outcome has not been recorded. -/
structure Ledger where
  router : Router
  outstanding : String → ℕ

namespace Ledger

/-- A ledger opens with nothing outstanding. -/
def opening (accounts : List RouteAccount) : Ledger := ⟨Router.new accounts, fun _ => 0⟩

/-- An operation, accounted for: a start counts when it succeeds, and a
recorded outcome closes one start whatever the router answers. -/
def apply (ledger : Ledger) (op : Op) : Ledger where
  router := op.apply ledger.router
  outstanding := match op with
    | .startRequest id =>
        match (ledger.router.startRequest id).2 with
        | .ok _ => Function.update ledger.outstanding id (ledger.outstanding id + 1)
        | .error _ => ledger.outstanding
    | .recordOutcome id _ => Function.update ledger.outstanding id (ledger.outstanding id - 1)
    | _ => ledger.outstanding

/-- **What the callers keep to.** An outcome is recorded for a request
that is outstanding, fewer than `2 ^ 32` are, and a refresh brings
accounts with nothing in flight, as `route_accounts` lists them. -/
def Disciplined (ledger : Ledger) : Op → Prop
  | .startRequest id => ledger.outstanding id + 1 < 2 ^ 32
  | .recordOutcome id _ => 0 < ledger.outstanding id
  | .replaceAccounts accounts => ∀ account ∈ accounts, account.inFlight = 0
  | _ => True

/-- **A refresh that keeps what is outstanding**: an account it lists
while requests through it are outstanding is one the router has, with the
same enabled flag. Of several entries under one id the last counts. -/
def Keeps (ledger : Ledger) : Op → Prop
  | .replaceAccounts accounts => ∀ (id : String) (listed : RouteAccount),
      (Table.collect (accounts.map fun account => (account.id, account)))[id]? = some listed →
      0 < ledger.outstanding id →
      ∃ present : RouteAccount, ledger.router.accounts[id]? = some present ∧
        present.enabled = listed.enabled
  | _ => True

/-- The counter of every account the router has is what the ledger says. -/
def Balanced (ledger : Ledger) : Prop :=
  ∀ (id : String) (account : RouteAccount), ledger.router.accounts[id]? = some account →
    account.inFlight.toNat = ledger.outstanding id

end Ledger

/-! ## What each operation does to the counters -/

theorem choose_accounts (router : Router) (request : RouteRequest) (now : DateTime) :
    (router.choose request now).1.accounts = router.accounts := by
  have hfresh : ∀ router : Router, (router.chooseFresh request now).1.accounts =
      router.accounts := by
    intro router
    unfold Router.chooseFresh
    split <;> rfl
  unfold Router.choose
  split
  · exact hfresh router
  · split
    · rfl
    · exact hfresh _

theorem replacement_getElem? (router : Router) (accounts : List RouteAccount) (id : String) :
    (router.replacement accounts)[id]? =
      (Table.collect (accounts.map fun account => (account.id, account)))[id]?.map
        (Router.carryOver router.accounts) := by
  rw [Router.replacement, ← Table.getElem?_collect_map]
  simp [Function.comp_def]

/-- An account that replaces none with its flag starts as it is listed. -/
theorem carryOver_of_forall_ne {accounts : Table String RouteAccount} {account : RouteAccount}
    (h : ∀ previous : RouteAccount, accounts[account.id]? = some previous →
      previous.enabled ≠ account.enabled) : Router.carryOver accounts account = account := by
  unfold Router.carryOver
  split
  · rename_i previous hprevious
    rw [Option.filter_eq_some_iff] at hprevious
    exact absurd (by simpa using hprevious.2) (h previous hprevious.1)
  · rfl

variable {ledger : Ledger}

/-- Changing one account keeps the balance when the ledger moves with
its counter. -/
theorem Ledger.Balanced.of_insert (h : ledger.Balanced) (id : String) (updated : RouteAccount)
    (sessions : Table String SessionBinding) :
    Ledger.Balanced
      { router := { accounts := ledger.router.accounts.insert id updated, sessions := sessions }
        outstanding := Function.update ledger.outstanding id updated.inFlight.toNat } := by
  intro id' account' h'
  simp only [Std.ExtTreeMap.getElem?_insert, Std.LawfulEqCmp.compare_eq_iff_eq] at h'
  by_cases heq : id = id'
  · rw [if_pos heq] at h'
    subst heq
    have hupdated : updated = account' := Option.some.inj h'
    simp [hupdated]
  · rw [if_neg heq] at h'
    simp only [Function.update_of_ne (Ne.symm heq)]
    exact h id' account' h'

theorem balanced_startRequest (h : ledger.Balanced) {id : String}
    (hbound : ledger.outstanding id + 1 < 2 ^ 32) :
    (ledger.apply (.startRequest id)).Balanced := by
  simp only [Ledger.apply, Op.apply, Router.startRequest]
  cases haccount : ledger.router.accounts[id]? with
  | none => exact h
  | some account =>
      have hcount := h id account haccount
      have hsucc := toNat_saturatingSucc (n := account.inFlight) (by omega)
      have hstarted := h.of_insert id
        { account with inFlight := saturatingSucc account.inFlight } ledger.router.sessions
      simpa only [hsucc, hcount] using hstarted

theorem balanced_recordOutcome (h : ledger.Balanced) (id : String) (outcome : UpstreamOutcome) :
    (ledger.apply (.recordOutcome id outcome)).Balanced := by
  simp only [Ledger.apply, Op.apply, Router.recordOutcome]
  cases haccount : ledger.router.accounts[id]? with
  | none =>
      -- the account is gone, so the ledger alone moves, where nothing is compared
      intro id' account' h'
      have hne : id' ≠ id := by
        rintro rfl
        rw [haccount] at h'
        cases h'
      simp only [Function.update_of_ne hne]
      exact h id' account' h'
  | some account =>
      have hcount := h id account haccount
      have hmark : (Router.markOutcome
          { account with inFlight := saturatingPred account.inFlight } outcome).inFlight =
            saturatingPred account.inFlight := by
        cases outcome <;> rfl
      have hrecorded := h.of_insert id (Router.markOutcome
        { account with inFlight := saturatingPred account.inFlight } outcome)
        (if outcome = .success then ledger.router.sessions
          else Router.evict ledger.router.sessions id)
      simpa only [hmark, toNat_saturatingPred, hcount] using hrecorded

theorem balanced_resetAccountHealth (h : ledger.Balanced) (id : String) :
    (ledger.apply (.resetAccountHealth id)).Balanced := by
  simp only [Ledger.apply, Op.apply, Router.resetAccountHealth]
  cases haccount : ledger.router.accounts[id]? with
  | none => exact h
  | some account =>
      have hcount := h id account haccount
      have hreset := h.of_insert id { account with healthy := true, depletedUntil := none }
        (Router.evict ledger.router.sessions id)
      simpa only [hcount, Function.update_eq_self] using hreset

theorem balanced_choose (h : ledger.Balanced) (request : RouteRequest) (now : DateTime) :
    (ledger.apply (.choose request now)).Balanced := by
  intro id account haccount
  have hsame : (ledger.apply (.choose request now)).router.accounts = ledger.router.accounts :=
    choose_accounts ledger.router request now
  rw [hsame] at haccount
  exact h id account haccount

/-- **Which refreshes keep the balance.** An account a refresh lists has
a counter of zero of its own. It takes over the right counter from an
account with its flag; where there is none, zero is right exactly when
nothing is outstanding. -/
theorem balanced_replaceAccounts (h : ledger.Balanced) {accounts : List RouteAccount}
    (hzero : ∀ account ∈ accounts, account.inFlight = 0) :
    (ledger.apply (.replaceAccounts accounts)).Balanced ↔
      ledger.Keeps (.replaceAccounts accounts) := by
  -- what the refresh installs for a listed id, and when its counter is right
  have hlisted : ∀ (id : String) (listed : RouteAccount),
      (Table.collect (accounts.map fun account => (account.id, account)))[id]? = some listed →
      ((Router.carryOver ledger.router.accounts listed).inFlight.toNat = ledger.outstanding id ↔
        (0 < ledger.outstanding id → ∃ present : RouteAccount,
          ledger.router.accounts[id]? = some present ∧ present.enabled = listed.enabled)) := by
    intro id listed hcollect
    have hmem := Table.mem_of_getElem?_collect hcollect
    simp only [List.mem_map, Prod.mk.injEq] at hmem
    obtain ⟨source, hsource, rfl, rfl⟩ := hmem
    by_cases hcarry : ∃ present : RouteAccount,
        ledger.router.accounts[source.id]? = some present ∧ present.enabled = source.enabled
    · obtain ⟨present, hpresent, hen⟩ := hcarry
      rw [carryOver_of_enabled hpresent hen]
      exact iff_of_true (h source.id present hpresent) fun _ => ⟨present, hpresent, hen⟩
    · have hfresh : Router.carryOver ledger.router.accounts source = source :=
        carryOver_of_forall_ne fun previous hprevious hen => hcarry ⟨previous, hprevious, hen⟩
      have hcounter : source.inFlight.toNat = 0 := by
        rw [hzero source hsource]
        rfl
      rw [hfresh, hcounter]
      constructor
      · intro hnone hpos
        omega
      · intro hkeeps
        by_contra hne
        exact hcarry (hkeeps (by omega))
  constructor
  · intro hbalanced id listed hcollect
    refine (hlisted id listed hcollect).mp (hbalanced id _ ?_)
    change (ledger.router.replacement accounts)[id]? = _
    rw [replacement_getElem?, hcollect]
    rfl
  · intro hkeeps id account haccount
    change (ledger.router.replacement accounts)[id]? = some account at haccount
    rw [replacement_getElem?, Option.map_eq_some_iff] at haccount
    obtain ⟨listed, hcollect, rfl⟩ := haccount
    exact (hlisted id listed hcollect).mpr (hkeeps id listed hcollect)

theorem balanced_apply (h : ledger.Balanced) {op : Op} (hd : ledger.Disciplined op) :
    (ledger.apply op).Balanced ↔ ledger.Keeps op := by
  cases op with
  | choose request now => exact iff_of_true (balanced_choose h request now) trivial
  | startRequest id => exact iff_of_true (balanced_startRequest h hd) trivial
  | recordOutcome id outcome => exact iff_of_true (balanced_recordOutcome h id outcome) trivial
  | replaceAccounts accounts => exact balanced_replaceAccounts h hd
  | resetAccountHealth id => exact iff_of_true (balanced_resetAccountHealth h id) trivial
  | sessionCount now => exact iff_of_true h trivial

/-! ## Every run -/

theorem balanced_opening {accounts : List RouteAccount}
    (hzero : ∀ account ∈ accounts, account.inFlight = 0) :
    (Ledger.opening accounts).Balanced := by
  intro id account haccount
  have hmem := Table.mem_of_getElem?_collect haccount
  simp only [List.mem_map, Prod.mk.injEq] at hmem
  obtain ⟨source, hsource, -, rfl⟩ := hmem
  rw [hzero source hsource]
  rfl

/-- **In-flight conservation.** Start from accounts with nothing in
flight and let every recorded outcome close an outstanding request. The
counter of every account the router has is the number of its outstanding
requests after every prefix of the run, exactly when every refresh keeps
what is outstanding. -/
theorem balanced_iff_keeps {accounts : List RouteAccount} {ops : List Op}
    (hzero : ∀ account ∈ accounts, account.inFlight = 0)
    (hd : Run.Along Ledger.apply Ledger.Disciplined (Ledger.opening accounts) ops) :
    (∀ before, before <+: ops →
      (Run.final Ledger.apply (Ledger.opening accounts) before).Balanced) ↔
    Run.Along Ledger.apply Ledger.Keeps (Ledger.opening accounts) ops :=
  Run.always_iff_along (fun _ _ h hd => balanced_apply h hd) (balanced_opening hzero) hd

/-- An account as `route_accounts` lists it, of no particular provider. -/
def listedAccount (id : String) (enabled : Bool) : RouteAccount where
  id := id
  provider := "anthropic"
  enabled := enabled
  healthy := true
  inFlight := 0
  utilizationBasisPoints := 0
  models := ∅
  depletedUntil := none

/-- A request that straddles a refresh. -/
def straddling : List Op :=
  [.startRequest "a", .replaceAccounts [listedAccount "a" true], .recordOutcome "a" .success]

/-- A request that straddles a refresh is counted to its end. -/
theorem balanced_across_refresh :
    Run.Along Ledger.apply Ledger.Disciplined (Ledger.opening [listedAccount "a" true])
        straddling ∧
      ∀ before, before <+: straddling →
        (Run.final Ledger.apply (Ledger.opening [listedAccount "a" true]) before).Balanced := by
  have hdisciplined : Run.Along Ledger.apply Ledger.Disciplined
      (Ledger.opening [listedAccount "a" true]) straddling := by
    refine ⟨?_, ?_, ?_, trivial⟩
    · show 0 + 1 < 2 ^ 32
      omega
    · show ∀ account ∈ [listedAccount "a" true], account.inFlight = 0
      decide
    · show 0 < 1
      omega
  refine ⟨hdisciplined, (balanced_iff_keeps (by decide) hdisciplined).mpr ?_⟩
  refine ⟨trivial, ?_, trivial, trivial⟩
  intro id listed hlisted hpos
  have hmem := Table.mem_of_getElem?_collect hlisted
  simp only [List.map_cons, List.map_nil, List.mem_singleton, Prod.mk.injEq] at hmem
  obtain ⟨rfl, rfl⟩ := hmem
  exact ⟨{ listedAccount "a" true with inFlight := 1 }, by decide, rfl⟩

/-- **A pause loses the count.** One request is outstanding through an
account when a refresh lists it paused: the counter falls to zero, though
the run is disciplined. -/
theorem inFlight_lost_over_pause :
    ¬ ∀ (accounts : List RouteAccount) (ops : List Op),
      (∀ account ∈ accounts, account.inFlight = 0) →
      Run.Along Ledger.apply Ledger.Disciplined (Ledger.opening accounts) ops →
      ∀ before, before <+: ops →
        (Run.final Ledger.apply (Ledger.opening accounts) before).Balanced := by
  intro hclaim
  have hlost := hclaim [listedAccount "a" true]
    [.startRequest "a", .replaceAccounts [listedAccount "a" false]] (by decide)
    ⟨show 0 + 1 < 2 ^ 32 by omega,
      show ∀ account ∈ [listedAccount "a" false], account.inFlight = 0 by decide, trivial⟩
    _ (List.prefix_refl _) "a" (listedAccount "a" false) (by decide)
  exact absurd hlost (by decide)

end Routing

end Llmap
