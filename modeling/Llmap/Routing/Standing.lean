import Llmap.Routing.InFlight
/-!
# An account's standing

What decides whether an account may serve is its flag, its health and its
depletion: its standing. As long as nobody resets the account and every
refresh lists it with its flag, its standing is changed by the outcomes
recorded for it and by nothing else (`standing_apply`).

A quarantine is final then: no outcome makes an account healthy
(`quarantine_persists`). A depletion window is not. The router keeps the
end of the window that was reported last, so a late outcome with an
earlier end cuts a window short (`window_cut_short`). It is honoured
exactly when no such outcome comes (`window_honoured_iff`).
-/

namespace Llmap

namespace Routing

variable {router : Router} {a : String}

/-- The flag, the health and the depletion of an account. -/
def standing (account : RouteAccount) : Bool × Bool × Option DateTime :=
  (account.enabled, account.healthy, account.depletedUntil)

/-- The outcome that an operation records for an account. -/
def Op.outcomeFor (a : String) : Op → Option UpstreamOutcome
  | .recordOutcome id outcome => if id = a then some outcome else none
  | _ => none

/-- An account, marked by an outcome if there is one. -/
def marked (account : RouteAccount) : Option UpstreamOutcome → RouteAccount
  | none => account
  | some outcome => Router.markOutcome account outcome

/-- **What leaves an account to its outcomes**: nobody resets it, and a
refresh lists it with the flag it has. Of several entries under one id
the last counts. -/
def Retains (a : String) (router : Router) : Op → Prop
  | .resetAccountHealth id => id ≠ a
  | .replaceAccounts accounts => ∃ listed : RouteAccount,
      (Table.collect (accounts.map fun account => (account.id, account)))[a]? = some listed ∧
        router.accounts[a]?.map (·.enabled) = some listed.enabled
  | _ => True

/-! ## Which account a selection returns -/

/-- **A selection returns an account that is eligible**, fresh or
sticky. -/
theorem choose_spec (hstored : ∀ (id : String) (account : RouteAccount),
      router.accounts[id]? = some account → account.id = id)
    {request : RouteRequest} {now : DateTime} {selection : RouteSelection}
    (h : (router.choose request now).2 = .ok selection) :
    ∃ account : RouteAccount, router.accounts[selection.accountId]? = some account ∧
      eligible account request.model now = true := by
  have hfresh : ∀ {sessions}, (Router.chooseFresh { router with sessions := sessions }
      request now).2 = .ok selection → ∃ account : RouteAccount,
        router.accounts[selection.accountId]? = some account ∧
          eligible account request.model now = true := by
    intro sessions hchosen
    unfold Router.chooseFresh at hchosen
    split at hchosen
    · cases hchosen
    · rename_i account haccount
      cases hchosen
      exact ⟨account, @freshAccount_spec { router with sessions := sessions } _ _ _ hstored
        haccount⟩
  unfold Router.choose at h
  split at h
  · exact hfresh h
  · split at h
    · rename_i account haccount
      cases h
      obtain ⟨binding, -, hpresent, helig⟩ := stickyAccount_spec haccount
      refine ⟨account, ?_, helig⟩
      rw [hstored _ account hpresent]
      exact hpresent
    · exact hfresh h

/-- No selection returns an account that is not eligible. -/
theorem not_chosen_of_eligible_eq_false (hsound : router.Sound) {account : RouteAccount}
    (haccount : router.accounts[a]? = some account) {request : RouteRequest} {now : DateTime}
    {selection : RouteSelection} (hnot : eligible account request.model now = false)
    (hchosen : (router.choose request now).2 = .ok selection) : selection.accountId ≠ a := by
  rintro rfl
  obtain ⟨chosen, hpresent, helig⟩ := choose_spec hsound.stored hchosen
  obtain rfl : chosen = account := Option.some.inj (hpresent.symm.trans haccount)
  rw [hnot] at helig
  cases helig

/-! ## One operation -/

/-- An operation on one account leaves the others as they are. -/
theorem getElem?_insert_of_ne {accounts : Table String RouteAccount} {id : String}
    (account : RouteAccount) (h : id ≠ a) : (accounts.insert id account)[a]? = accounts[a]? := by
  simp [Std.ExtTreeMap.getElem?_insert, h]

/-- What is done to another account leaves an account as it is, and every
session that is not bound to the other. -/
structure LeavesOthers (b : String) (router after : Router) : Prop where
  accounts : ∀ a, a ≠ b → after.accounts[a]? = router.accounts[a]?
  sessions : ∀ (session : String) (binding : SessionBinding), binding.accountId ≠ b →
    (after.sessions[session]? = some binding ↔ router.sessions[session]? = some binding)

theorem leavesOthers_evict (b : String) (account : RouteAccount) :
    LeavesOthers b router ⟨router.accounts.insert b account, Router.evict router.sessions b⟩ where
  accounts _ ha := getElem?_insert_of_ne account ha.symm
  sessions _ _ hbinding := getElem?_evict.trans (and_iff_left hbinding)

theorem leavesOthers_resetAccountHealth (router : Router) (b : String) :
    LeavesOthers b router (router.resetAccountHealth b).1 := by
  unfold Router.resetAccountHealth
  split
  · exact ⟨fun _ _ => rfl, fun _ _ _ => Iff.rfl⟩
  · exact leavesOthers_evict b _

theorem leavesOthers_recordOutcome (router : Router) (b : String) (outcome : UpstreamOutcome) :
    LeavesOthers b router (router.recordOutcome b outcome).1 := by
  unfold Router.recordOutcome
  split
  · exact ⟨fun _ _ => rfl, fun _ _ _ => Iff.rfl⟩
  · rename_i account haccount
    by_cases houtcome : outcome = .success
    · simp only [if_pos houtcome]
      exact ⟨fun _ ha => getElem?_insert_of_ne _ ha.symm, fun _ _ _ => Iff.rfl⟩
    · simp only [if_neg houtcome]
      exact leavesOthers_evict b _

theorem standing_startRequest (id : String) :
    (router.startRequest id).1.accounts[a]?.map standing = router.accounts[a]?.map standing := by
  unfold Router.startRequest
  split
  · rfl
  · rename_i account haccount
    by_cases hid : id = a
    · subst hid
      rw [haccount, Std.ExtTreeMap.getElem?_insert_self]
      rfl
    · rw [getElem?_insert_of_ne _ hid]

theorem standing_recordOutcome_self (outcome : UpstreamOutcome) :
    (router.recordOutcome a outcome).1.accounts[a]?.map standing =
      router.accounts[a]?.map fun account => standing (Router.markOutcome account outcome) := by
  unfold Router.recordOutcome
  split
  · rename_i haccount
    rw [haccount]
    rfl
  · rename_i account haccount
    rw [haccount, Std.ExtTreeMap.getElem?_insert_self]
    cases outcome <;> rfl

theorem standing_replaceAccounts {accounts : List RouteAccount}
    (h : Retains a router (.replaceAccounts accounts)) :
    (router.replaceAccounts accounts).accounts[a]?.map standing =
      router.accounts[a]?.map standing := by
  obtain ⟨listed, hlisted, hflag⟩ := h
  obtain ⟨present, hpresent, henabled⟩ := Option.map_eq_some_iff.mp hflag
  have hid : listed.id = a := by
    have hmem := Table.mem_of_getElem?_collect hlisted
    simp only [List.mem_map, Prod.mk.injEq] at hmem
    obtain ⟨source, -, hsource, rfl⟩ := hmem
    exact hsource
  change (router.replacement accounts)[a]?.map standing = _
  rw [replacement_getElem?, hlisted, hpresent]
  rw [← hid] at hpresent
  simp [carryOver_of_enabled hpresent henabled, standing, henabled]

/-- **What an operation does to an account's standing**: what the outcome
it records for the account does. -/
theorem standing_apply {op : Op} (h : Retains a router op) :
    (op.apply router).accounts[a]?.map standing =
      router.accounts[a]?.map fun account => standing (marked account (op.outcomeFor a)) := by
  cases op with
  | choose request now =>
      change (router.choose request now).1.accounts[a]?.map standing = _
      rw [choose_accounts]
      rfl
  | startRequest id => exact standing_startRequest id
  | recordOutcome id outcome =>
      by_cases hid : id = a
      · subst hid
        refine (standing_recordOutcome_self outcome).trans ?_
        simp [Op.outcomeFor, marked]
      · have hother : (router.recordOutcome id outcome).1.accounts[a]? = router.accounts[a]? :=
          (leavesOthers_recordOutcome router id outcome).accounts a (Ne.symm hid)
        simp [Op.apply, hother, Op.outcomeFor, hid, marked]
  | replaceAccounts accounts => exact standing_replaceAccounts h
  | resetAccountHealth id =>
      have hother : (router.resetAccountHealth id).1.accounts[a]? = router.accounts[a]? :=
        (leavesOthers_resetAccountHealth router id).accounts a (Ne.symm h)
      simp [Op.apply, hother, Op.outcomeFor, marked]
  | sessionCount now => rfl

/-! ## Quarantine -/

/-- An account that the router has and that is not healthy. -/
def Quarantined (a : String) (router : Router) : Prop :=
  router.accounts[a]?.map (·.healthy) = some false

theorem quarantined_iff :
    Quarantined a router ↔ ∃ account : RouteAccount,
      router.accounts[a]? = some account ∧ account.healthy = false :=
  Option.map_eq_some_iff

/-- No outcome makes an account healthy. -/
theorem Quarantined.apply {op : Op} (h : Quarantined a router) (hop : Retains a router op) :
    Quarantined a (op.apply router) := by
  obtain ⟨account, haccount, hhealthy⟩ := quarantined_iff.mp h
  have hstanding := standing_apply hop
  rw [haccount] at hstanding
  obtain ⟨account', haccount', hsame⟩ := Option.map_eq_some_iff.mp hstanding
  refine quarantined_iff.mpr ⟨account', haccount', ?_⟩
  have hmarked : (marked account (op.outcomeFor a)).healthy = false := by
    cases op.outcomeFor a with
    | none => exact hhealthy
    | some outcome =>
        cases outcome with
        | unauthorized => rfl
        | success | rateLimited | overloaded | transientFailure => exact hhealthy
  exact (congrArg (·.2.1) hsame).trans hmarked

/-- An account in quarantine is not eligible, so no selection returns
it. -/
theorem Quarantined.not_chosen (h : Quarantined a router) (hsound : router.Sound)
    {request : RouteRequest} {now : DateTime} {selection : RouteSelection}
    (hchosen : (router.choose request now).2 = .ok selection) : selection.accountId ≠ a := by
  obtain ⟨account, haccount, hhealthy⟩ := quarantined_iff.mp h
  refine not_chosen_of_eligible_eq_false hsound haccount ?_ hchosen
  simp [eligible, hhealthy]

/-- **Quarantine persists and is exact.** From any router a run reaches,
an account whose outcome `Unauthorized` was recorded is never returned
again, whatever is done that leaves it to its outcomes; and what is done
to another account leaves it as it is, and every session that is not
bound to the other. -/
theorem quarantine_persists (accounts : List RouteAccount) (before : List Op) (a : String) :
    (∀ after : Router, (run (Router.new accounts) before).recordOutcome a .unauthorized =
        (after, .ok ()) →
      ∀ ops, Run.Along Op.apply (Retains a) after ops →
      ∀ request now selection, ((run after ops).choose request now).2 = .ok selection →
        selection.accountId ≠ a) ∧
    ∀ b, LeavesOthers b (run (Router.new accounts) before)
        ((run (Router.new accounts) before).resetAccountHealth b).1 ∧
      ∀ outcome, LeavesOthers b (run (Router.new accounts) before)
        ((run (Router.new accounts) before).recordOutcome b outcome).1 := by
  refine ⟨?_, fun b => ⟨leavesOthers_resetAccountHealth _ b, leavesOthers_recordOutcome _ b⟩⟩
  intro after hafter ops hops request now selection hchosen
  have hsound : after.Sound := by
    have hrecorded := sound_recordOutcome (sound_run accounts before) a .unauthorized
    rwa [hafter] at hrecorded
  have hstart : Quarantined a after := by
    unfold Router.recordOutcome at hafter
    split at hafter
    · cases hafter
    · cases hafter
      simp [Quarantined, Router.markOutcome]
  have hend : Quarantined a (run after ops) ∧ (run after ops).Sound :=
    Run.final_induct (I := fun router => Quarantined a router ∧ router.Sound)
      (fun _ op h hop => ⟨h.1.apply hop, sound_apply h.2 op⟩) ⟨hstart, hsound⟩ hops
  exact hend.1.not_chosen hend.2 hchosen

/-- A late success and a refresh do not bring the account back. -/
theorem quarantine_survives_success :
    let after := ((Router.new [listedAccount "a" true, listedAccount "b" true]).recordOutcome "a"
      .unauthorized).1
    let ops := [Op.recordOutcome "a" .success,
      .replaceAccounts [listedAccount "a" true, listedAccount "b" true]]
    ((run after ops).choose ⟨none, ""⟩ 0).2 = .ok ⟨"b", "anthropic", false⟩ ∧ "b" ≠ "a" := by
  refine ⟨by decide +kernel, ?_⟩
  refine (quarantine_persists [listedAccount "a" true, listedAccount "b" true] [] "a").1
    ((Router.new [listedAccount "a" true, listedAccount "b" true]).recordOutcome "a"
      .unauthorized).1 (by decide +kernel)
    [.recordOutcome "a" .success,
      .replaceAccounts [listedAccount "a" true, listedAccount "b" true]]
    ⟨trivial, ?_, trivial⟩ ⟨none, ""⟩ 0 ⟨"b", "anthropic", false⟩ (by decide +kernel)
  exact ⟨listedAccount "a" true, by decide +kernel, by decide +kernel⟩

/-! ## Depletion -/

/-- The end of the window that an outcome opens. -/
def UpstreamOutcome.retryAt? : UpstreamOutcome → Option DateTime
  | .rateLimited retryAt | .overloaded retryAt => some retryAt
  | .success | .unauthorized | .transientFailure => none

/-- An account that may serve no model before `r`. -/
def WithheldUntil (r : DateTime) (account : RouteAccount) : Prop :=
  ∀ model now, now < r → eligible account model now = false

/-- **An outcome that respects a window** to `r` of an account: it opens
no window that ends before, unless the account could not serve anyway. -/
def RespectsWindow (a : String) (r : DateTime) (router : Router) (op : Op) : Prop :=
  ∀ outcome ∈ op.outcomeFor a, ∀ retryAt ∈ outcome.retryAt?,
    ∀ account ∈ router.accounts[a]?, account.enabled = true → account.healthy = true → r ≤ retryAt

/-- The account is there, and withheld. -/
def Withheld (a : String) (r : DateTime) (router : Router) : Prop :=
  ∃ account : RouteAccount, router.accounts[a]? = some account ∧ WithheldUntil r account

theorem withheldUntil_iff {r : DateTime} {account : RouteAccount} :
    WithheldUntil r account ↔ (account.enabled = true → account.healthy = true →
      ∃ depletedUntil, account.depletedUntil = some depletedUntil ∧ r ≤ depletedUntil) := by
  constructor
  · intro h henabled hhealthy
    cases hdepleted : account.depletedUntil with
    | none =>
        have hearly : (r : Int) - 1 < r := Int.sub_one_lt_of_le le_rfl
        have hfalse := h "" (r - 1) hearly
        simp [eligible, henabled, hhealthy, hdepleted] at hfalse
    | some depletedUntil =>
        refine ⟨depletedUntil, rfl, ?_⟩
        by_contra hlate
        have hfalse := h "" depletedUntil (lt_of_not_ge hlate)
        simp [eligible, henabled, hhealthy, hdepleted] at hfalse
  · intro h model now hnow
    by_contra helig
    obtain ⟨henabled, hhealthy, hdepleted⟩ :=
      serviceable_of_eligible (Bool.of_not_eq_false helig)
    obtain ⟨depletedUntil, hsome, hlate⟩ := h henabled hhealthy
    exact not_lt_of_ge (hlate.trans (hdepleted depletedUntil hsome)) hnow

/-- Whether an account is withheld is seen by its standing. -/
theorem withheldUntil_congr {r : DateTime} {account account' : RouteAccount}
    (h : standing account = standing account') :
    WithheldUntil r account ↔ WithheldUntil r account' := by
  obtain ⟨henabled, hhealthy, hdepleted⟩ :
      account.enabled = account'.enabled ∧ account.healthy = account'.healthy ∧
        account.depletedUntil = account'.depletedUntil := by simpa [standing] using h
  rw [withheldUntil_iff, withheldUntil_iff, henabled, hhealthy, hdepleted]

/-- **What an outcome does to a window.** -/
theorem withheldUntil_markOutcome {r : DateTime} {account : RouteAccount}
    (h : WithheldUntil r account) (outcome : UpstreamOutcome) :
    WithheldUntil r (Router.markOutcome account outcome) ↔
      ∀ retryAt ∈ outcome.retryAt?, account.enabled = true → account.healthy = true →
        r ≤ retryAt := by
  have hopened : ∀ retryAt, WithheldUntil r { account with depletedUntil := some retryAt } ↔
      (account.enabled = true → account.healthy = true → r ≤ retryAt) := by
    intro retryAt
    rw [withheldUntil_iff]
    simp
  cases outcome with
  | success | transientFailure => exact iff_of_true h (by simp [UpstreamOutcome.retryAt?])
  | unauthorized =>
      refine iff_of_true (withheldUntil_iff.mpr ?_) (by simp [UpstreamOutcome.retryAt?])
      rintro - ⟨⟩
  | rateLimited retryAt | overloaded retryAt =>
      refine (hopened retryAt).trans ?_
      simp [UpstreamOutcome.retryAt?]

/-- **A step keeps a window just in case it respects it.** -/
theorem withheld_apply {r : DateTime} {op : Op} (h : Withheld a r router)
    (hop : Retains a router op) :
    Withheld a r (op.apply router) ↔ RespectsWindow a r router op := by
  obtain ⟨account, haccount, hwithheld⟩ := h
  have hstanding := standing_apply hop
  rw [haccount] at hstanding
  obtain ⟨account', haccount', hsame⟩ := Option.map_eq_some_iff.mp hstanding
  have hafter : Withheld a r (op.apply router) ↔
      WithheldUntil r (marked account (op.outcomeFor a)) := by
    rw [← withheldUntil_congr hsame]
    constructor
    · rintro ⟨account'', haccount'', hthen⟩
      obtain rfl : account' = account'' := Option.some.inj (haccount'.symm.trans haccount'')
      exact hthen
    · exact fun hthen => ⟨account', haccount', hthen⟩
  rw [hafter]
  unfold RespectsWindow
  cases op.outcomeFor a with
  | none => exact iff_of_true hwithheld (by simp)
  | some outcome =>
      refine (withheldUntil_markOutcome hwithheld outcome).trans ?_
      simp [haccount]

theorem Withheld.not_chosen {r : DateTime} (h : Withheld a r router) (hsound : router.Sound)
    {request : RouteRequest} {now : DateTime} {selection : RouteSelection} (hnow : now < r)
    (hchosen : (router.choose request now).2 = .ok selection) : selection.accountId ≠ a := by
  obtain ⟨account, haccount, hwithheld⟩ := h
  exact not_chosen_of_eligible_eq_false hsound haccount (hwithheld request.model now hnow) hchosen

/-- **When a window is honoured.** A router that some run leads to records
an outcome with a window to `r` for an account, and what follows leaves
the account to its outcomes. The account is withheld until
`r` throughout, just in case every outcome respects the window; and then
no selection before `r` returns it. -/
theorem window_honoured_iff (accounts : List RouteAccount) (before : List Op) (a : String)
    (outcome : UpstreamOutcome) (r : DateTime) (after : Router) (ops : List Op)
    (hwindow : outcome.retryAt? = some r)
    (hafter : (run (Router.new accounts) before).recordOutcome a outcome = (after, .ok ()))
    (hops : Run.Along Op.apply (Retains a) after ops) :
    ((∀ first, first <+: ops → Withheld a r (run after first)) ↔
        Run.Along Op.apply (RespectsWindow a r) after ops) ∧
      (Run.Along Op.apply (RespectsWindow a r) after ops →
        ∀ first, first <+: ops → ∀ request now selection, now < r →
          ((run after first).choose request now).2 = .ok selection → selection.accountId ≠ a) := by
  have hsound : ∀ first, (run after first).Sound := by
    intro first
    have hrecorded := sound_recordOutcome (sound_run accounts before) a outcome
    rw [hafter] at hrecorded
    exact Run.final_induct_of_step (fun _ op h => sound_apply h op) hrecorded
  have hstart : Withheld a r after := by
    unfold Router.recordOutcome at hafter
    split at hafter
    · cases hafter
    · cases hafter
      refine ⟨_, Std.ExtTreeMap.getElem?_insert_self,
        withheldUntil_iff.mpr fun _ _ => ⟨r, ?_, le_rfl⟩⟩
      cases outcome with
      | rateLimited retryAt | overloaded retryAt => exact hwindow
      | success | unauthorized | transientFailure => cases hwindow
  have hexact : (∀ first, first <+: ops → Withheld a r (run after first)) ↔
      Run.Along Op.apply (RespectsWindow a r) after ops :=
    Run.always_iff_along (fun _ _ h hop => withheld_apply h hop) hstart hops
  refine ⟨hexact, fun hrespects first hfirst request now selection hnow hchosen => ?_⟩
  exact (hexact.mpr hrespects first hfirst).not_chosen (hsound first) hnow hchosen

/-- A window that a later outcome extends is honoured. -/
theorem window_extended :
    let after := (run (Router.new [listedAccount "a" true, listedAccount "b" true])
      [.startRequest "a", .startRequest "a", .recordOutcome "a" (.rateLimited 100)])
    ((run after [.recordOutcome "a" (.overloaded 200)]).choose ⟨none, ""⟩ 50).2 =
      .ok ⟨"b", "anthropic", false⟩ ∧ "b" ≠ "a" := by
  refine ⟨by decide +kernel, ?_⟩
  refine (window_honoured_iff [listedAccount "a" true, listedAccount "b" true]
    [.startRequest "a", .startRequest "a"] "a" (.rateLimited 100) 100
    (run (Router.new [listedAccount "a" true, listedAccount "b" true])
      [.startRequest "a", .startRequest "a", .recordOutcome "a" (.rateLimited 100)])
    [.recordOutcome "a" (.overloaded 200)] rfl (by decide +kernel) ⟨trivial, trivial⟩).2
    ⟨?_, trivial⟩ _ (List.prefix_refl _) ⟨none, ""⟩ 50 ⟨"b", "anthropic", false⟩
    (by decide) (by decide +kernel)
  intro outcome houtcome retryAt hretry account _ _ _
  obtain rfl : outcome = .overloaded 200 := by simpa [Op.outcomeFor, eq_comm] using houtcome
  obtain rfl : 200 = retryAt := Option.some.inj hretry
  decide

/-- **A window cut short.** Two requests are under way when the account is
rate limited until 100. The other one's outcome ends the window at 10, and
the account is chosen at 50. -/
theorem window_cut_short :
    let after := (run (Router.new [listedAccount "a" true])
      [.startRequest "a", .startRequest "a", .recordOutcome "a" (.rateLimited 100)])
    after.accounts["a"]?.bind (·.depletedUntil) = some 100 ∧
      ((run after [.recordOutcome "a" (.rateLimited 10)]).choose ⟨none, ""⟩ 50).2 =
        .ok ⟨"a", "anthropic", false⟩ := by
  decide +kernel

end Routing

end Llmap
