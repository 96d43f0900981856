import Llmap.Routing.InFlight
/-!
# Stickiness

A session that was given an account keeps it. The binding that `choose`
leaves names the account and the instant, and it outlives whatever other
sessions and other accounts do, as long as nothing is done that drops it
(`binding_apply`). A router that is sound has the account ready for every
binding (`Router.Sound`), so the next choice within the idle timeout
returns the same account, whatever its load (`choice_sticks`).
-/

namespace Llmap

namespace Routing

variable {router : Router} {s a : String} {t : DateTime}

/-- **What leaves a binding in place**: nobody chooses for the session, no
outcome but success is recorded for the account, nobody resets it, a
refresh leaves it there and enabled, and sessions are not counted after
the binding is out of date. -/
def LeavesBinding (s a : String) (t : DateTime) (router : Router) : Op → Prop
  | .choose request _ => request.sessionId ≠ some s
  | .startRequest _ => True
  | .recordOutcome id outcome => id = a → outcome = .success
  | .replaceAccounts accounts => ∃ account : RouteAccount,
      (router.replaceAccounts accounts).accounts[a]? = some account ∧ account.enabled = true
  | .resetAccountHealth id => id ≠ a
  | .sessionCount now => now ≤ t + sessionIdleTimeout

/-! ## What a choice does to the bindings -/

theorem chooseFresh_sessions_of_ne {request : RouteRequest} (h : request.sessionId ≠ some s)
    (now : DateTime) :
    (router.chooseFresh request now).1.sessions[s]? = router.sessions[s]? := by
  unfold Router.chooseFresh
  split
  · rfl
  · cases hsession : request.sessionId with
    | none => rfl
    | some sessionId =>
        have hne : sessionId ≠ s := by
          rintro rfl
          exact h hsession
        simp [Std.ExtTreeMap.getElem?_insert, hne]

/-- A choice for one session leaves the bindings of the others. -/
theorem choose_sessions_of_ne {request : RouteRequest} (h : request.sessionId ≠ some s)
    (now : DateTime) : (router.choose request now).1.sessions[s]? = router.sessions[s]? := by
  unfold Router.choose
  split
  · exact chooseFresh_sessions_of_ne h now
  · rename_i sessionId hsession
    have hne : sessionId ≠ s := by
      rintro rfl
      exact h hsession
    split
    · simp [Std.ExtTreeMap.getElem?_modify, hne]
    · rw [chooseFresh_sessions_of_ne h]
      simp [Std.ExtTreeMap.getElem?_erase, hne]

/-- **A choice binds its session** to the account it returns. -/
theorem choose_binds (hstored : ∀ (id : String) (account : RouteAccount),
      router.accounts[id]? = some account → account.id = id)
    {model : String} {selection : RouteSelection}
    (h : (router.choose ⟨some s, model⟩ t).2 = .ok selection) :
    (router.choose ⟨some s, model⟩ t).1.sessions[s]? = some ⟨selection.accountId, t⟩ := by
  unfold Router.choose at h ⊢
  dsimp only at h ⊢
  cases hsticky : router.stickyAccount s model t with
  | some account =>
      simp only [hsticky] at h ⊢
      obtain ⟨binding, hbinding, haccount, -⟩ := stickyAccount_spec hsticky
      obtain rfl := Except.ok.inj h
      simp [hbinding, hstored _ _ haccount]
  | none =>
      simp only [hsticky] at h ⊢
      unfold Router.chooseFresh at h ⊢
      split at h
      · cases h
      · obtain rfl := Except.ok.inj h
        simp

/-! ## One operation -/

/-- **A binding stays** where nothing drops it. -/
theorem binding_apply {op : Op} (h : router.sessions[s]? = some ⟨a, t⟩)
    (hop : LeavesBinding s a t router op) :
    (op.apply router).sessions[s]? = some ⟨a, t⟩ := by
  cases op with
  | choose request now => exact (choose_sessions_of_ne hop now).trans h
  | startRequest id =>
      change (router.startRequest id).1.sessions[s]? = _
      unfold Router.startRequest
      split
      · exact h
      · exact h
  | recordOutcome id outcome =>
      change (router.recordOutcome id outcome).1.sessions[s]? = _
      unfold Router.recordOutcome
      split
      · exact h
      · by_cases houtcome : outcome = .success
        · simpa [houtcome] using h
        · -- the sessions of another account are evicted
          simp only [if_neg houtcome]
          exact getElem?_evict.mpr ⟨h, fun hid => houtcome (hop hid.symm)⟩
  | replaceAccounts accounts =>
      obtain ⟨account, haccount, henabled⟩ := hop
      change (router.replacement accounts)[a]? = some account at haccount
      change (router.replaceAccounts accounts).sessions[s]? = _
      simp [Router.replaceAccounts, h, haccount, henabled, Option.filter]
  | resetAccountHealth id =>
      change (router.resetAccountHealth id).1.sessions[s]? = _
      unfold Router.resetAccountHealth
      split
      · exact h
      · exact getElem?_evict.mpr ⟨h, fun hid => hop hid.symm⟩
  | sessionCount now =>
      change (router.liveSessions now)[s]? = _
      change now ≤ t + sessionIdleTimeout at hop
      simp [Router.liveSessions, h, hop, Option.filter]

/-! ## Every run -/

/-- A sound router serves a session from its binding. -/
theorem choose_of_binding (hsound : router.Sound) (h : router.sessions[s]? = some ⟨a, t⟩) :
    ∃ account : RouteAccount, router.accounts[a]? = some account ∧
      ∀ model t', (model = "" ∨ Models.accepted account.models model = true) → t ≤ t' →
        t' ≤ t + sessionIdleTimeout →
        (router.choose ⟨some s, model⟩ t').2 = .ok ⟨a, account.provider, true⟩ := by
  obtain ⟨account, haccount, henabled, hhealthy, hdepleted⟩ := hsound.bound s _ h
  refine ⟨account, haccount, fun model t' hmodel hlater hlive => ?_⟩
  have helig : eligible account model t' = true := by
    simp only [eligible, henabled, hhealthy, Bool.and_eq_true, Option.all_eq_true,
      decide_eq_true_eq, Bool.or_eq_true, true_and]
    exact ⟨fun depletedUntil hd => (hdepleted depletedUntil hd).trans hlater, hmodel⟩
  have hsticky : router.stickyAccount s model t' = some account := by
    simp [Router.stickyAccount, h, hlive, haccount, helig, Option.filter]
  simp [Router.choose, hsticky, hsound.stored a account haccount]

/-- **A choice sticks.** Some run leads to a router that chooses an account
for a session at `t`. Whatever follows, as long as it leaves the binding
in place, the account is still there, and every choice for the session
within the idle timeout, for a model the account accepts by then, returns
it again as a reused session. -/
theorem choice_sticks (accounts : List RouteAccount) (before : List Op) (s model : String)
    (t : DateTime) (after : Router) (selection : RouteSelection) (ops : List Op)
    (hchosen : (run (Router.new accounts) before).choose ⟨some s, model⟩ t =
      (after, .ok selection))
    (hops : Run.Along Op.apply (LeavesBinding s selection.accountId t) after ops) :
    ∃ account : RouteAccount, (run after ops).accounts[selection.accountId]? = some account ∧
      ∀ model' t', (model' = "" ∨ Models.accepted account.models model' = true) → t ≤ t' →
        t' ≤ t + sessionIdleTimeout →
        ((run after ops).choose ⟨some s, model'⟩ t').2 =
          .ok ⟨selection.accountId, account.provider, true⟩ := by
  have hrouter := sound_run accounts before
  have hbound : after.sessions[s]? = some ⟨selection.accountId, t⟩ := by
    have hbinds := choose_binds (t := t) hrouter.stored (congrArg Prod.snd hchosen)
    rwa [hchosen] at hbinds
  have hsound : after.Sound := by
    have hchoose := sound_choose hrouter ⟨some s, model⟩ t
    rwa [hchosen] at hchoose
  obtain ⟨hend, hbinding⟩ : (run after ops).Sound ∧
      (run after ops).sessions[s]? = some ⟨selection.accountId, t⟩ :=
    Run.final_induct
      (I := fun router => router.Sound ∧ router.sessions[s]? = some ⟨selection.accountId, t⟩)
      (fun _ op h hop => ⟨sound_apply h.1 op, binding_apply h.2 hop⟩) ⟨hsound, hbound⟩ hops
  exact choose_of_binding hend hbinding

/-- A session stays with its account while other sessions are served,
another account fails, and the accounts are refreshed. -/
theorem choice_sticks_under_load :
    let after := ((Router.new [listedAccount "a" true, listedAccount "b" true]).choose
      ⟨some "s", "claude"⟩ 0).1
    let ops := [Op.startRequest "a", .choose ⟨some "other", ""⟩ 5, .recordOutcome "b" .unauthorized,
      .replaceAccounts [listedAccount "a" true], .sessionCount 7]
    ∃ account : RouteAccount, (run after ops).accounts["a"]? = some account ∧
      ((run after ops).choose ⟨some "s", ""⟩ 9).2 = .ok ⟨"a", account.provider, true⟩ := by
  obtain ⟨account, haccount, hreused⟩ := choice_sticks
    [listedAccount "a" true, listedAccount "b" true] [] "s" "claude" 0
    ((Router.new [listedAccount "a" true, listedAccount "b" true]).choose
      ⟨some "s", "claude"⟩ 0).1 ⟨"a", "anthropic", false⟩
    [.startRequest "a", .choose ⟨some "other", ""⟩ 5, .recordOutcome "b" .unauthorized,
      .replaceAccounts [listedAccount "a" true], .sessionCount 7] (by decide +kernel)
    ⟨trivial, (by decide : some "other" ≠ some "s"), fun hb => absurd hb (by decide),
      ⟨{ listedAccount "a" true with inFlight := 1 }, by decide +kernel, rfl⟩,
      (by decide : (7 : Int) ≤ 0 + sessionIdleTimeout), trivial⟩
  exact ⟨account, haccount, hreused "" 9 (.inl rfl) (by decide) (by decide)⟩

end Routing

end Llmap
