import Llmap.Routing.Sticky
/-!
# Counting the sessions

`session_count` drops the bindings that have been idle too long, so the
monitoring that calls it changes the router. Nothing else does anything with
such a binding but drop it: two routers with the same accounts and the same
bindings in use (`SameLive`) give the same answers and stay that way, as long
as time does not go back. So a run with any number of counts in it gives the
answers of the run without them (`routedAnswers_of_monitored`).
-/

namespace Llmap

namespace Routing

/-- What an operation answers. -/
inductive Answer where
  | selection (result : Except RouteError RouteSelection)
  | done (result : Except RouteError Unit)
  | replaced
  | count (sessions : ℕ)

/-- The answer an operation gives. -/
def Op.answer (router : Router) : Op → Answer
  | .choose request now => .selection (router.choose request now).2
  | .startRequest accountId => .done (router.startRequest accountId).2
  | .recordOutcome accountId outcome => .done (router.recordOutcome accountId outcome).2
  | .replaceAccounts _ => .replaced
  | .resetAccountHealth accountId => .done (router.resetAccountHealth accountId).2
  | .sessionCount now => .count (router.sessionCount now).2

/-- A count of the sessions. -/
def Op.isCount : Op → Bool
  | .sessionCount _ => true
  | _ => false

/-- The answers of a run, without those of the counts. -/
def routedAnswers (router : Router) : List Op → List Answer
  | [] => []
  | op :: ops =>
      if op.isCount then routedAnswers (op.apply router) ops
      else op.answer router :: routedAnswers (op.apply router) ops

/-- **A monitored run**: counts are inserted, any number of them at any
positions. -/
inductive Monitored : List Op → List Op → Prop where
  | nil : Monitored [] []
  | keep (op : Op) {ops monitored : List Op} (h : Monitored ops monitored) :
      Monitored (op :: ops) (op :: monitored)
  | insert (now : DateTime) {ops monitored : List Op} (h : Monitored ops monitored) :
      Monitored ops (.sessionCount now :: monitored)

/-- The instant an operation is given. -/
def Op.now? : Op → Option DateTime
  | .choose _ now => some now
  | .sessionCount now => some now
  | _ => none

/-- Time does not go back in a run. -/
def Timely (ops : List Op) : Prop := (ops.filterMap Op.now?).Pairwise (· ≤ ·)

instance (ops : List Op) : Decidable (Timely ops) :=
  inferInstanceAs (Decidable (List.Pairwise _ _))

/-! ## Bindings in use -/

/-- A binding that has not been idle too long. -/
def SessionBinding.Live (binding : SessionBinding) (now : DateTime) : Prop :=
  now ≤ binding.lastSeenAt + sessionIdleTimeout

instance (binding : SessionBinding) (now : DateTime) : Decidable (binding.Live now) :=
  inferInstanceAs (Decidable (_ ≤ _))

/-- **Two routers with the same bindings in use**, and the same accounts. -/
structure SameLive (now : DateTime) (left right : Router) : Prop where
  accounts_eq : left.accounts = right.accounts
  live_iff (session : String) (binding : SessionBinding) (hlive : binding.Live now) :
    left.sessions[session]? = some binding ↔ right.sessions[session]? = some binding

namespace SameLive

variable {now later : DateTime} {left right : Router}

theorem refl (now : DateTime) (router : Router) : SameLive now router router :=
  ⟨rfl, fun _ _ _ => Iff.rfl⟩

theorem symm (h : SameLive now left right) : SameLive now right left :=
  ⟨h.accounts_eq.symm, fun session binding hlive => (h.live_iff session binding hlive).symm⟩

/-- What is in use later has been in use. -/
theorem mono (h : SameLive now left right) (hle : now ≤ later) : SameLive later left right :=
  ⟨h.accounts_eq, fun session binding hlive => h.live_iff session binding (hle.trans hlive)⟩

/-- Keeping the bindings of one kind keeps the same of those in use. -/
theorem filter (h : SameLive now left right) (accounts : Table String RouteAccount)
    (p : String → SessionBinding → Bool) :
    SameLive now ⟨accounts, left.sessions.filter p⟩ ⟨accounts, right.sessions.filter p⟩ := by
  refine ⟨rfl, fun session binding hlive => ?_⟩
  simp only [Std.ExtTreeMap.getElem?_filter', Option.filter_eq_some_iff,
    h.live_iff session binding hlive]

/-- Changing the accounts alone. -/
theorem of_accounts (h : SameLive now left right) (accounts : Table String RouteAccount) :
    SameLive now ⟨accounts, left.sessions⟩ ⟨accounts, right.sessions⟩ :=
  ⟨rfl, h.live_iff⟩

/-- Routers with the same accounts that agree on one session, and on the
bindings in use of the others. -/
theorem of_session {left' right' : Router} (h : SameLive now left right) (session : String)
    (haccounts : left'.accounts = right'.accounts)
    (hsession : left'.sessions[session]? = right'.sessions[session]?)
    (hleft : ∀ session' ≠ session, left'.sessions[session']? = left.sessions[session']?)
    (hright : ∀ session' ≠ session, right'.sessions[session']? = right.sessions[session']?) :
    SameLive now left' right' := by
  refine ⟨haccounts, fun session' binding hlive => ?_⟩
  by_cases heq : session' = session
  · rw [heq, hsession]
  · rw [hleft session' heq, hright session' heq]
    exact h.live_iff session' binding hlive

/-- The binding of a session, if it is in use, is the same. -/
theorem filter_live_eq (h : SameLive now left right) (session : String) :
    left.sessions[session]?.filter (fun binding =>
        now ≤ binding.lastSeenAt + sessionIdleTimeout) =
      right.sessions[session]?.filter fun binding =>
        now ≤ binding.lastSeenAt + sessionIdleTimeout := by
  refine Option.ext fun binding => ?_
  rw [Option.filter_eq_some_iff, Option.filter_eq_some_iff]
  exact and_congr_left fun hlive => h.live_iff session binding (decide_eq_true_eq.mp hlive)

/-! ## One operation -/

/-- A fresh account does not depend on the sessions, and is bound the same
way. -/
theorem chooseFresh (h : SameLive now left right) (request : RouteRequest) :
    (left.chooseFresh request now).2 = (right.chooseFresh request now).2 ∧
      SameLive now (left.chooseFresh request now).1 (right.chooseFresh request now).1 := by
  have hfresh : left.freshAccount request.model now = right.freshAccount request.model now := by
    simp only [Router.freshAccount, h.accounts_eq]
  simp only [Router.chooseFresh, hfresh]
  cases right.freshAccount request.model now with
  | none => exact ⟨rfl, h⟩
  | some account =>
      refine ⟨rfl, ?_⟩
      cases request.sessionId with
      | none => exact ⟨h.accounts_eq, h.live_iff⟩
      | some session =>
          refine h.of_session session h.accounts_eq ?_ (fun session' hne => ?_)
            fun session' hne => ?_
          · simp
          · simp [Std.ExtTreeMap.getElem?_insert, Ne.symm hne]
          · simp [Std.ExtTreeMap.getElem?_insert, Ne.symm hne]

/-- **A choice treats an idle binding like an absent one.** -/
theorem choose (h : SameLive now left right) (request : RouteRequest) :
    (left.choose request now).2 = (right.choose request now).2 ∧
      SameLive now (left.choose request now).1 (right.choose request now).1 := by
  unfold Router.choose
  cases request.sessionId with
  | none => exact h.chooseFresh request
  | some session =>
      have hsticky : left.stickyAccount session request.model now =
          right.stickyAccount session request.model now := by
        simp only [Router.stickyAccount, h.filter_live_eq session, h.accounts_eq]
      simp only [hsticky]
      cases haccount : right.stickyAccount session request.model now with
      | none =>
          have hdropped : SameLive now { left with sessions := left.sessions.erase session }
              { right with sessions := right.sessions.erase session } := by
            refine h.of_session session h.accounts_eq ?_ (fun session' hne => ?_)
              fun session' hne => ?_
            · simp
            · simp [Std.ExtTreeMap.getElem?_erase, Ne.symm hne]
            · simp [Std.ExtTreeMap.getElem?_erase, Ne.symm hne]
          exact hdropped.chooseFresh request
      | some account =>
          -- the binding is in use, and so the same in both
          simp only [Router.stickyAccount, Option.filter_eq_some_iff,
            Option.bind_eq_some_iff] at haccount
          obtain ⟨⟨binding, ⟨hright, hlive⟩, -⟩, -⟩ := haccount
          have hleft := (h.live_iff session binding (decide_eq_true_eq.mp hlive)).mpr hright
          refine ⟨rfl, h.of_session session h.accounts_eq ?_ (fun session' hne => ?_)
            fun session' hne => ?_⟩
          · simp [hleft, hright]
          · simp [Std.ExtTreeMap.getElem?_modify, Ne.symm hne]
          · simp [Std.ExtTreeMap.getElem?_modify, Ne.symm hne]

/-- **Every operation but a count** gives the same answer, and leaves the same
bindings in use. -/
theorem apply (h : SameLive now left right) {op : Op} (hcount : op.isCount = false)
    (hnow : ∀ instant ∈ op.now?, instant = now) :
    op.answer left = op.answer right ∧ SameLive now (op.apply left) (op.apply right) := by
  cases op with
  | choose request instant =>
      obtain rfl : instant = now := hnow instant rfl
      obtain ⟨hsame, hlive⟩ := h.choose request
      exact ⟨congrArg Answer.selection hsame, hlive⟩
  | startRequest accountId =>
      simp only [Op.answer, Op.apply, Router.startRequest, h.accounts_eq]
      cases right.accounts[accountId]? with
      | none => exact ⟨rfl, h⟩
      | some account => exact ⟨rfl, h.of_accounts _⟩
  | recordOutcome accountId outcome =>
      simp only [Op.answer, Op.apply, Router.recordOutcome, h.accounts_eq]
      cases right.accounts[accountId]? with
      | none => exact ⟨rfl, h⟩
      | some account =>
          refine ⟨rfl, ?_⟩
          by_cases hsuccess : outcome = .success
          · simp only [if_pos hsuccess]
            exact h.of_accounts _
          · simp only [if_neg hsuccess]
            exact h.filter _ _
  | replaceAccounts accounts =>
      refine ⟨rfl, ?_⟩
      have hreplacement : left.replacement accounts = right.replacement accounts := by
        simp only [Router.replacement, h.accounts_eq]
      simp only [Op.apply, Router.replaceAccounts, hreplacement]
      exact h.filter _ _
  | resetAccountHealth accountId =>
      simp only [Op.answer, Op.apply, Router.resetAccountHealth, h.accounts_eq]
      cases right.accounts[accountId]? with
      | none => exact ⟨rfl, h⟩
      | some account => exact ⟨rfl, h.filter _ _⟩
  | sessionCount instant => cases hcount

/-- A count drops nothing that is in use. -/
theorem sessionCount (now : DateTime) (router : Router) :
    SameLive now (router.sessionCount now).1 router := by
  refine ⟨rfl, fun session binding hlive => ?_⟩
  simp only [Router.sessionCount, Router.liveSessions, Std.ExtTreeMap.getElem?_filter',
    Option.filter_eq_some_iff]
  exact and_iff_left (decide_eq_true_eq.mpr hlive)

theorem trans {middle : Router} (h : SameLive now left middle) (h' : SameLive now middle right) :
    SameLive now left right :=
  ⟨h.accounts_eq.trans h'.accounts_eq, fun session binding hlive =>
    (h.live_iff session binding hlive).trans (h'.live_iff session binding hlive)⟩

/-- A count retains the same bindings. -/
theorem liveSessions_eq (h : SameLive now left right) :
    left.liveSessions now = right.liveSessions now := by
  refine Std.ExtTreeMap.ext_getElem? fun session => ?_
  simp only [Router.liveSessions, Std.ExtTreeMap.getElem?_filter']
  exact h.filter_live_eq session

end SameLive

/-! ## Runs -/

variable {router left right : Router} {ops monitored : List Op} {now : DateTime}

/-- The instants of a run, from one on. -/
def instantsFrom (now : DateTime) (ops : List Op) : List DateTime := now :: ops.filterMap Op.now?

/-- An operation moves time on to its own instant. -/
theorem exists_instant {op : Op} (h : (instantsFrom now (op :: ops)).Pairwise (· ≤ ·)) :
    ∃ later, now ≤ later ∧ (∀ instant ∈ op.now?, instant = later) ∧
      (instantsFrom later ops).Pairwise (· ≤ ·) ∧
      instantsFrom later ops ⊆ instantsFrom now (op :: ops) := by
  cases hnow : op.now? with
  | none =>
      rw [instantsFrom, List.filterMap_cons_none hnow] at h ⊢
      exact ⟨now, le_rfl, by simp, h, List.Subset.refl _⟩
  | some later =>
      rw [instantsFrom, List.filterMap_cons_some hnow] at h ⊢
      rw [List.pairwise_cons] at h
      exact ⟨later, h.1 later List.mem_cons_self, fun instant hi => (Option.some.inj hi).symm, h.2,
        List.subset_cons_self _ _⟩

/-- **Counts do not disturb a run.** From routers with the same bindings in
use, a run and a monitored one give the same answers, and at the end the same
bindings are in use. -/
theorem routedAnswers_of_monitored (hm : Monitored ops monitored) (h : SameLive now left right)
    (htimely : (instantsFrom now monitored).Pairwise (· ≤ ·)) :
    routedAnswers left ops = routedAnswers right monitored ∧
      ∃ last ∈ instantsFrom now monitored,
        SameLive last (run left ops) (run right monitored) := by
  induction hm generalizing now left right with
  | nil => exact ⟨rfl, now, List.mem_cons_self, h⟩
  | @keep op ops monitored hm ih =>
      obtain ⟨instant, hle, hop, hrest, hsub⟩ := exists_instant htimely
      have hsame := h.mono hle
      cases hcount : op.isCount with
      | false =>
          obtain ⟨hanswer, hnext⟩ := hsame.apply hcount hop
          obtain ⟨hanswers, last, hlast, hlive⟩ := ih hnext hrest
          refine ⟨?_, last, hsub hlast, hlive⟩
          simp only [routedAnswers, hcount, hanswer, hanswers, Bool.false_eq_true, if_false]
      | true =>
          have hnext : SameLive instant (op.apply left) (op.apply right) := by
            cases op with
            | sessionCount counted =>
                obtain rfl : counted = instant := hop counted rfl
                exact ((SameLive.sessionCount counted left).trans hsame).trans
                  (SameLive.sessionCount counted right).symm
            | _ => cases hcount
          obtain ⟨hanswers, last, hlast, hlive⟩ := ih hnext hrest
          refine ⟨?_, last, hsub hlast, hlive⟩
          simp only [routedAnswers, hcount, hanswers, if_true]
  | @insert counted ops monitored hm ih =>
      obtain ⟨instant, hle, hop, hrest, hsub⟩ := exists_instant htimely
      obtain rfl : counted = instant := hop counted rfl
      have hnext := (h.mono hle).trans (SameLive.sessionCount counted right).symm
      obtain ⟨hanswers, last, hlast, hlive⟩ := ih hnext hrest
      exact ⟨hanswers, last, hsub hlast, hlive⟩

/-- Without its counts, a run is what it was before they were inserted. -/
theorem monitored_filter (ops : List Op) : Monitored (ops.filter (!·.isCount)) ops := by
  induction ops with
  | nil => exact .nil
  | cons op ops ih =>
      cases op with
      | sessionCount now => exact .insert now ih
      | _ => exact .keep _ ih

/-- Time starts with the first instant of a run. -/
theorem exists_start (h : Timely ops) : ∃ start, (instantsFrom start ops).Pairwise (· ≤ ·) := by
  unfold instantsFrom
  unfold Timely at h
  cases hinstants : ops.filterMap Op.now? with
  | nil => exact ⟨0, List.pairwise_singleton _ _⟩
  | cons first rest =>
      rw [hinstants] at h
      refine ⟨first, List.pairwise_cons.mpr ⟨fun instant hi => ?_, h⟩⟩
      rcases List.mem_cons.mp hi with rfl | hmem
      · exact le_rfl
      · exact (List.pairwise_cons.mp h).1 instant hmem

/-- **The sessions that count**: they have a binding, which was last used at
most 30 minutes ago. -/
def liveSet (router : Router) (now : DateTime) : Set String :=
  {session | ∃ binding : SessionBinding, router.sessions[session]? = some binding ∧
    binding.Live now}

theorem sessionCount_eq_ncard (router : Router) (now : DateTime) :
    (router.sessionCount now).2 = (liveSet router now).ncard := by
  change (router.liveSessions now).size = _
  rw [Table.size_eq_ncard]
  congr 1
  ext session
  change session ∈ router.liveSessions now ↔ _
  rw [Std.ExtTreeMap.mem_iff_isSome_getElem?, Option.isSome_iff_exists]
  simp only [Router.liveSessions, Std.ExtTreeMap.getElem?_filter', Option.filter_eq_some_iff,
    decide_eq_true_eq]
  rfl

/-- A count in a run is of the bindings there would be without any count. -/
theorem sessionCount_of_timely {before : List Op}
    (htimely : Timely (before ++ [.sessionCount now])) :
    ((run router before).sessionCount now).2 =
      (liveSet (run router (before.filter (!·.isCount))) now).ncard := by
  obtain ⟨start, hstart⟩ := exists_start htimely
  have hinstants : instantsFrom start (before ++ [.sessionCount now]) =
      instantsFrom start before ++ [now] := by
    simp [instantsFrom, List.filterMap_append, Op.now?]
  rw [hinstants, List.pairwise_append] at hstart
  obtain ⟨-, last, hlast, hlive⟩ := routedAnswers_of_monitored (monitored_filter before)
    (SameLive.refl start router) hstart.1
  have hle : last ≤ now := hstart.2.2 last hlast now List.mem_cons_self
  rw [← sessionCount_eq_ncard]
  exact congrArg Std.ExtTreeMap.size (hlive.mono hle).liveSessions_eq.symm

/-- **Monitoring does not disturb routing.** In a run in which time does not
go back, any number of counts may be inserted at any positions that fit the
order: every other operation answers as before, and a count is the number of
the sessions that are bound in the run without counts and were last used at
most 30 minutes ago. -/
theorem monitoring_undisturbed (router : Router) {ops monitored : List Op}
    (hm : Monitored ops monitored) (htimely : Timely monitored) :
    routedAnswers router monitored = routedAnswers router ops ∧
      ∀ (before : List Op) (now : DateTime), before ++ [.sessionCount now] <+: monitored →
        ((run router before).sessionCount now).2 =
          (liveSet (run router (before.filter (!·.isCount))) now).ncard := by
  obtain ⟨start, hstart⟩ := exists_start htimely
  refine ⟨(routedAnswers_of_monitored hm (SameLive.refl start router) hstart).1.symm,
    fun before now hbefore => sessionCount_of_timely ?_⟩
  exact htimely.sublist (hbefore.sublist.filterMap Op.now?)

/-! ## A session that comes back -/

/-- One account, and a session that uses it, is idle for 31 minutes and comes
back. -/
def comingBack : List Op :=
  [.choose ⟨some "s", ""⟩ 0, .choose ⟨some "s", ""⟩ (minutes 31)]

/-- The same with counts on the way, at the end of the 30 minutes and after
it. -/
def comingBackMonitored : List Op :=
  [.choose ⟨some "s", ""⟩ 0, .sessionCount (minutes 30), .sessionCount (minutes 30 + 1),
    .choose ⟨some "s", ""⟩ (minutes 31)]

theorem monitoring_undisturbed_comingBack :
    let router := Router.new [⟨"a", "anthropic", true, true, 0, 0, ∅, none⟩]
    Monitored comingBack comingBackMonitored ∧ Timely comingBackMonitored ∧
      routedAnswers router comingBackMonitored = routedAnswers router comingBack ∧
      ((run router (comingBackMonitored.take 1)).sessionCount (minutes 30)).2 = 1 ∧
      ((run router (comingBackMonitored.take 2)).sessionCount (minutes 30 + 1)).2 = 0 ∧
      (liveSet (run router [.choose ⟨some "s", ""⟩ 0]) (minutes 30 + 1)).ncard = 0 := by
  intro router
  have hm : Monitored comingBack comingBackMonitored :=
    .keep _ (.insert _ (.insert _ (.keep _ .nil)))
  have htimely : Timely comingBackMonitored := by decide
  obtain ⟨hanswers, hcounts⟩ := monitoring_undisturbed router hm htimely
  have hlate : ((run router (comingBackMonitored.take 2)).sessionCount (minutes 30 + 1)).2 = 0 := by
    decide +kernel
  refine ⟨hm, htimely, hanswers, by decide +kernel, hlate, ?_⟩
  have hcount := hcounts (comingBackMonitored.take 2) (minutes 30 + 1)
    (by simp [comingBackMonitored])
  exact hcount.symm.trans hlate

end Routing

end Llmap
