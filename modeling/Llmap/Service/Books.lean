import Llmap.Admin.Report
import Llmap.Common.Ledger
import Llmap.Service.Control
/-!
# The books

The service keeps two records of what becomes of requests: the counters that
`/metrics` shows, and the rows that the audit history has of them. A request
that is turned away, that cannot be sent or that is answered is counted as
that first, and then written down as that (`handle_phased`); other tasks count
nothing, and write no such rows. A row that SQLite does not insert is lost,
since `handle` goes on without it. So at every moment the two records differ by
the rows that are lost and by what the tasks that are not done have still to
write, and at rest by the lost rows alone (`records_agree`).
-/

namespace Llmap

open Auth Providers Routing Storage

/-! ## How a request ends -/

namespace DataPlane

/-- The ends of a request that are counted and written down. -/
inductive Ending where
  | turnedAway
  | unsent
  | answered
deriving DecidableEq

namespace Ending

/-- The counter of an end. -/
def metric : Ending → Metric
  | .turnedAway => .authenticationFailuresTotal
  | .unsent => .upstreamFailuresTotal
  | .answered => .responsesTotal

/-- The end that an outcome of the audit history tells of. -/
def ofOutcome (outcome : String) : Ending :=
  if outcome = "authentication_failed" then .turnedAway
  else if outcome = "transport_failure" then .unsent
  else .answered

@[simp] theorem ofOutcome_outcomeName (outcome : UpstreamOutcome) :
    ofOutcome (outcomeName outcome) = .answered := by
  cases outcome <;> rfl

end Ending

/-- How far the records of a request are. -/
inductive Phase where
  | unseen
  | counted
  /-- Its end is counted, and not written down. -/
  | ended (ending : Ending)
  | written
deriving DecidableEq

/-- What a step makes of the records. Where clients are only observed, a
failure of theirs is no end. -/
def Phase.next (mode : AuthMode) (phase : Phase) : Op → Phase
  | .count .requestsTotal => .counted
  | .count .authenticationFailuresTotal => if mode = .observe then phase else .ended .turnedAway
  | .count .upstreamFailuresTotal => .ended .unsent
  | .count .responsesTotal => .ended .answered
  | .appendProxyAudit _ => .written
  | _ => phase

/-- When a step is in order: a request is counted once, then its end, and
then that end is written down. -/
def Phase.Allows (phase : Phase) : Op → Prop
  | .count metric => phase = if metric = .requestsTotal then .unseen else .counted
  | .appendProxyAudit record => phase = .ended (.ofOutcome record.outcome)
  | _ => True

/-- **A call that keeps its records in order.** -/
def Phased {α : Type} (mode : AuthMode) (Q : Phase → α → Prop) (phase : Phase) (p : Part α) :
    Prop :=
  p.Follows (fun phase o _ => phase.next mode o) Phase.Allows Q phase

/-- A call may return once what it counted is written down. -/
def Recorded {α : Type} (phase : Phase) (_ : α) : Prop := ∀ ending, phase ≠ .ended ending

theorem recorded_counted {α : Type} (a : α) : Recorded .counted a := nofun

theorem recorded_written {α : Type} (a : α) : Recorded .written a := nofun

section Handle

variable [Codecs] [Serde] [Urls] [Digests] [Chrono]

/-- What is still to be written down of an answer. -/
def Answer.Owed (phase : Phase) (answer : Answer) : Prop :=
  phase = answer.trail.elim .counted fun trail => .ended (.ofOutcome trail.outcome)

omit [Serde] [Urls] [Digests] [Chrono] in
theorem deliver_phased (mode : AuthMode) (ask : Asked) (now : DateTime) (provider : String)
    (account : ProviderAccount) (upstream : UpstreamRequest) :
    Phased mode Answer.Owed .counted (deliver ask now provider account upstream) := by
  refine ⟨trivial, ?_⟩
  rintro (error | _)
  · exact rfl
  · refine ⟨trivial, ?_⟩
    rintro (error | response)
    · exact ⟨trivial, fun _ => ⟨rfl, fun _ => rfl⟩⟩
    · refine ⟨trivial, ?_⟩
      rintro (error | _)
      · exact rfl
      · refine ⟨rfl, fun _ => ?_⟩
        exact congrArg Phase.ended (Ending.ofOutcome_outcomeName _).symm

theorem forward_phased (mode : AuthMode) (request : ProxyRequest) (now : DateTime) :
    Phased mode Answer.Owed .counted (forward request now) := by
  unfold forward
  split
  · exact rfl
  · refine ⟨trivial, ?_⟩
    rintro (error | selection)
    · exact rfl
    · refine ⟨trivial, ?_⟩
      rintro ((_ | _ | _) | ⟨account, credential⟩)
      · exact rfl
      · exact rfl
      · exact rfl
      · dsimp only
        split
        · exact rfl
        · exact deliver_phased mode ..

omit [Codecs] [Serde] [Urls] [Chrono] in
theorem audited_phased (mode : AuthMode) (plane : Plane) (now : DateTime) (decision : AuthDecision)
    {phase : Phase} {answer : Answer} (h : answer.Owed phase) :
    Phased mode Recorded phase (audited plane now decision answer) := by
  unfold audited
  split
  · rename_i htrail
    rw [Answer.Owed, htrail] at h
    rw [h]
    exact recorded_counted answer.result
  · rename_i trail htrail
    rw [Answer.Owed, htrail] at h
    exact ⟨trivial, fun _ => ⟨h, fun _ => recorded_written _⟩⟩

omit [Codecs] [Serde] [Urls] [Chrono] in
/-- A failure is observed where clients are only observed. -/
theorem eq_observe_of_observedFailure {authenticator : Authenticator} {mode : AuthMode}
    {token : Option String} {snapshot : CredentialSnapshot} {now : DateTime}
    {decision : AuthDecision}
    (h : authenticator.authorize mode token snapshot now = .ok decision)
    (hfailure : decision.observedFailure = true) : mode = .observe := by
  unfold Authenticator.authorize at h
  split at h
  · obtain rfl := Except.ok.inj h
    cases hfailure
  · rfl
  · cases h
  · dsimp only at h
    split at h
    · obtain rfl := Except.ok.inj h
      cases hfailure
    · split at h
      · assumption
      · cases h

omit [Codecs] [Serde] [Urls] [Chrono] in
/-- And no client is turned away there. -/
theorem ne_observe_of_authorize {authenticator : Authenticator} {mode : AuthMode}
    {token : Option String} {snapshot : CredentialSnapshot} {now : DateTime} {error : AuthError}
    (h : authenticator.authorize mode token snapshot now = .error error) : mode ≠ .observe := by
  rintro rfl
  cases snapshot with
  | unavailable => cases h
  | available accounts =>
      unfold Authenticator.authorize at h
      dsimp only at h
      split at h <;> cases h

/-- **Every call keeps its records in order**, and returns when they are. -/
theorem handle_phased (plane : Plane) (request : ProxyRequest) :
    Phased plane.authMode Recorded .unseen (handle plane request) := by
  refine ⟨rfl, fun _ => ?_⟩
  dsimp only
  split
  · exact recorded_counted _
  · split
    · exact recorded_counted _
    · refine ⟨trivial, fun now => ⟨trivial, ?_⟩⟩
      rintro (error | snapshot)
      · exact recorded_counted _
      · unfold authorized
        dsimp only
        split
        · rename_i error herror
          refine ⟨rfl, fun _ => ⟨trivial, fun _ => ⟨?_, fun _ => recorded_written _⟩⟩⟩
          exact if_neg (ne_observe_of_authorize herror)
        · rename_i decision hdecision
          have hsent : Phased plane.authMode Recorded .counted
              (forward request now >>= audited plane now decision) :=
            (forward_phased plane.authMode request now).bind fun _ _ howed =>
              audited_phased plane.authMode plane now decision howed
          unfold admitted
          dsimp only
          split
          · rename_i hfailure
            have hobserve := eq_observe_of_observedFailure hdecision hfailure
            refine ⟨rfl, fun _ => ?_⟩
            -- the failure is counted, and the request goes on
            have hstay : Phase.next plane.authMode .counted (.count .authenticationFailuresTotal) =
                .counted := if_pos hobserve
            change Phased plane.authMode Recorded (Phase.next plane.authMode .counted _) _
            rw [hstay]
            exact hsent
          · exact hsent

end Handle

/-! ## What is owed -/

/-- What a step adds to what is counted as an end and not written down. -/
def Op.due (ending : Ending) : Op → ℤ
  | .count metric => if metric = ending.metric then 1 else 0
  | .appendProxyAudit record => if .ofOutcome record.outcome = ending then -1 else 0
  | _ => 0

/-- How much that is. -/
def Phase.due (ending : Ending) : Phase → ℤ
  | .ended other => if other = ending then 1 else 0
  | _ => 0

/-- A step that is in order adds what the records then owe. -/
theorem due_next {mode : AuthMode} {ending : Ending}
    (hending : ending = .turnedAway → mode ≠ .observe) {phase : Phase} {o : Op}
    (h : phase.Allows o) : (phase.next mode o).due ending = phase.due ending + o.due ending := by
  cases o with
  | count metric =>
      obtain rfl : phase = _ := h
      cases metric with
      | authenticationFailuresTotal =>
          by_cases hobserve : mode = .observe
          · have hother : ending ≠ .turnedAway := fun heq => hending heq hobserve
            cases ending <;> simp_all [Phase.next, Phase.due, Op.due, Ending.metric]
          · cases ending <;> simp [Phase.next, Phase.due, Op.due, Ending.metric, hobserve]
      | _ => cases ending <;> simp [Phase.next, Phase.due, Op.due, Ending.metric]
  | appendProxyAudit record =>
      obtain rfl : phase = _ := h
      simp only [Phase.next, Phase.due, Op.due]
      split <;> simp
  | _ => simp [Phase.next, Op.due]

/-- **A call owes at most one row**, and none when it returns. -/
theorem Phased.keeps {α : Type} {mode : AuthMode} {p : Part α} {ending : Ending}
    (hending : ending = .turnedAway → mode ≠ .observe) (h : Phased mode Recorded .unseen p) :
    p.Keeps (Op.due ending) (fun d => 0 ≤ d ∧ d ≤ 1) (fun d _ => d = 0) 0 := by
  refine Prog.Keeps.of_follows (v := Phase.due ending) h
    (fun _ _ _ hallows => due_next hending hallows) ?_ ?_
  · intro phase
    unfold Phase.due
    split
    · split <;> simp
    · simp
  · intro phase _ hrecorded
    unfold Phase.due
    split
    · exact absurd rfl (hrecorded _)
    · rfl

end DataPlane

/-! ## What the two records say -/

namespace Service

open DataPlane (Metric Ending)

/-- The end that a row of the audit history tells of, if it is of a request. -/
def endingOf? (row : AuditRow) : Option Ending :=
  if row.action = "proxy.request" then some (.ofOutcome row.outcome) else none

section Steps

variable [Serde]

/-- How many rows tell of an end. -/
def rowsOf (ending : Ending) (database : Database) : ℕ :=
  database.auditEvents.countP fun row => endingOf? row = some ending

/-- Whether a step counts. -/
def Op.counts (metric : Metric) : Op → Bool
  | .count counted => counted = metric
  | _ => false

/-- Whether a step is to write an end down. -/
def Op.writes (ending : Ending) : Op → Bool
  | .store (.insertAudit row) => endingOf? row = some ending
  | _ => false

/-- Whether a step was to write an end down, and SQLite did not insert it. -/
def loses (ending : Ending) : (o : Op) × o.Resp → Bool
  | ⟨.store (.insertAudit row), .error _⟩ => endingOf? row = some ending
  | _ => false

/-- How many rows of an end are lost in a run. -/
def lostRows {ι : Type} (ending : Ending) (journal : Log ι) : ℕ :=
  journal.countP fun entry => loses ending entry.2

/-- A lost row was to be written. -/
theorem lostRows_le {ι : Type} (ending : Ending) (journal : Log ι) :
    lostRows ending journal ≤ journal.countP fun entry => entry.2.1.writes ending := by
  refine List.countP_mono_left ?_
  rintro ⟨i, event⟩ - hloses
  change loses ending event = true at hloses
  change event.1.writes ending = true
  unfold loses at hloses
  split at hloses
  · exact hloses
  · cases hloses

/-- What a step adds to what is counted as an end and not written down. -/
def Op.due (ending : Ending) (o : Op) : ℤ :=
  (if o.counts ending.metric then 1 else 0) - if o.writes ending then 1 else 0

variable [Sealing] [Urls] [Chrono] [Codecs] [Digests] [Argon2] {ι ω : Type}

omit [Codecs] in
theorem metrics_exec (world : World ω) (setup : Setup) (state : State ω) (o : Op)
    (metric : Metric) : (world.exec setup state o).1.metrics metric =
      state.metrics metric + UInt64.ofNat (if o.counts metric then 1 else 0) := by
  cases o with
  | count counted =>
      by_cases heq : counted = metric
      · subst heq
        simp [World.exec, Op.counts]
      · simp [World.exec, Op.counts, heq, Function.update_of_ne (Ne.symm heq)]
  | _ => simp [World.exec, Op.counts]

omit [Codecs] in
/-- What is to be written down is a new row, or lost. -/
theorem rowsOf_exec (world : World ω) (setup : Setup) (state : State ω) (o : Op)
    (ending : Ending) : rowsOf ending (world.exec setup state o).1.database +
        (if loses ending ⟨o, (world.exec setup state o).2⟩ then 1 else 0) =
      rowsOf ending state.database + if o.writes ending then 1 else 0 := by
  cases o with
  | store s =>
      change rowsOf ending (world.store state s).1.database +
        (if loses ending ⟨.store s, (world.store state s).2⟩ then 1 else 0) = _
      by_cases haudit : ∃ row, s = .insertAudit row
      · obtain ⟨row, rfl⟩ := haudit
        rcases world.store_insertAudit state row with ⟨outside, heq⟩ | ⟨outside, message, heq⟩
        · rw [heq]
          change (state.database.auditEvents ++ [row]).countP _ + 0 = _
          rw [List.countP_append, List.countP_singleton]
          rfl
        · rw [heq]
          rfl
      · have hne : ∀ row, s ≠ .insertAudit row := fun row heq => haudit ⟨row, heq⟩
        have hwrites : (Op.store s).writes ending = false := by
          cases s <;> simp_all [Op.writes]
        have hloses : ∀ r, loses ending ⟨.store s, r⟩ = false := by
          cases s <;> simp_all [loses]
        rw [hwrites, hloses, world.store_of_ne hne]
        exact congrArg (List.countP _) (Admin.audits_exec hne)
  | _ => rfl

omit [Codecs] in
/-- **The records along a journal.** -/
theorem records_journal {world : World ω} {setup : Setup} {state : State ω} {journal : Log ι}
    (h : Journal.Serial (world.exec setup) state journal) (metric : Metric) (ending : Ending) :
    let final := Journal.state (world.exec setup) state journal
    final.metrics metric = state.metrics metric +
        UInt64.ofNat (journal.countP fun entry => entry.2.1.counts metric) ∧
      rowsOf ending final.database + lostRows ending journal = rowsOf ending state.database +
        journal.countP fun entry => entry.2.1.writes ending := by
  refine h.final_induct (I := fun journal final => final.metrics metric = state.metrics metric +
        UInt64.ofNat (journal.countP fun entry => entry.2.1.counts metric) ∧
      rowsOf ending final.database + lostRows ending journal = rowsOf ending state.database +
        journal.countP fun entry => entry.2.1.writes ending) ⟨by simp, by simp [lostRows]⟩ ?_
  rintro past final i o ⟨hmetrics, hrows⟩
  constructor
  · rw [metrics_exec, hmetrics, List.countP_append, List.countP_singleton, UInt64.ofNat_add]
    exact add_assoc ..
  · have hstep := rowsOf_exec world setup final o ending
    rw [lostRows] at hrows ⊢
    rw [List.countP_append, List.countP_append, List.countP_singleton, List.countP_singleton]
    dsimp only
    omega

/-! ## What the tasks owe -/

omit [Urls] [Codecs] [Argon2] in
/-- A request of the data plane comes to what it adds. -/
theorem answered_keeps (setup : Setup) (ending : Ending) (o : DataPlane.Op) :
    (answered setup o).Keeps (Op.due ending) (· = 0) (fun d _ => d = o.due ending) 0 := by
  cases o with
  | count metric =>
      refine ⟨rfl, fun _ => ?_⟩
      simp [Prog.Follows, Op.due, Op.counts, Op.writes, DataPlane.Op.due]
  | appendProxyAudit record =>
      refine ⟨rfl, fun _ => ?_⟩
      simp only [Op.due, Op.counts, Op.writes, DataPlane.Op.due, endingOf?, auditRow,
        proxyAuditEvent, if_true, Option.some.injEq, decide_eq_true_eq]
      split <;> rfl
  | send request =>
      refine .of_obeys (answered_serves setup (.send request)) ?_ rfl fun _ => rfl
      rintro _ ⟨step, rfl⟩
      rfl
  | now | elapsed | credentialSnapshot | choose | loadAccount | startRequest | recordOutcome =>
      refine .of_obeys (answered_serves setup _) ?_ rfl fun _ => rfl
      rintro _ rfl
      rfl

omit [Sealing] [Urls] [Chrono] [Codecs] [Digests] [Argon2] in
/-- The steps of the other tasks add nothing. -/
theorem due_of_controls (ending : Ending) {o : Op} (h : o.Controls) : o.due ending = 0 := by
  have hcounts : o.counts ending.metric = false := by
    cases o with
    | count => exact h.elim
    | _ => rfl
  have hwrites : o.writes ending = false := by
    cases o with
    | store s =>
        cases s with
        | insertAudit row =>
            have haction : row.action ≠ "proxy.request" := by
              intro heq
              have hmem : row.action ∈ Admin.auditActions := h
              simp [heq, Admin.auditActions] at hmem
            simp [Op.writes, endingOf?, haction]
        | _ => rfl
    | _ => rfl
  simp [Op.due, hcounts, hwrites]

omit [Argon2] in
/-- **A task owes at most one row**, and none when it is done. -/
theorem task_keeps (setup : Setup) (task : Task) {ending : Ending}
    (hending : ending = .turnedAway → setup.plane.authMode ≠ .observe) :
    (task.prog setup).Keeps (Op.due ending) (fun d => 0 ≤ d ∧ d ≤ 1) (fun d _ => d = 0) 0 := by
  cases hproxies : task.proxies with
  | false =>
      refine .of_obeys (task_controls setup hproxies) (fun _ => due_of_controls ending) ?_
        fun _ => rfl
      exact ⟨le_rfl, zero_le_one⟩
  | true =>
      rcases Task.prog_cases setup hproxies with ⟨answer, hprog⟩ | ⟨request, f, -, hprog⟩
      · rw [hprog]
        exact rfl
      · rw [hprog]
        exact (((DataPlane.handle_phased setup.plane request).keeps hending).subst
          (answered_keeps setup ending)).bind fun _ _ hnone => hnone

/-- **The two records agree.** Whatever tasks there are and however their steps
interleave: a counter has gone up by as many as were counted, and the audit
history has so many new rows of that end. With the rows that SQLite did not
insert they are no more than were counted, and no fewer but for what the tasks
that are not done have still to write, one each at most. Where clients are only
observed, nothing is written of those that would be turned away. -/
theorem records_agree [DecidableEq ι] (world : World ω) (setup : Setup) (state : State ω)
    (tasks : ι → Task) (schedule : List ι) (ending : Ending)
    (hending : ending = .turnedAway → setup.plane.authMode ≠ .observe) :
    let final := Run.final (Pool.turn (world.exec setup)) (opening setup tasks state) schedule
    let lost := lostRows ending ((opening setup tasks state).journal (world.exec setup) schedule)
    ∃ counted written : ℕ,
      final.shared.metrics ending.metric =
        state.metrics ending.metric + UInt64.ofNat counted ∧
      rowsOf ending final.shared.database = rowsOf ending state.database + written ∧
      written + lost ≤ counted ∧
      counted ≤ written + lost +
        (schedule.toFinset.filter fun i => (final.procs i).returned = false).card := by
  intro final lost
  obtain ⟨hserial, hstate⟩ := (opening setup tasks state).journal_serial (world.exec setup) schedule
  obtain ⟨hmetrics, hrows⟩ := records_journal hserial ending.metric ending
  rw [← hstate] at hmetrics hrows
  have hlost := lostRows_le ending
    ((opening setup tasks state).journal (world.exec setup) schedule)
  refine ⟨_, _, hmetrics, Nat.eq_sub_of_add_eq hrows |>.trans (Nat.add_sub_assoc hlost _), ?_⟩
  change lost ≤ _ at hlost
  set journal := (opening setup tasks state).journal (world.exec setup) schedule
  -- what is counted and not written is what the tasks owe
  have hsplit : weigh (Op.due ending) (journal.map Prod.snd) =
      (journal.countP fun entry => entry.2.1.counts ending.metric : ℕ) -
        (journal.countP fun entry => entry.2.1.writes ending : ℕ) := by
    unfold Op.due
    rw [weigh_sub, weigh_ite, weigh_ite, List.countP_map, List.countP_map]
    rfl
  have hbounds := Pool.weigh_journal_bounds (world.exec setup) (opening setup tasks state) schedule
    fun i => task_keeps setup (tasks i) hending
  rw [hsplit] at hbounds
  obtain ⟨hlow, hhigh⟩ := hbounds
  change _ ≤ ((schedule.toFinset.filter fun i =>
    (final.procs i).returned = false).card : ℤ) at hhigh
  change _ - lost + lost ≤ _ ∧ _ ≤ _ - lost + lost + _
  rw [Nat.sub_add_cancel hlost]
  omega

end Steps

section Stranger

open scoped Plain

/-- A client with the key of the one account, and one with another. -/
def keyAndOther (known : Bool) : Task := askingModels (if known then "key" else "other")

/-- Both are served, one after the other, until they are done. -/
def bothServed : Process Bool Unit :=
  Run.final (Pool.turn (World.still.exec Setup.plain))
    (opening Setup.plain keyAndOther (.fresh oneRow))
    (List.replicate 20 true ++ List.replicate 20 false)

/-- One is turned away: it is counted once, since it is written down once. -/
theorem records_agree_stranger : Setup.plain.plane.authMode ≠ .observe ∧
    rowsOf .turnedAway bothServed.shared.database = 1 ∧
    bothServed.shared.metrics .authenticationFailuresTotal = 1 := by
  have hmode : Setup.plain.plane.authMode ≠ .observe := nofun
  have hrow : rowsOf .turnedAway bothServed.shared.database = 1 := by decide +kernel
  have hdone : ∀ known, (bothServed.procs known).returned = true := by decide +kernel
  obtain ⟨counted, written, hmetrics, hrows, hle, hge⟩ :=
    records_agree World.still Setup.plain (.fresh oneRow) keyAndOther
      (List.replicate 20 true ++ List.replicate 20 false) .turnedAway fun _ => hmode
  change bothServed.shared.metrics .authenticationFailuresTotal = _ at hmetrics
  change rowsOf .turnedAway bothServed.shared.database = _ at hrows
  change counted ≤ written + _ +
    (Finset.filter (fun known => (bothServed.procs known).returned = false) _).card at hge
  have hlost : lostRows .turnedAway ((opening Setup.plain keyAndOther (.fresh oneRow)).journal
      (World.still.exec Setup.plain) (List.replicate 20 true ++ List.replicate 20 false)) = 0 := by
    decide +kernel
  have hwritten : written = 1 := by
    have hnone : rowsOf .turnedAway (State.fresh oneRow).database = 0 := by decide +kernel
    omega
  have hcounted : counted = 1 := by
    simp only [hdone, Bool.true_eq_false, Finset.filter_false, Finset.card_empty] at hge
    omega
  rw [hcounted] at hmetrics
  exact ⟨hmode, hrow, hmetrics⟩

end Stranger

end Service

end Llmap
