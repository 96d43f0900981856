import Llmap.DataPlane.Slots
import Llmap.Routing.Selection
/-!
# Balance

`handle` chooses the least loaded account and counts itself in under
another acquisition of the router's lock, after it has loaded and prepared
the account. Calls that choose before the first of them has started see
the same counters and choose the same account
(`two_calls_choose_one_account`).

When a call chooses only after everyone who has chosen has started, each
start goes to an account with the least load, and the counters of
accounts that are equally eligible never differ by more than one
(`balanced_when_serial`). Utilisation does not matter for that: it only
decides between accounts of the same load.
-/

namespace Llmap

namespace DataPlane

open Auth Providers Routing Storage

/-- The account that a call has chosen and not started. -/
def target {α : Type} (p : Part α) : Option String :=
  p.next?.bind fun
    | .loadAccount accountId | .startRequest accountId => some accountId
    | _ => none

/-- Whether a step chooses an account. -/
def Op.chooses : Op → Bool
  | .choose .. => true
  | _ => false

/-- **Accounts that are equally eligible** for a request at an instant:
when an account is eligible, it is one of them, and all of them are. -/
def EquallyEligible (ids : Set String) (router : Router) (model : String) (now : DateTime) : Prop :=
  ∀ (id : String) (account : RouteAccount), router.accounts[id]? = some account →
    eligible account model now = true → id ∈ ids ∧
      ∀ id' ∈ ids, ∀ account' : RouteAccount, router.accounts[id']? = some account' →
        eligible account' model now = true

instance (ids : Set String) [DecidablePred (· ∈ ids)] (router : Router) (model : String)
    (now : DateTime) : Decidable (EquallyEligible ids router model now) :=
  decidable_of_iff (∀ entry ∈ router.accounts.toList, eligible entry.2 model now = true →
      entry.1 ∈ ids ∧ ∀ entry' ∈ router.accounts.toList, entry'.1 ∈ ids →
        eligible entry'.2 model now = true) <| by
    simp only [Prod.forall, Std.ExtTreeMap.mem_toList_iff_getElem?_eq_some, EquallyEligible]
    refine forall_congr' fun id => forall_congr' fun account => ?_
    refine imp_congr_right fun _ => imp_congr_right fun _ => and_congr_right fun _ => ?_
    exact forall_congr' fun id' => ⟨fun h hid' account' ha => h account' ha hid',
      fun h account' ha hid' => h hid' account' ha⟩

/-- The counters of accounts differ by one at most. -/
def Balanced (ids : Set String) (router : Router) : Prop :=
  ∀ id ∈ ids, ∀ id' ∈ ids, ∀ n ∈ inFlight? router id, ∀ m ∈ inFlight? router id', n ≤ m + 1

/-- An account with the least load. -/
def LeastOf (ids : Set String) (router : Router) (id : String) : Prop :=
  ∀ id' ∈ ids, ∀ n ∈ inFlight? router id, ∀ m ∈ inFlight? router id', n ≤ m

/-- Calls of `handle` that share a router. -/
abbrev Calls (ι ω : Type) := Pool ι (Shared ω) Op Op.Resp (Except DataPlaneError ProxyResponse)

namespace Calls

variable {ι ω : Type} [DecidableEq ι] (world : World ω)

/-- **The setting**, for the step a call makes: it chooses without a
session among accounts that are equally eligible, passes preparation, and
records no outcome. -/
def SettingAt (ids : Set String) (calls : Calls ι ω) (i : ι) : Op → Prop
  | .choose request now =>
      request.sessionId = none ∧ EquallyEligible ids calls.shared.router request.model now
  | .loadAccount id => ((calls.turn world.exec i).procs i).next? = some (.startRequest id)
  | .recordOutcome .. => False
  | _ => True

instance (ids : Set String) [DecidablePred (· ∈ ids)] (calls : Calls ι ω) (i : ι) :
    (o : Op) → Decidable (calls.SettingAt world ids i o)
  | .choose _ _ => inferInstanceAs (Decidable (_ ∧ _))
  | .loadAccount _ => inferInstanceAs (Decidable (_ = _))
  | .recordOutcome .. => .isFalse id
  | .count _ | .now | .elapsed | .credentialSnapshot _ | .startRequest _ | .send _
  | .appendProxyAudit _ => .isTrue trivial

/-- Every call keeps to the setting. -/
def Setting (ids : Set String) (calls : Calls ι ω) (i : ι) : Prop :=
  ∀ o ∈ (calls.procs i).next?, calls.SettingAt world ids i o

instance (ids : Set String) [DecidablePred (· ∈ ids)] (calls : Calls ι ω) (i : ι) :
    Decidable (calls.Setting world ids i) :=
  inferInstanceAs (Decidable (∀ o ∈ (calls.procs i).next?, calls.SettingAt world ids i o))

/-- **One at a time**: a call chooses when everyone who has chosen has
started. -/
def Serial (calls : Calls ι ω) (i : ι) : Prop :=
  ∀ o ∈ (calls.procs i).next?, o.chooses = true → ∀ j, target (calls.procs j) = none

instance [Fintype ι] (calls : Calls ι ω) (i : ι) : Decidable (calls.Serial i) :=
  inferInstanceAs (Decidable (∀ o ∈ (calls.procs i).next?,
    o.chooses = true → ∀ j, target (calls.procs j) = none))

end Calls

/-! ## The least loaded account -/

theorem leastLoaded_le {accounts : List RouteAccount} {best account : RouteAccount}
    (h : leastLoaded accounts = some best) (hmem : account ∈ accounts) :
    best.inFlight.toNat ≤ account.inFlight.toNat := by
  have hrank := leastLoaded_le_rank h account hmem
  rcases Prod.Lex.toLex_le_toLex.mp hrank with hlt | ⟨heq, -⟩
  · exact hlt.le
  · exact heq.le

/-- **A choice without a session has the least load** of the accounts that
are equally eligible. -/
theorem choose_leastOf {ids : Set String} {router : Router} (hsound : router.Sound)
    {request : RouteRequest} {now : DateTime} {selection : RouteSelection}
    (hsession : request.sessionId = none) (hequal : EquallyEligible ids router request.model now)
    (h : (router.choose request now).2 = .ok selection) :
    LeastOf ids router selection.accountId := by
  have hchosen : (router.chooseFresh request now).2 = .ok selection := by
    rwa [Router.choose, hsession] at h
  unfold Router.chooseFresh at hchosen
  split at hchosen
  · cases hchosen
  · rename_i best hbest
    obtain rfl := Except.ok.inj hchosen
    obtain ⟨hpresent, helig⟩ := freshAccount_spec hsound.stored hbest
    intro id' hid' n hn m hm
    obtain ⟨account, haccount, rfl⟩ := Option.map_eq_some_iff.mp hn
    obtain ⟨account', haccount', rfl⟩ := Option.map_eq_some_iff.mp hm
    obtain rfl : best = account := Option.some.inj (hpresent.symm.trans haccount)
    refine leastLoaded_le hbest (List.mem_filter.mpr ⟨?_, ?_⟩)
    · exact List.mem_map.mpr ⟨(id', account'),
        Std.ExtTreeMap.mem_toList_iff_getElem?_eq_some.mpr haccount', rfl⟩
    · exact (hequal _ best hpresent helig).2 id' hid' account' haccount'

/-! ## A start -/

theorem inFlight?_startRequest_bounds (router : Router) (id : String) {n : ℕ}
    (h : n ∈ inFlight? (router.startRequest id).1 id) :
    ∃ before ∈ inFlight? router id, before ≤ n ∧ n ≤ before + 1 := by
  unfold Router.startRequest at h
  split at h
  · exact ⟨n, h, by omega, by omega⟩
  · rename_i account haccount
    rw [Option.mem_def, inFlight?_insert, if_pos rfl] at h
    obtain rfl := Option.some.inj h
    refine ⟨account.inFlight.toNat, ?_, ?_⟩
    · simp [inFlight?, haccount]
    · by_cases hroom : account.inFlight.toNat + 1 < 2 ^ 32
      · rw [toNat_saturatingSucc hroom]
        omega
      · rw [saturatingSucc_of_full hroom]
        exact ⟨le_rfl, Nat.le_succ _⟩

theorem inFlight?_startRequest_of_ne (router : Router) {id id' : String} (h : id ≠ id') :
    inFlight? (router.startRequest id).1 id' = inFlight? router id' := by
  unfold Router.startRequest
  split
  · rfl
  · rw [inFlight?_insert, if_neg h]

/-- **A start at the least load keeps the balance.** -/
theorem Balanced.startRequest {ids : Set String} {router : Router} (h : Balanced ids router)
    {id : String} (hleast : LeastOf ids router id) :
    Balanced ids (router.startRequest id).1 := by
  intro x hx y hy n hn m hm
  by_cases hxid : id = x
  · subst hxid
    by_cases hyid : id = y
    · subst hyid
      obtain rfl : n = m := Option.some.inj (hn.symm.trans hm)
      omega
    · rw [inFlight?_startRequest_of_ne router hyid] at hm
      obtain ⟨before, hbefore, -, hraised⟩ := inFlight?_startRequest_bounds router id hn
      have hload := hleast y hy before hbefore m hm
      omega
  · rw [inFlight?_startRequest_of_ne router hxid] at hn
    by_cases hyid : id = y
    · subst hyid
      obtain ⟨before, hbefore, hraised, -⟩ := inFlight?_startRequest_bounds router id hm
      have hload := h x hx id hy n hn before hbefore
      omega
    · rw [inFlight?_startRequest_of_ne router hyid] at hm
      exact h x hx y hy n hn m hm

/-! ## Every run -/

/-- The account that is chosen at a stage, and not started. -/
def Stage.target : Stage → Option String
  | .chosen accountId => some accountId
  | .idle | .started _ => none

/-- A call that goes on aims at what its stage says; one that ends, at
nothing. -/
theorem Staged.target_eq {α : Type} {stage : Stage} {p : Part α} {Q : Stage → α → Prop}
    (h : Staged Q stage p) : DataPlane.target p = none ∨ DataPlane.target p = stage.target := by
  cases p with
  | ret a => exact .inl rfl
  | call o k =>
      obtain rfl : o.stage = stage := h.1
      refine .inr ?_
      cases o <;> rfl

theorem Staged.target_eq_none {α : Type} {stage : Stage} {p : Part α} {Q : Stage → α → Prop}
    (h : Staged Q stage p) (hstage : stage.target = none) : DataPlane.target p = none := by
  rcases h.target_eq with hnone | htarget
  · exact hnone
  · exact htarget.trans hstage

section Run

variable {ι ω : Type} {ids : Set String} {calls : Calls ι ω}

/-- **What serial calls keep**: the counters are balanced, and one call at
most has an account that it has not started, which has the least load. -/
structure Even (ids : Set String) (calls : Calls ι ω) : Prop where
  sound : calls.shared.router.Sound
  staged : ∀ i, ∃ stage, Staged Unstarted stage (calls.procs i)
  balanced : Balanced ids calls.shared.router
  least : ∀ i id, target (calls.procs i) = some id → LeastOf ids calls.shared.router id
  alone : ∀ i j, target (calls.procs i) ≠ none → target (calls.procs j) ≠ none → i = j

variable [DecidableEq ι] (answer : ω → (o : Op) → ω × o.Resp)

/-- **A step, seen from what it may change**: the counters it leaves, and
the account its call aims at. -/
theorem Even.move (h : Even ids calls) {i : ι} {shared : Shared ω}
    {p : Part (Except DataPlaneError ProxyResponse)} (hsound : shared.router.Sound)
    (hstaged : ∃ stage, Staged Unstarted stage p) (hbalanced : Balanced ids shared.router)
    (htarget : ∀ id, target p = some id → LeastOf ids shared.router id)
    (halone : target p ≠ none → ∀ j, j ≠ i → target (calls.procs j) = none)
    (hothers : ∀ j id, j ≠ i → target (calls.procs j) = some id →
      LeastOf ids shared.router id) :
    Even ids ⟨shared, Function.update calls.procs i p⟩ := by
  refine ⟨hsound, ?_, hbalanced, ?_, ?_⟩
  · exact (Function.forall_update_iff _ fun _ p => ∃ stage, Staged Unstarted stage p).mpr
      ⟨hstaged, fun j _ => h.staged j⟩
  · exact (Function.forall_update_iff _ fun _ p =>
      ∀ id, target p = some id → LeastOf ids shared.router id).mpr
        ⟨htarget, fun j hj id hid => hothers j id hj hid⟩
  · -- of two calls that aim at an account, one is the call that moved
    intro j j' hj hj'
    by_contra hne
    by_cases hji : j = i
    · subst hji
      simp only [Function.update_self] at hj
      simp only [Function.update_of_ne (Ne.symm hne)] at hj'
      exact hj' (halone hj j' (Ne.symm hne))
    · simp only [Function.update_of_ne hji] at hj
      by_cases hji' : j' = i
      · subst hji'
        simp only [Function.update_self] at hj'
        exact hj (halone hj' j hne)
      · simp only [Function.update_of_ne hji'] at hj'
        exact hne (h.alone j j' hj hj')

/-- A step that leaves the router, and whose call has no account to
start. -/
theorem Even.quiet (h : Even ids calls) {i : ι} {shared : Shared ω}
    {p : Part (Except DataPlaneError ProxyResponse)}
    (hrouter : shared.router = calls.shared.router)
    (hstaged : ∃ stage, Staged Unstarted stage p) (hnone : target p = none) :
    Even ids ⟨shared, Function.update calls.procs i p⟩ := by
  refine h.move (by rw [hrouter]; exact h.sound) hstaged
    (by rw [hrouter]; exact h.balanced) ?_ ?_ ?_
  · intro id hid
    rw [hnone] at hid
    cases hid
  · exact fun hsome => absurd hnone hsome
  · intro j id _ hid
    rw [hrouter]
    exact h.least j id hid

/-- Choosing counts nothing. -/
theorem inFlight?_choose (router : Router) (request : RouteRequest) (now : DateTime) :
    inFlight? (router.choose request now).1 = inFlight? router := by
  funext id
  rw [inFlight?, choose_accounts]
  rfl

/-- Who chooses when nobody is about to start gets the least load. -/
theorem Even.choose (h : Even ids calls) {i : ι} {shared : Shared ω} {request : RouteRequest}
    {now : DateTime} {p : Part (Except DataPlaneError ProxyResponse)}
    (hrouter : shared.router = (calls.shared.router.choose request now).1)
    (hsession : request.sessionId = none)
    (hequal : EquallyEligible ids calls.shared.router request.model now)
    (hfree : ∀ j, target (calls.procs j) = none)
    (hstaged : Staged Unstarted
      ((Op.choose request now).reached (calls.shared.router.choose request now).2) p) :
    Even ids ⟨shared, Function.update calls.procs i p⟩ := by
  have hsame : inFlight? shared.router = inFlight? calls.shared.router := by
    rw [hrouter, inFlight?_choose]
  refine h.move ?_ ⟨_, hstaged⟩ ?_ ?_ (fun _ j _ => hfree j) ?_
  · rw [hrouter]
    exact sound_choose h.sound request now
  · unfold Balanced
    rw [hsame]
    exact h.balanced
  · intro id hid
    unfold LeastOf
    rw [hsame]
    rcases hstaged.target_eq with hnone | htarget
    · rw [hnone] at hid
      cases hid
    · rw [hid] at htarget
      cases hchosen : (calls.shared.router.choose request now).2 with
      | error error =>
          rw [hchosen] at htarget
          cases htarget
      | ok selection =>
          rw [hchosen] at htarget
          obtain rfl : id = selection.accountId := Option.some.inj htarget
          exact choose_leastOf h.sound hsession hequal hchosen
  · intro j id _ hid
    rw [hfree j] at hid
    cases hid

/-- Who starts has the least load. -/
theorem Even.startRequest (h : Even ids calls) {i : ι} {shared : Shared ω} {id : String}
    {p : Part (Except DataPlaneError ProxyResponse)}
    (hrouter : shared.router = (calls.shared.router.startRequest id).1)
    (hleast : LeastOf ids calls.shared.router id)
    (hothers : ∀ j, j ≠ i → target (calls.procs j) = none)
    (hstaged : ∃ stage, Staged Unstarted stage p) (hnone : target p = none) :
    Even ids ⟨shared, Function.update calls.procs i p⟩ := by
  refine h.move ?_ hstaged ?_ ?_ (fun _ => hothers) ?_
  · rw [hrouter]
    exact sound_startRequest h.sound id
  · rw [hrouter]
    exact h.balanced.startRequest hleast
  · intro id' hid'
    rw [hnone] at hid'
    cases hid'
  · intro j id' hj hid'
    rw [hothers j hj] at hid'
    cases hid'

/-- **One step of serial calls.** -/
theorem Even.turn (h : Even ids calls) {i : ι}
    (hsetting : calls.Setting (World.alone answer) ids i) (hserial : calls.Serial i) :
    Even ids (Pool.turn (World.alone answer).exec calls i) := by
  cases hproc : calls.procs i with
  | ret a => rwa [Pool.turn_of_ret hproc]
  | call o k =>
      obtain ⟨stage, hcall⟩ := h.staged i
      rw [hproc] at hcall
      have hnext : (calls.procs i).next? = some o := by rw [hproc]; rfl
      have hset := hsetting o hnext
      have hstaged : Staged Unstarted (o.reached ((World.alone answer).exec calls.shared o).2)
          (k ((World.alone answer).exec calls.shared o).2) := hcall.2 _
      -- whoever has chosen is alone with it
      have hothers : ∀ id, target (calls.procs i) = some id →
          ∀ j, j ≠ i → target (calls.procs j) = none := by
        intro id hi j hj
        by_contra htarget
        exact hj (h.alone j i htarget (by rw [hi]; simp))
      cases o with
      | count _ | now | elapsed | credentialSnapshot _ | send _ | appendProxyAudit _ =>
          rw [Pool.turn_of_call hproc]
          exact h.quiet rfl ⟨_, hstaged⟩ (hstaged.target_eq_none rfl)
      | choose request now =>
          rw [Pool.turn_of_call hproc]
          obtain ⟨hsession, hequal⟩ := hset
          exact h.choose rfl hsession hequal (hserial _ hnext rfl) hstaged
      | loadAccount id =>
          have hbefore : target (calls.procs i) = some id := by rw [target, hnext]; rfl
          have hgoes : ((calls.turn (World.alone answer).exec i).procs i).next? =
              some (.startRequest id) := hset
          rw [Pool.turn_of_call hproc] at hgoes ⊢
          simp only [Function.update_self] at hgoes
          have hafter : target (k ((World.alone answer).exec calls.shared (.loadAccount id)).2) =
              some id := by rw [target, hgoes]; rfl
          refine h.move h.sound ⟨_, hstaged⟩ h.balanced ?_ (fun _ => hothers id hbefore)
            fun j id' _ hid' => h.least j id' hid'
          intro id' hid'
          obtain rfl : id = id' := Option.some.inj (hafter.symm.trans hid')
          exact h.least i id hbefore
      | startRequest id =>
          have hbefore : target (calls.procs i) = some id := by rw [target, hnext]; rfl
          rw [Pool.turn_of_call hproc]
          refine h.startRequest rfl (h.least i id hbefore) (hothers id hbefore) ⟨_, hstaged⟩
            (hstaged.target_eq_none ?_)
          cases ((World.alone answer).exec calls.shared (.startRequest id)).2 <;> rfl
      | recordOutcome id outcome => exact hset.elim

variable [Codecs] [Serde] [Urls] [Digests] [Chrono]

omit [DecidableEq ι] in
/-- Calls that are yet to come, over accounts with nothing in flight. -/
theorem even_opening (plane : Plane) (requests : ι → ProxyRequest) {shared : Shared ω}
    (hsound : shared.router.Sound)
    (hzero : ∀ id ∈ ids, ∀ n ∈ inFlight? shared.router id, n = 0) :
    Even ids (⟨shared, fun i => handle plane (requests i)⟩ : Calls ι ω) := by
  have hnone : ∀ i, target (handle plane (requests i)) = none :=
    fun i => (handle_staged plane (requests i)).target_eq_none rfl
  refine ⟨hsound, fun i => ⟨.idle, handle_staged plane (requests i)⟩, ?_, ?_, ?_⟩
  · intro id hid id' hid' n hn m hm
    have hnothing := hzero id hid n hn
    omega
  · intro i id hid
    rw [hnone i] at hid
    cases hid
  · intro i j hi
    exact absurd (hnone i) hi

/-- **Balance.** Any number of calls share a router with accounts that are
equally eligible and start with nothing in flight. If a call chooses only
when everyone who has chosen has started, the counters of any two of the
accounts differ by one at most after every step, and so in particular
whenever everyone who has chosen has started. -/
theorem balanced_when_serial (plane : Plane) (requests : ι → ProxyRequest) (shared : Shared ω)
    (hsound : shared.router.Sound)
    (hzero : ∀ id ∈ ids, ∀ n ∈ inFlight? shared.router id, n = 0) (schedule : List ι)
    (hsetting : Run.Along (Pool.turn (World.alone answer).exec)
      (Calls.Setting (World.alone answer) ids)
      (⟨shared, fun i => handle plane (requests i)⟩ : Calls ι ω) schedule)
    (hserial : Run.Along (Pool.turn (World.alone answer).exec) Calls.Serial
      (⟨shared, fun i => handle plane (requests i)⟩ : Calls ι ω) schedule) :
    Balanced ids (Run.final (Pool.turn (World.alone answer).exec)
      (⟨shared, fun i => handle plane (requests i)⟩ : Calls ι ω) schedule).shared.router := by
  have hboth := Run.along_and.mpr ⟨hsetting, hserial⟩
  have hend := Run.final_induct (I := Even ids)
    (fun calls i h hstep => h.turn answer hstep.1 hstep.2)
    (even_opening plane requests hsound hzero) hboth
  exact hend.balanced

end Run

section Example

open scoped Plain
open World

/-- A router that has two accounts. -/
def twoAccounts : Shared ℕ := ⟨.new [listedAccount "a" true, listedAccount "b" true], 0⟩

/-- The ids of both. -/
def bothIds : Set String := {id | id = "a" ∨ id = "b"}

instance : DecidablePred (· ∈ bothIds) :=
  fun id => inferInstanceAs (Decidable (id = "a" ∨ id = "b"))

/-- Two calls that start one after the other are balanced. -/
theorem balanced_one_by_one :
    Balanced bothIds (Run.final
      (Pool.turn (World.plain (fun _ => []) (.ok .unavailable) 200).exec)
      (⟨twoAccounts, fun _ => handle ⟨.off, ⟨Vector.replicate 32 0⟩, 0⟩ (listModels [])⟩ :
        Calls (Fin 2) ℕ) (List.replicate 6 0 ++ List.replicate 6 1)).shared.router := by
  refine balanced_when_serial (World.plain (fun _ => []) (.ok .unavailable) 200).answer
    ⟨.off, ⟨Vector.replicate 32 0⟩, 0⟩ (fun _ => listModels []) twoAccounts
    (sound_new _) ?_ (List.replicate 6 0 ++ List.replicate 6 1)
    (by decide +kernel) (by decide +kernel)
  rintro id (rfl | rfl)
  · decide +kernel
  · decide +kernel

/-- **Two calls choose one account.** Each chooses before the other has
started. Both have started then: one account has two in flight, the other
none. -/
theorem two_calls_choose_one_account :
    let calls : Calls (Fin 2) ℕ :=
      ⟨twoAccounts, fun _ => handle ⟨.off, ⟨Vector.replicate 32 0⟩, 0⟩ (listModels [])⟩
    let world := World.plain (fun _ => []) (.ok .unavailable) 200
    let schedule := (List.replicate 6 [0, 1]).flatten
    let final := Run.final (Pool.turn world.exec) calls schedule
    Run.Along (Pool.turn world.exec) (Calls.Setting world bothIds) calls schedule ∧
      (∀ i, target (final.procs i) = none) ∧
      inFlight? final.shared.router "a" = some 2 ∧ inFlight? final.shared.router "b" = some 0 := by
  decide +kernel

end Example

end DataPlane

end Llmap
