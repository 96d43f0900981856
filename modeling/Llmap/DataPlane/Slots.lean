import Llmap.Common.Tally
import Llmap.DataPlane.Stages
import Llmap.Routing.InFlight
/-!
# Slots

Any number of calls of `handle` share a router whose accounts stay. A call
takes a slot of its account with `start_request` and gives it back with
`record_outcome`, at each of its exits. Between the two it awaits: the
server may drop it there, when the client is gone, and then nothing gives
the slot back (`slot_lost_to_disconnect`).

Every counter is what it was at the start, plus the slots that calls
hold, plus those that were dropped with their calls (`Accounted`). So at
rest the counters are back where they started just in case no call was
dropped while it held a slot (`slots_returned_iff`).
-/

namespace Llmap

namespace DataPlane

open Auth Providers Routing Storage

/-! ## The server -/

/-- What the server does with a call: it lets it make its next step, or
drops it. -/
inductive Action (ι : Type) where
  | poll (i : ι)
  | drop (i : ι)
deriving DecidableEq

/-- Whether `handle` awaits a step. -/
def Op.awaited : Op → Bool
  | .count _ | .now | .elapsed => false
  | _ => true

/-- The calls a server is busy with. One that was dropped comes to
`none`. -/
abbrev Server (ι ω : Type) :=
  Pool ι (Shared ω) Op Op.Resp (Option (Except DataPlaneError ProxyResponse))

/-- The account whose slot is held by a call that is about to make a
step. -/
def Op.slot : Op → Option String
  | .send upstream => some upstream.accountId
  | .recordOutcome accountId _ => some accountId
  | _ => none

/-- The account whose slot a call holds. -/
def slot {α : Type} (p : Part α) : Option String := p.next?.bind Op.slot

/-- The counter of an account. -/
def inFlight? (router : Router) (id : String) : Option ℕ :=
  router.accounts[id]?.map fun account => account.inFlight.toNat

/-- **Room to count**: no request is started at the largest counter. -/
def Op.HasRoom (router : Router) : Op → Prop
  | .startRequest id => ∀ n ∈ inFlight? router id, n + 1 < 2 ^ 32
  | _ => True

instance (router : Router) : (o : Op) → Decidable (o.HasRoom router)
  | .startRequest id => inferInstanceAs (Decidable (∀ n ∈ inFlight? router id, n + 1 < 2 ^ 32))
  | .count _ | .now | .elapsed | .credentialSnapshot _ | .choose .. | .loadAccount _ | .send _
  | .recordOutcome .. | .appendProxyAudit _ => .isTrue trivial

namespace Server

variable {ι ω : Type} [DecidableEq ι] (world : World ω)

/-- A step of the server. A call can be dropped where it awaits. -/
def step (server : Server ι ω) : Action ι → Server ι ω
  | .poll i => server.turn world.exec i
  | .drop i =>
      if (server.procs i).next?.any Op.awaited then
        { server with procs := Function.update server.procs i (.ret none) }
      else server

/-- What a call does finds room to count. -/
def HasRoom (server : Server ι ω) : Action ι → Prop
  | .poll i => server.Calls (fun shared o => o.HasRoom shared.router) i
  | .drop _ => True

instance (server : Server ι ω) : (action : Action ι) → Decidable (server.HasRoom action)
  | .poll i =>
      inferInstanceAs (Decidable (server.Calls (fun shared o => o.HasRoom shared.router) i))
  | .drop _ => .isTrue trivial

/-- No call is dropped while it holds a slot. -/
def KeepsSlot (server : Server ι ω) : Action ι → Prop
  | .poll _ => True
  | .drop i => slot (server.procs i) = none

instance (server : Server ι ω) : (action : Action ι) → Decidable (server.KeepsSlot action)
  | .poll _ => .isTrue trivial
  | .drop i => inferInstanceAs (Decidable (slot (server.procs i) = none))

/-- The slots that are lost when a call is dropped. -/
def lost (server : Server ι ω) : Action ι → String → ℕ
  | .poll _, _ => 0
  | .drop i, id => if slot (server.procs i) = some id then 1 else 0

section Handle

variable [Codecs] [Serde] [Urls] [Digests] [Chrono]

omit [DecidableEq ι] in
/-- A call of `handle`. -/
def call (plane : Plane) (request : ProxyRequest) :
    Part (Option (Except DataPlaneError ProxyResponse)) :=
  handle plane request >>= fun result => .ret (some result)

/-- The server with all its calls before it. -/
def opening (plane : Plane) (requests : ι → ProxyRequest) (shared : Shared ω) : Server ι ω :=
  ⟨shared, fun i => call plane (requests i)⟩

/-- No call is live: each is yet to come, or has come to its end. -/
def AtRest (plane : Plane) (requests : ι → ProxyRequest) (server : Server ι ω) : Prop :=
  ∀ i, server.procs i = call plane (requests i) ∨ (server.procs i).returned = true

end Handle

end Server

/-! ## What a call does with its slot -/

/-- The account whose slot a call holds after a step. -/
def Op.held : (o : Op) → o.Resp → Option String
  | .startRequest accountId, .ok _ => some accountId
  | .send upstream, _ => some upstream.accountId
  | _, _ => none

/-- The account whose slot is held at a stage. -/
def Stage.slot : Stage → Option String
  | .started accountId => some accountId
  | .idle | .chosen _ => none

theorem Op.slot_eq (o : Op) : o.slot = o.stage.slot := by
  cases o <;> rfl

theorem Op.held_eq (o : Op) (r : o.Resp) : o.held r = (o.reached r).slot := by
  cases o with
  | choose request now => cases r <;> rfl
  | loadAccount accountId => cases r <;> rfl
  | startRequest accountId => cases r <;> rfl
  | _ => rfl

/-- What a call holds is seen by what it does next. -/
theorem Staged.slot_eq {α : Type} {stage : Stage} {p : Part α} (h : Staged Unstarted stage p) :
    DataPlane.slot p = stage.slot := by
  cases p with
  | ret a =>
      cases stage with
      | started accountId => exact absurd rfl (h accountId)
      | idle | chosen => rfl
  | call o k =>
      obtain rfl : o.stage = stage := h.1
      exact o.slot_eq

/-! ## What a step does to the counters -/

/-- Changing one account changes its counter alone. -/
theorem inFlight?_insert (router : Router) (accountId id : String) (account : RouteAccount)
    (sessions : Table String SessionBinding) :
    inFlight? ⟨router.accounts.insert accountId account, sessions⟩ id =
      if accountId = id then some account.inFlight.toNat else inFlight? router id := by
  simp only [inFlight?, Std.ExtTreeMap.getElem?_insert, Std.LawfulEqCmp.compare_eq_iff_eq]
  split <;> rfl

theorem inFlight?_startRequest (router : Router) (accountId id : String)
    (hroom : ∀ n ∈ inFlight? router accountId, n + 1 < 2 ^ 32) :
    inFlight? (router.startRequest accountId).1 id = (inFlight? router id).map fun n =>
      n + if (Op.startRequest accountId).held (router.startRequest accountId).2 = some id then 1
        else 0 := by
  unfold Router.startRequest
  split
  · simp [Op.held]
  · rename_i account haccount
    have hcounter : inFlight? router accountId = some account.inFlight.toNat := by
      rw [inFlight?, haccount]
      rfl
    have hsucc := toNat_saturatingSucc (hroom _ hcounter)
    dsimp only [Op.held]
    rw [inFlight?_insert]
    by_cases hid : accountId = id
    · subst hid
      rw [if_pos rfl, hsucc, hcounter]
      simp
    · simp [hid]

theorem inFlight?_recordOutcome (router : Router) (accountId id : String)
    (outcome : UpstreamOutcome) :
    inFlight? (router.recordOutcome accountId outcome).1 id =
      (inFlight? router id).map fun n => n - if accountId = id then 1 else 0 := by
  unfold Router.recordOutcome
  split
  · rename_i haccount
    by_cases hid : accountId = id
    · subst hid
      simp [inFlight?, haccount]
    · simp [hid]
  · rename_i account haccount
    have hmark : (Router.markOutcome
        { account with inFlight := saturatingPred account.inFlight } outcome).inFlight =
          saturatingPred account.inFlight := by
      cases outcome <;> rfl
    rw [inFlight?_insert, hmark, toNat_saturatingPred]
    by_cases hid : accountId = id
    · subst hid
      simp [inFlight?, haccount]
    · simp [hid]

section Counters

variable {ω : Type} (answer : ω → (o : Op) → ω × o.Resp)

/-- **The counters follow the slots.** A step raises the counter of the
account whose slot its call holds afterwards and lowers that of the
account whose slot it held before. -/
theorem inFlight?_exec (shared : Shared ω) (o : Op) (id : String)
    (hroom : o.HasRoom shared.router) :
    inFlight? ((World.alone answer).exec shared o).1.router id =
      (inFlight? shared.router id).map fun n =>
        n + (if o.held ((World.alone answer).exec shared o).2 = some id then 1 else 0) -
          if o.slot = some id then 1 else 0 := by
  have hsame : inFlight? shared.router id =
      (inFlight? shared.router id).map fun n => n + 0 - 0 := by
    simp
  cases o with
  | count _ | now | elapsed | credentialSnapshot _ | loadAccount _ | appendProxyAudit _ =>
      exact hsame
  | send upstream =>
      change inFlight? shared.router id = _
      simp [Op.held, Op.slot]
  | choose request now =>
      refine Eq.trans ?_ hsame
      change Option.map _ (shared.router.choose request now).1.accounts[id]? = _
      rw [choose_accounts]
      rfl
  | startRequest accountId => exact inFlight?_startRequest shared.router accountId id hroom
  | recordOutcome accountId outcome =>
      refine (inFlight?_recordOutcome shared.router accountId id outcome).trans ?_
      simp [Op.held, Op.slot]

/-- A slot that is held after a step is of an account the router has, or
was held before. -/
theorem known_of_held {shared : Shared ω} {o : Op} {id : String}
    (h : o.held ((World.alone answer).exec shared o).2 = some id) :
    o.slot = some id ∨ (inFlight? shared.router id).isSome = true := by
  cases o with
  | send upstream => exact .inl h
  | startRequest accountId =>
      refine .inr ?_
      change (Op.startRequest accountId).held (shared.router.startRequest accountId).2 =
        some id at h
      unfold Router.startRequest at h
      split at h
      · cases h
      · rename_i account haccount
        obtain rfl : accountId = id := Option.some.inj h
        simp [inFlight?, haccount]
  | _ => cases h

end Counters

/-! ## Every run -/

section Run

variable {ι ω : Type} [DecidableEq ι] [Fintype ι] (answer : ω → (o : Op) → ω × o.Resp)

/-- **The account of the slots.** Each counter is what it was, and one
more for every slot that is held and every slot that was lost. -/
structure Accounted (start : Router) (gone : String → ℕ) (server : Server ι ω) : Prop where
  staged : ∀ i, ∃ stage, Staged Unstarted stage (server.procs i)
  known : ∀ i id, slot (server.procs i) = some id → (inFlight? start id).isSome = true
  counted : ∀ id, inFlight? server.shared.router id = (inFlight? start id).map fun n =>
    n + tally (fun i => slot (server.procs i)) (some id) + gone id
  lost : ∀ id, gone id ≠ 0 → (inFlight? start id).isSome = true

variable {start : Router} {gone : String → ℕ} {server : Server ι ω}

/-- What moves when one call has gone on to `p`. -/
theorem tally_slot_update (server : Server ι ω) (i : ι)
    (p : Part (Option (Except DataPlaneError ProxyResponse))) (id : String) :
    tally (fun j => slot (Function.update server.procs i p j)) (some id) +
        (if slot (server.procs i) = some id then 1 else 0) =
      tally (fun j => slot (server.procs j)) (some id) + if slot p = some id then 1 else 0 := by
  have hmove := tally_update (fun j => slot (server.procs j)) i (slot p) (some id)
  have hcomp : (fun j => slot (Function.update server.procs i p j)) =
      Function.update (fun j => slot (server.procs j)) i (slot p) := by
    funext j
    by_cases hj : j = i
    · subst hj
      simp
    · simp [hj]
  rwa [hcomp]

theorem Accounted.poll (h : Accounted start gone server) (i : ι)
    (hroom : server.HasRoom (.poll i)) :
    Accounted start gone (server.step (World.alone answer) (.poll i)) := by
  change Accounted start gone (server.turn (World.alone answer).exec i)
  cases hproc : server.procs i with
  | ret a => rwa [Pool.turn_of_ret hproc]
  | call o k =>
      obtain ⟨stage, hcall⟩ := h.staged i
      rw [hproc] at hcall
      have hslot : slot (server.procs i) = o.slot := by rw [hproc]; rfl
      have hnext := hcall.2 ((World.alone answer).exec server.shared o).2
      have hheld : slot (k ((World.alone answer).exec server.shared o).2) =
          o.held ((World.alone answer).exec server.shared o).2 :=
        (Staged.slot_eq hnext).trans (o.held_eq _).symm
      rw [Pool.turn_of_call hproc]
      refine ⟨?_, ?_, ?_, h.lost⟩
      · exact (Function.forall_update_iff _ fun _ p => ∃ stage, Staged Unstarted stage p).mpr
          ⟨⟨_, hnext⟩, fun j _ => h.staged j⟩
      · refine (Function.forall_update_iff _ fun _ p =>
          ∀ id, slot p = some id → (inFlight? start id).isSome = true).mpr
            ⟨fun id hid => ?_, fun j _ => h.known j⟩
        -- a slot that was taken just now is of an account the router has
        rcases known_of_held answer (hheld.symm.trans hid) with hbefore | hknown
        · exact h.known i id (hslot.trans hbefore)
        · rw [h.counted, Option.isSome_map] at hknown
          exact hknown
      · intro id
        have hmove :=
          tally_slot_update server i (k ((World.alone answer).exec server.shared o).2) id
        rw [hheld, hslot] at hmove
        have hroom' : o.HasRoom server.shared.router := hroom o (by rw [hproc]; rfl)
        dsimp only
        rw [inFlight?_exec answer server.shared o id hroom', h.counted, Option.map_map]
        congr 1
        funext n
        dsimp only [Function.comp]
        omega

theorem Accounted.drop (h : Accounted start gone server) (i : ι) :
    Accounted start (gone + server.lost (.drop i))
      (server.step (World.alone answer) (.drop i)) := by
  unfold Server.step
  dsimp only
  split
  · refine ⟨?_, ?_, ?_, ?_⟩
    · have hdropped : Unstarted .idle (none : Option (Except DataPlaneError ProxyResponse)) :=
        unstarted_idle none
      exact (Function.forall_update_iff _ fun _ p => ∃ stage, Staged Unstarted stage p).mpr
        ⟨⟨.idle, hdropped⟩, fun j _ => h.staged j⟩
    · refine (Function.forall_update_iff _ fun _ p =>
        ∀ id, slot p = some id → (inFlight? start id).isSome = true).mpr
          ⟨fun id hid => ?_, fun j _ => h.known j⟩
      cases hid
    · intro id
      have hmove := tally_slot_update server i (.ret none) id
      have hnone : slot (.ret none : Part (Option (Except DataPlaneError ProxyResponse))) ≠
          some id := by
        simp [slot]
      rw [if_neg hnone] at hmove
      dsimp only [Pi.add_apply, Server.lost]
      rw [h.counted]
      congr 1
      funext n
      omega
    · intro id hid
      by_cases hheld : slot (server.procs i) = some id
      · exact h.known i id hheld
      · exact h.lost id (by simpa [Server.lost, hheld] using hid)
  · -- a call that does not await holds no slot
    rename_i hawait
    have hnone : slot (server.procs i) = none := by
      unfold slot
      cases hnext : (server.procs i).next? with
      | none => rfl
      | some o =>
          rw [hnext] at hawait
          cases o <;> first | rfl | exact absurd rfl hawait
    have hlost : gone + server.lost (.drop i) = gone := by
      funext id
      simp [Server.lost, hnone]
    rwa [hlost]

theorem Accounted.step (h : Accounted start gone server) {action : Action ι}
    (hroom : server.HasRoom action) :
    Accounted start (gone + server.lost action) (server.step (World.alone answer) action) := by
  cases action with
  | poll i => exact h.poll answer i hroom
  | drop i => exact h.drop answer i

omit [Fintype ι] [DecidableEq ι] in
theorem lost_eq_zero_iff (server : Server ι ω) (action : Action ι) :
    server.lost action = 0 ↔ server.KeepsSlot action := by
  cases action with
  | poll i => exact iff_of_true rfl trivial
  | drop i =>
      constructor
      · intro hlost
        refine Option.eq_none_iff_forall_ne_some.mpr fun id hid => ?_
        have hone := congrFun hlost id
        simp [Server.lost, hid] at hone
      · intro hslot
        funext id
        change slot (server.procs i) = none at hslot
        simp [Server.lost, hslot]

omit [DecidableEq ι] in
theorem tally_slot_eq_zero (hrest : ∀ i, slot (server.procs i) = none) (id : String) :
    tally (fun i => slot (server.procs i)) (some id) = 0 := by
  refine tally_eq_zero fun i hi => ?_
  rw [hrest i] at hi
  cases hi

omit [DecidableEq ι] in
/-- When nobody holds a slot, a counter shows what was lost. -/
theorem Accounted.inFlight?_eq (h : Accounted start gone server)
    (hrest : ∀ i, slot (server.procs i) = none) (id : String) :
    inFlight? server.shared.router id = (inFlight? start id).map fun n => n + gone id := by
  rw [h.counted, tally_slot_eq_zero hrest]
  rfl

omit [DecidableEq ι] in
/-- The counters are back where they started just in case nothing was
lost. -/
theorem Accounted.restored_iff (h : Accounted start gone server)
    (hrest : ∀ i, slot (server.procs i) = none) :
    (∀ id, inFlight? server.shared.router id = inFlight? start id) ↔ gone = 0 := by
  simp only [h.inFlight?_eq hrest]
  constructor
  · intro hsame
    funext id
    by_contra hgone
    obtain ⟨n, hn⟩ := Option.isSome_iff_exists.mp (h.lost id hgone)
    have hcounter := hsame id
    rw [hn] at hcounter
    have hsum : n + gone id = n := Option.some.inj hcounter
    exact hgone (by simpa using hsum)
  · rintro rfl id
    simp

variable [Codecs] [Serde] [Urls] [Digests] [Chrono]

omit [Fintype ι] [DecidableEq ι] in
theorem call_staged (plane : Plane) (request : ProxyRequest) :
    Staged Unstarted .idle (Server.call plane request) :=
  (handle_staged plane request).bind fun _ _ hend => hend

omit [DecidableEq ι] in
theorem accounted_opening (plane : Plane) (requests : ι → ProxyRequest) (shared : Shared ω) :
    Accounted shared.router 0 (Server.opening plane requests shared) := by
  have hslot : ∀ i, slot ((Server.opening plane requests shared).procs i) = none :=
    fun i => (call_staged plane (requests i)).slot_eq
  refine ⟨?_, ?_, ?_, ?_⟩
  · intro i
    exact ⟨.idle, call_staged plane (requests i)⟩
  · intro i id hid
    rw [hslot i] at hid
    cases hid
  · intro id
    rw [tally_slot_eq_zero hslot]
    simp [Server.opening]
  · intro id hid
    exact absurd rfl hid

omit [Fintype ι] [DecidableEq ι] in
theorem slot_of_atRest {plane : Plane} {requests : ι → ProxyRequest} {server : Server ι ω}
    (h : server.AtRest plane requests) (i : ι) : slot (server.procs i) = none := by
  rcases h i with hcall | hreturned
  · rw [hcall]
    exact (call_staged plane (requests i)).slot_eq
  · cases hproc : server.procs i with
    | ret result => rfl
    | call o k =>
        rw [hproc] at hreturned
        cases hreturned

/-- **When the slots come back.** In every run of any number of calls over
accounts that stay, in which no counter is full when a request is started:
when no call is live, every counter is what it was at the start just in
case no call was dropped while it held a slot. -/
theorem slots_returned_iff (plane : Plane) (requests : ι → ProxyRequest) (shared : Shared ω)
    (schedule : List (Action ι))
    (hroom : Run.Along (Server.step (World.alone answer)) Server.HasRoom
      (Server.opening plane requests shared) schedule)
    (hrest : (Run.final (Server.step (World.alone answer))
      (Server.opening plane requests shared) schedule).AtRest plane requests) :
    (∀ id, inFlight? (Run.final (Server.step (World.alone answer))
        (Server.opening plane requests shared) schedule).shared.router id =
          inFlight? shared.router id) ↔
      Run.Along (Server.step (World.alone answer)) Server.KeepsSlot
        (Server.opening plane requests shared) schedule := by
  have haccounted := Run.final_induct_total (I := Accounted shared.router)
    (fun gone server action h hroom => h.step answer hroom)
    (accounted_opening plane requests shared) hroom
  rw [haccounted.restored_iff (slot_of_atRest hrest), zero_add, Run.total_eq_zero_iff]
  simp only [lost_eq_zero_iff]

end Run

section Example

open scoped Plain
open World

/-- The counters of two calls that come to their ends, one after the
other's step. -/
theorem slots_returned_by_two :
    let world := World.plain (fun _ => []) (.ok .unavailable) 200
    let schedule := (List.replicate 11 [Action.poll (0 : Fin 2), .poll 1]).flatten
    ∀ id, inFlight? (Run.final (Server.step world) (Server.opening
      ⟨.off, ⟨Vector.replicate 32 0⟩, 0⟩ (fun _ => listModels []) oneAccount)
        schedule).shared.router id = inFlight? oneAccount.router id :=
  (slots_returned_iff (World.plain (fun _ => []) (.ok .unavailable) 200).answer
    ⟨.off, ⟨Vector.replicate 32 0⟩, 0⟩ (fun _ => listModels []) oneAccount
    (List.replicate 11 [Action.poll (0 : Fin 2), .poll 1]).flatten (by decide +kernel)
    (fun i => .inr (by revert i; decide +kernel))).mpr (by decide +kernel)

/-- **A slot lost to a disconnect.** The call is dropped while its request
is upstream. No call is live, and the account still counts one. -/
theorem slot_lost_to_disconnect :
    let world := World.plain (fun _ => []) (.ok .unavailable) 200
    let plane : Plane := ⟨.off, ⟨Vector.replicate 32 0⟩, 0⟩
    let final := Run.final (Server.step world)
      (Server.opening plane (fun _ => listModels []) oneAccount)
      (List.replicate 6 (Action.poll (0 : Fin 1)) ++ [.drop 0])
    (∀ i, (final.procs i).returned = true) ∧ inFlight? oneAccount.router "a" = some 0 ∧
      inFlight? final.shared.router "a" = some 1 := by
  decide +kernel

end Example

end DataPlane

end Llmap
