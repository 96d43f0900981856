import Llmap.Common.Run
import Llmap.Egress.Chain
/-!
# Failing over

What a chain counts, over any sequence of results and of endpoints that are
made active. The counter of an endpoint is of its failures in a row, as far
as 255 (`inARow`): a success or being made active clears it. Being failed
over to does not, so an endpoint may be active with failures that were
counted when it was active before, and then it takes fewer than three to
leave it.
-/

namespace Llmap

namespace Egress

/-- What is done with a chain. -/
inductive ChainOp where
  | recordFailure
  | recordSuccess
  | makeActive (index : ℕ)
deriving DecidableEq

/-- What there is to remember of it: a result of an endpoint, or that an
endpoint became active, by failing over to it or by being made so. -/
inductive ChainEntry where
  | result (success : Bool) (endpoint : ℕ)
  | followed (endpoint : ℕ)
  | chosen (endpoint : ℕ)
deriving DecidableEq

/-- A chain, and what there is to remember, the latest first. -/
structure RecordedChain where
  chain : ProxyChain
  log : List ChainEntry

/-- An operation is carried out, and remembered. An index that is not there
is refused. -/
def RecordedChain.step (recorded : RecordedChain) : ChainOp → RecordedChain
  | .recordFailure =>
      let failed := .result false recorded.chain.activeIndex :: recorded.log
      let next := recorded.chain.recordFailure
      ⟨next, if (next.activeIndex : ℕ) = recorded.chain.activeIndex then failed
        else .followed next.activeIndex :: failed⟩
  | .recordSuccess =>
      ⟨recorded.chain.recordSuccess,
        .result true recorded.chain.activeIndex :: recorded.log⟩
  | .makeActive index =>
      match recorded.chain.makeActive index with
      | .ok next => ⟨next, .chosen index :: recorded.log⟩
      | .error _ => recorded

/-- **Results of an endpoint in a row**, since the last of the other kind
or since it was made active. -/
def inARow (success : Bool) (endpoint : ℕ) : List ChainEntry → ℕ
  | [] => 0
  | .result success' endpoint' :: log =>
      if endpoint' = endpoint then
        if success' = success then inARow success endpoint log + 1 else 0
      else inARow success endpoint log
  | .followed _ :: log => inARow success endpoint log
  | .chosen endpoint' :: log =>
      if endpoint' = endpoint then 0 else inARow success endpoint log

/-- A failure is the latest. -/
def ChainEntry.isFailure : ChainEntry → Bool
  | .result false _ => true
  | _ => false

/-- **The latest failures in a row**, since the active endpoint became
active. -/
def latestFailures (log : List ChainEntry) : ℕ := (log.takeWhile ChainEntry.isFailure).length

namespace ProxyChain

variable {chain : ProxyChain}

/-- The results in a row that are counted for an endpoint. -/
def counted? (chain : ProxyChain) (success : Bool) (j : ℕ) : Option ℕ :=
  (if success then chain.consecutiveSuccesses[j]? else chain.consecutiveFailures[j]?).map
    UInt8.toNat

theorem counted?_recordFailure (success : Bool) (j : ℕ) :
    chain.recordFailure.counted? success j =
      if j = chain.activeIndex then
        (chain.counted? success j).map fun n => if success then 0 else min (n + 1) 255
      else chain.counted? success j := by
  cases success with
  | false => exact failures?_recordFailure j
  | true =>
      change Option.map _ (chain.consecutiveSuccesses.set chain.activeIndex 0)[j]? = _
      rw [getElem?_set_active chain.consecutiveSuccesses fun _ => 0]
      split
      · simp [counted?, Option.map_map, Function.comp_def]
      · rfl

theorem counted?_recordSuccess (success : Bool) (j : ℕ) :
    chain.recordSuccess.counted? success j =
      if j = chain.activeIndex then
        (chain.counted? success j).map fun n => if success then min (n + 1) 255 else 0
      else chain.counted? success j := by
  cases success with
  | false => exact failures?_recordSuccess j
  | true =>
      change Option.map _ (chain.consecutiveSuccesses.set chain.activeIndex
        (saturatingSuccU8 (chain.consecutiveSuccesses.get chain.activeIndex)))[j]? = _
      rw [getElem?_set_active]
      split
      · simp [counted?, Option.map_map, Function.comp_def, toNat_saturatingSuccU8]
      · rfl

/-- An endpoint is made active with nothing counted. -/
theorem makeActive_spec {index : ℕ} {next : ProxyChain} (h : chain.makeActive index = .ok next) :
    next.endpoints = chain.endpoints ∧ (next.activeIndex : ℕ) = index ∧
      ∀ success j, next.counted? success j =
        if j = index then (chain.counted? success j).map fun _ => 0
        else chain.counted? success j := by
  unfold makeActive at h
  split at h
  · rename_i hindex
    obtain rfl := Except.ok.inj h
    refine ⟨rfl, rfl, fun success j => ?_⟩
    by_cases hj : j = index
    · subst hj
      cases success <;> simp [counted?, hindex]
    · cases success <;> simp [counted?, hj, Ne.symm hj]
  · cases h

/-- **When a failure is the last one of an endpoint**: it is the third that
is counted, and there is a next endpoint. -/
theorem activeIndex_recordFailure_eq {n : ℕ}
    (hn : chain.counted? false chain.activeIndex = some n) :
    (chain.recordFailure.activeIndex : ℕ) =
      if 2 ≤ n ∧ (chain.activeIndex : ℕ) + 1 < chain.endpoints.length then
        (chain.activeIndex : ℕ) + 1
      else (chain.activeIndex : ℕ) := by
  have hget : (chain.consecutiveFailures.get chain.activeIndex).toNat = n := by
    have hread : chain.consecutiveFailures[(chain.activeIndex : ℕ)]? =
        some (chain.consecutiveFailures.get chain.activeIndex) :=
      Vector.getElem?_eq_getElem chain.activeIndex.isLt
    simp only [counted?, Bool.false_eq_true, if_false, hread, Option.map_some] at hn
    exact Option.some.inj hn
  have hthree : 3 ≤ saturatingSuccU8 (chain.consecutiveFailures.get chain.activeIndex) ↔
      2 ≤ n := by
    rw [UInt8.le_iff_toNat_le, toNat_saturatingSuccU8, hget]
    change 3 ≤ min (n + 1) 255 ↔ 2 ≤ n
    omega
  simp only [recordFailure, hthree]
  split <;> rfl

end ProxyChain

/-! ## What the counters stand for -/

variable {endpoints : List ProxyEndpoint} {chain : ProxyChain} {recorded : RecordedChain}

/-- **The invariant**: the endpoints are the ones given, a counter is of the
results in a row as far as it goes, and the latest failures are all of the
active endpoint. -/
structure RecordedChain.Counts (endpoints : List ProxyEndpoint) (recorded : RecordedChain) :
    Prop where
  endpoints_eq : recorded.chain.endpoints = endpoints
  counted (success : Bool) (j : ℕ) (hj : j < endpoints.length) :
    recorded.chain.counted? success j = some (min 255 (inARow success j recorded.log))
  latest_active : latestFailures recorded.log ≤ inARow false recorded.chain.activeIndex recorded.log

/-- Nothing is counted in a new chain. -/
theorem counts_new (h : ProxyChain.new endpoints = .ok chain) :
    RecordedChain.Counts endpoints ⟨chain, []⟩ := by
  unfold ProxyChain.new at h
  split at h
  · obtain rfl := Except.ok.inj h
    refine ⟨rfl, fun success j hj => ?_, le_rfl⟩
    cases success <;> simp [ProxyChain.counted?, inARow, hj]
  · cases h

theorem counts_recordFailure (h : recorded.Counts endpoints) :
    (recorded.step .recordFailure).Counts endpoints := by
  have hcounted (success : Bool) (j : ℕ) (hj : j < endpoints.length) :
      recorded.chain.recordFailure.counted? success j = some (min 255
        (inARow success j (.result false recorded.chain.activeIndex :: recorded.log))) := by
    rw [ProxyChain.counted?_recordFailure, h.counted success j hj]
    by_cases hactive : j = recorded.chain.activeIndex
    · subst hactive
      cases success
      · simp only [if_true, Option.map_some, inARow, Bool.false_eq_true, if_false]
        congr 1
        omega
      · simp [inARow]
    · rw [if_neg hactive, inARow, if_neg (Ne.symm hactive)]
  by_cases hmoved : (recorded.chain.recordFailure.activeIndex : ℕ) = recorded.chain.activeIndex
  · simp only [RecordedChain.step, if_pos hmoved]
    refine ⟨h.endpoints_eq, hcounted, ?_⟩
    -- the failure is one more of the active endpoint, on both sides
    simp only [hmoved, inARow, if_true, latestFailures, ChainEntry.isFailure, List.takeWhile_cons,
      List.length_cons]
    exact Nat.succ_le_succ h.latest_active
  · simp only [RecordedChain.step, if_neg hmoved]
    exact ⟨h.endpoints_eq, hcounted, Nat.zero_le _⟩

theorem counts_recordSuccess (h : recorded.Counts endpoints) :
    (recorded.step .recordSuccess).Counts endpoints := by
  refine ⟨h.endpoints_eq, fun success j hj => ?_, Nat.zero_le _⟩
  change recorded.chain.recordSuccess.counted? success j = _
  rw [ProxyChain.counted?_recordSuccess, h.counted success j hj]
  by_cases hactive : j = recorded.chain.activeIndex
  · subst hactive
    cases success
    · simp [RecordedChain.step, inARow]
    · simp only [if_true, Option.map_some, RecordedChain.step, inARow]
      congr 1
      omega
  · rw [if_neg hactive, RecordedChain.step, inARow, if_neg (Ne.symm hactive)]

theorem counts_makeActive (h : recorded.Counts endpoints) (index : ℕ) :
    (recorded.step (.makeActive index)).Counts endpoints := by
  cases hnext : recorded.chain.makeActive index with
  | error error => simpa only [RecordedChain.step, hnext] using h
  | ok next =>
      obtain ⟨hendpoints, -, hcounted⟩ := ProxyChain.makeActive_spec hnext
      simp only [RecordedChain.step, hnext]
      refine ⟨hendpoints.trans h.endpoints_eq, fun success j hj => ?_, Nat.zero_le _⟩
      rw [hcounted, h.counted success j hj]
      by_cases hindex : j = index
      · subst hindex
        simp [inARow]
      · rw [if_neg hindex, inARow, if_neg (Ne.symm hindex)]

/-- Every operation keeps the invariant, and so every run does. -/
theorem counts_step (recorded : RecordedChain) (op : ChainOp) (h : recorded.Counts endpoints) :
    (recorded.step op).Counts endpoints :=
  match op with
  | .recordFailure => counts_recordFailure h
  | .recordSuccess => counts_recordSuccess h
  | .makeActive index => counts_makeActive h index

theorem counts_run (h : ProxyChain.new endpoints = .ok chain) (ops : List ChainOp) :
    (Run.final RecordedChain.step ⟨chain, []⟩ ops).Counts endpoints :=
  Run.final_induct_of_step counts_step (counts_new h)

/-! ## Three failures -/

namespace RecordedChain

/-- **Failing over as documented**: a failure makes another endpoint active
just in case there is a next one and the two latest results since the active
one became active were failures as well, and then it is the next one. -/
def FailsOverOnThird (recorded : RecordedChain) : Prop :=
  let active : ℕ := recorded.chain.activeIndex
  let next : ℕ := recorded.chain.recordFailure.activeIndex
  (next ≠ active ↔
      active + 1 < recorded.chain.endpoints.length ∧ 2 ≤ latestFailures recorded.log) ∧
    (next ≠ active → next = active + 1)

instance (recorded : RecordedChain) : Decidable recorded.FailsOverOnThird :=
  inferInstanceAs (Decidable (_ ∧ _))

/-- What the counter of the active endpoint says is what the failures since
it became active say, as far as failing over goes. -/
def CountedAfresh (recorded : RecordedChain) : Prop :=
  let active : ℕ := recorded.chain.activeIndex
  active + 1 < recorded.chain.endpoints.length → 2 ≤ inARow false active recorded.log →
    2 ≤ latestFailures recorded.log

instance (recorded : RecordedChain) : Decidable recorded.CountedAfresh :=
  inferInstanceAs (Decidable (_ → _ → _))

/-- A chain fails over as documented just in case the counter of the active
endpoint holds nothing from an earlier time. -/
theorem Counts.failsOverOnThird_iff (h : recorded.Counts endpoints) :
    recorded.FailsOverOnThird ↔ recorded.CountedAfresh := by
  have hactive : (recorded.chain.activeIndex : ℕ) < endpoints.length :=
    h.endpoints_eq ▸ recorded.chain.activeIndex.isLt
  have hnext := ProxyChain.activeIndex_recordFailure_eq (h.counted false _ hactive)
  have hlatest := h.latest_active
  simp only [FailsOverOnThird, CountedAfresh, hnext]
  split <;> omega

/-- An endpoint after the active one has not failed yet, and the active one
has failed since it became active only. -/
structure Onward (recorded : RecordedChain) : Prop where
  active_eq : inARow false recorded.chain.activeIndex recorded.log = latestFailures recorded.log
  later_eq (j : ℕ) (hj : (recorded.chain.activeIndex : ℕ) < j) : inARow false j recorded.log = 0

/-- Failing over leads on to an endpoint that has not failed yet. -/
theorem Onward.recordFailure (h : recorded.Onward) : (recorded.step .recordFailure).Onward := by
  have hlater (j : ℕ) (hj : (recorded.chain.activeIndex : ℕ) < j) :
      inARow false j (.result false recorded.chain.activeIndex :: recorded.log) = 0 := by
    rw [inARow, if_neg hj.ne, h.later_eq j hj]
  by_cases hmoved : (recorded.chain.recordFailure.activeIndex : ℕ) = recorded.chain.activeIndex
  · simp only [step, if_pos hmoved]
    refine ⟨?_, fun j hj => hlater j (hmoved ▸ hj)⟩
    simp only [hmoved, inARow, if_true, h.active_eq, latestFailures, ChainEntry.isFailure,
      List.takeWhile_cons, List.length_cons]
  · have hnext : (recorded.chain.activeIndex : ℕ) < recorded.chain.recordFailure.activeIndex := by
      have := recorded.chain.activeIndex_recordFailure
      omega
    simp only [step, if_neg hmoved]
    exact ⟨hlater _ hnext, fun j hj => hlater j (hnext.trans hj)⟩

theorem Onward.recordSuccess (h : recorded.Onward) : (recorded.step .recordSuccess).Onward := by
  refine ⟨?_, fun j hj => ?_⟩
  · change inARow false recorded.chain.activeIndex
      (.result true recorded.chain.activeIndex :: recorded.log) = 0
    simp [inARow]
  · change inARow false j (.result true recorded.chain.activeIndex :: recorded.log) = 0
    have hne : (recorded.chain.activeIndex : ℕ) ≠ j := Nat.ne_of_lt hj
    rw [inARow, if_neg hne, h.later_eq j hj]

/-- Where no endpoint is made active, a run only leads onward. -/
theorem onward_run {ops : List ChainOp} (hops : ∀ op ∈ ops, ∀ index, op ≠ .makeActive index) :
    (Run.final step ⟨chain, []⟩ ops).Onward := by
  have hstart : Onward ⟨chain, []⟩ := ⟨rfl, fun _ _ => rfl⟩
  generalize (⟨chain, []⟩ : RecordedChain) = recorded at hstart
  induction ops generalizing recorded with
  | nil => exact hstart
  | cons op ops ih =>
      have hrest := fun op' hop' => hops op' (List.mem_cons_of_mem op hop')
      cases op with
      | recordFailure => exact ih hrest _ hstart.recordFailure
      | recordSuccess => exact ih hrest _ hstart.recordSuccess
      | makeActive index => exact absurd rfl (hops _ List.mem_cons_self index)

end RecordedChain

/-- **When a chain fails over**, for any endpoints and any sequence of
operations. The active index is of an endpoint, a success keeps it, and the
counters hold the results in a row without overflow. The chain fails over on
the third failure just in case nothing is left in the counter of the active
endpoint from an earlier time, as is so where no endpoint is made active. -/
theorem chain_failsOverOnThird_iff (hendpoints : endpoints ≠ []) :
    ∃ chain, ProxyChain.new endpoints = .ok chain ∧ ∀ ops : List ChainOp,
      let reached := Run.final RecordedChain.step ⟨chain, []⟩ ops
      reached.chain.endpoints = endpoints ∧
      (reached.chain.activeIndex : ℕ) < endpoints.length ∧
      (reached.chain.recordSuccess.activeIndex : ℕ) = reached.chain.activeIndex ∧
      (∀ success j, j < endpoints.length →
        reached.chain.counted? success j = some (min 255 (inARow success j reached.log))) ∧
      (reached.FailsOverOnThird ↔ reached.CountedAfresh) ∧
      ((∀ op ∈ ops, ∀ index, op ≠ .makeActive index) → reached.CountedAfresh) := by
  have hlength : 0 < endpoints.length := List.length_pos_iff.mpr hendpoints
  obtain ⟨chain, hnew⟩ : ∃ chain, ProxyChain.new endpoints = .ok chain := ⟨_, dif_pos hlength⟩
  refine ⟨chain, hnew, fun ops => ?_⟩
  have hcounts := counts_run hnew ops
  refine ⟨hcounts.endpoints_eq, ?_, rfl, hcounts.counted, hcounts.failsOverOnThird_iff, ?_⟩
  · exact hcounts.endpoints_eq ▸ Fin.isLt _
  · intro hops _ hrow
    exact (RecordedChain.onward_run hops).active_eq ▸ hrow

/-- An endpoint at a host. -/
def relay (host : String) : ProxyEndpoint where
  protocol := .socks5h
  url := ⟨"socks5h", "", none, some host, some 1080, "", none, none⟩
  host_isSome := rfl

/-- Two failures are not enough, and a success in between starts over. -/
theorem chain_failsOverOnThird_two :
    [relay "one", relay "two"] ≠ [] ∧
      ∃ chain, ProxyChain.new [relay "one", relay "two"] = .ok chain ∧
        let reached := Run.final RecordedChain.step ⟨chain, []⟩
          [.recordFailure, .recordSuccess, .recordFailure, .recordFailure]
        reached.CountedAfresh ∧ reached.FailsOverOnThird := by
  refine ⟨List.cons_ne_nil _ _, ?_⟩
  obtain ⟨chain, hnew, hruns⟩ :=
    chain_failsOverOnThird_iff (List.cons_ne_nil (relay "one") [relay "two"])
  refine ⟨chain, hnew, ?_⟩
  intro reached
  obtain ⟨-, -, -, -, hiff, honward⟩ :=
    hruns [.recordFailure, .recordSuccess, .recordFailure, .recordFailure]
  have hafresh : reached.CountedAfresh := honward (by simp)
  exact ⟨hafresh, hiff.mpr hafresh⟩

/-- **Failing over early.** The second endpoint fails twice and the first is
made active. When the chain has failed over to the second one again, the
first failure there makes the third one active. -/
theorem chain_fails_over_on_first :
    ∃ chain, ProxyChain.new [relay "one", relay "two", relay "three"] = .ok chain ∧
      let reached := Run.final RecordedChain.step ⟨chain, []⟩
        [.makeActive 1, .recordFailure, .recordFailure, .makeActive 0,
          .recordFailure, .recordFailure, .recordFailure]
      (reached.chain.activeIndex : ℕ) = 1 ∧ latestFailures reached.log = 0 ∧
        (reached.chain.recordFailure.activeIndex : ℕ) = 2 ∧ ¬ reached.FailsOverOnThird :=
  ⟨_, rfl, by decide +kernel⟩

end Egress

end Llmap
