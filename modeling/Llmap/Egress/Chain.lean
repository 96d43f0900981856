import Llmap.Egress
/-!
# Proxy chains

`egress.rs`: the endpoints of an account in the order in which they are
tried. One of them is active. Results are recorded of the active one, and
three failures in a row make the next one active, if there is one.
-/

namespace Llmap

namespace Egress

/-- `ProxyChain`. The active index and the counters are of the endpoints
there are, so a chain has an endpoint and no access is out of range. -/
structure ProxyChain where
  endpoints : List ProxyEndpoint
  activeIndex : Fin endpoints.length
  consecutiveFailures : Vector UInt8 endpoints.length
  consecutiveSuccesses : Vector UInt8 endpoints.length

namespace ProxyChain

/-- `ProxyChain::new`. -/
def new (endpoints : List ProxyEndpoint) : Except EgressError ProxyChain :=
  if h : 0 < endpoints.length then
    .ok
      { endpoints := endpoints
        activeIndex := ⟨0, h⟩
        consecutiveFailures := Vector.replicate _ 0
        consecutiveSuccesses := Vector.replicate _ 0 }
  else .error .emptyProxyChain

/-- `ProxyChain::active`. -/
def active (chain : ProxyChain) : ProxyEndpoint := chain.endpoints.get chain.activeIndex

/-- `ProxyChain::record_failure`. -/
def recordFailure (chain : ProxyChain) : ProxyChain :=
  let active := chain.activeIndex
  let failures := saturatingSuccU8 (chain.consecutiveFailures.get active)
  { chain with
    consecutiveSuccesses := chain.consecutiveSuccesses.set active 0
    consecutiveFailures := chain.consecutiveFailures.set active failures
    activeIndex :=
      if h : 3 ≤ failures ∧ active + 1 < chain.endpoints.length then ⟨active + 1, h.2⟩
      else active }

/-- `ProxyChain::record_success`. -/
def recordSuccess (chain : ProxyChain) : ProxyChain :=
  let active := chain.activeIndex
  { chain with
    consecutiveFailures := chain.consecutiveFailures.set active 0
    consecutiveSuccesses := chain.consecutiveSuccesses.set active
      (saturatingSuccU8 (chain.consecutiveSuccesses.get active)) }

/-- `ProxyChain::make_active`. -/
def makeActive (chain : ProxyChain) (index : ℕ) : Except EgressError ProxyChain :=
  if h : index < chain.endpoints.length then
    .ok
      { chain with
        activeIndex := ⟨index, h⟩
        consecutiveFailures := chain.consecutiveFailures.set index 0
        consecutiveSuccesses := chain.consecutiveSuccesses.set index 0 }
  else .error .unknownProxyIndex

/-- The failures in a row that are counted for an endpoint. -/
def failures? (chain : ProxyChain) (j : ℕ) : Option ℕ :=
  chain.consecutiveFailures[j]?.map UInt8.toNat

variable {chain : ProxyChain}

/-- A new chain starts at its first endpoint, with nothing counted. -/
theorem new_spec {endpoints : List ProxyEndpoint} (h : ProxyChain.new endpoints = .ok chain) :
    (chain.activeIndex : ℕ) = 0 ∧ ∀ j, ∀ n ∈ chain.failures? j, n = 0 := by
  unfold ProxyChain.new at h
  split at h
  · obtain rfl := Except.ok.inj h
    refine ⟨rfl, fun j n hn => ?_⟩
    simp only [failures?, Vector.getElem?_replicate, Option.mem_def] at hn
    split at hn
    · exact (Option.some.inj hn).symm
    · cases hn
  · cases h

/-- Changing the counter of the active endpoint. -/
theorem getElem?_set_active (counters : Vector UInt8 chain.endpoints.length) (f : UInt8 → UInt8)
    (j : ℕ) :
    (counters.set chain.activeIndex (f (counters.get chain.activeIndex)))[j]? =
      if j = chain.activeIndex then counters[j]?.map f else counters[j]? := by
  rw [Vector.getElem?_set]
  by_cases hj : j = chain.activeIndex
  · subst hj
    rw [if_pos rfl, if_pos rfl, Vector.getElem?_eq_getElem chain.activeIndex.isLt]
    rfl
  · rw [if_neg (Ne.symm hj), if_neg hj]

/-- A failure is counted for the active endpoint. -/
theorem failures?_recordFailure (j : ℕ) :
    chain.recordFailure.failures? j =
      if j = chain.activeIndex then (chain.failures? j).map fun n => min (n + 1) 255
      else chain.failures? j := by
  change Option.map _ (chain.consecutiveFailures.set chain.activeIndex
    (saturatingSuccU8 (chain.consecutiveFailures.get chain.activeIndex)))[j]? = _
  rw [getElem?_set_active]
  split
  · simp only [failures?, Option.map_map, Function.comp_def, toNat_saturatingSuccU8]
  · rfl

/-- A success clears the count of the active endpoint. -/
theorem failures?_recordSuccess (j : ℕ) :
    chain.recordSuccess.failures? j =
      if j = chain.activeIndex then (chain.failures? j).map fun _ => 0 else chain.failures? j := by
  change Option.map _ (chain.consecutiveFailures.set chain.activeIndex 0)[j]? = _
  rw [getElem?_set_active chain.consecutiveFailures fun _ => 0]
  split
  · simp only [failures?, Option.map_map, Function.comp_def, UInt8.toNat_zero]
  · rfl

/-- **When the next endpoint becomes active**: after the third failure in a
row that is counted for the active one. -/
theorem activeIndex_recordFailure :
    (chain.recordFailure.activeIndex : ℕ) = chain.activeIndex ∨
      (chain.recordFailure.activeIndex : ℕ) = chain.activeIndex + 1 ∧
        ∃ n ∈ chain.recordFailure.failures? chain.activeIndex, 3 ≤ n := by
  by_cases h : 3 ≤ saturatingSuccU8 (chain.consecutiveFailures.get chain.activeIndex) ∧
      chain.activeIndex + 1 < chain.endpoints.length
  · refine .inr ⟨?_, _, ?_, UInt8.le_iff_toNat_le.mp h.1⟩
    · simp [recordFailure, h]
    · change Option.map _ (chain.consecutiveFailures.set chain.activeIndex
        (saturatingSuccU8 (chain.consecutiveFailures.get chain.activeIndex)))[
          (chain.activeIndex : ℕ)]? = _
      rw [Vector.getElem?_set, if_pos rfl]
      rfl
  · refine .inl ?_
    simp only [recordFailure, dif_neg h]

end ProxyChain

end Egress

end Llmap
