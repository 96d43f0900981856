import Llmap.DataPlane.Delivery
/-!
# The stages of a call

What a call of `handle` has in hand is seen by what it does next. It
chooses an account, loads and prepares it, takes a slot of it with
`start_request`, sends, and gives the slot back with `record_outcome`
(`handle_staged`).
-/

namespace Llmap

namespace DataPlane

open Auth Providers Routing Storage

/-- How far a call has got with an account. -/
inductive Stage where
  /-- It has none, or none any more. -/
  | idle
  /-- It has chosen one, and not started. -/
  | chosen (accountId : String)
  /-- It has started, and recorded no outcome. -/
  | started (accountId : String)
deriving DecidableEq

/-- The stage at which a step is made. -/
def Op.stage : Op → Stage
  | .loadAccount accountId | .startRequest accountId => .chosen accountId
  | .send upstream => .started upstream.accountId
  | .recordOutcome accountId _ => .started accountId
  | _ => .idle

/-- The stage to which it leads. -/
def Op.reached : (o : Op) → o.Resp → Stage
  | .choose .., .ok selection => .chosen selection.accountId
  | .loadAccount _, .ok (account, _) => .chosen account.id
  | .startRequest accountId, .ok _ => .started accountId
  | .send upstream, _ => .started upstream.accountId
  | _, _ => .idle

/-- **A call goes through the stages in order**, and ends as `Q` says. -/
def Staged {α : Type} (Q : Stage → α → Prop) (stage : Stage) (p : Part α) : Prop :=
  p.Follows (fun _ o r => o.reached r) (fun stage o => o.stage = stage) Q stage

/-- A call may end when it has chosen, but not when it has started. -/
def Unstarted {α : Type} (stage : Stage) (_ : α) : Prop :=
  ∀ accountId, stage ≠ .started accountId

theorem unstarted_idle {α : Type} (a : α) : Unstarted .idle a := by
  rintro accountId ⟨⟩

section Handle

variable [Codecs] [Serde] [Urls] [Digests] [Chrono]

omit [Serde] [Urls] [Digests] [Chrono] in
theorem deliver_staged (ask : Asked) (now : DateTime) (provider : String)
    {account : ProviderAccount} {upstream : UpstreamRequest}
    (haccount : upstream.accountId = account.id) :
    Staged (fun stage _ => stage = .idle) (.chosen account.id)
      (deliver ask now provider account upstream) := by
  have hstage : (Op.send upstream).stage = .started account.id := congrArg Stage.started haccount
  refine ⟨rfl, ?_⟩
  rintro (error | _)
  · exact rfl
  · refine ⟨hstage, ?_⟩
    rintro (error | response)
    · exact ⟨hstage.symm, fun _ => ⟨rfl, fun _ => rfl⟩⟩
    · refine ⟨hstage.symm, ?_⟩
      rintro (error | _)
      · exact rfl
      · exact ⟨rfl, fun _ => rfl⟩

/-- Forwarding ends idle, or fails with an account chosen and leaves
nothing to audit. -/
theorem forward_staged (request : ProxyRequest) (now : DateTime) :
    Staged (fun stage answer => stage = .idle ∨
      Unstarted stage answer ∧ answer.trail = none) .idle (forward request now) := by
  unfold forward
  split
  · exact .inl rfl
  · refine ⟨rfl, ?_⟩
    rintro (error | selection)
    · exact .inl rfl
    · refine ⟨rfl, ?_⟩
      rintro ((_ | _ | _) | ⟨account, credential⟩)
      · exact .inl rfl
      · exact .inl rfl
      · exact .inl rfl
      · dsimp only
        split
        · refine .inr ⟨?_, rfl⟩
          rintro accountId ⟨⟩
        · rename_i hupstream
          exact (deliver_staged _ _ _ (accountId_of_upstreamRequest hupstream)).mono
            fun _ _ hidle => .inl hidle

theorem admitted_staged (plane : Plane) (request : ProxyRequest) (now : DateTime)
    (decision : AuthDecision) : Staged Unstarted .idle (admitted plane request now decision) := by
  have hsent : Staged Unstarted .idle (forward request now >>= audited plane now decision) := by
    refine (forward_staged request now).bind ?_
    intro stage answer hanswer
    unfold audited
    rcases hanswer with rfl | ⟨hunstarted, htrail⟩
    · split
      · exact unstarted_idle _
      · exact ⟨rfl, fun _ => ⟨rfl, fun _ => unstarted_idle _⟩⟩
    · rw [htrail]
      exact hunstarted
  unfold admitted
  cases decision.observedFailure with
  | false => exact hsent
  | true => exact ⟨rfl, fun _ => hsent⟩

/-- **Every call goes through the stages in order**, and whatever exit it
takes, it gives back the slot it took. -/
theorem handle_staged (plane : Plane) (request : ProxyRequest) :
    Staged Unstarted .idle (handle plane request) := by
  refine ⟨rfl, fun _ => ?_⟩
  dsimp only
  split
  · exact unstarted_idle _
  · split
    · exact unstarted_idle _
    · refine ⟨rfl, fun now => ⟨rfl, ?_⟩⟩
      rintro (error | snapshot)
      · exact unstarted_idle _
      · unfold authorized
        dsimp only
        split
        · exact ⟨rfl, fun _ => ⟨rfl, fun _ => ⟨rfl, fun _ => unstarted_idle _⟩⟩⟩
        · exact admitted_staged plane request now _

end Handle

end DataPlane

end Llmap
