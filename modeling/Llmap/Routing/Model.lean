import Llmap.Models
import Llmap.Common.Run
/-!
# The router

`routing.rs`: the accounts a proxy may send a request through, the sticky
sessions bound to them, and the operations on both. An operation on the
router is a function to the router it leaves and the answer it gives; the
source runs each of them under one lock.
-/

namespace Llmap

namespace Routing

/-- `RouteAccount`: an account as the router sees it. -/
structure RouteAccount where
  id : String
  provider : String
  enabled : Bool
  healthy : Bool
  inFlight : UInt32
  utilizationBasisPoints : UInt16
  models : Finset String
  depletedUntil : Option DateTime
deriving DecidableEq

/-- `RouteRequest`. -/
structure RouteRequest where
  sessionId : Option String
  model : String
deriving DecidableEq

/-- `RouteSelection`. -/
structure RouteSelection where
  accountId : String
  provider : String
  reusedSession : Bool
deriving DecidableEq

/-- `RouteError`. -/
inductive RouteError where
  | noEligibleAccount
  | unknownAccount
deriving DecidableEq

/-- `UpstreamOutcome`. -/
inductive UpstreamOutcome where
  | success
  | unauthorized
  | rateLimited (retryAt : DateTime)
  | overloaded (retryAt : DateTime)
  | transientFailure
deriving DecidableEq

/-- `SessionBinding`: the account a session sticks to, and when it last
used it. -/
structure SessionBinding where
  accountId : String
  lastSeenAt : DateTime
deriving DecidableEq

/-- `Router`. -/
structure Router where
  accounts : Table String RouteAccount
  sessions : Table String SessionBinding
deriving DecidableEq

/-- `SESSION_IDLE_TIMEOUT`. -/
def sessionIdleTimeout : Int := minutes 30

/-- `eligible`: whether an account may serve the model at an instant. -/
def eligible (account : RouteAccount) (model : String) (now : DateTime) : Bool :=
  account.enabled && account.healthy &&
    account.depletedUntil.all (fun depletedUntil => depletedUntil ≤ now) &&
    (model = "" || Models.accepted account.models model)

/-- The order `choose` minimises by: load first, then utilisation, then
the id. -/
def lighter (left right : RouteAccount) : Ordering :=
  (compare left.inFlight right.inFlight).then
    ((compare left.utilizationBasisPoints right.utilizationBasisPoints).then
      (compare left.id right.id))

/-- `Iterator::min_by` over `lighter`: of several least elements the
first. -/
def leastLoaded (accounts : List RouteAccount) : Option RouteAccount :=
  accounts.foldl
    (fun best account =>
      match best with
      | none => some account
      | some best => if lighter account best = .lt then some account else some best)
    none

namespace Router

/-- The sessions that stay when those bound to an account are evicted. -/
def evict (sessions : Table String SessionBinding) (accountId : String) :
    Table String SessionBinding :=
  sessions.filter fun _ binding => binding.accountId ≠ accountId

/-- `Router::new`. -/
def new (accounts : List RouteAccount) : Router where
  accounts := Table.collect (accounts.map fun account => (account.id, account))
  sessions := ∅

/-- What a replacement account takes over from the one it replaces:
the run-time state, when the enabled flag has not changed. -/
def carryOver (accounts : Table String RouteAccount) (account : RouteAccount) : RouteAccount :=
  match accounts[account.id]?.filter (fun previous => previous.enabled = account.enabled) with
  | some previous =>
      { account with
        healthy := previous.healthy
        inFlight := previous.inFlight
        utilizationBasisPoints := previous.utilizationBasisPoints
        depletedUntil := previous.depletedUntil }
  | none => account

/-- The accounts a router holds after `replace_accounts`. -/
def replacement (router : Router) (accounts : List RouteAccount) : Table String RouteAccount :=
  Table.collect
    ((accounts.map (carryOver router.accounts)).map fun account => (account.id, account))

/-- `Router::replace_accounts`. -/
def replaceAccounts (router : Router) (accounts : List RouteAccount) : Router where
  accounts := router.replacement accounts
  sessions := router.sessions.filter fun _ binding =>
    (router.replacement accounts)[binding.accountId]?.any (·.enabled)

/-- `Router::reset_account_health`. -/
def resetAccountHealth (router : Router) (accountId : String) :
    Router × Except RouteError Unit :=
  match router.accounts[accountId]? with
  | none => (router, .error .unknownAccount)
  | some account =>
      ({ accounts := router.accounts.insert accountId
           { account with healthy := true, depletedUntil := none }
         sessions := evict router.sessions accountId }, .ok ())

/-- The sessions `session_count` retains. -/
def liveSessions (router : Router) (now : DateTime) : Table String SessionBinding :=
  router.sessions.filter fun _ binding => now ≤ binding.lastSeenAt + sessionIdleTimeout

/-- `Router::session_count`. -/
def sessionCount (router : Router) (now : DateTime) : Router × Nat :=
  ({ router with sessions := router.liveSessions now }, (router.liveSessions now).size)

/-- `Router::start_request`. -/
def startRequest (router : Router) (accountId : String) : Router × Except RouteError Unit :=
  match router.accounts[accountId]? with
  | none => (router, .error .unknownAccount)
  | some account =>
      ({ router with
         accounts := router.accounts.insert accountId
           { account with inFlight := saturatingSucc account.inFlight } }, .ok ())

/-- The account a session sticks to, if it may still serve the request:
the first branch of `choose`. -/
def stickyAccount (router : Router) (sessionId model : String) (now : DateTime) :
    Option RouteAccount :=
  (router.sessions[sessionId]?.filter fun binding =>
      now ≤ binding.lastSeenAt + sessionIdleTimeout)
    |>.bind (fun binding => router.accounts[binding.accountId]?)
    |>.filter (fun account => eligible account model now)

/-- The least loaded eligible account: the second branch of `choose`. -/
def freshAccount (router : Router) (model : String) (now : DateTime) : Option RouteAccount :=
  leastLoaded
    ((router.accounts.toList.map Prod.snd).filter fun account => eligible account model now)

/-- The second branch of `choose`, once stickiness is out. -/
def chooseFresh (router : Router) (request : RouteRequest) (now : DateTime) :
    Router × Except RouteError RouteSelection :=
  match router.freshAccount request.model now with
  | none => (router, .error .noEligibleAccount)
  | some account =>
      ({ router with
         sessions := match request.sessionId with
           | some sessionId => router.sessions.insert sessionId ⟨account.id, now⟩
           | none => router.sessions },
       .ok ⟨account.id, account.provider, false⟩)

/-- `Router::choose`. -/
def choose (router : Router) (request : RouteRequest) (now : DateTime) :
    Router × Except RouteError RouteSelection :=
  match request.sessionId with
  | none => router.chooseFresh request now
  | some sessionId =>
      match router.stickyAccount sessionId request.model now with
      | some account =>
          ({ router with
             sessions := router.sessions.modify sessionId fun binding =>
               { binding with lastSeenAt := now } },
           .ok ⟨account.id, account.provider, true⟩)
      | none =>
          -- the stale binding is dropped before a fresh account is looked for
          chooseFresh { router with sessions := router.sessions.erase sessionId } request now

/-- What an outcome changes in its account besides the counter. -/
def markOutcome (account : RouteAccount) : UpstreamOutcome → RouteAccount
  | .success => account
  | .unauthorized => { account with healthy := false }
  | .rateLimited retryAt | .overloaded retryAt => { account with depletedUntil := some retryAt }
  | .transientFailure => account

/-- `Router::record_outcome`. -/
def recordOutcome (router : Router) (accountId : String) (outcome : UpstreamOutcome) :
    Router × Except RouteError Unit :=
  match router.accounts[accountId]? with
  | none => (router, .error .unknownAccount)
  | some account =>
      ({ accounts := router.accounts.insert accountId
           (markOutcome { account with inFlight := saturatingPred account.inFlight } outcome)
         sessions := if outcome = .success then router.sessions
           else evict router.sessions accountId }, .ok ())

end Router

/-! ## Runs -/

/-- An operation on the router, with its arguments. -/
inductive Op where
  | choose (request : RouteRequest) (now : DateTime)
  | startRequest (accountId : String)
  | recordOutcome (accountId : String) (outcome : UpstreamOutcome)
  | replaceAccounts (accounts : List RouteAccount)
  | resetAccountHealth (accountId : String)
  | sessionCount (now : DateTime)

/-- The router an operation leaves. -/
def Op.apply (router : Router) : Op → Router
  | .choose request now => (router.choose request now).1
  | .startRequest accountId => (router.startRequest accountId).1
  | .recordOutcome accountId outcome => (router.recordOutcome accountId outcome).1
  | .replaceAccounts accounts => router.replaceAccounts accounts
  | .resetAccountHealth accountId => (router.resetAccountHealth accountId).1
  | .sessionCount now => (router.sessionCount now).1

/-- The router a sequence of operations leaves. -/
def run (router : Router) (ops : List Op) : Router := Run.final Op.apply router ops

end Routing

end Llmap
