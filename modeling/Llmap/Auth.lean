import Llmap.Crates
/-!
# Client authentication

`auth.rs`: a client shows a token, and it is accepted when its keyed
digest is that of a token some active account holds. All digests are
compared, so of several accounts that hold the token the last is named
(`matchedAccountId_eq_find?`).
-/

namespace Llmap

namespace Auth

/-- `AuthMode`. -/
inductive AuthMode where
  | off
  | observe
  | enforce
deriving DecidableEq

/-- `CredentialVersion`. -/
structure CredentialVersion where
  digest : Bytes
  expiresAt : Option DateTime
deriving DecidableEq

/-- `AccountCredential`. -/
structure AccountCredential where
  accountId : String
  active : Bool
  current : CredentialVersion
  previous : List CredentialVersion
deriving DecidableEq

/-- `CredentialSnapshot`. -/
inductive CredentialSnapshot where
  | available (accounts : List AccountCredential)
  | unavailable
deriving DecidableEq

/-- `AuthDecision`. -/
structure AuthDecision where
  allowed : Bool
  observedFailure : Bool
  matchedAccountId : Option String
deriving DecidableEq

/-- `AuthError`. -/
inductive AuthError where
  | unauthorized
  | credentialStoreUnavailable
deriving DecidableEq

/-- `Authenticator`. -/
structure Authenticator where
  digestKey : Vector UInt8 32
deriving DecidableEq

/-- Whether a version is still valid: it has no expiry, or one to come. -/
def CredentialVersion.notExpired (version : CredentialVersion) (now : DateTime) : Bool :=
  version.expiresAt.all fun expiry => now < expiry

/-- `Authenticator::digest`. -/
def Authenticator.digest [Digests] (authenticator : Authenticator) (token : String) : Bytes :=
  Digests.hmacSha256 authenticator.digestKey.toList (asBytes token)

namespace AccountCredential

variable [Digests]

/-- `AccountCredential::active`. -/
def active' (authenticator : Authenticator) (accountId token : String) : AccountCredential where
  accountId := accountId
  active := true
  current := ⟨authenticator.digest token, none⟩
  previous := []

/-- `AccountCredential::with_previous`. -/
def withPrevious (credential : AccountCredential) (authenticator : Authenticator) (token : String)
    (expiresAt : DateTime) : AccountCredential :=
  { credential with
    previous := credential.previous ++ [⟨authenticator.digest token, some expiresAt⟩] }

omit [Digests] in
/-- `AccountCredential::with_current_expiry`. -/
def withCurrentExpiry (credential : AccountCredential) (expiresAt : Option DateTime) :
    AccountCredential :=
  { credential with current := { credential.current with expiresAt := expiresAt } }

/-- `AccountCredential::paused`. -/
def paused (credential : AccountCredential) : AccountCredential :=
  { credential with active := false }

end AccountCredential

/-! ## Matching -/

/-- The loop body of `authorize`: the account matched so far, and what
becomes of it at this one. -/
def matchAccount (presented : Bytes) (now : DateTime) (matched : Option String)
    (account : AccountCredential) : Option String :=
  let check (matched : Option String) (version : CredentialVersion) : Option String :=
    if account.active && version.notExpired now && presented = version.digest
    then some account.accountId else matched
  account.previous.foldl check (check matched account.current)

/-- The account `authorize` matches a digest with. -/
def matchedAccountId (presented : Bytes) (accounts : List AccountCredential) (now : DateTime) :
    Option String :=
  accounts.foldl (matchAccount presented now) none

/-- `Authenticator::authorize`. -/
def Authenticator.authorize [Digests] (authenticator : Authenticator) (mode : AuthMode)
    (presentedToken : Option String) (snapshot : CredentialSnapshot) (now : DateTime) :
    Except AuthError AuthDecision :=
  match mode, snapshot with
  | .off, _ => .ok ⟨true, false, none⟩
  | .observe, .unavailable => .ok ⟨true, true, none⟩
  | .enforce, .unavailable => .error .credentialStoreUnavailable
  | mode, .available accounts =>
      -- a missing token is hashed too, as the empty one
      let presented := authenticator.digest (presentedToken.getD "")
      match matchedAccountId presented accounts now with
      | some accountId => .ok ⟨true, false, some accountId⟩
      | none => if mode = .observe then .ok ⟨true, true, none⟩ else .error .unauthorized

/-- **An account that admits a digest**: it is active, and the digest is
that of a version of its credential that is not expired. -/
def AccountCredential.admits (account : AccountCredential) (presented : Bytes) (now : DateTime) :
    Bool :=
  account.active && (account.current :: account.previous).any fun version =>
    version.notExpired now && presented = version.digest

theorem notExpired_iff {version : CredentialVersion} {now : DateTime} :
    version.notExpired now = true ↔
      ∀ instant, version.expiresAt = some instant → now < instant := by
  simp [CredentialVersion.notExpired, Option.all_eq_true]

theorem admits_iff {account : AccountCredential} {presented : Bytes} {now : DateTime} :
    account.admits presented now = true ↔ account.active = true ∧
      ((account.current.notExpired now = true ∧ presented = account.current.digest) ∨
        ∃ version ∈ account.previous, version.notExpired now = true ∧
          presented = version.digest) := by
  simp [AccountCredential.admits]

theorem matchAccount_eq (presented : Bytes) (now : DateTime) (matched : Option String)
    (account : AccountCredential) :
    matchAccount presented now matched account =
      if account.admits presented now then some account.accountId else matched := by
  have hfold : ∀ (versions : List CredentialVersion) (matched : Option String),
      versions.foldl (fun matched version =>
        if account.active && version.notExpired now && presented = version.digest
        then some account.accountId else matched) matched =
      if account.active && versions.any (fun version =>
          version.notExpired now && presented = version.digest)
      then some account.accountId else matched := by
    intro versions
    induction versions with
    | nil => simp
    | cons version versions ih =>
        intro matched
        rw [List.foldl_cons, ih, List.any_cons]
        cases account.active <;> cases version.notExpired now <;>
          by_cases h : presented = version.digest <;> simp [h]
  exact hfold (account.current :: account.previous) matched

/-- **Of the accounts that admit a digest the last is matched.** -/
theorem matchedAccountId_eq_find? (presented : Bytes) (accounts : List AccountCredential)
    (now : DateTime) :
    matchedAccountId presented accounts now =
      (accounts.reverse.find? (·.admits presented now)).map (·.accountId) := by
  induction accounts using List.reverseRecOn with
  | nil => rfl
  | append_singleton accounts account ih =>
      rw [matchedAccountId, List.foldl_append, List.foldl_cons, List.foldl_nil,
        ← matchedAccountId, matchAccount_eq, ih, List.reverse_append, List.reverse_singleton,
        List.singleton_append, List.find?_cons]
      cases account.admits presented now <;> rfl

/-- **What enforcement accepts**: exactly a token whose digest some
account admits, and it names the last such account. -/
theorem authorize_enforce_eq_ok_iff [Digests] {authenticator : Authenticator} {token : String}
    {accounts : List AccountCredential} {now : DateTime} {decision : AuthDecision} :
    authenticator.authorize .enforce (some token) (.available accounts) now = .ok decision ↔
      ∃ accountId, (accounts.reverse.find? (·.admits (authenticator.digest token) now)).map
          (·.accountId) = some accountId ∧ decision = ⟨true, false, some accountId⟩ := by
  simp only [Authenticator.authorize, Option.getD_some, matchedAccountId_eq_find?]
  cases (accounts.reverse.find? (·.admits (authenticator.digest token) now)).map
      (·.accountId) with
  | none => simp
  | some accountId => simp [eq_comm]

end Auth

end Llmap
