import Llmap.Admin.Model
import Llmap.Providers.Ready
import Llmap.Storage.Accounts
/-!
# Accounts that are accepted and cannot serve

`validate_account_input` looks at an account's address, but neither at
what its provider needs of it besides nor at what its credential is. An
account that lacks any of it is stored and routed to, and no request for
messages gets as far as being sent.
-/

namespace Llmap

namespace Admin

open Providers Secrets Storage

section Usable

variable [Serde]

/-- **What a provider needs of an account**: a compatible one a header to
put the credential in, Bedrock a name for every model that is listed, a
signature a credential to sign with, and a token that looks like an
envelope has to be one. -/
structure Usable (input : AccountInput) : Prop where
  header : input.kind = .anthropicCompatible →
    input.compatibleAuthHeader.any validHeaderName = true
  models : input.kind.isBedrock = true → ∀ name, name ≠ "" → input.modelMap[name]? ≠ some ""
  signs : input.kind = .bedrockSigV4 → Signs input.credential
  decodes : ∃ decoded, decodedCredential input.kind input.credential = .ok decoded

omit [Serde] in
/-- A Bedrock account has a name for every model it accepts exactly if it
has one for every model that is listed. -/
theorem named_iff (account : ProviderAccount) :
    (∀ model, model ≠ "" → Models.accepted account.modelMap.keys.toFinset model = true →
        upstreamModelOf account model ≠ "") ↔
      ∀ name, name ≠ "" → account.modelMap[name]? ≠ some "" := by
  constructor
  · intro h name hname hlisted
    have hmem : name ∈ account.modelMap.keys.toFinset := by
      rw [List.mem_toFinset, Std.ExtTreeMap.mem_keys, Std.ExtTreeMap.mem_iff_isSome_getElem?,
        hlisted]
      rfl
    refine h name hname (Models.accepted_of_mem hmem) ?_
    rw [upstreamModelOf, Models.resolve_of_getElem? hlisted]
    rfl
  · intro h model hmodel _ hempty
    unfold upstreamModelOf at hempty
    cases hresolved : Models.resolve account.modelMap model with
    | none =>
        rw [hresolved] at hempty
        exact hmodel hempty
    | some upstream =>
        rw [hresolved] at hempty
        obtain rfl : upstream = "" := hempty
        obtain ⟨key, hkey, hlisted⟩ := Models.listed_of_resolve hresolved
        refine h key ?_ hlisted
        rcases hkey with rfl | hknown | rfl
        · exact hmodel
        · rintro rfl
          exact absurd hknown (by decide)
        · decide

variable [Urls]

omit [Serde] in
/-- Validation lets through nothing but addresses of servers. -/
theorem server_of_validate {input : AccountInput} (h : validateAccountInput input = .ok ()) :
    input.account.baseUrl.scheme = "https" ∧ ∃ host, input.account.baseUrl.host = some host := by
  have hvalid := validateAccountInput_eq_ok_iff.mp h
  exact ⟨hvalid.scheme, Option.ne_none_iff_exists'.mp hvalid.host⟩

variable [Sealing] [Digests] [Chrono]

/-- The request for messages that comes of a stored account: it is loaded,
and the request is prepared and authenticated. -/
def messagesRequest (box : SecretBox) (database : Database) (accountId model : String)
    (stream : Bool) (body : Bytes) (now : DateTime) :
    Except (StorageError ⊕ ProviderError) PreparedProviderRequest :=
  match ((loadAccount box accountId).run Database.exec database).2 with
  | .error error => .error (.inl error)
  | .ok (account, credential) =>
      (readyRequest account credential "/v1/messages" model stream "POST" body now).mapError .inr

variable [LawfulSerde] [LawfulSealing] {box : SecretBox} {nonces : WriteNonces}
  {input : AccountInput} {row : AccountRow} {database : Database}

omit [Digests] [Chrono] in
/-- The account is loaded as it was given, if its credential can be
decoded. -/
theorem loadAccount_stored (hrow : sealedRow box nonces input.account input.credential = .ok row)
    (hstored : database.providerAccounts[input.id]? = some row) :
    ((loadAccount box input.id).run Database.exec database).2 =
      ((decodedCredential input.kind input.credential).mapError .invalidAccount).map
        fun decoded => (input.account, decoded.1) := by
  have hopened : openedRow box input.id row = .ok (input.account, input.credential) :=
    (holds_of_sealedRow hrow).opens
  have hkind : input.account.kind = input.kind := rfl
  unfold loadAccount
  simp only [Prog.run, Database.exec, hstored, loadedRow, hopened, hkind]
  cases decodedCredential input.kind input.credential <;> rfl

omit [Urls] [Sealing] [Digests] [Chrono] [LawfulSerde] [LawfulSealing] in
/-- A credential that signs is not changed by decoding it. -/
theorem decoded_eq {kind : ProviderKind} {credential : String}
    {decoded : String × Option DateTime} (hkind : kind = .bedrockSigV4)
    (h : decodedCredential kind credential = .ok decoded) : decoded.1 = credential := by
  unfold decodedCredential at h
  rw [if_pos (.inl (by simp [hkind]))] at h
  cases h
  rfl

/-- One request can be made exactly if the credential can be decoded, and
the account has what the request takes. -/
theorem messagesRequest_iff [LawfulHttps] (haccepted : validateAccountInput input = .ok ())
    (hrow : sealedRow box nonces input.account input.credential = .ok row)
    (hstored : database.providerAccounts[input.id]? = some row) (model : String) (stream : Bool)
    (body : Bytes) (now : DateTime) :
    (∃ request, messagesRequest box database input.id model stream body now = .ok request) ↔
      ∃ decoded, decodedCredential input.kind input.credential = .ok decoded ∧
        Serves input.account decoded.1 model := by
  obtain ⟨hscheme, host, hhost⟩ := server_of_validate haccepted
  unfold messagesRequest
  rw [loadAccount_stored hrow hstored]
  cases hdecoded : decodedCredential input.kind input.credential with
  | error error => simp [Except.mapError, Except.map]
  | ok decoded =>
      have hready := readyRequest_messages_iff hscheme hhost
        decoded.1 model stream "POST" body now
      simp only [Except.mapError, Except.map, Except.ok.injEq, exists_eq_left', ← hready]
      cases readyRequest input.account decoded.1 "/v1/messages" model stream "POST" body now with
      | error error => simp
      | ok request => simp

/-- **An account that is accepted serves every model it accepts** exactly
if its provider has what it needs of it, or there is no such model. -/
theorem accepted_account_usable_iff [LawfulHttps] (box : SecretBox) (nonces : WriteNonces)
    (input : AccountInput) (row : AccountRow) (database : Database)
    (haccepted : validateAccountInput input = .ok ())
    (hrow : sealedRow box nonces input.account input.credential = .ok row)
    (hstored : database.providerAccounts[input.id]? = some row) :
    (∀ model, model ≠ "" → Models.accepted input.modelMap.keys.toFinset model = true →
        ∀ stream body now, ∃ request,
          messagesRequest box database input.id model stream body now = .ok request) ↔
      (input.modelMap.keys.toFinset ≠ {""} → Usable input) := by
  have hrequest := messagesRequest_iff haccepted hrow hstored
  constructor
  · intro h hkeys
    have hserves := fun model hmodel hmodels =>
      (hrequest model false [] 0).mp (h model hmodel hmodels false [] 0)
    obtain ⟨model, hmodel, hmodels⟩ := Models.exists_accepted_iff.mpr hkeys
    obtain ⟨decoded, hdecoded, hheader, -, hsigns⟩ := hserves model hmodel hmodels
    refine ⟨hheader, fun hkind => ?_, fun hkind => ?_, decoded, hdecoded⟩
    · refine (named_iff input.account).mp fun model hmodel hmodels => ?_
      obtain ⟨_, -, hnamed⟩ := hserves model hmodel hmodels
      exact hnamed.model hkind
    · exact decoded_eq hkind hdecoded ▸ hsigns hkind
  · intro h model hmodel hmodels stream body now
    have husable := h (Models.exists_accepted_iff.mp ⟨model, hmodel, hmodels⟩)
    obtain ⟨decoded, hdecoded⟩ := husable.decodes
    refine (hrequest model stream body now).mpr ⟨decoded, hdecoded, husable.header, ?_, ?_⟩
    · intro hkind
      exact (named_iff input.account).mpr (husable.models hkind) model hmodel hmodels
    · intro hkind
      rw [decoded_eq hkind hdecoded]
      exact husable.signs hkind

end Usable

section Example

open scoped Plain

/-- An account at a provider, with nothing particular about it. -/
def given (kind : ProviderKind) (modelMap : Table String String) (header : Option String)
    (credential : String) : AccountInput where
  id := "a"
  label := "a"
  kind := kind
  baseUrl := ⟨"https", "", none, some "api.example", none, "/", none, none⟩
  enabled := true
  modelMap := modelMap
  egressProxies := []
  compatibleAuthHeader := header
  compatibleAuthPrefix := none
  credential := credential

/-- The table with that account in it. -/
def givenStored (input : AccountInput) : Database :=
  ((Storage.Op.upsert ⟨Vector.replicate 24 0, Vector.replicate 24 1⟩ input.account
    input.credential).apply Plain.box Database.empty).1

/-- A Bedrock account that lists one model by its family, and serves it. -/
theorem accepted_bedrock_usable :
    let input := given .bedrockApiKey (Table.collect [("sonnet", "anthropic.claude")]) none "key"
    validateAccountInput input = .ok () ∧
      ∀ model, model ≠ "" → Models.accepted input.modelMap.keys.toFinset model = true →
        ∀ stream body now, ∃ request, messagesRequest Plain.box (givenStored input) input.id model
          stream body now = .ok request := by
  intro input
  have haccepted : validateAccountInput input = .ok () := by decide +kernel
  have hsealed : (sealedRow Plain.box ⟨Vector.replicate 24 0, Vector.replicate 24 1⟩
      input.account input.credential).toOption.isSome = true := by decide +kernel
  obtain ⟨row, hmem⟩ := Option.isSome_iff_exists.mp hsealed
  have hrow := mem_toOption_iff.mp hmem
  have hstored : (givenStored input).providerAccounts[input.id]? = some row := by
    rw [givenStored, apply_upsert, hrow]
    exact (Database.accounts_upsert _ _ _ _).trans (if_pos rfl)
  refine ⟨haccepted, (accepted_account_usable_iff Plain.box _ input row _ haccepted hrow
    hstored).mpr fun _ => ⟨nofun, fun _ name _ hempty => ?_, nofun, _, rfl⟩⟩
  have hnamed : ∀ entry ∈ input.modelMap.toList, entry.2 ≠ "" := by decide +kernel
  exact hnamed (name, "") (Std.ExtTreeMap.mem_toList_iff_getElem?_eq_some.mpr hempty) rfl

/-- **Accepted, and of no use.** A compatible account without a header, an
account that is to sign with what is no AWS credential, a Bedrock account
with a model that has no name upstream, and an OAuth account with half an
envelope are accepted and routed to, and no request for the messages of a
model they accept can be made. -/
theorem accepted_account_unusable :
    let inputs := [given .anthropicCompatible ∅ none "key", given .bedrockSigV4 ∅ none "key",
      given .bedrockApiKey (Table.collect [("default", "")]) none "key",
      given .claudeOauth ∅ none "\x7b"]
    (∀ input ∈ inputs, validateAccountInput input = .ok () ∧
      Models.accepted input.modelMap.keys.toFinset "claude-sonnet-4-5" = true) ∧
    ∀ input ∈ inputs, ∀ stream, (messagesRequest Plain.box (givenStored input) input.id
      "claude-sonnet-4-5" stream [] 0).isOk = false := by
  decide +kernel

end Example

end Admin

end Llmap
