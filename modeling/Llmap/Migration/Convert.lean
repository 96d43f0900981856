import Llmap.Migration.Model
import Llmap.Plain
/-!
# Conversion

What is converted, and into what: the specification of each step of
`convert_entry`. Whatever goes wrong names the index of the entry
(`MigrationError.index?`).
-/

namespace Llmap

namespace Migration

open Providers

/-- The index an error names. -/
def MigrationError.index? : MigrationError → Option UInt16
  | .incompleteAccount index => some index
  | .invalidJson index => some index
  | .invalidProvider index _ => some index
  | _ => none

/-- Errors that name an index. -/
def ErrsAt {α : Type} (index : UInt16) (result : Except MigrationError α) : Prop :=
  ∀ error, result = .error error → error.index? = some index

theorem errsAt_ok {α : Type} {index : UInt16} {value : α} : ErrsAt index (.ok value) := nofun

theorem errsAt_error {α : Type} {index : UInt16} {error : MigrationError}
    (h : error.index? = some index) : ErrsAt index (.error error : Except MigrationError α) := by
  rintro error' ⟨⟩
  exact h

section Convert

variable [LegacyCrates] [Urls] {index : UInt16} {legacy : LegacyCredential}

omit [Urls] in
theorem errsAt_convertOauth (index : UInt16) (oauth : LegacyOAuth) :
    ErrsAt index (convertOauth index oauth) := by
  unfold convertOauth
  split
  · exact errsAt_error rfl
  · split
    · exact errsAt_error rfl
    · exact errsAt_ok

theorem errsAt_convertBedrock (index : UInt16) (legacy : LegacyCredential) :
    ErrsAt index (convertBedrock index legacy) := by
  unfold convertBedrock
  dsimp only
  split
  · exact errsAt_error rfl
  · split
    · exact errsAt_error rfl
    · split
      · exact errsAt_ok
      · split
        · exact errsAt_error rfl
        · exact errsAt_ok

omit [LegacyCrates] in
theorem errsAt_convertApiKey (index : UInt16) (legacy : LegacyCredential) (providerType : String) :
    ErrsAt index (convertApiKey index legacy providerType) := by
  unfold convertApiKey
  split
  · exact errsAt_error rfl
  · dsimp only
    split
    · exact errsAt_error rfl
    · split
      · exact errsAt_error rfl
      · split
        · exact errsAt_error rfl
        · split <;> exact errsAt_ok

theorem errsAt_legacyProvider (index : UInt16) (legacy : LegacyCredential) :
    ErrsAt index (legacyProvider index legacy) := by
  unfold legacyProvider
  split
  · exact errsAt_convertOauth index _
  · unfold convertApiProvider
    split
    · exact errsAt_convertBedrock index legacy
    · exact errsAt_convertApiKey index legacy _

omit [Urls] in
/-- What OAuth is converted to. -/
theorem convertOauth_eq_ok {oauth : LegacyOAuth} {provider : Provider}
    (h : convertOauth index oauth = .ok provider) :
    ∃ expiresAt, LegacyCrates.fromTimestampMillis oauth.expiresAt = some expiresAt ∧
      provider = ⟨.claudeOauth, anthropicUrl, none, none,
        LegacyCrates.oauthEnvelopeToString (oauth.envelope expiresAt)⟩ := by
  unfold convertOauth at h
  split at h
  · cases h
  · split at h
    · cases h
    · rename_i expiresAt hexpires
      exact ⟨expiresAt, hexpires, (Except.ok.inj h).symm⟩

/-- What is converted for Bedrock: with both keys, they are what signs. -/
theorem convertBedrock_eq_ok {provider : Provider}
    (h : convertBedrock index legacy = .ok provider) :
    ∃ baseUrl, validRegion legacy.regionName = true ∧
      Urls.parse ("https://" ++ bedrockHost legacy.regionName ++ "/") = some baseUrl ∧
      ((∃ accessKeyId secretAccessKey, legacy.accessKeyId = some accessKeyId ∧
          legacy.secretAccessKey = some secretAccessKey ∧
          provider = ⟨.bedrockSigV4, baseUrl, none, none, LegacyCrates.awsEnvelopeToString
            (legacy.awsEnvelope accessKeyId secretAccessKey)⟩) ∨
        ∃ apiKey, apiKey ≠ "" ∧ legacy.apiKey = some apiKey ∧
          (legacy.accessKeyId = none ∨ legacy.secretAccessKey = none) ∧
          provider = ⟨.bedrockApiKey, baseUrl, none, none, apiKey⟩) := by
  unfold convertBedrock at h
  dsimp only at h
  split at h
  · cases h
  · rename_i hregion
    split at h
    · cases h
    · rename_i baseUrl hparse
      refine ⟨baseUrl, Bool.not_eq_false _ ▸ hregion, hparse, ?_⟩
      split at h
      · rename_i accessKeyId secretAccessKey hkeyId hsecret
        exact Or.inl ⟨accessKeyId, secretAccessKey, hkeyId, hsecret, (Except.ok.inj h).symm⟩
      · rename_i hmissing
        split at h
        · cases h
        · rename_i apiKey hkey
          obtain ⟨hkey, hne⟩ := Option.filter_eq_some_iff.mp hkey
          refine Or.inr ⟨apiKey, of_decide_eq_true hne, hkey, ?_, (Except.ok.inj h).symm⟩
          cases hkeyId : legacy.accessKeyId with
          | none => exact Or.inl rfl
          | some keyId =>
              cases hsecret : legacy.secretAccessKey with
              | none => exact Or.inr rfl
              | some secretKey => exact absurd hsecret (hmissing keyId secretKey hkeyId)

omit [LegacyCrates] in
/-- What an API key is converted to: Anthropic's own, or a compatible
provider's. -/
theorem convertApiKey_eq_ok {providerType : String} {provider : Provider}
    (h : convertApiKey index legacy providerType = .ok provider) :
    ∃ apiKey address url, apiKey ≠ "" ∧ legacy.apiKey = some apiKey ∧
      (legacy.baseUrl = some address ∨
        legacy.baseUrl = none ∧ address = "https://api.anthropic.com/") ∧
      Urls.parse address = some url ∧ url.scheme = "https" ∧ url.host ≠ none ∧
      (provider = ⟨.anthropicApiKey, url, none, none, apiKey⟩ ∨
        provider = ⟨.anthropicCompatible, compatibleUrl url, some "authorization",
          some "Bearer ", apiKey⟩) := by
  unfold convertApiKey at h
  split at h
  · cases h
  · rename_i apiKey hkey
    obtain ⟨hkey, hne⟩ := Option.filter_eq_some_iff.mp hkey
    dsimp only at h
    split at h
    · cases h
    · rename_i address haddress
      have hgiven : legacy.baseUrl = some address ∨
          legacy.baseUrl = none ∧ address = "https://api.anthropic.com/" := by
        cases hbase : legacy.baseUrl with
        | none =>
            rw [hbase, Option.none_or, Option.ite_none_right_eq_some] at haddress
            exact Or.inr ⟨rfl, (Option.some.inj haddress.2).symm⟩
        | some given =>
            rw [hbase, Option.some_or] at haddress
            exact Or.inl haddress
      split at h
      · cases h
      · rename_i url hparse
        split at h
        · cases h
        · rename_i hserver
          obtain ⟨hscheme, hhost⟩ := not_or.mp hserver
          refine ⟨apiKey, address, url, of_decide_eq_true hne, hkey, hgiven, hparse,
            not_not.mp hscheme, hhost, ?_⟩
          split at h
          · exact Or.inl (Except.ok.inj h).symm
          · exact Or.inr (Except.ok.inj h).symm

/-- **What an entry is converted to.** -/
theorem convertEntry_eq_ok_iff {entry : LegacyEntry} {imported : ImportedAccount} :
    convertEntry index entry = .ok imported ↔ ∃ name credential legacy provider,
      entry.name = some name ∧ trim name ≠ "" ∧ entry.credential = some credential ∧
        LegacyCredential.fromStr credential = some legacy ∧
        legacyProvider index legacy = .ok provider ∧
        imported = importedAccount index name entry.enabled legacy provider := by
  unfold convertEntry
  constructor
  · intro h
    split at h
    · cases h
    · rename_i name hname
      obtain ⟨hname, htrim⟩ := Option.filter_eq_some_iff.mp hname
      split at h
      · cases h
      · rename_i credential hcredential
        split at h
        · cases h
        · rename_i legacy hlegacy
          obtain ⟨provider, hprovider, rfl⟩ := map_eq_ok_iff.mp h
          exact ⟨name, credential, legacy, provider, hname, of_decide_eq_true htrim, hcredential,
            hlegacy, hprovider, rfl⟩
  · rintro ⟨name, credential, legacy, provider, hname, htrim, hcredential, hlegacy, hprovider, rfl⟩
    simp [hname, Option.filter, htrim, hcredential, hlegacy, convertCredential, hprovider,
      Except.map]

/-- Whatever goes wrong with an entry names its index. -/
theorem errsAt_convertEntry (index : UInt16) (entry : LegacyEntry) :
    ErrsAt index (convertEntry index entry) := by
  unfold convertEntry
  split
  · exact errsAt_error rfl
  · split
    · exact errsAt_error rfl
    · split
      · exact errsAt_error rfl
      · rename_i legacy _
        intro error herror
        refine errsAt_legacyProvider index legacy error ?_
        unfold convertCredential at herror
        cases hprovider : legacyProvider index legacy with
        | error error' =>
            rw [hprovider] at herror
            cases herror
            rfl
        | ok provider =>
            rw [hprovider] at herror
            cases herror

end Convert

/-! ## Ids -/

theorem accountId_injective : Function.Injective accountId := by
  intro left right h
  have hdigits : (toString left.toNat).toList = (toString right.toNat).toList := by
    have htext := congrArg String.toList h
    simpa [accountId, String.toList_append] using htext
  have hrepr : left.toNat.repr = right.toNat.repr := String.toList_inj.mp hdigits
  exact UInt16.toNat_inj.mp (Nat.repr_inj.mp hrepr)

/-! ## Documents that are listed -/

/-- The text of an envelope of OAuth. A scope that is none is left out. -/
def writeTokens (envelope : OAuthEnvelope) : String :=
  JsonText.print (.object ([("access_token", .string envelope.accessToken),
    ("refresh_token", .string envelope.refreshToken),
    ("expires_at", .string (PlainSerde.instantText envelope.expiresAt)),
    ("token_endpoint", .string envelope.tokenEndpoint),
    ("client_id", .string envelope.clientId)] ++
    envelope.scope.toList.map fun scope => ("scope", .string scope)))

/-- The text of an envelope of AWS. A session token that is none is left out. -/
def writeKeys (envelope : AwsEnvelope) : String :=
  JsonText.print (.object ([("access_key_id", .string envelope.accessKeyId),
    ("secret_access_key", .string envelope.secretAccessKey)] ++
    (envelope.sessionToken.toList.map fun token => ("session_token", .string token)) ++
    [("region", .string envelope.region)]))

/-- Crates that know the documents of some texts. -/
@[reducible] def LegacyCrates.listed (documents : List (String × Json)) : LegacyCrates where
  documentFromStr text := documents.lookup text
  fromTimestampMillis milliseconds := some (milliseconds * 1000000)
  oauthEnvelopeToString := writeTokens
  awsEnvelopeToString := writeKeys

/-- The text of an API key of Anthropic's. -/
def keyText : String := "\x7b\"type\":\"anthropic\",\"apiKey\":\"k\"\x7d"

/-- Its document. -/
def keyDocument : Json := .object [("type", .string "anthropic"), ("apiKey", .string "k")]

end Migration

end Llmap
