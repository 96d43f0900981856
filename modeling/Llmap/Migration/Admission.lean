import Llmap.Admin.Model
import Llmap.Migration.Lines
import Llmap.Providers.Ready
/-!
# Admission

There are two ways into the list of accounts. What the administrator gives
is checked by `validate_account_input`; what is imported is checked by the
conversion alone. The conversion sees to the id, to the scheme and the host
of the address, and that the credential is there. It does not look at the
length of anything, at what stands before the host, nor at the keys of AWS.
-/

namespace Llmap

namespace Migration

open Providers Admin

/-- An envelope of AWS is read back as it was written, and no envelope is
written as nothing. -/
class LawfulLegacyCrates [LegacyCrates] [Serde] : Prop where
  awsEnvelopeFromStr_toString : ∀ envelope : AwsEnvelope,
    Serde.awsEnvelopeFromStr (LegacyCrates.awsEnvelopeToString envelope) =
      some ⟨envelope.accessKeyId, envelope.secretAccessKey, envelope.sessionToken,
        envelope.region, none⟩
  awsEnvelopeToString_ne_empty : ∀ envelope : AwsEnvelope,
    LegacyCrates.awsEnvelopeToString envelope ≠ ""
  oauthEnvelopeToString_ne_empty : ∀ envelope : OAuthEnvelope,
    LegacyCrates.oauthEnvelopeToString envelope ≠ ""

/-- The administrator's input for an account that is imported, but for its
proxies. -/
def ImportedAccount.input (imported : ImportedAccount) : AccountInput where
  id := imported.account.id
  label := imported.account.label
  kind := imported.account.kind
  baseUrl := imported.account.baseUrl
  enabled := imported.account.enabled
  modelMap := imported.account.modelMap
  egressProxies := []
  compatibleAuthHeader := imported.account.compatibleAuthHeader
  compatibleAuthPrefix := imported.account.compatibleAuthPrefix
  credential := imported.credential

/-- **An account the administrator could have given**, with keys of AWS
that sign where it has any. -/
def Admitted [Serde] [Urls] (imported : ImportedAccount) : Prop :=
  validateAccountInput imported.input = .ok () ∧
    (imported.account.kind = .bedrockSigV4 → Signs imported.credential)

/-! ## The id -/

theorem chars_accountId (index : UInt16) :
    ∀ c ∈ (accountId index).toList, isAsciiAlphanumeric c = true ∨ c = '-' ∨ c = '_' := by
  intro c hc
  rw [accountId, String.toList_append, List.mem_append] at hc
  rcases hc with hc | hc
  · have hstart : ("claudeproxy-".toList.all fun c =>
        isAsciiAlphanumeric c || c = '-' || c = '_') = true := by decide
    simpa [or_assoc] using List.all_eq_true.mp hstart c hc
  · have hdigits : c ∈ Nat.toDigits 10 index.toNat := Nat.toList_repr ▸ hc
    have hdigit : c.isDigit = true := Nat.isDigit_of_mem_toDigits (by omega) (by omega) hdigits
    exact Or.inl (by simp [isAsciiAlphanumeric, Char.isAlphanum, hdigit])

theorem accountId_ne_empty (index : UInt16) : accountId index ≠ "" := by
  intro h
  have hlength := congrArg (fun text => text.toList.length) h
  simp [accountId, String.toList_append] at hlength

theorem byteLen_ofList_le (cs : List Char) : byteLen (String.ofList cs) ≤ 4 * cs.length := by
  rw [byteLen, String.utf8ByteSize_ofList]
  induction cs with
  | nil => simp
  | cons c cs ih =>
      have hc := c.utf8Size_le_four
      rw [String.utf8Len_cons, List.length_cons]
      omega

/-- Twelve bytes, and an index has five digits at the most. -/
theorem byteLen_accountId (index : UInt16) : byteLen (accountId index) ≤ 64 := by
  have hindex : index.toNat < 10 ^ 5 := index.toNat_lt.trans (by omega)
  have hdigits := Nat.toDigits_length 10 index.toNat 5 (by omega) hindex
  have hlength := byteLen_ofList_le (Nat.toDigits 10 index.toNat)
  have hstart : "claudeproxy-".utf8ByteSize = 12 := by decide
  have hid : byteLen (accountId index) =
      12 + byteLen (String.ofList (Nat.toDigits 10 index.toNat)) := by
    rw [byteLen, accountId, String.utf8ByteSize_append, hstart]
    rfl
  omega

/-! ## Keys of AWS -/

/-- A region that is converted has the characters of a name. -/
theorem awsIdentifier_region {region : String} (h : validRegion region = true) :
    awsIdentifier region = true ↔ byteLen region ≤ 256 := by
  simp only [validRegion, Bool.and_eq_true, decide_eq_true_eq, List.all_eq_true,
    Bool.or_eq_true] at h
  simp only [awsIdentifier, Bool.and_eq_true, decide_eq_true_eq, List.all_eq_true, Bool.or_eq_true]
  constructor
  · intro hname
    exact hname.1.2
  · intro hlength
    exact ⟨⟨h.1, hlength⟩, fun c hc => Or.inl (h.2 c hc)⟩

theorem validate_eq_ok_iff {accessKeyId secretAccessKey region : String}
    (sessionToken : Option String) :
    AwsCredentialEnvelope.validate ⟨accessKeyId, secretAccessKey, sessionToken, region, none⟩ =
        .ok () ↔
      awsIdentifier accessKeyId = true ∧ secretAccessKey ≠ "" ∧
        byteLen secretAccessKey ≤ 4096 ∧ awsIdentifier region = true := by
  unfold AwsCredentialEnvelope.validate
  split
  · rename_i hinvalid
    refine iff_of_false nofun fun hvalid => ?_
    obtain ⟨hkeyId, hne, hlength, hregion⟩ := hvalid
    simp [hkeyId, hne, hregion] at hinvalid
    omega
  · rename_i hvalid
    simpa [and_assoc] using hvalid

/-- A region that is converted makes a host. -/
theorem all_hostChar_bedrockHost {region : String} (h : validRegion region = true) :
    (bedrockHost region).toList.all hostChar = true := by
  simp only [validRegion, Bool.and_eq_true, List.all_eq_true] at h
  have hstart : "bedrock-runtime.".toList.all hostChar = true := by decide
  have hend : ".amazonaws.com".toList.all hostChar = true := by decide
  have hregion : region.toList.all hostChar = true := by
    refine List.all_eq_true.mpr fun c hc => ?_
    rw [hostChar, h.2 c hc, Bool.true_or]
  delta bedrockHost
  rw [String.toList_append, String.toList_append, List.all_append, List.all_append,
    hstart, hregion, hend]
  rfl

/-! ## The provider -/

section Convert

variable [LegacyCrates] [Urls] [Serde] {index : UInt16} {legacy : LegacyCredential}
  {provider : Provider}

/-- Nobody's name is in the address that a file gives. -/
def GivenAnonymously (legacy : LegacyCredential) : Prop :=
  ∀ address url, legacy.baseUrl = some address → Urls.parse address = some url →
    url.username = "" ∧ url.password = none

/-- **A credential the administrator could have given.** The secret is no
longer than 32 KiB: the tokens of OAuth and the keys of AWS as they are
written, and an API key as it is. The keys of AWS are well formed, and
nobody's name is in the address. -/
structure Fits (legacy : LegacyCredential) : Prop where
  tokens : ∀ oauth expiresAt, legacy.claudeAiOauth = some oauth →
    LegacyCrates.fromTimestampMillis oauth.expiresAt = some expiresAt →
      byteLen (LegacyCrates.oauthEnvelopeToString (oauth.envelope expiresAt)) ≤ 32 * 1024
  keys : legacy.claudeAiOauth = none → legacy.typeName = "bedrock" → ∀ keyId secretKey,
    legacy.accessKeyId = some keyId → legacy.secretAccessKey = some secretKey →
      awsIdentifier keyId = true ∧ secretKey ≠ "" ∧ byteLen secretKey ≤ 4096 ∧
        byteLen legacy.regionName ≤ 256 ∧
        byteLen (LegacyCrates.awsEnvelopeToString (legacy.awsEnvelope keyId secretKey)) ≤ 32 * 1024
  apiKey : legacy.claudeAiOauth = none →
    (legacy.typeName = "bedrock" → legacy.accessKeyId = none ∨ legacy.secretAccessKey = none) →
      ∀ apiKey, legacy.apiKey = some apiKey → byteLen apiKey ≤ 32 * 1024
  address : legacy.claudeAiOauth = none → legacy.typeName ≠ "bedrock" → GivenAnonymously legacy

/-- **What the conversion leaves to the file**: such a credential, and a
name of no more than 80 bytes. -/
structure Conforms (name : String) (legacy : LegacyCredential) : Prop extends Fits legacy where
  name_length : byteLen name ≤ 80

/-- What the administrator is held to of a provider, and the conversion does
not see to. -/
structure Sound (provider : Provider) : Prop where
  length : byteLen provider.secret ≤ 32 * 1024
  username : provider.baseUrl.username = ""
  password : provider.baseUrl.password = none
  signs : provider.kind = .bedrockSigV4 → Signs provider.secret

/-- **What the conversion sees to**, and what becomes of the rest. -/
structure Checked (legacy : LegacyCredential) (provider : Provider) : Prop where
  scheme : provider.baseUrl.scheme = "https"
  host : provider.baseUrl.host ≠ none
  secret : provider.secret ≠ ""
  sound_iff : Sound provider ↔ Fits legacy

variable [LawfulAuthority] [LawfulLegacyCrates]

omit [LawfulAuthority] in
theorem checked_convertOauth {oauth : LegacyOAuth} (hoauth : legacy.claudeAiOauth = some oauth)
    (h : convertOauth index oauth = .ok provider) : Checked legacy provider := by
  obtain ⟨expiresAt, hexpires, rfl⟩ := convertOauth_eq_ok h
  refine ⟨rfl, by simp [anthropicUrl], ?_, fun hsound => ?_, fun hfits => ?_⟩
  · exact LawfulLegacyCrates.oauthEnvelopeToString_ne_empty _
  · refine ⟨?_, by simp [hoauth], by simp [hoauth], by simp [hoauth]⟩
    intro oauth' expiresAt' hoauth' hexpires'
    obtain rfl := Option.some.inj (hoauth.symm.trans hoauth')
    obtain rfl := Option.some.inj (hexpires.symm.trans hexpires')
    exact hsound.length
  · exact ⟨hfits.tokens oauth expiresAt hoauth hexpires, rfl, rfl, nofun⟩

theorem checked_convertBedrock (hoauth : legacy.claudeAiOauth = none)
    (htype : legacy.typeName = "bedrock") (h : convertBedrock index legacy = .ok provider) :
    Checked legacy provider := by
  obtain ⟨baseUrl, hregion, hparse, hprovider⟩ := convertBedrock_eq_ok h
  have hhost : (bedrockHost legacy.regionName).toList.all hostChar = true :=
    all_hostChar_bedrockHost hregion
  obtain ⟨hscheme, hhost, husername, hpassword⟩ := LawfulAuthority.parse_host hhost hparse
  rcases hprovider with ⟨keyId, secretKey, hkeyId, hsecret, rfl⟩ |
      ⟨apiKey, hne, hkey, hmissing, rfl⟩
  · have hsigns : Signs (LegacyCrates.awsEnvelopeToString (legacy.awsEnvelope keyId secretKey)) ↔
        awsIdentifier keyId = true ∧ secretKey ≠ "" ∧ byteLen secretKey ≤ 4096 ∧
          byteLen legacy.regionName ≤ 256 := by
      simp only [Signs, LawfulLegacyCrates.awsEnvelopeFromStr_toString, Option.some.injEq,
        exists_eq_left', LegacyCredential.awsEnvelope]
      rw [validate_eq_ok_iff, awsIdentifier_region hregion]
    refine ⟨hscheme, hhost, ?_, fun hsound => ?_, fun hfits => ?_⟩
    · exact LawfulLegacyCrates.awsEnvelopeToString_ne_empty _
    · refine ⟨by simp [hoauth], ?_, fun _ hone => ?_, fun _ hother => absurd htype hother⟩
      · intro _ _ keyId' secretKey' hkeyId' hsecret'
        obtain rfl := Option.some.inj (hkeyId.symm.trans hkeyId')
        obtain rfl := Option.some.inj (hsecret.symm.trans hsecret')
        obtain ⟨hwell, hnonempty, hshort, hname⟩ := hsigns.mp (hsound.signs rfl)
        exact ⟨hwell, hnonempty, hshort, hname, hsound.length⟩
      · -- both keys are there
        rcases hone htype with hnone | hnone
        · rw [hkeyId] at hnone
          cases hnone
        · rw [hsecret] at hnone
          cases hnone
    · obtain ⟨hwell, hnonempty, hshort, hname, hlength⟩ :=
        hfits.keys hoauth htype keyId secretKey hkeyId hsecret
      exact ⟨hlength, husername, hpassword,
        fun _ => hsigns.mpr ⟨hwell, hnonempty, hshort, hname⟩⟩
  · refine ⟨hscheme, hhost, hne, fun hsound => ?_, fun hfits => ?_⟩
    · refine ⟨by simp [hoauth], ?_, ?_, fun _ hother => absurd htype hother⟩
      · intro _ _ keyId secretKey hkeyId hsecret
        rw [hkeyId, hsecret] at hmissing
        simp at hmissing
      · intro _ _ apiKey' hkey'
        obtain rfl := Option.some.inj (hkey.symm.trans hkey')
        exact hsound.length
    · exact ⟨hfits.apiKey hoauth (fun _ => hmissing) apiKey hkey, husername, hpassword, nofun⟩

omit [LawfulLegacyCrates] in
theorem checked_convertApiKey (hoauth : legacy.claudeAiOauth = none)
    (htype : legacy.typeName ≠ "bedrock")
    (h : convertApiKey index legacy legacy.typeName = .ok provider) : Checked legacy provider := by
  obtain ⟨apiKey, address, url, hne, hkey, hgiven, hparse, hscheme, hhost, hprovider⟩ :=
    convertApiKey_eq_ok h
  have huserinfo : url.username = "" ∧ url.password = none ↔ GivenAnonymously legacy := by
    rcases hgiven with hgiven | ⟨hgiven, rfl⟩
    · constructor
      · rintro hurl address' url' haddress' hparse'
        obtain rfl := Option.some.inj (hgiven.symm.trans haddress')
        obtain rfl := Option.some.inj (hparse.symm.trans hparse')
        exact hurl
      · intro h
        exact h address url hgiven hparse
    · have hhost : "api.anthropic.com".toList.all hostChar = true := by decide
      obtain ⟨-, -, husername, hpassword⟩ := LawfulAuthority.parse_host hhost hparse
      refine iff_of_true ⟨husername, hpassword⟩ fun address' url' haddress' _ => ?_
      rw [hgiven] at haddress'
      cases haddress'
  have hfits : byteLen apiKey ≤ 32 * 1024 ∧ url.username = "" ∧ url.password = none ↔
      Fits legacy := by
    constructor
    · rintro ⟨hlength, hurl⟩
      refine ⟨by simp [hoauth], fun _ hbedrock => absurd hbedrock htype, ?_,
        fun _ _ => huserinfo.mp hurl⟩
      intro _ _ apiKey' hkey'
      obtain rfl := Option.some.inj (hkey.symm.trans hkey')
      exact hlength
    · intro hfits
      exact ⟨hfits.apiKey hoauth (fun hbedrock => absurd hbedrock htype) apiKey hkey,
        huserinfo.mpr (hfits.address hoauth htype)⟩
  have hsound : ∀ kind baseUrl header start, kind ≠ .bedrockSigV4 →
      baseUrl.username = url.username → baseUrl.password = url.password →
      (Sound ⟨kind, baseUrl, header, start, apiKey⟩ ↔ Fits legacy) := by
    intro kind baseUrl header start hkind husername hpassword
    rw [← hfits, ← husername, ← hpassword]
    exact ⟨fun hsound => ⟨hsound.length, hsound.username, hsound.password⟩,
      fun hrest => ⟨hrest.1, hrest.2.1, hrest.2.2, fun hsigns => absurd hsigns hkind⟩⟩
  rcases hprovider with rfl | rfl
  · exact ⟨hscheme, hhost, hne, hsound _ _ _ _ nofun rfl rfl⟩
  · -- the path may be another, but nothing else is
    have hurl : compatibleUrl url = { url with path := (compatibleUrl url).path } := by
      unfold compatibleUrl
      dsimp only
      split
      · rfl
      · exact LawfulAuthority.setPath_eq _ hscheme
    refine ⟨?_, ?_, hne, hsound _ _ _ _ nofun ?_ ?_⟩
    · rw [hurl]
      exact hscheme
    · rw [hurl]
      exact hhost
    · rw [hurl]
    · rw [hurl]

theorem checked_legacyProvider (h : legacyProvider index legacy = .ok provider) :
    Checked legacy provider := by
  unfold legacyProvider at h
  split at h
  · rename_i oauth hoauth
    exact checked_convertOauth hoauth h
  · rename_i hoauth
    unfold convertApiProvider at h
    split at h
    · rename_i htype
      exact checked_convertBedrock hoauth htype h
    · rename_i htype
      exact checked_convertApiKey hoauth htype h

/-- What is imported is admitted exactly if the file saw to what the
conversion leaves to it. -/
theorem admitted_convertCredential_iff {name : String} {lineEnabled : Bool}
    {imported : ImportedAccount} (hname : trim name ≠ "")
    (h : convertCredential index name lineEnabled legacy = .ok imported) :
    Admitted imported ↔ Conforms name legacy := by
  obtain ⟨provider, hprovider, rfl⟩ := map_eq_ok_iff.mp h
  have hchecked := checked_legacyProvider hprovider
  rw [Admitted, validateAccountInput_eq_ok_iff]
  constructor
  · rintro ⟨hvalid, hsigns⟩
    have hsound : Sound provider :=
      ⟨hvalid.credential_length, hvalid.username, hvalid.password, hsigns⟩
    exact { hchecked.sound_iff.mp hsound with name_length := hvalid.label_length }
  · intro hconforms
    have hsound := hchecked.sound_iff.mpr hconforms.toFits
    refine ⟨?_, hsound.signs⟩
    exact ⟨accountId_ne_empty index, byteLen_accountId index, chars_accountId index, hname,
      hconforms.name_length, hchecked.scheme, hchecked.host, hsound.username, hsound.password,
      hchecked.secret, hsound.length, rfl⟩

omit [Serde] [LawfulAuthority] [LawfulLegacyCrates] in
/-- An account that is read of a file, and what it is converted from: the
name and the credential of one of its entries. -/
def ConvertedFrom (source name : String) (legacy : LegacyCredential) (imported : ImportedAccount) :
    Prop :=
  ∃ index entry credential, entryOf (assignments source) index = some entry ∧
    entry.name = some name ∧ trim name ≠ "" ∧ entry.credential = some credential ∧
    LegacyCredential.fromStr credential = some legacy ∧
    convertCredential index name entry.enabled legacy = .ok imported

/-- **An account that is read of a file is admitted exactly if** its entry
conforms, and every account that is read has an entry. -/
theorem admitted_iff_conforms {source : String} {accounts : List ImportedAccount}
    {imported : ImportedAccount} (hparse : parseClaudeproxyEnv source = .ok accounts)
    (hmem : imported ∈ accounts) :
    (∃ name legacy, ConvertedFrom source name legacy imported) ∧
      ∀ name legacy, ConvertedFrom source name legacy imported →
        (Admitted imported ↔ Conforms name legacy) := by
  refine ⟨?_, ?_⟩
  · obtain ⟨index, entry, hentry, hconverted⟩ := exists_entry_of_parse hparse hmem
    obtain ⟨name, credential, legacy, provider, hname, htrim, hcredential, hlegacy, hprovider,
      rfl⟩ := convertEntry_eq_ok_iff.mp hconverted
    exact ⟨name, legacy, index, entry, credential, hentry, hname, htrim, hcredential, hlegacy,
      map_eq_ok_iff.mpr ⟨provider, hprovider, rfl⟩⟩
  · rintro name legacy ⟨index, entry, credential, -, -, htrim, -, -, hconverted⟩
    exact admitted_convertCredential_iff htrim hconverted

end Convert

section Example

theorem awsEnvelopeFromStr_writeKeys (envelope : AwsEnvelope) :
    PlainSerde.awsEnvelopeFromStr (writeKeys envelope) =
      some ⟨envelope.accessKeyId, envelope.secretAccessKey, envelope.sessionToken,
        envelope.region, none⟩ := by
  obtain ⟨keyId, secretKey, sessionToken, region⟩ := envelope
  unfold PlainSerde.awsEnvelopeFromStr writeKeys
  cases sessionToken with
  | none =>
      rw [JsonText.parse_print_object (by simp) (by simp [JsonText.isFlat])]
      simp [JsonText.lookup_insertField, Json.get, Json.asStr, PlainSerde.readOptional]
  | some token =>
      rw [JsonText.parse_print_object (by simp) (by simp [JsonText.isFlat])]
      simp [JsonText.lookup_insertField, Json.get, Json.asStr, PlainSerde.readOptional]

theorem lawfulLegacyCrates_listed (documents : List (String × Json)) :
    @LawfulLegacyCrates (LegacyCrates.listed documents) Serde.plain :=
  @LawfulLegacyCrates.mk (LegacyCrates.listed documents) Serde.plain
    awsEnvelopeFromStr_writeKeys (fun _ => JsonText.print_ne_empty _)
    fun _ => JsonText.print_ne_empty _

theorem lawfulAuthority_listed (addresses : List (String × Url))
    (h : ∀ address ∈ addresses, (address.1.toList.drop 8).dropLast.all hostChar = true →
      address.2.scheme = "https" ∧ address.2.host ≠ none ∧ address.2.username = "" ∧
        address.2.password = none) : @LawfulAuthority (Urls.listed addresses) := by
  refine @LawfulAuthority.mk (Urls.listed addresses) ?_ fun _ _ => rfl
  intro host url hhost hparse
  obtain ⟨before, after, haddresses, -⟩ := List.lookup_eq_some_iff.mp hparse
  have hmem : ("https://" ++ host ++ "/", url) ∈ addresses := by
    rw [haddresses]
    exact List.mem_append_right _ (List.mem_cons_self ..)
  have hdrop : ((("https://" ++ host ++ "/").toList.drop 8).dropLast) = host.toList := by
    simp [String.toList_append]
  refine h _ hmem ?_
  rw [hdrop]
  exact hhost

/-- The file of an account. -/
def accountLines (text : String) : List String :=
  ["CLAUDE_ACCOUNT_1_NAME=home", "CLAUDE_ACCOUNT_1=" ++ text]

/-- Its assignments. -/
def accountAssignments (text : String) : List Assignment :=
  [⟨"CLAUDE_ACCOUNT_1_NAME", 1, true, "home", true⟩, ⟨"CLAUDE_ACCOUNT_1", 1, false, text, true⟩]

/-- An account with a name and a password before its host. -/
def userinfoText : String :=
  "\x7b\"type\":\"anthropic\",\"apiKey\":\"k\",\"baseUrl\":\"https://u:p@h.example/\"\x7d"

/-- Its document. -/
def userinfoDocument : Json :=
  .object [("type", .string "anthropic"), ("apiKey", .string "k"),
    ("baseUrl", .string "https://u:p@h.example/")]

/-- Its address. -/
def userinfoUrl : Url :=
  ⟨"https", "u", some "p", some "h.example", none, "/", none, none⟩

/-- What it is converted to. -/
def userinfoAccount : ImportedAccount where
  account := { Plain.account "claudeproxy-1" .anthropicApiKey true with
    label := "home"
    baseUrl := userinfoUrl }
  credential := "k"

/-- It is read all the same, with the password, and the administrator could
not have given it. -/
theorem password_not_admitted :
    letI := Serde.plain
    letI := LegacyCrates.listed [(userinfoText, userinfoDocument)]
    letI := Urls.listed [("https://u:p@h.example/", userinfoUrl)]
    LawfulAuthority ∧ LawfulLegacyCrates ∧
      parseClaudeproxyEnv (fileOf (accountLines userinfoText)) = .ok [userinfoAccount] ∧
      ¬ Admitted userinfoAccount := by
  let := Serde.plain
  let := LegacyCrates.listed [(userinfoText, userinfoDocument)]
  let := Urls.listed [("https://u:p@h.example/", userinfoUrl)]
  have hread : assignments (fileOf (accountLines userinfoText)) =
      accountAssignments userinfoText := by
    rw [assignments_fileOf (by simp [accountLines]) (by decide +kernel) (by decide +kernel)]
    decide +kernel
  refine ⟨lawfulAuthority_listed _ (by decide), lawfulLegacyCrates_listed _, ?_, ?_⟩
  · rw [parse_eq, hread]
    decide +kernel
  · intro h
    have hvalid := validateAccountInput_eq_ok_iff.mp h.1
    exact absurd hvalid.username (by decide)

/-- An account with the keys of AWS. -/
def keysText : String :=
  "\x7b\"type\":\"bedrock\",\"accessKeyId\":\"AKIA\",\"secretAccessKey\":\"s\"\x7d"

/-- Its document. -/
def keysDocument : Json :=
  .object [("type", .string "bedrock"), ("accessKeyId", .string "AKIA"),
    ("secretAccessKey", .string "s")]

/-- Its address. -/
def keysUrl : Url :=
  ⟨"https", "", none, some "bedrock-runtime.us-east-1.amazonaws.com", none, "/", none, none⟩

/-- What it is converted to. -/
def keysAccount : ImportedAccount where
  account := { Plain.account "claudeproxy-1" .bedrockSigV4 true with
    label := "home"
    baseUrl := keysUrl }
  credential := writeKeys ⟨"AKIA", "s", none, "us-east-1"⟩

/-- What it is converted from. -/
def keysLegacy : LegacyCredential where
  paused := false
  providerType := some "bedrock"
  apiKey := none
  baseUrl := none
  accessKeyId := some "AKIA"
  secretAccessKey := some "s"
  sessionToken := none
  region := none
  model := none
  modelMap := ∅
  proxyUrl := none
  proxyUrls := []
  claudeAiOauth := none

theorem keys_admitted :
    letI := Serde.plain
    letI := LegacyCrates.listed [(keysText, keysDocument)]
    letI := Urls.listed [("https://bedrock-runtime.us-east-1.amazonaws.com/", keysUrl)]
    LawfulAuthority ∧ LawfulLegacyCrates ∧
      parseClaudeproxyEnv (fileOf (accountLines keysText)) = .ok [keysAccount] ∧
      Admitted keysAccount := by
  let := Serde.plain
  let := LegacyCrates.listed [(keysText, keysDocument)]
  let := Urls.listed [("https://bedrock-runtime.us-east-1.amazonaws.com/", keysUrl)]
  have hauthority : LawfulAuthority := lawfulAuthority_listed _ (by decide)
  have hcrates : LawfulLegacyCrates := lawfulLegacyCrates_listed _
  have hread : assignments (fileOf (accountLines keysText)) = accountAssignments keysText := by
    rw [assignments_fileOf (by simp [accountLines]) (by decide +kernel) (by decide +kernel)]
    decide +kernel
  have hparse : parseClaudeproxyEnv (fileOf (accountLines keysText)) = .ok [keysAccount] := by
    rw [parse_eq, hread]
    decide +kernel
  have hfrom : ConvertedFrom (fileOf (accountLines keysText)) "home" keysLegacy keysAccount := by
    rw [ConvertedFrom, hread]
    exact ⟨1, ⟨some "home", some keysText, true⟩, keysText, by decide, rfl, by decide, rfl,
      by decide +kernel, by decide +kernel⟩
  have hfits : Fits keysLegacy := by
    refine ⟨nofun, fun _ _ keyId secretKey hkeyId hsecret => ?_, fun _ _ => nofun, ?_⟩
    · obtain rfl := Option.some.inj hkeyId
      obtain rfl := Option.some.inj hsecret
      decide +kernel
    · exact fun _ hother => absurd (by decide +kernel) hother
  refine ⟨hauthority, hcrates, hparse, ?_⟩
  exact ((admitted_iff_conforms hparse (List.mem_singleton_self _)).2 _ _ hfrom).mpr
    { hfits with name_length := by decide }

end Example

end Migration

end Llmap
