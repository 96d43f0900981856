import Llmap.Migration.Convert
/-!
# Egress chains

The chain of proxies an account is imported with, and the one its legacy
credential gives it: the proxy under `proxyUrl`, and the lists under
`proxyUrls` and `egressProxies`, each of which has a spelling with
underscores. The list under `egressProxies` is not among the names
`LegacyCredential` has, and so is not read; its other spelling is.
-/

namespace Llmap

namespace Migration

/-! ## Fields -/

theorem fieldNamed_eq_some_iff {fields : List (String × Json)} {names : List String}
    {value : Option Json} :
    fieldNamed fields names = some value ↔
      (fields.filter fun field => field.1 ∈ names).map Prod.snd = value.toList := by
  unfold fieldNamed
  split
  · rename_i hnone
    rw [hnone]
    cases value <;> simp
  · rename_i field hone
    rw [hone]
    cases value <;> simp
  · rename_i hnone hone
    cases value with
    | none =>
        simp only [reduceCtorEq, Option.toList_none, List.map_eq_nil_iff, false_iff]
        exact hnone
    | some value =>
        simp only [reduceCtorEq, Option.toList_some, false_iff]
        intro hmap
        obtain ⟨field, hfield, -⟩ := List.map_eq_singleton_iff.mp hmap
        exact hone field hfield

theorem getElem?_of_mapM {α β : Type} {f : α → Option β} {l : List α} {images : List β}
    (h : l.mapM f = some images) (i : ℕ) : images[i]? = l[i]?.bind f := by
  induction l generalizing images i with
  | nil =>
      obtain rfl := Option.some.inj h
      rfl
  | cons a l ih =>
      rw [List.mapM_cons] at h
      obtain ⟨image, himage, h⟩ := Option.bind_eq_some_iff.mp h
      obtain ⟨rest, hrest, h⟩ := Option.bind_eq_some_iff.mp h
      obtain rfl := Option.some.inj h
      cases i with
      | zero => exact himage.symm
      | succ i => exact ih hrest i

theorem lookup_eq_head? (fields : List (String × Json)) (name : String) :
    fields.lookup name = ((fields.filter fun field => field.1 ∈ [name]).map Prod.snd).head? := by
  induction fields with
  | nil => rfl
  | cons field fields ih =>
      obtain ⟨key, value⟩ := field
      by_cases hname : name = key
      · simp [hname]
      · have hother : (name == key) = false := beq_false_of_ne hname
        rw [List.lookup_cons, hother, ih]
        simp [Ne.symm hname]

/-- The lists that are given under some names, one after another. -/
def namedLists (names : List String) (fields : List (String × Json)) : List String :=
  ((fields.filter fun field => field.1 ∈ names).map Prod.snd).flatMap fun value =>
    (readStrings value).getD []

theorem namedLists_cons (names : List String) (field : String × Json)
    (fields : List (String × Json)) : namedLists names (field :: fields) =
      (if field.1 ∈ names then (readStrings field.2).getD [] else []) ++
        namedLists names fields := by
  unfold namedLists
  by_cases hname : field.1 ∈ names <;> simp [hname]

section Names

variable {name : String} {names : List String}

/-- The lists under another name come in between. -/
theorem length_namedLists (h : name ∉ names) (fields : List (String × Json)) :
    (namedLists (name :: names) fields).length =
      (namedLists [name] fields).length + (namedLists names fields).length := by
  induction fields with
  | nil => rfl
  | cons field fields ih =>
      simp only [namedLists_cons, List.length_append, ih, List.mem_cons, List.not_mem_nil, or_false]
      by_cases hname : field.1 = name
      · simp only [hname, h, true_or, if_true, if_false, List.length_nil]
        omega
      · simp only [hname, false_or, if_false, List.length_nil]
        omega

/-- Where they are empty, nothing is in between. -/
theorem namedLists_of_eq_nil (h : name ∉ names) {fields : List (String × Json)}
    (hnil : namedLists [name] fields = []) :
    namedLists (name :: names) fields = namedLists names fields := by
  induction fields with
  | nil => rfl
  | cons field fields ih =>
      rw [namedLists_cons, List.append_eq_nil_iff] at hnil
      rw [namedLists_cons, namedLists_cons, ih hnil.2]
      by_cases hname : field.1 = name
      · have hempty := hnil.1
        simp only [hname, List.mem_cons, true_or, if_true] at hempty
        simp [hname, h, hempty]
      · simp [hname]

/-- Lists under a name that is not read are lost, unless they are empty. -/
theorem namedLists_eq_iff (h : name ∉ names) {fields : List (String × Json)} :
    namedLists names fields = namedLists (name :: names) fields ↔
      namedLists [name] fields = [] := by
  refine ⟨fun heq => ?_, fun hnil => (namedLists_of_eq_nil h hnil).symm⟩
  have hlength := length_namedLists h fields
  rw [← heq] at hlength
  exact List.length_eq_zero_iff.mp (by omega)

end Names

/-! ## Chains -/

/-- The names under which proxies are read. -/
def readNames : List String := ["proxyUrls", "proxy_urls", "egress_proxies"]

/-- The proxy that a document gives: the eleventh value, where it is a
list. -/
def givenProxy : Json → Option Json
  | .object fields => fields.lookup "proxyUrl"
  | .array items => items[10]?
  | _ => none

/-- The further proxies that a document gives: the twelfth value, where it
is a list. -/
def givenProxies : Json → List String
  | .object fields => namedLists ("egressProxies" :: readNames) fields
  | .array items => (items[11]?.bind readStrings).getD []
  | _ => []

/-- **The chain a document gives.** -/
def givenChain (document : Json) : List String :=
  (((givenProxy document).bind readString).filter (· ≠ "")).toList ++ givenProxies document

/-- Nothing is given under `egressProxies`, or no more than empty lists. -/
def NoEgressProxies : Json → Prop
  | .object fields => namedLists ["egressProxies"] fields = []
  | _ => True

instance (document : Json) : Decidable (NoEgressProxies document) :=
  match document with
  | .object fields => inferInstanceAs (Decidable (namedLists ["egressProxies"] fields = []))
  | .null | .bool _ | .number _ | .string _ | .array _ => isTrue trivial

/-- What is read of the proxies. -/
theorem proxies_of_read {document : Json} {legacy : LegacyCredential}
    (h : LegacyCredential.read document = some legacy) : ∃ slots proxyUrl proxyUrls,
      readFields credentialFields document = some slots ∧ slots[10]? = some proxyUrl ∧
        slots[11]? = some proxyUrls ∧
        readDefault none (readOption readString) proxyUrl = some legacy.proxyUrl ∧
        readDefault [] readStrings proxyUrls = some legacy.proxyUrls := by
  unfold LegacyCredential.read at h
  split at h
  · rename_i hfields
    -- ten fields come before the proxies
    iterate 10 obtain ⟨_, -, h⟩ := Option.bind_eq_some_iff.mp h
    obtain ⟨proxyUrl, hproxyUrl, h⟩ := Option.bind_eq_some_iff.mp h
    obtain ⟨proxyUrls, hproxyUrls, h⟩ := Option.bind_eq_some_iff.mp h
    obtain ⟨_, -, h⟩ := Option.bind_eq_some_iff.mp h
    obtain rfl := Option.some.inj h
    exact ⟨_, _, _, hfields, rfl, rfl, hproxyUrl, hproxyUrls⟩
  · cases h

/-- The value of a field, in an object. -/
theorem fieldNamed_of_readFields {record : List (List String)} {fields : List (String × Json)}
    {slots : List (Option Json)} {i : ℕ} {value : Option Json}
    (h : readFields record (.object fields) = some slots) (hvalue : slots[i]? = some value)
    {names : List String} (hnames : record[i]? = some names) :
    (fields.filter fun field => field.1 ∈ names).map Prod.snd = value.toList := by
  rw [getElem?_of_mapM h i, hnames] at hvalue
  exact fieldNamed_eq_some_iff.mp hvalue

/-- The value of a field, in a list. -/
theorem item_of_readFields {record : List (List String)} {items : List Json}
    {slots : List (Option Json)} {i : ℕ} {value : Option Json}
    (h : readFields record (.array items) = some slots) (hvalue : slots[i]? = some value) :
    items[i]? = value := by
  simp only [readFields] at h
  split at h
  · obtain rfl := Option.some.inj h
    rcases Nat.lt_or_ge i items.length with hlt | hge
    · rw [List.getElem?_append_left (by simpa using hlt), List.getElem?_map] at hvalue
      rw [List.getElem?_eq_getElem hlt] at hvalue ⊢
      exact Option.some.inj hvalue
    · rw [List.getElem?_append_right (by simpa using hge)] at hvalue
      have hnone := List.eq_of_mem_replicate (List.mem_of_getElem? hvalue)
      rw [List.getElem?_eq_none hge, hnone]
  · cases h

/-- **What is read of the proxies**, and what is given besides. -/
theorem read_proxies {document : Json} {legacy : LegacyCredential}
    (h : LegacyCredential.read document = some legacy) :
    legacy.proxyUrl = (givenProxy document).bind readString ∧
      (legacy.proxyUrls = givenProxies document ↔ NoEgressProxies document) := by
  obtain ⟨slots, proxyUrl, proxyUrls, hfields, hurl, hurls, hreadUrl, hreadUrls⟩ :=
    proxies_of_read h
  have hproxy : legacy.proxyUrl = proxyUrl.bind readString := by
    cases proxyUrl with
    | none => exact (Option.some.inj hreadUrl).symm
    | some value =>
        cases value with
        | null => exact (Option.some.inj hreadUrl).symm
        | string text => exact (Option.some.inj hreadUrl).symm
        | bool value => cases hreadUrl
        | number text => cases hreadUrl
        | array items => cases hreadUrl
        | object fields => cases hreadUrl
  have hlist : legacy.proxyUrls = (proxyUrls.bind readStrings).getD [] := by
    cases proxyUrls with
    | none => exact (Option.some.inj hreadUrls).symm
    | some value =>
        have hread : readStrings value = some legacy.proxyUrls := hreadUrls
        rw [Option.bind_some, hread]
        rfl
  cases document with
  | object fields =>
      have hname := fieldNamed_of_readFields hfields hurl rfl
      have hnames : (fields.filter fun field => field.1 ∈ readNames).map Prod.snd =
          proxyUrls.toList := fieldNamed_of_readFields hfields hurls rfl
      have hgiven : givenProxy (.object fields) = proxyUrl := by
        rw [givenProxy, lookup_eq_head?, hname]
        cases proxyUrl <;> rfl
      have hread : namedLists readNames fields = legacy.proxyUrls := by
        rw [hlist, namedLists, hnames]
        cases proxyUrls <;> simp
      refine ⟨by rw [hgiven, hproxy], ?_⟩
      rw [← hread]
      exact namedLists_eq_iff (by decide)
  | array items =>
      have hgiven : givenProxy (.array items) = proxyUrl := item_of_readFields hfields hurl
      refine ⟨by rw [hgiven, hproxy], ?_⟩
      rw [hlist, givenProxies, item_of_readFields hfields hurls]
      exact iff_of_true rfl trivial
  | null => cases hfields
  | bool value => cases hfields
  | number text => cases hfields
  | string value => cases hfields

section Convert

variable [LegacyCrates] [Urls]

/-- **Egress is preserved exactly if** nothing is given under
`egressProxies`: every account a legacy credential is converted to has the
chain its document gives, and no other, whichever provider it is for. -/
theorem egress_preserved_iff {index : UInt16} {label text : String} {lineEnabled : Bool}
    {document : Json} {legacy : LegacyCredential} {imported : ImportedAccount}
    (hdocument : LegacyCrates.documentFromStr text = some document)
    (hlegacy : LegacyCredential.fromStr text = some legacy)
    (h : convertCredential index label lineEnabled legacy = .ok imported) :
    imported.account.egressProxies = givenChain document ↔ NoEgressProxies document := by
  rw [LegacyCredential.fromStr, hdocument, Option.bind_some] at hlegacy
  obtain ⟨hproxy, hproxies⟩ := read_proxies hlegacy
  obtain ⟨provider, -, rfl⟩ := map_eq_ok_iff.mp h
  have hchain : (importedAccount index label lineEnabled legacy provider).account.egressProxies =
      (legacy.proxyUrl.filter (· ≠ "")).toList ++ legacy.proxyUrls := by
    change legacyProxies legacy = _
    unfold legacyProxies
    cases legacy.proxyUrl.filter (· ≠ "") <;> rfl
  rw [hchain, givenChain, hproxy, List.append_cancel_left_eq, hproxies]

end Convert

section Example

/-- An account behind a proxy, in the documented spelling. -/
def chainedText : String :=
  "\x7b\"type\":\"anthropic\",\"apiKey\":\"k\"," ++
    "\"egressProxies\":[\"socks5h://home.example:1080\"]\x7d"

/-- Its document. -/
def chainedDocument : Json :=
  .object [("type", .string "anthropic"), ("apiKey", .string "k"),
    ("egressProxies", .array [.string "socks5h://home.example:1080"])]

/-- Its chain is lost: the account goes out directly. -/
theorem egress_lost :
    letI := LegacyCrates.listed [(chainedText, chainedDocument)]
    letI := Urls.listed [("https://api.anthropic.com/", anthropicUrl)]
    givenChain chainedDocument = ["socks5h://home.example:1080"] ∧
      (convertEntry 1 ⟨some "home", some chainedText, true⟩).map (·.account.egressProxies) =
        .ok [] :=
  ⟨by decide +kernel, by decide +kernel⟩

/-- The other spelling, before a proxy that comes first. -/
def underscoredText : String :=
  "\x7b\"type\":\"anthropic\",\"apiKey\":\"k\"," ++
    "\"egress_proxies\":[\"socks5h://home.example:1080\"],\"proxyUrl\":\"http://first.example\"\x7d"

@[inherit_doc underscoredText]
def underscoredDocument : Json :=
  .object [("type", .string "anthropic"), ("apiKey", .string "k"),
    ("egress_proxies", .array [.string "socks5h://home.example:1080"]),
    ("proxyUrl", .string "http://first.example")]

theorem egress_preserved_underscored :
    letI := LegacyCrates.listed [(underscoredText, underscoredDocument)]
    letI := Urls.listed [("https://api.anthropic.com/", anthropicUrl)]
    ∃ legacy imported, LegacyCredential.fromStr underscoredText = some legacy ∧
      convertCredential 1 "home" true legacy = .ok imported ∧
      imported.account.egressProxies = givenChain underscoredDocument ∧
      givenChain underscoredDocument =
        ["http://first.example", "socks5h://home.example:1080"] := by
  let := LegacyCrates.listed [(underscoredText, underscoredDocument)]
  let := Urls.listed [("https://api.anthropic.com/", anthropicUrl)]
  have hread : (LegacyCredential.fromStr underscoredText).isSome = true := by decide +kernel
  obtain ⟨legacy, hlegacy⟩ := Option.isSome_iff_exists.mp hread
  have hconverted : ((LegacyCredential.fromStr underscoredText).any fun legacy =>
      (convertCredential 1 "home" true legacy).toOption.isSome) = true := by decide +kernel
  rw [hlegacy, Option.any_some] at hconverted
  obtain ⟨imported, himported⟩ := Option.isSome_iff_exists.mp hconverted
  have himported := mem_toOption_iff.mp himported
  refine ⟨legacy, imported, hlegacy, himported, ?_, by decide +kernel⟩
  exact (egress_preserved_iff rfl hlegacy himported).mpr (by decide +kernel)

end Example

end Migration

end Llmap
