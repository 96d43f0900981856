import Llmap.Providers.Request
import Llmap.Routing.Standing
import Llmap.Storage.Accounts
/-!
# The models of a chosen account

The router knows of an account's models only which names are listed; it was
told by the store. The adapter looks the upstream name up in the account's
own map, as the store loads it. The two agree: every name the router lets
an account have is one that the account's map has an upstream name for,
unless the map is empty (`Models.accepted_keys_iff`).

The names a router has for an account are those the store listed
(`Advertises`), whatever was done with the router since, and what the store
lists and what it loads is read off one entry of the map it stands for.
-/

namespace Llmap

namespace Routing

variable {routes : List RouteAccount} {router : Router}

/-- The models of a router's accounts are those of a list. -/
def Advertises (routes : List RouteAccount) (router : Router) : Prop :=
  ∀ (id : String) (account : RouteAccount), router.accounts[id]? = some account →
    ∃ listed ∈ routes, listed.id = id ∧ account.models = listed.models

/-- **A router built from a list of accounts**: made of it, or refreshed
with it, and used since in any way but another refresh. -/
inductive Built (routes : List RouteAccount) : Router → Prop where
  | new : Built routes (Router.new routes)
  | refreshed (accounts : List RouteAccount) (before : List Op) :
      Built routes ((run (Router.new accounts) before).replaceAccounts routes)
  | used {router : Router} (built : Built routes router) (op : Op)
      (other : ∀ accounts, op ≠ .replaceAccounts accounts) : Built routes (op.apply router)

theorem Built.sound (h : Built routes router) : router.Sound := by
  induction h with
  | new => exact sound_new routes
  | refreshed accounts before => exact sound_replaceAccounts (sound_run accounts before) routes
  | used _ op _ ih => exact sound_apply ih op

/-- An account that is changed keeps its models. -/
theorem Advertises.of_insert {id : String} {account updated : RouteAccount}
    {sessions : Table String SessionBinding} (h : Advertises routes router)
    (haccount : router.accounts[id]? = some account) (hmodels : updated.models = account.models) :
    Advertises routes ⟨router.accounts.insert id updated, sessions⟩ := by
  intro id' account' haccount'
  simp only [Std.ExtTreeMap.getElem?_insert, Std.LawfulEqCmp.compare_eq_iff_eq] at haccount'
  split at haccount'
  · rename_i heq
    subst heq
    obtain ⟨listed, hlisted, hid, hsame⟩ := h id account haccount
    exact ⟨listed, hlisted, hid, by rw [← Option.some.inj haccount', hmodels, hsame]⟩
  · exact h id' account' haccount'

theorem advertises_apply (h : Advertises routes router) (op : Op)
    (hother : ∀ accounts, op ≠ .replaceAccounts accounts) :
    Advertises routes (op.apply router) := by
  cases op with
  | choose request now =>
      intro id account haccount
      refine h id account ?_
      rw [← choose_accounts router request now]
      exact haccount
  | startRequest id =>
      simp only [Op.apply, Router.startRequest]
      split
      · exact h
      · rename_i account haccount
        exact h.of_insert haccount rfl
  | recordOutcome id outcome =>
      simp only [Op.apply, Router.recordOutcome]
      split
      · exact h
      · rename_i account haccount
        refine h.of_insert haccount ?_
        cases outcome <;> rfl
  | replaceAccounts accounts => exact absurd rfl (hother accounts)
  | resetAccountHealth id =>
      simp only [Op.apply, Router.resetAccountHealth]
      split
      · exact h
      · rename_i account haccount
        exact h.of_insert haccount rfl
  | sessionCount now => exact h

/-- **A router advertises what it was built from.** -/
theorem Built.advertises (h : Built routes router) : Advertises routes router := by
  induction h with
  | new =>
      intro id account haccount
      have hmem := Table.mem_of_getElem?_collect haccount
      obtain ⟨listed, hlisted, heq⟩ := List.mem_map.mp hmem
      obtain ⟨rfl, rfl⟩ := Prod.mk.inj heq
      exact ⟨listed, hlisted, rfl, rfl⟩
  | refreshed accounts before =>
      intro id account haccount
      obtain ⟨listed, hlisted, hid, rfl⟩ := mem_of_getElem?_replacement haccount
      refine ⟨listed, hlisted, hid, ?_⟩
      unfold Router.carryOver
      split <;> rfl
  | used _ op hother ih => exact advertises_apply ih op hother

end Routing

namespace Storage

open Routing Providers Secrets

variable {accounts : Accounts}

/-! ## What the store lists -/

/-- Every account stands under its own id. -/
def Accounts.OwnIds (accounts : Accounts) : Prop :=
  ∀ (id : String) (held : ProviderAccount × String), accounts[id]? = some held → held.1.id = id

theorem ownIds_empty : Accounts.OwnIds ∅ := by
  intro id held hheld
  simp at hheld

theorem ownIds_modify (h : accounts.OwnIds) (id : String)
    {change : ProviderAccount × String → ProviderAccount × String}
    (hchange : ∀ held, (change held).1.id = held.1.id) :
    Accounts.OwnIds (accounts.modify id change) := by
  intro id' held hheld
  rw [Std.ExtTreeMap.getElem?_modify] at hheld
  split at hheld
  · rename_i heq
    obtain rfl := Std.LawfulEqCmp.compare_eq_iff_eq.mp heq
    obtain ⟨before, hbefore, rfl⟩ := Option.map_eq_some_iff.mp hheld
    rw [hchange, h id before hbefore]
  · exact h id' held hheld

theorem ownIds_insert (h : accounts.OwnIds) (account : ProviderAccount) (credential : String) :
    Accounts.OwnIds (accounts.insert account.id (account, credential)) := by
  intro id held hheld
  rw [Std.ExtTreeMap.getElem?_insert] at hheld
  split at hheld
  · rename_i heq
    rw [← Option.some.inj hheld, Std.LawfulEqCmp.compare_eq_iff_eq.mp heq]
  · exact h id held hheld

section Store

variable [Serde] [Sealing] [Urls] {box : SecretBox} {database : Database}

omit [Sealing] [Urls] in
theorem ownIds_write (h : accounts.OwnIds) (op : Op) : (op.write accounts).OwnIds := by
  cases op with
  | upsert nonces account credential => exact ownIds_insert h account credential
  | rotate nonces account credential previousValidUntil =>
      exact ownIds_insert h account credential
  | replace nonce candidate refreshed previousValidUntil =>
      exact ownIds_modify h _ fun _ => rfl
  | setEnabled accountId enabled => exact ownIds_modify h _ fun _ => rfl
  | delete accountId =>
      intro id held hheld
      simp only [Op.write, Std.ExtTreeMap.getElem?_erase] at hheld
      split at hheld
      · cases hheld
      · exact h id held hheld

theorem ownIds_run [Chrono] {mapped : Mapped} (h : mapped.accounts.OwnIds) (ops : List Op) :
    (Run.final (Mapped.apply box) mapped ops).accounts.OwnIds := by
  refine Run.final_induct_of_step (I := fun mapped : Mapped => mapped.accounts.OwnIds)
    (fun mapped op h => ?_) h
  simp only [Mapped.apply, Accounts.after]
  split
  · exact ownIds_write h op
  · exact h

variable [LawfulSerde]

/-- **What is listed is an account that is held**, with the names of its
map. -/
theorem Represents.listed (h : Represents box database accounts) (hown : accounts.OwnIds)
    {routes : List RouteAccount}
    (hroutes : (routeAccounts.run Database.exec database).2 = .ok routes) {listed : RouteAccount}
    (hlisted : listed ∈ routes) : ∃ held : ProviderAccount × String,
      accounts[listed.id]? = some held ∧ listed.models = held.1.modelMap.keys.toFinset := by
  have hread : ((database.providerAccounts.toList.map Prod.snd).mapM publicAccount).map
      (List.map routeAccount) = .ok routes := hroutes
  obtain ⟨shown, hshown, rfl⟩ := map_eq_ok_iff.mp hread
  obtain ⟨account, haccount, rfl⟩ := List.mem_map.mp hlisted
  obtain ⟨row, hrow, hpublic⟩ := exists_of_mem_mapM hshown haccount
  obtain ⟨⟨id, row⟩, hentry, rfl⟩ := List.mem_map.mp hrow
  have hrow := Std.ExtTreeMap.mem_toList_iff_getElem?_eq_some.mp hentry
  have hrel := h id
  rw [hrow] at hrel
  generalize hheld : accounts[id]? = held at hrel
  cases hrel with
  | @some _ held hholds =>
      obtain ⟨endpoints, -, htext⟩ := hholds.text
      -- the text of the row is the account's, redacted
      unfold publicAccount at hpublic
      rw [htext, LawfulSerde.accountFromStr_toString] at hpublic
      obtain rfl := Except.ok.inj hpublic
      refine ⟨held, ?_, rfl⟩
      rw [show (routeAccount _).id = held.1.id from rfl, hown id held hheld]
      exact hheld

omit [Sealing] [Urls] [LawfulSerde] in
/-- What is loaded is an account that is held. -/
theorem Accounts.held_of_loaded {id credential : String} {account : ProviderAccount}
    (h : accounts.loaded id = .ok (account, credential)) :
    ∃ secret, accounts[id]? = some (account, secret) := by
  unfold Accounts.loaded at h
  split at h
  · cases h
  · rename_i held secret hheld
    split at h
    · cases h
    · cases h
      exact ⟨secret, hheld⟩

/-- **Eligibility and rewriting agree.** A name is accepted for the names a
map lists exactly if the map is empty or has an upstream name for it. So
whatever was stored, whatever router was built from what is listed, and
whatever account it then chooses for a model: what the account is asked for
upstream is what its map has for the name, for the name's family or for
`default`, in this order, and the name itself only if the map is empty. -/
theorem chosen_model_mapped [Chrono] [LawfulSealing] :
    (∀ (mapping : Table String String) (model : String), model ≠ "" →
      (Models.accepted mapping.keys.toFinset model = true ↔
        mapping = ∅ ∨ (Models.resolve mapping model).isSome = true)) ∧
    ∀ (box : SecretBox) (stored : List Op) (routes : List RouteAccount) (router : Router)
      (request : RouteRequest) (now : DateTime) (selection : RouteSelection)
      (account : ProviderAccount) (credential pathAndQuery : String) (stream : Bool)
      (prepared : PreparedProviderRequest),
      let database := (Run.final (Mapped.apply box) ⟨Database.empty, ∅⟩ stored).database
      (routeAccounts.run Database.exec database).2 = .ok routes → Built routes router →
      request.model ≠ "" → (router.choose request now).2 = .ok selection →
      ((loadAccount box selection.accountId).run Database.exec database).2 =
        .ok (account, credential) →
      prepareRequestForStream account credential pathAndQuery request.model stream =
        .ok prepared →
      (account.modelMap = ∅ ∧ prepared.upstreamModel = request.model) ∨
        (account.modelMap ≠ ∅ ∧
          Models.Lists account.modelMap request.model prepared.upstreamModel) := by
  refine ⟨fun mapping model _ => Models.accepted_keys_iff, ?_⟩
  intro box stored routes router request now selection account credential pathAndQuery stream
    prepared database hroutes hbuilt hmodel hchosen hloaded hprepared
  have hreached : Represents box database
      (Run.final (Mapped.apply box) ⟨Database.empty, ∅⟩ stored).accounts :=
    represents_run (represents_empty box) stored
  have hown : (Run.final (Mapped.apply box) ⟨Database.empty, ∅⟩ stored).accounts.OwnIds :=
    ownIds_run ownIds_empty stored
  -- the account that is chosen was listed, and is the one that is loaded
  obtain ⟨chosen, hpresent, heligible⟩ := choose_spec hbuilt.sound.stored hchosen
  obtain ⟨listed, hlisted, hid, hmodels⟩ := hbuilt.advertises _ chosen hpresent
  obtain ⟨held, hheld, hnames⟩ := hreached.listed hown hroutes hlisted
  rw [hreached.load] at hloaded
  obtain ⟨secret, hsecret⟩ := Accounts.held_of_loaded hloaded
  rw [hid, hsecret] at hheld
  obtain rfl := Option.some.inj hheld
  -- so that the router accepted the model for the map's names
  have haccepted : Models.accepted account.modelMap.keys.toFinset request.model = true := by
    rw [← hnames, ← hmodels]
    simp only [eligible, Bool.and_eq_true, Bool.or_eq_true, decide_eq_true_eq, hmodel,
      false_or] at heligible
    exact heligible.2
  obtain ⟨-, -, hupstream, -⟩ := prepareRequestForStream_eq_ok_iff.mp hprepared
  rw [hupstream, upstreamModelOf]
  by_cases hempty : account.modelMap = ∅
  · refine .inl ⟨hempty, ?_⟩
    have hnone : Models.resolve account.modelMap request.model = none := by
      cases hfamily : Models.family request.model <;> simp [Models.resolve, hempty, hfamily]
    rw [hnone]
    rfl
  · obtain hmap | hsome := Models.accepted_keys_iff.mp haccepted
    · exact absurd hmap hempty
    · obtain ⟨upstream, hresolved⟩ := Option.isSome_iff_exists.mp hsome
      refine .inr ⟨hempty, ?_⟩
      rw [hresolved]
      exact Models.resolve_eq_some_iff.mp hresolved

end Store

section Example

open scoped Plain

/-- An account that has a model for a family. -/
def sonnetAccount : ProviderAccount :=
  { Plain.account "a" .anthropicApiKey true with
    modelMap := Table.collect [("sonnet", "upstream-sonnet")] }

/-- The account as it is listed. -/
def sonnetRoute : RouteAccount :=
  { listedAccount "a" true with provider := "anthropic_api_key", models := {"sonnet"} }

/-- A model of the family. -/
theorem chosen_model_mapped_sonnet :
    let database := (Run.final (Mapped.apply Plain.box) ⟨Database.empty, ∅⟩
      [.upsert ⟨Vector.replicate 24 0, Vector.replicate 24 1⟩ sonnetAccount "key"]).database
    (routeAccounts.run Database.exec database).2 = .ok [sonnetRoute] ∧
      ((Router.new [sonnetRoute]).choose ⟨none, "claude-sonnet-4-5"⟩ 0).2 =
        .ok ⟨"a", "anthropic_api_key", false⟩ ∧
      ∃ prepared, prepareRequestForStream sonnetAccount "key" "/v1/messages" "claude-sonnet-4-5"
          true = .ok prepared ∧
        Models.Lists sonnetAccount.modelMap "claude-sonnet-4-5" prepared.upstreamModel := by
  intro database
  have hroutes : (routeAccounts.run Database.exec database).2 = .ok [sonnetRoute] := by
    decide +kernel
  have hchosen : ((Router.new [sonnetRoute]).choose ⟨none, "claude-sonnet-4-5"⟩ 0).2 =
      .ok ⟨"a", "anthropic_api_key", false⟩ := by decide +kernel
  have hloaded : ((loadAccount Plain.box "a").run Database.exec database).2 =
      .ok (sonnetAccount, "key") := by decide +kernel
  obtain ⟨prepared, hprepared⟩ : ∃ prepared, prepareRequestForStream sonnetAccount "key"
      "/v1/messages" "claude-sonnet-4-5" true = .ok prepared := by
    refine ⟨⟨⟨"https", "", none, some "api.anthropic.com", none, "/v1/messages", none, none⟩,
      "upstream-sonnet", Table.collect [("x-api-key", "key")]⟩, ?_⟩
    decide +kernel
  refine ⟨hroutes, hchosen, prepared, hprepared, ?_⟩
  obtain ⟨hempty, -⟩ | ⟨-, hlists⟩ := chosen_model_mapped.2 Plain.box _ _ _ _ 0 _ _ _ _ _ _
    hroutes .new (by decide) hchosen hloaded hprepared
  · exact absurd hempty (by decide +kernel)
  · exact hlists

end Example

end Storage

end Llmap
