import Llmap.Common.Rust
/-!
# Model names

`models.rs`: which requested model names an account serves, and what it
calls them upstream. An exact name is looked up first, then the family
the name belongs to, then `default`.
-/

namespace Llmap

namespace Models

/-- `KNOWN_FAMILIES`. -/
def knownFamilies : List String := ["opus", "sonnet", "haiku", "fable"]

/-- The first known family whose name occurs in the model's, letter case
aside. -/
def family (model : String) : Option String :=
  knownFamilies.find? (containsStr (toAsciiLowercase model))

/-- The upstream name a mapping gives a requested one. -/
def resolve (mapping : Table String String) (requested : String) : Option String :=
  mapping[requested]?
    |>.or ((family requested).bind fun family => mapping[family]?)
    |>.or mapping["default"]?

/-- Whether an account advertising `keys` serves the requested model. -/
def accepted (keys : Finset String) (requested : String) : Bool :=
  keys = ∅ || requested ∈ keys || "default" ∈ keys ||
    (family requested).any fun family => family ∈ keys

/-- A name that is listed has the upstream name it is listed with. -/
theorem resolve_of_getElem? {mapping : Table String String} {requested upstream : String}
    (h : mapping[requested]? = some upstream) : resolve mapping requested = some upstream := by
  simp [resolve, h]

/-- A name that is listed is accepted. -/
theorem accepted_of_mem {keys : Finset String} {requested : String} (h : requested ∈ keys) :
    accepted keys requested = true := by
  simp [accepted, h]

/-- Some name is accepted unless the empty one is listed and no other. -/
theorem exists_accepted_iff {keys : Finset String} :
    (∃ requested, requested ≠ "" ∧ accepted keys requested = true) ↔ keys ≠ {""} := by
  constructor
  · rintro ⟨requested, hrequested, haccepted⟩ rfl
    have hfamily : (family requested).any (fun family => family = "") = true := by
      simpa [accepted, hrequested] using haccepted
    obtain ⟨known, hknown, hempty⟩ := (Option.any_eq_true _ _).mp hfamily
    obtain rfl := of_decide_eq_true hempty
    exact absurd (List.mem_of_find?_eq_some hknown) (by decide)
  · intro hkeys
    rcases keys.eq_empty_or_nonempty with rfl | hnonempty
    · exact ⟨"opus", by decide, by simp [accepted]⟩
    · obtain ⟨key, hkey, hne⟩ : ∃ key ∈ keys, key ≠ "" := by
        by_contra hall
        push Not at hall
        exact hkeys (Finset.eq_singleton_iff_nonempty_unique_mem.mpr ⟨hnonempty, hall⟩)
      exact ⟨key, hne, accepted_of_mem hkey⟩

/-- An upstream name is listed under the name itself, a family's or the
default's. -/
theorem listed_of_resolve {mapping : Table String String} {requested upstream : String}
    (h : resolve mapping requested = some upstream) :
    ∃ key, (key = requested ∨ key ∈ knownFamilies ∨ key = "default") ∧
      mapping[key]? = some upstream := by
  unfold resolve at h
  rcases Option.or_eq_some_iff.mp h with h | ⟨-, h⟩
  · rcases Option.or_eq_some_iff.mp h with h | ⟨-, h⟩
    · exact ⟨requested, .inl rfl, h⟩
    · obtain ⟨known, hknown, hlisted⟩ := Option.bind_eq_some_iff.mp h
      exact ⟨known, .inr (.inl (List.mem_of_find?_eq_some hknown)), hlisted⟩
  · exact ⟨"default", .inr (.inr rfl), h⟩

/-- **Where a mapping has the upstream name of a requested one**: under the
name itself; if it is not there, under the name's family; if neither is,
under `default`. -/
inductive Lists (mapping : Table String String) (requested upstream : String) : Prop where
  | name (listed : mapping[requested]? = some upstream)
  | family {known : String} (missing : mapping[requested]? = none)
      (isFamily : family requested = some known) (listed : mapping[known]? = some upstream)
  | default (missing : mapping[requested]? = none)
      (noFamily : ∀ known, Models.family requested = some known → mapping[known]? = none)
      (listed : mapping["default"]? = some upstream)

theorem resolve_eq_some_iff {mapping : Table String String} {requested upstream : String} :
    resolve mapping requested = some upstream ↔ Lists mapping requested upstream := by
  simp only [resolve, Option.or_eq_some_iff, Option.or_eq_none_iff, Option.bind_eq_some_iff,
    Option.bind_eq_none_iff]
  constructor
  · rintro ((hlisted | ⟨hmissing, known, hfamily, hlisted⟩) | ⟨⟨hmissing, hnone⟩, hlisted⟩)
    · exact .name hlisted
    · exact .family hmissing hfamily hlisted
    · exact .default hmissing hnone hlisted
  · intro h
    cases h with
    | name hlisted => exact .inl (.inl hlisted)
    | family hmissing hfamily hlisted => exact .inl (.inr ⟨hmissing, _, hfamily, hlisted⟩)
    | default hmissing hnone hlisted => exact .inr ⟨⟨hmissing, hnone⟩, hlisted⟩

/-- **A model is accepted exactly if it has an upstream name**, or no model
is listed at all. -/
theorem accepted_keys_iff {mapping : Table String String} {requested : String} :
    accepted mapping.keys.toFinset requested = true ↔
      mapping = ∅ ∨ (resolve mapping requested).isSome = true := by
  have hkeys : mapping.keys.toFinset = ∅ ↔ mapping = ∅ := by
    rw [List.toFinset_eq_empty_iff, ← List.isEmpty_iff, Std.ExtTreeMap.isEmpty_keys,
      Std.ExtTreeMap.isEmpty_iff]
  have hmem : ∀ key, key ∈ mapping.keys.toFinset ↔ mapping[key]?.isSome = true := by
    intro key
    rw [List.mem_toFinset, Std.ExtTreeMap.mem_keys, Std.ExtTreeMap.mem_iff_isSome_getElem?]
  simp only [accepted, resolve, Bool.or_eq_true, decide_eq_true_eq, hkeys, hmem,
    Option.any_eq_true, Option.isSome_or, Option.isSome_bind, or_assoc]
  -- the default is asked for before the family here, and after it there
  exact or_congr_right (or_congr_right or_comm)

end Models

end Llmap
