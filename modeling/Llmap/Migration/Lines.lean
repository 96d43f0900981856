import Llmap.Migration.Convert
/-!
# Lines of an environment file

What `parse_claudeproxy_env` makes of a file depends on its assignments
alone (`assignments`). It stops at a variable that is assigned twice. Else
the entry of each index is made of the assignments to it (`entryOf`): the
last name, the last credential, and whether none is commented out. Where no
two lines have one role, an index and whether it is the name that is
assigned, there is nothing that the order of the lines could decide.

Variables are compared by their text, and indices by their number, which
has more than one text: `01` and `+1` are both one. So two lines may have
one role and two variables.
-/

namespace Llmap

namespace Migration

variable {l l' : List Assignment} {source : String} {index : UInt16}

/-! ## Assignments -/

/-- The assignments of a file. -/
def assignments (source : String) : List Assignment := (textLines source).filterMap assignment

/-- What an assignment is to: the account's index, and its name or its
credential. -/
def Assignment.role (a : Assignment) : UInt16 × Bool := (a.index, a.isName)

/-- Two lines assign the same role. -/
def SameRoleTwice (source : String) : Prop := ¬ ((assignments source).map Assignment.role).Nodup

/-- Two lines assign the same variable. -/
def SameVariableTwice (source : String) : Prop :=
  ¬ ((assignments source).map Assignment.key).Nodup

/-- The role is read off the variable. -/
theorem accountKey_of_assignment {line : String} {a : Assignment} (h : assignment line = some a) :
    accountKey a.key = some a.role := by
  unfold assignment at h
  dsimp only at h
  split at h
  · cases h
  · split at h
    · cases h
    · split at h
      · cases h
      · rename_i hkey
        cases h
        exact hkey

/-- A variable that is assigned twice has a role that is. -/
theorem sameRoleTwice_of_sameVariableTwice (h : SameVariableTwice source) :
    SameRoleTwice source := by
  intro hrole
  refine h (List.Nodup.of_map accountKey ?_)
  have hroles : ((assignments source).map Assignment.key).map accountKey =
      ((assignments source).map Assignment.role).map some := by
    rw [List.map_map, List.map_map]
    refine List.map_congr_left fun a ha => ?_
    obtain ⟨line, -, hline⟩ := List.mem_filterMap.mp ha
    exact accountKey_of_assignment hline
  rw [hroles]
  exact hrole.map (Option.some_injective _)

theorem line_of_none {line : String} (h : assignment line = none) (parsed : Parsed) :
    parsed.line line = .ok parsed := by
  unfold Parsed.line
  rw [h]

theorem line_of_some {line : String} {a : Assignment} (h : assignment line = some a)
    (parsed : Parsed) : parsed.line line = parsed.record a := by
  unfold Parsed.line
  rw [h]

/-- Lines without an assignment are passed over. -/
theorem foldlM_line (lines : List String) (parsed : Parsed) :
    lines.foldlM Parsed.line parsed = (lines.filterMap assignment).foldlM Parsed.record parsed := by
  induction lines generalizing parsed with
  | nil => rfl
  | cons line lines ih =>
      rw [List.foldlM_cons, List.filterMap_cons]
      cases hline : assignment line with
      | none =>
          rw [line_of_none hline]
          exact ih parsed
      | some a =>
          rw [List.foldlM_cons, line_of_some hline]
          exact congrArg _ (funext fun parsed => ih parsed)

/-- What an assignment makes of the entries. -/
def write (entries : Table UInt16 LegacyEntry) (a : Assignment) : Table UInt16 LegacyEntry :=
  entries.insert a.index ((entries[a.index]?.getD ⟨none, none, a.enabled⟩).assign a)

/-- Variables that are all different are written down. -/
theorem foldlM_record_of_nodup (entries : Table UInt16 LegacyEntry) (seen : Finset String)
    (hnodup : (l.map Assignment.key).Nodup) (hseen : ∀ a ∈ l, a.key ∉ seen) :
    ∃ seen', l.foldlM Parsed.record ⟨entries, seen⟩ = .ok ⟨l.foldl write entries, seen'⟩ := by
  induction l generalizing entries seen with
  | nil => exact ⟨seen, rfl⟩
  | cons a l ih =>
      obtain ⟨hfresh, hnodup⟩ := List.nodup_cons.mp hnodup
      rw [List.foldlM_cons, Parsed.record, if_neg (hseen a (List.mem_cons_self ..))]
      refine ih (write entries a) _ hnodup fun b hb => ?_
      rw [Finset.mem_insert, not_or]
      refine ⟨fun heq => hfresh ?_, hseen b (List.mem_cons_of_mem _ hb)⟩
      exact List.mem_map.mpr ⟨b, hb, heq⟩

/-- A variable that is assigned twice is an error. -/
theorem foldlM_record_of_duplicate (entries : Table UInt16 LegacyEntry) (seen : Finset String)
    (h : ¬ (l.map Assignment.key).Nodup ∨ ∃ a ∈ l, a.key ∈ seen) :
    ∃ key, l.foldlM Parsed.record ⟨entries, seen⟩ = .error (.duplicateVariable key) := by
  induction l generalizing entries seen with
  | nil =>
      rcases h with h | ⟨a, ha, -⟩
      · exact absurd List.nodup_nil h
      · cases ha
  | cons a l ih =>
      rw [List.foldlM_cons, Parsed.record]
      by_cases hseen : a.key ∈ seen
      · rw [if_pos hseen]
        exact ⟨a.key, rfl⟩
      · rw [if_neg hseen]
        refine ih (write entries a) _ ?_
        rcases h with h | ⟨b, hb, hkey⟩
        · rw [List.map_cons, List.nodup_cons, not_and_or, not_not] at h
          rcases h with h | h
          · obtain ⟨b, hb, heq⟩ := List.mem_map.mp h
            exact .inr ⟨b, hb, by simp [heq]⟩
          · exact .inl h
        · rcases List.mem_cons.mp hb with rfl | hb
          · exact absurd hkey hseen
          · exact .inr ⟨b, hb, by simp [hkey]⟩

/-! ## Entries -/

/-- **The entry of an index**: the last name and the last credential that
are assigned, and whether every line is in force. -/
def entryOf (l : List Assignment) (index : UInt16) : Option LegacyEntry :=
  let own := l.filter fun a => a.index = index
  if own = [] then none
  else some {
    name := (own.filter fun a => a.isName).getLast?.map (·.value)
    credential := (own.filter fun a => !a.isName).getLast?.map (·.value)
    enabled := own.all (·.enabled) }

theorem entryOf_append_singleton (l : List Assignment) (a : Assignment) :
    entryOf (l ++ [a]) index = if a.index = index then
      some (((entryOf l index).getD ⟨none, none, a.enabled⟩).assign a) else entryOf l index := by
  unfold entryOf
  by_cases hindex : a.index = index
  · simp only [List.filter_append, List.filter_cons, hindex, decide_true, if_true, List.filter_nil]
    by_cases hown : l.filter (fun a => a.index = index) = []
    · cases hname : a.isName <;> simp [hown, LegacyEntry.assign, hname]
    · cases hname : a.isName <;> simp [hown, LegacyEntry.assign, hname, Bool.and_comm]
  · simp [List.filter_append, hindex]

/-- The entries that are written are those of the indices. -/
theorem getElem?_foldl_write (l : List Assignment) (index : UInt16) :
    (l.foldl write ∅)[index]? = entryOf l index := by
  induction l using List.reverseRecOn with
  | nil => simp [entryOf]
  | append_singleton l a ih =>
      rw [List.foldl_append, List.foldl_cons, List.foldl_nil, entryOf_append_singleton, write,
        Std.ExtTreeMap.getElem?_insert]
      simp only [Std.LawfulEqCmp.compare_eq_iff_eq]
      by_cases hindex : a.index = index
      · rw [if_pos hindex, if_pos hindex, hindex, ih]
      · rw [if_neg hindex, if_neg hindex, ih]

/-- Lists of at most one element have one order. -/
theorem eq_of_perm_of_length_le_one {α : Type} {left right : List α} (h : left.Perm right)
    (hlength : left.length ≤ 1) : left = right := by
  match left, hlength with
  | [], _ => exact (List.nil_perm.mp h).symm
  | [a], _ => exact List.singleton_perm.mp h

/-- Only one assignment has a role. -/
theorem length_filter_role_le (hnodup : (l.map Assignment.role).Nodup) (index : UInt16)
    {p : Assignment → Bool} (isName : Bool) (hp : ∀ a, p a = true → a.isName = isName) :
    ((l.filter fun a => a.index = index).filter p).length ≤ 1 := by
  have hrole : ∀ role ∈ (((l.filter fun a => a.index = index).filter p).map Assignment.role),
      role = (index, isName) := by
    intro role hmem
    obtain ⟨a, ha, rfl⟩ := List.mem_map.mp hmem
    obtain ⟨hown, hkind⟩ := List.mem_filter.mp ha
    have hindex := of_decide_eq_true (List.mem_filter.mp hown).2
    rw [Assignment.role, hindex, hp a hkind]
  have hsub : (((l.filter fun a => a.index = index).filter p).map Assignment.role).Nodup :=
    hnodup.sublist ((List.filter_sublist.trans List.filter_sublist).map _)
  rw [List.eq_replicate_of_mem hrole, List.nodup_replicate, List.length_map] at hsub
  exact hsub

/-- **Entries do not depend on the order** of assignments whose roles are
all different. -/
theorem entryOf_of_perm (hperm : l.Perm l') (hnodup : (l.map Assignment.role).Nodup)
    (index : UInt16) : entryOf l index = entryOf l' index := by
  have hown := hperm.filter fun a => a.index = index
  have hnames := eq_of_perm_of_length_le_one (hown.filter fun a => a.isName)
    (length_filter_role_le hnodup index true (by simp))
  have hcredentials := eq_of_perm_of_length_le_one (hown.filter fun a => !a.isName)
    (length_filter_role_le hnodup index false (by simp))
  have hempty : l.filter (fun a => a.index = index) = [] ↔
      l'.filter (fun a => a.index = index) = [] := by
    rw [← List.length_eq_zero_iff, hown.length_eq, List.length_eq_zero_iff]
  simp only [entryOf, hnames, hcredentials, hempty, hown.all_eq]

theorem entryOf_eq_none_iff : entryOf l index = none ↔ ∀ a ∈ l, a.index ≠ index := by
  simp [entryOf, List.filter_eq_nil_iff]

/-- An account's lines are in force if the entry is. -/
theorem entryOf_eq_some {entry : LegacyEntry} (h : entryOf l index = some entry) :
    (entry.enabled = true ↔ ∀ a ∈ l, a.index = index → a.enabled = true) ∧
      ∀ credential, entry.credential = some credential →
        ∃ a ∈ l, a.index = index ∧ a.isName = false ∧ a.value = credential := by
  unfold entryOf at h
  dsimp only at h
  split at h
  · cases h
  · obtain rfl := Option.some.inj h
    refine ⟨?_, fun credential hcredential => ?_⟩
    · simp only [List.all_eq_true, List.mem_filter, decide_eq_true_eq, and_imp]
    obtain ⟨a, ha, rfl⟩ := Option.map_eq_some_iff.mp hcredential
    obtain ⟨hown, hkind⟩ := List.mem_filter.mp (List.mem_of_getLast? ha)
    obtain ⟨hmem, hindex⟩ := List.mem_filter.mp hown
    exact ⟨a, hmem, of_decide_eq_true hindex, by simpa using hkind, rfl⟩

/-! ## Files -/

section Files

variable [LegacyCrates] [Urls]

/-- The entries of a file that assigns no variable twice. -/
def entriesOf (source : String) : Table UInt16 LegacyEntry :=
  (assignments source).foldl write ∅

omit [LegacyCrates] [Urls] in
theorem getElem?_entriesOf (source : String) (index : UInt16) :
    (entriesOf source)[index]? = entryOf (assignments source) index :=
  getElem?_foldl_write _ _

/-- What the entries are converted to. -/
def convertAll (entries : Table UInt16 LegacyEntry) :
    Except MigrationError (List ImportedAccount) :=
  if entries.isEmpty then .error .empty
  else entries.toList.mapM fun entry => convertEntry entry.1 entry.2

theorem parse_eq (source : String) : parseClaudeproxyEnv source =
    (assignments source).foldlM Parsed.record ⟨∅, ∅⟩ >>= fun parsed =>
      convertAll parsed.entries := by
  unfold parseClaudeproxyEnv
  rw [foldlM_line]
  unfold assignments
  cases ((textLines source).filterMap assignment).foldlM Parsed.record ⟨∅, ∅⟩ <;> rfl

theorem parse_of_nodup (h : ¬ SameVariableTwice source) :
    parseClaudeproxyEnv source = convertAll (entriesOf source) := by
  obtain ⟨seen, hread⟩ := foldlM_record_of_nodup ∅ ∅ (not_not.mp h) (by simp)
  rw [parse_eq, hread]
  rfl

theorem parse_of_duplicate (h : SameVariableTwice source) :
    ∃ key, parseClaudeproxyEnv source = .error (.duplicateVariable key) := by
  obtain ⟨key, hread⟩ := foldlM_record_of_duplicate ∅ ∅ (.inl h)
  refine ⟨key, ?_⟩
  rw [parse_eq, hread]
  rfl

/-- Conversion never reports a variable. -/
theorem convertAll_ne_duplicate (entries : Table UInt16 LegacyEntry) (key : String) :
    convertAll entries ≠ .error (.duplicateVariable key) := by
  unfold convertAll
  split
  · nofun
  · intro h
    obtain ⟨before, entry, after, -, herror, -⟩ := exists_of_mapM_eq_error h
    exact nomatch errsAt_convertEntry entry.1 entry.2 _ herror

/-- **A file is refused for a variable exactly if it is assigned twice.** -/
theorem parse_eq_duplicate_iff :
    (∃ key, parseClaudeproxyEnv source = .error (.duplicateVariable key)) ↔
      SameVariableTwice source := by
  refine ⟨fun ⟨key, hkey⟩ => ?_, parse_of_duplicate⟩
  by_contra h
  rw [parse_of_nodup h] at hkey
  exact convertAll_ne_duplicate _ key hkey

/-- **The account of an index**: it has the index's id, and it is enabled
exactly if none of its lines is commented out and its credential is not
paused. -/
structure AccountOf (source : String) (index : UInt16) (imported : ImportedAccount) : Prop where
  id : imported.account.id = accountId index
  enabled : ∃ a ∈ assignments source, a.index = index ∧ a.isName = false ∧
    ∃ legacy, LegacyCredential.fromStr a.value = some legacy ∧
      (imported.account.enabled = true ↔
        (∀ b ∈ assignments source, b.index = index → b.enabled = true) ∧ legacy.paused = false)

theorem accountOf_convertEntry {entry : LegacyEntry} {imported : ImportedAccount}
    (hentry : entryOf (assignments source) index = some entry)
    (h : convertEntry index entry = .ok imported) : AccountOf source index imported := by
  obtain ⟨name, credential, legacy, provider, -, -, hcredential, hlegacy, -, rfl⟩ :=
    convertEntry_eq_ok_iff.mp h
  obtain ⟨henabled, hassigned⟩ := entryOf_eq_some hentry
  obtain ⟨a, ha, hindex, hkind, rfl⟩ := hassigned credential hcredential
  refine ⟨rfl, a, ha, hindex, hkind, legacy, hlegacy, ?_⟩
  rw [← henabled]
  simp [importedAccount]

/-- **The error of the first index that has one.** -/
structure FirstError (source : String) (error : MigrationError) (index : UInt16) : Prop where
  fails : ∃ entry, entryOf (assignments source) index = some entry ∧
    convertEntry index entry = .error error
  before : ∀ index' < index, ∀ entry, entryOf (assignments source) index' = some entry →
    ∃ imported, convertEntry index' entry = .ok imported

/-- **A file is read for what it says**: whoever assigns a role twice is
told so; otherwise the order of the lines does not matter, there is one
account for each index, in their order, and an error is that of the first
index that has one. -/
structure ReadFaithfully (source : String) : Prop where
  duplicates : SameRoleTwice source →
    ∃ key, parseClaudeproxyEnv source = .error (.duplicateVariable key)
  order : ¬ SameRoleTwice source → ∀ source', (textLines source').Perm (textLines source) →
    parseClaudeproxyEnv source' = parseClaudeproxyEnv source
  accounts : ¬ SameRoleTwice source → ∀ accounts, parseClaudeproxyEnv source = .ok accounts →
    ∃ indices : List UInt16, indices.Pairwise (· < ·) ∧
      (∀ index, index ∈ indices ↔ ∃ a ∈ assignments source, a.index = index) ∧
      List.Forall₂ (AccountOf source) indices accounts
  errors : ¬ SameRoleTwice source → ∀ error, parseClaudeproxyEnv source = .error error →
    (error = .empty ∧ assignments source = []) ∨ ∃ index, FirstError source error index

theorem convertAll_eq_ok {accounts : List ImportedAccount}
    (h : convertAll (entriesOf source) = .ok accounts) :
    ∃ indices : List UInt16, indices.Pairwise (· < ·) ∧
      (∀ index, index ∈ indices ↔ ∃ a ∈ assignments source, a.index = index) ∧
      List.Forall₂ (AccountOf source) indices accounts := by
  unfold convertAll at h
  split at h
  · cases h
  · refine ⟨(entriesOf source).toList.map Prod.fst, ?_, fun index => ?_, ?_⟩
    · rw [List.pairwise_map]
      refine Std.ExtTreeMap.ordered_keys_toList.imp fun hlt => ?_
      exact Std.compare_eq_lt.mp hlt
    · rw [Std.ExtTreeMap.map_fst_toList_eq_keys, Std.ExtTreeMap.mem_keys,
        Std.ExtTreeMap.mem_iff_isSome_getElem?, getElem?_entriesOf, ← not_iff_not,
        Option.not_isSome_iff_eq_none, entryOf_eq_none_iff]
      push Not
      rfl
    · have hread : List.Forall₂ (fun (entry : UInt16 × LegacyEntry) imported =>
          entryOf (assignments source) entry.1 = some entry.2 ∧
            convertEntry entry.1 entry.2 = .ok imported) (entriesOf source).toList accounts := by
        rw [List.forall₂_and_left]
        refine ⟨fun entry hentry => ?_, mapM_eq_ok_iff.mp h⟩
        rw [← getElem?_entriesOf]
        exact Std.ExtTreeMap.mem_toList_iff_getElem?_eq_some.mp hentry
      rw [List.forall₂_map_left_iff]
      exact hread.imp fun entry imported hentry => accountOf_convertEntry hentry.1 hentry.2

theorem convertAll_eq_error {error : MigrationError}
    (h : convertAll (entriesOf source) = .error error) :
    (error = .empty ∧ assignments source = []) ∨ ∃ index, FirstError source error index := by
  unfold convertAll at h
  split at h
  · rename_i hempty
    cases h
    refine .inl ⟨rfl, List.eq_nil_iff_forall_not_mem.mpr fun a ha => ?_⟩
    have hnone : entryOf (assignments source) a.index = none := by
      rw [← getElem?_entriesOf, Std.ExtTreeMap.isEmpty_iff.mp hempty]
      rfl
    exact entryOf_eq_none_iff.mp hnone a ha rfl
  · obtain ⟨before, ⟨index, entry⟩, after, hsplit, hfails, hbefore⟩ := exists_of_mapM_eq_error h
    have hmem : ∀ {index entry}, (index, entry) ∈ (entriesOf source).toList ↔
        entryOf (assignments source) index = some entry := by
      intro index entry
      rw [Std.ExtTreeMap.mem_toList_iff_getElem?_eq_some, getElem?_entriesOf]
    refine .inr ⟨index, ⟨entry, hmem.mp (by simp [hsplit]), hfails⟩, ?_⟩
    intro index' hlt entry' hentry'
    -- an entry of a lower index stands before
    have hordered := Std.ExtTreeMap.ordered_keys_toList (t := entriesOf source)
    rw [hsplit, List.pairwise_append, List.pairwise_cons] at hordered
    have hin := hmem.mpr hentry'
    rw [hsplit, List.mem_append, List.mem_cons] at hin
    rcases hin with hin | heq | hin
    · exact hbefore _ hin
    · cases heq
      exact absurd hlt (UInt16.lt_irrefl _)
    · have hgt := Std.compare_eq_lt.mp (hordered.2.1.1 _ hin)
      exact absurd hlt (UInt16.lt_asymm hgt)

/-- A file that is read assigns no variable twice. -/
theorem parse_eq_ok {accounts : List ImportedAccount}
    (h : parseClaudeproxyEnv source = .ok accounts) :
    convertAll (entriesOf source) = .ok accounts := by
  by_cases htwice : SameVariableTwice source
  · obtain ⟨key, hkey⟩ := parse_of_duplicate htwice
    rw [hkey] at h
    cases h
  · rw [← parse_of_nodup htwice, h]

/-- What an account that is read was converted from. -/
theorem exists_entry_of_parse {accounts : List ImportedAccount} {imported : ImportedAccount}
    (h : parseClaudeproxyEnv source = .ok accounts) (hmem : imported ∈ accounts) :
    ∃ index entry, entryOf (assignments source) index = some entry ∧
      convertEntry index entry = .ok imported := by
  have hconverted := parse_eq_ok h
  unfold convertAll at hconverted
  split at hconverted
  · cases hconverted
  · obtain ⟨⟨index, entry⟩, hentry, himported⟩ := exists_of_mem_mapM hconverted hmem
    refine ⟨index, entry, ?_, himported⟩
    rw [← getElem?_entriesOf]
    exact Std.ExtTreeMap.mem_toList_iff_getElem?_eq_some.mp hentry

/-- **The ids that are read are all different.** -/
theorem nodup_ids_of_parse {accounts : List ImportedAccount}
    (h : parseClaudeproxyEnv source = .ok accounts) :
    (accounts.map (·.account.id)).Nodup := by
  obtain ⟨indices, hordered, -, hread⟩ := convertAll_eq_ok (parse_eq_ok h)
  have hids : accounts.map (·.account.id) = indices.map accountId := by
    clear h hordered
    induction hread with
    | nil => rfl
    | cons hof _ ih => rw [List.map_cons, List.map_cons, ih, hof.id]
  rw [hids]
  refine List.Nodup.map accountId_injective (hordered.imp fun hlt heq => ?_)
  rw [heq] at hlt
  exact UInt16.lt_irrefl _ hlt

/-- **A file is read faithfully exactly if** a role that is assigned twice
comes with a variable that is. -/
theorem read_faithfully_iff :
    ReadFaithfully source ↔ (SameRoleTwice source → SameVariableTwice source) := by
  constructor
  · intro h hrole
    exact parse_eq_duplicate_iff.mp (h.duplicates hrole)
  · intro h
    have hparse : ∀ {source}, ¬ SameRoleTwice source →
        parseClaudeproxyEnv source = convertAll (entriesOf source) := fun hrole =>
      parse_of_nodup fun hvariable => hrole (sameRoleTwice_of_sameVariableTwice hvariable)
    refine ⟨fun hrole => parse_of_duplicate (h hrole), fun hrole source' hperm => ?_,
      fun hrole accounts haccounts => ?_, fun hrole error herror => ?_⟩
    · have hassigned : (assignments source').Perm (assignments source) := hperm.filterMap _
      have hrole' : ¬ SameRoleTwice source' := by
        rw [SameRoleTwice, (hassigned.map Assignment.role).nodup_iff]
        exact hrole
      rw [hparse hrole, hparse hrole']
      refine congrArg convertAll (Std.ExtTreeMap.ext_getElem? fun index => ?_)
      rw [getElem?_entriesOf, getElem?_entriesOf,
        entryOf_of_perm hassigned (not_not.mp hrole') index]
    · rw [hparse hrole] at haccounts
      exact convertAll_eq_ok haccounts
    · rw [hparse hrole] at herror
      exact convertAll_eq_error herror

end Files

section Example

/-- A file of lines. -/
def fileOf (lines : List String) : String := "\n".intercalate lines

theorem assignments_fileOf {lines : List String} (hne : lines ≠ [])
    (hlines : ∀ line ∈ lines, '\n' ∉ line.toList ∧ line.toList.getLast? ≠ some '\r')
    (hlast : lines.getLast? ≠ some "") :
    assignments (fileOf lines) = lines.filterMap assignment := by
  rw [assignments, fileOf, textLines_intercalate hne hlines hlast]

/-- A file that says an account has two names. -/
def namedTwice : List String :=
  ["CLAUDE_ACCOUNT_1_NAME=first", "CLAUDE_ACCOUNT_01_NAME=second", "CLAUDE_ACCOUNT_1=" ++ keyText]

/-- Its assignments. -/
def nameTwice : List Assignment :=
  [⟨"CLAUDE_ACCOUNT_1_NAME", 1, true, "first", true⟩,
    ⟨"CLAUDE_ACCOUNT_01_NAME", 1, true, "second", true⟩,
    ⟨"CLAUDE_ACCOUNT_1", 1, false, keyText, true⟩]

theorem filterMap_namedTwice : namedTwice.filterMap assignment = nameTwice := by decide +kernel

theorem lines_namedTwice : ∀ line ∈ namedTwice,
    '\n' ∉ line.toList ∧ line.toList.getLast? ≠ some '\r' := by decide +kernel

/-- A name is lost, and which one depends on the order of the lines. -/
theorem file_read_unfaithfully :
    letI := LegacyCrates.listed [(keyText, keyDocument)]
    letI := Urls.listed [("https://api.anthropic.com/", anthropicUrl)]
    SameRoleTwice (fileOf namedTwice) ∧
      (parseClaudeproxyEnv (fileOf namedTwice)).map (List.map (·.account.label)) =
        .ok ["second"] ∧
      (parseClaudeproxyEnv (fileOf namedTwice.reverse)).map (List.map (·.account.label)) =
        .ok ["first"] ∧
      ¬ ReadFaithfully (fileOf namedTwice) := by
  let := LegacyCrates.listed [(keyText, keyDocument)]
  let := Urls.listed [("https://api.anthropic.com/", anthropicUrl)]
  have hread : assignments (fileOf namedTwice) = nameTwice := by
    rw [assignments_fileOf (by simp [namedTwice]) lines_namedTwice (by decide +kernel),
      filterMap_namedTwice]
  have hreversed : assignments (fileOf namedTwice.reverse) = nameTwice.reverse := by
    rw [assignments_fileOf (by simp [namedTwice])
      (fun line hline => lines_namedTwice line (List.mem_reverse.mp hline)) (by decide +kernel),
      List.filterMap_reverse, filterMap_namedTwice]
  have hrole : SameRoleTwice (fileOf namedTwice) := by
    rw [SameRoleTwice, hread]
    decide
  have hparsed : (parseClaudeproxyEnv (fileOf namedTwice)).map (List.map (·.account.label)) =
      .ok ["second"] := by
    rw [parse_eq, hread]
    decide +kernel
  refine ⟨hrole, hparsed, ?_, fun h => ?_⟩
  · rw [parse_eq, hreversed]
    decide +kernel
  · obtain ⟨key, hkey⟩ := h.duplicates hrole
    rw [hkey] at hparsed
    cases hparsed

/-- A file of two accounts, their lines mixed, and one commented out. -/
def mixedLines : List String :=
  ["CLAUDE_ACCOUNT_2_NAME=b", "# CLAUDE_ACCOUNT_1_NAME=a", "CLAUDE_ACCOUNT_1=" ++ keyText,
    "CLAUDE_ACCOUNT_2='" ++ keyText ++ "'"]

/-- Its assignments. -/
def mixedAssignments : List Assignment :=
  [⟨"CLAUDE_ACCOUNT_2_NAME", 2, true, "b", true⟩, ⟨"CLAUDE_ACCOUNT_1_NAME", 1, true, "a", false⟩,
    ⟨"CLAUDE_ACCOUNT_1", 1, false, keyText, true⟩, ⟨"CLAUDE_ACCOUNT_2", 2, false, keyText, true⟩]

theorem assignments_mixedLines : assignments (fileOf mixedLines) = mixedAssignments := by
  rw [assignments_fileOf (by simp [mixedLines]) (by decide +kernel) (by decide +kernel)]
  decide +kernel

/-- Its accounts. -/
def mixedAccounts : List ImportedAccount :=
  [⟨{ Plain.account "claudeproxy-1" .anthropicApiKey false with label := "a" }, "k"⟩,
    ⟨{ Plain.account "claudeproxy-2" .anthropicApiKey true with label := "b" }, "k"⟩]

theorem parse_mixedLines :
    letI := LegacyCrates.listed [(keyText, keyDocument)]
    letI := Urls.listed [("https://api.anthropic.com/", anthropicUrl)]
    parseClaudeproxyEnv (fileOf mixedLines) = .ok mixedAccounts := by
  let := LegacyCrates.listed [(keyText, keyDocument)]
  let := Urls.listed [("https://api.anthropic.com/", anthropicUrl)]
  rw [parse_eq, assignments_mixedLines]
  decide +kernel

theorem mixed_lines_read_faithfully :
    letI := LegacyCrates.listed [(keyText, keyDocument)]
    letI := Urls.listed [("https://api.anthropic.com/", anthropicUrl)]
    ReadFaithfully (fileOf mixedLines) ∧
      (parseClaudeproxyEnv (fileOf mixedLines)).map (List.map fun imported =>
        (imported.account.id, imported.account.enabled)) =
          .ok [("claudeproxy-1", false), ("claudeproxy-2", true)] := by
  let := LegacyCrates.listed [(keyText, keyDocument)]
  let := Urls.listed [("https://api.anthropic.com/", anthropicUrl)]
  have hrole : ¬ SameRoleTwice (fileOf mixedLines) := by
    rw [SameRoleTwice, assignments_mixedLines]
    decide
  refine ⟨read_faithfully_iff.mpr fun h => absurd h hrole, ?_⟩
  rw [parse_mixedLines]
  rfl

end Example

end Migration

end Llmap
