import Mathlib
/-!
# The Rust vocabulary

What the sources take from `std`, `chrono` and `http` and this
development reads through Lean's own types: keyed collections, instants,
saturating counters and the text primitives. Where Lean's function and
Rust's differ the Rust behaviour is written out here, under Rust's name.

A keyed collection is an extensional ordered map, so two of them are
equal exactly when they answer every lookup alike. A `BTreeMap` and an
SQLite table read with `ORDER BY` are listed in the order of their keys,
which for text is the order of its bytes. A `HashMap` has no order of its
own, and a result about one is stated so that it does not depend on the
listing.
-/

namespace Llmap

/-- A finite map, ordered by key. -/
abbrev Table (K V : Type) [Ord K] := Std.ExtTreeMap K V compare

/-- An instant, in nanoseconds from the Unix epoch. The time line is
unbounded; `chrono` ends it 262 000 years away on either side. -/
abbrev DateTime := Int

/-- `chrono::Duration::minutes`. -/
def minutes (n : Int) : Int := n * (60 * 1000000000)

/-- `chrono::Duration::seconds`. -/
def seconds (n : Int) : Int := n * 1000000000

/-! ## Counters -/

/-- `u32::saturating_add(1)`. -/
def saturatingSucc (n : UInt32) : UInt32 := if n = 4294967295 then n else n + 1

/-- `u32::saturating_sub(1)`. -/
def saturatingPred (n : UInt32) : UInt32 := if n = 0 then n else n - 1

theorem toNat_saturatingSucc {n : UInt32} (h : n.toNat + 1 < 2 ^ 32) :
    (saturatingSucc n).toNat = n.toNat + 1 := by
  have hne : n ≠ 4294967295 := by
    rintro rfl
    simp at h
  rw [saturatingSucc, if_neg hne, UInt32.toNat_add]
  exact Nat.mod_eq_of_lt h

theorem saturatingSucc_of_full {n : UInt32} (h : ¬ n.toNat + 1 < 2 ^ 32) :
    saturatingSucc n = n := by
  have hfull : n = 4294967295 := by
    have hbound := n.toNat_lt
    refine UInt32.toNat_inj.mp (?_ : n.toNat = 4294967295)
    omega
  rw [saturatingSucc, if_pos hfull]

theorem toNat_saturatingPred (n : UInt32) : (saturatingPred n).toNat = n.toNat - 1 := by
  unfold saturatingPred
  split
  · rename_i h
    simp [h]
  · rename_i h
    have hpos : 1 ≤ n := by
      rw [UInt32.le_iff_toNat_le]
      have : n.toNat ≠ 0 := fun h0 => h (UInt32.toNat_inj.mp h0)
      simpa using Nat.one_le_iff_ne_zero.mpr this
    rw [UInt32.toNat_sub_of_le _ _ hpos]
    rfl

/-- `u8::saturating_add(1)`. -/
def saturatingSuccU8 (n : UInt8) : UInt8 := if n = 255 then n else n + 1

theorem toNat_saturatingSuccU8 (n : UInt8) :
    (saturatingSuccU8 n).toNat = min (n.toNat + 1) 255 := by
  unfold saturatingSuccU8
  split
  · rename_i hfull
    rw [hfull]
    rfl
  · rename_i hroom
    have hne : n.toNat ≠ 255 := fun h => hroom (UInt8.toNat_inj.mp h)
    have hbound := n.toNat_lt
    rw [UInt8.toNat_add, show (1 : UInt8).toNat = 1 from rfl]
    omega

/-! ## Bytes -/

/-- `Bytes`, `&[u8]` and `Vec<u8>`. -/
abbrev Bytes := List UInt8

/-- `u16::from_be_bytes`, `u32::from_be_bytes`: the number written with
the most significant byte first. -/
def fromBeBytes (bytes : Bytes) : ℕ := bytes.foldl (fun n byte => 256 * n + byte.toNat) 0

/-- `u16::to_be_bytes`, `u32::to_be_bytes`: a number in so many bytes, the
most significant first. -/
def toBeBytes : ℕ → ℕ → Bytes
  | 0, _ => []
  | width + 1, n => toBeBytes width (n / 256) ++ [UInt8.ofNat n]

@[simp] theorem length_toBeBytes (width n : ℕ) : (toBeBytes width n).length = width := by
  induction width generalizing n with
  | zero => rfl
  | succ width ih => simp [toBeBytes, ih]

theorem fromBeBytes_append_singleton (bytes : Bytes) (byte : UInt8) :
    fromBeBytes (bytes ++ [byte]) = 256 * fromBeBytes bytes + byte.toNat := by
  simp [fromBeBytes]

/-- A number that fits is read back. -/
theorem fromBeBytes_toBeBytes {width n : ℕ} (h : n < 256 ^ width) :
    fromBeBytes (toBeBytes width n) = n := by
  induction width generalizing n with
  | zero =>
      have hzero : n = 0 := by simpa using h
      rw [hzero]
      rfl
  | succ width ih =>
      have hhigh : n / 256 < 256 ^ width := by
        rw [pow_succ] at h
        omega
      have hlow : (UInt8.ofNat n).toNat = n % 256 := UInt8.toNat_ofNat'
      rw [toBeBytes, fromBeBytes_append_singleton, ih hhigh, hlow]
      omega

/-- Bytes are written back. -/
theorem toBeBytes_fromBeBytes (bytes : Bytes) :
    toBeBytes bytes.length (fromBeBytes bytes) = bytes := by
  induction bytes using List.reverseRecOn with
  | nil => rfl
  | append_singleton bytes byte ih =>
      have hbyte := byte.toNat_lt
      have hhigh : (256 * fromBeBytes bytes + byte.toNat) / 256 = fromBeBytes bytes := by omega
      have hlow : UInt8.ofNat (256 * fromBeBytes bytes + byte.toNat) = byte := by
        apply UInt8.toNat_inj.mp
        rw [UInt8.toNat_ofNat']
        omega
      rw [fromBeBytes_append_singleton, List.length_append, List.length_singleton, toBeBytes, hhigh,
        ih, hlow]

theorem fromBeBytes_lt (bytes : Bytes) : fromBeBytes bytes < 256 ^ bytes.length := by
  induction bytes using List.reverseRecOn with
  | nil => simp [fromBeBytes]
  | append_singleton bytes byte ih =>
      have hbyte := byte.toNat_lt
      rw [fromBeBytes_append_singleton, List.length_append, List.length_singleton, pow_succ]
      omega

/-- `str::as_bytes`. -/
def asBytes (text : String) : Bytes := text.toByteArray.data.toList

/-- `str::from_utf8`. -/
def fromUtf8 (bytes : Bytes) : Option String := String.fromUTF8? ⟨bytes.toArray⟩

theorem fromUtf8_asBytes (text : String) : fromUtf8 (asBytes text) = some text := by
  simp only [fromUtf8, asBytes, String.fromUTF8?, Array.toArray_toList]
  exact dif_pos text.isValidUTF8

theorem asBytes_of_fromUtf8 {bytes : Bytes} {text : String} (h : fromUtf8 bytes = some text) :
    asBytes text = bytes := by
  simp only [fromUtf8, String.fromUTF8?] at h
  split at h
  · cases h
    rfl
  · cases h

theorem asBytes_ofList (text : List Char) :
    asBytes (String.ofList text) = text.flatMap String.utf8EncodeChar := by
  rw [asBytes, String.toByteArray_ofList, List.utf8Encode, List.data_toByteArray,
    List.toList_toArray]

theorem asBytes_injective : Function.Injective asBytes := fun left right h =>
  Option.some.inj (by rw [← fromUtf8_asBytes left, h, fromUtf8_asBytes])

/-! ## Text -/

/-- `str::to_ascii_lowercase`. -/
def toAsciiLowercase (text : String) : String := String.ofList (text.toList.map Char.toLower)

/-- `str::contains` at a string pattern. -/
def containsStr (text pattern : String) : Bool := decide (pattern.toList <:+: text.toList)

/-- `str::starts_with` at a string pattern. -/
def startsWithStr (text pattern : String) : Bool := pattern.toList.isPrefixOf text.toList

/-- `char::is_whitespace`: the Unicode property `White_Space`. -/
def isWhitespace (c : Char) : Bool :=
  let n := c.toNat
  (9 ≤ n && n ≤ 13) || n = 32 || n = 133 || n = 160 || n = 5760 || (8192 ≤ n && n ≤ 8202) ||
    n = 8232 || n = 8233 || n = 8239 || n = 8287 || n = 12288

/-- `str::trim_start`. -/
def trimStart (text : String) : String := String.ofList (text.toList.dropWhile isWhitespace)

/-- `str::trim`. -/
def trim (text : String) : String :=
  String.ofList ((text.toList.dropWhile isWhitespace).reverse.dropWhile isWhitespace).reverse

/-- `str::len`: the bytes of the text, not its characters. -/
def byteLen (text : String) : ℕ := text.utf8ByteSize

/-- `u8::is_ascii_alphanumeric`, at a character: what is not ASCII is none. -/
def isAsciiAlphanumeric (c : Char) : Bool := c.isAlphanum

/-- `str::eq_ignore_ascii_case`. -/
def eqIgnoreAsciiCase (left right : String) : Bool := toAsciiLowercase left = toAsciiLowercase right

/-- `str::split_once` at a character. -/
def splitOnce (separator : Char) (text : String) : Option (String × String) :=
  match text.toList.span (· ≠ separator) with
  | (before, _ :: after) => some (String.ofList before, String.ofList after)
  | (_, []) => none

theorem splitOnce_append {separator : Char} {before : String} (after : String)
    (h : separator ∉ before.toList) :
    splitOnce separator (before ++ String.ofList [separator] ++ after) = some (before, after) := by
  have hbefore : ∀ c ∈ before.toList, (decide (c ≠ separator)) = true := by
    intro c hc
    refine decide_eq_true fun heq => h (heq ▸ hc)
  have hspan : (before ++ String.ofList [separator] ++ after).toList.span (· ≠ separator) =
      (before.toList, separator :: after.toList) := by
    rw [List.span_eq_takeWhile_dropWhile, String.toList_append, String.toList_append,
      String.toList_ofList, List.append_assoc, List.takeWhile_append_of_pos hbefore,
      List.dropWhile_append_of_pos hbefore]
    simp
  rw [splitOnce, hspan]
  simp

/-- The first part of `str::split` at a character. -/
def splitFirst (separator : Char) (text : String) : String :=
  String.ofList (text.toList.takeWhile (· ≠ separator))

/-- `str::trim_start_matches` at a character. -/
def trimStartMatches (c : Char) (text : String) : String :=
  String.ofList (text.toList.dropWhile (· = c))

/-- `str::trim_end_matches` at a character. -/
def trimEndMatches (c : Char) (text : String) : String :=
  String.ofList (text.toList.reverse.dropWhile (· = c)).reverse

theorem trimEndMatches_append {c : Char} {text : List Char} (n : ℕ) (h : text.getLast? ≠ some c) :
    trimEndMatches c (String.ofList (text ++ List.replicate n c)) = String.ofList text := by
  have hreplicate : (List.replicate n c ++ text.reverse).dropWhile (· = c) =
      text.reverse.dropWhile (· = c) :=
    List.dropWhile_append_of_pos fun c' hc' => by simp [List.eq_of_mem_replicate hc']
  have hstop : text.reverse.dropWhile (· = c) = text.reverse := by
    cases hrev : text.reverse with
    | nil => rfl
    | cons last rest =>
        have hne : last ≠ c := by
          rintro rfl
          refine h ?_
          rw [← List.reverse_reverse text, hrev]
          simp
        simp [hne]
  rw [trimEndMatches, String.toList_ofList, List.reverse_append, List.reverse_replicate, hreplicate,
    hstop, List.reverse_reverse]

/-- `str::ends_with` at a string pattern. -/
def endsWithStr (text pattern : String) : Bool := pattern.toList.isSuffixOf text.toList

/-- `str::strip_prefix` at a string pattern. -/
def stripPrefixStr (text pattern : String) : Option String :=
  if startsWithStr text pattern then some (String.ofList (text.toList.drop pattern.length))
  else none

theorem stripPrefixStr_append (start rest : String) :
    stripPrefixStr (start ++ rest) start = some rest := by
  have hstart : startsWithStr (start ++ rest) start = true := by
    rw [startsWithStr, String.toList_append, List.isPrefixOf_iff_prefix]
    exact List.prefix_append _ _
  rw [stripPrefixStr, if_pos hstart, String.toList_append, ← String.length_toList,
    List.drop_left, String.ofList_toList]

/-- `str::contains` at a character. -/
def containsChar (text : String) (c : Char) : Bool := text.toList.contains c

/-- `str::split` at a character. -/
def splitChar (separator : Char) (text : String) : List String :=
  (text.toList.splitOn separator).map String.ofList

/-- No piece of a split has anything in it that separates. -/
theorem not_of_mem_splitOnP {α : Type*} {p : α → Bool} {l piece : List α}
    (h : piece ∈ l.splitOnP p) : ∀ a ∈ piece, p a = false := by
  induction l generalizing piece with
  | nil =>
      rw [List.splitOnP_nil, List.mem_singleton] at h
      simp [h]
  | cons a l ih =>
      rw [List.splitOnP_cons_eq_if_modifyHead] at h
      obtain ⟨first, rest, hsplit⟩ := List.exists_cons_of_ne_nil (List.splitOnP_ne_nil p l)
      rw [hsplit] at h ih
      split at h
      · rcases List.mem_cons.mp h with rfl | h
        · simp
        · exact ih h
      · rename_i ha
        rcases List.mem_cons.mp h with rfl | h
        · intro b hb
          rcases List.mem_cons.mp hb with rfl | hb
          · simpa using ha
          · exact ih (List.mem_cons_self ..) b hb
        · exact ih (List.mem_cons_of_mem _ h)

theorem notMem_of_mem_splitOn {α : Type*} [BEq α] [LawfulBEq α] {separator : α} {l piece : List α}
    (h : piece ∈ l.splitOn separator) : separator ∉ piece := by
  intro hmem
  have hnot := not_of_mem_splitOnP h separator hmem
  simp at hnot

/-- `str::split_whitespace`. -/
def splitWhitespace (text : String) : List String :=
  ((text.toList.splitOnP isWhitespace).filter (· ≠ [])).map String.ofList

/-- A byte in two hexadecimal digits, as `{:02x}` prints it. -/
def hexByte (byte : UInt8) : List Char :=
  [Nat.digitChar (byte.toNat / 16), Nat.digitChar (byte.toNat % 16)]

/-- `str::parse::<i64>`: a sign or none, then digits. -/
def parseI64 (text : String) : Option Int :=
  let (negative, digits) := match text.toList with
    | '-' :: digits => (true, digits)
    | '+' :: digits => (false, digits)
    | digits => (false, digits)
  if digits = [] || !digits.all Char.isDigit then none
  else
    let magnitude : Int := digits.foldl (fun n c => 10 * n + (c.toNat - '0'.toNat)) 0
    let value := if negative then -magnitude else magnitude
    if -2 ^ 63 ≤ value ∧ value < 2 ^ 63 then some value else none

/-! ## Keyed collections -/

namespace Table

variable {K V : Type} [Ord K] [Std.TransOrd K]

/-- `collect` into a map: the pairs are inserted in order, so a later
pair replaces an earlier one under its key. -/
def collect (pairs : List (K × V)) : Table K V :=
  pairs.foldl (fun table pair => table.insert pair.1 pair.2) ∅

theorem collect_append_singleton (pairs : List (K × V)) (pair : K × V) :
    collect (pairs ++ [pair]) = (collect pairs).insert pair.1 pair.2 := by
  simp [collect]

/-- What is collected under a key was among the pairs. -/
theorem mem_of_getElem?_collect [Std.LawfulEqOrd K] {pairs : List (K × V)} {k : K} {v : V}
    (h : (collect pairs)[k]? = some v) : (k, v) ∈ pairs := by
  induction pairs using List.reverseRecOn with
  | nil => simp [collect] at h
  | append_singleton pairs pair ih =>
      rw [collect_append_singleton, Std.ExtTreeMap.getElem?_insert] at h
      by_cases hk : compare pair.1 k = .eq
      · rw [if_pos hk] at h
        have hkey : pair.1 = k := Std.LawfulEqCmp.compare_eq_iff_eq.mp hk
        have hval : pair.2 = v := Option.some.inj h
        simp [← hkey, ← hval]
      · rw [if_neg hk] at h
        simp [ih h]

/-- There is something under the key of each of the pairs. -/
theorem mem_collect {pairs : List (K × V)} {pair : K × V} (h : pair ∈ pairs) :
    pair.1 ∈ collect pairs := by
  induction pairs using List.reverseRecOn with
  | nil => cases h
  | append_singleton pairs last ih =>
      rw [collect_append_singleton, Std.ExtTreeMap.mem_insert]
      rcases List.mem_append.mp h with hpairs | hlast
      · exact .inr (ih hpairs)
      · rw [List.mem_singleton.mp hlast]
        exact .inl Std.ReflCmp.compare_self

/-- A table is collected from its entries. -/
theorem collect_toList [Std.LawfulEqOrd K] (table : Table K V) :
    collect table.toList = table := by
  have hof : ∀ {k : K} {v : V}, (collect table.toList)[k]? = some v → table[k]? = some v :=
    fun h => Std.ExtTreeMap.mem_toList_iff_getElem?_eq_some.mp (mem_of_getElem?_collect h)
  refine Std.ExtTreeMap.ext_getElem? fun k => ?_
  cases hk : (collect table.toList)[k]? with
  | some v => exact (hof hk).symm
  | none =>
      cases hv : table[k]? with
      | none => rfl
      | some v =>
          have hmem : k ∈ collect table.toList :=
            mem_collect (Std.ExtTreeMap.mem_toList_iff_getElem?_eq_some.mpr hv)
          rw [← Std.ExtTreeMap.isSome_getElem?_iff_mem, hk] at hmem
          cases hmem

/-- Mapping the values maps what is collected. -/
theorem getElem?_collect_map {W : Type} (f : V → W) (pairs : List (K × V)) (k : K) :
    (collect (pairs.map fun pair => (pair.1, f pair.2)))[k]? = (collect pairs)[k]?.map f := by
  induction pairs using List.reverseRecOn with
  | nil => simp [collect]
  | append_singleton pairs pair ih =>
      simp only [List.map_append, List.map_cons, List.map_nil, collect_append_singleton,
        Std.ExtTreeMap.getElem?_insert]
      split
      · rfl
      · exact ih

/-- The last of the entries with a property, in the order of the keys. -/
theorem find?_reverse_toList [Std.LawfulEqOrd K] {table : Table K V} {p : K × V → Bool} {k : K}
    {v : V} :
    table.toList.reverse.find? p = some (k, v) ↔
      table[k]? = some v ∧ p (k, v) = true ∧
        ∀ (k' : K) (v' : V), table[k']? = some v' → compare k k' = .lt → p (k', v') = false := by
  have hmem : ∀ (k' : K) (v' : V), (k', v') ∈ table.toList ↔ table[k']? = some v' :=
    fun _ _ => Std.ExtTreeMap.mem_toList_iff_getElem?_eq_some
  rw [List.find?_eq_some_iff_append]
  constructor
  · rintro ⟨hp, later, earlier, hsplit, hlater⟩
    have hlist : table.toList = earlier.reverse ++ (k, v) :: later.reverse := by
      rw [← List.reverse_reverse table.toList, hsplit]
      simp
    have hordered := Std.ExtTreeMap.ordered_keys_toList (t := table)
    refine ⟨(hmem k v).mp (by simp [hlist]), hp, fun k' v' hk' hlt => ?_⟩
    -- an entry past the key stands behind it, for one before it would be less
    have hin := (hmem k' v').mpr hk'
    rw [hlist, List.mem_append, List.mem_cons] at hin
    rw [hlist, List.pairwise_append] at hordered
    rcases hin with hbefore | hself | hafter
    · have hless := hordered.2.2 (k', v') hbefore (k, v) (by simp)
      exact absurd hlt (Std.OrientedCmp.not_lt_of_lt hless)
    · cases hself
      exact absurd hlt (Std.OrientedCmp.not_lt_of_lt hlt)
    · simpa using hlater (k', v') (by simpa using hafter)
  · rintro ⟨hk, hp, hlast⟩
    obtain ⟨earlier, later, hlist⟩ := List.append_of_mem ((hmem k v).mpr hk)
    refine ⟨hp, later.reverse, earlier.reverse, by simp [hlist], fun entry hentry => ?_⟩
    have hordered := Std.ExtTreeMap.ordered_keys_toList (t := table)
    rw [hlist, List.pairwise_append, List.pairwise_cons] at hordered
    have hin : entry ∈ later := by simpa using hentry
    have hkey := (hmem entry.1 entry.2).mp (by simp [hlist, hin])
    simp [hlast entry.1 entry.2 hkey (hordered.2.1.1 entry hin)]

/-- The size is the number of the keys. -/
theorem size_eq_ncard [Std.LawfulEqOrd K] (table : Table K V) :
    table.size = {key | key ∈ table}.ncard := by
  classical
  have hset : {key | key ∈ table} = ↑table.keys.toFinset := by
    ext key
    simp
  have hnodup : table.keys.Nodup := Std.ExtTreeMap.nodup_keys
  rw [hset, Set.ncard_coe_finset, List.toFinset_card_of_nodup hnodup, Std.ExtTreeMap.length_keys]

end Table

/-! ## Results -/

theorem map_eq_ok_iff {α β ε : Type} {f : α → β} {x : Except ε α} {b : β} :
    x.map f = .ok b ↔ ∃ a, x = .ok a ∧ f a = b := by
  cases x <;> simp [Except.map]

/-- Mapping with a function that may fail succeeds when every image does. -/
theorem mapM_eq_ok_iff {α β ε : Type} {f : α → Except ε β} {l : List α} {images : List β} :
    l.mapM f = .ok images ↔ List.Forall₂ (fun a b => f a = .ok b) l images := by
  induction l generalizing images with
  | nil => simp [pure, Except.pure, eq_comm]
  | cons a l ih =>
      rw [List.mapM_cons]
      cases hf : f a with
      | error error => simp [bind, Except.bind, hf, List.forall₂_cons_left_iff]
      | ok b =>
          cases hm : l.mapM f with
          | error error =>
              simp [bind, Except.bind, hf, hm, List.forall₂_cons_left_iff, ← ih]
          | ok rest =>
              simp [bind, Except.bind, pure, Except.pure, hf, hm, List.forall₂_cons_left_iff,
                ← ih, eq_comm]

/-- It succeeds when it does at every element. -/
theorem exists_mapM_iff {α β ε : Type} {f : α → Except ε β} {l : List α} :
    (∃ images, l.mapM f = .ok images) ↔ ∀ a ∈ l, ∃ b, f a = .ok b := by
  simp only [mapM_eq_ok_iff]
  induction l with
  | nil => simp
  | cons a l ih => simp [List.forall₂_cons_left_iff, ← ih]

/-- What stops a list is the first that fails. -/
theorem exists_of_mapM_eq_error {α β ε : Type} {f : α → Except ε β} {l : List α} {error : ε}
    (h : l.mapM f = .error error) : ∃ before a after, l = before ++ a :: after ∧
      f a = .error error ∧ ∀ b ∈ before, ∃ image, f b = .ok image := by
  induction l with
  | nil => cases h
  | cons a l ih =>
      rw [List.mapM_cons] at h
      cases ha : f a with
      | error error' =>
          rw [ha] at h
          cases h
          exact ⟨[], a, l, rfl, ha, by simp⟩
      | ok image =>
          rw [ha] at h
          cases hrest : l.mapM f with
          | ok images =>
              rw [hrest] at h
              cases h
          | error error' =>
              rw [hrest] at h
              cases h
              obtain ⟨before, b, after, rfl, hb, hbefore⟩ := ih hrest
              refine ⟨a :: before, b, after, rfl, hb, ?_⟩
              exact List.forall_mem_cons.mpr ⟨⟨image, ha⟩, hbefore⟩

/-- Each of the second list's elements corresponds to one of the first's. -/
theorem exists_of_mem_forall₂ {α β : Type} {R : α → β → Prop} {l : List α} {images : List β}
    {b : β} (h : List.Forall₂ R l images) (hb : b ∈ images) : ∃ a ∈ l, R a b := by
  induction h with
  | nil => cases hb
  | cons hab _ ih =>
      rcases List.mem_cons.mp hb with rfl | hb
      · exact ⟨_, List.mem_cons_self .., hab⟩
      · obtain ⟨a, ha, hab⟩ := ih hb
        exact ⟨a, List.mem_cons_of_mem _ ha, hab⟩

theorem mem_toOption_iff {α ε : Type} {r : Except ε α} {a : α} :
    a ∈ r.toOption ↔ r = .ok a := by
  cases r <;> simp [Except.toOption, eq_comm]

/-- Each of the images is the image of something. -/
theorem exists_of_mem_mapM {α β ε : Type} {f : α → Except ε β} {l : List α} {images : List β}
    {b : β} (h : l.mapM f = .ok images) (hb : b ∈ images) : ∃ a ∈ l, f a = .ok b :=
  exists_of_mem_forall₂ (R := fun a b => f a = .ok b) (mapM_eq_ok_iff.mp h) hb

/-- Everything has an image among them. -/
theorem exists_mem_of_mapM {α β ε : Type} {f : α → Except ε β} {l : List α} {images : List β}
    {a : α} (h : l.mapM f = .ok images) (ha : a ∈ l) : ∃ b ∈ images, f a = .ok b :=
  exists_of_mem_forall₂ (R := fun b a => f a = .ok b) (mapM_eq_ok_iff.mp h).flip ha

/-- Looking for the first of two lists' corresponding elements. -/
theorem map_find?_of_forall₂ {α β γ : Type} {R : α → β → Prop} {p : α → Bool} {q : β → Bool}
    {f : α → γ} {g : β → γ} {l : List α} {images : List β} (h : List.Forall₂ R l images)
    (hR : ∀ a b, R a b → p a = q b ∧ f a = g b) :
    (l.find? p).map f = (images.find? q).map g := by
  induction h with
  | nil => rfl
  | cons hab _ ih =>
      obtain ⟨hpq, hfg⟩ := hR _ _ hab
      rw [List.find?_cons, List.find?_cons, hpq]
      split
      · simp [hfg]
      · exact ih

end Llmap
