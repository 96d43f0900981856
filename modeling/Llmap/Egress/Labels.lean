import Llmap.Common.Panic
import Llmap.Egress.Policy
/-!
# Matching by labels

The allowlist compares texts, and at `*.` it compares bytes: the host has to
end with what follows, and the byte before that has to be a dot. What this
comes to is said of the labels of the host, the parts between its dots
(`LabelAligned`). The byte is always there to be looked at
(`hostMatchesChecked_eq`).
-/

namespace Llmap

namespace Egress

/-- The parts of a host between its dots. -/
def labels (host : String) : List String := splitChar '.' host

/-- A host as it is compared: in lower case, without dots behind it. -/
def normalizeHost (host : String) : String := toAsciiLowercase (trimEndMatches '.' host)

/-- **What a pattern allows**: with `*.` before a suffix, hosts with one
label or more before those of the suffix; with a `*` otherwise, hosts with the
labels of the pattern but where that is `*`; and else the host itself. -/
inductive LabelAligned (host pattern : String) : Prop where
  | under (suffix : String) (above : List String) (pattern_eq : pattern = "*." ++ suffix)
      (no_star : '*' ∉ suffix.toList) (above_ne : above ≠ [])
      (labels_eq : labels host = above ++ labels suffix)
  | wildcard (star : '*' ∈ pattern.toList)
      (no_suffix : ∀ suffix, pattern = "*." ++ suffix → '*' ∈ suffix.toList)
      (agree : List.Forall₂ (fun actual expected => expected = "*" ∨ actual = expected)
        (labels host) (labels pattern))
  | same (no_star : '*' ∉ pattern.toList) (eq : host = pattern)

/-! ## Texts and their labels -/

variable {host configured suffix : String}

/-- The last byte of a character is a dot for the dot only: the others of the
last bytes are the code of an ASCII character or continue a longer one. -/
theorem getLast?_utf8EncodeChar_eq_dot {c : Char} :
    (String.utf8EncodeChar c).getLast? = some 46 ↔ c = '.' := by
  have hcontinues (n : ℕ) : UInt8.ofNat (n % 64 + 128) ≠ 46 := by
    intro h
    have hval := congrArg UInt8.toNat h
    simp only [UInt8.toNat_ofNat', UInt8.reduceToNat] at hval
    omega
  constructor
  · intro h
    unfold String.utf8EncodeChar at h
    by_cases hascii : c.val.toNat ≤ 127
    · simp only [hascii, if_true, List.getLast?_singleton, Option.some.injEq] at h
      have hval := congrArg UInt8.toNat h
      simp only [UInt8.toNat_ofNat', UInt8.reduceToNat] at hval
      refine Char.toNat_inj.mp ?_
      change c.val.toNat = 46
      omega
    · simp only [hascii, if_false] at h
      exfalso
      split at h
      · exact hcontinues _ (Option.some.inj h)
      · split at h <;> exact hcontinues _ (Option.some.inj h)
  · rintro rfl
    decide

/-- Joining the labels gives the host. -/
theorem intercalate_labels (host : String) : ".".intercalate (labels host) = host := by
  have hparts : (labels host).map String.toList = host.toList.splitOn '.' := by
    simp [labels, splitChar, Function.comp_def]
  refine String.toList_inj.mp ?_
  rw [String.toList_intercalate, hparts]
  exact List.intercalate_splitOn '.'

theorem labels_append_dot (before suffix : String) :
    labels (before ++ "." ++ suffix) = labels before ++ labels suffix := by
  have htext : (before ++ "." ++ suffix).toList = before.toList ++ '.' :: suffix.toList := by
    simp
  rw [labels, splitChar, htext, List.splitOn_append_cons_self, List.map_append]
  rfl

theorem labels_ne_nil (host : String) : labels host ≠ [] := by
  simp [labels, splitChar]

/-- The labels of a suffix are the last ones when a dot stands before it. -/
theorem exists_above_iff :
    (∃ above, above ≠ [] ∧ labels host = above ++ labels suffix) ↔
      ∃ before, host = before ++ "." ++ suffix := by
  constructor
  · rintro ⟨above, hne, hlabels⟩
    refine ⟨".".intercalate above, ?_⟩
    calc host
        = ".".intercalate (above ++ labels suffix) := by rw [← hlabels, intercalate_labels]
      _ = ".".intercalate above ++ "." ++ ".".intercalate (labels suffix) :=
          String.intercalate_append_of_ne_nil hne (labels_ne_nil suffix)
      _ = ".".intercalate above ++ "." ++ suffix := by rw [intercalate_labels]
  · rintro ⟨before, rfl⟩
    exact ⟨labels before, labels_ne_nil before, labels_append_dot before suffix⟩

/-! ## The bytes before a suffix -/

theorem length_asBytes (text : String) : (asBytes text).length = byteLen text := rfl

theorem asBytes_append (left right : String) :
    asBytes (left ++ right) = asBytes left ++ asBytes right := by
  simp [asBytes]

/-- The byte before a suffix is the last one of the character before it. -/
theorem getElem?_before_suffix (front : List Char) (c : Char) (suffix : String) :
    (asBytes (String.ofList (front ++ [c]) ++ suffix))[
        byteLen (String.ofList (front ++ [c]) ++ suffix) - byteLen suffix - 1]? =
      (String.utf8EncodeChar c).getLast? := by
  have hbytes : asBytes (String.ofList (front ++ [c])) =
      front.flatMap String.utf8EncodeChar ++ String.utf8EncodeChar c := by
    rw [asBytes_ofList, List.flatMap_append, List.flatMap_singleton]
  have hchar : String.utf8EncodeChar c ≠ [] := String.utf8EncodeChar_ne_nil
  have hpos : 0 < (asBytes (String.ofList (front ++ [c]))).length := by
    rw [hbytes, List.length_append]
    exact Nat.add_pos_right _ (List.length_pos_iff.mpr hchar)
  rw [← length_asBytes, ← length_asBytes, asBytes_append, List.length_append, Nat.add_sub_cancel,
    List.getElem?_append_left (by omega), ← List.getLast?_eq_getElem?, hbytes]
  exact List.getLast?_append_of_ne_nil _ hchar

/-- The test on bytes finds a dot before the suffix. -/
theorem dot_before_suffix_iff :
    (byteLen suffix < byteLen host && endsWithStr host suffix &&
        (asBytes host)[byteLen host - byteLen suffix - 1]? = some 46) = true ↔
      ∃ before, host = before ++ "." ++ suffix := by
  simp only [Bool.and_eq_true, decide_eq_true_eq, endsWithStr, List.isSuffixOf_iff_suffix]
  constructor
  · rintro ⟨⟨hlonger, front, hfront⟩, hbyte⟩
    obtain rfl : host = String.ofList front ++ suffix :=
      String.toList_inj.mp (by simpa using hfront.symm)
    -- what stands before the suffix is not empty, and its last byte is the one looked at
    obtain rfl | ⟨before, c, rfl⟩ := front.eq_nil_or_concat
    · simp [byteLen] at hlonger
    · rw [List.concat_eq_append, getElem?_before_suffix, getLast?_utf8EncodeChar_eq_dot] at hbyte
      refine ⟨String.ofList before, ?_⟩
      simp [hbyte]
  · rintro ⟨before, rfl⟩
    obtain ⟨front, rfl⟩ : ∃ front, before = String.ofList front := ⟨before.toList, by simp⟩
    have hdot : String.ofList front ++ "." = String.ofList (front ++ ['.']) := by simp
    rw [hdot]
    refine ⟨⟨?_, ?_⟩, ?_⟩
    · have hone : ".".utf8ByteSize = 1 := by decide
      simp [byteLen, ← hdot, hone]
    · rw [String.toList_append]
      exact List.suffix_append _ _
    · rw [getElem?_before_suffix, getLast?_utf8EncodeChar_eq_dot]

/-! ## The three kinds of patterns -/

theorem stripPrefixStr_eq_some_iff {text start rest : String} :
    stripPrefixStr text start = some rest ↔ text = start ++ rest := by
  constructor
  · intro h
    unfold stripPrefixStr at h
    split at h
    · rename_i hstart
      obtain ⟨more, hmore⟩ := List.isPrefixOf_iff_prefix.mp hstart
      refine String.toList_inj.mp ?_
      rw [← Option.some.inj h, ← hmore, String.toList_append, String.toList_ofList,
        ← String.length_toList, List.drop_left]
    · cases h
  · rintro rfl
    exact stripPrefixStr_append start rest

theorem labelWildcardMatches_iff :
    labelWildcardMatches host configured = true ↔
      List.Forall₂ (fun actual expected => expected = "*" ∨ actual = expected)
        (labels host) (labels configured) := by
  simp [labelWildcardMatches, labels, List.forall₂_iff_zip]

/-- A pattern with a star and no suffix behind `*.` is compared label by
label. -/
theorem labelAligned_iff_forall₂ (hstar : '*' ∈ configured.toList)
    (hsuffix : ∀ suffix, configured = "*." ++ suffix → '*' ∈ suffix.toList) :
    LabelAligned host configured ↔ labelWildcardMatches host configured = true := by
  rw [labelWildcardMatches_iff]
  constructor
  · intro h
    cases h with
    | under suffix above pattern_eq no_star => exact absurd (hsuffix suffix pattern_eq) no_star
    | wildcard star no_suffix agree => exact agree
    | same no_star => exact absurd hstar no_star
  · exact .wildcard hstar hsuffix

/-- A suffix behind `*.` is looked for behind a dot. -/
theorem labelAligned_under_iff (hsuffix : '*' ∉ suffix.toList) :
    LabelAligned host ("*." ++ suffix) ↔ ∃ before, host = before ++ "." ++ suffix := by
  rw [← exists_above_iff]
  constructor
  · intro h
    cases h with
    | under suffix' above pattern_eq no_star above_ne labels_eq =>
        obtain rfl : suffix = suffix' := String.append_right_inj _ |>.mp pattern_eq
        exact ⟨above, above_ne, labels_eq⟩
    | wildcard star no_suffix => exact absurd (no_suffix suffix rfl) hsuffix
    | same no_star => exact absurd (by simp) no_star
  · rintro ⟨above, hne, hlabels⟩
    exact .under suffix above rfl hsuffix hne hlabels

/-- **The allowlist matches by labels.** -/
theorem hostMatches_iff_labelAligned :
    hostMatches host configured = true ↔ LabelAligned host (normalizeHost configured) := by
  unfold hostMatches normalizeHost
  generalize toAsciiLowercase (trimEndMatches '.' configured) = pattern
  simp only
  split
  · rename_i suffix hstrip
    obtain rfl := stripPrefixStr_eq_some_iff.mp hstrip
    by_cases hstar : '*' ∈ suffix.toList
    · have hany : ∀ suffix', "*." ++ suffix = "*." ++ suffix' → '*' ∈ suffix'.toList := by
        intro suffix' heq
        exact (String.append_right_inj _).mp heq ▸ hstar
      rw [if_pos (by simpa [containsChar] using hstar), labelAligned_iff_forall₂ (by simp) hany]
    · rw [if_neg (by simpa [containsChar] using hstar), labelAligned_under_iff hstar]
      exact dot_before_suffix_iff
  · rename_i hstrip
    have hsuffix (suffix : String) (heq : pattern = "*." ++ suffix) : False := by
      have hsome := stripPrefixStr_eq_some_iff.mpr heq
      rw [hstrip] at hsome
      cases hsome
    by_cases hstar : '*' ∈ pattern.toList
    · rw [if_pos (by simpa [containsChar] using hstar),
        labelAligned_iff_forall₂ hstar fun suffix heq => (hsuffix suffix heq).elim]
    · rw [if_neg (by simpa [containsChar] using hstar), decide_eq_true_eq]
      constructor
      · exact .same hstar
      · intro h
        cases h with
        | under suffix above pattern_eq => exact (hsuffix suffix pattern_eq).elim
        | wildcard star => exact absurd star hstar
        | same no_star eq => exact eq

/-! ## The byte that is looked at -/

/-- `host_matches` with its subtractions and its index, each of which may
panic. -/
def hostMatchesChecked (host configured : String) : Option Bool :=
  let configured := toAsciiLowercase (trimEndMatches '.' configured)
  match stripPrefixStr configured "*." with
  | some suffix =>
      if containsChar suffix '*' then some (labelWildcardMatches host configured)
      else if byteLen suffix < byteLen host && endsWithStr host suffix then do
        let before ← Checked.sub (byteLen host) (byteLen suffix)
        let position ← Checked.sub before 1
        let byte ← Checked.index (asBytes host) position
        return byte = 46
      else some false
  | none =>
      if containsChar configured '*' then some (labelWildcardMatches host configured)
      else some (host = configured)

/-- No host and no pattern make it panic. -/
theorem hostMatchesChecked_eq (host configured : String) :
    hostMatchesChecked host configured = some (hostMatches host configured) := by
  unfold hostMatchesChecked hostMatches
  generalize toAsciiLowercase (trimEndMatches '.' configured) = pattern
  simp only
  cases stripPrefixStr pattern "*." with
  | some suffix =>
      simp only
      by_cases hstar : containsChar suffix '*' = true
      · rw [if_pos hstar, if_pos hstar]
      · rw [if_neg hstar, if_neg hstar]
        by_cases hends : (byteLen suffix < byteLen host && endsWithStr host suffix) = true
        · have hlonger : byteLen suffix < byteLen host := by
            simp only [Bool.and_eq_true, decide_eq_true_eq] at hends
            exact hends.1
          have hposition : byteLen host - byteLen suffix - 1 < (asBytes host).length := by
            rw [length_asBytes]
            omega
          rw [if_pos hends, hends, Checked.sub_eq hlonger.le]
          simp only [Option.bind_eq_bind, Option.bind_some]
          rw [Checked.sub_eq (by omega), Option.bind_some, Checked.index_eq hposition,
            List.getElem?_eq_getElem hposition]
          simp only [Option.bind_some, Bool.true_and, Option.some.injEq]
          rfl
        · rw [if_neg hends, Bool.eq_false_of_not_eq_true hends, Bool.false_and]
  | none =>
      simp only
      by_cases hstar : containsChar pattern '*' = true
      · rw [if_pos hstar, if_pos hstar]
      · rw [if_neg hstar, if_neg hstar]

/-! ## Authorized destinations -/

variable {policy : DestinationPolicy} {destination : Url}

/-- A destination is authorized by an entry that matches its host. -/
theorem exists_hostMatches_of_authorize (h : policy.authorize destination = .ok ()) :
    ∃ host, destination.host = some host ∧
      ∃ entry ∈ policy.allowlist, hostMatches (normalizeHost host) entry = true := by
  unfold DestinationPolicy.authorize at h
  split at h
  · cases h
  · rename_i host hhost
    refine ⟨host, hhost, ?_⟩
    simp only at h
    split at h
    · cases h
    · split at h
      · rename_i hany
        exact List.any_eq_true.mp hany
      · cases h

/-- Two hosts that look like `api.anthropic.com`, and are not under
`anthropic.com`. -/
def lookalikes : List String := ["evil-anthropic.com", "api.anthropic.com.evil.example"]

theorem hostMatches_lookalikes : ∀ host ∈ lookalikes,
    ∀ entry ∈ ["api.anthropic.com", "*.anthropic.com"],
      hostMatches (normalizeHost host) entry = false := by
  decide +kernel

/-- **The allowlist is exact on labels**: a host matches an entry just in
case their labels agree as the entry says, no host and no entry make the test
panic, and a destination that is authorized agrees with an entry. So no host
that only looks like an allowed one is. -/
theorem allowlist_exact_on_labels (host configured : String) (policy : DestinationPolicy)
    (destination : Url) :
    (hostMatches host configured = true ↔ LabelAligned host (normalizeHost configured)) ∧
    hostMatchesChecked host configured = some (hostMatches host configured) ∧
    (policy.authorize destination = .ok () →
      ∃ host, destination.host = some host ∧ ∃ entry ∈ policy.allowlist,
        LabelAligned (normalizeHost host) (normalizeHost entry)) ∧
    (policy.allowlist ⊆ ["api.anthropic.com", "*.anthropic.com"] →
      (∃ host ∈ lookalikes, destination.host = some host) →
        policy.authorize destination ≠ .ok ()) := by
  refine ⟨hostMatches_iff_labelAligned, hostMatchesChecked_eq host configured, ?_, ?_⟩
  · intro hok
    obtain ⟨host, hhost, entry, hentry, hmatches⟩ := exists_hostMatches_of_authorize hok
    exact ⟨host, hhost, entry, hentry, hostMatches_iff_labelAligned.mp hmatches⟩
  · rintro hallowlist ⟨host, hlooks, hhost⟩ hok
    obtain ⟨host', hhost', entry, hentry, hmatches⟩ := exists_hostMatches_of_authorize hok
    obtain rfl : host = host' := Option.some.inj (hhost.symm.trans hhost')
    rw [hostMatches_lookalikes host hlooks entry (hallowlist hentry)] at hmatches
    cases hmatches

end Egress

end Llmap
