import Llmap.Common.Net
import Llmap.Egress
/-!
# Where requests may go

`egress.rs`: the policy on destinations. A host is looked at as text: it
is denied when it is a name under `localhost` or the text of an unsafe
address, and allowed when an entry of the allowlist matches it. A
destination that is resolved here has its addresses checked as well.

The host of a URL is an IPv6 address between brackets, which is no text of
an address: so the first check lets every IPv6 literal pass, and what the
allowlist says decides (`unsafe_authorized_iff`). The second check does
not look into IPv6 addresses that stand for IPv4 ones
(`pinned_safe_iff`).
-/

namespace Llmap

namespace Egress

open Net

/-! ## The policy -/

/-- `is_unsafe_ip`. -/
def isUnsafeIp : IpAddr → Bool
  | .v4 address =>
      address.isPrivate || address.isLoopback || address.isLinkLocal || address.isUnspecified ||
        address.isBroadcast || address.isMulticast || address.isDocumentation
  | .v6 address =>
      address.isLoopback || address.isUnspecified || address.isUniqueLocal ||
        address.isUnicastLinkLocal || address.isMulticast

/-- `is_unsafe_host`. -/
def isUnsafeHost (host : String) : Bool :=
  if host = "localhost" || endsWithStr host ".localhost" then true
  else
    match parseIpAddr host with
    | none => false
    | some address => isUnsafeIp address

/-- `label_wildcard_matches`. -/
def labelWildcardMatches (host configured : String) : Bool :=
  let hostLabels := splitChar '.' host
  let configuredLabels := splitChar '.' configured
  hostLabels.length = configuredLabels.length &&
    (hostLabels.zip configuredLabels).all fun (actual, expected) =>
      expected = "*" || actual = expected

/-- `host_matches`. -/
def hostMatches (host configured : String) : Bool :=
  let configured := toAsciiLowercase (trimEndMatches '.' configured)
  match stripPrefixStr configured "*." with
  | some suffix =>
      if containsChar suffix '*' then labelWildcardMatches host configured
      else
        -- the byte before the suffix is a dot
        byteLen suffix < byteLen host && endsWithStr host suffix &&
          (asBytes host)[byteLen host - byteLen suffix - 1]? = some 46
  | none =>
      if containsChar configured '*' then labelWildcardMatches host configured
      else host = configured

/-- `DestinationPolicy`. -/
structure DestinationPolicy where
  allowlist : List String
  allowUnsafePrivateNetworks : Bool

/-- `Url::port_or_known_default`. -/
def portOrKnownDefault (url : Url) : Option UInt16 :=
  url.port.or <|
    match url.scheme with
    | "http" | "ws" => some 80
    | "https" | "wss" => some 443
    | "ftp" => some 21
    | _ => none

namespace DestinationPolicy

/-- `DestinationPolicy::authorize`. -/
def authorize (policy : DestinationPolicy) (destination : Url) : Except EgressError Unit :=
  match destination.host with
  | none => .error .destinationNotAllowed
  | some host =>
      let host := toAsciiLowercase (trimEndMatches '.' host)
      if !policy.allowUnsafePrivateNetworks && isUnsafeHost host then .error .unsafeDestination
      else if policy.allowlist.any (hostMatches host) then .ok ()
      else .error .destinationNotAllowed

/-- What `resolve_authorized` does with the addresses of a destination. -/
def checked (policy : DestinationPolicy) (addresses : List SocketAddr) :
    Except EgressError (List SocketAddr) :=
  if addresses = [] then .error .resolutionFailed
  else if !policy.allowUnsafePrivateNetworks && addresses.any (fun address => isUnsafeIp address.ip)
    then .error .unsafeDestination
  else .ok addresses

/-- `DestinationPolicy::resolve_authorized`. What `lookup_host` answers is
given. -/
def resolveAuthorized (policy : DestinationPolicy)
    (lookupHost : String → UInt16 → Option (List SocketAddr)) (destination : Url) :
    Except EgressError (List SocketAddr) :=
  match policy.authorize destination with
  | .error error => .error error
  | .ok () =>
      match destination.host, portOrKnownDefault destination with
      | some host, some port =>
          match parseIpAddr host with
          | some address => policy.checked [⟨address, port⟩]
          | none =>
              match lookupHost host port with
              | none => .error .resolutionFailed
              | some addresses => policy.checked addresses
      | _, _ => .error .destinationNotAllowed

end DestinationPolicy

/-! ## Unsafe literals -/

/-- A host between brackets. -/
def Bracketed (host : String) : Prop :=
  ∃ text : List Char, host = String.ofList ('[' :: (text ++ [']']))

/-- **A host that names an unsafe destination** by itself: the text of an
IPv4 address, the text of an IPv6 address between brackets, or a name
under `localhost`, in any letter case and with any number of dots behind
it. -/
inductive UnsafeHost : String → Prop where
  | ipv4 (address : Ipv4Addr) (h : isUnsafeIp (.v4 address) = true) : UnsafeHost address.print
  | ipv6 (address : Ipv6Addr) (text : List Char)
      (parsed : parseIpAddr (String.ofList text) = some (.v6 address))
      (h : isUnsafeIp (.v6 address) = true) : UnsafeHost (String.ofList ('[' :: (text ++ [']'])))
  | localhost (name : List Char) (dots : ℕ)
      (h : name.map Char.toLower = "localhost".toList ∨
        ".localhost".toList <:+ name.map Char.toLower) :
      UnsafeHost (String.ofList (name ++ List.replicate dots '.'))

/-- A host that is unsafe as a text is denied. -/
theorem authorize_of_isUnsafeHost {policy : DestinationPolicy} {destination : Url} {host : String}
    (hstrict : policy.allowUnsafePrivateNetworks = false) (hhost : destination.host = some host)
    (h : isUnsafeHost (toAsciiLowercase (trimEndMatches '.' host)) = true) :
    policy.authorize destination = .error .unsafeDestination := by
  simp [DestinationPolicy.authorize, hhost, hstrict, h]

theorem isUnsafeHost_ipv4 {address : Ipv4Addr} (h : isUnsafeIp (.v4 address) = true) :
    isUnsafeHost (toAsciiLowercase (trimEndMatches '.' address.print)) = true := by
  have htrim : trimEndMatches '.' address.print = address.print := by
    have hsame := trimEndMatches_append 0 (getLast?_print address)
    rwa [List.replicate_zero, List.append_nil, String.ofList_toList] at hsame
  rw [htrim, toAsciiLowercase_print, isUnsafeHost, parseIpAddr_print]
  split
  · rfl
  · exact h

theorem isUnsafeHost_localhost {name : List Char} (dots : ℕ)
    (h : name.map Char.toLower = "localhost".toList ∨
      ".localhost".toList <:+ name.map Char.toLower) :
    isUnsafeHost (toAsciiLowercase (trimEndMatches '.'
      (String.ofList (name ++ List.replicate dots '.')))) = true := by
  have hlast : (name.map Char.toLower).getLast? = some 't' := by
    rcases h with hname | ⟨sub, hsub⟩
    · rw [hname]
      rfl
    · rw [← hsub, List.getLast?_append]
      rfl
  have hno_dot : name.getLast? ≠ some '.' := by
    intro hdot
    rw [List.getLast?_map, hdot] at hlast
    exact absurd hlast (by decide)
  rw [trimEndMatches_append dots hno_dot, toAsciiLowercase, String.toList_ofList, isUnsafeHost]
  rcases h with hname | hsub
  · rw [hname]
    rfl
  · have hends : endsWithStr (String.ofList (name.map Char.toLower)) ".localhost" = true := by
      simpa [endsWithStr] using hsub
    rw [hends]
    simp

/-- A host between brackets is no name under `localhost` and no text of an
address. -/
theorem isUnsafeHost_bracket (text : List Char) :
    isUnsafeHost (String.ofList ('[' :: (text ++ [']']))) = false := by
  have hname : String.ofList ('[' :: (text ++ [']'])) ≠ "localhost" := by
    intro h
    have hlist := congrArg String.toList h
    rw [String.toList_ofList] at hlist
    cases hlist
  have hends : endsWithStr (String.ofList ('[' :: (text ++ [']']))) ".localhost" = false := by
    by_contra h
    have hsuffix : ".localhost".toList <:+ '[' :: (text ++ [']']) := by
      simpa only [endsWithStr, String.toList_ofList, Bool.not_eq_false, List.isSuffixOf_iff_suffix]
        using h
    obtain ⟨sub, hsub⟩ := hsuffix
    have hlast := congrArg List.getLast? hsub
    rw [← List.cons_append, List.getLast?_append, List.getLast?_append] at hlast
    cases hlast
  unfold isUnsafeHost
  rw [if_neg (by simp only [hends, Bool.or_false, decide_eq_true_eq]; exact hname),
    parseIpAddr_bracket]

/-- A host between brackets is looked at as it is, in lower case. -/
theorem normalized_bracket (text : List Char) :
    toAsciiLowercase (trimEndMatches '.' (String.ofList ('[' :: (text ++ [']'])))) =
      String.ofList ('[' :: (text.map Char.toLower ++ [']'])) := by
  have hlast : ('[' :: (text ++ [']'])).getLast? ≠ some '.' := by
    rw [← List.cons_append, List.getLast?_append]
    exact fun h => absurd (Option.some.inj h) (by decide)
  have hsame := trimEndMatches_append 0 hlast
  rw [List.replicate_zero, List.append_nil] at hsame
  rw [hsame, toAsciiLowercase, String.toList_ofList, List.map_cons, List.map_append]
  rfl

/-- **A host between brackets is up to the allowlist.** -/
theorem authorize_bracket {policy : DestinationPolicy} {destination : Url} (text : List Char)
    (hhost : destination.host = some (String.ofList ('[' :: (text ++ [']'])))) :
    policy.authorize destination = .ok () ↔ ∃ entry ∈ policy.allowlist,
      hostMatches (String.ofList ('[' :: (text.map Char.toLower ++ [']']))) entry = true := by
  unfold DestinationPolicy.authorize
  rw [hhost]
  dsimp only
  rw [normalized_bracket, isUnsafeHost_bracket, Bool.and_false, if_neg Bool.false_ne_true,
    ← List.any_eq_true]
  split
  · rename_i hany
    exact iff_of_true rfl hany
  · rename_i hany
    exact iff_of_false (by simp) hany

/-- What is seen to be unsafe is not between brackets. -/
theorem not_bracketed_of_isUnsafeHost {host : String}
    (h : isUnsafeHost (toAsciiLowercase (trimEndMatches '.' host)) = true) : ¬ Bracketed host := by
  rintro ⟨text, rfl⟩
  rw [normalized_bracket, isUnsafeHost_bracket] at h
  cases h

/-- **Which unsafe literals are authorised.** Of the hosts that name an
unsafe destination by themselves, a strict policy authorises those between
brackets that an entry of its allowlist matches, and no others. -/
theorem unsafe_authorized_iff (policy : DestinationPolicy) (destination : Url) (host : String)
    (hstrict : policy.allowUnsafePrivateNetworks = false) (hhost : destination.host = some host)
    (hdanger : UnsafeHost host) :
    policy.authorize destination = .ok () ↔ Bracketed host ∧
      ∃ entry ∈ policy.allowlist, hostMatches (toAsciiLowercase host) entry = true := by
  -- what the policy sees to be unsafe, it denies
  have hseen : isUnsafeHost (toAsciiLowercase (trimEndMatches '.' host)) = true →
      (policy.authorize destination = .ok () ↔ Bracketed host ∧
        ∃ entry ∈ policy.allowlist, hostMatches (toAsciiLowercase host) entry = true) := by
    intro h
    rw [authorize_of_isUnsafeHost hstrict hhost h]
    exact iff_of_false (by simp) fun hboth => not_bracketed_of_isUnsafeHost h hboth.1
  cases hdanger with
  | ipv4 address h => exact hseen (isUnsafeHost_ipv4 h)
  | localhost name dots h => exact hseen (isUnsafeHost_localhost dots h)
  | ipv6 address text parsed h =>
      have hlower : toAsciiLowercase (String.ofList ('[' :: (text ++ [']']))) =
          String.ofList ('[' :: (text.map Char.toLower ++ [']'])) := by
        rw [toAsciiLowercase, String.toList_ofList, List.map_cons, List.map_append]
        rfl
      rw [authorize_bracket text hhost, hlower]
      exact (and_iff_right ⟨text, rfl⟩).symm

/-- A URL at a host. -/
def urlAt (host : String) : Url := ⟨"https", "", none, some host, none, "/", none, none⟩

/-- An IPv4 literal is denied, whatever the allowlist matches. -/
theorem loopback_ipv4_denied :
    (DestinationPolicy.mk ["*", "127.0.0.1", "*.*.*.*"] false).authorize (urlAt "127.0.0.1") ≠
      .ok () := by
  intro h
  have hboth := (unsafe_authorized_iff ⟨["*", "127.0.0.1", "*.*.*.*"], false⟩ (urlAt "127.0.0.1")
    "127.0.0.1" rfl rfl (.ipv4 ⟨127, 0, 0, 1⟩ (by decide))).mp h
  exact not_bracketed_of_isUnsafeHost (by decide +kernel) hboth.1

/-- **The loopback address of IPv6 is authorised** by an entry that matches
every host of one label. -/
theorem loopback_ipv6_authorized :
    UnsafeHost "[::1]" ∧
      (DestinationPolicy.mk ["*"] false).authorize (urlAt "[::1]") = .ok () := by
  refine ⟨?_, by decide +kernel⟩
  exact .ipv6 ⟨#v[0, 0, 0, 0, 0, 0, 0, 1]⟩ "::1".toList (by decide +kernel) (by decide +kernel)

/-! ## Addresses that are pinned -/

/-- **An address that leads to an unsafe destination**: to an unsafe IPv4
address, by itself or as one that stands for it, or to an unsafe IPv6
address. -/
def LeadsToUnsafe (address : IpAddr) : Prop :=
  (∃ ipv4 : Ipv4Addr, (address = .v4 ipv4 ∨ address = .v6 ipv4.toIpv6Mapped) ∧
    (ipv4.isPrivate || ipv4.isLoopback || ipv4.isLinkLocal || ipv4.isUnspecified ||
      ipv4.isBroadcast || ipv4.isMulticast || ipv4.isDocumentation) = true) ∨
  ∃ ipv6 : Ipv6Addr, address = .v6 ipv6 ∧
    (ipv6.isLoopback || ipv6.isUnspecified || ipv6.isUniqueLocal || ipv6.isUnicastLinkLocal ||
      ipv6.isMulticast) = true

/-- An address that stands for an unsafe IPv4 address. -/
def StandsForUnsafe (address : IpAddr) : Prop :=
  ∃ ipv4 : Ipv4Addr, address = .v6 ipv4.toIpv6Mapped ∧ isUnsafeIp (.v4 ipv4) = true

theorem leadsToUnsafe_iff (address : IpAddr) :
    LeadsToUnsafe address ↔ isUnsafeIp address = true ∨ StandsForUnsafe address := by
  constructor
  · rintro (⟨ipv4, rfl | rfl, h⟩ | ⟨ipv6, rfl, h⟩)
    · exact .inl h
    · exact .inr ⟨ipv4, rfl, h⟩
    · exact .inl h
  · rintro (h | ⟨ipv4, rfl, h⟩)
    · cases address with
      | v4 ipv4 => exact .inl ⟨ipv4, .inl rfl, h⟩
      | v6 ipv6 => exact .inr ⟨ipv6, rfl, h⟩
    · exact .inl ⟨ipv4, .inr rfl, h⟩

/-- What is checked is pinned whole, and has no unsafe address in it as it is
if the policy is strict. -/
theorem checked_eq_ok {policy : DestinationPolicy} {addresses pinned : List SocketAddr}
    (h : policy.checked addresses = .ok pinned) :
    pinned = addresses ∧ (policy.allowUnsafePrivateNetworks = false →
      ∀ address ∈ pinned, isUnsafeIp address.ip = false) := by
  unfold DestinationPolicy.checked at h
  split at h
  · cases h
  · split at h
    · cases h
    · rename_i hsafe
      obtain rfl := Except.ok.inj h
      exact ⟨rfl, fun hstrict => by simpa [hstrict] using hsafe⟩

/-- **The addresses of a destination**: that of the literal its host is, or
those the name service answers for its host and port. -/
def AddressOf (lookupHost : String → UInt16 → Option (List SocketAddr)) (destination : Url)
    (ip : IpAddr) : Prop :=
  ∃ host port, destination.host = some host ∧ portOrKnownDefault destination = some port ∧
    (parseIpAddr host = some ip ∨
      parseIpAddr host = none ∧ ∃ answer, lookupHost host port = some answer ∧
        ∃ address ∈ answer, address.ip = ip)

/-- What a destination is resolved to has been checked, and is every address
of it. -/
theorem checked_of_resolveAuthorized {policy : DestinationPolicy}
    {lookupHost : String → UInt16 → Option (List SocketAddr)} {destination : Url}
    {pinned : List SocketAddr} (h : policy.resolveAuthorized lookupHost destination = .ok pinned) :
    policy.checked pinned = .ok pinned ∧
      ∀ ip, AddressOf lookupHost destination ip ↔ ∃ address ∈ pinned, address.ip = ip := by
  unfold DestinationPolicy.resolveAuthorized at h
  split at h
  · cases h
  · split at h
    · rename_i host port hhost hport
      split at h
      · rename_i address hliteral
        obtain ⟨rfl, -⟩ := checked_eq_ok h
        refine ⟨h, fun ip => ?_⟩
        simp [AddressOf, hhost, hport, hliteral, eq_comm]
      · rename_i hname
        split at h
        · cases h
        · rename_i addresses hanswer
          obtain ⟨rfl, -⟩ := checked_eq_ok h
          refine ⟨h, fun ip => ?_⟩
          simp [AddressOf, hhost, hport, hname, hanswer]
    · cases h

theorem isUnsafeIp_of_resolveAuthorized {policy : DestinationPolicy}
    {lookupHost : String → UInt16 → Option (List SocketAddr)} {destination : Url}
    {pinned : List SocketAddr} (hstrict : policy.allowUnsafePrivateNetworks = false)
    (h : policy.resolveAuthorized lookupHost destination = .ok pinned) :
    ∀ address ∈ pinned, isUnsafeIp address.ip = false :=
  (checked_eq_ok (checked_of_resolveAuthorized h).1).2 hstrict

/-- **When what is pinned is safe.** Of what a strict policy resolves a
destination to, nothing leads to an unsafe destination just in case neither
the literal of the address nor anything the name service answered stands for
an unsafe IPv4 address. -/
theorem pinned_safe_iff (policy : DestinationPolicy)
    (lookupHost : String → UInt16 → Option (List SocketAddr)) (destination : Url)
    (pinned : List SocketAddr) (hstrict : policy.allowUnsafePrivateNetworks = false)
    (h : policy.resolveAuthorized lookupHost destination = .ok pinned) :
    (∀ address ∈ pinned, ¬ LeadsToUnsafe address.ip) ↔
      ∀ ip, AddressOf lookupHost destination ip → ¬ StandsForUnsafe ip := by
  obtain ⟨hchecked, haddress⟩ := checked_of_resolveAuthorized h
  have hsafe := (checked_eq_ok hchecked).2 hstrict
  have hleads : ∀ address ∈ pinned, LeadsToUnsafe address.ip ↔ StandsForUnsafe address.ip := by
    intro address hmem
    rw [leadsToUnsafe_iff, hsafe address hmem]
    simp
  constructor
  · intro hpinned ip hip
    obtain ⟨address, hmem, rfl⟩ := (haddress ip).mp hip
    exact mt (hleads address hmem).mpr (hpinned address hmem)
  · intro hanswer address hmem
    exact mt (hleads address hmem).mp (hanswer address.ip ((haddress _).mpr ⟨address, hmem, rfl⟩))

/-- A public IPv4 address is pinned, and safe. -/
theorem public_ipv4_pinned :
    (DestinationPolicy.mk ["example.com"] false).resolveAuthorized
        (fun _ port => some [⟨.v4 ⟨93, 184, 216, 34⟩, port⟩]) (urlAt "example.com") =
      .ok [⟨.v4 ⟨93, 184, 216, 34⟩, 443⟩] ∧
    ∀ address ∈ [SocketAddr.mk (.v4 ⟨93, 184, 216, 34⟩) 443], ¬ LeadsToUnsafe address.ip := by
  have hpinned : (DestinationPolicy.mk ["example.com"] false).resolveAuthorized
      (fun _ port => some [⟨.v4 ⟨93, 184, 216, 34⟩, port⟩]) (urlAt "example.com") =
        .ok [⟨.v4 ⟨93, 184, 216, 34⟩, 443⟩] := by
    decide +kernel
  refine ⟨hpinned, (pinned_safe_iff ⟨["example.com"], false⟩ _ (urlAt "example.com") _ rfl
    hpinned).mpr ?_⟩
  rintro ip ⟨host, port, hhost, hport, hip⟩ ⟨ipv4, rfl, -⟩
  obtain rfl : "example.com" = host := Option.some.inj hhost
  rcases hip with hliteral | ⟨-, answer, hanswer, address, haddress, hmapped⟩
  · rw [show parseIpAddr "example.com" = none by decide +kernel] at hliteral
    cases hliteral
  · obtain rfl := Option.some.inj hanswer
    rw [List.mem_singleton.mp haddress] at hmapped
    cases hmapped

/-- **A loopback address is pinned** when the name service answers with
the IPv6 address that stands for it. -/
theorem mapped_loopback_pinned :
    (DestinationPolicy.mk ["example.com"] false).resolveAuthorized
        (fun _ port => some [⟨.v6 (Ipv4Addr.toIpv6Mapped ⟨127, 0, 0, 1⟩), port⟩])
        (urlAt "example.com") =
      .ok [⟨.v6 (Ipv4Addr.toIpv6Mapped ⟨127, 0, 0, 1⟩), 443⟩] ∧
    LeadsToUnsafe (.v6 (Ipv4Addr.toIpv6Mapped ⟨127, 0, 0, 1⟩)) :=
  ⟨by decide +kernel, .inl ⟨⟨127, 0, 0, 1⟩, .inr rfl, by decide⟩⟩

end Egress

end Llmap
