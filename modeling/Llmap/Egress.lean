import Llmap.Crates
/-!
# Residential proxies

`egress.rs`: the endpoints an account's requests may leave through. An
endpoint has a host, so that its redaction is total.
-/

namespace Llmap

namespace Egress

/-- `ProxyProtocol`. -/
inductive ProxyProtocol where
  | http
  | https
  | socks5
  | socks5h
deriving DecidableEq

/-- `EgressError`. -/
inductive EgressError where
  | unsupportedProxyScheme
  | missingProxyHost
  | destinationNotAllowed
  | unsafeDestination
  | emptyProxyChain
  | unknownProxyIndex
  | resolutionFailed
deriving DecidableEq

/-- `EgressError`'s `Display`. -/
def EgressError.message : EgressError → String
  | .unsupportedProxyScheme => "unsupported proxy scheme"
  | .missingProxyHost => "proxy endpoint requires a host"
  | .destinationNotAllowed => "destination is not allowlisted"
  | .unsafeDestination => "private, loopback, link-local, and metadata destinations are denied"
  | .emptyProxyChain => "the proxy chain has no configured endpoint"
  | .unknownProxyIndex => "proxy index does not exist"
  | .resolutionFailed => "destination DNS resolution failed or returned no addresses"

/-- `ProxyEndpoint`. Only `parse` makes one, and it checks the host. -/
structure ProxyEndpoint where
  protocol : ProxyProtocol
  url : Url
  host_isSome : url.host.isSome

namespace ProxyEndpoint

/-- The protocol of a scheme. -/
def protocolOf : String → Option ProxyProtocol
  | "http" => some .http
  | "https" => some .https
  | "socks5" => some .socks5
  | "socks5h" => some .socks5h
  | _ => none

/-- `ProxyEndpoint::parse`. -/
def parse [Urls] (value : String) : Except EgressError ProxyEndpoint :=
  match Urls.parse value with
  | none => .error .unsupportedProxyScheme
  | some url =>
      match protocolOf url.scheme with
      | none => .error .unsupportedProxyScheme
      | some protocol =>
          if h : url.host.isSome then .ok ⟨protocol, url, h⟩ else .error .missingProxyHost

/-- `ProxyEndpoint::redacted_authority`: the endpoint without its
userinfo. -/
def redactedAuthority (endpoint : ProxyEndpoint) : String :=
  let host := endpoint.url.host.get endpoint.host_isSome
  let host := if containsStr host ":" then "[" ++ host ++ "]" else host
  writeAuthority endpoint.url.scheme host endpoint.url.port

end ProxyEndpoint

end Egress

end Llmap
