import Llmap.Common.Rust
/-!
# What the data plane answers when it fails
-/

namespace Llmap

namespace DataPlane

/-- `DataPlaneError`. -/
inductive DataPlaneError where
  | unauthorized
  | credentialStoreUnavailable
  | badRequest (message : String)
  | noCapacity
  | upstreamUnavailable
deriving DecidableEq

namespace DataPlaneError

/-- `DataPlaneError`'s `Display`. -/
def message : DataPlaneError → String
  | .unauthorized => "client authentication failed"
  | .credentialStoreUnavailable => "credential state is unavailable"
  | .badRequest message => "request is invalid: " ++ message
  | .noCapacity => "no eligible account is available"
  | .upstreamUnavailable => "upstream request failed"

/-- `DataPlaneError::status`. -/
def status : DataPlaneError → UInt16
  | .unauthorized => 401
  | .credentialStoreUnavailable | .noCapacity => 503
  | .badRequest _ => 400
  | .upstreamUnavailable => 502

end DataPlaneError

end DataPlane

end Llmap
