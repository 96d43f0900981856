import Llmap.Common.Rust
/-!
# Headers

The `HeaderMap` of `http`, by the names and values it lists. Names are
lower case. The values of one name keep their order; the order of the
names is whatever the map gives, and a result about a map does not depend
on it.
-/

namespace Llmap

/-- `HeaderMap`. -/
abbrev HeaderMap := List (String × Bytes)

namespace HeaderMap

/-- `HeaderValue::to_str`: the value is text when its bytes are visible
ASCII, blanks or tabs. -/
def toStr (value : Bytes) : Option String :=
  if value.all fun byte => (32 ≤ byte && byte < 127) || byte = 9 then
    some (String.ofList (value.map fun byte => Char.ofNat byte.toNat))
  else none

/-- `HeaderMap::get`: the first value of a name. -/
def get (headers : HeaderMap) (name : String) : Option Bytes := headers.lookup name

/-- `HeaderMap::remove`. -/
def remove (headers : HeaderMap) (name : String) : HeaderMap := headers.filter (·.1 ≠ name)

/-- `HeaderMap::insert`: the value replaces those of its name. -/
def insert (headers : HeaderMap) (name : String) (value : Bytes) : HeaderMap :=
  remove headers name ++ [(name, value)]

end HeaderMap

end Llmap
