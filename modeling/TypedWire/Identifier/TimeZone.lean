import TypedWire.Identifier.TimeZoneNames

/-!
# Time zones

A time zone is known by its name, exactly as the database spells it. A link keeps its own name.
-/

namespace TypedWire

/-- A time zone of the database. -/
structure TimeZone where
  name : String
  known : name ∈ timeZoneNames
  deriving DecidableEq

namespace TimeZone

def forName? (s : String) : Option TimeZone :=
  if h : s ∈ timeZoneNames then some ⟨s, h⟩ else none

/-- The message for a name that is no time zone. -/
def unknown : String :=
  "failed to parse timezone"

end TimeZone

end TypedWire
