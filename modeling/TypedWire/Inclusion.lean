/-!
# Inclusion of members

When a member of an object is written: always, or unless it is null, absent or empty. What counts as
absent or empty is for the member's serializer to say.
-/

namespace TypedWire

/-- Which members of an object are written. -/
inductive Inclusion where
  | always
  | nonNull
  | nonAbsent
  | nonEmpty
  deriving DecidableEq, Repr

namespace Inclusion

/-- Every policy, the most liberal first. -/
def all : List Inclusion :=
  [always, nonNull, nonAbsent, nonEmpty]

def name : Inclusion → String
  | always => "always"
  | nonNull => "non-null"
  | nonAbsent => "non-absent"
  | nonEmpty => "non-empty"

def ofName? (s : String) : Option Inclusion :=
  all.find? (·.name = s)

end Inclusion

end TypedWire
