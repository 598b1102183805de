import TypedWire.Number.Binary

/-!
# JSON trees

The tree behind a JSON text. A number is an integer of 64 bits, signed or not, or a finite double. The
members of an object are sorted by their keys, and each key stands once.
-/

namespace TypedWire

/-- A JSON tree. -/
inductive Json where
  | null
  | boolean (b : Bool)
  | integer (n : Int)
  | float (x : Binary64)
  | string (s : String)
  | array (items : List Json)
  | object (members : List (String × Json))

namespace Json

/-- The integers that a JSON number can be. -/
def isInteger (n : Int) : Bool :=
  -(2 ^ 63) ≤ n && n < 2 ^ 64

/-- Writes a member into sorted members; a key that is there takes the new value. Keys are ordered by
    code points, which is the order of their UTF-8 bytes. -/
def insertSorted {α : Type} (key : String) (value : α) : List (String × α) → List (String × α)
  | [] => [(key, value)]
  | (k, v) :: rest =>
    if key < k then (key, value) :: (k, v) :: rest
    else if k = key then (k, value) :: rest
    else (k, v) :: insertSorted key value rest

/-- The sorted members of a list of writes, made from first to last. -/
def sortMembers {α : Type} (entries : List (String × α)) : List (String × α) :=
  entries.foldl (fun ms e => insertSorted e.1 e.2 ms) []

end Json

end TypedWire
