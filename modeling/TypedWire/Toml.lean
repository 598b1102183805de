/-!
# TOML trees

The tree of a settings file. Only what settings can be made of is told apart: strings, integers, empty
arrays and tables. A table remembers how it came about, for that decides what may be added to it: a header
may open a table that an earlier header only passed through, and a dotted key may go on with a table that
no header has opened.
-/

namespace TypedWire

/-- How a table came about. -/
inductive TomlOrigin where
  /-- A header names it. -/
  | header
  /-- A header passes through it. -/
  | passed
  /-- A dotted key passes through it. -/
  | dotted
  deriving DecidableEq, Repr

/-- A tree of settings. -/
inductive Toml where
  | string (s : String)
  | integer (n : Int)
  | emptyArray
  | inlineTable (entries : List (String × Toml))
  | table (origin : TomlOrigin) (entries : List (String × Toml))

namespace Toml

/-- The entries of a table, as they stand. -/
abbrev Entries := List (String × Toml)

/-- Puts `change` in the place of a key; a key that is not there is handed `none` and goes to the end. -/
def update (key : String) (change : Option Toml → Option Toml) : Entries → Option Entries
  | [] => (change none).map fun t => [(key, t)]
  | (k, t) :: rest =>
    if k = key then (change (some t)).map fun t => (k, t) :: rest
    else (update key change rest).map fun rest => (k, t) :: rest

/-- Sets a dotted key. The tables on the way are made where they are missing; one that a header has named
    is closed to dotted keys, and the key itself has to be new. -/
def assign (value : Toml) : List String → Entries → Option Entries
  | [], _ => none
  | [key], entries =>
    entries |> update key fun
      | none => some value
      | some _ => none
  | key :: path, entries =>
    entries |> update key fun
      | none => (assign value path []).map (table .dotted)
      | some (table .header _) => none
      | some (table origin inner) => (assign value path inner).map (table origin)
      | some _ => none

/-- Opens the table of a header. The tables on the way are made where they are missing; the table itself
    is new or one that headers have only passed through. -/
def openTable : List String → Entries → Option Entries
  | [], _ => none
  | [key], entries =>
    entries |> update key fun
      | none => some (table .header [])
      | some (table .passed inner) => some (table .header inner)
      | some _ => none
  | key :: path, entries =>
    entries |> update key fun
      | none => (openTable path []).map (table .passed)
      | some (table origin inner) => (openTable path inner).map (table origin)
      | some _ => none

/-- Changes the entries of the table that a header has opened; the empty header is the whole file. -/
def within (change : Entries → Option Entries) : List String → Entries → Option Entries
  | [], entries => change entries
  | key :: path, entries =>
    entries |> update key fun
      | some (table origin inner) => (within change path inner).map (table origin)
      | _ => none

/-- Whether a tree holds nothing: an empty array or an empty table. -/
def isEmpty : Toml → Bool
  | emptyArray => true
  | inlineTable [] => true
  | table _ [] => true
  | _ => false

end Toml

end TypedWire
