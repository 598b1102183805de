import TypedWire.Error
import TypedWire.Inclusion
import TypedWire.Toml.Reader

/-!
# Configuration

The settings of a registry: which bucket serves a type that has none of its own, how much room the caches
begin with, and which members are written. They may be read from TOML text, where each of them may be
missing and no other may stand.
-/

namespace TypedWire

/-- Which of the buckets that accept a type serves it. -/
inductive BucketSelection where
  /-- The one that was registered first. -/
  | firstAssignable
  /-- The one below all others, and the first where none is. -/
  | mostSpecific
  deriving DecidableEq, Repr

namespace BucketSelection

def all : List BucketSelection :=
  [firstAssignable, mostSpecific]

def name : BucketSelection → String
  | firstAssignable => "first-assignable"
  | mostSpecific => "most-specific"

def ofName? (s : String) : Option BucketSelection :=
  all.find? (·.name = s)

end BucketSelection

/-- The settings of a registry. -/
structure Config where
  selection : BucketSelection
  capacity : Nat
  inclusion : Inclusion
  deriving DecidableEq, Repr

/-- Why settings cannot be used. -/
inductive ConfigFault where
  /-- The file is missing or no text. -/
  | file
  /-- The text is no TOML, or not of these settings. -/
  | toml
  /-- The settings are refused. -/
  | invalid
  deriving DecidableEq, Repr

namespace Config

/-- The settings where nothing is said. -/
def standard : Config :=
  ⟨.firstAssignable, 50, .always⟩

/-- The caches have to begin with some room. -/
def isValid (c : Config) : Bool :=
  0 < c.capacity

/-- A choice among names: a string, or a table whose only key is the name and holds nothing. -/
def choice? {α : Type} (ofName? : String → Option α) : Toml → Option α
  | .string s => ofName? s
  | .inlineTable [(key, value)] => if value.isEmpty then ofName? key else none
  | .table _ [(key, value)] => if value.isEmpty then ofName? key else none
  | _ => none

def natural? : Toml → Option Nat
  | .integer n => if 0 ≤ n then some n.toNat else none
  | _ => none

def set? (c : Config) (key : String) (value : Toml) : Option Config :=
  if key = "bucket_selection" then
    (choice? BucketSelection.ofName? value).map fun s => { c with selection := s }
  else if key = "initial_cache_capacity" then
    (natural? value).map fun n => { c with capacity := n }
  else if key = "inclusion" then
    (choice? Inclusion.ofName? value).map fun i => { c with inclusion := i }
  else none

def ofEntries? (entries : Toml.Entries) : Option Config :=
  entries.foldlM (fun c e => c.set? e.1 e.2) standard

def check (c : Config) : Except ConfigFault Config :=
  if c.isValid then .ok c else .error .invalid

def ofToml (s : String) : Except ConfigFault Config :=
  match (Toml.parse? s).bind ofEntries? with
  | some c => c.check
  | none => .error .toml

/-- Reads settings from the bytes of a file, which has to be there and to be text in UTF-8. -/
def ofFile (bytes : Option ByteArray) : Except ConfigFault Config :=
  match bytes.bind String.fromUTF8? with
  | some s => ofToml s
  | none => .error .file

end Config

end TypedWire
