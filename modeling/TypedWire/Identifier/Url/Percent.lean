import TypedWire.Number.Digits

/-!
# Percent-encoding

A byte of UTF-8 is written as a percent sign and two upper-case hexadecimal digits. Characters outside
ASCII are always written so, and those of a set that depends on the part of the URL.
-/

namespace TypedWire.Percent

def bytes (c : Char) : List Nat :=
  (String.utf8EncodeChar c).map UInt8.toNat

def escape (byte : Nat) : List Char :=
  ['%', (Nat.digitChar (byte / 16)).toUpper, (Nat.digitChar (byte % 16)).toUpper]

/-- Escapes the characters of a set and those outside ASCII. -/
def encode (inSet : Char → Bool) (cs : List Char) : List Char :=
  cs.flatMap fun c => if inSet c || 0x7F < c.toNat then (bytes c).flatMap escape else [c]

/-- Undoes the escapes that stand for ASCII characters; those of other bytes stay, and so does a percent
    sign without two hexadecimal digits. -/
def decodeAscii : List Char → List Char
  | [] => []
  | '%' :: a :: b :: rest =>
    match hexValue? a, hexValue? b with
    | some x, some y =>
      if 16 * x + y < 0x80 then Char.ofNat (16 * x + y) :: decodeAscii rest
      else '%' :: decodeAscii (a :: b :: rest)
    | _, _ => '%' :: decodeAscii (a :: b :: rest)
  | c :: rest => c :: decodeAscii rest

def controls (c : Char) : Bool :=
  c.toNat < 0x20 || c.toNat == 0x7F

def query (c : Char) : Bool :=
  controls c || c ∈ [' ', '"', '#', '<', '>']

/-- What is escaped in the query of a special scheme. -/
def specialQuery (c : Char) : Bool :=
  query c || c == '\''

def fragment (c : Char) : Bool :=
  controls c || c ∈ [' ', '"', '<', '>', '`']

def path (c : Char) : Bool :=
  fragment c || c ∈ ['#', '?', '\x7b', '\x7d']

/-- What is escaped in a user name or a password. -/
def userinfo (c : Char) : Bool :=
  path c || c ∈ ['/', ':', ';', '=', '@', '[', '\\', ']', '^', '|']

end TypedWire.Percent
