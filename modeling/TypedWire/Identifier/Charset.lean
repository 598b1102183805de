import TypedWire.Text.Ascii

/-!
# Named character sets

The character sets that every platform supports, each under a canonical name and under aliases. Names
are found without regard to the case of ASCII letters.
-/

namespace TypedWire

/-- A named character set. -/
inductive Charset where
  | utf8
  | usAscii
  | iso88591
  | utf16
  | utf16BigEndian
  | utf16LittleEndian
  | utf32
  | windows1252
  deriving DecidableEq, Repr

namespace Charset

/-- Every character set, in the order of lookup. -/
def all : List Charset :=
  [utf8, usAscii, iso88591, utf16, utf16BigEndian, utf16LittleEndian, utf32, windows1252]

def name : Charset → String
  | utf8 => "UTF-8"
  | usAscii => "US-ASCII"
  | iso88591 => "ISO-8859-1"
  | utf16 => "UTF-16"
  | utf16BigEndian => "UTF-16BE"
  | utf16LittleEndian => "UTF-16LE"
  | utf32 => "UTF-32"
  | windows1252 => "windows-1252"

def aliases : Charset → List String
  | utf8 => ["utf8", "unicode-1-1-utf-8"]
  | usAscii => ["ascii", "iso646-us", "ascii7", "646", "default", "cp367"]
  | iso88591 => ["iso8859_1", "iso_8859_1", "iso-latin-1", "latin1", "l1", "8859_1", "cp819"]
  | utf16 => ["utf16", "unicode", "utf_16"]
  | utf16BigEndian => ["utf_16be", "x-utf-16be", "unicodebigunmarked"]
  | utf16LittleEndian => ["utf_16le", "x-utf-16le", "unicodelittleunmarked"]
  | utf32 => ["utf32", "utf_32"]
  | windows1252 => ["cp1252", "cp5348"]

def forName? (s : String) : Option Charset :=
  all.find? fun c => (c.name :: c.aliases).any fun n => Text.sameLetters n.toList s.toList

/-- The message for a name that no character set bears. -/
def unsupported (s : String) : String :=
  "unsupported charset: " ++ s

end Charset

end TypedWire
