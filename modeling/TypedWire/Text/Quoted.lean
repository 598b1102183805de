import TypedWire.Text.Unprintable

/-!
# Quoted text

Text as it is shown inside a message: between double quotes, with quotes and backslashes escaped, four
controls by their letters, and every other character that cannot be shown by its code point.
-/

namespace TypedWire.Text

/-- A number in lower-case hexadecimal digits without padding. -/
def hex (n : Nat) : String :=
  String.ofList (Nat.toDigits 16 n)

def escape (c : Char) : String :=
  if c = '"' then "\\\""
  else if c = '\\' then "\\\\"
  else if c = '\n' then "\\n"
  else if c = '\r' then "\\r"
  else if c = '\t' then "\\t"
  else if c = '\x00' then "\\0"
  else if isUnprintable c then "\\u\x7b" ++ hex c.toNat ++ "\x7d"
  else c.toString

def quoted (s : String) : String :=
  "\"" ++ String.join (s.toList.map escape) ++ "\""

end TypedWire.Text
