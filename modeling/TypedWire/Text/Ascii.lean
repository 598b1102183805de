/-!
# ASCII classes

The classes of characters that formats in ASCII are made of, and their case. A character outside ASCII is
in none of them and has no other case.
-/

namespace TypedWire.Text

def isLetter (c : Char) : Bool :=
  ('a' ≤ c && c ≤ 'z') || ('A' ≤ c && c ≤ 'Z')

def isDigit (c : Char) : Bool :=
  '0' ≤ c && c ≤ '9'

def isAlphanumeric (c : Char) : Bool :=
  isLetter c || isDigit c

/-- ASCII letters in lower case, all else as it is. -/
def lower (cs : List Char) : List Char :=
  cs.map Char.toLower

/-- ASCII letters in upper case, all else as it is. -/
def upper (cs : List Char) : List Char :=
  cs.map Char.toUpper

/-- Whether two texts differ at most in the case of ASCII letters. -/
def sameLetters (a b : List Char) : Bool :=
  lower a == lower b

/-- What follows a lead, if the text begins with it. -/
def stripLead? : (lead cs : List Char) → Option (List Char)
  | [], cs => some cs
  | _ :: _, [] => none
  | p :: ps, c :: cs => if p = c then stripLead? ps cs else none

end TypedWire.Text
