import TypedWire.Json.Number

/-!
# Reading JSON text

A text is read from left to right. Blanks may stand between its parts and around it; strings hold no raw
control character and no half of a surrogate pair; scopes are nested to a limit. Of the members with one
key the last counts.
-/

namespace TypedWire.Json

/-- How deep arrays and objects may be nested. -/
def depthLimit : Nat :=
  127

def isBlank (c : Char) : Bool :=
  c == ' ' || c == '\t' || c == '\n' || c == '\r'

/-- A text without the blanks at its front. -/
def skipBlanks (cs : List Char) : List Char :=
  cs.dropWhile isBlank

def codeUnit? (a b c d : Char) : Option Nat := do
  return 4096 * (← hexValue? a) + 256 * (← hexValue? b) + 16 * (← hexValue? c) + (← hexValue? d)

/-- Whether a code unit is the first half of a surrogate pair. -/
def isHighSurrogate (n : Nat) : Bool :=
  0xD800 ≤ n && n < 0xDC00

/-- Whether a code unit is the second half of a surrogate pair. -/
def isLowSurrogate (n : Nat) : Bool :=
  0xDC00 ≤ n && n < 0xE000

/-- The character of the two halves of a surrogate pair. -/
def surrogatePair (high low : Nat) : Char :=
  Char.ofNat (0x10000 + 0x400 * (high - 0xD800) + (low - 0xDC00))

/-- The character of an escape of one letter. -/
def unescape? (c : Char) : Option Char :=
  if c = '"' || c = '\\' || c = '/' then some c
  else if c = 'b' then some '\x08'
  else if c = 'f' then some '\x0c'
  else if c = 'n' then some '\n'
  else if c = 'r' then some '\r'
  else if c = 't' then some '\t'
  else none

/-- Reads a string behind its opening quote: its characters and what follows the closing quote. -/
def readString : List Char → Option (List Char × List Char)
  | [] => none
  | '"' :: rest => some ([], rest)
  | '\\' :: 'u' :: a :: b :: c :: d :: rest =>
    match codeUnit? a b c d with
    | none => none
    | some n =>
      if isHighSurrogate n then
        match rest with
        | '\\' :: 'u' :: a' :: b' :: c' :: d' :: rest =>
          match codeUnit? a' b' c' d' with
          | none => none
          | some m =>
            if isLowSurrogate m then
              (readString rest).map fun (s, rest) => (surrogatePair n m :: s, rest)
            else none
        | _ => none
      else if isLowSurrogate n then none
      else (readString rest).map fun (s, rest) => (Char.ofNat n :: s, rest)
  | '\\' :: c :: rest =>
    match unescape? c with
    | none => none
    | some c => (readString rest).map fun (s, rest) => (c :: s, rest)
  | c :: rest =>
    if c < ' ' || c = '\\' then none
    else (readString rest).map fun (s, rest) => (c :: s, rest)

/-- What follows a word, if the text begins with it. -/
def readWord (word : String) (value : Json) (cs : List Char) : Option (Json × List Char) :=
  (Text.stripLead? word.toList cs).map (value, ·)

mutual
/-- Reads a value. The first number bounds the steps, the second the scopes that may still be opened. -/
def readValue : Nat → Nat → List Char → Option (Json × List Char)
  | 0, _, _ => none
  | steps + 1, depth, cs =>
    match skipBlanks cs with
    | '[' :: rest =>
      match depth with
      | 0 => none
      | depth + 1 =>
        match skipBlanks rest with
        | ']' :: rest => some (array [], rest)
        | rest => (readItems steps depth rest).map fun (items, rest) => (array items, rest)
    | '\x7b' :: rest =>
      match depth with
      | 0 => none
      | depth + 1 =>
        match skipBlanks rest with
        | '\x7d' :: rest => some (object [], rest)
        | rest =>
          (readMembers steps depth rest).map fun (entries, rest) =>
            (object (sortMembers entries), rest)
    | '"' :: rest => (readString rest).map fun (s, rest) => (string (String.ofList s), rest)
    | 'n' :: rest => readWord "ull" null rest
    | 't' :: rest => readWord "rue" (boolean true) rest
    | 'f' :: rest => readWord "alse" (boolean false) rest
    | cs => readNumber cs

/-- Reads the items of an array, at least one, and the bracket behind them. -/
def readItems : Nat → Nat → List Char → Option (List Json × List Char)
  | 0, _, _ => none
  | steps + 1, depth, cs =>
    match readValue steps depth cs with
    | none => none
    | some (item, rest) =>
      match skipBlanks rest with
      | ',' :: rest =>
        (readItems steps depth rest).map fun (items, rest) => (item :: items, rest)
      | ']' :: rest => some ([item], rest)
      | _ => none

/-- Reads the members of an object, at least one, and the brace behind them. -/
def readMembers : Nat → Nat → List Char → Option (List (String × Json) × List Char)
  | 0, _, _ => none
  | steps + 1, depth, cs =>
    match skipBlanks cs with
    | '"' :: rest =>
      match readString rest with
      | none => none
      | some (key, rest) =>
        match skipBlanks rest with
        | ':' :: rest =>
          match readValue steps depth rest with
          | none => none
          | some (item, rest) =>
            let member := (String.ofList key, item)
            match skipBlanks rest with
            | ',' :: rest =>
              (readMembers steps depth rest).map fun (ms, rest) => (member :: ms, rest)
            | '\x7d' :: rest => some ([member], rest)
            | _ => none
        | _ => none
    | _ => none
end

/-- Reads a text, all of it. Two steps for each character are more than enough. -/
def parse? (s : String) : Option Json :=
  let cs := s.toList
  match readValue (2 * cs.length + 2) depthLimit cs with
  | some (j, rest) => if (skipBlanks rest).isEmpty then some j else none
  | none => none

end TypedWire.Json
