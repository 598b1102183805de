import TypedWire.Number.Digits
import TypedWire.Text.Ascii
import TypedWire.Text.Fields
import TypedWire.Toml

/-!
# Reading TOML text

A text is a row of lines: blank ones, settings and headers, each with a comment behind it or not. Keys are
bare or quoted and may be dotted. Values are strings in the four quotings, integers in four bases, empty
arrays and tables in braces; any other value is refused, for no setting has one.
-/

namespace TypedWire.Toml
open Text

/-- A line of a file. -/
inductive Line where
  | setting (key : List String) (value : Toml)
  | header (key : List String)

def isBlank (c : Char) : Bool :=
  c == ' ' || c == '\t'

/-- A text without the blanks at its front. -/
def skipBlanks (cs : List Char) : List Char :=
  cs.dropWhile isBlank

/-- A character that may stand in a string of one line or in a comment: no control but the tab. -/
def isPlain (c : Char) : Bool :=
  c == '\t' || (' ' ≤ c && c ≠ '\x7f')

def afterNewline? : List Char → Option (List Char)
  | '\n' :: rest => some rest
  | '\r' :: '\n' :: rest => some rest
  | _ => none

/-- What follows a comment, if there is one here. -/
def skipComment : List Char → List Char
  | '#' :: rest => rest.dropWhile isPlain
  | cs => cs

/-- What follows the rest of a line, which holds nothing but blanks and a comment. -/
def endLine? (cs : List Char) : Option (List Char) :=
  match skipComment (skipBlanks cs) with
  | [] => some []
  | cs => afterNewline? cs

/-- The character of a code point given in hexadecimal digits. -/
def codePoint? (digits : List Char) : Option Char := do
  let n := (← digits.mapM hexValue?).foldl (fun n d => 16 * n + d) 0
  if n.isValidChar then some (Char.ofNat n) else none

/-- The character of an escape of one letter. -/
def unescape? (c : Char) : Option Char :=
  if c = 'b' then some '\x08'
  else if c = 't' then some '\t'
  else if c = 'n' then some '\n'
  else if c = 'f' then some '\x0c'
  else if c = 'r' then some '\r'
  else if c = '"' || c = '\\' then some c
  else none

/-- Puts a character before a string that has been read. -/
def prepend (c : Char) (read : Option (List Char × List Char)) : Option (List Char × List Char) :=
  read.map fun (s, rest) => (c :: s, rest)

/-- Reads a string with escapes behind its opening quote. -/
def readBasic : List Char → Option (List Char × List Char)
  | [] => none
  | '"' :: rest => some ([], rest)
  | '\\' :: 'u' :: a :: b :: c :: d :: rest => do
    prepend (← codePoint? [a, b, c, d]) (readBasic rest)
  | '\\' :: 'U' :: a :: b :: c :: d :: e :: f :: g :: h :: rest => do
    prepend (← codePoint? [a, b, c, d, e, f, g, h]) (readBasic rest)
  | '\\' :: c :: rest => do prepend (← unescape? c) (readBasic rest)
  | c :: rest => if isPlain c && c ≠ '\\' then prepend c (readBasic rest) else none

/-- Reads a string without escapes behind its opening quote. -/
def readLiteral : List Char → Option (List Char × List Char)
  | [] => none
  | '\'' :: rest => some ([], rest)
  | c :: rest => if isPlain c then prepend c (readLiteral rest) else none

/-- A quote that ends a string of several lines may have up to two of its content before it. -/
def closeQuotes (quote : Char) (rest : List Char) : List Char × List Char :=
  let extra := (rest.take 2).takeWhile (· == quote)
  (extra, rest.drop extra.length)

/-- Whether nothing but blanks stands before the line end. -/
def endsHere (cs : List Char) : Bool :=
  (afterNewline? (skipBlanks cs)).isSome

/-- Reads a string with escapes and of several lines. Behind a backslash at the end of a line, all blanks
    and line ends are skipped. -/
def readMultiBasic (skipping : Bool) : List Char → Option (List Char × List Char)
  | [] => none
  | '"' :: '"' :: '"' :: rest => some (closeQuotes '"' rest)
  | '\r' :: '\n' :: rest =>
    if skipping then readMultiBasic true rest else prepend '\n' (readMultiBasic false rest)
  | '\n' :: rest =>
    if skipping then readMultiBasic true rest else prepend '\n' (readMultiBasic false rest)
  | '\\' :: 'u' :: a :: b :: c :: d :: rest => do
    prepend (← codePoint? [a, b, c, d]) (readMultiBasic false rest)
  | '\\' :: 'U' :: a :: b :: c :: d :: e :: f :: g :: h :: rest => do
    prepend (← codePoint? [a, b, c, d, e, f, g, h]) (readMultiBasic false rest)
  | '\\' :: c :: rest =>
    if isBlank c || c = '\n' || c = '\r' then
      if endsHere (c :: rest) then readMultiBasic true (c :: rest) else none
    else do prepend (← unescape? c) (readMultiBasic false rest)
  | c :: rest =>
    if skipping && isBlank c then readMultiBasic true rest
    else if isPlain c && c ≠ '\\' then prepend c (readMultiBasic false rest)
    else none

/-- Reads a string without escapes and of several lines. -/
def readMultiLiteral : List Char → Option (List Char × List Char)
  | [] => none
  | '\'' :: '\'' :: '\'' :: rest => some (closeQuotes '\'' rest)
  | '\r' :: '\n' :: rest => prepend '\n' (readMultiLiteral rest)
  | '\n' :: rest => prepend '\n' (readMultiLiteral rest)
  | c :: rest => if isPlain c then prepend c (readMultiLiteral rest) else none

/-- A text without the line end at its front, if one is there. -/
def dropNewline (cs : List Char) : List Char :=
  (afterNewline? cs).getD cs

def readString? (cs : List Char) : Option (String × List Char) :=
  let chars := match cs with
    | '"' :: '"' :: '"' :: rest => readMultiBasic false (dropNewline rest)
    | '"' :: rest => readBasic rest
    | '\'' :: '\'' :: '\'' :: rest => readMultiLiteral (dropNewline rest)
    | '\'' :: rest => readLiteral rest
    | _ => none
  chars.map fun (s, rest) => (String.ofList s, rest)

def isBare (c : Char) : Bool :=
  isAlphanumeric c || c == '_' || c == '-'

/-- Reads one part of a key: a string of one line, or bare characters. -/
def readKeyPart? (cs : List Char) : Option (String × List Char) :=
  match cs with
  | '"' :: rest => (readBasic rest).map fun (s, rest) => (String.ofList s, rest)
  | '\'' :: rest => (readLiteral rest).map fun (s, rest) => (String.ofList s, rest)
  | _ =>
    let bare := cs.takeWhile isBare
    if bare.isEmpty then none else some (String.ofList bare, cs.dropWhile isBare)

/-- Reads a key and the blanks around it. The number bounds its parts. -/
def readKey? : Nat → List Char → Option (List String × List Char)
  | 0, _ => none
  | n + 1, cs =>
    match readKeyPart? (skipBlanks cs) with
    | none => none
    | some (part, rest) =>
      match skipBlanks rest with
      | '.' :: rest => (readKey? n rest).map fun (parts, rest) => (part :: parts, rest)
      | rest => some ([part], rest)

/-- The digits of a number with single underscores between them. -/
def digitsOf? (isDigit : Char → Bool) (cs : List Char) : Option (List Char) :=
  let groups := splitFields '_' cs
  if groups.all fun g => !g.isEmpty && g.all isDigit then some groups.flatten else none

def inBase? (base : Nat) (cs : List Char) : Option Nat :=
  let isDigit (c : Char) : Bool := (hexValue? c).any (· < base)
  (digitsOf? isDigit cs).map fun ds =>
    ds.foldl (fun n c => base * n + (hexValue? c).getD 0) 0

/-- A number in decimal digits without a leading zero. -/
def decimal? (cs : List Char) : Option Nat :=
  if cs.head? = some '0' && 1 < cs.length then none else inBase? 10 cs

/-- An integer of 64 bits from a word. -/
def integer? (word : List Char) : Option Int :=
  let n := match word with
    | '0' :: 'x' :: ds => (inBase? 16 ds).map Int.ofNat
    | '0' :: 'o' :: ds => (inBase? 8 ds).map Int.ofNat
    | '0' :: 'b' :: ds => (inBase? 2 ds).map Int.ofNat
    | '+' :: ds => (decimal? ds).map Int.ofNat
    | '-' :: ds => (decimal? ds).map fun n => -(n : Int)
    | ds => (decimal? ds).map Int.ofNat
  n.filter fun n => -(2 ^ 63) ≤ n && n < 2 ^ 63

/-- A character of a word that stands for a number. -/
def isWord (c : Char) : Bool :=
  isBare c || c == '+' || c == '.' || c == ':'

/-- What follows blanks, comments and line ends. The number bounds the lines. -/
def skipLines : Nat → List Char → List Char
  | 0, cs => cs
  | n + 1, cs =>
    let cs := skipComment (skipBlanks cs)
    match afterNewline? cs with
    | some rest => skipLines n rest
    | none => cs

mutual
/-- Reads a value. The number bounds the steps. -/
def readValue? : Nat → List Char → Option (Toml × List Char)
  | 0, _ => none
  | n + 1, cs =>
    match cs with
    | '[' :: rest =>
      match skipLines n rest with
      | ']' :: rest => some (emptyArray, rest)
      | _ => none
    | '\x7b' :: rest =>
      match skipBlanks rest with
      | '\x7d' :: rest => some (inlineTable [], rest)
      | rest => do
        let (entries, rest) ← readEntries? n [] rest
        some (inlineTable entries, rest)
    | c :: _ =>
      if c = '"' || c = '\'' then (readString? cs).map fun (s, rest) => (string s, rest)
      else (integer? (cs.takeWhile isWord)).map fun i => (integer i, cs.dropWhile isWord)
    | [] => none

/-- Reads the settings of a table in braces behind those already read, and the brace that closes it. -/
def readEntries? : Nat → Entries → List Char → Option (Entries × List Char)
  | 0, _, _ => none
  | n + 1, entries, cs => do
    let (key, rest) ← readKey? n cs
    match rest with
    | '=' :: rest =>
      let (value, rest) ← readValue? n (skipBlanks rest)
      let entries ← assign value key entries
      match skipBlanks rest with
      | ',' :: rest => readEntries? n entries rest
      | '\x7d' :: rest => some (entries, rest)
      | _ => none
    | _ => none
end

/-- Reads a line that is not blank, up to its end. -/
def readLine? (n : Nat) (cs : List Char) : Option (Line × List Char) :=
  match cs with
  | '[' :: rest => do
    let (key, rest) ← readKey? n rest
    match rest with
    | ']' :: rest => some (.header key, rest)
    | _ => none
  | _ => do
    let (key, rest) ← readKey? n cs
    match rest with
    | '=' :: rest =>
      let (value, rest) ← readValue? n (skipBlanks rest)
      some (.setting key value, rest)
    | _ => none

/-- Reads the lines of a file. The number bounds them. -/
def readLines? : Nat → List Char → Option (List Line)
  | 0, _ => none
  | n + 1, cs =>
    match skipLines n cs with
    | [] => some []
    | cs => do
      let (line, rest) ← readLine? n cs
      let rest ← endLine? rest
      return line :: (← readLines? n rest)

/-- Builds the tree of a file from its lines; `current` is the header that holds. -/
def build : List String → Entries → List Line → Option Entries
  | _, entries, [] => some entries
  | current, entries, .setting key value :: rest => do
    build current (← within (assign value key) current entries) rest
  | _, entries, .header key :: rest => do
    build key (← openTable key entries) rest

/-- Reads a file. A byte order mark may stand before it. -/
def parse? (s : String) : Option Entries := do
  let cs := match s.toList with
    | '\uFEFF' :: rest => rest
    | cs => cs
  build [] [] (← readLines? (2 * cs.length + 2) cs)

end TypedWire.Toml
