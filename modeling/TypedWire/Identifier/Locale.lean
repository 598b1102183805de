import TypedWire.Text.Ascii
import TypedWire.Text.Fields
import TypedWire.Text.Quoted

/-!
# Locales

A locale is read from a language tag: subtags of one to eight letters and digits, joined by hyphens. They
are a language, a script, a region, variants, and a tail of extensions and private use; each may be
missing, and the letters of each are brought to its usual case.
-/

namespace TypedWire
open Text

/-- The parts of a language tag. The root locale has none. -/
structure Locale where
  language : String
  script : Option String
  region : Option String
  variants : List String
  extensions : List String
  deriving DecidableEq, Repr

/-- Why a text is no language tag: a subtag that cannot stand where it stands. -/
structure LanguageTagFault where
  tag : String
  subtag : String
  deriving DecidableEq, Repr

def LanguageTagFault.message (f : LanguageTagFault) : String :=
  "ill-formed language tag " ++ quoted f.tag ++ ": invalid subtag " ++ quoted f.subtag

namespace Locale

def root : Locale :=
  ⟨"", none, none, [], []⟩

/-- The language of a tag that names none. -/
def undetermined : String :=
  "und"

/-- A subtag is one to eight ASCII letters and digits. -/
def isSubtag (s : List Char) : Bool :=
  !s.isEmpty && s.length ≤ 8 && s.all isAlphanumeric

/-- A language has two or three letters, or five to eight. -/
def isLanguage (s : List Char) : Bool :=
  s.all isLetter && (s.length == 2 || s.length == 3 || (5 ≤ s.length && s.length ≤ 8))

def isScript (s : List Char) : Bool :=
  s.length == 4 && s.all isLetter

/-- A region has two letters or three digits. -/
def isRegion (s : List Char) : Bool :=
  (s.length == 2 && s.all isLetter) || (s.length == 3 && s.all isDigit)

/-- A variant has five to eight characters, or four of which the first is a digit. -/
def isVariant (s : List Char) : Bool :=
  (5 ≤ s.length && s.length ≤ 8) || (s.length == 4 && s.head?.any isDigit)

def isSingleton (s : List Char) : Bool :=
  s.length == 1

/-- The singleton that opens private use, behind which all subtags belong to it. -/
def isPrivateUse (s : List Char) : Bool :=
  s == ['x'] || s == ['X']

/-- Whether subtags go on with extensions to the end. Each singleton is followed by a longer subtag, and
    private use by any subtag; `opened` says that the subtag just read is a singleton. -/
def extensionsFrom : (opened : Bool) → List (List Char) → Bool
  | opened, [] => !opened
  | opened, s :: rest =>
    if isSingleton s then
      !opened && if isPrivateUse s then !rest.isEmpty else extensionsFrom true rest
    else extensionsFrom false rest

/-- Extensions begin with a singleton and go on to the end. -/
def areExtensions (subtags : List (List Char)) : Bool :=
  subtags.head?.any isSingleton && extensionsFrom false subtags

/-- A word in lower case but for its first letter. -/
def titleCase (s : List Char) : List Char :=
  upper (s.take 1) ++ lower (s.drop 1)

/-- The first subtag if it has the given form, and the others. -/
def takeIf (p : List Char → Bool) : List (List Char) → Option (List Char) × List (List Char)
  | [] => (none, [])
  | s :: rest => if p s then (some s, rest) else (none, s :: rest)

/-- The parts that follow a language. A subtag left over that opens no extensions is returned instead. -/
def afterLanguage (language : List Char) (subtags : List (List Char)) :
    Except (List Char) Locale :=
  let (script, rest) := takeIf isScript subtags
  let (region, rest) := takeIf isRegion rest
  let variants := rest.takeWhile isVariant
  let tail := rest.dropWhile isVariant
  let locale : Locale :=
    { language := String.ofList (if sameLetters language undetermined.toList then [] else lower language)
      script := script.map (String.ofList ∘ titleCase)
      region := region.map (String.ofList ∘ upper)
      variants := variants.map (String.ofList ∘ lower)
      extensions := tail.map (String.ofList ∘ lower) }
  match tail with
  | [] => .ok locale
  | s :: _ => if areExtensions tail then .ok locale else .error s

/-- Reads the subtags of a tag; the subtag at fault is returned where they are none. -/
def ofSubtags (subtags : List (List Char)) : Except (List Char) Locale :=
  match subtags.find? (!isSubtag ·) with
  | some bad => .error bad
  | none =>
    match subtags with
    | [] => .ok root
    | first :: rest =>
      if isSingleton first then
        if areExtensions subtags then
          .ok { root with extensions := subtags.map (String.ofList ∘ lower) }
        else .error first
      else if isLanguage first then afterLanguage first rest
      else .error first

/-- Reads a language tag; the empty text and `und` are the root. -/
def parse (s : String) : Except LanguageTagFault Locale :=
  let cs := s.toList
  if cs.isEmpty || sameLetters cs undetermined.toList then .ok root
  else (ofSubtags (splitFields '-' cs)).mapError fun bad => ⟨s, String.ofList bad⟩

/-- The subtags of a locale. A missing language is shown as `und` unless extensions stand alone or behind
    variants. -/
def subtags (l : Locale) : List String :=
  let language :=
    if l.language ≠ "" then [l.language]
    else if l.extensions.isEmpty || l.script.isSome || l.region.isSome then [undetermined]
    else []
  language ++ l.script.toList ++ l.region.toList ++ l.variants ++ l.extensions

def tag (l : Locale) : String :=
  String.ofList (joinFields '-' (l.subtags.map String.toList))

/-- Whether a locale has no part at all. -/
def isRoot (l : Locale) : Bool :=
  l == root

end Locale

end TypedWire
