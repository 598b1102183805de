import TypedWire.Identifier.Url.Percent
import TypedWire.Text.Ascii
import TypedWire.Text.Fields

/-!
# Paths of URLs

A path is a list of segments, or a text without a slash in front. Segments are read from left to right: a
single dot adds nothing, and two dots take the last segment away, unless a drive letter begins it; a dot
may be written as an escape. The path of a file URL loses empty segments at its front, and a bar behind the
drive letter that is its first segment becomes a colon. Tabs and line ends count for nothing in a path, but
behind the drive letter of a file URL they end its segment.
-/

namespace TypedWire
open Text

/-- The path of a URL. -/
inductive UrlPath where
  | segments (segments : List String)
  | rootless (text : String)
  deriving DecidableEq

namespace UrlPath

/-- A tab or a line end. Wherever it stands, it is no part of a URL. -/
def isIgnored (c : Char) : Bool :=
  c == '\t' || c == '\n' || c == '\r'

/-- A text without tabs and line ends. -/
def strip (cs : List Char) : List Char :=
  cs.filter (!isIgnored ·)

/-- A segment with its escaped dots as dots. -/
def undotted : List Char → List Char
  | '%' :: '2' :: e :: rest =>
    if e = 'e' || e = 'E' then '.' :: undotted rest else '%' :: '2' :: undotted (e :: rest)
  | c :: rest => c :: undotted rest
  | [] => []

def isSingleDot (s : List Char) : Bool :=
  undotted s == ['.']

def isDoubleDot (s : List Char) : Bool :=
  undotted s == ['.', '.']

def isDots (s : List Char) : Bool :=
  isSingleDot s || isDoubleDot s

/-- A letter with a colon or a bar. -/
def isDriveLetter : List Char → Bool
  | [c, mark] => isLetter c && (mark == ':' || mark == '|')
  | _ => false

/-- A drive letter with a colon for its bar; any other segment as it is. -/
def normalizeDrive (s : List Char) : List Char :=
  if isDriveLetter s then s.take 1 ++ [':'] else s

/-- A drive letter alone or before a backslash. -/
def beginsWithDrive (s : List Char) : Bool :=
  isDriveLetter (s.take 2) && (s.drop 2).head?.all (· == '\\')

/-- Splits a segment as it was written into a drive letter with a colon and what follows, if a tab or a
    line end stands right behind the colon and more comes after it. -/
def splitDrive? (s : List Char) : Option (List Char × List Char) :=
  match s.dropWhile (· ≠ ':') with
  | ':' :: more =>
    let drive := strip (s.takeWhile (· ≠ ':')) ++ [':']
    if isDriveLetter drive && more.head?.any isIgnored && !(strip more).isEmpty then
      some (drive, strip more)
    else none
  | _ => none

/-- A path on the way: the segments so far, and whether a drive letter was read as the first of them. -/
structure Trail where
  segments : List (List Char)
  drive : Bool
  deriving DecidableEq

namespace Trail

def start : Trail :=
  ⟨[], false⟩

def add (t : Trail) (s : List Char) : Trail :=
  { t with segments := t.segments ++ [s] }

/-- Takes the last segment away, if no drive letter begins it. -/
def shorten (t : Trail) : Trail :=
  if t.segments.getLast?.any beginsWithDrive then t else { t with segments := t.segments.dropLast }

/-- Adds the first segment of a file URL. -/
def addFirst (t : Trail) (s : List Char) : Trail :=
  ⟨[normalizeDrive s], t.drive || isDriveLetter s⟩

/-- One step of reading: the next segment as it was written. -/
def push (file : Bool) (t : Trail) (written : List Char) : Trail :=
  let first := file && t.segments.isEmpty
  let escape := Percent.encode Percent.path
  match if first then splitDrive? written else none with
  | some (drive, rest) => (t.add drive).add (escape rest)
  | none =>
    let s := strip written
    if isDoubleDot s then t.shorten
    else if isSingleDot s then t
    else if first then t.addFirst (escape s)
    else t.add (escape s)

/-- Reads segments behind those so far; where the last one is made of dots, an empty one ends the path. -/
def resolve (file : Bool) (t : Trail) : List (List Char) → Trail
  | [] => t
  | [s] => if isDots (strip s) then (push file t s).add [] else push file t s
  | s :: rest => resolve file (push file t s) rest

end Trail

/-- A slash; in special schemes a backslash is one too. -/
def isSlash (special : Bool) (c : Char) : Bool :=
  c == '/' || (special && c == '\\')

def trail (special file : Bool) (cs : List Char) : Trail :=
  .resolve file .start (splitFields '/' (cs.map fun c => if isSlash special c then '/' else c))

def read (special : Bool) (cs : List Char) : List (List Char) :=
  (trail special false cs).segments

/-- Removes empty segments from the front, the last one excepted. -/
def trimEmpty : List (List Char) → List (List Char)
  | [] :: s :: rest => trimEmpty (s :: rest)
  | path => path

def ofSegments (ss : List (List Char)) : UrlPath :=
  segments (ss.map String.ofList)

/-- The text of a path: a slash before each segment. -/
def text : UrlPath → String
  | segments ss => String.join (ss.map ("/" ++ ·))
  | rootless t => t

end UrlPath

end TypedWire
