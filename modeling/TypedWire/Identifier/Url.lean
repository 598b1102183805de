import TypedWire.Identifier.Url.Host
import TypedWire.Identifier.Url.Path

/-!
# URLs

Absolute URLs as browsers read them. A scheme comes first; the special schemes always have a path and,
`file` excepted, a host, and any other scheme may have neither. Reading brings a URL to its normal form:
scheme and special hosts in lower case, the number behind the host left out where it is the scheme's own,
dots in the path resolved, and each part escaped as that part needs it.
-/

namespace TypedWire
open Text

/-- Who and where: what stands between two slashes and the path. -/
structure Authority where
  username : String
  password : String
  host : Host
  portNumber : Option Nat
  deriving DecidableEq

/-- An absolute URL. -/
structure Url where
  scheme : String
  authority : Option Authority
  path : UrlPath
  query : Option String
  fragment : Option String
  deriving DecidableEq

namespace Authority

def ofHost (host : Host) : Authority :=
  ⟨"", "", host, none⟩

/-- The text of an authority. A user name, a password and a `portNumber` are shown if they are there. -/
def text (a : Authority) : String :=
  let password := if a.password = "" then "" else ":" ++ a.password
  let user := a.username ++ password
  (if user = "" then "" else user ++ "@") ++ a.host.text ++
    match a.portNumber with
    | none => ""
    | some p => ":" ++ integerText p

end Authority

namespace Url

/-- The text of a URL. Where no authority stands before a path that begins with two slashes, `/.` keeps
    them apart from the scheme. -/
def text (u : Url) : String :=
  let path := u.path.text
  let front := match u.authority with
    | some a => "//" ++ a.text
    | none => if path.toList.take 2 = ['/', '/'] then "/." else ""
  let mark (c : String) : Option String → String
    | none => ""
    | some t => c ++ t
  u.scheme ++ ":" ++ front ++ path ++ mark "?" u.query ++ mark "#" u.fragment

/-- The special schemes, each with the `portNumber` that it has where none is written; `file` has none. -/
def specialSchemes : List (String × Option Nat) :=
  [("http", some 80), ("https", some 443), ("ws", some 80), ("wss", some 443), ("ftp", some 21),
    ("file", none)]

/-- The `portNumber` of a scheme where none is written. -/
def defaultPort (scheme : String) : Option Nat :=
  (specialSchemes.lookup scheme).join

def isSpecial (scheme : String) : Bool :=
  (specialSchemes.lookup scheme).isSome

/-- A text without controls and spaces at its ends. -/
def trim (cs : List Char) : List Char :=
  let isBlank (c : Char) : Bool := c ≤ ' '
  ((cs.dropWhile isBlank).reverse.dropWhile isBlank).reverse

/-- The scheme in lower case and what follows its colon. -/
def splitScheme? (cs : List Char) : Option (List Char × List Char) :=
  let inScheme (c : Char) : Bool := isAlphanumeric c || c ∈ ['+', '-', '.']
  match cs.dropWhile inScheme with
  | ':' :: rest => if cs.head?.any isLetter then some (lower (cs.takeWhile inScheme), rest) else none
  | _ => none

/-- The part before the first character that satisfies `p`, and the rest from there on. -/
def breakAt (p : Char → Bool) (cs : List Char) : List Char × List Char :=
  (cs.takeWhile (!p ·), cs.dropWhile (!p ·))

/-- A text split at its query and its fragment. -/
def splitTail (cs : List Char) : List Char × Option (List Char) × Option (List Char) :=
  let (front, tail) := breakAt (· == '#') cs
  let fragment := match tail with
    | [] => none
    | _ :: f => some f
  match breakAt (· == '?') front with
  | (body, []) => (body, none, fragment)
  | (body, _ :: q) => (body, some q, fragment)

/-- The text before the last at sign and the text behind it, if there is one. -/
def splitUser? (cs : List Char) : Option (List Char × List Char) :=
  let behind := (cs.reverse.takeWhile (· ≠ '@')).reverse
  if behind.length < cs.length then some (cs.take (cs.length - behind.length - 1), behind) else none

/-- A host without the colon and what follows it; a colon in brackets belongs to the host. -/
def splitHost (bracketed : Bool) : List Char → List Char × List Char
  | [] => ([], [])
  | c :: cs =>
    if c = ':' && !bracketed then ([], c :: cs)
    else
      let (host, rest) := splitHost ((bracketed || c = '[') && c ≠ ']') cs
      (c :: host, rest)

/-- Reads a `portNumber` and returns the rest from a backslash that ends it. The scheme's own is left
    out. -/
def readPort (scheme : String) (cs : List Char) : Except UrlFault (Option Nat × List Char) :=
  let (digits, rest) := breakAt (!isDigit ·) cs
  let number := ofDigits digits
  if 65535 < number || !(rest.isEmpty || rest.head? = some '\\') then .error .invalidPort
  else if digits.isEmpty || defaultPort scheme = some number then .ok (none, rest)
  else .ok (some number, rest)

/-- Reads a host with its `portNumber`. -/
def readHost (scheme : String) (cs : List Char) : Except UrlFault (Host × Option Nat × List Char) := do
  let (hostText, portText) := splitHost false cs
  let host ←
    if isSpecial scheme then
      if hostText.isEmpty then throw .emptyHost else Host.parseSpecial hostText
    else Host.parseOpaque hostText
  match portText with
  | [] => return (host, none, [])
  | _ :: digits =>
    if hostText.isEmpty then throw .emptyHost
    let (number, rest) ← readPort scheme digits
    return (host, number, rest)

/-- Reads the authority of a scheme that is not `file`. A user without a host is refused, and so is an at
    sign alone before something else; `last` says that nothing follows the authority. -/
def readAuthority (scheme : String) (last : Bool) (cs : List Char) :
    Except UrlFault (Authority × List Char) := do
  let (user, hostText) := (splitUser? cs).getD ([], cs)
  let (name, passwordTail) := breakAt (· == ':') user
  let escape := String.ofList ∘ Percent.encode Percent.userinfo
  let username := escape name
  let password := escape (passwordTail.drop 1)
  if cs.head? = some '@' && user.isEmpty && hostText.isEmpty && !last then throw .emptyHost
  let (host, number, rest) ← readHost scheme hostText
  if host = Host.empty && !(username = "" && password = "") then throw .emptyHost
  return (⟨username, password, host, number⟩, rest)

/-- Reads the host of a file URL; `localhost` is no host. -/
def readFileHost (cs : List Char) : Except UrlFault Host :=
  if cs.isEmpty then .ok Host.empty
  else (Host.parseSpecial cs).map fun h => if h = .domain "localhost" then Host.empty else h

/-- What follows a slash of a special scheme, if one comes next. Tabs and line ends before it are passed
    over. -/
def afterSlash? (cs : List Char) : Option (List Char) :=
  match cs.dropWhile UrlPath.isIgnored with
  | c :: rest => if UrlPath.isSlash true c then some rest else none
  | [] => none

/-- Reads what follows `file:` as it was written, without query and fragment. A drive letter where the
    host should be begins the path, and a path that begins with one has no host. Behind an empty host the
    slash before the path counts as an empty segment, so no drive letter comes first there. -/
def readFile (cs : List Char) : Except UrlFault (Authority × UrlPath) := do
  let (host, path) ← match afterSlash? cs with
    | none => pure (Host.empty, cs)
    | some rest =>
      match afterSlash? rest with
      | none => pure (Host.empty, rest)
      | some rest =>
        let (hostText, tail) := breakAt (UrlPath.isSlash true) rest
        let hostText := UrlPath.strip hostText
        if UrlPath.isDriveLetter hostText then pure (Host.empty, rest)
        else
          let host ← readFileHost hostText
          pure (host, if host = Host.empty then tail else tail.drop 1)
  let trail := UrlPath.trail true true path
  let host := if trail.drive then Host.empty else host
  return (Authority.ofHost host, UrlPath.ofSegments (UrlPath.trimEmpty trail.segments))

/-- Reads what follows a special scheme that is not `file`; any number of slashes may lead. -/
def readSpecial (scheme : String) (last : Bool) (cs : List Char) :
    Except UrlFault (Authority × UrlPath) := do
  let slash := UrlPath.isSlash true
  let (authorityText, path) := breakAt slash (cs.dropWhile slash)
  let (authority, _) ← readAuthority scheme (last && path.isEmpty) authorityText
  return (authority, UrlPath.ofSegments (UrlPath.read true (path.drop 1)))

def readOther (scheme : String) (last : Bool) (cs : List Char) :
    Except UrlFault (Option Authority × UrlPath) := do
  match cs with
  | '/' :: '/' :: rest =>
    let (authorityText, path) := breakAt (· == '/') rest
    let (authority, more) ← readAuthority scheme (last && path.isEmpty) authorityText
    let segments :=
      if !more.isEmpty then UrlPath.read false (more ++ path)
      else if path.isEmpty then []
      else UrlPath.read false (path.drop 1)
    return (some authority, UrlPath.ofSegments segments)
  | '/' :: rest => return (none, UrlPath.ofSegments (UrlPath.read false rest))
  | _ => return (none, .rootless (String.ofList (Percent.encode Percent.controls cs)))

/-- Reads a URL. Tabs and line ends count for nothing, except in the path of a file URL. -/
def parse (s : String) : Except UrlFault Url := do
  let written := trim s.toList
  match splitScheme? (UrlPath.strip written) with
  | none => throw .relativeWithoutBase
  | some (schemeText, rest) =>
    let scheme := String.ofList schemeText
    let rest := if scheme = "file" then (written.dropWhile (· ≠ ':')).drop 1 else rest
    let (body, query, fragment) := splitTail rest
    let last := query.isNone && fragment.isNone
    let (authority, path) ←
      if scheme = "file" then (readFile body).map fun (a, p) => (some a, p)
      else if isSpecial scheme then (readSpecial scheme last body).map fun (a, p) => (some a, p)
      else readOther scheme last body
    let encode (inSet : Char → Bool) (cs : List Char) : String :=
      String.ofList (Percent.encode inSet (UrlPath.strip cs))
    let querySet := if isSpecial scheme then Percent.specialQuery else Percent.query
    return {
      scheme, authority, path
      query := query.map (encode querySet)
      fragment := fragment.map (encode Percent.fragment) }

end Url

end TypedWire
