import TypedWire.Number.Digits
import TypedWire.Text.Ascii

/-!
# URI references

A URI reference, absolute or relative, is kept as it is written: a text of the characters that may stand
in a URI and of escapes, which are a percent sign and two hexadecimal digits. It does not start with a
colon and has one fragment mark at most.
-/

namespace TypedWire
open Text

/-- What is wrong at a place of a text that is no URI reference. -/
inductive UriReason where
  | malformedEscape
  | illegalCharacter
  | missingScheme
  | secondFragment
  deriving DecidableEq, Repr

def UriReason.message : UriReason → String
  | .malformedEscape => "malformed escape pair"
  | .illegalCharacter => "illegal character"
  | .missingScheme => "expected scheme name"
  | .secondFragment => "illegal character in fragment"

/-- Why a text is no URI reference, and where: the index counts bytes, all of them before it being
    ASCII. -/
structure UriFault where
  position : Nat
  reason : UriReason
  deriving DecidableEq, Repr

def UriFault.message (f : UriFault) : String :=
  f.reason.message ++ " at index " ++ integerText f.position

namespace Uri

/-- The characters that stand for themselves in a URI: unreserved ones and delimiters. -/
def isLegal (c : Char) : Bool :=
  isAlphanumeric c || c ∈ "-._~:/?#[]@!$&'()*+,;=".toList

/-- The first place where the text is neither a legal character nor a whole escape. -/
def scan (i : Nat) : List Char → Option UriFault
  | [] => none
  | '%' :: a :: b :: rest =>
    if isHexDigit a && isHexDigit b then scan (i + 3) rest else some ⟨i, .malformedEscape⟩
  | '%' :: _ => some ⟨i, .malformedEscape⟩
  | c :: rest => if isLegal c then scan (i + 1) rest else some ⟨i, .illegalCharacter⟩

/-- The index of the last place of a character, if it is there. -/
def lastIndex? (c : Char) (cs : List Char) : Option Nat :=
  (cs.reverse.idxOf? c).map fun i => cs.length - 1 - i

/-- Why a text is no URI reference: the first bad place counts before a leading colon, and that before a
    second fragment. -/
def fault? (cs : List Char) : Option UriFault :=
  match scan 0 cs with
  | some f => some f
  | none =>
    if cs.head? = some ':' then some ⟨0, .missingScheme⟩
    else if 1 < cs.count '#' then some ⟨(lastIndex? '#' cs).getD 0, .secondFragment⟩
    else none

end Uri

/-- A URI reference, verbatim. -/
structure Uri where
  text : String
  wellFormed : Uri.fault? text.toList = none
  deriving DecidableEq

namespace Uri

def parse (s : String) : Except UriFault Uri :=
  match h : fault? s.toList with
  | none => .ok ⟨s, h⟩
  | some f => .error f

/-- A scheme begins with a letter and goes on with letters, digits and three marks. -/
def isScheme : List Char → Bool
  | [] => false
  | c :: cs => isLetter c && cs.all fun c => isAlphanumeric c || c ∈ ['+', '-', '.']

/-- The scheme of an absolute reference: what stands before the first colon, if it has the form of a
    scheme. -/
def scheme? (u : Uri) : Option String :=
  let cs := u.text.toList
  if ':' ∈ cs then
    let candidate := cs.takeWhile (· ≠ ':')
    if isScheme candidate then some (String.ofList candidate) else none
  else none

def isAbsolute (u : Uri) : Bool :=
  u.scheme?.isSome

/-- What follows the fragment mark. -/
def fragment? (u : Uri) : Option String :=
  match u.text.toList.dropWhile (· ≠ '#') with
  | [] => none
  | _ :: rest => some (String.ofList rest)

end Uri

end TypedWire
