import TypedWire.Number.Digits
import TypedWire.Text.Ascii
import TypedWire.Text.Fields

/-!
# Universally unique identifiers

An identifier is thirty-two hexadecimal digits. In text they stand alone or in five groups with hyphens;
the groups may be in braces or behind `urn:uuid:`.
-/

namespace TypedWire
open Text

/-- An identifier by its hexadecimal digits. -/
structure Uuid where
  digits : List (Fin 16)
  length_digits : digits.length = 32
  deriving DecidableEq

/-- Why a text is no identifier. -/
inductive UuidFault where
  | length (found : Nat)
  | character (c : Char) (index : Nat)
  | groupCount (found : Nat)
  | groupLength (group expected found : Nat)
  deriving DecidableEq, Repr

def UuidFault.message : UuidFault → String
  | .length n => "invalid length: found " ++ integerText n
  | .character c i => "invalid character: found `" ++ c.toString ++ "` at " ++ integerText i
  | .groupCount n => "invalid group count: expected 5, found " ++ integerText n
  | .groupLength g e n =>
    "invalid group length in group " ++ integerText g ++ ": expected " ++ integerText e ++ ", found " ++
      integerText n

namespace Uuid

/-- The lengths of the five groups. -/
def groupLengths : List Nat :=
  [8, 4, 4, 4, 12]

def digit? (c : Char) : Option (Fin 16) :=
  (hexValue? c).bind fun n => if h : n < 16 then some ⟨n, h⟩ else none

def digitChar (d : Fin 16) : Char :=
  Nat.digitChar d.val

/-- An identifier from exactly thirty-two digits. -/
def ofDigits? (cs : List Char) : Option Uuid :=
  (cs.mapM digit?).bind fun ds => if h : ds.length = 32 then some ⟨ds, h⟩ else none

/-- An identifier from five groups between hyphens. -/
def ofGroups? (cs : List Char) : Option Uuid :=
  let groups := splitFields '-' cs
  if groups.map List.length = groupLengths then ofDigits? groups.flatten else none

/-- What stands before an identifier that is written as a name. -/
def lead : List Char :=
  "urn:uuid:".toList

/-- What braces surround. -/
def braced? (cs : List Char) : Option (List Char) :=
  if cs.head? = some '{' && cs.getLast? = some '}' && 2 ≤ cs.length then some cs.tail.dropLast else none

/-- What follows `urn:uuid:`. -/
def named? (cs : List Char) : Option (List Char) :=
  if sameLetters (cs.take lead.length) lead then some (cs.drop lead.length) else none

/-- The thirty-six bytes where five groups have room: the whole text, or what is in braces or follows
    `urn:uuid:`. -/
def body? (s : String) : Option (List Char) :=
  match s.utf8ByteSize with
  | 36 => some s.toList
  | 38 => braced? s.toList
  | 45 => named? s.toList
  | _ => none

/-- A text without the braces around it or the `urn:uuid:` before it, and how many characters stood in
    front. -/
def unwrap (cs : List Char) : List Char × Nat :=
  match braced? cs, named? cs with
  | some inner, _ => (inner, 1)
  | none, some rest => (rest, lead.length)
  | none, none => (cs, 0)

/-- The first group that is not as long as it should be, judged by where its hyphen stands. -/
def groupFault? : (group : Nat) → (start : Nat) → (expected hyphens : List Nat) → Option UuidFault
  | g, start, e :: es, p :: ps =>
    if p = start + e then groupFault? (g + 1) (p + 1) es ps else some (.groupLength g e (p - start))
  | _, _, _, _ => none

/-- What is wrong with characters that are no identifier, where `skipped` others stand in front of them and
    the text has `size` bytes in all. The last group is measured to the end of the text. -/
def faultIn (cs : List Char) (skipped size : Nat) : UuidFault :=
  match cs.findIdx? fun c => !isHexDigit c && c ≠ '-' with
  | some i => .character (cs.getD i ' ') (skipped + i)
  | none =>
    let hyphens := (List.range cs.length).filter fun i => cs.getD i ' ' = '-'
    if skipped = 0 && hyphens.isEmpty then .length size
    else if hyphens.length ≠ 4 then .groupCount (hyphens.length + 1)
    else (groupFault? 0 0 groupLengths hyphens).getD (.groupLength 4 12 (size - 24))

/-- Why a text that was refused is no identifier. Thirty-six bytes with room for the groups are judged by
    themselves, and any other text as a whole. -/
def fault (s : String) : UuidFault :=
  let size := s.utf8ByteSize
  if size = 0 || 45 < size then .length size
  else
    match body? s with
    | some body => faultIn body 0 36
    | none =>
      let (cs, skipped) := unwrap s.toList
      faultIn cs skipped size

def parse (s : String) : Except UuidFault Uuid :=
  match ofDigits? s.toList, (body? s).bind ofGroups? with
  | some u, _ | none, some u => .ok u
  | none, none => .error (fault s)

/-- The digits of an identifier in groups of the given lengths. -/
def groups : List Nat → List Char → List (List Char)
  | [], _ => []
  | n :: ns, cs => cs.take n :: groups ns (cs.drop n)

/-- The text of an identifier: five groups in lower case. -/
def text (u : Uuid) : String :=
  String.ofList (joinFields '-' (groups groupLengths (u.digits.map digitChar)))

end Uuid

end TypedWire
