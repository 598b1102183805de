import TypedWire.Identifier.Url.Percent
import TypedWire.Text.Ascii
import TypedWire.Text.Fields
import TypedWire.Text.Quoted

/-!
# Hosts of URLs

A host is a domain, an IPv4 address or, in square brackets, an IPv6 address. A domain of a special scheme
is decoded, brought to lower case and read as an IPv4 address if it ends in a number; the host of any
other scheme is kept but for its escapes.

Only ASCII domains of special schemes are read. A domain with any other character, as it is or escaped, is
refused as invalid: international names are not brought into Punycode as IDNA has it, and a name that is in
Punycode already is taken without a look at what it stands for.
-/

namespace TypedWire
open Text

/-- Why a text is no URL. -/
inductive UrlFault where
  | relativeWithoutBase
  | emptyHost
  | invalidPort
  | invalidIpv4
  | invalidIpv6
  | invalidDomain
  | invalidDomainCharacter
  deriving DecidableEq, Repr

def UrlFault.message : UrlFault → String
  | .relativeWithoutBase => "relative URL without a base"
  | .emptyHost => "empty host"
  | .invalidPort => "invalid port number"
  | .invalidIpv4 => "invalid IPv4 address"
  | .invalidIpv6 => "invalid IPv6 address"
  | .invalidDomain => "invalid international domain name"
  | .invalidDomainCharacter => "invalid domain character"

/-- A host. An IPv6 address has eight pieces. -/
inductive Host where
  | domain (name : String)
  | ipv4 (address : BitVec 32)
  | ipv6 (pieces : Vector (BitVec 16) 8)
  deriving DecidableEq

/-! ### IPv4 addresses -/

namespace Ipv4

/-- A number of an address: hexadecimal behind `0x`, octal behind another `0`, else decimal. -/
def number? (cs : List Char) : Option Nat :=
  match cs with
  | [] => none
  | '0' :: x :: rest =>
    if x = 'x' || x = 'X' then
      (rest.mapM hexValue?).map fun ds => ds.foldl (fun n d => 16 * n + d) 0
    else if (x :: rest).all fun c => '0' ≤ c && c ≤ '7' then
      some ((x :: rest).foldl (fun n c => 8 * n + digitValue c) 0)
    else none
  | _ => if cs.all isDigit then some (ofDigits cs) else none

/-- The parts of a domain without an empty one at the end. -/
def parts (domain : List Char) : List (List Char) :=
  let ps := splitFields '.' domain
  if ps.getLast? = some [] then ps.dropLast else ps

/-- Whether the last part of a domain is a number, so that the domain has to be an address. -/
def endsInNumber (domain : List Char) : Bool :=
  match (parts domain).getLast? with
  | none => false
  | some last => (!last.isEmpty && last.all isDigit) || (number? last).isSome

/-- The address of at most four numbers: each but the last is a byte, and the last fills the bytes that
    remain. -/
def ofNumbers? (ns : List Nat) : Option (BitVec 32) :=
  match ns.getLast? with
  | none => none
  | some last =>
    let lead := ns.dropLast
    if lead.length ≤ 3 && lead.all (· ≤ 255) && last < 256 ^ (4 - lead.length) then
      let high := lead.foldl (fun n b => 256 * n + b) 0
      some (BitVec.ofNat 32 (high * 256 ^ (4 - lead.length) + last))
    else none

def parse? (domain : List Char) : Option (BitVec 32) :=
  ((parts domain).mapM number?).bind ofNumbers?

def text (a : BitVec 32) : List Char :=
  joinFields '.' ([24, 16, 8, 0].map fun shift => decimalDigits (a.toNat / 2 ^ shift % 256))

end Ipv4

/-! ### IPv6 addresses -/

namespace Ipv6

/-- A piece of one to four hexadecimal digits. -/
def piece? (cs : List Char) : Option Nat :=
  if cs.isEmpty || 4 < cs.length then none
  else (cs.mapM hexValue?).map fun ds => ds.foldl (fun n d => 16 * n + d) 0

/-- A byte in decimal digits without a leading zero. -/
def byte? (cs : List Char) : Option Nat :=
  if cs.isEmpty || !cs.all isDigit || (cs.head? = some '0' && 1 < cs.length) then none
  else
    let n := ofDigits cs
    if n ≤ 255 then some n else none

/-- Two pieces from an address of four bytes. -/
def embedded? (cs : List Char) : Option (List Nat) :=
  match (splitFields '.' cs).mapM byte? with
  | some [a, b, c, d] => some [256 * a + b, 256 * c + d]
  | _ => none

/-- The pieces of a text between colons; the last one may be an IPv4 address. -/
def pieces? (cs : List Char) : Option (List Nat) :=
  if cs.isEmpty then some []
  else
    let fields := splitFields ':' cs
    let last := fields.getLast?.getD []
    if '.' ∈ last then do
      let lead ← fields.dropLast.mapM piece?
      let tail ← embedded? last
      pure (lead ++ tail)
    else fields.mapM piece?

/-- The text before the first two colons in a row and the text behind them, if there are two. -/
def splitGap : List Char → Option (List Char × List Char)
  | [] => none
  | ':' :: ':' :: rest => some ([], rest)
  | c :: rest => (splitGap rest).map fun (before, behind) => (c :: before, behind)

/-- Eight pieces as an address. -/
def ofPieces? (ps : List Nat) : Option (Vector (BitVec 16) 8) :=
  let pieces := (ps.map (BitVec.ofNat 16)).toArray
  if h : pieces.size = 8 then some ⟨pieces, h⟩ else none

/-- Reads an address; two colons in a row stand once for one or more zero pieces. An IPv4 address may
    only end the text. -/
def parse? (cs : List Char) : Option (Vector (BitVec 16) 8) :=
  match splitGap cs with
  | none => (pieces? cs).bind ofPieces?
  | some (before, behind) => do
    if '.' ∈ before then none
    let lead ← pieces? before
    let tail ← pieces? behind
    let shown := lead.length + tail.length
    if 8 ≤ shown then none
    ofPieces? (lead ++ List.replicate (8 - shown) 0 ++ tail)

/-- How many zero pieces begin a list. -/
def zeroRun (ps : List (BitVec 16)) : Nat :=
  (ps.takeWhile (· == 0)).length

/-- The first of the longest runs of at least two zero pieces: where it starts and how long it is. -/
def longestGap (ps : List (BitVec 16)) : Option (Nat × Nat) :=
  let runs := (List.range ps.length).map fun i => (i, zeroRun (ps.drop i))
  let best := runs.foldl (fun best r => if best.2 < r.2 then r else best) (0, 1)
  if 2 ≤ best.2 then some best else none

def piecesText (ps : List (BitVec 16)) : List Char :=
  joinFields ':' (ps.map fun p => (hex p.toNat).toList)

/-- The text of an address, its longest run of zero pieces as two colons. -/
def text (a : Vector (BitVec 16) 8) : List Char :=
  let ps := a.toList
  match longestGap ps with
  | none => piecesText ps
  | some (start, length) =>
    piecesText (ps.take start) ++ ':' :: ':' :: piecesText (ps.drop (start + length))

end Ipv6

namespace Host

def text : Host → String
  | domain name => name
  | ipv4 a => String.ofList (Ipv4.text a)
  | ipv6 a => String.ofList ('[' :: Ipv6.text a ++ [']'])

/-- No host at all, as a scheme that is not special may have it. -/
def empty : Host :=
  domain ""

def bracketed (cs : List Char) : Except UrlFault Host :=
  if cs.getLast? = some ']' then
    match Ipv6.parse? cs.tail.dropLast with
    | some a => .ok (ipv6 a)
    | none => .error .invalidIpv6
  else .error .invalidIpv6

/-- The characters that no domain of a special scheme has. All beyond ASCII are among them, so no
    international name is read. -/
def forbiddenInDomain (c : Char) : Bool :=
  c.toNat ≤ 0x20 || 0x7F ≤ c.toNat || c ∈ "%#/:<>?@[\\]^|".toList

def parseSpecial (cs : List Char) : Except UrlFault Host :=
  if cs.head? = some '[' then bracketed cs
  else
    let name := lower (Percent.decodeAscii cs)
    if name.any forbiddenInDomain then .error .invalidDomain
    else if name.isEmpty then .error .emptyHost
    else if Ipv4.endsInNumber name then
      match Ipv4.parse? name with
      | some a => .ok (ipv4 a)
      | none => .error .invalidIpv4
    else .ok (domain (String.ofList name))

/-- The characters that no opaque host has. -/
def forbiddenInHost (c : Char) : Bool :=
  c ∈ ['\x00', '\t', '\n', '\r', ' ', '#', '/', ':', '<', '>', '?', '@', '[', '\\', ']', '^', '|']

def parseOpaque (cs : List Char) : Except UrlFault Host :=
  if cs.head? = some '[' then bracketed cs
  else if cs.any forbiddenInHost then .error .invalidDomainCharacter
  else .ok (domain (String.ofList (Percent.encode Percent.controls cs)))

end Host

end TypedWire
