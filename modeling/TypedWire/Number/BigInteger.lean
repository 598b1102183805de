import TypedWire.Number.Digits

/-!
# Big integers in text

An integer in text is an optional sign and decimal digits. Underscores may stand anywhere but before the
first digit.
-/

namespace TypedWire

/-- Why a text is no number. -/
inductive NumberFault where
  /-- There are no digits. -/
  | empty
  /-- A character is no digit where one is expected. -/
  | badDigit
  /-- A positive number does not fit. -/
  | tooLarge
  /-- A negative number does not fit. -/
  | tooSmall
  deriving DecidableEq, Repr

def NumberFault.message : NumberFault → String
  | .empty => "cannot parse integer from empty string"
  | .badDigit => "invalid digit found in string"
  | .tooLarge => "number too large to fit in target type"
  | .tooSmall => "number too small to fit in target type"

namespace BigInteger

/-- Reads digits, with underscores between and after them. -/
def natural? (cs : List Char) : Except NumberFault Nat :=
  match cs with
  | [] => .error .empty
  | '_' :: _ => .error .badDigit
  | _ =>
    let ds := cs.filter (· ≠ '_')
    if ds.all Char.isDigit then .ok (ofDigits ds) else .error .badDigit

/-- Reads an integer: one sign at most, and digits. -/
def parse (s : String) : Except NumberFault Int :=
  match s.toList with
  | '-' :: cs => (natural? cs).map fun n => -(n : Int)
  | '+' :: cs => (natural? cs).map Int.ofNat
  | cs => (natural? cs).map Int.ofNat

end BigInteger

end TypedWire
