import TypedWire.Leaf
import TypedWire.Members

/-!
# Wire trees

The tree that a value becomes on the wire: leaves, arrays and objects, whose members keep their order.
-/

namespace TypedWire

/-- A tree of wire values. -/
inductive Wire where
  | leaf (l : Leaf)
  | array (items : List Wire)
  | object (members : List (String × Wire))

namespace Wire

def null : Wire :=
  leaf .null

/-- The token at the root of a tree. -/
def token : Wire → Token
  | leaf l => l.token
  | array _ => .array
  | object _ => .object

def isNull (w : Wire) : Bool :=
  w.token = .null

def items? : Wire → Option (List Wire)
  | array items => some items
  | _ => none

def member? (w : Wire) (key : String) : Option Wire :=
  match w with
  | object members => Members.find? key members
  | _ => none

mutual
/-- Equality by content: numbers as numbers, objects without regard to order. -/
def same : Wire → Wire → Bool
  | leaf l, leaf m => l.same m
  | array xs, array ys => sameItems xs ys
  | object ms, object ns => ms.length == ns.length && sameMembers ms ns
  | _, _ => false

/-- Equality of two rows of trees, place by place. -/
def sameItems : List Wire → List Wire → Bool
  | [], [] => true
  | x :: xs, y :: ys => same x y && sameItems xs ys
  | _, _ => false

/-- Whether every member has an equal one of its key among the others. -/
def sameMembers : List (String × Wire) → List (String × Wire) → Bool
  | [], _ => true
  | (key, x) :: rest, others =>
    (match Members.find? key others with
      | some y => same x y
      | none => false) && sameMembers rest others
end

mutual
/-- No object in a tree has a key twice. -/
def WellFormed : Wire → Prop
  | leaf _ => True
  | array items => WellFormedItems items
  | object members => Members.Distinct members ∧ WellFormedMembers members

def WellFormedItems : List Wire → Prop
  | [] => True
  | w :: ws => WellFormed w ∧ WellFormedItems ws

def WellFormedMembers : List (String × Wire) → Prop
  | [] => True
  | (_, w) :: ms => WellFormed w ∧ WellFormedMembers ms
end

mutual
/-- Every leaf of a tree is as `p` says. -/
def Leaves (p : Leaf → Prop) : Wire → Prop
  | leaf l => p l
  | array items => ItemLeaves p items
  | object members => MemberLeaves p members

def ItemLeaves (p : Leaf → Prop) : List Wire → Prop
  | [] => True
  | w :: ws => Leaves p w ∧ ItemLeaves p ws

def MemberLeaves (p : Leaf → Prop) : List (String × Wire) → Prop
  | [] => True
  | (_, w) :: ms => Leaves p w ∧ MemberLeaves p ms
end

mutual
/-- How many scopes stand around the innermost part of a tree. -/
def depth : Wire → Nat
  | leaf _ => 0
  | array items => 1 + depthItems items
  | object members => 1 + depthMembers members

/-- The depth of the deepest tree of a row. -/
def depthItems : List Wire → Nat
  | [] => 0
  | w :: ws => max (depth w) (depthItems ws)

/-- The depth of the deepest tree of an object. -/
def depthMembers : List (String × Wire) → Nat
  | [] => 0
  | (_, w) :: ms => max (depth w) (depthMembers ms)
end

end Wire

end TypedWire
