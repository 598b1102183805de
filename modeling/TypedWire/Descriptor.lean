import TypedWire.RawType

/-!
# Type descriptors

A descriptor is a raw type with parameters, which are descriptors again. It may stand for an open type
variable; its raw type and parameters are then the bound. Descriptors are the keys of codec lookup, and
as keys they are compared without regard to variables: `List<T extends String>` and `List<String>` are
one key.
-/

namespace TypedWire

/-- A type with its parameters, or a type variable with its bound. -/
inductive Descriptor where
  | mk (raw : RawType) (params : List Descriptor) (variableName? : Option String)
  deriving Repr

namespace Descriptor

def raw : Descriptor → RawType
  | mk r _ _ => r

def params : Descriptor → List Descriptor
  | mk _ ps _ => ps

/-- The name of the variable that a descriptor stands for, if it does. -/
def variableName? : Descriptor → Option String
  | mk _ _ v => v

/-- The descriptor of a raw type without parameters. -/
def ofRaw (r : RawType) : Descriptor :=
  mk r [] none

def ofClass (c : Class) : Descriptor :=
  ofRaw (.classType c)

def generic (r : RawType) (params : List Descriptor) : Descriptor :=
  mk r params none

/-- An open type variable below `bound`. -/
def ofVariable (name : String) (bound : Descriptor) : Descriptor :=
  mk bound.raw bound.params (some name)

def primitive (k : Kind) : Descriptor :=
  ofRaw (.primitive k)

def boxed (k : Kind) : Descriptor :=
  ofRaw (.boxed k)

def object : Descriptor :=
  ofClass Class.object

def string : Descriptor :=
  ofClass Class.string

/-- The array whose component is the raw type of `component`. -/
def arrayOf (component : Descriptor) : Descriptor :=
  ofRaw (.array component.raw)

def hasParams (d : Descriptor) : Bool :=
  !d.params.isEmpty

/-- Whether the descriptor stands for a type variable. -/
def isVariable (d : Descriptor) : Bool :=
  d.variableName?.isSome

def isArray (d : Descriptor) : Bool :=
  d.raw.isArray

/-- Whether the raw type is an unboxed scalar. -/
def isPrimitive (d : Descriptor) : Bool :=
  d.raw.isPrimitive

/-- `Object` without parameters, which stands for any object. -/
def isAnyObject (d : Descriptor) : Bool :=
  d.raw.isObject && d.params.isEmpty

def component? (d : Descriptor) : Option Descriptor :=
  d.raw.component?.map ofRaw

mutual
/-- How a descriptor is written: an unbounded variable by its name, a bounded one as
    `T extends Number`, and parameters in angle brackets. -/
def text : Descriptor → String
  | mk r ps v =>
    let body := r.text ++ paramsText ps
    match v with
    | none => body
    | some name => if r.isObject && ps.isEmpty then name else name ++ " extends " ++ body

/-- The parameters in angle brackets, or nothing where there are none. -/
def paramsText : List Descriptor → String
  | [] => ""
  | p :: ps => "<" ++ text p ++ moreText ps ++ ">"

/-- The parameters after the first, each behind a comma. -/
def moreText : List Descriptor → String
  | [] => ""
  | p :: ps => ", " ++ text p ++ moreText ps
end

instance : ToString Descriptor := ⟨text⟩

mutual
/-- Equality as keys: equal raw types and, place by place, equal parameters. Variables do not count. -/
def same : Descriptor → Descriptor → Bool
  | mk r ps _, mk s qs _ => r == s && sameList ps qs

/-- Key equality of two lists, place by place. -/
def sameList : List Descriptor → List Descriptor → Bool
  | [], [] => true
  | p :: ps, q :: qs => same p q && sameList ps qs
  | _, _ => false
end

instance : BEq Descriptor := ⟨same⟩

/-- Whether a declared parameter serves a requested one: the raw types are equal, or the declared one is
    a variable whose bound accepts the requested raw type. -/
def serves (declared wanted : Descriptor) : Bool :=
  declared.raw == wanted.raw || (declared.isVariable && declared.raw.accepts wanted.raw)

/-- Whether a codec declared for `d` can serve `wanted`, judged by the parameters alone: as many of
    them, each serving the one in its place. -/
def paramsAccept (d wanted : Descriptor) : Bool :=
  d.params.length == wanted.params.length &&
    (d.params.zip wanted.params).all fun (declared, asked) => declared.serves asked

end Descriptor

end TypedWire
