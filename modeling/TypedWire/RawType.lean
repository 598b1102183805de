import TypedWire.Kind
import TypedWire.Class

/-!
# Raw types

The shape of a type without its parameters: an unboxed or boxed scalar, a class, or an array. A raw
type *accepts* another when a value of the other may stand where the first is expected.
-/

namespace TypedWire

/-- The shape of a type without its parameters. -/
inductive RawType where
  | primitive (kind : Kind)
  | boxed (kind : Kind)
  | classType (c : Class)
  | array (component : RawType)
  deriving DecidableEq, Repr

namespace RawType

/-- How a raw type is written in messages. -/
def text : RawType → String
  | primitive k => k.name
  | boxed k => k.boxedName
  | classType c => c.name
  | array t => t.text ++ "[]"

instance : ToString RawType := ⟨text⟩

def isPrimitive : RawType → Bool
  | primitive _ => true
  | _ => false

def isArray : RawType → Bool
  | array _ => true
  | _ => false

def isObject : RawType → Bool
  | classType c => c.isObject
  | _ => false

def component? : RawType → Option RawType
  | array t => some t
  | _ => none

def unboxed? : RawType → Option RawType
  | boxed k => some (primitive k)
  | _ => none

/-- Whether a value of raw type `other` may stand where the first raw type is expected. A primitive
    takes only itself; `Object` takes every reference, `Number` the numeric boxes, a class its
    subclasses, and an array of references varies with its component. -/
def accepts : RawType → RawType → Bool
  | primitive k, other => primitive k == other
  | boxed k, other => boxed k == other
  | classType _, primitive _ => false
  | classType target, classType source =>
    target == source || target.isObject || source.isSubclassOf target
  | classType target, boxed k => target.isObject || (target == Class.number && k.isNumeric)
  | classType target, array _ => target.isObject
  | array target, array source =>
    array target == array source || (!target.isPrimitive && target.accepts source)
  | array _, _ => false

end RawType

end TypedWire
