import TypedWire.Binding.Read
import TypedWire.Binding.Write

/-!
# Binding values to wire trees

The two ways between a value of a type and its tree. The registry finds the codec of the type and stays as
the search has left it, also where the way fails.
-/

namespace TypedWire.RegistryM

/-- The tree of a value of a type. The policy for members is the registry's own unless one is given. -/
def toWire (v : Value) (ty : Descriptor) (policy : Option Inclusion) : RegistryM Wire := do
  let standing := (← get).config.inclusion
  SessionM.within .start do
    let found ← SessionM.ask (findSerializer ty)
    WriteM.write (policy.getD standing) found.codec ty v
    SessionM.drive EncoderM.finish

/-- The value of a type that a tree holds; the whole tree has to be read. -/
def fromWire (w : Wire) (ty : Descriptor) : RegistryM Value :=
  SessionM.within (.ofWire w) do
    let found ← SessionM.ask (findDeserializer ty)
    let v ← ReadM.read found.codec ty
    SessionM.drive DecoderM.finish
    return v

end TypedWire.RegistryM
