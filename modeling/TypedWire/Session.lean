import TypedWire.Registry

/-!
# Sessions

A session is a registry together with the stream that is written or read. Codecs work in a session: they
ask the registry for other codecs and drive the stream. What either of them remembers stays, also where the
session fails later.
-/

namespace TypedWire

/-- A registry and a stream. -/
structure Session (S : Type) where
  registry : Registry
  stream : S

/-- What works in a session: it may fail, and the session stays. -/
abbrev SessionM (S : Type) := ExceptT CodecError (StateM (Session S))

namespace SessionM
variable {S α : Type}

def ask (question : RegistryM α) : SessionM S α := fun s =>
  let (answer, registry) := question s.registry
  (answer, { s with registry })

def drive (action : ExceptT CodecError (StateM S) α) : SessionM S α := fun s =>
  let (answer, stream) := action s.stream
  (answer, { s with stream })

/-- Works with a stream of its own, of which only the answer is kept. -/
def within (stream : S) (work : SessionM S α) : RegistryM α := fun registry =>
  let (answer, s) := work ⟨registry, stream⟩
  (answer, s.registry)

end SessionM

end TypedWire
