import TypedWire.Descriptor
import TypedWire.Number.Digits
import TypedWire.Text.Quoted
import TypedWire.Token

/-!
# Errors

What can go wrong between building a registry and reading the last value, as causes; each has one
wording.
-/

namespace TypedWire

/-- Whether a codec writes or reads. -/
inductive Role where
  | serializer
  | deserializer
  deriving DecidableEq, Repr

def Role.name : Role → String
  | .serializer => "serializer"
  | .deserializer => "deserializer"

/-- The name of a role at the beginning of a sentence. -/
def Role.title : Role → String
  | .serializer => "Serializer"
  | .deserializer => "Deserializer"

/-- Why a registry cannot be built. -/
inductive ConfigurationFault where
  /-- The caches are given no room at all. -/
  | zeroCapacity
  /-- Two codecs of one role bear one name. -/
  | registeredTwice (role : Role) (name : String)
  /-- A codec is registered without the type it handles. -/
  | untyped (role : Role) (name : String)
  deriving DecidableEq, Repr

def invalidConfiguration : String :=
  "Invalid configuration: initial_cache_capacity must be greater than zero"

def ConfigurationFault.message : ConfigurationFault → String
  | zeroCapacity => invalidConfiguration
  | registeredTwice role name => role.name ++ " " ++ name ++ " registered twice"
  | untyped role name => role.title ++ " without generic types defined: " ++ name

/-- A step that an encoder does not allow where it stands. -/
inductive EncoderFault where
  | memberWithoutKey
  | rootWritten
  | twoKeys
  | keyOutsideObject
  | danglingKey (key : String)
  | nothingToFinish
  | notFinished
  | nothingWritten
  deriving DecidableEq, Repr

def EncoderFault.message : EncoderFault → String
  | memberWithoutKey => "object member written without a key"
  | rootWritten => "root value already written"
  | twoKeys => "two keys without a value"
  | keyOutsideObject => "key written outside an object"
  | danglingKey key => "object finished with dangling key " ++ Text.quoted key
  | nothingToFinish => "no open structure to finish"
  | notFinished => "structure not finished"
  | nothingWritten => "no value written"

/-- A step that a decoder does not allow where it stands. -/
inductive DecoderFault where
  | valueBeforeKey
  | notInArray
  | memberNotRead
  | notInObject
  | unreadElements
  | unreadMembers
  | nothingToFinish
  | notFinished
  | rootNotRead
  deriving DecidableEq, Repr

def DecoderFault.message : DecoderFault → String
  | valueBeforeKey => "member value read before its key"
  | notInArray => "not inside an array"
  | memberNotRead => "previous member value was not read"
  | notInObject => "not inside an object"
  | unreadElements => "array has unread elements"
  | unreadMembers => "object has unread members"
  | nothingToFinish => "no open structure to finish"
  | notFinished => "structure not finished"
  | rootNotRead => "root value not read"

/-- Why codecs cannot be found, or a value cannot be written or read. -/
inductive CodecError where
  /-- The registry cannot be built. -/
  | configuration (fault : ConfigurationFault)
  /-- The type has a bucket, and none of its candidates takes the parameters. -/
  | noSerializer (ty : Descriptor)
  /-- Several candidates take the type. -/
  | ambiguousSerializer (ty : Descriptor) (candidates : List String)
  /-- The chosen candidate cannot be created. -/
  | instantiation (candidate reason : String)
  /-- The wire holds another token than the one asked for. -/
  | unexpectedToken (expected : String) (found : Token)
  /-- A number does not fit its kind. -/
  | outOfRange (target : Kind) (value : String)
  /-- A text does not have the form of its type. -/
  | parse (target input reason : String)
  /-- A codec was handed a value that it does not write. -/
  | valueMismatch (expected found : String)
  /-- An encoder was driven out of order. -/
  | encoderContract (fault : EncoderFault)
  /-- A decoder was driven out of order. -/
  | decoderContract (fault : DecoderFault)
  /-- There is no value left. -/
  | unexpectedEnd
  /-- A text is no JSON. -/
  | json

namespace CodecError

def message : CodecError → String
  | configuration fault => "configuration error: " ++ fault.message
  | noSerializer ty => "no serializers found for type: " ++ ty.text
  | ambiguousSerializer ty candidates =>
    "multiple possible serializers found for type [" ++ ty.text ++ "]: [" ++
      ", ".intercalate candidates ++ "]"
  | instantiation candidate reason =>
    "failed to instantiate codec " ++ candidate ++ ": " ++ reason
  | unexpectedToken expected found => "expected " ++ expected ++ ", found " ++ found.text
  | outOfRange target value => "value " ++ value ++ " out of range for " ++ target.name
  | parse target input reason =>
    "cannot parse " ++ target ++ " from " ++ Text.quoted input ++ ": " ++ reason
  | valueMismatch expected found => "cannot serialize " ++ found ++ " value as " ++ expected
  | encoderContract fault => "encoder contract violated: " ++ fault.message
  | decoderContract fault => "decoder contract violated: " ++ fault.message
  | unexpectedEnd => "unexpected end of input"
  | json => "JSON error"

/-- Whether an error comes from the choice of a codec, and not from a value. -/
def isResolution : CodecError → Bool
  | noSerializer _ => true
  | ambiguousSerializer _ _ => true
  | instantiation _ _ => true
  | _ => false

end CodecError

end TypedWire
