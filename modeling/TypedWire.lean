import TypedWire.Binding
import TypedWire.Binding.Read
import TypedWire.Binding.Write
import TypedWire.Buffer
import TypedWire.Class
import TypedWire.Codec
import TypedWire.Component
import TypedWire.Config
import TypedWire.Descriptor
import TypedWire.Error
import TypedWire.Identifier.Charset
import TypedWire.Identifier.Locale
import TypedWire.Identifier.TimeZone
import TypedWire.Identifier.TimeZoneNames
import TypedWire.Identifier.Uri
import TypedWire.Identifier.Url
import TypedWire.Identifier.Url.Host
import TypedWire.Identifier.Url.Path
import TypedWire.Identifier.Url.Percent
import TypedWire.Identifier.Uuid
import TypedWire.Inclusion
import TypedWire.Index
import TypedWire.Json
import TypedWire.Json.Number
import TypedWire.Json.Printer
import TypedWire.Json.Reader
import TypedWire.Kind
import TypedWire.Leaf
import TypedWire.Members
import TypedWire.Number.BigInteger
import TypedWire.Number.Binary
import TypedWire.Number.Decimal
import TypedWire.Number.Digits
import TypedWire.Number.Shortest
import TypedWire.Proofs.Assignability
import TypedWire.Proofs.Atomicity
import TypedWire.Proofs.BigNumbers
import TypedWire.Proofs.BinaryRange
import TypedWire.Proofs.BuiltIns
import TypedWire.Proofs.BuiltInsKept
import TypedWire.Proofs.Carriers
import TypedWire.Proofs.Components
import TypedWire.Proofs.Consumption
import TypedWire.Proofs.Copying
import TypedWire.Proofs.DecimalDigits
import TypedWire.Proofs.DecimalText
import TypedWire.Proofs.DecoderContract
import TypedWire.Proofs.DecoderRuns
import TypedWire.Proofs.DeserializerChoice
import TypedWire.Proofs.EncoderContract
import TypedWire.Proofs.EncoderRuns
import TypedWire.Proofs.EventGrammar
import TypedWire.Proofs.Fields
import TypedWire.Proofs.FirstOccurrences
import TypedWire.Proofs.FloatReads
import TypedWire.Proofs.FloatText
import TypedWire.Proofs.Hashing
import TypedWire.Proofs.History
import TypedWire.Proofs.Identifiers
import TypedWire.Proofs.Index
import TypedWire.Proofs.IndexContents
import TypedWire.Proofs.Instances
import TypedWire.Proofs.IntegerReads
import TypedWire.Proofs.JsonFloats
import TypedWire.Proofs.JsonIntegers
import TypedWire.Proofs.JsonReading
import TypedWire.Proofs.JsonRoundTrip
import TypedWire.Proofs.JsonText
import TypedWire.Proofs.KeyOrder
import TypedWire.Proofs.Keys
import TypedWire.Proofs.LanguageTag
import TypedWire.Proofs.LetterCase
import TypedWire.Proofs.Parameters
import TypedWire.Proofs.Pruning
import TypedWire.Proofs.ReadTree
import TypedWire.Proofs.RegistrationOrder
import TypedWire.Proofs.RoundTrip
import TypedWire.Proofs.Rows
import TypedWire.Proofs.Runs
import TypedWire.Proofs.SerializerChoice
import TypedWire.Proofs.Shortest
import TypedWire.Proofs.Specificity
import TypedWire.Proofs.TagGrammar
import TypedWire.Proofs.Untyped
import TypedWire.Proofs.UriReferences
import TypedWire.Proofs.WriteTree
import TypedWire.RawType
import TypedWire.Registry
import TypedWire.Scalar
import TypedWire.Session
import TypedWire.Text.Ascii
import TypedWire.Text.Fields
import TypedWire.Text.Quoted
import TypedWire.Text.Unprintable
import TypedWire.TextType
import TypedWire.Token
import TypedWire.Toml
import TypedWire.Toml.Reader
import TypedWire.Value
import TypedWire.Wire
import TypedWire.Wire.Decoder
import TypedWire.Wire.Encoder
import TypedWire.Wire.Json
import TypedWire.Wire.Reading
