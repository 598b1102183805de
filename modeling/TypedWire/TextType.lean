import TypedWire.Class
import TypedWire.Identifier.Uri
import TypedWire.Identifier.Charset
import TypedWire.Identifier.Locale
import TypedWire.Identifier.Uuid
import TypedWire.Identifier.TimeZone
import TypedWire.Identifier.Url

/-!
# Types written as text

The types whose values travel as strings: each has a text for a value and a reader that takes the text
back or says why it cannot.
-/

namespace TypedWire

/-- A type whose values travel as strings. -/
inductive TextType where
  | uuid
  | url
  | uri
  | charset
  | timeZone
  | locale
  deriving DecidableEq, Repr

namespace TextType

@[reducible] def Carrier : TextType → Type
  | uuid => Uuid
  | url => Url
  | uri => Uri
  | charset => Charset
  | timeZone => TimeZone
  | locale => Locale

instance : (t : TextType) → DecidableEq t.Carrier
  | uuid => inferInstanceAs (DecidableEq Uuid)
  | url => inferInstanceAs (DecidableEq Url)
  | uri => inferInstanceAs (DecidableEq Uri)
  | charset => inferInstanceAs (DecidableEq Charset)
  | timeZone => inferInstanceAs (DecidableEq TimeZone)
  | locale => inferInstanceAs (DecidableEq Locale)

def toClass : TextType → Class
  | uuid => Class.uuid
  | url => Class.url
  | uri => Class.uri
  | charset => Class.charset
  | timeZone => Class.timeZone
  | locale => Class.locale

/-- The name of a type, as errors give it. -/
def name (t : TextType) : String :=
  t.toClass.name

/-- What a value of the type is called. -/
def noun : TextType → String
  | uuid => "uuid"
  | url => "url"
  | uri => "uri"
  | charset => "charset"
  | timeZone => "time zone"
  | locale => "locale"

def render : (t : TextType) → t.Carrier → String
  | uuid, x => x.text
  | url, x => x.text
  | uri, x => x.text
  | charset, x => x.name
  | timeZone, x => x.name
  | locale, x => x.tag

/-- Reads a value from its text, or says why that is not possible. -/
def parse : (t : TextType) → String → Except String t.Carrier
  | uuid, s => (Uuid.parse s).mapError UuidFault.message
  | url, s => (Url.parse s).mapError UrlFault.message
  | uri, s => (Uri.parse s).mapError UriFault.message
  | charset, s =>
    match Charset.forName? s with
    | some c => .ok c
    | none => .error (Charset.unsupported s)
  | timeZone, s =>
    match TimeZone.forName? s with
    | some z => .ok z
    | none => .error TimeZone.unknown
  | locale, s => (Locale.parse s).mapError LanguageTagFault.message

end TextType

end TypedWire
