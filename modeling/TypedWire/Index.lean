import TypedWire.Component
import TypedWire.Config

/-!
# The index of candidates

Candidates in buckets by their declared raw types. Buckets keep the order of registration, and so do the
candidates in each. A candidate for a boxed scalar stands under the unboxed one as well; a candidate for
plain `Object` stands nowhere, since it would serve everything.
-/

namespace TypedWire

/-- Candidates by raw type, in the order of registration. -/
abbrev Buckets := List (RawType × List Candidate)

namespace Buckets

def find? (raw : RawType) (buckets : Buckets) : Option (List Candidate) :=
  buckets.lookup raw

/-- Puts a candidate at the end of a bucket; a new bucket goes to the end. -/
def add (raw : RawType) (c : Candidate) : Buckets → Buckets
  | [] => [(raw, [c])]
  | (r, cs) :: rest => if r = raw then (r, cs ++ [c]) :: rest else (r, cs) :: add raw c rest

/-- Puts a candidate where its declared type belongs. -/
def index (c : Candidate) (declared : Descriptor) (buckets : Buckets) : Buckets :=
  if declared.isAnyObject then buckets
  else
    let buckets := match declared.raw.unboxed? with
      | some unboxed => buckets.add unboxed c
      | none => buckets
    buckets.add declared.raw c

/-- The buckets of a list of candidates. Each has to declare a type. -/
def build (role : Role) (candidates : List Candidate) : Except CodecError Buckets :=
  candidates.foldlM (fun buckets c =>
    match c.declared with
    | none => .error (.configuration (.untyped role c.name))
    | some declared => .ok (index c declared buckets)) []

def size (buckets : Buckets) : Nat :=
  (buckets.flatMap fun b => b.2).length

end Buckets

/-- The index of a registry. -/
structure Index where
  serializers : Buckets
  deserializers : Buckets

namespace Index

def empty : Index :=
  ⟨[], []⟩

/-- Indexes candidates; a serializer without a type is found before a deserializer without one. -/
def build (serializers deserializers : List Candidate) : Except CodecError Index := do
  return ⟨← Buckets.build .serializer serializers, ← Buckets.build .deserializer deserializers⟩

/-- How many places the candidates have in both roles. -/
def size (i : Index) : Nat :=
  i.serializers.size + i.deserializers.size

def isEmpty (i : Index) : Bool :=
  i.serializers.isEmpty && i.deserializers.isEmpty

/-- Among buckets that accept a type, the one that serves it. The most specific bucket is the first whose
    raw type all the others accept. -/
def select (selection : BucketSelection) (assignable : List (RawType × List Candidate)) :
    Option (RawType × List Candidate) :=
  match selection with
  | .firstAssignable => assignable.head?
  | .mostSpecific =>
    match assignable.find? fun b => assignable.all fun other => other.1.accepts b.1 with
    | some b => some b
    | none => assignable.head?

/-- The bucket that serves a raw type: its own, else one whose raw type accepts it. -/
def findSerializerBucket (i : Index) (raw : RawType) (selection : BucketSelection) :
    Option (RawType × List Candidate) :=
  match Buckets.find? raw i.serializers with
  | some bucket => some (raw, bucket)
  | none => select selection (i.serializers.filter fun b => b.1.accepts raw)

end Index

end TypedWire
