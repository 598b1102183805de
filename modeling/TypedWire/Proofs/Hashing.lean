import Mathlib.Data.List.Basic
import TypedWire.Proofs.Keys

/-! # Keys and hashing

A hasher is fed the parts of a key one after the other: which form the raw type has, the kind or the name of it, how
many parameters there are, and then the parameters. Of a class it is fed the name alone. So equal keys feed it the same
values, and two descriptors that feed it the same differ at most in their variables and in what their classes
declare. Nothing else that is asked of a key when a codec is looked up tells equal keys apart. -/

namespace TypedWire

/-- A value that a hasher is fed. -/
inductive HashInput where
  /-- Which of several forms follows, by its place among them. -/
  | form (place : Nat)
  | count (n : Nat)
  | name (s : String)
  deriving DecidableEq, Repr

def Kind.place (k : Kind) : Nat :=
  all.idxOf k

theorem Kind.place_inj {j k : Kind} (h : j.place = k.place) : j = k :=
  (List.idxOf_inj j.mem_all).mp h

/-! ### What a hasher is fed -/

namespace RawType

def hashInput : RawType → List HashInput
  | primitive k => [.form 0, .form k.place]
  | boxed k => [.form 1, .form k.place]
  | classType c => [.form 2, .name c.name]
  | array t => .form 3 :: t.hashInput

/-- The raw type with a class that declares nothing. -/
def outline : RawType → RawType
  | classType c => classType (.plain c.name)
  | array t => array t.outline
  | t => t

theorem hashInput_outline (t : RawType) : t.outline.hashInput = t.hashInput := by
  induction t with
  | array t ih => rw [outline, hashInput, hashInput, ih]
  | _ => rfl

/-- What is fed of a raw type tells its outline, and where it ends. -/
theorem outline_eq_of_append {a b : RawType} {s t : List HashInput} (h : a.hashInput ++ s = b.hashInput ++ t) :
    a.outline = b.outline ∧ s = t := by
  induction a generalizing b with
  | primitive j =>
    cases b with
    | primitive k =>
      obtain ⟨hplace, hrest⟩ := List.cons.inj (List.cons.inj h).2
      rw [Kind.place_inj (HashInput.form.inj hplace)]
      exact ⟨rfl, hrest⟩
    | _ => cases (List.cons.inj h).1
  | boxed j =>
    cases b with
    | boxed k =>
      obtain ⟨hplace, hrest⟩ := List.cons.inj (List.cons.inj h).2
      rw [Kind.place_inj (HashInput.form.inj hplace)]
      exact ⟨rfl, hrest⟩
    | _ => cases (List.cons.inj h).1
  | classType c =>
    cases b with
    | classType d =>
      obtain ⟨hname, hrest⟩ := List.cons.inj (List.cons.inj h).2
      rw [outline, outline, HashInput.name.inj hname]
      exact ⟨rfl, hrest⟩
    | _ => cases (List.cons.inj h).1
  | array u ih =>
    cases b with
    | array v =>
      obtain ⟨hcomponent, hrest⟩ := ih (List.cons.inj h).2
      exact ⟨congrArg array hcomponent, hrest⟩
    | _ => cases (List.cons.inj h).1

end RawType

namespace Descriptor

mutual
def hashInput : Descriptor → List HashInput
  | mk raw params _ => raw.hashInput ++ .count params.length :: hashInputs params

def hashInputs : List Descriptor → List HashInput
  | [] => []
  | p :: ps => hashInput p ++ hashInputs ps
end

mutual
/-- The descriptor without variables, and with classes that declare nothing. -/
def outline : Descriptor → Descriptor
  | mk raw params _ => mk raw.outline (outlines params) none

def outlines : List Descriptor → List Descriptor
  | [] => []
  | p :: ps => outline p :: outlines ps
end

theorem length_outlines (ps : List Descriptor) : (outlines ps).length = ps.length := by
  induction ps with
  | nil => rfl
  | cons p ps ih => rw [outlines, List.length_cons, ih, List.length_cons]

mutual
theorem outline_unmarked : ∀ d : Descriptor, d.unmarked.outline = d.outline
  | mk _ params _ => by rw [unmarked, outline, outline, outlines_unmarkedList params]

theorem outlines_unmarkedList : ∀ ps : List Descriptor, outlines (unmarkedList ps) = outlines ps
  | [] => rfl
  | p :: ps => by rw [unmarkedList, outlines, outlines, outline_unmarked p, outlines_unmarkedList ps]
end

mutual
theorem hashInput_outline : ∀ d : Descriptor, d.outline.hashInput = d.hashInput
  | mk raw params _ => by
    rw [outline, hashInput, hashInput, RawType.hashInput_outline, length_outlines, hashInputs_outlines params]

theorem hashInputs_outlines : ∀ ps : List Descriptor, hashInputs (outlines ps) = hashInputs ps
  | [] => rfl
  | p :: ps => by rw [outlines, hashInputs, hashInputs, hashInput_outline p, hashInputs_outlines ps]
end

mutual
/-- What is fed of a descriptor tells its outline, and where it ends: the parameters are counted before they are
    fed. -/
theorem outline_eq_of_append : ∀ {a b : Descriptor} {s t : List HashInput},
    a.hashInput ++ s = b.hashInput ++ t → a.outline = b.outline ∧ s = t
  | mk r ps _, mk q qs _, s, t, h => by
    rw [hashInput, hashInput, List.append_assoc, List.append_assoc] at h
    obtain ⟨hraw, hparams⟩ := RawType.outline_eq_of_append h
    obtain ⟨hcount, hparams⟩ := List.cons.inj hparams
    obtain ⟨houtlines, hrest⟩ := outlines_eq_of_append (HashInput.count.inj hcount) hparams
    rw [outline, outline, hraw, houtlines]
    exact ⟨rfl, hrest⟩

theorem outlines_eq_of_append : ∀ {ps qs : List Descriptor} {s t : List HashInput}, ps.length = qs.length →
    hashInputs ps ++ s = hashInputs qs ++ t → outlines ps = outlines qs ∧ s = t
  | [], [], _, _, _, h => ⟨rfl, h⟩
  | p :: ps, q :: qs, s, t, hlen, h => by
    rw [hashInputs, hashInputs, List.append_assoc, List.append_assoc] at h
    obtain ⟨hp, hps⟩ := outline_eq_of_append h
    obtain ⟨houtlines, hrest⟩ := outlines_eq_of_append (Nat.succ.inj hlen) hps
    rw [outlines, outlines, hp, houtlines]
    exact ⟨rfl, hrest⟩
end

/-- Two descriptors feed a hasher the same values exactly if they have one outline. -/
theorem hashInput_eq_iff {a b : Descriptor} : a.hashInput = b.hashInput ↔ a.outline = b.outline := by
  constructor
  · intro h
    exact (outline_eq_of_append (congrArg (· ++ []) h)).1
  · intro h
    rw [← hashInput_outline a, h, hashInput_outline]

theorem hashInput_congr {a b : Descriptor} (h : (a == b) = true) : a.hashInput = b.hashInput := by
  rw [hashInput_eq_iff, ← outline_unmarked a, beq_iff_unmarked.mp h, outline_unmarked]

/-! ### Keys in lookups -/

/-- No question of a lookup tells two descriptors apart: neither what a hasher is fed, nor what is asked of a requested
    type by its raw type, by its parameters or as a key. -/
structure Interchangeable (a b : Descriptor) : Prop where
  hashInput : a.hashInput = b.hashInput
  equals : ∀ d : Descriptor, (d == a) = (d == b)
  isArray : a.isArray = b.isArray
  component? : a.component? = b.component?
  accepts : ∀ t : RawType, a.raw.accepts t = b.raw.accepts t
  accepted : ∀ t : RawType, t.accepts a.raw = t.accepts b.raw
  bucket : ∀ (index : Index) (selection : BucketSelection),
    index.findSerializerBucket a.raw selection = index.findSerializerBucket b.raw selection
  hasParams : a.hasParams = b.hasParams
  paramsAccept : ∀ d : Descriptor, d.paramsAccept a = d.paramsAccept b

theorem interchangeable_of_beq {a b : Descriptor} (h : (a == b) = true) : Interchangeable a b where
  hashInput := hashInput_congr h
  equals _ := BEq.congr_right h
  isArray := isArray_congr h
  component? := congrArg (fun raw => raw.component?.map ofRaw) (raw_congr h)
  accepts t := congrArg (·.accepts t) (raw_congr h)
  accepted t := congrArg t.accepts (raw_congr h)
  bucket index selection := congrArg (index.findSerializerBucket · selection) (raw_congr h)
  hasParams := hasParams_congr h
  paramsAccept d := paramsAccept_congr d h

/-- Descriptors are sound keys. Their equality is an equivalence that forgets the variables at every depth and nothing
    else; equal ones feed a hasher the same values and are interchangeable in every lookup. The values fed forget the
    variables and what classes declare, and nothing else. -/
theorem keys_sound :
    (∀ a : Descriptor, (a == a) = true) ∧
    (∀ a b : Descriptor, (a == b) = true → (b == a) = true) ∧
    (∀ a b c : Descriptor, (a == b) = true → (b == c) = true → (a == c) = true) ∧
    (∀ a b : Descriptor, (a == b) = true ↔ a.unmarked = b.unmarked) ∧
    (∀ a b : Descriptor, (a == b) = true → Interchangeable a b) ∧
    ∀ a b : Descriptor, a.hashInput = b.hashInput ↔ a.outline = b.outline :=
  ⟨fun _ => BEq.rfl, fun _ _ => BEq.symm, fun _ _ _ => BEq.trans, fun _ _ => beq_iff_unmarked,
    fun _ _ => interchangeable_of_beq, fun _ _ => hashInput_eq_iff⟩

/-- `List<T extends String>`, `List<String>` and `List<U extends String>` are one key. A class `List` that declares
    nothing makes another key, for which a hasher is fed the same values. -/
theorem keys_sound_lists :
    (generic (.classType Class.list) [ofVariable "T" string] == generic (.classType Class.list) [string]) = true ∧
    (generic (.classType Class.list) [ofVariable "U" string] == generic (.classType Class.list) [string]) = true ∧
    (generic (.classType Class.list) [ofVariable "T" string] ==
      generic (.classType Class.list) [ofVariable "U" string]) = true ∧
    Interchangeable (generic (.classType Class.list) [ofVariable "T" string])
      (generic (.classType Class.list) [ofVariable "U" string]) ∧
    (generic (.classType (.plain "List")) [string] == generic (.classType Class.list) [ofVariable "T" string]) = false ∧
    (generic (.classType (.plain "List")) [string]).hashInput =
      (generic (.classType Class.list) [ofVariable "T" string]).hashInput := by
  obtain ⟨-, hsymm, htrans, -, hequal, hfed⟩ := keys_sound
  have hfirst : (generic (.classType Class.list) [ofVariable "T" string] ==
    generic (.classType Class.list) [string]) = true := by decide
  have hsecond : (generic (.classType Class.list) [ofVariable "U" string] ==
    generic (.classType Class.list) [string]) = true := by decide
  have hboth := htrans _ _ _ hfirst (hsymm _ _ hsecond)
  exact ⟨hfirst, hsecond, hboth, hequal _ _ hboth, by decide, (hfed _ _).mpr rfl⟩

end Descriptor

end TypedWire
