import Mathlib.Data.List.Nodup
import Mathlib.Data.List.Pairwise
import TypedWire.Proofs.DeserializerChoice

/-! # Codecs are made once, when they are first needed

A registered codec is made by the first request that is met with it, and every later one is met with the same
instance. What stands on both sides is kept in balance by each request: on one side the registrations, each
with its count of runs and its instance, on the other all that requests have been met with so far. A request
that is refused, or met from a cache or with a fallback, brings nothing new to either side. -/

namespace TypedWire

/-- Whether the codec of a registration is still to be made. -/
def Registration.isPending {C : Type} (x : Registration C) : Bool :=
  x.runs == 0 && x.inst.isNone

/-! ### The balance -/

/-- Registrations in balance with what requests have been met with: those are exactly the instances that the
    registrations hold, each made once, under the name of its registration. -/
structure Tally {C : Type} (served : List (Resolved C)) (regs : List (Registration C)) (fresh : Nat) : Prop where
  counted : ∀ x ∈ regs, x.runs = if x.inst.isSome then 1 else 0
  numbered : ∀ x ∈ regs, ∀ i, x.inst = some i → i.id.number < fresh
  apart : regs.Pairwise fun x y => ∀ i j, x.inst = some i → y.inst = some j → i.id ≠ j.id
  served_iff : ∀ name i, (⟨.registered name, i⟩ : Resolved C) ∈ served ↔
    ∃ x ∈ regs, x.candidate.name = name ∧ x.inst = some i

/-- What requests leave behind, said of the registrations and of what the requests were met with. -/
structure MadeOnce {C : Type} (served : List (Resolved C)) (regs : List (Registration C)) : Prop where
  at_most_once : ∀ x ∈ regs, x.runs ≤ 1
  made_iff : ∀ x ∈ regs, x.runs = 1 ↔ ∃ found ∈ served, found.origin = .registered x.candidate.name
  held : ∀ found ∈ served, ∀ name, found.origin = .registered name →
    ∃ x ∈ regs, x.candidate.name = name ∧ x.inst = some found.inst
  shared : ∀ found ∈ served, ∀ found' ∈ served, ∀ name, found.origin = .registered name →
    found'.origin = .registered name → found = found'
  apart : ∀ found ∈ served, ∀ found' ∈ served, ∀ name name', found.origin = .registered name →
    found'.origin = .registered name' → found.sameCodec found' = true → name = name'

section Balance
variable {C : Type} {served served' : List (Resolved C)} {regs : List (Registration C)} {fresh fresh' : Nat}

theorem Tally.start (h : ∀ x ∈ regs, x.isPending = true) (fresh : Nat) : Tally [] regs fresh := by
  have hpending : ∀ x ∈ regs, x.runs = 0 ∧ x.inst = none := by simpa [Registration.isPending] using h
  refine ⟨?_, ?_, ?_, ?_⟩
  · intro x hx
    rw [(hpending x hx).1, (hpending x hx).2]
    rfl
  · intro x hx i hi
    rw [(hpending x hx).2] at hi
    cases hi
  · refine List.pairwise_iff_forall_sublist.mpr fun {x y} hsub i j hi => ?_
    rw [(hpending x (hsub.subset (List.mem_cons_self ..))).2] at hi
    cases hi
  · intro name i
    refine iff_of_false List.not_mem_nil ?_
    rintro ⟨x, hx, -, hi⟩
    rw [(hpending x hx).2] at hi
    cases hi

/-- A request that nothing is made for. -/
theorem Tally.idle (h : Tally served regs fresh) (hle : fresh ≤ fresh')
    (hsame : ∀ name i, (⟨.registered name, i⟩ : Resolved C) ∈ served' ↔ ⟨.registered name, i⟩ ∈ served) :
    Tally served' regs fresh' where
  counted := h.counted
  numbered x hx i hi := Nat.lt_of_lt_of_le (h.numbered x hx i hi) hle
  apart := h.apart
  served_iff name i := (hsame name i).trans (h.served_iff name i)

theorem Tally.again (h : Tally served regs fresh) (found : Resolved C)
    (hfound : ∀ name i, found = ⟨.registered name, i⟩ → found ∈ served) : Tally (served ++ [found]) regs fresh := by
  refine h.idle Nat.le.refl fun name i => ?_
  rw [List.mem_append, List.mem_singleton, or_iff_left_iff_imp]
  rintro rfl
  exact hfound name i rfl

/-- A codec that is made now gets a number that no instance has so far. -/
theorem Tally.made {before after : List (Registration C)} {x : Registration C}
    (h : Tally served (before ++ x :: after) fresh) (hi : x.inst = none) :
    Tally (served ++ [⟨.registered x.candidate.name, ⟨⟨.components, fresh⟩, x.make⟩⟩])
      (before ++ { x with runs := x.runs + 1, inst := some ⟨⟨.components, fresh⟩, x.make⟩ } :: after)
      (fresh + 1) := by
  obtain ⟨hcounted, hnumbered, hapart, hserved⟩ := h
  rw [List.forall_mem_append, List.forall_mem_cons] at hcounted hnumbered
  rw [List.pairwise_append, List.pairwise_cons] at hapart
  obtain ⟨hb, ⟨-, ha⟩, hba⟩ := hapart
  have hruns : x.runs = 0 := by simpa [hi] using hcounted.2.1
  refine ⟨?_, ?_, ?_, ?_⟩
  · rw [List.forall_mem_append, List.forall_mem_cons]
    exact ⟨hcounted.1, by simp [hruns], hcounted.2.2⟩
  · rw [List.forall_mem_append, List.forall_mem_cons]
    refine ⟨fun y hy i hi => Nat.lt_succ_of_lt (hnumbered.1 y hy i hi), ?_,
      fun y hy i hi => Nat.lt_succ_of_lt (hnumbered.2.2 y hy i hi)⟩
    rintro i ⟨⟩
    exact Nat.lt_succ_self fresh
  · rw [List.pairwise_append, List.pairwise_cons]
    refine ⟨hb, ⟨?_, ha⟩, ?_⟩
    · rintro y hy i j ⟨⟩ hj heq
      exact Nat.ne_of_lt (hnumbered.2.2 y hy j hj) (congrArg Identity.number heq).symm
    · intro y hy z hz
      rcases List.mem_cons.mp hz with rfl | hz
      · rintro i j hi ⟨⟩ heq
        exact Nat.ne_of_lt (hnumbered.1 y hy i hi) (congrArg Identity.number heq)
      · exact hba y hy z (List.mem_cons_of_mem x hz)
  · intro name i
    have hnew : (⟨.registered name, i⟩ : Resolved C) =
          ⟨.registered x.candidate.name, ⟨⟨.components, fresh⟩, x.make⟩⟩ ↔
        x.candidate.name = name ∧ (⟨⟨.components, fresh⟩, x.make⟩ : Instance C) = i := by
      simp only [Resolved.mk.injEq, Origin.registered.injEq, eq_comm]
    rw [List.mem_append, List.mem_singleton, hserved, hnew]
    simp only [List.mem_append, List.mem_cons, or_and_right, exists_or, exists_eq_left, hi, reduceCtorEq, and_false,
      false_or, Option.some.injEq]
    rw [or_assoc, or_comm (b := _ ∧ _)]

theorem Tally.use {before after : List (Registration C)} {x : Registration C}
    (h : Tally served (before ++ x :: after) fresh) :
    Tally (served ++ [⟨.registered x.candidate.name, (x.use fresh).1⟩]) (before ++ (x.use fresh).2 :: after)
      (fresh + 1) := by
  cases hi : x.inst with
  | some i =>
    have huse : x.use fresh = (i, x) := by simp only [Registration.use, hi]
    have hx : x ∈ before ++ x :: after := List.mem_append_right _ (List.mem_cons_self ..)
    have hserved := (h.served_iff x.candidate.name i).mpr ⟨x, hx, rfl, hi⟩
    rw [huse]
    exact (h.again _ fun _ _ _ => hserved).idle (Nat.le_succ fresh) fun _ _ => Iff.rfl
  | none =>
    have huse : x.use fresh = (⟨⟨.components, fresh⟩, x.make⟩,
        { x with runs := x.runs + 1, inst := some ⟨⟨.components, fresh⟩, x.make⟩ }) := by
      simp only [Registration.use, hi]
    rw [huse]
    exact h.made hi

theorem Tally.useFirst (h : Tally served regs fresh) {p : Registration C → Bool} {i : Instance C} {c : Candidate}
    {rest : List (Registration C)} (hu : Registration.useFirst fresh p regs = some (i, c, rest)) :
    Tally (served ++ [⟨.registered c.name, i⟩]) rest (fresh + 1) := by
  obtain ⟨before, x, after, rfl, -, rfl, rfl, rfl⟩ := Registration.useFirst_eq_some hu
  exact h.use

theorem Tally.runs_eq_one_iff (h : Tally served regs fresh) {x : Registration C} (hx : x ∈ regs) :
    x.runs = 1 ↔ ∃ i, x.inst = some i := by
  rw [h.counted x hx]
  cases x.inst <;> simp

theorem Tally.madeOnce (h : Tally served regs fresh) (hn : (regs.map (·.candidate.name)).Nodup) :
    MadeOnce served regs where
  at_most_once x hx := by
    rw [h.counted x hx]
    split <;> decide
  made_iff x hx := by
    rw [h.runs_eq_one_iff hx]
    constructor
    · rintro ⟨i, hi⟩
      exact ⟨⟨.registered x.candidate.name, i⟩, (h.served_iff _ i).mpr ⟨x, hx, rfl, hi⟩, rfl⟩
    · rintro ⟨⟨origin, i⟩, hfound, rfl⟩
      obtain ⟨y, hy, hname, hi⟩ := (h.served_iff _ i).mp hfound
      obtain rfl : y = x := List.inj_on_of_nodup_map hn hy hx hname
      exact ⟨i, hi⟩
  held := by
    rintro ⟨origin, i⟩ hfound name rfl
    exact (h.served_iff name i).mp hfound
  shared := by
    rintro ⟨origin, i⟩ hfound ⟨origin', j⟩ hfound' name rfl rfl
    obtain ⟨x, hx, hxname, hi⟩ := (h.served_iff name i).mp hfound
    obtain ⟨y, hy, rfl, hj⟩ := (h.served_iff name j).mp hfound'
    obtain rfl : x = y := List.inj_on_of_nodup_map hn hx hy hxname
    rw [Option.some.inj (hi.symm.trans hj)]
  apart := by
    rintro ⟨origin, i⟩ hfound ⟨origin', j⟩ hfound' name name' rfl rfl hsame
    obtain ⟨x, hx, rfl, hi⟩ := (h.served_iff name i).mp hfound
    obtain ⟨y, hy, rfl, hj⟩ := (h.served_iff name' j).mp hfound'
    have hsymm : Std.Symm fun x y : Registration C =>
        ∀ i j, x.inst = some i → y.inst = some j → i.id ≠ j.id :=
      ⟨fun x y hxy i j hi hj heq => hxy j i hj hi heq.symm⟩
    by_contra hne
    have hxy : x ≠ y := fun heq => hne (congrArg (·.candidate.name) heq)
    exact List.Pairwise.forall h.apart hx hy hxy i j hi hj (by simpa [Resolved.sameCodec] using hsame)

end Balance

/-! ### What requests are met with -/

namespace Cache
variable {C : Type} {served : List (Resolved C)} {cache : Cache C}

/-- What a cache holds of registered codecs, requests have been met with. -/
def Given (served : List (Resolved C)) (cache : Cache C) : Prop :=
  ∀ ty found, cache.find? ty = some found → ∀ name i, found = ⟨.registered name, i⟩ → found ∈ served

theorem Given.again (h : Given served cache) (new : List (Resolved C)) :
    Given (served ++ new) cache := by
  intro ty found hc name i hfound
  exact List.mem_append_left _ (h ty found hc name i hfound)

theorem Given.add (h : Given served cache) (ty : Descriptor) (new : Resolved C) :
    Given (served ++ [new]) (cache.add ty new) := by
  intro k found hk name i hfound
  rcases find?_add_eq_some hk with old | ⟨-, rfl⟩
  · exact List.mem_append_left _ (h k found old name i hfound)
  · exact List.mem_append_right _ (List.mem_singleton_self _)

end Cache

namespace Registry

/-- The serializer that a request is met with. -/
def serializerFor? (r : Registry) : Lookup → Option (Resolved Serializer)
  | .serializer ty => (RegistryM.findSerializer ty r).1.toOption
  | .deserializer _ => none

/-- The deserializer that a request is met with. -/
def deserializerFor? (r : Registry) : Lookup → Option (Resolved Deserializer)
  | .serializer _ => none
  | .deserializer ty => (RegistryM.findDeserializer ty r).1.toOption

/-- What requests are met with, one after the other. -/
def served {α : Type} (answer? : Registry → Lookup → Option α) (r : Registry) : List Lookup → List α
  | [] => []
  | q :: rest => (answer? r q).toList ++ served answer? (r.asked q) rest

/-- A registry in balance with what requests have been met with: both kinds of registrations are, no fallback
    passes for a registered codec, and the caches hold nothing of registered codecs that was not given out. -/
structure Tallied (written : List (Resolved Serializer)) (read : List (Resolved Deserializer)) (r : Registry) :
    Prop where
  tallies : ∃ t, r.components = .static t ∧ Tally written t.serializers t.fresh ∧ Tally read t.deserializers t.fresh
  objectSerializer : ∀ name i, r.objectSerializer ≠ ⟨.registered name, i⟩
  objectDeserializer : ∀ name i, r.objectDeserializer ≠ ⟨.registered name, i⟩
  arrayDeserializer : ∀ name i, r.arrayDeserializer ≠ ⟨.registered name, i⟩
  serializers : Cache.Given written r.serializers
  deserializers : Cache.Given read r.deserializers

section Requests
variable {written : List (Resolved Serializer)} {read : List (Resolved Deserializer)} {r : Registry}

theorem Tallied.findSerializer (h : Tallied written read r) (ty : Descriptor) :
    Tallied (written ++ (RegistryM.findSerializer ty r).1.toOption.toList) read
      (RegistryM.findSerializer ty r).2 := by
  obtain ⟨t, ht, hw, hr⟩ := h.tallies
  rcases RegistryM.findSerializer_static ht ty with ⟨found, hc, hf⟩ | ⟨e, hf⟩ | hf | ⟨p, i, c, rest, hu, hf⟩
  · rw [hf]
    exact { h with
      tallies := ⟨t, ht, hw.again found (h.serializers ty found hc), hr⟩
      serializers := h.serializers.again [found] }
  · rw [hf]
    simpa [Except.toOption] using h
  · rw [hf]
    exact { h with
      tallies := ⟨t, ht, hw.again _ fun name i heq => absurd heq (h.objectSerializer name i), hr⟩
      serializers := h.serializers.add ty _ }
  · rw [hf]
    exact { h with
      tallies := ⟨_, rfl, hw.useFirst hu, hr.idle (Nat.le_succ _) fun _ _ => Iff.rfl⟩
      serializers := h.serializers.add ty _ }

theorem Tallied.findDeserializer (h : Tallied written read r) (ty : Descriptor) :
    Tallied written (read ++ (RegistryM.findDeserializer ty r).1.toOption.toList)
      (RegistryM.findDeserializer ty r).2 := by
  obtain ⟨t, ht, hw, hr⟩ := h.tallies
  rcases RegistryM.findDeserializer_static ht ty with
    ⟨found, hc, hf⟩ | ⟨fallback, hfallback, hf⟩ | ⟨p, i, c, rest, hu, hf⟩
  · rw [hf]
    exact { h with
      tallies := ⟨t, ht, hw, hr.again found (h.deserializers ty found hc)⟩
      deserializers := h.deserializers.again [found] }
  · have hunregistered : ∀ name i, fallback ≠ ⟨.registered name, i⟩ := by
      rcases hfallback with rfl | rfl
      · exact h.arrayDeserializer
      · exact h.objectDeserializer
    rw [hf]
    exact { h with
      tallies := ⟨t, ht, hw, hr.again _ fun name i heq => absurd heq (hunregistered name i)⟩
      deserializers := h.deserializers.add ty _ }
  · rw [hf]
    exact { h with
      tallies := ⟨_, rfl, hw.idle (Nat.le_succ _) fun _ _ => Iff.rfl, hr.useFirst hu⟩
      deserializers := h.deserializers.add ty _ }

theorem Tallied.asked (h : Tallied written read r) (q : Lookup) :
    Tallied (written ++ (r.serializerFor? q).toList) (read ++ (r.deserializerFor? q).toList) (r.asked q) := by
  cases q with
  | serializer ty =>
    have hstep := h.findSerializer ty
    rwa [← List.append_nil read] at hstep
  | deserializer ty =>
    have hstep := h.findDeserializer ty
    rwa [← List.append_nil written] at hstep

theorem Tallied.after (h : Tallied written read r) (history : List Lookup) :
    Tallied (written ++ served serializerFor? r history) (read ++ served deserializerFor? r history)
      (r.after history) := by
  induction history generalizing written read r with
  | nil => simpa [served, Registry.after] using h
  | cons q rest ih =>
    have hrest := ih (h.asked q)
    rw [List.append_assoc, List.append_assoc] at hrest
    exact hrest

end Requests

section Built
variable {config : Config} {sers : List (Registration Serializer)} {des : List (Registration Deserializer)}
  {s : StaticComponents} {known : List Class} {fallbacks : Fallbacks} {r : Registry}

/-- A registry that has just been built over registrations whose codecs are still to be made has made none. -/
theorem tallied_of_build (hsers : ∀ x ∈ sers, x.isPending = true) (hdes : ∀ x ∈ des, x.isPending = true)
    (hs : StaticComponents.build sers des = .ok s) (hr : build config (.static s) known fallbacks = .ok r) :
    Tallied [] [] r := by
  obtain ⟨-, -, rfl⟩ := StaticComponents.build_eq_ok_iff.mp hs
  obtain ⟨-, index, -, rfl⟩ := build_eq_ok_iff.mp hr
  refine ⟨⟨_, rfl, .start hsers 0, .start hdes 0⟩, nofun, nofun, nofun, ?_, ?_⟩
  · rintro ty found hc name i rfl
    cases origin_serializer_assembled hc
  · rintro ty found hc name i rfl
    cases origin_deserializer_assembled hc

end Built

theorem findSerializer_refused {r : Registry} {s : StaticComponents} (hs : r.components = .static s)
    {ty : Descriptor} {e : CodecError} (h : (RegistryM.findSerializer ty r).1 = .error e) :
    (RegistryM.findSerializer ty r).2 = r := by
  rcases RegistryM.findSerializer_static hs ty with ⟨found, -, hf⟩ | ⟨e', hf⟩ | hf | ⟨p, i, c, rest, -, hf⟩
  · rw [hf]
  · rw [hf]
  · rw [hf] at h
    cases h
  · rw [hf] at h
    cases h

end Registry

/-- Over any requests to a registry whose registered codecs are still to be made: building it makes none; each
    is made at most once, and that if and only if a request is met with it; requests that are met with codecs
    of one name are met with one instance, and codecs of two names are two instances. A request that is
    refused changes nothing at all. -/
theorem madeOnce_of_build {config : Config} {sers : List (Registration Serializer)}
    {des : List (Registration Deserializer)} {s : StaticComponents} {known : List Class} {fallbacks : Fallbacks}
    {r : Registry} (hsers : ∀ x ∈ sers, x.isPending = true) (hdes : ∀ x ∈ des, x.isPending = true)
    (hs : StaticComponents.build sers des = .ok s) (hr : Registry.build config (.static s) known fallbacks = .ok r)
    (history : List Lookup) :
    r.components = .static ⟨sers, des, 0⟩ ∧
    (∃ t, (r.after history).components = .static t ∧ s.SameFaces t ∧
      MadeOnce (r.served Registry.serializerFor? history) t.serializers ∧
      MadeOnce (r.served Registry.deserializerFor? history) t.deserializers) ∧
    ∀ ty e, (RegistryM.findSerializer ty (r.after history)).1 = .error e →
      (RegistryM.findSerializer ty (r.after history)).2 = r.after history := by
  have htallied := (Registry.tallied_of_build hsers hdes hs hr).after history
  have hsettled := Registry.settled_of_build hr history
  obtain ⟨hn, hd, rfl⟩ := StaticComponents.build_eq_ok_iff.mp hs
  obtain ⟨t, ht, hw, hread⟩ := htallied.tallies
  obtain ⟨t', ht', hfaces⟩ := hsettled.components
  obtain rfl : t = t' := Components.static.inj (ht.symm.trans ht')
  have hwritten : (t.serializers.map (·.candidate.name)).Nodup :=
    Registration.names_of_faces hfaces.serializers ▸ hn
  have hlisted : (t.deserializers.map (·.candidate.name)).Nodup :=
    Registration.names_of_faces hfaces.deserializers ▸ hd
  refine ⟨hsettled.start, ⟨t, ht, hfaces, hw.madeOnce hwritten, hread.madeOnce hlisted⟩, ?_⟩
  intro ty e he
  exact Registry.findSerializer_refused ht he

def mixedSerializers : List (Registration Serializer) :=
  .pending "IntegerSer" (some (.boxed .int)) .bigInteger :: listSerializers

/-- Requests that `int` and `Integer` are written, then lists of strings, of integers and of longs, and that the
    latter two are read. -/
def mixedLookups : List Lookup :=
  [.serializer (.primitive .int), .serializer (.boxed .int), .serializer (.generic (.classType Class.list) [.string]),
    .serializer (.generic (.classType (.mk "ArrayList" [Class.list])) [.boxed .int]),
    .serializer (.generic (.classType Class.list) [.boxed .long]),
    .deserializer (.generic (.classType Class.list) [.boxed .int]),
    .deserializer (.generic (.classType Class.list) [.boxed .long])]

/-- The serializer for `Integer` writes `int` as well, and that for lists of whatever elements writes two types;
    both are made once. Lists of strings are refused, and so nothing is made for them. -/
theorem madeOnce_of_build_mixed :
    ∃ s r t, StaticComponents.build mixedSerializers listDeserializers = .ok s ∧
      Registry.build { Config.standard with selection := .mostSpecific } (.static s) [] .standard = .ok r ∧
      (∀ x ∈ mixedSerializers, x.isPending = true) ∧ (∀ x ∈ listDeserializers, x.isPending = true) ∧
      (r.served Registry.serializerFor? mixedLookups).map (·.origin) =
        [.registered "IntegerSer", .registered "IntegerSer", .registered "ListSer", .registered "ListSer"] ∧
      (r.after mixedLookups).components = .static t ∧ s.SameFaces t ∧
      MadeOnce (r.served Registry.serializerFor? mixedLookups) t.serializers ∧
      t.serializers.map (·.runs) = [1, 0, 0, 0, 1] ∧ t.deserializers.map (·.runs) = [0, 1, 0] ∧
      (RegistryM.findSerializer (.generic (.classType Class.list) [.string]) (r.after mixedLookups)).1 =
        .error (.ambiguousSerializer (.generic (.classType Class.list) [.string]) ["StringListSer", "ListSer"]) ∧
      (RegistryM.findSerializer (.generic (.classType Class.list) [.string]) (r.after mixedLookups)).2 =
        r.after mixedLookups := by
  have hs : StaticComponents.build mixedSerializers listDeserializers =
      .ok ⟨mixedSerializers, listDeserializers, 0⟩ := rfl
  have hr : Registry.build { Config.standard with selection := .mostSpecific }
      (.static ⟨mixedSerializers, listDeserializers, 0⟩) [] .standard = .ok _ := rfl
  have hsers : ∀ x ∈ mixedSerializers, x.isPending = true := by decide
  have hdes : ∀ x ∈ listDeserializers, x.isPending = true := by decide
  obtain ⟨-, ⟨t, ht, hfaces, hmade, -⟩, hrefused⟩ := madeOnce_of_build hsers hdes hs hr mixedLookups
  obtain rfl := Components.static.inj ht
  exact ⟨_, _, _, hs, hr, hsers, hdes, rfl, ht, hfaces, hmade, rfl, rfl, rfl, hrefused _ _ rfl⟩

end TypedWire
