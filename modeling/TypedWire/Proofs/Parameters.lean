import Mathlib.Data.List.Nodup
import TypedWire.Proofs.BuiltIns

/-! # The parameters of a codec that is chosen

A registered codec serves a type with parameters only if its declared parameters accept them. One that is no
variable accepts by its raw type: the parameters that it has itself are not compared. So a codec that is
declared without variables is chosen for types whose parameters have the raw types of its own, and these
need agree no further. -/

namespace TypedWire

namespace Descriptor

mutual
/-- No variable at any depth. -/
def isClosed : Descriptor → Bool
  | mk _ params variableName? => variableName?.isNone && areClosed params

def areClosed : List Descriptor → Bool
  | [] => true
  | p :: ps => isClosed p && areClosed ps
end

section Parameters
variable {d wanted : Descriptor} {ps qs : List Descriptor}

theorem not_isVariable_of_isClosed (h : d.isClosed = true) : d.isVariable = false := by
  obtain ⟨raw, params, variableName?⟩ := d
  simp only [isClosed, Bool.and_eq_true] at h
  simpa [isVariable, Descriptor.variableName?] using h.1

/-- A declared parameter that is no variable serves those of its own raw type. -/
theorem raw_eq_of_serves (hd : d.isVariable = false) (h : d.serves wanted = true) : d.raw = wanted.raw := by
  simpa [serves, hd] using h

theorem map_raw_eq_of_serve (hclosed : areClosed ps = true) (hlen : ps.length = qs.length)
    (h : ∀ pq ∈ ps.zip qs, pq.1.serves pq.2 = true) : ps.map raw = qs.map raw := by
  induction ps generalizing qs with
  | nil =>
    cases qs with
    | nil => rfl
    | cons q qs => cases hlen
  | cons p ps ih =>
    cases qs with
    | nil => cases hlen
    | cons q qs =>
      simp only [areClosed, Bool.and_eq_true] at hclosed
      have hp := raw_eq_of_serves (not_isVariable_of_isClosed hclosed.1) (h (p, q) List.mem_cons_self)
      rw [List.map_cons, List.map_cons, hp,
        ih hclosed.2 (Nat.succ.inj hlen) fun pq hpq => h pq (List.mem_cons_of_mem (p, q) hpq)]

theorem map_raw_eq_of_paramsAccept (hclosed : areClosed d.params = true) (h : d.paramsAccept wanted = true) :
    d.params.map raw = wanted.params.map raw := by
  rw [paramsAccept, Bool.and_eq_true, beq_iff_eq, List.all_eq_true] at h
  exact map_raw_eq_of_serve hclosed h.1 h.2

/-- Lists with the same raw types are equal as keys if and only if what stands in each place has parameters
    that are. -/
theorem sameList_iff_of_map_raw (h : ps.map raw = qs.map raw) :
    sameList ps qs = true ↔ ∀ pq ∈ ps.zip qs, sameList pq.1.params pq.2.params = true := by
  induction ps generalizing qs with
  | nil =>
    cases qs with
    | nil => simp [sameList]
    | cons q qs => cases h
  | cons p ps ih =>
    cases qs with
    | nil => cases h
    | cons q qs =>
      obtain ⟨hraw, hrest⟩ := List.cons.inj h
      have hsame : same p q = sameList p.params q.params := by
        obtain ⟨r, params, v⟩ := p
        obtain ⟨r', params', v'⟩ := q
        obtain rfl : r = r' := hraw
        simp [same, Descriptor.params]
      rw [sameList, Bool.and_eq_true, hsame, ih hrest, List.zip_cons_cons, List.forall_mem_cons]

theorem sameList_params_of_beq (h : (d == wanted) = true) : sameList d.params wanted.params = true := by
  obtain ⟨r, params, v⟩ := d
  obtain ⟨r', params', v'⟩ := wanted
  have hsame : same (mk r params v) (mk r' params' v') = true := h
  rw [same, Bool.and_eq_true] at hsame
  exact hsame.2

end Parameters

end Descriptor

/-! ### Which registration an answer comes from -/

theorem accepts_of_registeredFor {selection : BucketSelection} {all : List (Registration Serializer)}
    {ty : Descriptor} {x : Registration Serializer} (h : registeredFor selection all ty = .ok (some x))
    (hty : ty.hasParams = true) : x.candidate.declared.any (·.paramsAccept ty) = true := by
  unfold registeredFor at h
  split at h
  · cases h
  · rename_i found hf
    split at h
    · cases h
    · rename_i only ho
      obtain rfl : only = x := Option.some.inj (Except.ok.inj h)
      have hm : only ∈ found.filter fun x => !ty.hasParams || x.candidate.declared.any (·.paramsAccept ty) :=
        ho ▸ List.mem_singleton_self only
      simpa [hty] using (List.mem_filter.mp hm).2
    · cases h

theorem StaticComponents.of_readingFace? {ty : Descriptor} {faces : List (Candidate × Deserializer)}
    {f : Candidate × Deserializer} (h : readingFace? ty faces = some f) :
    f ∈ faces ∧ (isDeclaredFor ty f.1 = true ∨
      (∀ g ∈ faces, isDeclaredFor ty g.1 = false) ∧ acceptsParamsOf ty f.1 = true) := by
  unfold readingFace? at h
  split at h
  · have hdeclared := List.find?_some h
    exact ⟨List.mem_of_find?_eq_some h, Or.inl hdeclared⟩
  · rename_i hnone
    split at h
    · have haccepts := List.find?_some h
      refine ⟨List.mem_of_find?_eq_some h, Or.inr ⟨fun g hg => ?_, haccepts⟩⟩
      simp only [List.any_eq_true, not_exists, not_and] at hnone
      exact Bool.eq_false_iff.mpr (hnone g hg)
    · cases h

namespace Registry

section Built
variable {config : Config} {sers : List (Registration Serializer)} {des : List (Registration Deserializer)}
  {s : StaticComponents} {known : List Class} {fallbacks : Fallbacks} {r : Registry} {ty : Descriptor}
  {name : String} (hs : StaticComponents.build sers des = .ok s)
  (hr : build config (.static s) known fallbacks = .ok r)
include hs hr

/-- A registry that has just been built gives a registered serializer for the registration that the rule
    chooses. -/
theorem registeredFor_of_answer {a : Answer Serializer} (h : r.serializerAnswer ty = .ok a)
    (ho : a.origin = .registered name) :
    ∃ x ∈ sers, registeredFor config.selection sers ty = .ok (some x) ∧ x.candidate.name = name := by
  obtain ⟨-, -, rfl⟩ := StaticComponents.build_eq_ok_iff.mp hs
  obtain ⟨-, index, hi, rfl⟩ := build_eq_ok_iff.mp hr
  cases hc : Cache.find? ty
      (assemble config (.static ⟨sers, des, 0⟩) known index fallbacks).serializers with
  | some found =>
    rw [serializerAnswer_hit hc] at h
    obtain rfl := Except.ok.inj h
    rw [show found.answer.origin = .builtIn from origin_serializer_assembled hc] at ho
    cases ho
  | none =>
    have hchoice := chooseSerializer_eq_registeredFor
      (r := assemble config (.static ⟨sers, des, 0⟩) known index fallbacks) (Index.build_eq_ok_iff.mp hi).1 ty
    rw [serializerAnswer_miss rfl hc, hchoice] at h
    change ((registeredFor config.selection sers ty).map _).bind _ = _ at h
    cases hreg : registeredFor config.selection sers ty with
    | error e =>
      rw [hreg] at h
      cases h
    | ok chosen =>
      rw [hreg] at h
      cases chosen with
      | none =>
        obtain rfl := Except.ok.inj h
        cases ho
      | some x =>
        simp only [Except.map, Except.bind, Option.map_some] at h
        split at h
        · obtain rfl := Except.ok.inj h
          exact ⟨x, mem_of_registeredFor hreg, rfl, Origin.registered.inj ho⟩
        · cases h

/-- It gives a registered deserializer for the registration that reads the type. -/
theorem readingFace?_of_answer {a : Answer Deserializer} (h : r.deserializerAnswer ty = .ok a)
    (ho : a.origin = .registered name) :
    ∃ x ∈ des, StaticComponents.readingFace? ty (des.map Registration.face) = some x.face ∧
      x.candidate.name = name := by
  obtain ⟨-, -, rfl⟩ := StaticComponents.build_eq_ok_iff.mp hs
  obtain ⟨-, index, -, rfl⟩ := build_eq_ok_iff.mp hr
  cases hc : Cache.find? ty
      (assemble config (.static ⟨sers, des, 0⟩) known index fallbacks).deserializers with
  | some found =>
    rw [deserializerAnswer_hit hc] at h
    obtain rfl := Except.ok.inj h
    rw [show found.answer.origin = .builtIn from origin_deserializer_assembled hc] at ho
    cases ho
  | none =>
    rw [deserializerAnswer_miss (s := ⟨sers, des, 0⟩) rfl hc] at h
    obtain rfl := Except.ok.inj h
    cases hf : StaticComponents.readingFace? ty (des.map Registration.face) with
    | none =>
      simp only [hf] at ho
      cases hty : ty.isArray <;> rw [hty] at ho <;> cases ho
    | some f =>
      obtain ⟨hmem, -⟩ := StaticComponents.of_readingFace? hf
      obtain ⟨x, hx, rfl⟩ := List.mem_map.mp hmem
      simp only [hf] at ho
      exact ⟨x, hx, rfl, Origin.registered.inj ho⟩

end Built

open Descriptor in
/-- A registered codec that is declared without variables is chosen for a type with parameters only if the
    declared parameters have the raw types of those, place by place; they are equal as keys if and only if
    their own parameters are. A deserializer that is declared for the very type comes before any other, also
    before one that is declared with variables. -/
theorem params_of_registered {config : Config} {sers : List (Registration Serializer)}
    {des : List (Registration Deserializer)} {s : StaticComponents} {known : List Class} {fallbacks : Fallbacks}
    {r : Registry} (hs : StaticComponents.build sers des = .ok s)
    (hr : build config (.static s) known fallbacks = .ok r) (history : List Lookup) {ty : Descriptor}
    (hty : ty.hasParams = true) :
    (∀ a, (r.after history).serializerAnswer ty = .ok a →
      ∀ x ∈ sers, a.origin = .registered x.candidate.name → ∀ d, x.candidate.declared = some d →
        areClosed d.params = true →
          d.params.map raw = ty.params.map raw ∧
          (sameList d.params ty.params = true ↔
            ∀ pq ∈ d.params.zip ty.params, sameList pq.1.params pq.2.params = true)) ∧
    (∀ a, (r.after history).deserializerAnswer ty = .ok a →
      ∀ x ∈ des, a.origin = .registered x.candidate.name → ∀ d, x.candidate.declared = some d →
        (areClosed d.params = true →
          d.params.map raw = ty.params.map raw ∧
          (sameList d.params ty.params = true ↔
            ∀ pq ∈ d.params.zip ty.params, sameList pq.1.params pq.2.params = true)) ∧
        ((∃ y ∈ des, ∃ e, y.candidate.declared = some e ∧ (e == ty) = true) →
          sameList d.params ty.params = true)) := by
  obtain ⟨hn, hd, -⟩ := StaticComponents.build_eq_ok_iff.mp hs
  have hsettled := settled_of_build hr history
  constructor
  · intro a ha x hx ho d hdeclared hclosed
    rw [hsettled.serializerAnswer_eq] at ha
    obtain ⟨y, hy, hreg, hname⟩ := registeredFor_of_answer hs hr ha ho
    obtain rfl := List.inj_on_of_nodup_map hn hy hx hname
    have haccepts := accepts_of_registeredFor hreg hty
    rw [hdeclared] at haccepts
    have hraw := map_raw_eq_of_paramsAccept hclosed haccepts
    exact ⟨hraw, sameList_iff_of_map_raw hraw⟩
  · intro a ha x hx ho d hdeclared
    rw [hsettled.deserializerAnswer_eq] at ha
    obtain ⟨y, hy, hface, hname⟩ := readingFace?_of_answer hs hr ha ho
    obtain rfl := List.inj_on_of_nodup_map hd hy hx hname
    obtain ⟨-, hexact | ⟨hnone, haccepts⟩⟩ := StaticComponents.of_readingFace? hface
    · have hkey : (d == ty) = true := by
        simpa [StaticComponents.isDeclaredFor, Registration.face, hdeclared] using hexact
      have hraw := map_raw_params_congr hkey
      exact ⟨fun _ => ⟨hraw, sameList_iff_of_map_raw hraw⟩, fun _ => sameList_params_of_beq hkey⟩
    · simp only [StaticComponents.acceptsParamsOf, Registration.face, hdeclared, Option.any_some,
        Bool.and_eq_true] at haccepts
      constructor
      · intro hclosed
        have hraw := map_raw_eq_of_paramsAccept hclosed haccepts.2
        exact ⟨hraw, sameList_iff_of_map_raw hraw⟩
      · -- the search for the very type has found nothing, so no deserializer is declared for it
        rintro ⟨z, hz, e, he, hkey⟩
        have hz' := hnone z.face (List.mem_map_of_mem hz)
        simp [StaticComponents.isDeclaredFor, Registration.face, he, hkey] at hz'

/-! ### Lists of lists -/

def listOf (d : Descriptor) : Descriptor :=
  .generic (.classType Class.list) [d]

def listsSerializers : List (Registration Serializer) :=
  [.pending "StringListsSer" (some (listOf (listOf .string))) .elements,
    .pending "StringsSer" (some (listOf .string)) .elements]

def listsDeserializers : List (Registration Deserializer) :=
  [.pending "StringListsDe" (some (listOf (listOf .string))) (.plain .elements),
    .pending "StringsDe" (some (listOf .string)) (.plain .elements)]

/-- A request for lists of a variable below `String` gets the codecs for lists of strings. -/
theorem params_of_registered_strings :
    ∃ s r, StaticComponents.build listsSerializers listsDeserializers = .ok s ∧
      build .standard (.static s) [] .standard = .ok r ∧ (listOf (.ofVariable "T" .string)).hasParams = true ∧
      (r.after [.serializer (listOf (listOf .string))]).serializerAnswer (listOf (.ofVariable "T" .string)) =
        .ok ⟨.registered "StringsSer", .elements, none⟩ ∧
      (r.after [.serializer (listOf (listOf .string))]).deserializerAnswer (listOf (.ofVariable "T" .string)) =
        .ok ⟨.registered "StringsDe", .plain .elements, none⟩ ∧
      (listOf .string).params.map Descriptor.raw = (listOf (.ofVariable "T" .string)).params.map Descriptor.raw ∧
      Descriptor.sameList (listOf .string).params (listOf (.ofVariable "T" .string)).params = true := by
  have hs : StaticComponents.build listsSerializers listsDeserializers =
      .ok ⟨listsSerializers, listsDeserializers, 0⟩ := rfl
  have hr : build .standard (.static ⟨listsSerializers, listsDeserializers, 0⟩) [] .standard = .ok _ := rfl
  obtain ⟨hser, hde⟩ := params_of_registered hs hr [.serializer (listOf (listOf .string))]
    (show (listOf (.ofVariable "T" .string)).hasParams = true from rfl)
  obtain ⟨hraw, -⟩ := hser ⟨.registered "StringsSer", .elements, none⟩ rfl
    (.pending "StringsSer" (some (listOf .string)) .elements) (by simp [listsSerializers]) rfl _ rfl rfl
  obtain ⟨-, hexact⟩ := hde ⟨.registered "StringsDe", .plain .elements, none⟩ rfl
    (.pending "StringsDe" (some (listOf .string)) (.plain .elements)) (by simp [listsDeserializers]) rfl _ rfl
  refine ⟨_, _, hs, hr, rfl, rfl, rfl, hraw, hexact ?_⟩
  exact ⟨.pending "StringsDe" (some (listOf .string)) (.plain .elements), by simp [listsDeserializers], _, rfl, by decide⟩

/-- Codecs for lists of lists of strings are chosen for lists of lists of integers. -/
theorem answers_of_integerLists :
    ∃ s r, StaticComponents.build listsSerializers listsDeserializers = .ok s ∧
      build .standard (.static s) [] .standard = .ok r ∧
      (listOf (listOf .string)).isClosed = true ∧
      r.serializerAnswer (listOf (listOf (.boxed .int))) = .ok ⟨.registered "StringListsSer", .elements, none⟩ ∧
      r.deserializerAnswer (listOf (listOf (.boxed .int))) =
        .ok ⟨.registered "StringListsDe", .plain .elements, none⟩ ∧
      Descriptor.sameList (listOf (listOf .string)).params (listOf (listOf (.boxed .int))).params = false := by
  have hs : StaticComponents.build listsSerializers listsDeserializers =
      .ok ⟨listsSerializers, listsDeserializers, 0⟩ := rfl
  have hr : build .standard (.static ⟨listsSerializers, listsDeserializers, 0⟩) [] .standard = .ok _ := rfl
  exact ⟨_, _, hs, hr, rfl, rfl, rfl, rfl⟩

end Registry

end TypedWire
