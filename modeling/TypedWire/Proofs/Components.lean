import TypedWire.Component

/-! # What the making of codecs leaves as it is

A registration makes its codec when it is used for the first time and keeps it. Whether that has happened
or not, it stands for the same candidate and the same codec: its *face*. Components choose among
registrations by their candidates alone, so what comes of a choice can be read off the faces, and no use
changes them. -/

namespace TypedWire

namespace Registration
variable {C : Type}

/-- The codec of a registration, made already or still to be made. -/
def product (x : Registration C) : C :=
  match x.inst with
  | some i => i.codec
  | none => x.make

def face (x : Registration C) : Candidate × C :=
  (x.candidate, x.product)

theorem codec_use (fresh : Nat) (x : Registration C) : (x.use fresh).1.codec = x.product := by
  unfold use product
  cases x.inst <;> rfl

theorem face_use (fresh : Nat) (x : Registration C) : (x.use fresh).2.face = x.face := by
  unfold use face product
  cases h : x.inst <;> simp [h]

theorem candidate_use (fresh : Nat) (x : Registration C) : (x.use fresh).2.candidate = x.candidate :=
  congrArg Prod.fst (face_use fresh x)

variable {regs : List (Registration C)} {fresh : Nat}

theorem map_useFirst (q : Candidate → Bool) (fresh : Nat) (regs : List (Registration C)) :
    (useFirst fresh (fun x => q x.candidate) regs).map (fun f => (f.2.1, f.1.codec)) =
      (regs.map face).find? fun f => q f.1 := by
  induction regs with
  | nil => rfl
  | cons x xs ih =>
    rw [List.map_cons, List.find?_cons]
    by_cases hq : q x.candidate = true
    · have hc := candidate_use fresh x
      have hp := codec_use fresh x
      simp only [useFirst, hq, if_true, Option.map_some, hc, hp]
      simp [face, hq]
    · simp only [useFirst, hq]
      rw [← ih]
      simp [face, hq, Function.comp_def]

/-- The registration that is used stays where it stands, and holds its codec from then on. -/
theorem useFirst_eq_some {p : Registration C → Bool} {i : Instance C} {c : Candidate} {rest : List (Registration C)}
    (h : useFirst fresh p regs = some (i, c, rest)) :
    ∃ before x after, regs = before ++ x :: after ∧ p x = true ∧ i = (x.use fresh).1 ∧ c = x.candidate ∧
      rest = before ++ (x.use fresh).2 :: after := by
  induction regs generalizing rest with
  | nil => cases h
  | cons x xs ih =>
    unfold useFirst at h
    split at h
    · rename_i hp
      obtain ⟨rfl, rfl, rfl⟩ : _ ∧ _ ∧ _ := by simpa using h
      exact ⟨[], x, xs, rfl, hp, rfl, candidate_use fresh x, rfl⟩
    · obtain ⟨⟨i', c', rest'⟩, hxs, he⟩ := Option.map_eq_some_iff.mp h
      obtain ⟨rfl, rfl, rfl⟩ : _ ∧ _ ∧ _ := by simpa using he
      obtain ⟨before, y, after, rfl, hp, hi, hc, rfl⟩ := ih hxs
      exact ⟨x :: before, y, after, rfl, hp, hi, hc, rfl⟩

theorem faces_useFirst {p : Registration C → Bool} {i : Instance C} {c : Candidate} {rest : List (Registration C)}
    (h : useFirst fresh p regs = some (i, c, rest)) : rest.map face = regs.map face := by
  obtain ⟨before, x, after, rfl, -, -, -, rfl⟩ := useFirst_eq_some h
  rw [List.map_append, List.map_append, List.map_cons, List.map_cons, face_use]

theorem names_of_faces {regs' : List (Registration C)} (h : regs'.map face = regs.map face) :
    regs'.map (·.candidate.name) = regs.map (·.candidate.name) := by
  have hnames := congrArg (List.map fun f => f.1.name) h
  rwa [List.map_map, List.map_map] at hnames

end Registration

/-! ### Components with the same faces -/

namespace StaticComponents

/-- Components that stand for the same codecs, whichever of them have been made. -/
structure SameFaces (s t : StaticComponents) : Prop where
  serializers : t.serializers.map Registration.face = s.serializers.map Registration.face
  deserializers : t.deserializers.map Registration.face = s.deserializers.map Registration.face

theorem SameFaces.refl (s : StaticComponents) : s.SameFaces s :=
  ⟨rfl, rfl⟩

theorem SameFaces.trans {s t u : StaticComponents} (h : s.SameFaces t) (h' : t.SameFaces u) : s.SameFaces u :=
  ⟨h'.serializers.trans h.serializers, h'.deserializers.trans h.deserializers⟩

section Use
variable (s : StaticComponents) (c : Candidate) (ty : Descriptor)

theorem codec_instantiate : (s.instantiate c).1.map (·.codec) =
    match (s.serializers.map Registration.face).find? fun f => f.1.name = c.name with
    | some f => .ok f.2
    | none => .error (.instantiation c.name "not registered with this component registry") := by
  rw [← Registration.map_useFirst (fun x => decide (x.name = c.name)) s.fresh]
  unfold instantiate
  cases Registration.useFirst s.fresh (fun x => decide (x.candidate.name = c.name)) s.serializers <;> rfl

/-- Creating a candidate uses the registration of its name, or fails and changes nothing. -/
theorem instantiate_cases : (∃ reason, s.instantiate c = (.error (.instantiation c.name reason), s)) ∨
    ∃ p i c' rest, Registration.useFirst s.fresh p s.serializers = some (i, c', rest) ∧ c'.name = c.name ∧
      s.instantiate c = (.ok i, { s with serializers := rest, fresh := s.fresh + 1 }) := by
  unfold instantiate
  cases hu : Registration.useFirst s.fresh (fun x => decide (x.candidate.name = c.name)) s.serializers with
  | none => exact Or.inl ⟨_, rfl⟩
  | some used =>
    obtain ⟨i, c', rest⟩ := used
    obtain ⟨before, x, after, -, hname, -, rfl, -⟩ := Registration.useFirst_eq_some hu
    exact Or.inr ⟨_, i, x.candidate, rest, hu, of_decide_eq_true hname, rfl⟩

def isDeclaredFor (c : Candidate) : Bool :=
  c.declared.any (· == ty)

/-- Whether a candidate is declared with parameters for the raw type and accepts those of the type. -/
def acceptsParamsOf (c : Candidate) : Bool :=
  c.declared.any fun d => d.raw == ty.raw && d.hasParams && d.paramsAccept ty

/-- The face that reads a type: the first that is declared for it, else the only one whose parameters
    accept it. -/
def readingFace? (faces : List (Candidate × Deserializer)) : Option (Candidate × Deserializer) :=
  if faces.any fun f => isDeclaredFor ty f.1 then faces.find? fun f => isDeclaredFor ty f.1
  else if faces.countP (fun f => acceptsParamsOf ty f.1) = 1 then faces.find? fun f => acceptsParamsOf ty f.1
  else none

/-- The registration that is used for a type: the instance, the candidate and what stands then. -/
def used? : Option (Instance Deserializer × Candidate × List (Registration Deserializer)) :=
  if s.deserializers.any (declares ty) then Registration.useFirst s.fresh (declares ty) s.deserializers
  else if s.deserializers.countP (acceptsParams ty) = 1 then
    Registration.useFirst s.fresh (acceptsParams ty) s.deserializers
  else none

theorem findDeserializer_eq : s.findDeserializer ty =
    match s.used? ty with
    | some (i, c, rest) => (some ⟨.registered c.name, i⟩, { s with deserializers := rest, fresh := s.fresh + 1 })
    | none => (none, s) :=
  rfl

theorem map_used? : (s.used? ty).map (fun f => (f.2.1, f.1.codec)) =
    readingFace? ty (s.deserializers.map Registration.face) := by
  unfold used? readingFace?
  rw [List.any_map, List.countP_map]
  change _ = if s.deserializers.any (declares ty) = true then _
    else if s.deserializers.countP (acceptsParams ty) = 1 then _ else none
  split
  · exact Registration.map_useFirst (isDeclaredFor ty) s.fresh s.deserializers
  · split
    · exact Registration.map_useFirst (acceptsParamsOf ty) s.fresh s.deserializers
    · rfl

theorem findDeserializer_face : (s.findDeserializer ty).1.map (fun d => (d.origin, d.codec)) =
    (readingFace? ty (s.deserializers.map Registration.face)).map fun f => (.registered f.1.name, f.2) := by
  rw [findDeserializer_eq, ← map_used?, Option.map_map]
  cases s.used? ty <;> rfl

/-- Finding a deserializer uses one of the registrations, or there is none to use and nothing changes. -/
theorem findDeserializer_cases : s.findDeserializer ty = (none, s) ∨
    ∃ p i c rest, Registration.useFirst s.fresh p s.deserializers = some (i, c, rest) ∧
      s.findDeserializer ty =
        (some ⟨.registered c.name, i⟩, { s with deserializers := rest, fresh := s.fresh + 1 }) := by
  rw [findDeserializer_eq]
  cases hu : s.used? ty with
  | none => exact Or.inl rfl
  | some used =>
    obtain ⟨i, c, rest⟩ := used
    refine Or.inr ?_
    unfold used? at hu
    split at hu
    · exact ⟨_, i, c, rest, hu, rfl⟩
    · split at hu
      · exact ⟨_, i, c, rest, hu, rfl⟩
      · cases hu

end Use

end StaticComponents

end TypedWire
