import TypedWire.Session

/-! # Runs of actions

Registries, encoders, decoders and sessions are driven by one kind of action: it may fail, and its state
stays. These lemmas run such an action step by step. -/

namespace TypedWire

section Runs
variable {σ α β : Type} {x : ExceptT CodecError (StateM σ) α} {f : α → ExceptT CodecError (StateM σ) β}
  {s s' : σ} {a : α} {e : CodecError}

theorem run_bind_ok (h : x s = (.ok a, s')) : (x >>= f) s = f a s' := by
  simp only [bind, ExceptT.bind, ExceptT.mk, StateT.bind, h]
  rfl

theorem run_bind_error (h : x s = (.error e, s')) : (x >>= f) s = (.error e, s') := by
  simp only [bind, ExceptT.bind, ExceptT.mk, StateT.bind, h]
  rfl

theorem run_pure (a : α) (s : σ) : (pure a : ExceptT CodecError (StateM σ) α) s = (.ok a, s) :=
  rfl

theorem run_map_ok {g : α → β} (h : x s = (.ok a, s')) : (g <$> x) s = (.ok (g a), s') := by
  rw [map_eq_pure_bind, run_bind_ok h]
  rfl

theorem run_map_error {g : α → β} (h : x s = (.error e, s')) : (g <$> x) s = (.error e, s') := by
  rw [map_eq_pure_bind, run_bind_error h]

/-- An action gives a result where it starts; and where that is no error, the state afterwards is as `post`
    says. -/
def Gives (x : ExceptT CodecError (StateM σ) α) (s : σ) (result : Except CodecError α) (post : σ → Prop) : Prop :=
  ∃ s', x s = (result, s') ∧ ∀ a, result = .ok a → post s'

variable {result : Except CodecError α} {mid post : σ → Prop}

theorem Gives.of_eq (h : x s = (result, s')) (hpost : ∀ a, result = .ok a → post s') : Gives x s result post :=
  ⟨s', h, hpost⟩

theorem Gives.pure (h : post s) : Gives (pure a) s (.ok a) post :=
  ⟨s, rfl, fun _ _ => h⟩

theorem Gives.throw : Gives (throw e : ExceptT CodecError (StateM σ) α) s (.error e) post :=
  ⟨s, rfl, nofun⟩

theorem Gives.bind {g : α → Except CodecError β} {post : σ → Prop} (hx : Gives x s result mid)
    (hf : ∀ a s', result = .ok a → mid s' → Gives (f a) s' (g a) post) : Gives (x >>= f) s (result.bind g) post := by
  obtain ⟨s', hrun, hmid⟩ := hx
  cases result with
  | error e => exact ⟨s', run_bind_error hrun, nofun⟩
  | ok a =>
    obtain ⟨s'', hrest, hpost⟩ := hf a s' rfl (hmid a rfl)
    exact ⟨s'', (run_bind_ok hrun).trans hrest, hpost⟩

theorem Gives.bindMap {g : α → β} {post : σ → Prop} (hx : Gives x s result mid)
    (hf : ∀ a s', mid s' → Gives (f a) s' (.ok (g a)) post) : Gives (x >>= f) s (result.map g) post := by
  have hbind : result.map g = result.bind fun a => .ok (g a) := by cases result <;> rfl
  rw [hbind]
  exact hx.bind fun a s' _ => hf a s'

theorem Gives.after {result : Except CodecError β} {post : σ → Prop} (h : x s = (.ok a, s'))
    (hf : Gives (f a) s' result post) : Gives (x >>= f) s result post := by
  obtain ⟨s'', hrest, hpost⟩ := hf
  exact ⟨s'', (run_bind_ok h).trans hrest, hpost⟩

theorem Gives.andThen {result : Except CodecError β} {post : σ → Prop} (hx : Gives x s (.ok a) mid)
    (hf : ∀ s', mid s' → Gives (f a) s' result post) : Gives (x >>= f) s result post := by
  obtain ⟨s', hrun, hmid⟩ := hx
  exact .after hrun (hf s' (hmid a rfl))

theorem Gives.map {g : α → β} (hx : Gives x s result post) : Gives (g <$> x) s (result.map g) post := by
  obtain ⟨s', hrun, hpost⟩ := hx
  cases result with
  | error e => exact ⟨s', run_map_error hrun, nofun⟩
  | ok a => exact ⟨s', run_map_ok hrun, fun _ _ => hpost a rfl⟩

end Runs

namespace SessionM
variable {S α : Type}

theorem run_ask {question : RegistryM α} {r r' : Registry} {answer : Except CodecError α}
    (h : question r = (answer, r')) (stream : S) :
    (ask question : SessionM S α) ⟨r, stream⟩ = (answer, ⟨r', stream⟩) := by
  simp only [ask, h]

theorem run_drive {action : ExceptT CodecError (StateM S) α} {stream stream' : S} {answer : Except CodecError α}
    (h : action stream = (answer, stream')) (r : Registry) :
    drive action ⟨r, stream⟩ = (answer, ⟨r, stream'⟩) := by
  simp only [drive, h]

/-- What drives the stream leaves the registry alone. -/
theorem gives_drive {action : ExceptT CodecError (StateM S) α} {stream : S} {result : Except CodecError α}
    {post : S → Prop} (h : Gives action stream result post) (r : Registry) :
    Gives (drive action) ⟨r, stream⟩ result fun s => s.registry = r ∧ post s.stream := by
  obtain ⟨stream', hrun, hpost⟩ := h
  exact ⟨⟨r, stream'⟩, run_drive hrun r, fun a ha => ⟨rfl, hpost a ha⟩⟩

theorem run_within {work : SessionM S α} {stream stream' : S} {r r' : Registry} {answer : Except CodecError α}
    (h : work ⟨r, stream⟩ = (answer, ⟨r', stream'⟩)) : within stream work r = (answer, r') := by
  simp only [within, h]

end SessionM

end TypedWire
