import TypedWire.Index
import TypedWire.Proofs.FirstOccurrences

/-! # The index as filters of the candidate list

Indexing puts each candidate into one bucket or two, one after the other. What comes out is said here
without the loop: a bucket is the sub-list of the candidates that belong there, a raw type without such
candidates has no bucket, and the buckets stand in the order in which their raw types first occur. -/

namespace TypedWire

/-! ### Where a candidate belongs -/

/-- The raw types under which a candidate is indexed: its own, and the unboxed one before it. A candidate
    for plain `Object` belongs nowhere. -/
def Candidate.places (c : Candidate) : List RawType :=
  match c.declared with
  | none => []
  | some d => if d.isAnyObject then [] else d.raw.unboxed?.toList ++ [d.raw]

theorem Candidate.mem_places {c : Candidate} {raw : RawType} :
    raw ∈ c.places ↔
      ∃ d, c.declared = some d ∧ d.isAnyObject = false ∧ (d.raw = raw ∨ d.raw.unboxed? = some raw) := by
  unfold places
  cases hd : c.declared with
  | none => simp
  | some d =>
    by_cases ho : d.isAnyObject
    · simp [ho]
    · simp only [if_neg ho, List.mem_append, Option.mem_toList, List.mem_singleton]
      constructor
      · rintro (hu | rfl)
        · exact ⟨d, rfl, by simpa using ho, Or.inr hu⟩
        · exact ⟨d, rfl, by simpa using ho, Or.inl rfl⟩
      · rintro ⟨d', hd', -, hr | hu⟩
        · exact Or.inr (by rw [← hr, Option.some.inj hd'])
        · exact Or.inl (by rwa [Option.some.inj hd'])

theorem RawType.unboxed?_ne_self (t : RawType) : t.unboxed? ≠ some t := by
  cases t <;> simp [unboxed?]

theorem Candidate.nodup_places (c : Candidate) : c.places.Nodup := by
  unfold places
  split
  · exact List.nodup_nil
  · rename_i d _
    split
    · exact List.nodup_nil
    · have := d.raw.unboxed?_ne_self
      cases hu : d.raw.unboxed? with
      | none => simp
      | some u => simpa [hu] using this

/-- Each candidate with each raw type under which it is indexed, in the order of indexing. -/
def placements (cs : List Candidate) : List (RawType × Candidate) :=
  cs.flatMap fun c => c.places.map fun raw => (raw, c)

theorem placements_fst (cs : List Candidate) : (placements cs).map Prod.fst = cs.flatMap Candidate.places := by
  simp [placements, List.map_flatMap, Function.comp_def]

theorem placements_under (cs : List Candidate) (raw : RawType) :
    ((placements cs).filter (·.1 == raw)).map Prod.snd = cs.filter fun c => c.places.contains raw := by
  induction cs with
  | nil => rfl
  | cons c cs ih =>
    have single : ((c.places.map fun r => (r, c)).filter (·.1 == raw)).map Prod.snd =
        if c.places.contains raw then [c] else [] := by
      rw [List.filter_map, List.map_map]
      have hc : (c.places.filter fun r => r == raw).length = c.places.count raw := by
        rw [List.count_eq_countP, List.countP_eq_length_filter]
      have hr : (c.places.filter fun r => r == raw).map (fun _ => c) =
          List.replicate (c.places.count raw) c := by
        rw [List.map_const', hc]
      have := c.nodup_places.count (a := raw)
      by_cases hm : raw ∈ c.places
      · simpa [Function.comp_def, hm, this] using hr
      · simpa [Function.comp_def, hm, this] using hr
    rw [placements, List.flatMap_cons, List.filter_append, List.map_append, single]
    rw [placements] at ih
    rw [ih, List.filter_cons]
    split <;> rfl

/-! ### What indexing makes of the candidates -/

namespace Buckets

def keys (bs : Buckets) : List RawType := bs.map Prod.fst

@[simp] theorem find?_nil (raw : RawType) : find? raw [] = none := rfl

theorem find?_cons (raw k : RawType) (cs : List Candidate) (bs : Buckets) :
    find? raw ((k, cs) :: bs) = if k = raw then some cs else find? raw bs := by
  unfold find?
  by_cases h : k = raw
  · simp [h]
  · have hb : (raw == k) = false := by simpa using Ne.symm h
    simp [List.lookup_cons, hb, h]

theorem find?_add (raw r : RawType) (c : Candidate) (bs : Buckets) :
    find? raw (add r c bs) = if r = raw then some ((find? raw bs).getD [] ++ [c]) else find? raw bs := by
  induction bs with
  | nil => simp [add, find?_cons]
  | cons b rest ih =>
    obtain ⟨k, cs⟩ := b
    by_cases hk : k = r
    · subst hk
      by_cases h : k = raw <;> simp [add, find?_cons, h]
    · by_cases h : k = raw
      · subst h
        simp [add, hk, find?_cons, Ne.symm hk]
      · simp [add, hk, find?_cons, h, ih]

theorem keys_add (r : RawType) (c : Candidate) (bs : Buckets) :
    keys (add r c bs) = if (keys bs).contains r then keys bs else keys bs ++ [r] := by
  induction bs with
  | nil => simp [add, keys]
  | cons b rest ih =>
    obtain ⟨k, cs⟩ := b
    unfold keys at ih ⊢
    by_cases hk : k = r
    · simp [add, hk]
    · by_cases hr : r ∈ rest.map Prod.fst
      · simpa [add, hk, hr] using ih
      · simpa [add, hk, Ne.symm hk, hr] using ih

theorem find?_of_mem {raw : RawType} {cs : List Candidate} {bs : Buckets} (hk : (keys bs).Nodup)
    (hb : (raw, cs) ∈ bs) : find? raw bs = some cs := by
  induction bs with
  | nil => simp at hb
  | cons b rest ih =>
    obtain ⟨k, ds⟩ := b
    simp only [keys, List.map_cons, List.nodup_cons] at hk
    rcases List.mem_cons.mp hb with he | hr
    · cases he
      simp [find?_cons]
    · have hne : k ≠ raw := fun he => hk.1 (List.mem_map.mpr ⟨_, hr, he.symm⟩)
      simpa [find?_cons, hne] using ih hk.2 hr

def fill (bs : Buckets) (ps : List (RawType × Candidate)) : Buckets :=
  ps.foldl (fun bs p => bs.add p.1 p.2) bs

theorem find?_fill (raw : RawType) (ps : List (RawType × Candidate)) (bs : Buckets) :
    find? raw (fill bs ps) =
      match (ps.filter (·.1 == raw)).map Prod.snd with
      | [] => find? raw bs
      | cs => some ((find? raw bs).getD [] ++ cs) := by
  induction ps generalizing bs with
  | nil => rfl
  | cons p ps ih =>
    have hstep : fill bs (p :: ps) = fill (bs.add p.1 p.2) ps := rfl
    rw [hstep, ih, find?_add]
    by_cases hp : p.1 = raw
    · simp only [hp, if_true, beq_self_eq_true, List.filter_cons_of_pos, List.map_cons, Option.getD_some]
      split
      · rename_i h
        simp [h]
      · simp
    · have hb : (p.1 == raw) = false := by simpa using hp
      simp only [hp, if_false, List.filter_cons, hb, Bool.false_eq_true]

theorem keys_fill (ps : List (RawType × Candidate)) : keys (fill [] ps) = (ps.map Prod.fst).eraseDups := by
  induction ps using List.reverseRecOn with
  | nil => rfl
  | append_singleton ps p ih =>
    have hstep : fill [] (ps ++ [p]) = (fill [] ps).add p.1 p.2 := by simp [fill]
    rw [hstep, keys_add, ih, List.map_append, List.map_singleton, eraseDups_concat]
    simp only [List.contains_eq_mem, List.mem_eraseDups]

theorem index_eq_fill {c : Candidate} {d : Descriptor} (hd : c.declared = some d) (bs : Buckets) :
    index c d bs = fill bs (c.places.map fun raw => (raw, c)) := by
  unfold index Candidate.places
  rw [hd]
  by_cases ho : d.isAnyObject
  · simp [ho, fill]
  · simp only [if_neg ho]
    cases d.raw.unboxed? <;> rfl

/-- Indexing succeeds where every candidate declares a type, and fills the buckets with them. -/
theorem build_eq_ok_iff {role : Role} {cs : List Candidate} {bs : Buckets} :
    build role cs = .ok bs ↔ (∀ c ∈ cs, c.declared.isSome) ∧ bs = fill [] (placements cs) := by
  have gen : ∀ start : Buckets, (cs.foldlM (fun buckets c =>
      match c.declared with
      | none => .error (.configuration (.untyped role c.name))
      | some declared => .ok (index c declared buckets)) start : Except CodecError Buckets) = .ok bs ↔
      (∀ c ∈ cs, c.declared.isSome) ∧ bs = fill start (placements cs) := by
    induction cs with
    | nil =>
      intro start
      have hf : fill start (placements []) = start := rfl
      rw [hf]
      exact ⟨fun h => ⟨by simp, (Except.ok.inj h).symm⟩, fun h => congrArg Except.ok h.2.symm⟩
    | cons c cs ih =>
      intro start
      rw [List.foldlM_cons]
      cases hd : c.declared with
      | none => simp [hd, bind, Except.bind]
      | some d =>
        have hp : fill start (placements (c :: cs)) = fill (index c d start) (placements cs) := by
          rw [index_eq_fill hd]
          simp [placements, fill]
        rw [hp]
        simpa [hd, bind, Except.bind] using ih (index c d start)
  exact gen []

variable {role : Role} {cs : List Candidate} {bs : Buckets}

/-- A bucket holds the candidates that belong under its raw type, in the order of registration. -/
theorem find?_build (h : build role cs = .ok bs) (raw : RawType) :
    find? raw bs =
      match cs.filter fun c => c.places.contains raw with
      | [] => none
      | found => some found := by
  rw [(build_eq_ok_iff.mp h).2, find?_fill, placements_under]
  rfl

theorem keys_build (h : build role cs = .ok bs) : keys bs = (cs.flatMap Candidate.places).eraseDups := by
  rw [(build_eq_ok_iff.mp h).2, keys_fill, placements_fst]

end Buckets

end TypedWire
