import Mathlib.Data.List.Induction
import TypedWire.Members

/-! # First occurrences

A list without its repetitions keeps each element where it stands first. So do the members that a list of writes
comes to: a key stays where it was written first, and has the value that was written last. -/

namespace TypedWire

section FirstOccurrences
variable {α : Type} [BEq α] [LawfulBEq α]

theorem eraseDups_concat (l : List α) (x : α) :
    (l ++ [x]).eraseDups = if l.contains x then l.eraseDups else l.eraseDups ++ [x] := by
  rw [List.eraseDups_append]
  by_cases hx : x ∈ l <;> simp [List.removeAll, hx, List.eraseDups_cons]

theorem nodup_eraseDups (l : List α) : l.eraseDups.Nodup := by
  induction l using List.reverseRecOn with
  | nil => simp
  | append_singleton l x ih =>
    rw [eraseDups_concat]
    split
    · exact ih
    · rename_i hx
      rw [List.nodup_append]
      refine ⟨ih, by simp, ?_⟩
      rintro a ha b hb rfl
      rw [List.mem_eraseDups] at ha
      rw [List.mem_singleton] at hb
      exact hx (by simpa [hb] using ha)

theorem eraseDups_of_nodup {l : List α} (h : l.Nodup) : l.eraseDups = l := by
  induction l using List.reverseRecOn with
  | nil => simp
  | append_singleton l x ih =>
    obtain ⟨hl, -, hx⟩ := List.nodup_append.mp h
    have hnew : l.contains x = false := by simpa using fun hmem => hx x hmem x (List.mem_singleton_self x) rfl
    rw [eraseDups_concat, hnew, if_neg Bool.false_ne_true, ih hl]

theorem filter_eraseDups (p : α → Bool) (l : List α) : l.eraseDups.filter p = (l.filter p).eraseDups := by
  induction l using List.reverseRecOn with
  | nil => simp
  | append_singleton l x ih =>
    by_cases hp : p x <;> by_cases hx : x ∈ l <;> simp [eraseDups_concat, hp, hx, ih]

theorem find?_eraseDups (p : α → Bool) (l : List α) : l.eraseDups.find? p = l.find? p := by
  induction l using List.reverseRecOn with
  | nil => simp
  | append_singleton l x ih =>
    rw [eraseDups_concat, List.find?_append]
    split
    · rename_i hx
      rw [ih]
      cases hf : l.find? p with
      | some y => rfl
      | none =>
        have hpx : ¬p x := List.find?_eq_none.mp hf x (by simpa using hx)
        simp [hpx]
    · rw [List.find?_append, ih]

omit [LawfulBEq α] in
theorem head?_eraseDups (l : List α) : l.eraseDups.head? = l.head? := by
  cases l with
  | nil => rfl
  | cons x l => rw [List.eraseDups_cons]; rfl

theorem all_eraseDups (p : α → Bool) (l : List α) : l.eraseDups.all p = l.all p := by
  rw [Bool.eq_iff_iff, List.all_eq_true, List.all_eq_true]
  simp only [List.mem_eraseDups]

end FirstOccurrences

/-! ### Writing members -/

namespace Members
variable {α : Type} {writes : List (String × α)} {members others : Members α}

theorem find?_eq_none {key : String} (h : key ∉ keys members) : find? key members = none := by
  induction members with
  | nil => rfl
  | cons m rest ih =>
    obtain ⟨k, v⟩ := m
    obtain ⟨hk, hrest⟩ := not_or.mp (mt List.mem_cons.mpr h)
    rw [find?, if_neg (Ne.symm hk), ih hrest]

/-- Members are told by their keys in order and by what is found under each. -/
theorem eq_of_find?_eq (hd : Distinct members) (hkeys : keys members = keys others)
    (hfind : ∀ key, find? key members = find? key others) : members = others := by
  induction members generalizing others with
  | nil => exact (List.map_eq_nil_iff.mp hkeys.symm).symm
  | cons m rest ih =>
    obtain ⟨k, v⟩ := m
    cases others with
    | nil => cases hkeys
    | cons m' rest' =>
      obtain ⟨k', v'⟩ := m'
      obtain ⟨rfl, hrest⟩ : k = k' ∧ keys rest = keys rest' := List.cons.inj hkeys
      obtain ⟨hk, hd⟩ := List.nodup_cons.mp hd
      have hvalue := hfind k
      rw [find?, find?, if_pos rfl, if_pos rfl] at hvalue
      have htail : rest = rest' := by
        refine ih hd hrest fun key => ?_
        by_cases hkey : k = key
        · subst hkey
          rw [find?_eq_none hk, find?_eq_none (hrest ▸ hk)]
        · have hother := hfind key
          rwa [find?, find?, if_neg hkey, if_neg hkey] at hother
      rw [Option.some.inj hvalue, htail]

/-- What a list of writes comes to: each key once, where it was written first, with the value that was written
    last. -/
structure Settles (writes : List (String × α)) (members : Members α) : Prop where
  keys_eq : keys members = (keys writes).eraseDups
  find?_eq : ∀ key, find? key members = find? key writes.reverse

namespace Settles

theorem nil : Settles ([] : List (String × α)) [] :=
  ⟨rfl, fun _ => rfl⟩

theorem concat (h : Settles writes members) (key : String) (value : α) :
    Settles (writes ++ [(key, value)]) (insert key value members) where
  keys_eq := by
    have hmem : key ∈ keys members ↔ key ∈ keys writes := by rw [h.keys_eq, List.mem_eraseDups]
    have hkeys : keys (writes ++ [(key, value)]) = keys writes ++ [key] := List.map_append
    rw [hkeys, eraseDups_concat, List.contains_eq_mem, ← h.keys_eq]
    by_cases hk : key ∈ keys writes
    · rw [keys_insert_of_mem (hmem.mpr hk), if_pos (decide_eq_true hk)]
    · rw [insert_of_not_mem (mt hmem.mp hk), if_neg (by simpa using hk)]
      exact List.map_append
  find?_eq other := by
    rw [find?_insert, h.find?_eq, List.reverse_append]
    rfl

theorem unique (h : Settles writes members) (h' : Settles writes others) : members = others := by
  refine eq_of_find?_eq ?_ (h.keys_eq.trans h'.keys_eq.symm) fun key => (h.find?_eq key).trans (h'.find?_eq key).symm
  rw [Distinct, h.keys_eq]
  exact nodup_eraseDups _

end Settles

end Members

end TypedWire
