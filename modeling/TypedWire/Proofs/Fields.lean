import TypedWire.Text.Fields

/-! # Splitting undoes joining

Fields without a separator of their own are found again when they have been joined. The joined text holds their
characters and the separators between them, and nothing else. -/

namespace TypedWire.Text

section Fields
variable {sep : Char} {field : List Char} {fields : List (List Char)}

theorem splitFields_of_not_mem (h : sep ∉ field) : splitFields sep field = [field] := by
  induction field with
  | nil => rfl
  | cons c cs ih =>
    obtain ⟨hc, hcs⟩ := List.ne_and_not_mem_of_not_mem_cons h
    rw [splitFields, if_neg (Ne.symm hc), ih hcs]

theorem splitFields_append (h : sep ∉ field) (cs : List Char) :
    splitFields sep (field ++ sep :: cs) = field :: splitFields sep cs := by
  induction field with
  | nil => rw [List.nil_append, splitFields, if_pos rfl]
  | cons c field ih =>
    obtain ⟨hc, hcs⟩ := List.ne_and_not_mem_of_not_mem_cons h
    rw [List.cons_append, splitFields, if_neg (Ne.symm hc), ih hcs]

/-- Fields that hold no separator are those of the text that they are joined to. -/
theorem splitFields_joinFields (hne : fields ≠ []) (h : ∀ field ∈ fields, sep ∉ field) :
    splitFields sep (joinFields sep fields) = fields := by
  induction fields with
  | nil => exact absurd rfl hne
  | cons field rest ih =>
    have hfield := h field (List.mem_cons_self ..)
    by_cases hrest : rest = []
    · subst hrest
      exact splitFields_of_not_mem hfield
    · rw [joinFields_cons hrest, splitFields_append hfield,
        ih hrest fun other ho => h other (List.mem_cons_of_mem _ ho)]

theorem mem_joinFields {c : Char} (h : c ∈ joinFields sep fields) : c = sep ∨ ∃ field ∈ fields, c ∈ field := by
  induction fields with
  | nil => cases h
  | cons field rest ih =>
    by_cases hrest : rest = []
    · subst hrest
      exact Or.inr ⟨field, List.mem_cons_self .., h⟩
    · rw [joinFields_cons hrest] at h
      rcases List.mem_append.mp h with h | h
      · exact Or.inr ⟨field, List.mem_cons_self .., h⟩
      · rcases List.mem_cons.mp h with rfl | h
        · exact Or.inl rfl
        · rcases ih h with rfl | ⟨other, ho, hc⟩
          · exact Or.inl rfl
          · exact Or.inr ⟨other, List.mem_cons_of_mem _ ho, hc⟩

theorem length_joinFields (hne : fields ≠ []) :
    (joinFields sep fields).length = fields.flatten.length + (fields.length - 1) := by
  induction fields with
  | nil => exact absurd rfl hne
  | cons field rest ih =>
    cases rest with
    | nil => simp [joinFields]
    | cons next rest =>
      have hrest : next :: rest ≠ [] := List.cons_ne_nil next rest
      rw [joinFields_cons hrest, List.length_append, List.length_cons, ih hrest]
      simp only [List.flatten_cons, List.length_append, List.length_cons]
      omega

end Fields

end TypedWire.Text
