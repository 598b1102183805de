import Mathlib.Algebra.GroupWithZero.Nat
import Mathlib.Data.String.Basic
import TypedWire.Proofs.Fields
import TypedWire.TextType

/-! # Reading the text of an identifier

The text of a value of a type is read as that value again. For identifiers, character sets, time zones and
URI references this follows from their readers; URLs and locales are left to what their own readers do. -/

namespace TypedWire
open Text

/-- A text of characters of one byte each has as many bytes as characters. -/
theorem utf8ByteSize_of_small (s : String) (h : ∀ c ∈ s.toList, c.utf8Size = 1) :
    s.utf8ByteSize = s.toList.length := by
  have hlen : ∀ cs : List Char, (∀ c ∈ cs, c.utf8Size = 1) → String.utf8Len cs = cs.length := by
    intro cs hcs
    induction cs with
    | nil => rfl
    | cons c cs ih =>
      rw [String.utf8Len_cons, ih fun c' hc' => hcs c' (List.mem_cons_of_mem _ hc'), hcs c (List.mem_cons_self ..),
        List.length_cons]
  rw [← hlen _ h, ← String.utf8ByteSize_ofList, String.ofList_toList]

namespace Uuid

/-! ### Identifiers by their digits -/

theorem digit?_digitChar : ∀ d : Fin 16, digit? (digitChar d) = some d := by
  decide

theorem digitChar_ne_hyphen : ∀ d : Fin 16, digitChar d ≠ '-' := by
  decide

theorem utf8Size_digitChar : ∀ d : Fin 16, (digitChar d).utf8Size = 1 := by
  decide

theorem length_of_mapM_digit? {cs : List Char} {ds : List (Fin 16)} (h : cs.mapM digit? = some ds) :
    ds.length = cs.length := by
  induction cs generalizing ds with
  | nil =>
    obtain rfl : ds = [] := (Option.some.inj h).symm
    rfl
  | cons c cs ih =>
    rw [List.mapM_cons] at h
    obtain ⟨d, -, h⟩ := Option.bind_eq_some_iff.mp h
    obtain ⟨rest, hrest, h⟩ := Option.bind_eq_some_iff.mp h
    obtain rfl : ds = d :: rest := (Option.some.inj h).symm
    rw [List.length_cons, List.length_cons, ih hrest]

theorem ofDigits?_digits (u : Uuid) : ofDigits? (u.digits.map digitChar) = some u := by
  obtain ⟨digits, hlength⟩ := u
  have hdigits : (digits.map digitChar).mapM digit? = some digits := by
    clear hlength
    induction digits with
    | nil => rfl
    | cons d ds ih =>
      rw [List.map_cons, List.mapM_cons, digit?_digitChar, ih]
      rfl
  simp only [ofDigits?, hdigits, Option.bind_some, hlength, dite_true]

theorem flatten_groups {ns : List Nat} {cs : List Char} (h : ns.sum = cs.length) : (groups ns cs).flatten = cs := by
  induction ns generalizing cs with
  | nil => rw [List.length_eq_zero_iff.mp h.symm]; rfl
  | cons n ns ih =>
    rw [List.sum_cons] at h
    rw [groups, List.flatten_cons, ih (by rw [List.length_drop]; omega), List.take_append_drop]

theorem map_length_groups {ns : List Nat} {cs : List Char} (h : ns.sum = cs.length) :
    (groups ns cs).map List.length = ns := by
  induction ns generalizing cs with
  | nil => rfl
  | cons n ns ih =>
    rw [List.sum_cons] at h
    rw [groups, List.map_cons, ih (by rw [List.length_drop]; omega), List.length_take, Nat.min_eq_left (by omega)]

theorem mem_groups {ns : List Nat} {cs group : List Char} (h : group ∈ groups ns cs) {c : Char} (hc : c ∈ group) :
    c ∈ cs := by
  induction ns generalizing cs with
  | nil => cases h
  | cons n ns ih =>
    rcases List.mem_cons.mp h with rfl | h
    · exact List.mem_of_mem_take hc
    · exact List.mem_of_mem_drop (ih h)

/-! ### The text of an identifier -/

section Rendered
variable (u : Uuid)

theorem sum_groupLengths : groupLengths.sum = (u.digits.map digitChar).length := by
  rw [List.length_map, u.length_digits]
  rfl

theorem hyphen_not_mem_groups :
    ∀ group ∈ groups groupLengths (u.digits.map digitChar), '-' ∉ group := by
  intro group hgroup hc
  obtain ⟨d, -, hd⟩ := List.mem_map.mp (mem_groups hgroup hc)
  exact digitChar_ne_hyphen d hd

theorem ofGroups?_text : ofGroups? u.text.toList = some u := by
  have hne : groups groupLengths (u.digits.map digitChar) ≠ [] := List.cons_ne_nil _ _
  have hsplit := splitFields_joinFields hne u.hyphen_not_mem_groups
  unfold ofGroups? text
  rw [String.toList_ofList]
  simp only [hsplit, map_length_groups u.sum_groupLengths, if_true, flatten_groups u.sum_groupLengths,
    ofDigits?_digits]

theorem length_text : u.text.toList.length = 36 := by
  rw [text, String.toList_ofList, length_joinFields (by simp [groups, groupLengths]),
    flatten_groups u.sum_groupLengths, List.length_map, u.length_digits]
  rfl

/-- A text with hyphens in it is too long for a bare row of digits. -/
theorem ofDigits?_text : ofDigits? u.text.toList = none := by
  unfold ofDigits?
  cases hd : u.text.toList.mapM digit? with
  | none => rfl
  | some ds =>
    have hlength : ds.length = 36 := by rw [← u.length_text, length_of_mapM_digit? hd]
    simp [hlength]

theorem utf8ByteSize_text : u.text.utf8ByteSize = 36 := by
  rw [← u.length_text]
  refine utf8ByteSize_of_small u.text fun c hc => ?_
  rw [text, String.toList_ofList] at hc
  rcases mem_joinFields hc with rfl | ⟨group, hgroup, hc⟩
  · rfl
  · obtain ⟨d, -, rfl⟩ := List.mem_map.mp (mem_groups hgroup hc)
    exact utf8Size_digitChar d

theorem body?_text : body? u.text = some u.text.toList := by
  rw [body?, utf8ByteSize_text]
  rfl

theorem parse_text : parse u.text = .ok u := by
  rw [parse, ofDigits?_text, body?_text, Option.bind_some, ofGroups?_text]

end Rendered

end Uuid

theorem Uri.parse_text (u : Uri) : parse u.text = .ok u := by
  unfold parse
  split
  · rfl
  · rename_i f hf
    rw [u.wellFormed] at hf
    cases hf

theorem Charset.forName?_name (c : Charset) : forName? c.name = some c := by
  cases c <;> decide

theorem TimeZone.forName?_name (z : TimeZone) : forName? z.name = some z := by
  rw [forName?, dif_pos z.known]

namespace TextType

/-- Whether the text of a value is read as that value again. Of URLs and locales this is said by their own
    readers; the other types have no other values. -/
def Restorable : (t : TextType) → t.Carrier → Prop
  | url, u => Url.parse u.text = .ok u
  | locale, l => Locale.parse l.tag = .ok l
  | _, _ => True

theorem parse_render {t : TextType} {x : t.Carrier} (h : t.Restorable x) : t.parse (t.render x) = .ok x := by
  cases t with
  | uuid => rw [parse, render, Uuid.parse_text]; rfl
  | url => rw [parse, render, h]; rfl
  | uri => rw [parse, render, Uri.parse_text]; rfl
  | charset => rw [parse, render, Charset.forName?_name]
  | timeZone => rw [parse, render, TimeZone.forName?_name]
  | locale => rw [parse, render, h]; rfl

end TextType

end TypedWire
