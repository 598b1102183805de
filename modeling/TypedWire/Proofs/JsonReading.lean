import TypedWire.Proofs.JsonText
import TypedWire.Proofs.KeyOrder

/-! # JSON text, printed and read

A tree without doubles whose integers fit a JSON number, whose members are sorted and whose scopes are no deeper than
the reader allows is read from its text as itself. -/

namespace TypedWire.Json
open Text

/-! ### Trees that survive -/

mutual
/-- A tree without doubles, with integers that a number can be, sorted members, and at most `depth` scopes around
    its innermost part. -/
def Fits : Nat → Json → Prop
  | _, null | _, boolean _ | _, string _ => True
  | _, integer n => isInteger n = true
  | _, float _ => False
  | 0, array _ | 0, object _ => False
  | depth + 1, array items => ItemsFit depth items
  | depth + 1, object members => Sorted members ∧ MembersFit depth members

def ItemsFit : Nat → List Json → Prop
  | _, [] => True
  | depth, j :: js => Fits depth j ∧ ItemsFit depth js

def MembersFit : Nat → List (String × Json) → Prop
  | _, [] => True
  | depth, (_, j) :: ms => Fits depth j ∧ MembersFit depth ms
end

/-! ### The first character -/

section Heads
variable {c : Char} {cs rest : List Char} {steps depth : Nat}

theorem skipBlanks_cons (h : isBlank c = false) : skipBlanks (c :: cs) = c :: cs :=
  List.dropWhile_cons_of_neg (by simp [h])

theorem not_isBlank (h : beginsNumber c = true) : isBlank c = false := by
  simp only [isBlank, Bool.or_eq_false_iff, beq_eq_false_iff_ne]
  have hne : ∀ d, beginsNumber d = false → c ≠ d := fun _ => ne_of_beginsNumber h
  exact ⟨⟨⟨hne _ rfl, hne _ rfl⟩, hne _ rfl⟩, hne _ rfl⟩

theorem readValue_number (h : beginsNumber c = true) :
    readValue (steps + 1) depth (c :: cs) = readNumber (c :: cs) := by
  rw [readValue, skipBlanks_cons (not_isBlank h)]
  split
  case h_7 => rfl
  all_goals
    next heq => exact absurd (List.cons.inj heq).1 (ne_of_beginsNumber h rfl)

/-- What is no blank and no closing bracket begins the items of an array. -/
theorem readValue_bracket (hblank : isBlank c = false) (hc : c ≠ ']') :
    readValue (steps + 1) (depth + 1) ('[' :: c :: cs) =
      (readItems steps depth (c :: cs)).map fun (items, rest) => (array items, rest) := by
  have hbracket : skipBlanks ('[' :: c :: cs) = '[' :: c :: cs := skipBlanks_cons (by decide)
  simp only [readValue, hbracket, skipBlanks_cons hblank]
  split
  · next heq => exact absurd (List.cons.inj heq).1 hc
  · rfl

theorem readValue_brace :
    readValue (steps + 1) (depth + 1) ('\x7b' :: '"' :: cs) =
      (readMembers steps depth ('"' :: cs)).map fun (entries, rest) => (object (sortMembers entries), rest) := by
  rw [readValue, skipBlanks_cons (by decide)]
  rfl

theorem readItems_last {j : Json} (h : readValue steps depth cs = some (j, ']' :: rest)) :
    readItems (steps + 1) depth cs = some ([j], rest) := by
  rw [readItems, h]
  rfl

theorem readItems_comma {j : Json} (h : readValue steps depth cs = some (j, ',' :: rest)) :
    readItems (steps + 1) depth cs = (readItems steps depth rest).map fun (js, rest) => (j :: js, rest) := by
  rw [readItems, h]
  rfl

theorem readMembers_last {key : String} {j : Json} (h : readValue steps depth cs = some (j, '\x7d' :: rest)) :
    readMembers (steps + 1) depth (stringText key ++ ':' :: cs) = some ([(key, j)], rest) := by
  obtain ⟨body, hbody, hkey⟩ := exists_readString_stringText key (':' :: cs)
  rw [hbody]
  simp [readMembers, skipBlanks, isBlank, hkey, h]

theorem readMembers_comma {key : String} {j : Json} (h : readValue steps depth cs = some (j, ',' :: rest)) :
    readMembers (steps + 1) depth (stringText key ++ ':' :: cs) =
      (readMembers steps depth rest).map fun (ms, rest) => ((key, j) :: ms, rest) := by
  obtain ⟨body, hbody, hkey⟩ := exists_readString_stringText key (':' :: cs)
  rw [hbody]
  simp [readMembers, skipBlanks, isBlank, hkey, h]

end Heads

theorem integerText_eq_cons (n : Int) :
    ∃ c cs, (integerText n).toList = c :: cs ∧ beginsNumber c = true := by
  rw [integerText, String.toList_ofList]
  split
  · exact ⟨'-', _, rfl, rfl⟩
  · obtain ⟨d, ds, hds, hd, -⟩ := decimalDigits_eq_cons n.natAbs
    exact ⟨d, ds, hds, beginsNumber_of_isDigit hd⟩

/-- The text of a tree begins with neither a blank nor a closing bracket. -/
theorem chars_eq_cons {depth : Nat} {j : Json} (h : j.Fits depth) :
    ∃ c cs, chars j = c :: cs ∧ isBlank c = false ∧ c ≠ ']' := by
  cases j with
  | null => exact ⟨'n', _, rfl, by decide⟩
  | boolean b =>
    cases b with
    | false => exact ⟨'f', _, rfl, by decide⟩
    | true => exact ⟨'t', _, rfl, by decide⟩
  | integer n =>
    obtain ⟨c, cs, hcs, hc⟩ := integerText_eq_cons n
    exact ⟨c, cs, hcs, not_isBlank hc, ne_of_beginsNumber hc rfl⟩
  | float x => exact absurd h id
  | string s => exact ⟨'"', _, rfl, by decide⟩
  | array items => exact ⟨'[', _, rfl, by decide⟩
  | object members => exact ⟨'\x7b', _, rfl, by decide⟩

theorem itemChars_cons_cons (j k : Json) (js : List Json) :
    itemChars (j :: k :: js) = chars j ++ ',' :: itemChars (k :: js) :=
  rfl

theorem memberChars_cons_cons (key : String) (j : Json) (m : String × Json) (ms : List (String × Json)) :
    memberChars ((key, j) :: m :: ms) = stringText key ++ ':' :: chars j ++ ',' :: memberChars (m :: ms) :=
  rfl

theorem memberChars_eq_cons (key : String) (j : Json) (ms : List (String × Json)) :
    ∃ cs, memberChars ((key, j) :: ms) = '"' :: cs := by
  cases ms with
  | nil => exact ⟨_, rfl⟩
  | cons m ms => exact ⟨_, rfl⟩

theorem itemChars_eq_cons {depth : Nat} {j : Json} (js : List Json) (h : j.Fits depth) :
    ∃ c cs, itemChars (j :: js) = c :: cs ∧ isBlank c = false ∧ c ≠ ']' := by
  obtain ⟨c, cs, hcs, hc⟩ := chars_eq_cons h
  cases js with
  | nil => exact ⟨c, cs, hcs, hc⟩
  | cons k ks => exact ⟨c, _, by rw [itemChars_cons_cons, hcs, List.cons_append], hc⟩

theorem length_chars_pos {depth : Nat} {j : Json} (h : j.Fits depth) : 0 < (chars j).length := by
  obtain ⟨c, cs, hcs, -⟩ := chars_eq_cons h
  rw [hcs]
  exact Nat.succ_pos _

/-! ### Whole trees -/

mutual
/-- The text of a tree is read as the tree, in two steps for each character. -/
theorem readValue_chars : ∀ (j : Json) {steps depth : Nat} {rest : List Char}, j.Fits depth →
    2 * (chars j).length ≤ steps → Ends rest → readValue steps depth (chars j ++ rest) = some (j, rest)
  | j, 0, depth, rest, h, hsteps, _ => by
    have hpos := length_chars_pos h
    omega
  | null, steps + 1, depth, rest, _, _, _ => rfl
  | boolean true, steps + 1, depth, rest, _, _, _ => rfl
  | boolean false, steps + 1, depth, rest, _, _, _ => rfl
  | integer n, steps + 1, depth, rest, h, _, hrest => by
    obtain ⟨c, cs, hcs, hc⟩ := integerText_eq_cons n
    have hread := readNumber_integerText h hrest
    rw [hcs] at hread
    rw [chars, hcs, List.cons_append, readValue_number hc]
    exact hread
  | string s, steps + 1, depth, rest, _, _, _ => by
    obtain ⟨body, hbody, hread⟩ := exists_readString_stringText s rest
    rw [chars, hbody]
    simp [readValue, skipBlanks, isBlank, hread]
  | array [], steps + 1, depth + 1, rest, _, _, _ => rfl
  | array (j :: js), steps + 1, depth + 1, rest, h, hsteps, _ => by
    obtain ⟨c, cs, hcs, hblank, hne⟩ := itemChars_eq_cons js h.1
    have hread : readItems steps depth (itemChars (j :: js) ++ ']' :: rest) = some (j :: js, rest) :=
      readItems_itemChars j js h (by simp [chars] at hsteps; omega)
    rw [hcs, List.cons_append] at hread
    rw [chars, hcs]
    simp only [List.cons_append, List.append_assoc, List.nil_append]
    rw [readValue_bracket hblank hne, hread]
    rfl
  | object [], steps + 1, depth + 1, rest, _, _, _ => rfl
  | object ((key, j) :: ms), steps + 1, depth + 1, rest, ⟨hsorted, h⟩, hsteps, _ => by
    obtain ⟨cs, hcs⟩ := memberChars_eq_cons key j ms
    have hread : readMembers steps depth (memberChars ((key, j) :: ms) ++ '\x7d' :: rest) =
        some ((key, j) :: ms, rest) := readMembers_memberChars key j ms h (by simp [chars] at hsteps; omega)
    rw [hcs, List.cons_append] at hread
    rw [chars, hcs]
    simp only [List.cons_append, List.append_assoc, List.nil_append]
    simp only [readValue_brace, hread, Option.map_some, sortMembers_of_sorted hsorted]

theorem readItems_itemChars : ∀ (j : Json) (js : List Json) {steps depth : Nat} {rest : List Char},
    ItemsFit depth (j :: js) → 2 * (itemChars (j :: js)).length < steps →
      readItems steps depth (itemChars (j :: js) ++ ']' :: rest) = some (j :: js, rest)
  | j, [], steps + 1, depth, rest, h, hsteps => by
    exact readItems_last (readValue_chars j h.1 (by simp only [itemChars] at hsteps; omega) .bracket)
  | j, k :: ks, steps + 1, depth, rest, h, hsteps => by
    simp only [itemChars_cons_cons, List.length_append, List.length_cons] at hsteps
    have hitems : readItems steps depth (itemChars (k :: ks) ++ ']' :: rest) = some (k :: ks, rest) :=
      readItems_itemChars k ks h.2 (by omega)
    rw [itemChars_cons_cons, List.append_assoc, List.cons_append,
      readItems_comma (readValue_chars j h.1 (by omega) .comma), hitems]
    rfl

theorem readMembers_memberChars : ∀ (key : String) (j : Json) (ms : List (String × Json)) {steps depth : Nat}
    {rest : List Char}, MembersFit depth ((key, j) :: ms) → 2 * (memberChars ((key, j) :: ms)).length < steps →
      readMembers steps depth (memberChars ((key, j) :: ms) ++ '\x7d' :: rest) = some ((key, j) :: ms, rest)
  | key, j, [], steps + 1, depth, rest, h, hsteps => by
    simp only [memberChars, List.length_append, List.length_cons] at hsteps
    rw [memberChars, List.append_assoc]
    exact readMembers_last (readValue_chars j h.1 (by omega) .brace)
  | key, j, (key', j') :: ms, steps + 1, depth, rest, h, hsteps => by
    simp only [memberChars_cons_cons, List.length_append, List.length_cons] at hsteps
    have hmembers : readMembers steps depth (memberChars ((key', j') :: ms) ++ '\x7d' :: rest) =
        some ((key', j') :: ms, rest) := readMembers_memberChars key' j' ms h.2 (by omega)
    rw [memberChars_cons_cons]
    simp only [List.append_assoc, List.cons_append]
    rw [readMembers_comma (readValue_chars j h.1 (by omega) .comma), hmembers]
    rfl
end

/-- The text of a tree is read as the tree. -/
theorem parse?_text {j : Json} (h : j.Fits depthLimit) : parse? j.text = some j := by
  have hread : readValue (2 * (chars j).length + 2) depthLimit (chars j ++ []) = some (j, []) :=
    readValue_chars j h (by omega) .nil
  rw [List.append_nil] at hread
  rw [parse?, text, String.toList_ofList, hread]
  rfl

end TypedWire.Json
