import TypedWire.Proofs.FloatText
import TypedWire.Proofs.JsonReading

/-! # Doubles in JSON text

A number with a point or an exponent is read as a double, if it is read at all; and the text of a double has one of
them. -/

namespace TypedWire
open Text

namespace Json
variable {cs rest : List Char} {j : Json}

theorem exists_gathered (cs : List Char) (n k : Nat) :
    ∃ ds, cs = ds ++ (gather n k cs).2.2 ∧ ∀ c ∈ ds, isDigit c = true := by
  induction cs generalizing n k with
  | nil => exact ⟨[], rfl, nofun⟩
  | cons c cs ih =>
    rw [gather]
    split
    · next h =>
      obtain ⟨ds, hds, hdigits⟩ := ih (10 * n + digitValue c) (k + 1)
      have hc : isDigit c = true := (Bool.and_eq_true_iff.mp h).1
      exact ⟨c :: ds, congrArg (c :: ·) hds, List.forall_mem_cons.mpr ⟨hc, hdigits⟩⟩
    · exact ⟨[], rfl, nofun⟩

/-- A number is a double, or nothing but digits. -/
theorem float_or_digits {negative : Bool} (h : readMagnitude negative cs = some (j, rest)) :
    (∃ x, j = float x) ∨ ∃ ds, cs = ds ++ rest ∧ ∀ c ∈ ds, isDigit c = true := by
  obtain ⟨ds, hds, hdigits⟩ := exists_gathered cs 0 0
  unfold readMagnitude at h
  dsimp only at h
  obtain ⟨-, h⟩ := Option.ite_none_left_eq_some.mp h
  split at h
  · obtain ⟨y, -, hy⟩ := Option.map_eq_some_iff.mp h
    exact .inl ⟨_, (Prod.mk.inj hy).1.symm⟩
  have hread : cs = ds ++ (gather 0 0 cs).2.2.takeWhile isDigit ++ (gather 0 0 cs).2.2.dropWhile isDigit := by
    rw [List.append_assoc, List.takeWhile_append_dropWhile]
    exact hds
  have hall : ∀ c ∈ ds ++ (gather 0 0 cs).2.2.takeWhile isDigit, isDigit c = true := fun c hc =>
    (List.mem_append.mp hc).elim (hdigits c) fun hc => List.all_eq_true.mp List.all_takeWhile c hc
  split at h
  · obtain ⟨-, rfl⟩ := Prod.mk.inj (Option.some.inj h)
    exact .inr ⟨_, hread, hall⟩
  split at h
  · exact .inl ⟨_, (Prod.mk.inj (Option.some.inj h)).1.symm⟩
  · obtain ⟨-, rfl⟩ := Prod.mk.inj (Option.some.inj h)
    exact .inr ⟨_, hread, hall⟩

theorem float_or_beginsNumber (h : readNumber cs = some (j, rest)) :
    (∃ x, j = float x) ∨ ∃ ds, cs = ds ++ rest ∧ ∀ c ∈ ds, beginsNumber c = true := by
  unfold readNumber at h
  split at h
  · refine (float_or_digits h).imp_right fun ⟨ds, hds, hdigits⟩ => ?_
    have hsigned : ∀ c ∈ '-' :: ds, beginsNumber c = true :=
      List.forall_mem_cons.mpr ⟨rfl, fun c hc => beginsNumber_of_isDigit (hdigits c hc)⟩
    exact ⟨'-' :: ds, congrArg ('-' :: ·) hds, hsigned⟩
  · refine (float_or_digits h).imp_right fun ⟨ds, hds, hdigits⟩ => ?_
    exact ⟨ds, hds, fun c hc => beginsNumber_of_isDigit (hdigits c hc)⟩

theorem isBlank_of_skipBlanks (h : (skipBlanks cs).isEmpty = true) : ∀ c ∈ cs, isBlank c = true := by
  have hsplit : cs.takeWhile isBlank ++ skipBlanks cs = cs := List.takeWhile_append_dropWhile
  rw [List.isEmpty_iff.mp h, List.append_nil] at hsplit
  rw [← hsplit]
  exact List.all_eq_true.mp List.all_takeWhile

theorem parse?_number {c : Char} (h : beginsNumber c = true) :
    parse? (String.ofList (c :: cs)) = (readNumber (c :: cs)).bind fun (j, rest) =>
      if (skipBlanks rest).isEmpty then some j else none := by
  rw [parse?, String.toList_ofList, readValue_number h]
  cases readNumber (c :: cs) <;> rfl

/-- A text that begins like a number and has some other character in it, a blank apart, is read as a double only. -/
theorem float_of_parse? {c d : Char} (hc : beginsNumber c = true) (hd : d ∈ c :: cs) (hblank : isBlank d = false)
    (hother : beginsNumber d = false) (h : parse? (String.ofList (c :: cs)) = some j) : ∃ x, j = float x := by
  rw [parse?_number hc] at h
  obtain ⟨⟨j', rest⟩, hread, h⟩ := Option.bind_eq_some_iff.mp h
  obtain ⟨hrest, h⟩ := Option.ite_none_right_eq_some.mp h
  obtain rfl := Option.some.inj h
  refine (float_or_beginsNumber hread).resolve_right fun ⟨ds, hds, hnumber⟩ => ?_
  rw [hds] at hd
  rcases List.mem_append.mp hd with hd | hd
  · exact Bool.false_ne_true (hother.symm.trans (hnumber d hd))
  · exact Bool.false_ne_true (hblank.symm.trans (isBlank_of_skipBlanks hrest d hd))

end Json

namespace Binary
open Json (isBlank)

theorem exists_signed_cons {c : Char} (hc : isDigit c = true) (p : Prop) [Decidable p] (cs : List Char) :
    ∃ d ds, (if p then "-" else "").toList ++ c :: cs = d :: ds ∧ beginsNumber d = true ∧ ∀ e ∈ cs, e ∈ d :: ds := by
  split
  · exact ⟨'-', c :: cs, rfl, rfl, fun e he => .tail _ (.tail _ he)⟩
  · exact ⟨c, cs, rfl, beginsNumber_of_isDigit hc, fun e he => .tail _ he⟩

theorem exists_positional_cons {ds : List Char} (hne : ds ≠ []) (hds : ∀ c ∈ ds, isDigit c = true) (e : Int) :
    ∃ c cs, positional ds e = c :: cs ∧ isDigit c = true := by
  obtain ⟨lead, trail, heq, hlead, hdigits, -⟩ := Decimal.positional_eq_pointed hne hds e
  obtain ⟨c, cs, rfl⟩ := List.exists_cons_of_ne_nil hlead
  cases trail with
  | none => exact ⟨c, cs, heq, hdigits c (.head _)⟩
  | some fs => exact ⟨c, cs ++ '.' :: fs, heq, hdigits c (.head _)⟩

theorem scientific_eq_cons {c : Char} (hc : isDigit c = true) (p : Prop) [Decidable p] (cs : List Char) (e : Int) :
    ∃ d ds, ((if p then "-" else "") ++ String.ofList (c :: cs) ++ (if e < 0 then "e-" else "e+") ++
      integerText e.natAbs).toList = d :: ds ∧ beginsNumber d = true ∧
      ∃ d' ∈ d :: ds, isBlank d' = false ∧ beginsNumber d' = false := by
  have hmark : 'e' ∈ (if e < 0 then "e-" else "e+").toList := by
    split <;> decide
  obtain ⟨d, ds, hds, hd, hmem⟩ := exists_signed_cons hc p
    (cs ++ ((if e < 0 then "e-" else "e+").toList ++ (integerText e.natAbs).toList))
  refine ⟨d, ds, ?_, hd, 'e', hmem _ (List.mem_append_right _ (List.mem_append_left _ hmark)), rfl, rfl⟩
  simp only [String.toList_append, String.toList_ofList, List.append_assoc, List.cons_append]
  exact hds

/-- The text of a double in JSON begins like a number and shows that it is no integer. -/
theorem jsonText_eq_cons (x : Binary64) : ∃ c cs, x.jsonText.toList = c :: cs ∧ beginsNumber c = true ∧
    ∃ d ∈ c :: cs, isBlank d = false ∧ beginsNumber d = false := by
  obtain ⟨hne, hdigits⟩ := x.digits_shortest .even
  unfold jsonText
  dsimp only
  split
  · obtain ⟨c, cs, hbody, hc⟩ := exists_positional_cons hne hdigits (x.shortest .even).exponent
    obtain ⟨cs', hcs', hpoint⟩ : ∃ cs', (if '.' ∈ c :: cs then c :: cs else c :: cs ++ ['.', '0']) = c :: cs' ∧
        '.' ∈ cs' := by
      split
      · next h => exact ⟨cs, rfl, (List.mem_cons.mp h).resolve_left (ne_of_isDigit hc rfl).symm⟩
      · exact ⟨cs ++ ['.', '0'], rfl, by simp⟩
    obtain ⟨d, ds, hds, hd, hmem⟩ := exists_signed_cons hc (x.isNegative = true) cs'
    refine ⟨d, ds, ?_, hd, '.', hmem _ hpoint, rfl, rfl⟩
    rw [hbody, hcs', String.toList_append, String.toList_ofList, hds]
  · obtain ⟨c, cs, hcs⟩ := List.exists_cons_of_ne_nil hne
    have hc : isDigit c = true := hdigits c (hcs ▸ .head _)
    rw [hcs]
    cases cs with
    | nil => exact scientific_eq_cons hc _ [] _
    | cons c' cs => exact scientific_eq_cons hc _ ('.' :: c' :: cs) _

/-- The text of a double is read as a double, if it is read at all. -/
theorem float_of_parse?_jsonText {x : Binary64} {j : Json} (h : Json.parse? x.jsonText = some j) :
    ∃ y, j = .float y := by
  obtain ⟨c, cs, hcs, hc, d, hd, hblank, hother⟩ := x.jsonText_eq_cons
  rw [← String.ofList_toList (s := x.jsonText), hcs] at h
  exact Json.float_of_parse? hc hd hblank hother h

end Binary

end TypedWire
