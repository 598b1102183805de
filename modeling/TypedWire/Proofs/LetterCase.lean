import TypedWire.Text.Ascii

/-! # Letter case and character classes

Bringing letters to lower or upper case keeps what class each character is in, and doing it again changes
nothing. What is judged by classes alone is therefore judged alike before and after. -/

namespace TypedWire.Text

/-! ### Characters -/

section Characters
variable (c : Char)

theorem toNat_toLower : c.toLower.toNat = if 65 ≤ c.toNat ∧ c.toNat ≤ 90 then c.toNat + 32 else c.toNat := by
  unfold Char.toLower
  by_cases h : c.val ≥ 'A'.val ∧ c.val ≤ 'Z'.val
  · have hbounds : 65 ≤ c.toNat ∧ c.toNat ≤ 90 := h
    rw [dif_pos h, if_pos hbounds]
    show (c.val + ('a'.val - 'A'.val)).toNat = c.val.toNat + 32
    have hsum : (c.val + ('a'.val - 'A'.val)).toNat = (c.val.toNat + 32) % 2 ^ 32 := UInt32.toNat_add ..
    have hsmall : c.val.toNat ≤ 90 := hbounds.2
    omega
  · have hbounds : ¬(65 ≤ c.toNat ∧ c.toNat ≤ 90) := h
    rw [dif_neg h, if_neg hbounds]

theorem toNat_toUpper : c.toUpper.toNat = if 97 ≤ c.toNat ∧ c.toNat ≤ 122 then c.toNat - 32 else c.toNat := by
  unfold Char.toUpper
  by_cases h : 'a'.val ≤ c.val ∧ c.val ≤ 'z'.val
  · have hbounds : 97 ≤ c.toNat ∧ c.toNat ≤ 122 := h
    rw [dif_pos h, if_pos hbounds]
    show (c.val + ('A'.val - 'a'.val)).toNat = c.val.toNat - 32
    have hsum : (c.val + ('A'.val - 'a'.val)).toNat = (c.val.toNat + (2 ^ 32 - 32)) % 2 ^ 32 := UInt32.toNat_add ..
    have hlow : 97 ≤ c.val.toNat := hbounds.1
    have hhigh : c.val.toNat ≤ 122 := hbounds.2
    omega
  · have hbounds : ¬(97 ≤ c.toNat ∧ c.toNat ≤ 122) := h
    rw [dif_neg h, if_neg hbounds]

theorem isLetter_eq : isLetter c = decide (97 ≤ c.toNat ∧ c.toNat ≤ 122 ∨ 65 ≤ c.toNat ∧ c.toNat ≤ 90) := by
  have hle (a b : Char) : a ≤ b ↔ a.toNat ≤ b.toNat := Iff.rfl
  rw [Bool.eq_iff_iff]
  simp only [isLetter, Bool.or_eq_true, Bool.and_eq_true, decide_eq_true_iff, hle]
  rfl

theorem isDigit_eq : isDigit c = decide (48 ≤ c.toNat ∧ c.toNat ≤ 57) := by
  have hle (a b : Char) : a ≤ b ↔ a.toNat ≤ b.toNat := Iff.rfl
  rw [Bool.eq_iff_iff]
  simp only [isDigit, Bool.and_eq_true, decide_eq_true_iff, hle]
  rfl

theorem not_isDigit_of_isLetter (h : isLetter c = true) : isDigit c = false := by
  rw [isLetter_eq, decide_eq_true_iff] at h
  rw [isDigit_eq, decide_eq_false_iff_not]
  omega

/-- The class of a character: whether it is a letter, and whether it is a digit. -/
def classOf : Bool × Bool :=
  (isLetter c, isDigit c)

theorem classOf_toLower : classOf c.toLower = classOf c := by
  simp only [classOf, isLetter_eq, isDigit_eq, toNat_toLower, Prod.mk.injEq, decide_eq_decide]
  split <;> omega

theorem classOf_toUpper : classOf c.toUpper = classOf c := by
  simp only [classOf, isLetter_eq, isDigit_eq, toNat_toUpper, Prod.mk.injEq, decide_eq_decide]
  split <;> omega

theorem toLower_toLower : c.toLower.toLower = c.toLower := by
  refine Char.toNat_inj.mp ?_
  rw [toNat_toLower c.toLower, toNat_toLower c]
  by_cases h : 65 ≤ c.toNat ∧ c.toNat ≤ 90
  · rw [if_pos h, if_neg (by omega)]
  · rw [if_neg h, if_neg h]

theorem toUpper_toUpper : c.toUpper.toUpper = c.toUpper := by
  refine Char.toNat_inj.mp ?_
  rw [toNat_toUpper c.toUpper, toNat_toUpper c]
  by_cases h : 97 ≤ c.toNat ∧ c.toNat ≤ 122
  · rw [if_pos h, if_neg (by omega)]
  · rw [if_neg h, if_neg h]

theorem toUpper_toLower : c.toLower.toUpper = c.toUpper := by
  refine Char.toNat_inj.mp ?_
  rw [toNat_toUpper c.toLower, toNat_toUpper c, toNat_toLower c]
  by_cases h : 65 ≤ c.toNat ∧ c.toNat ≤ 90
  · rw [if_pos h, if_pos (by omega), if_neg (by omega)]
    omega
  · rw [if_neg h]

end Characters

/-! ### Texts -/

section Texts
variable {s t : List Char}

/-- The classes of the characters of a text, in order. -/
def classes (s : List Char) : List (Bool × Bool) :=
  s.map classOf

theorem classes_lower (s : List Char) : classes (lower s) = classes s := by
  rw [classes, lower, List.map_map]
  exact List.map_congr_left fun c _ => classOf_toLower c

theorem classes_upper (s : List Char) : classes (upper s) = classes s := by
  rw [classes, upper, List.map_map]
  exact List.map_congr_left fun c _ => classOf_toUpper c

theorem lower_lower (s : List Char) : lower (lower s) = lower s := by
  rw [lower, lower, List.map_map]
  exact List.map_congr_left fun c _ => toLower_toLower c

theorem upper_upper (s : List Char) : upper (upper s) = upper s := by
  rw [upper, upper, List.map_map]
  exact List.map_congr_left fun c _ => toUpper_toUpper c

theorem upper_lower (s : List Char) : upper (lower s) = upper s := by
  rw [upper, lower, List.map_map]
  exact List.map_congr_left fun c _ => toUpper_toLower c

theorem sameLetters_lower (s t : List Char) : sameLetters (lower s) t = sameLetters s t := by
  rw [sameLetters, sameLetters, lower_lower]

theorem length_congr (h : classes s = classes t) : s.length = t.length := by
  simpa [classes] using congrArg List.length h

theorem isEmpty_congr (h : classes s = classes t) : s.isEmpty = t.isEmpty := by
  simpa [classes] using congrArg List.isEmpty h

theorem all_isLetter_congr (h : classes s = classes t) : s.all isLetter = t.all isLetter := by
  have hall := congrArg (List.all · (·.1)) h
  simpa [classes, List.all_map, Function.comp_def, classOf] using hall

theorem all_isDigit_congr (h : classes s = classes t) : s.all isDigit = t.all isDigit := by
  have hall := congrArg (List.all · (·.2)) h
  simpa [classes, List.all_map, Function.comp_def, classOf] using hall

theorem all_isAlphanumeric_congr (h : classes s = classes t) : s.all isAlphanumeric = t.all isAlphanumeric := by
  have hall := congrArg (List.all · fun k => k.1 || k.2) h
  show (s.all fun c => isLetter c || isDigit c) = t.all fun c => isLetter c || isDigit c
  simpa [classes, List.all_map, Function.comp_def, classOf] using hall

theorem head_isDigit_congr (h : classes s = classes t) : s.head?.any isDigit = t.head?.any isDigit := by
  have hhead := congrArg (fun ks => (List.head? ks).any (·.2)) h
  simpa [classes, List.head?_map, Option.any_map, Function.comp_def, classOf] using hhead

end Texts

end TypedWire.Text
