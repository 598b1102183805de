import TypedWire.Json.Printer
import TypedWire.Json.Reader
import TypedWire.Proofs.DecimalDigits

/-! # Strings and integers in JSON text

What is printed of a string or an integer is read as it, whatever follows it in the text. -/

namespace TypedWire.Json
open Text

/-! ### Strings -/

section Strings
variable {c : Char}

/-- The two hexadecimal digits of a control character stand for it. -/
theorem codeUnit?_control : ∀ n : Fin 32,
    codeUnit? '0' '0' (Nat.digitChar (n.val / 16)) (Nat.digitChar (n.val % 16)) = some n.val := by
  decide

theorem readString_letter (rest : List Char) {letter : Char} (hu : letter ≠ 'u') (h : unescape? letter = some c) :
    readString ('\\' :: letter :: rest) = (readString rest).map fun (s, rest) => (c :: s, rest) := by
  rw [readString.eq_4 _ _ (fun _ _ _ _ _ h _ => hu h), h]

theorem readString_control (h : c < ' ') (rest : List Char) :
    readString ('\\' :: 'u' :: '0' :: '0' :: Nat.digitChar (c.toNat / 16) :: Nat.digitChar (c.toNat % 16) :: rest) =
      (readString rest).map fun (s, rest) => (c :: s, rest) := by
  have hsmall : c.toNat < 32 := h
  have hhigh : isHighSurrogate c.toNat = false := by
    simp only [isHighSurrogate, Bool.and_eq_false_iff, decide_eq_false_iff_not]
    omega
  have hlow : isLowSurrogate c.toNat = false := by
    simp only [isLowSurrogate, Bool.and_eq_false_iff, decide_eq_false_iff_not]
    omega
  rw [readString.eq_3, codeUnit?_control ⟨c.toNat, hsmall⟩]
  simp only [hhigh, hlow, Bool.false_eq_true, if_false, Char.ofNat_toNat]

/-- A character without an escape of its own. -/
theorem readString_plain (hquote : c ≠ '"') (hslash : c ≠ '\\') (hcontrol : ¬ c < ' ') (rest : List Char) :
    readString (c :: rest) = (readString rest).map fun (s, rest) => (c :: s, rest) := by
  rw [readString.eq_5 _ _ hquote (fun _ _ _ _ _ h _ => hslash h) (fun _ _ h _ => hslash h)]
  simp only [hcontrol, hslash, decide_false, Bool.or_self, Bool.false_eq_true, if_false]

theorem readString_escape (c : Char) (rest : List Char) :
    readString (escape c ++ rest) = (readString rest).map fun (s, rest) => (c :: s, rest) := by
  unfold escape
  split
  · next h => subst h; exact readString_letter rest (by decide) rfl
  split
  · next h => subst h; exact readString_letter rest (by decide) rfl
  split
  · next h => subst h; exact readString_letter rest (by decide) rfl
  split
  · next h => subst h; exact readString_letter rest (by decide) rfl
  split
  · next h => subst h; exact readString_letter rest (by decide) rfl
  split
  · next h => subst h; exact readString_letter rest (by decide) rfl
  split
  · next h => subst h; exact readString_letter rest (by decide) rfl
  split
  · next h => exact readString_control h rest
  · next hquote hslash _ _ _ _ _ hcontrol => exact readString_plain hquote hslash hcontrol rest

/-- The characters of a string, escaped and closed by a quote, are read as they are. -/
theorem readString_flatMap_escape (cs rest : List Char) :
    readString (cs.flatMap escape ++ '"' :: rest) = some (cs, rest) := by
  induction cs with
  | nil => rw [List.flatMap_nil, List.nil_append, readString.eq_2]
  | cons c cs ih => rw [List.flatMap_cons, List.append_assoc, readString_escape, ih, Option.map_some]

/-- Behind its opening quote the text of a string is read as the string. -/
theorem exists_readString_stringText (s : String) (rest : List Char) :
    ∃ body, stringText s ++ rest = '"' :: body ∧ readString body = some (s.toList, rest) := by
  refine ⟨s.toList.flatMap escape ++ '"' :: rest, ?_, readString_flatMap_escape s.toList rest⟩
  rw [stringText, List.cons_append, List.cons_append, List.append_assoc]
  rfl

end Strings

/-! ### Integers -/

/-- Where a value may end: at the end of the text, or before a comma or a closing bracket. -/
def Ends (rest : List Char) : Prop :=
  ∀ c ∈ rest.head?, c = ',' ∨ c = ']' ∨ c = '\x7d'

section Integers
variable {ds rest : List Char} {n : Nat}

theorem Ends.nil : Ends [] :=
  nofun

theorem Ends.comma : Ends (',' :: rest) := by
  simp [Ends]

theorem Ends.bracket : Ends (']' :: rest) := by
  simp [Ends]

theorem Ends.brace : Ends ('\x7d' :: rest) := by
  simp [Ends]

theorem Ends.not_isDigit (h : Ends rest) : ∀ c ∈ rest.head?, isDigit c = false := by
  intro c hc
  rcases h c hc with rfl | rfl | rfl <;> decide

theorem Ends.dropWhile_isDigit (h : Ends rest) : rest.dropWhile isDigit = rest := by
  cases rest with
  | nil => rfl
  | cons c cs => rw [List.dropWhile_cons_of_neg (by simpa using h.not_isDigit c rfl)]

theorem Ends.takeWhile_isDigit (h : Ends rest) : rest.takeWhile isDigit = [] := by
  cases rest with
  | nil => rfl
  | cons c cs => rw [List.takeWhile_cons_of_neg (by simpa using h.not_isDigit c rfl)]

theorem Ends.continuesFloat (h : Ends rest) : continuesFloat rest = false := by
  cases rest with
  | nil => rfl
  | cons c cs =>
    rcases h c rfl with rfl | rfl | rfl <;> rfl

theorem gather_digits (hds : ∀ c ∈ ds, isDigit c = true) (hfit : digitsFrom n ds ≤ gatherLimit)
    (hrest : ∀ c ∈ rest.head?, isDigit c = false) (k : Nat) :
    gather n k (ds ++ rest) = (digitsFrom n ds, k + ds.length, rest) := by
  induction ds generalizing n k with
  | nil =>
    cases rest with
    | nil => rfl
    | cons c cs => rw [List.nil_append, gather, hrest c rfl]; rfl
  | cons d ds ih =>
    obtain ⟨hd, hds⟩ := List.forall_mem_cons.mp hds
    have hstep : 10 * n + digitValue d ≤ gatherLimit := Nat.le_trans (le_digitsFrom _ ds) hfit
    rw [List.cons_append, gather, hd, decide_eq_true hstep, ih hds hfit, List.length_cons]
    simp only [Bool.and_self, if_true, Nat.add_assoc, Nat.add_comm 1]
    rfl

/-- The digits of a number are read as it, with a sign where one stands before them. -/
theorem readMagnitude_decimalDigits (negative : Bool) (hn : n ≤ gatherLimit) (hrest : Ends rest)
    (hnegative : negative = true → n ≠ 0 ∧ n ≤ 2 ^ 63) :
    readMagnitude negative (decimalDigits n ++ rest) = some (integer (if negative then -n else n), rest) := by
  have hgather : gather 0 0 (decimalDigits n ++ rest) = (n, (decimalDigits n).length, rest) := by
    rw [gather_digits (fun c => isDigit_of_mem_decimalDigits n) _ hrest.not_isDigit] <;>
      rw [← ofDigits_eq_digitsFrom, ofDigits_decimalDigits]
    · rw [Nat.zero_add]
    · exact hn
  unfold readMagnitude
  dsimp only
  rw [if_neg, hgather]
  · dsimp only
    rw [hrest.takeWhile_isDigit, hrest.dropWhile_isDigit, hrest.continuesFloat]
    cases negative with
    | false => rfl
    | true =>
      obtain ⟨hne, hle⟩ := hnegative rfl
      simp [hne, Nat.not_lt.mpr hle]
  · obtain ⟨d, ds, hds, hd, hzero⟩ := decimalDigits_eq_cons n
    rw [hds, List.cons_append]
    split
    · next c cs heq =>
      -- A leading zero is all of the number.
      obtain ⟨rfl, hcs⟩ := List.cons.inj heq
      obtain rfl := hzero rfl
      obtain rfl : [] = ds := (List.cons.inj hds).2
      obtain rfl : rest = c :: cs := hcs
      simp [hrest.not_isDigit c rfl]
    · next c cs _ heq =>
      obtain rfl := (List.cons.inj heq).1
      simp [hd]
    · next heq => exact absurd heq (List.cons_ne_nil d _)

theorem isInteger_iff {n : Int} : isInteger n = true ↔ -(2 ^ 63) ≤ n ∧ n < 2 ^ 64 := by
  rw [isInteger, Bool.and_eq_true, decide_eq_true_iff, decide_eq_true_iff]

/-- The text of an integer is read as it. -/
theorem readNumber_integerText {n : Int} (h : isInteger n = true) (hrest : Ends rest) :
    readNumber ((integerText n).toList ++ rest) = some (integer n, rest) := by
  obtain ⟨hlow, hhigh⟩ := isInteger_iff.mp h
  rw [integerText, String.toList_ofList]
  by_cases hn : n < 0
  · rw [if_pos hn, List.cons_append]
    have hread := readMagnitude_decimalDigits (n := n.natAbs) true (by simp only [gatherLimit]; omega) hrest
      fun _ => by omega
    rw [if_pos rfl] at hread
    rw [readNumber, hread, show -(n.natAbs : Int) = n by omega]
  · rw [if_neg hn]
    have hread := readMagnitude_decimalDigits (n := n.natAbs) false (by simp only [gatherLimit]; omega) hrest nofun
    rw [if_neg Bool.false_ne_true] at hread
    obtain ⟨d, ds, hds, hd, -⟩ := decimalDigits_eq_cons n.natAbs
    rw [hds, List.cons_append] at hread ⊢
    rw [readNumber, hread, show (n.natAbs : Int) = n by omega]
    rintro cs ⟨⟩
    exact absurd hd (by decide)

end Integers

end TypedWire.Json
