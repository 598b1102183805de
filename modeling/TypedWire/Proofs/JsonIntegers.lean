import TypedWire.Proofs.BigNumbers
import TypedWire.Proofs.FloatReads
import Mathlib.Data.List.TakeWhile

/-! # Integers in JSON text

The text of an integer has no limit, but a JSON number holds one in 64 bits, with or without sign, or is a double. An
integer that fits 64 bits in one of these ways is read as it is, and is an integer on the wire. A longer one, and a
zero with a sign, is read as a finite double, or not at all where the doubles end; no such text is read as another
integer, and as a big integer it is refused. -/

namespace TypedWire
open Text

/-! ### Literals -/

/-- An integer as JSON spells it: digits, with a sign or without, of which the first is zero only if it is alone. -/
structure IntegerLiteral where
  negative : Bool
  digits : List Char
  ne_nil : digits ≠ []
  all_isDigit : ∀ c ∈ digits, isDigit c = true
  no_leading_zero : digits.head? = some '0' → digits = ['0']

namespace IntegerLiteral

def chars (l : IntegerLiteral) : List Char :=
  if l.negative then '-' :: l.digits else l.digits

def text (l : IntegerLiteral) : String :=
  String.ofList l.chars

def value (l : IntegerLiteral) : Int :=
  if l.negative then -(ofDigits l.digits : Int) else ofDigits l.digits

/-- Whether a JSON number holds the integer: it fits 64 bits, with or without sign, and is no zero with a sign. -/
def IsHeld (l : IntegerLiteral) : Prop :=
  -(2 ^ 63) ≤ l.value ∧ l.value < 2 ^ 64 ∧ (l.negative = true → l.value ≠ 0)

/-- All literals but the zero with a sign are the texts of their integers. -/
theorem text_eq {l : IntegerLiteral} (hzero : l.negative = true → l.value ≠ 0) : l.text = integerText l.value := by
  have hdigits := decimalDigits_ofDigits l.ne_nil l.all_isDigit l.no_leading_zero
  unfold text chars value integerText
  unfold value at hzero
  cases hnegative : l.negative with
  | false =>
    rw [if_neg Bool.false_ne_true, if_neg Bool.false_ne_true, if_neg (by omega), Int.natAbs_natCast, hdigits]
  | true =>
    have hne := hzero hnegative
    rw [hnegative, if_pos rfl] at hne
    rw [if_pos rfl, if_pos rfl, if_pos (by omega), Int.natAbs_neg, Int.natAbs_natCast, hdigits]

theorem not_isHeld_iff {l : IntegerLiteral} : ¬l.IsHeld ↔
    Json.gatherLimit < ofDigits l.digits ∨
      l.negative = true ∧ (ofDigits l.digits = 0 ∨ 2 ^ 63 < ofDigits l.digits) := by
  have hlimit : Json.gatherLimit = 2 ^ 64 - 1 := rfl
  unfold IsHeld value
  cases l.negative with
  | false => simp only [Bool.false_eq_true, if_false, false_and, or_false, false_implies, and_true]; omega
  | true => simp only [if_true, true_and, true_implies]; omega

end IntegerLiteral

/-! ### Digits that are not an integer -/

namespace Json
variable {ds rest : List Char} {n : Nat} {x y : Binary64} {negative : Bool} {j : Json}

theorem gather_le (hn : n ≤ gatherLimit) (k : Nat) (cs : List Char) : (gather n k cs).1 ≤ gatherLimit := by
  induction cs generalizing n k with
  | nil => exact hn
  | cons c cs ih =>
    rw [gather]
    split
    · next h => exact ih (of_decide_eq_true (Bool.and_eq_true_iff.mp h).2) _
    · exact hn

/-- Digits of too great a number are not all gathered. -/
theorem gather_left_ne_nil (hn : n ≤ gatherLimit) (hlarge : gatherLimit < digitsFrom n ds) (k : Nat) :
    (gather n k ds).2.2 ≠ [] := by
  induction ds generalizing n k with
  | nil => exact absurd hlarge (Nat.not_lt.mpr hn)
  | cons c cs ih =>
    rw [gather]
    split
    · next h => exact ih (of_decide_eq_true (Bool.and_eq_true_iff.mp h).2) hlarge _
    · exact List.cons_ne_nil c cs

theorem skipped_of_gather (hds : ∀ c ∈ ds, isDigit c = true) (hlarge : gatherLimit < ofDigits ds) :
    ((gather 0 0 ds).2.2.takeWhile isDigit).length ≠ 0 ∧ (gather 0 0 ds).2.2.dropWhile isDigit = [] := by
  have hleft := gather_left_ne_nil (Nat.zero_le _) hlarge 0
  obtain ⟨front, hfront, -⟩ := exists_gathered ds 0 0
  have hrest : ∀ c ∈ (gather 0 0 ds).2.2, isDigit c = true := fun c hc =>
    hds c (hfront ▸ List.mem_append_right _ hc)
  refine ⟨?_, List.dropWhile_eq_nil_iff.mpr hrest⟩
  rw [List.takeWhile_eq_self_iff.mpr hrest]
  exact fun hnil => hleft (List.length_eq_zero_iff.mp hnil)

theorem isFinite_of_applyExponent (hx : x.isFinite = true) {e : Int} (he : 0 ≤ e) (h : applyExponent x e = some y) :
    y.isFinite = true := by
  rw [applyExponent] at h
  simp only [he, if_true] at h
  split at h
  · obtain ⟨hfinite, hy⟩ := Option.ite_none_right_eq_some.mp h
    exact Option.some.inj hy ▸ hfinite
  · split at h
    · exact Option.some.inj h ▸ hx
    · cases h

theorem isFinite_ofInt_gathered (hn : n ≤ gatherLimit) : (Binary.ofInt n : Binary64).isFinite = true := by
  have hlimit : gatherLimit < 2 ^ 1024 - 2 ^ 970 := by decide +kernel
  rw [Wire.isFinite_ofInt_binary64, Int.natAbs_natCast]
  exact hn.trans_lt hlimit

theorem isFinite_of_readFloat {moved : Nat} (hn : n ≤ gatherLimit) (h : readFloat n moved [] = some (x, rest)) :
    x.isFinite = true := by
  obtain ⟨y, hy, hx⟩ := Option.map_eq_some_iff.mp h
  obtain ⟨rfl, -⟩ := Prod.mk.inj hx
  exact isFinite_of_applyExponent (isFinite_ofInt_gathered hn) (Int.natCast_nonneg _) hy

/-- Digits that no JSON integer holds are read as a finite double, if they are read at all. -/
theorem float_of_readMagnitude (hds : ∀ c ∈ ds, isDigit c = true)
    (hout : gatherLimit < ofDigits ds ∨ negative = true ∧ (ofDigits ds = 0 ∨ 2 ^ 63 < ofDigits ds))
    (h : readMagnitude negative ds = some (j, rest)) : ∃ x, j = float x ∧ x.isFinite = true := by
  have hsigned {x : Binary64} (hx : x.isFinite = true) : (if negative then x.neg else x).isFinite = true := by
    split
    · rwa [Binary.isFinite_neg]
    · exact hx
  unfold readMagnitude at h
  dsimp only at h
  obtain ⟨-, h⟩ := Option.ite_none_left_eq_some.mp h
  rcases Nat.lt_or_ge gatherLimit (ofDigits ds) with hlarge | hfits
  · -- Digits are left over, so the number is read on as a double.
    obtain ⟨hsome, hnone⟩ := skipped_of_gather hds hlarge
    rw [if_pos (by simp [hsome]), hnone] at h
    obtain ⟨⟨y, rest'⟩, hread, hj⟩ := Option.map_eq_some_iff.mp h
    have hfinite := isFinite_of_readFloat (gather_le (Nat.zero_le _) 0 ds) hread
    exact ⟨_, (Prod.mk.inj hj).1.symm, hsigned hfinite⟩
  · obtain ⟨rfl, hsize⟩ := hout.resolve_left (Nat.not_lt.mpr hfits)
    have hgather : gather 0 0 (ds ++ []) = (ofDigits ds, 0 + ds.length, []) :=
      gather_digits hds hfits Ends.nil.not_isDigit 0
    rw [List.append_nil] at hgather
    rw [hgather] at h
    have hfloat : (ofDigits ds = 0 || 2 ^ 63 < ofDigits ds) = true := by simpa using hsize
    dsimp only at h
    rw [if_neg (by simp [continuesFloat]), if_neg (by simp), if_pos hfloat] at h
    exact ⟨_, (Prod.mk.inj (Option.some.inj h)).1.symm, hsigned (isFinite_ofInt_gathered hfits)⟩

theorem readMagnitude_of_parse? {l : IntegerLiteral} (h : parse? l.text = some j) :
    ∃ rest, readMagnitude l.negative l.digits = some (j, rest) := by
  obtain ⟨d, ds, hds⟩ := List.exists_cons_of_ne_nil l.ne_nil
  have hd : isDigit d = true := l.all_isDigit d (hds ▸ .head _)
  have hread {c : Char} {cs : List Char} (hc : beginsNumber c = true) (h : parse? (String.ofList (c :: cs)) = some j) :
      ∃ rest, readNumber (c :: cs) = some (j, rest) := by
    rw [parse?_number hc] at h
    obtain ⟨⟨j', rest⟩, hread, h⟩ := Option.bind_eq_some_iff.mp h
    obtain rfl := Option.some.inj (Option.ite_none_right_eq_some.mp h).2
    exact ⟨rest, hread⟩
  unfold IntegerLiteral.text IntegerLiteral.chars at h
  cases hnegative : l.negative with
  | true =>
    rw [hnegative, if_pos rfl] at h
    exact hread rfl h
  | false =>
    rw [hnegative, if_neg Bool.false_ne_true, hds] at h
    obtain ⟨rest, hrest⟩ := hread (beginsNumber_of_isDigit hd) h
    refine ⟨rest, ?_⟩
    rw [hds, ← hrest, readNumber]
    rintro cs ⟨⟩
    exact absurd hd (by decide)

end Json

/-! ### Texts and what they are on the wire -/

namespace IntegerLiteral
open Wire
variable {l : IntegerLiteral}

theorem ofJsonText_of_isHeld (h : l.IsHeld) : ofJsonText l.text = .ok (leaf (integerOfJson l.value)) := by
  have hfits : (Json.integer l.value).Fits Json.depthLimit := Json.isInteger_iff.mpr ⟨h.1, h.2.1⟩
  have htext : (Json.integer l.value).text = integerText l.value := String.ofList_toList
  rw [text_eq h.2.2, ← htext, ofJsonText, Json.parse?_text hfits]
  rfl

theorem ofJsonText_of_not_isHeld (h : ¬l.IsHeld) :
    (∃ x : Binary64, x.isFinite = true ∧ ofJsonText l.text = .ok (leaf (.float x))) ∨
      ofJsonText l.text = .error .json := by
  rw [ofJsonText]
  cases hparse : Json.parse? l.text with
  | none => exact Or.inr rfl
  | some j =>
    obtain ⟨rest, hread⟩ := Json.readMagnitude_of_parse? hparse
    obtain ⟨x, rfl, hx⟩ := Json.float_of_readMagnitude l.all_isDigit (not_isHeld_iff.mp h) hread
    exact Or.inl ⟨x, hx, rfl⟩

/-- What an integer becomes: the word that is it, or a big integer if there is none. -/
theorem integerOfJson_cases (n : Int) :
    (∃ k : Int64, integerOfJson n = .integer k ∧ k.toInt = n) ∨
      integerOfJson n = .bigInteger n ∧ ¬(-(2 ^ 63) ≤ n ∧ n < 2 ^ 63) := by
  unfold integerOfJson
  cases hn : int64? n with
  | some k => exact Or.inl ⟨k, rfl, toInt_of_int64? hn⟩
  | none =>
    refine Or.inr ⟨rfl, fun hrange => ?_⟩
    rw [int64?, if_pos hrange] at hn
    cases hn

/-- What a literal is on the wire. -/
theorem ofJsonText_cases (l : IntegerLiteral) :
    (∃ k : Int64, l.IsHeld ∧ k.toInt = l.value ∧ ofJsonText l.text = .ok (leaf (.integer k))) ∨
    (l.IsHeld ∧ 2 ^ 63 ≤ l.value ∧ ofJsonText l.text = .ok (leaf (.bigInteger l.value))) ∨
    (∃ x : Binary64, ¬l.IsHeld ∧ x.isFinite = true ∧ ofJsonText l.text = .ok (leaf (.float x))) ∨
    ¬l.IsHeld ∧ ofJsonText l.text = .error .json := by
  by_cases h : l.IsHeld
  · have hread := ofJsonText_of_isHeld h
    rcases integerOfJson_cases l.value with ⟨k, hk, hvalue⟩ | ⟨hbig, hrange⟩
    · exact Or.inl ⟨k, h, hvalue, hk ▸ hread⟩
    · have hlow : -(2 ^ 63) ≤ l.value := h.1
      exact Or.inr (Or.inl ⟨h, by omega, hbig ▸ hread⟩)
  · rcases ofJsonText_of_not_isHeld h with ⟨x, hx, hread⟩ | hread
    · exact Or.inr (Or.inr (Or.inl ⟨x, h, hx, hread⟩))
    · exact Or.inr (Or.inr (Or.inr ⟨h, hread⟩))

/-- A literal is read as the integer it denotes exactly if a JSON number holds that integer: in 64 bits if it fits
    there, as a big integer else, and from either one the same big integer is read. All other literals are read as
    finite doubles or refused, and no big integer is read from what they become. -/
theorem ofJsonText_iff (l : IntegerLiteral) (history : List Lookup) :
    (∀ k, ofJsonText l.text = .ok (leaf (.integer k)) ↔ l.IsHeld ∧ k.toInt = l.value) ∧
    (∀ n, ofJsonText l.text = .ok (leaf (.bigInteger n)) ↔ l.IsHeld ∧ n = l.value ∧ 2 ^ 63 ≤ n) ∧
    ((∃ x : Binary64, x.isFinite = true ∧ ofJsonText l.text = .ok (leaf (.float x))) ∨
      ofJsonText l.text = .error .json ↔ ¬l.IsHeld) ∧
    ∀ n, (∃ w, ofJsonText l.text = .ok w ∧
      (RegistryM.fromWire w (.ofClass Class.bigInteger) (Registry.builtInOnly.after history)).1 =
        .ok (.bigInteger n)) ↔ l.IsHeld ∧ n = l.value := by
  have hfrom (w : Wire) (n : Int) :
      (RegistryM.fromWire w (.ofClass Class.bigInteger) (Registry.builtInOnly.after history)).1 =
        .ok (.bigInteger n) ↔ w.readBigInteger = .ok n := by
    rw [RegistryM.run_fromWire (.after history), value_bigInteger]
  simp only [hfrom]
  rcases l.ofJsonText_cases with ⟨k, h, hvalue, hread⟩ | ⟨h, hlarge, hread⟩ | ⟨x, h, hx, hread⟩ | ⟨h, hread⟩
  · rw [hread]
    refine ⟨fun m => ?_, fun n => iff_of_false (by simp) ?_, by simp [h], fun n => ?_⟩
    · simp [h, ← hvalue, Int64.toInt_inj, eq_comm]
    · rintro ⟨-, hn, hle⟩
      have hupper := k.toInt_lt
      omega
    · simp [h, readBigInteger, hvalue, eq_comm]
  · rw [hread]
    refine ⟨fun m => iff_of_false (by simp) ?_, fun n => ⟨fun heq => ?_, ?_⟩, by simp [h], fun n => ?_⟩
    · rintro ⟨-, hm⟩
      have hupper := m.toInt_lt
      omega
    · obtain rfl : l.value = n := by simpa using heq
      exact ⟨h, rfl, hlarge⟩
    · rintro ⟨-, rfl, -⟩
      rfl
    · simp [h, readBigInteger, eq_comm]
  · rw [hread]
    simp [h, hx, readBigInteger, unexpected]
  · rw [hread]
    simp [h]

/-- Two to the 64 is one more than 64 bits hold, and is read as a double. -/
theorem ofJsonText_pastWords :
    ∃ l : IntegerLiteral, l.text = "18446744073709551616" ∧ l.value = 2 ^ 64 ∧
      ofJsonText l.text = .ok (leaf (.float (.ofInt (2 ^ 64)))) ∧
      ofJsonText l.text ≠ .ok (leaf (.bigInteger (2 ^ 64))) := by
  have hnumber : Json.readNumber
        ['1', '8', '4', '4', '6', '7', '4', '4', '0', '7', '3', '7', '0', '9', '5', '5', '1', '6', '1', '6'] =
      ((Json.applyExponent (.ofInt (1844674407370955161 : Nat)) 1).map (·, [])).map (Prod.map .float id) := rfl
  have hproduct : (Binary.ofInt (1844674407370955161 : Nat)).mul (Json.power 1) = .ofInt (2 ^ 64) := by
    decide
  have hparse : Json.parse? "18446744073709551616" = some (.float (.ofInt (2 ^ 64))) := by
    refine (Json.parse?_number rfl).trans ?_
    rw [hnumber, Json.applyExponent, if_pos (by decide), if_pos (by decide)]
    dsimp only [Int.toNat_one]
    rw [hproduct]
    rfl
  have hread : ofJsonText "18446744073709551616" = .ok (leaf (.float (.ofInt (2 ^ 64)))) := by
    rw [ofJsonText, hparse]
    rfl
  have hdigits : ∀ c ∈ "18446744073709551616".toList, isDigit c = true := by simp [isDigit]
  have hnumberOf : ofDigits "18446744073709551616".toList = 2 ^ 64 := rfl
  obtain ⟨l, htext, hvalue⟩ : ∃ l : IntegerLiteral, l.text = "18446744073709551616" ∧ l.value = 2 ^ 64 := by
    refine ⟨⟨false, "18446744073709551616".toList, by simp, hdigits, by simp⟩, rfl, ?_⟩
    rw [value, if_neg Bool.false_ne_true, hnumberOf, Nat.cast_pow, Nat.cast_ofNat]
  rw [← htext] at hread
  refine ⟨l, htext, hvalue, hread, ?_⟩
  rw [hread]
  simp

end IntegerLiteral

end TypedWire
