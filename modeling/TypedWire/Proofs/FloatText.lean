import TypedWire.Proofs.DecimalText
import TypedWire.Proofs.Shortest

/-! # Binary numbers in text

The plain text of a finite double is read as its shortest decimal. As that decimal rounds to the double alone, two
doubles with equal decimals are one, except for the two zeros. -/

namespace TypedWire
open Text

namespace Binary

section Bits
variable {f : BinaryFormat} {x y : Binary f}

theorem toNat_eq (x : Binary f) :
    x.bits.toNat = x.magnitude + if x.isNegative then 2 ^ (f.width - 1) else 0 := by
  have hbound : x.bits.toNat < 2 ^ f.width := x.bits.isLt
  have hdouble : 2 ^ f.width ≤ 2 * 2 ^ (f.width - 1) := by
    rw [← Nat.pow_succ']
    exact Nat.pow_le_pow_right (by decide) (by omega)
  unfold magnitude isNegative
  by_cases h : 2 ^ (f.width - 1) ≤ x.bits.toNat
  · rw [decide_eq_true h, if_pos rfl, Nat.mod_eq_sub_mod h, Nat.mod_eq_of_lt (by omega)]
    omega
  · rw [decide_eq_false h, if_neg Bool.false_ne_true, Nat.mod_eq_of_lt (by omega), Nat.add_zero]

theorem eq_of_magnitude (hsign : x.isNegative = y.isNegative) (h : x.magnitude = y.magnitude) : x = y := by
  have hbits : x.bits.toNat = y.bits.toNat := by
    rw [toNat_eq, toNat_eq, hsign, h]
  obtain ⟨a⟩ := x
  obtain ⟨b⟩ := y
  exact congrArg Binary.mk (BitVec.eq_of_toNat_eq hbits)

end Bits

/-! ### The plain text of a double -/

section PlainText
variable {x y : Binary64} {tie : Tie}

/-- The digits of the shortest decimal are digits, one at least. -/
theorem digits_shortest (tie : Tie) (x : Binary64) :
    (x.shortest tie).digits ≠ [] ∧ ∀ c ∈ (x.shortest tie).digits, isDigit c = true := by
  cases hx : x.isZero with
  | true =>
    have hzero : x.shortest tie = ⟨['0'], 0⟩ := by
      rw [shortest, hx, if_pos rfl]
    rw [hzero]
    exact ⟨by simp, by simp [isDigit]⟩
  | false =>
    obtain ⟨hne, hdigits, -⟩ := rounds_shortest tie hx (by decide)
    exact ⟨hne, hdigits⟩

theorem value_shortest_zero (tie : Tie) (hx : x.isZero = true) : (x.shortest tie).value = 0 := by
  rw [shortest, hx, if_pos rfl]
  simp [Scientific.value, ofDigits, digitValue]

theorem value_shortest_pos (tie : Tie) (hx : x.isZero = false) : 0 < (x.shortest tie).value :=
  pos_of_rounds (significand_pos hx) (rounds_shortest tie hx (by decide)).2.2

/-- The shortest decimal of a double, with its sign. -/
def shortestValue (x : Binary64) : ℚ :=
  if x.isNegative then -(x.shortest .up).value else (x.shortest .up).value

/-- The plain text of a number is read as its shortest decimal, if it is read at all. -/
theorem value_of_parse_plainText {d : Decimal} (h : Decimal.parse x.plainText = .ok d) :
    d.value = x.shortestValue := by
  obtain ⟨hne, hdigits⟩ := x.digits_shortest .up
  unfold plainText at h
  split at h
  · cases h
  dsimp only at h
  split at h
  · split at h <;> cases h
  rw [sign_append] at h
  rw [Decimal.value_of_parse_positional hne hdigits h, shortestValue, Scientific.value]
  cases x.isNegative with
  | false => simp [withSign]
  | true => simp [withSign]

theorem shortestValue_neg_iff (hx : x.isZero = false) : x.shortestValue < 0 ↔ x.isNegative = true := by
  have hpos := value_shortest_pos .up hx
  unfold shortestValue
  split
  · next h => exact iff_of_true (by linarith) h
  · next h => exact iff_of_false (by linarith) h

theorem abs_shortestValue (x : Binary64) : |x.shortestValue| = (x.shortest .up).value := by
  have hnonneg : 0 ≤ (x.shortest .up).value := by
    unfold Scientific.value
    positivity
  unfold shortestValue
  split
  · rw [abs_neg, abs_of_nonneg hnonneg]
  · rw [abs_of_nonneg hnonneg]

/-- A number other than the zeros is told by its shortest decimal. -/
theorem eq_of_shortestValue (hx : x.isZero = false) (h : x.shortestValue = y.shortestValue) : x = y := by
  have hvalue : (x.shortest .up).value = (y.shortest .up).value := by
    rw [← abs_shortestValue, h, abs_shortestValue]
  have hy : y.isZero = false := by
    refine Bool.eq_false_iff.mpr fun hy => ?_
    rw [value_shortest_zero .up hy] at hvalue
    exact (value_shortest_pos .up hx).ne' hvalue
  have hsign : x.isNegative = y.isNegative := by
    rw [Bool.eq_iff_iff, ← shortestValue_neg_iff hx, h, shortestValue_neg_iff hy]
  have hxRounds := (rounds_shortest .up hx (by decide)).2.2
  have hyRounds := (rounds_shortest .up hy (by decide)).2.2
  rw [← hvalue] at hyRounds
  exact eq_of_magnitude hsign (hxRounds.magnitude_eq (by decide) hyRounds)

end PlainText

end Binary

end TypedWire
