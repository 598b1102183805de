import TypedWire.Proofs.BinaryRange
import TypedWire.Proofs.IntegerReads

/-! # Reading floating-point numbers

Any number can be asked for as a double or as a float, and a finite one should not come out as an infinity. A double
past the floats is refused when it is narrowed, and the value stays. Nothing is refused when an integer is widened:
from halfway between the greatest double and the next power of two on, a big integer becomes the infinite double, and
an infinite double passes as an infinite float. -/

namespace TypedWire

namespace Wire

/-- A finite number: an integer of either carrier, or a finite double. -/
def IsFiniteNumber (w : Wire) : Prop :=
  (∃ n, w.integer? = some n) ∨ ∃ x, w = leaf (.float x) ∧ x.isFinite = true

/-- An infinity or a NaN. -/
def IsNotFinite (w : Wire) : Prop :=
  ∃ x, w = leaf (.float x) ∧ x.isFinite = false

/-- An integer that no finite double is nearest to. -/
def IsPastDoubles (w : Wire) : Prop :=
  ∃ n, w.integer? = some n ∧ 2 ^ 1024 - 2 ^ 970 ≤ n.natAbs

section Floats
variable {w : Wire} {n : Int} {x : Binary64}

theorem readBinary64_of_integer? (h : w.integer? = some n) (target : Kind) :
    w.readBinary64 target = .ok (.ofInt n) := by
  cases w with
  | leaf l =>
    cases l with
    | integer | bigInteger =>
      cases h
      rfl
    | null | boolean | float | bigDecimal | string => cases h
  | array | object => cases h

theorem isFinite_ofInt_binary64 (n : Int) :
    (Binary.ofInt n : Binary64).isFinite = true ↔ n.natAbs < 2 ^ 1024 - 2 ^ 970 := by
  have hcast {a b : Nat} (h : b ≤ a) : ((2 ^ a - 2 ^ b : Nat) : ℚ) = 2 ^ a - 2 ^ b := by
    rw [Nat.cast_sub (Nat.pow_le_pow_right (by decide) h), Nat.cast_pow, Nat.cast_pow, Nat.cast_ofNat]
  rw [Binary.isFinite_ofInt BinaryFormat.isWide_binary64, Binary.overflow_binary64, ← hcast (by decide), Nat.cast_lt]

/-- Every number is read as a double, whatever is asked for; it is finite unless the number is not finite or an integer
    past the doubles. -/
theorem readBinary64_of_number (h : w.IsFiniteNumber ∨ w.IsNotFinite) :
    ∃ x, (∀ target, w.readBinary64 target = .ok x) ∧ (x.isFinite = true ↔ w.IsFiniteNumber ∧ ¬w.IsPastDoubles) := by
  rcases h with (⟨n, hn⟩ | ⟨x, rfl, hx⟩) | ⟨x, rfl, hx⟩
  · refine ⟨.ofInt n, readBinary64_of_integer? hn, ?_⟩
    rw [isFinite_ofInt_binary64]
    constructor
    · rintro hlt
      refine ⟨Or.inl ⟨n, hn⟩, ?_⟩
      rintro ⟨m, hm, hle⟩
      cases hn.symm.trans hm
      exact absurd hlt (not_lt.mpr hle)
    · rintro ⟨-, hpast⟩
      exact not_le.mp fun hle => hpast ⟨n, hn, hle⟩
  · refine ⟨x, fun _ => rfl, iff_of_true hx ⟨Or.inr ⟨x, rfl, hx⟩, ?_⟩⟩
    rintro ⟨n, hn, -⟩
    cases hn
  · refine ⟨x, fun _ => rfl, iff_of_false (Bool.eq_false_iff.mp hx) ?_⟩
    rintro ⟨⟨n, hn⟩ | ⟨y, hy, hfinite⟩, -⟩
    · cases hn
    · cases hy
      exact absurd (hx.symm.trans hfinite) Bool.false_ne_true

/-- The narrowing refuses the finite doubles past the floats, and makes infinities of infinities alone. -/
theorem readBinary32_of_binary64 (h : w.readBinary64 .float = .ok x) :
    (w.readBinary32 = .error (.outOfRange .float x.plainText) ∧ x.isFinite = true ∧
      BinaryFormat.binary32.overflow ≤ x.absValue) ∨
    ∃ y, w.readBinary32 = .ok y ∧ y.isFinite = x.isFinite ∧
      (x.isFinite = true → x.absValue < BinaryFormat.binary32.overflow) := by
  have hnarrow := Binary.isFinite_convert (x := x) BinaryFormat.isWide_binary32
  unfold readBinary32
  rw [h]
  cases hx : x.isFinite with
  | false =>
    refine Or.inr ⟨x.convert, ?_, ?_, nofun⟩
    · dsimp only [bind, Except.bind]
      rw [hx, Bool.false_and, if_neg Bool.false_ne_true]
      rfl
    · rw [hx] at hnarrow
      exact Bool.eq_false_iff.mpr fun hy => Bool.false_ne_true (hnarrow.mp hy).1
  | true =>
    rw [hx, eq_self, true_and] at hnarrow
    cases hy : (x.convert : Binary32).isFinite with
    | false =>
      refine Or.inl ⟨?_, rfl, not_lt.mp fun hlt => ?_⟩
      · dsimp only [bind, Except.bind]
        rw [hx, hy]
        rfl
      · exact Bool.false_ne_true (hy.symm.trans (hnarrow.mpr hlt))
    | true =>
      refine Or.inr ⟨x.convert, ?_, hy, fun _ => hnarrow.mp hy⟩
      dsimp only [bind, Except.bind]
      rw [hx, hy]
      rfl

end Floats

end Wire

/-! ### Both reads -/

namespace Decoder

/-- A decoder before a number reads a double from it, which is finite unless the number is an infinity, a NaN or an
    integer past the doubles. As a float it reads that double narrowed, which is finite if the double is; only a finite
    double past the floats is refused as out of range, and then the number is still there. -/
theorem number_read_finite_iff (d : Decoder) (w : Wire) (hw : d.current = .ok w)
    (hnumber : w.IsFiniteNumber ∨ w.IsNotFinite) :
    ∃ x : Binary64, DecoderM.scalar .double d = (.ok x, d.drop) ∧
      (x.isFinite = true ↔ w.IsFiniteNumber ∧ ¬w.IsPastDoubles) ∧
      ((DecoderM.scalar .float d = (.error (.outOfRange .float x.plainText), d) ∧ x.isFinite = true ∧
          2 ^ 128 - 2 ^ 103 ≤ x.absValue) ∨
        ∃ y : Binary32, DecoderM.scalar .float d = (.ok y, d.drop) ∧ y.isFinite = x.isFinite ∧
          (x.isFinite = true → x.absValue < 2 ^ 128 - 2 ^ 103)) := by
  obtain ⟨x, hread, hfinite⟩ := Wire.readBinary64_of_number hnumber
  refine ⟨x, ?_, hfinite, ?_⟩
  · rw [DecoderM.scalar, DecoderM.takeWith, hw, Except.bind, Wire.readScalar, hread]
  rw [DecoderM.scalar, DecoderM.takeWith, hw, Except.bind, Wire.readScalar, ← Binary.overflow_binary32]
  rcases Wire.readBinary32_of_binary64 (hread .float) with ⟨hrefused, hbounds⟩ | ⟨y, hread, hbounds⟩
  · exact Or.inl ⟨by rw [hrefused], hbounds⟩
  · exact Or.inr ⟨y, by rw [hread], hbounds⟩

/-- The double 1e300 is read as a double, and refused as a float; it is still there then. -/
theorem number_read_finite_large :
    let x : Binary64 := ⟨0x7e37e43c8800759c⟩
    let d := ofWire (.leaf (.float x))
    d.current = .ok (.leaf (.float x)) ∧ Wire.IsFiniteNumber (.leaf (.float x)) ∧
      DecoderM.scalar .double d = (.ok x, ⟨none, []⟩) ∧
      DecoderM.scalar .float d = (.error (.outOfRange .float x.plainText), d) := by
  intro x d
  have hfinite : Wire.IsFiniteNumber (.leaf (.float x)) := Or.inr ⟨x, rfl, by decide⟩
  have hlarge : (2 : ℚ) ^ 128 - 2 ^ 103 ≤ x.absValue := by
    have hexponent : x.exponent = (944 : Nat) := by decide
    have hsignificand : (1 : ℚ) ≤ x.significand := by exact_mod_cast (by decide : 1 ≤ x.significand)
    have hpower : (2 : ℚ) ^ 128 ≤ 2 ^ 944 := pow_le_pow_right₀ (by norm_num) (by decide)
    rw [Binary.absValue, hexponent, zpow_natCast]
    calc (2 : ℚ) ^ 128 - 2 ^ 103 ≤ 2 ^ 128 := sub_le_self _ (by positivity)
      _ ≤ 1 * 2 ^ 944 := by rwa [one_mul]
      _ ≤ x.significand * 2 ^ 944 := by gcongr
  obtain ⟨y, hread, -, hfloat⟩ := number_read_finite_iff d _ rfl (Or.inl hfinite)
  obtain rfl : x = y := by cases hread; rfl
  refine ⟨rfl, hfinite, hread, ?_⟩
  rcases hfloat with ⟨hrefused, -⟩ | ⟨z, -, -, hsmall⟩
  · exact hrefused
  · exact absurd hlarge (not_le.mpr (hsmall (by decide)))

/-- Two to the 1024 is an integer, and is read as an infinite double and as an infinite float. -/
theorem bigInteger_read_infinite :
    Wire.IsFiniteNumber (.leaf (.bigInteger (2 ^ 1024))) ∧
    ∃ (x : Binary64) (y : Binary32),
      DecoderM.scalar .double (ofWire (.leaf (.bigInteger (2 ^ 1024)))) = (.ok x, ⟨none, []⟩) ∧ x.isFinite = false ∧
      DecoderM.scalar .float (ofWire (.leaf (.bigInteger (2 ^ 1024)))) = (.ok y, ⟨none, []⟩) ∧ y.isFinite = false := by
  obtain ⟨n, hn⟩ : ∃ n : Int, n = 2 ^ 1024 := ⟨_, rfl⟩
  rw [← hn]
  have hsize : n.natAbs = 2 ^ 1024 := by rw [hn, Int.natAbs_pow, show (2 : Int).natAbs = 2 from rfl]
  have hx : (Binary.ofInt n : Binary64).isFinite = false := by
    rw [Bool.eq_false_iff, ne_eq, Wire.isFinite_ofInt_binary64, hsize, not_lt]
    generalize 2 ^ 1024 = a
    exact Nat.sub_le _ _
  refine ⟨Or.inl ⟨n, rfl⟩, .ofInt n, ?_⟩
  rcases Wire.readBinary32_of_binary64 (w := .leaf (.bigInteger n)) rfl with ⟨-, hfinite, -⟩ | ⟨y, hread, hy, -⟩
  · exact absurd (hx.symm.trans hfinite) Bool.false_ne_true
  · refine ⟨y, rfl, hx, ?_, hy.trans hx⟩
    have htaken : (ofWire (.leaf (.bigInteger n))).current.bind (Wire.readScalar .float) = .ok y := hread
    rw [DecoderM.scalar, DecoderM.takeWith, htaken]
    rfl

end Decoder

end TypedWire
