import TypedWire.Number.Binary
import TypedWire.Proofs.FloatText

/-! # The range of binary numbers

A ratio rounds to a finite number if it is less than the number halfway between the greatest finite number and the
power of two that would be next. That halfway point, and all above it, rounds to the infinity. -/

namespace TypedWire

/-! ### Rounded quotients -/

section Quotients
variable {n d k : Nat}

theorem div_le_roundDiv (n d : Nat) : n / d ≤ roundDiv n d := by
  unfold roundDiv
  dsimp only
  split
  · exact le_rfl
  · split <;> omega

theorem roundDiv_le (n d : Nat) : roundDiv n d ≤ n / d + 1 := by
  unfold roundDiv
  dsimp only
  split
  · omega
  · split <;> omega

theorem le_roundDiv (hd : 0 < d) (h : (k : ℚ) ≤ n / d) : k ≤ roundDiv n d := by
  rw [le_div_iff₀ (by exact_mod_cast hd)] at h
  refine le_trans ?_ (div_le_roundDiv n d)
  rw [Nat.le_div_iff_mul_le hd]
  exact_mod_cast h

theorem roundDiv_le_of_lt (hd : 0 < d) (h : (n / d : ℚ) < k) : roundDiv n d ≤ k := by
  rw [div_lt_iff₀ (by exact_mod_cast hd)] at h
  refine (roundDiv_le n d).trans ?_
  rw [Nat.succ_le_iff, Nat.div_lt_iff_lt_mul hd]
  exact_mod_cast h

/-- A quotient a half below an even number goes to that number. -/
theorem roundDiv_lt_iff (hd : 0 < d) (hk : k % 2 = 0) (hpos : 0 < k) :
    roundDiv n d < k ↔ (n / d : ℚ) < k - 1 / 2 := by
  obtain ⟨j, rfl⟩ : ∃ j, k = j + 1 := ⟨k - 1, by omega⟩
  have hsplit : d * (n / d) + n % d = n := Nat.div_add_mod n d
  have hmod : n % d < d := Nat.mod_lt n hd
  have hhalf : (n / d : ℚ) < (j + 1 : Nat) - 1 / 2 ↔ 2 * (d * (n / d) + n % d) < 2 * (d * j) + d := by
    rw [hsplit, div_lt_iff₀ (by exact_mod_cast hd), ← Nat.cast_lt (α := ℚ)]
    push_cast
    constructor <;> intro h <;> linarith
  rw [hhalf]
  unfold roundDiv
  dsimp only
  generalize n / d = q at *
  generalize n % d = r at *
  have hscale {a b : Nat} (h : a < b) : d * a + d ≤ d * b := by
    rw [← Nat.mul_succ]
    exact Nat.mul_le_mul_left d h
  -- Another quotient is a whole divisor away, which is more than the remainder makes up.
  obtain ⟨hq, hle⟩ | rfl | ⟨hq, hle⟩ : q < j ∧ d * q + d ≤ d * j ∨ q = j ∨ j < q ∧ d * j + d ≤ d * q :=
    (Nat.lt_trichotomy q j).imp (fun h => ⟨h, hscale h⟩) fun h => h.imp_right fun h => ⟨h, hscale h⟩
  all_goals
    split
    · omega
    · split <;> omega

end Quotients

/-! ### Magnitudes -/

namespace BinaryFormat

/-- Whether a format has places behind the hidden bit and exponents for infinity, the least numbers and others. -/
structure IsWide (f : BinaryFormat) : Prop where
  precision : 2 ≤ f.precision
  exponentBits : 2 ≤ f.exponentBits

theorem isWide_binary64 : binary64.IsWide :=
  ⟨by decide, by decide⟩

theorem isWide_binary32 : binary32.IsWide :=
  ⟨by decide, by decide⟩

/-- The greatest exponent of a finite number. -/
def maxExponent (f : BinaryFormat) : Int :=
  f.minExponent + (2 ^ f.exponentBits - 3 : Nat)

/-- The least number that rounds to the infinity, halfway between the greatest finite number and the next power. -/
def overflow (f : BinaryFormat) : ℚ :=
  (2 * f.hiddenBit - 1 / 2) * 2 ^ f.maxExponent

end BinaryFormat

namespace Binary

section Range
variable {f g : BinaryFormat} {x : Binary f} {num den : Nat}

theorem infinityBits_lt (hf : f.IsWide) : f.infinityBits + f.hiddenBit ≤ 2 ^ (f.width - 1) := by
  have hwidth : f.width - 1 = f.exponentBits + (f.precision - 1) := by
    have := hf.precision
    unfold BinaryFormat.width
    omega
  have hpow : 0 < 2 ^ f.exponentBits := Nat.two_pow_pos _
  unfold BinaryFormat.infinityBits BinaryFormat.hiddenBit
  rw [hwidth, Nat.pow_add, ← Nat.succ_mul]
  exact Nat.mul_le_mul_right _ (by omega)

theorem magnitude_ofMagnitude {m : Nat} (negative : Bool) (hm : m < 2 ^ (f.width - 1)) :
    (ofMagnitude negative m : Binary f).magnitude = m := by
  have hdvd : 2 ^ (f.width - 1) ∣ 2 ^ f.width := Nat.pow_dvd_pow 2 (by omega)
  unfold magnitude ofMagnitude
  rw [BitVec.toNat_ofNat, Nat.mod_mod_of_dvd _ hdvd]
  cases negative with
  | false => exact Nat.mod_eq_of_lt hm
  | true => exact (Nat.add_mod_right _ _).trans (Nat.mod_eq_of_lt hm)

theorem isFinite_ofMagnitude {m : Nat} (hf : f.IsWide) (negative : Bool) :
    (ofMagnitude negative (min m f.infinityBits) : Binary f).isFinite = true ↔ m < f.infinityBits := by
  have hlt := infinityBits_lt hf
  have hpos : 0 < f.hiddenBit := Nat.two_pow_pos _
  unfold isFinite
  rw [magnitude_ofMagnitude negative (by omega), decide_eq_true_iff]
  omega

theorem overflow_pos (f : BinaryFormat) : 0 < f.overflow := by
  have hhidden : (1 : ℚ) ≤ f.hiddenBit := by exact_mod_cast Nat.two_pow_pos _
  unfold BinaryFormat.overflow
  exact mul_pos (by linarith) (by positivity)

theorem hiddenBit_eq (hf : f.IsWide) : (f.hiddenBit : ℚ) = 2 ^ ((f.precision : Int) - 1) := by
  have hprecision : (f.precision : Int) - 1 = (f.precision - 1 : Nat) := by
    have := hf.precision
    omega
  rw [hprecision, zpow_natCast, BinaryFormat.hiddenBit, Nat.cast_pow, Nat.cast_ofNat]

/-- What stands above the least exponent and the rounded significand make a magnitude. -/
theorem magnitude_lt_iff {n d t : Nat} (hf : f.IsWide) (hd : 0 < d) (hhigh : (n / d : ℚ) < 2 * f.hiddenBit)
    (hlow : t = 0 ∨ (f.hiddenBit : ℚ) ≤ n / d) :
    t * f.hiddenBit + roundDiv n d < f.infinityBits ↔ (n / d : ℚ) * 2 ^ (f.minExponent + t) < f.overflow := by
  have hexponents : 4 ≤ 2 ^ f.exponentBits := Nat.pow_le_pow_right (n := 2) (by decide) hf.exponentBits
  have hhidden : 0 < f.hiddenBit := Nat.two_pow_pos _
  unfold BinaryFormat.overflow BinaryFormat.maxExponent BinaryFormat.infinityBits
  obtain ⟨a, ha⟩ : ∃ a, 2 ^ f.exponentBits = a + 3 := ⟨2 ^ f.exponentBits - 3, by omega⟩
  have hone : (1 : ℚ) ≤ f.hiddenBit := by exact_mod_cast hhidden
  rw [ha, Nat.add_sub_cancel, show a + 3 - 1 = a + 2 by omega]
  generalize f.hiddenBit = h at *
  generalize f.minExponent = least
  have hdouble (e : Nat) : (2 * h * 2 ^ (least + e) : ℚ) = h * 2 ^ (least + (e + 1 : Nat)) := by
    rw [Nat.cast_succ, ← add_assoc, zpow_add_one₀ (by norm_num)]
    ring
  obtain hless | rfl | hmore : t < a ∨ t = a ∨ a < t := by omega
  · -- Below the last exponent a magnitude is finite even if its significand is rounded up to the next power.
    have hround : roundDiv n d ≤ 2 * h := roundDiv_le_of_lt hd (by exact_mod_cast hhigh)
    have hscale : (t + 1) * h ≤ a * h := Nat.mul_le_mul_right h hless
    refine iff_of_true (by rw [Nat.add_mul a, Nat.add_mul t, Nat.one_mul] at *; omega) ?_
    calc (n / d : ℚ) * 2 ^ (least + t) < 2 * h * 2 ^ (least + t) := by gcongr
      _ = h * 2 ^ (least + (t + 1 : Nat)) := hdouble t
      _ ≤ (2 * h - 1 / 2) * 2 ^ (least + a) := by
        gcongr
        · linarith
        · linarith
        · norm_num
        · exact hless
  · rw [mul_lt_mul_iff_left₀ (by positivity), Nat.add_mul, Nat.add_lt_add_iff_left,
      roundDiv_lt_iff hd (by omega) (by omega)]
    push_cast
    rfl
  · obtain hzero | hle := hlow
    · omega
    have hround : h ≤ roundDiv n d := le_roundDiv hd hle
    have hscale : (a + 1) * h ≤ t * h := Nat.mul_le_mul_right h hmore
    refine iff_of_false (by rw [Nat.add_mul, Nat.one_mul] at *; omega) (not_lt.mpr ?_)
    calc (2 * h - 1 / 2 : ℚ) * 2 ^ (least + a) ≤ 2 * h * 2 ^ (least + a) := by
          gcongr
          linarith
      _ = h * 2 ^ (least + (a + 1 : Nat)) := hdouble a
      _ ≤ n / d * 2 ^ (least + t) := by
        gcongr
        · norm_num
        · omega

/-- A ratio rounds to a finite number if it is less than the least number that does not. -/
theorem isFinite_ofRatio (hf : f.IsWide) (negative : Bool) (hden : den ≠ 0) :
    (ofRatio negative num den : Binary f).isFinite = true ↔ (num / den : ℚ) < f.overflow := by
  have hexponents : 4 ≤ 2 ^ f.exponentBits := Nat.pow_le_pow_right (n := 2) (by decide) hf.exponentBits
  have hhidden : 0 < f.hiddenBit := Nat.two_pow_pos _
  unfold ofRatio
  by_cases hnum : num = 0
  · have hfinite : 0 < f.infinityBits := Nat.mul_pos (by omega) hhidden
    rw [if_pos hnum, hnum, Nat.cast_zero, zero_div]
    exact iff_of_true ((isFinite_ofMagnitude (m := 0) hf negative).mpr hfinite) (overflow_pos f)
  obtain ⟨hlow, hhigh⟩ := pow_floorLog (by decide) countsDigits_two hnum hden
  rw [if_neg hnum]
  dsimp only
  generalize floorLog 2 (Nat.log2 · + 1) num den = k at *
  obtain ⟨t, ht⟩ : ∃ t : Nat, max f.minExponent (k - ((f.precision : Int) - 1)) = f.minExponent + t :=
    ⟨(max f.minExponent (k - ((f.precision : Int) - 1)) - f.minExponent).toNat, by omega⟩
  have hquotient := scaleRatio_div 2 num den (-(f.minExponent + t))
  have hpos : 0 < (scaleRatio 2 num den (-(f.minExponent + t))).2 :=
    scaleRatio_pos (by decide) (Nat.pos_of_ne_zero hden) _
  rw [ht, isFinite_ofMagnitude hf, add_sub_cancel_left, Int.toNat_natCast]
  have hscale : (0 : ℚ) < 2 ^ (f.minExponent + t) := by positivity
  have hratio : (num / den : ℚ) = (scaleRatio 2 num den (-(f.minExponent + t))).1 /
      (scaleRatio 2 num den (-(f.minExponent + t))).2 * 2 ^ (f.minExponent + t) := by
    rw [hquotient, Nat.cast_ofNat, mul_assoc, ← zpow_add₀ (by norm_num), neg_add_cancel, zpow_zero, mul_one]
  generalize scaleRatio 2 num den (-(f.minExponent + t)) = s at *
  rw [hratio] at hlow hhigh ⊢
  refine magnitude_lt_iff hf hpos ?_ ?_
  · refine lt_of_mul_lt_mul_right (hhigh.trans_le ?_) hscale.le
    rw [hiddenBit_eq hf, Nat.cast_ofNat, ← zpow_one_add₀ (by norm_num), ← zpow_add₀ (by norm_num)]
    exact zpow_le_zpow_right₀ (by norm_num) (by omega)
  · rcases t.eq_zero_or_pos with hzero | hnormal
    · exact Or.inl hzero
    refine Or.inr (le_of_mul_le_mul_right (le_trans ?_ hlow) hscale)
    rw [hiddenBit_eq hf, Nat.cast_ofNat, ← zpow_add₀ (by norm_num)]
    exact zpow_le_zpow_right₀ (by norm_num) (by omega)

theorem isFinite_ofInt (hf : f.IsWide) (n : Int) :
    (ofInt n : Binary f).isFinite = true ↔ (n.natAbs : ℚ) < f.overflow := by
  rw [ofInt, isFinite_ofRatio hf _ (by decide), Nat.cast_one, div_one]

theorem not_isFinite_infinity (hf : f.IsWide) (negative : Bool) : (infinity negative : Binary f).isFinite = false := by
  have hlt := infinityBits_lt hf
  have hpos : 0 < f.hiddenBit := Nat.two_pow_pos _
  unfold isFinite infinity
  rw [magnitude_ofMagnitude negative (by omega), decide_eq_false_iff_not]
  exact lt_irrefl _

theorem not_isFinite_nan (hf : f.IsWide) : (nan : Binary f).isFinite = false := by
  have hlt := infinityBits_lt hf
  have hpos : 0 < f.hiddenBit := Nat.two_pow_pos _
  unfold isFinite nan
  rw [magnitude_ofMagnitude false (by omega), decide_eq_false_iff_not]
  omega

theorem isFinite_neg (x : Binary f) : x.neg.isFinite = x.isFinite := by
  have hmagnitude : x.magnitude < 2 ^ (f.width - 1) := Nat.mod_lt _ (Nat.two_pow_pos _)
  rw [isFinite, isFinite, neg, magnitude_ofMagnitude _ hmagnitude]

/-- The size of a finite number. -/
def absValue (x : Binary f) : ℚ :=
  x.significand * 2 ^ x.exponent

/-- A number is finite in another format if it is finite and small enough for that format. -/
theorem isFinite_convert (hg : g.IsWide) :
    (x.convert : Binary g).isFinite = true ↔ x.isFinite = true ∧ x.absValue < g.overflow := by
  have hsplit : x.isFinite = true ↔ ¬x.isNaN = true ∧ ¬x.isInfinite = true := by
    simp only [isFinite, isNaN, isInfinite, decide_eq_true_iff, beq_iff_eq]
    omega
  unfold convert
  split
  · next hnan =>
    rw [not_isFinite_nan hg, hsplit]
    exact iff_of_false Bool.false_ne_true fun h => h.1.1 hnan
  · next hnan =>
    split
    · next hinfinite =>
      rw [not_isFinite_infinity hg, hsplit]
      exact iff_of_false Bool.false_ne_true fun h => h.1.2 hinfinite
    · next hinfinite =>
      have hden : x.ratio.2 ≠ 0 := (scaleRatio_pos (by decide) (by decide) _).ne'
      rw [isFinite_ofRatio hg _ hden, ratio_div]
      exact (and_iff_right (hsplit.mpr ⟨hnan, hinfinite⟩)).symm

theorem overflow_eq (hf : f.IsWide) :
    f.overflow = 2 ^ (f.maxExponent + f.precision) - 2 ^ (f.maxExponent - 1) := by
  have htop : (2 : ℚ) * f.hiddenBit = 2 ^ (f.precision : Int) := by
    rw [hiddenBit_eq hf, ← zpow_one_add₀ (by norm_num), add_sub_cancel]
  rw [BinaryFormat.overflow, htop, zpow_add₀ (by norm_num), zpow_sub_one₀ (by norm_num)]
  ring

theorem overflow_binary64 : BinaryFormat.binary64.overflow = 2 ^ 1024 - 2 ^ 970 := by
  have htop : BinaryFormat.binary64.maxExponent + BinaryFormat.binary64.precision = (1024 : Nat) := by decide
  have hlast : BinaryFormat.binary64.maxExponent - 1 = (970 : Nat) := by decide
  rw [overflow_eq BinaryFormat.isWide_binary64, htop, hlast, zpow_natCast, zpow_natCast]

theorem overflow_binary32 : BinaryFormat.binary32.overflow = 2 ^ 128 - 2 ^ 103 := by
  have htop : BinaryFormat.binary32.maxExponent + BinaryFormat.binary32.precision = (128 : Nat) := by decide
  have hlast : BinaryFormat.binary32.maxExponent - 1 = (103 : Nat) := by decide
  rw [overflow_eq BinaryFormat.isWide_binary32, htop, hlast, zpow_natCast, zpow_natCast]

end Range

end Binary

end TypedWire
