import TypedWire.Number.Shortest
import TypedWire.Proofs.DecimalDigits
import Mathlib.Algebra.Order.Field.Basic
import Mathlib.Algebra.Order.Field.Power
import Mathlib.Data.Rat.Cast.Order
import Mathlib.Tactic.FieldSimp
import Mathlib.Tactic.Linarith
import Mathlib.Tactic.Ring

/-! # The shortest decimal of a binary number

The decimal that stands for a binary number lies between the two numbers halfway to its neighbours. These intervals
meet at their ends only, where the even one of two neighbours has the end; so a decimal stands for one number. -/

namespace TypedWire
open Text

/-! ### Ratios -/

section Ratios
variable {num den : Nat}

theorem scaleRatio_pos {base : Nat} (hbase : 0 < base) (hden : 0 < den) (e : Int) :
    0 < (scaleRatio base num den e).2 := by
  unfold scaleRatio
  split
  · exact hden
  · exact Nat.mul_pos hden (Nat.pow_pos hbase)

theorem scaleRatio_div (base num den : Nat) (e : Int) :
    ((scaleRatio base num den e).1 : ℚ) / (scaleRatio base num den e).2 = num / den * (base : ℚ) ^ e := by
  unfold scaleRatio
  split
  · next he =>
    obtain ⟨k, rfl⟩ := Int.eq_ofNat_of_zero_le he
    simp only [Int.toNat_natCast, Nat.cast_mul, Nat.cast_pow, zpow_natCast]
    rw [mul_div_right_comm]
  · next he =>
    obtain ⟨k, rfl⟩ : ∃ k : Nat, e = -k := ⟨(-e).toNat, by omega⟩
    simp only [neg_neg, Int.toNat_natCast, Nat.cast_mul, Nat.cast_pow, zpow_neg, zpow_natCast]
    rw [div_mul_eq_div_div, div_eq_mul_inv _ ((base : ℚ) ^ k)]

/-- Whether a function counts the digits of a number in a base. -/
structure CountsDigits (base : Nat) (size : Nat → Nat) : Prop where
  pos (n : Nat) : 0 < size n
  low {n : Nat} (hn : n ≠ 0) : base ^ (size n - 1) ≤ n
  high (n : Nat) : n < base ^ size n

theorem countsDigits_ten : CountsDigits 10 digitCount :=
  ⟨digitCount_pos, pow_digitCount_le, lt_pow_digitCount⟩

theorem countsDigits_two : CountsDigits 2 (Nat.log2 · + 1) :=
  ⟨fun _ => Nat.succ_pos _, fun hn => Nat.log2_self_le hn, fun _ => Nat.lt_log2_self⟩

/-- The power below a ratio is the greatest one that is. -/
theorem pow_floorLog {base : Nat} {size : Nat → Nat} (hbase : 1 < base) (hsize : CountsDigits base size)
    (hnum : num ≠ 0) (hden : den ≠ 0) :
    (base : ℚ) ^ floorLog base size num den ≤ num / den ∧
      (num / den : ℚ) < (base : ℚ) ^ (floorLog base size num den + 1) := by
  have hdenPos : (0 : ℚ) < den := by exact_mod_cast Nat.pos_of_ne_zero hden
  have hbasePos : (0 : ℚ) < base := by exact_mod_cast hbase.trans' Nat.zero_lt_one
  have hscaled : (0 : ℚ) < (scaleRatio base num den (-((size num : Int) - size den))).2 := by
    exact_mod_cast scaleRatio_pos (by omega) (Nat.pos_of_ne_zero hden) _
  have hdiv := scaleRatio_div base num den (-((size num : Int) - size den))
  rw [zpow_neg, ← div_eq_mul_inv] at hdiv
  -- What the ratio is compared with is the power for the difference of the two counts.
  have hcompare : (scaleRatio base num den (-((size num : Int) - size den))).2 ≤
      (scaleRatio base num den (-((size num : Int) - size den))).1 ↔
      (base : ℚ) ^ ((size num : Int) - size den) ≤ num / den := by
    rw [← one_le_div₀ (zpow_pos hbasePos _), ← hdiv, one_le_div₀ hscaled, Nat.cast_le]
  unfold floorLog
  dsimp only
  split
  · next hle =>
    refine ⟨hcompare.mp hle, ?_⟩
    have hhigh : (num : ℚ) < (base : ℚ) ^ size num := by exact_mod_cast hsize.high num
    have hlow : (base : ℚ) ^ (size den - 1) ≤ den := by exact_mod_cast hsize.low hden
    have hpos := hsize.pos den
    have hsplit : (size num : Int) - size den + 1 = (size num : Int) - ((size den - 1 : Nat) : Int) := by omega
    rw [hsplit, zpow_sub₀ hbasePos.ne', zpow_natCast, zpow_natCast]
    gcongr
  · next hlt =>
    have hlow : (base : ℚ) ^ (size num - 1) ≤ num := by exact_mod_cast hsize.low hnum
    have hhigh : (den : ℚ) ≤ (base : ℚ) ^ size den := by exact_mod_cast (hsize.high den).le
    have hpos := hsize.pos num
    have hsplit : (size num : Int) - size den - 1 = ((size num - 1 : Nat) : Int) - size den := by omega
    refine ⟨?_, ?_⟩
    · rw [hsplit, zpow_sub₀ hbasePos.ne', zpow_natCast, zpow_natCast]
      gcongr
    · rw [sub_add_cancel]
      exact not_le.mp fun h => hlt (hcompare.mpr h)

end Ratios

/-! ### Rounding intervals -/

namespace Binary

section Intervals
variable {f : BinaryFormat} (x : Binary f) (q : Int)

/-- A quarter of the last place of a number. -/
def quarter : ℚ :=
  2 ^ x.exponent / 4

/-- Whether a rational rounds to a positive number: it lies between the halfway points, or on one of them if the
    significand is even. -/
def Rounds (v : ℚ) : Prop :=
  if x.significand % 2 = 0 then x.roundingInterval.1 * x.quarter ≤ v ∧ v ≤ x.roundingInterval.2.2 * x.quarter
  else x.roundingInterval.1 * x.quarter < v ∧ v < x.roundingInterval.2.2 * x.quarter

/-- The scales on which multiples of `10 ^ q` are compared with a number: a quarter of its last place, and the
    power of ten. -/
def scales : (Nat × Nat) × Nat × Nat :=
  (scaleRatio 2 1 4 x.exponent, scaleRatio 10 (scaleRatio 2 1 4 x.exponent).2 1 q)

/-- The multiple of `10 ^ q` below a number. -/
def down : Nat :=
  (x.roundingInterval.2.1 * (x.scales q).1.1 * (x.scales q).2.2) / (x.scales q).2.1

/-- Whether a multiple of `10 ^ q` rounds to a number, as it is computed. -/
def inside (d : Nat) : Bool :=
  if x.significand % 2 == 0 then
    x.roundingInterval.1 * (x.scales q).1.1 * (x.scales q).2.2 ≤ d * (x.scales q).2.1 &&
      d * (x.scales q).2.1 ≤ x.roundingInterval.2.2 * (x.scales q).1.1 * (x.scales q).2.2
  else
    x.roundingInterval.1 * (x.scales q).1.1 * (x.scales q).2.2 < d * (x.scales q).2.1 &&
      d * (x.scales q).2.1 < x.roundingInterval.2.2 * (x.scales q).1.1 * (x.scales q).2.2

variable {x q}

/-- A number of quarters and a multiple of `10 ^ q`, on one scale. -/
theorem scales_spec : ∃ c : ℚ, 0 < c ∧
    (∀ a : Nat, ((a * (x.scales q).1.1 * (x.scales q).2.2 : Nat) : ℚ) = a * x.quarter * c) ∧
    ∀ d : Nat, ((d * (x.scales q).2.1 : Nat) : ℚ) = d * 10 ^ q * c := by
  have hone : 0 < (scaleRatio 2 1 4 x.exponent).2 := scaleRatio_pos (by decide) (by decide) _
  have hscale : 0 < (scaleRatio 10 (scaleRatio 2 1 4 x.exponent).2 1 q).2 := scaleRatio_pos (by decide) (by decide) _
  have hbinary := scaleRatio_div 2 1 4 x.exponent
  have hunit := scaleRatio_div 10 (scaleRatio 2 1 4 x.exponent).2 1 q
  unfold scales quarter
  generalize scaleRatio 2 1 4 x.exponent = binary at *
  generalize scaleRatio 10 binary.2 1 q = unit at *
  have honePos : (0 : ℚ) < binary.2 := by exact_mod_cast hone
  have hscalePos : (0 : ℚ) < unit.2 := by exact_mod_cast hscale
  rw [div_eq_iff honePos.ne'] at hbinary
  rw [div_eq_iff hscalePos.ne'] at hunit
  refine ⟨binary.2 * unit.2, by positivity, fun a => ?_, fun d => ?_⟩
  · push_cast
    rw [hbinary]
    push_cast
    ring
  · push_cast
    rw [hunit]
    push_cast
    ring

theorem inside_iff (d : Nat) : x.inside q d = true ↔ x.Rounds (d * 10 ^ q) := by
  obtain ⟨c, hc, hquarters, hmultiple⟩ := x.scales_spec (q := q)
  have hle (a d : Nat) : a * (x.scales q).1.1 * (x.scales q).2.2 ≤ d * (x.scales q).2.1 ↔
      a * x.quarter ≤ d * 10 ^ q := by
    rw [← Nat.cast_le (α := ℚ), hquarters, hmultiple, mul_le_mul_iff_left₀ hc]
  have hge (a d : Nat) : d * (x.scales q).2.1 ≤ a * (x.scales q).1.1 * (x.scales q).2.2 ↔
      d * 10 ^ q ≤ a * x.quarter := by
    rw [← Nat.cast_le (α := ℚ), hquarters, hmultiple, mul_le_mul_iff_left₀ hc]
  unfold inside Rounds
  simp only [beq_iff_eq]
  split
  · rw [Bool.and_eq_true, decide_eq_true_iff, decide_eq_true_iff, hle, hge]
  · rw [Bool.and_eq_true, decide_eq_true_iff, decide_eq_true_iff, ← not_le, ← not_le, hle, hge, not_le, not_le]

/-- What is found on a grid rounds to the number. -/
theorem rounds_of_onGrid? {tie : Tie} {d : Nat} (h : x.onGrid? tie q = some d) : x.Rounds (d * 10 ^ q) := by
  refine (inside_iff d).mp ?_
  unfold onGrid? at h
  dsimp only at h
  split at h
  · next hdown hup =>
    have hdown' : x.inside q (x.down q) = true := hdown
    have hup' : x.inside q (x.down q + 1) = true := hup
    split at h
    · exact Option.some.inj h ▸ hdown'
    split at h
    · exact Option.some.inj h ▸ hup'
    cases tie with
    | up => exact Option.some.inj h ▸ hup'
    | even =>
      obtain rfl : x.down q + x.down q % 2 = d := Option.some.inj h
      rcases Nat.mod_two_eq_zero_or_one (x.down q) with hmod | hmod <;> rw [hmod] <;> assumption
  · next hdown _ => exact Option.some.inj h ▸ hdown
  · next _ hup => exact Option.some.inj h ▸ hup
  · cases h

/-- Something is found where the multiple below the number rounds to it. -/
theorem isSome_onGrid? (tie : Tie) (h : x.Rounds (x.down q * 10 ^ q)) : (x.onGrid? tie q).isSome := by
  have hdown : x.inside q (x.down q) = true := (inside_iff _).mpr h
  unfold onGrid?
  dsimp only
  split
  · split
    · rfl
    split
    · rfl
    cases tie <;> rfl
  · rfl
  · rfl
  · next hnone _ => exact absurd (hnone.symm.trans hdown) Bool.false_ne_true

theorem down_spec : (x.down q : ℚ) * 10 ^ q ≤ x.roundingInterval.2.1 * x.quarter ∧
    x.roundingInterval.2.1 * x.quarter < (x.down q + 1) * 10 ^ q := by
  obtain ⟨c, hc, hquarters, hmultiple⟩ := x.scales_spec (q := q)
  have hunit : 0 < (x.scales q).2.1 := by
    have hpos : (0 : ℚ) < ((1 * (x.scales q).2.1 : Nat) : ℚ) := by
      rw [hmultiple]
      positivity
    rw [one_mul] at hpos
    exact_mod_cast hpos
  have hle : x.down q * (x.scales q).2.1 ≤ x.roundingInterval.2.1 * (x.scales q).1.1 * (x.scales q).2.2 :=
    Nat.div_mul_le_self _ _
  have hlt : x.roundingInterval.2.1 * (x.scales q).1.1 * (x.scales q).2.2 < (x.down q + 1) * (x.scales q).2.1 :=
    Nat.lt_mul_of_div_lt (Nat.lt_succ_self _) hunit
  constructor
  · rwa [← Nat.cast_le (α := ℚ), hquarters, hmultiple, mul_le_mul_iff_left₀ hc] at hle
  · rw [← Nat.cast_lt (α := ℚ), hquarters, hmultiple, mul_lt_mul_iff_left₀ hc] at hlt
    exact_mod_cast hlt

theorem quarter_pos : 0 < x.quarter := by
  unfold quarter
  positivity

/-- On a grid that is fine enough the multiple below a number rounds to it. -/
theorem rounds_down (hpos : 0 < x.significand) (hfine : (10 : ℚ) ^ q ≤ x.quarter) :
    x.Rounds (x.down q * 10 ^ q) := by
  obtain ⟨hle, hlt⟩ := x.down_spec (q := q)
  have hquarter := x.quarter_pos
  have hlow : x.roundingInterval.1 + 1 ≤ x.roundingInterval.2.1 := by
    unfold roundingInterval
    dsimp only
    split <;> omega
  have hhigh : x.roundingInterval.2.1 < x.roundingInterval.2.2 := by
    unfold roundingInterval
    dsimp only
    omega
  have hlow' : (x.roundingInterval.1 + 1 : ℚ) * x.quarter ≤ x.roundingInterval.2.1 * x.quarter := by
    gcongr
    exact_mod_cast hlow
  have hhigh' : (x.roundingInterval.2.1 : ℚ) * x.quarter < x.roundingInterval.2.2 * x.quarter := by
    gcongr
  have hbelow : (x.roundingInterval.1 : ℚ) * x.quarter < x.down q * 10 ^ q := by
    linarith
  have habove : (x.down q : ℚ) * 10 ^ q < x.roundingInterval.2.2 * x.quarter := by
    linarith
  unfold Rounds
  split
  · exact ⟨hbelow.le, habove.le⟩
  · exact ⟨hbelow, habove⟩

/-- The search stops at the first grid on which something is found. -/
theorem exists_shortestFrom {tie : Tie} {n i : Nat} (hi : i ≤ n) (h : (x.onGrid? tie (q - i)).isSome) :
    ∃ d r, shortestFrom tie x n q = (d, r) ∧ x.onGrid? tie r = some d := by
  induction n generalizing q i with
  | zero =>
    obtain rfl : i = 0 := by omega
    rw [Nat.cast_zero, sub_zero] at h
    obtain ⟨d, hd⟩ := Option.isSome_iff_exists.mp h
    exact ⟨d, q, by rw [shortestFrom, hd, Option.getD_some], hd⟩
  | succ n ih =>
    rw [shortestFrom]
    cases hq : x.onGrid? tie q with
    | some d => exact ⟨d, q, rfl, hq⟩
    | none =>
      obtain ⟨j, rfl⟩ : ∃ j, i = j + 1 := by
        refine Nat.exists_eq_succ_of_ne_zero fun hzero => ?_
        rw [hzero, Nat.cast_zero, sub_zero, hq] at h
        cases h
      refine ih (by omega) (i := j) ?_
      rwa [show q - 1 - (j : Int) = q - (j + 1 : Nat) by omega]

theorem significand_pos (h : x.isZero = false) : 0 < x.significand := by
  have hhidden : 0 < f.hiddenBit := Nat.two_pow_pos _
  have hmagnitude : x.magnitude ≠ 0 := by simpa [isZero] using h
  unfold significand
  split <;> omega

theorem significand_lt : x.significand < 2 * f.hiddenBit := by
  have hhidden : 0 < f.hiddenBit := Nat.two_pow_pos _
  have hmod := Nat.mod_lt x.magnitude hhidden
  unfold significand
  split <;> omega

theorem pos_of_rounds {v : ℚ} (hpos : 0 < x.significand) (h : x.Rounds v) : 0 < v := by
  have hlow : 0 < x.roundingInterval.1 := by
    unfold roundingInterval
    dsimp only
    split <;> omega
  have hend : 0 < (x.roundingInterval.1 : ℚ) * x.quarter :=
    mul_pos (by exact_mod_cast hlow) x.quarter_pos
  unfold Rounds at h
  split at h
  · exact hend.trans_le h.1
  · exact hend.trans h.1

theorem ratio_div (x : Binary f) : (x.ratio.1 : ℚ) / x.ratio.2 = x.significand * 2 ^ x.exponent := by
  have hdiv := scaleRatio_div 2 x.significand 1 x.exponent
  rwa [Nat.cast_one, div_one, Nat.cast_ofNat] at hdiv

/-- Twenty grids below the first digit something is found, for a format of few enough places. -/
theorem rounds_shortestFrom (tie : Tie) (hx : x.isZero = false) (hplaces : 8 * f.hiddenBit ≤ 10 ^ 20) :
    ∃ c r, shortestFrom tie x 20 (floorLog 10 digitCount x.ratio.1 x.ratio.2) = (c, r) ∧ x.Rounds (c * 10 ^ r) := by
  have hpos := significand_pos hx
  have hden : 0 < x.ratio.2 := scaleRatio_pos (by decide) (by decide) _
  have hratio := x.ratio_div
  have hnum : x.ratio.1 ≠ 0 := by
    intro hzero
    rw [hzero, Nat.cast_zero, zero_div] at hratio
    have : (0 : ℚ) < x.significand * 2 ^ x.exponent := by positivity
    exact this.ne hratio
  have hlog := (pow_floorLog (by decide) countsDigits_ten hnum hden.ne').1
  rw [Nat.cast_ofNat] at hlog
  generalize floorLog 10 digitCount x.ratio.1 x.ratio.2 = q at hlog
  -- A number is less than `8 * hiddenBit` quarters of its last place, and a step of the last grid at most a quarter.
  have hfine : (10 : ℚ) ^ (q - (20 : Nat)) ≤ x.quarter := by
    have hsig : (x.significand : ℚ) ≤ 2 * f.hiddenBit := by exact_mod_cast significand_lt.le
    have hplaces' : (8 : ℚ) * f.hiddenBit ≤ 10 ^ 20 := by exact_mod_cast hplaces
    rw [zpow_sub₀ (by norm_num), div_le_iff₀ (by positivity)]
    calc (10 : ℚ) ^ q ≤ x.significand * 2 ^ x.exponent := hratio ▸ hlog
      _ ≤ 2 * f.hiddenBit * 2 ^ x.exponent := by gcongr
      _ = x.quarter * (8 * f.hiddenBit) := by
        unfold quarter
        ring
      _ ≤ x.quarter * 10 ^ ((20 : Nat) : Int) := by
        rw [zpow_natCast]
        gcongr
        exact x.quarter_pos.le
  obtain ⟨c, r, hfound, hc⟩ := exists_shortestFrom (le_refl 20) (isSome_onGrid? tie (rounds_down hpos hfine))
  exact ⟨c, r, hfound, rounds_of_onGrid? hc⟩

end Intervals

end Binary

/-! ### Digits without zeros at the end -/

/-- The number that digits with an exponent stand for. -/
def Scientific.value (s : Scientific) : ℚ :=
  ofDigits s.digits * 10 ^ (s.exponent - (s.digits.length - 1))

theorem exists_zeros (ds : List Char) :
    ∃ k, ds = (ds.reverse.dropWhile (· == '0')).reverse ++ List.replicate k '0' := by
  have hsplit : ds.reverse.takeWhile (· == '0') ++ ds.reverse.dropWhile (· == '0') = ds.reverse :=
    List.takeWhile_append_dropWhile
  have hall : (ds.reverse.takeWhile (· == '0')).all (· == '0') = true := List.all_takeWhile
  have hzeros : ds.reverse.takeWhile (· == '0') = List.replicate (ds.reverse.takeWhile (· == '0')).length '0' :=
    List.eq_replicate_iff.mpr ⟨rfl, fun c hc => eq_of_beq (List.all_eq_true.mp hall c hc)⟩
  refine ⟨(ds.reverse.takeWhile (· == '0')).length, ?_⟩
  rw [← List.reverse_replicate, ← hzeros, ← List.reverse_append, hsplit, List.reverse_reverse]

namespace Binary

/-- The shortest decimal of a number that is not zero rounds to it. -/
theorem rounds_shortest {f : BinaryFormat} {x : Binary f} (tie : Tie) (hx : x.isZero = false)
    (hplaces : 8 * f.hiddenBit ≤ 10 ^ 20) :
    (x.shortest tie).digits ≠ [] ∧ (∀ c ∈ (x.shortest tie).digits, isDigit c = true) ∧
      x.Rounds (x.shortest tie).value := by
  obtain ⟨c, r, hfound, hc⟩ := rounds_shortestFrom tie hx hplaces
  obtain ⟨k, hk⟩ := exists_zeros (decimalDigits c)
  have hshortest : x.shortest tie = ⟨((decimalDigits c).reverse.dropWhile (· == '0')).reverse,
      r + (((decimalDigits c).length : Int) - 1)⟩ := by
    rw [shortest, hx]
    dsimp only
    rw [if_neg Bool.false_ne_true, hfound]
  rw [hshortest]
  generalize ((decimalDigits c).reverse.dropWhile (· == '0')).reverse = ds at *
  have hvalue : (c : ℚ) * 10 ^ r = (⟨ds, r + (((decimalDigits c).length : Int) - 1)⟩ : Scientific).value := by
    have hof : c = ofDigits ds * 10 ^ k := by
      rw [← ofDigits_decimalDigits c, hk, ofDigits_append, ofDigits_zeros, List.length_replicate, Nat.add_zero]
    have hlength : (decimalDigits c).length = ds.length + k := by
      rw [hk, List.length_append, List.length_replicate]
    rw [Scientific.value, hlength, hof]
    push_cast
    rw [mul_assoc, ← zpow_natCast, ← zpow_add₀ (by norm_num)]
    congr 2
    ring
  refine ⟨?_, fun d hd => isDigit_of_mem_decimalDigits c (hk ▸ List.mem_append_left _ hd), hvalue ▸ hc⟩
  rintro rfl
  have hpos := pos_of_rounds (significand_pos hx) hc
  rw [hvalue] at hpos
  exact hpos.ne' (by simp [Scientific.value, ofDigits])

end Binary

/-! ### Neighbours -/

namespace BinaryFormat
variable (f : BinaryFormat)

/-- The integer significand of a magnitude. -/
def significand (m : Nat) : Nat :=
  if m < f.hiddenBit then m else f.hiddenBit + m % f.hiddenBit

/-- How many places a magnitude is above the least numbers. -/
def place (m : Nat) : Nat :=
  m / f.hiddenBit - 1

/-- The lower end of the rationals that round to a magnitude, in quarters of the least number. -/
def lowEnd (m : Nat) : Nat :=
  (4 * f.significand m - if f.significand m = f.hiddenBit ∧ 0 < f.place m then 1 else 2) * 2 ^ f.place m

def highEnd (m : Nat) : Nat :=
  (4 * f.significand m + 2) * 2 ^ f.place m

variable {f}

/-- The rationals that round to a magnitude end where those of the next begin. -/
theorem highEnd_eq_lowEnd_succ (m : Nat) : f.highEnd m = f.lowEnd (m + 1) := by
  have hpos : 0 < f.hiddenBit := Nat.two_pow_pos _
  unfold highEnd lowEnd significand place
  generalize f.hiddenBit = h at *
  obtain hsmall | rfl | hlarge : m + 1 < h ∨ h = m + 1 ∨ h ≤ m := by omega
  · rw [if_pos hsmall, if_pos (by omega), Nat.div_eq_of_lt hsmall, Nat.div_eq_of_lt (by omega), if_neg (by omega)]
    omega
  · rw [if_pos (by omega), if_neg (by omega), Nat.div_eq_of_lt (by omega), Nat.div_self hpos, Nat.mod_self,
      if_neg (by omega)]
    omega
  · -- Above the least places a magnitude is its place and what follows the hidden bit.
    obtain ⟨a, b, hb, rfl⟩ : ∃ a b, b < h ∧ m = h * (a + 1) + b := by
      refine ⟨m / h - 1, m % h, Nat.mod_lt _ hpos, ?_⟩
      rw [Nat.sub_add_cancel (Nat.div_pos hlarge hpos), Nat.div_add_mod]
    have hdiv (c : Nat) (hc : c < h) (a : Nat) : (h * (a + 1) + c) / h - 1 = a := by
      rw [Nat.mul_add_div hpos, Nat.div_eq_of_lt hc]
      omega
    have hmod (c : Nat) (hc : c < h) (a : Nat) : (h * (a + 1) + c) % h = c := by
      rw [Nat.mul_add_mod, Nat.mod_eq_of_lt hc]
    rw [if_neg (by omega), if_neg (by omega), hdiv b hb, hmod b hb]
    by_cases hcarry : b + 1 < h
    · rw [Nat.add_assoc, hdiv _ hcarry, hmod _ hcarry, if_neg (by omega)]
      congr 1
    · have hnext : h * (a + 1) + b + 1 = h * (a + 1 + 1) + 0 := by
        rw [Nat.mul_succ h (a + 1)]
        omega
      rw [hnext, hdiv 0 hpos, hmod 0 hpos, if_pos (by omega), Nat.pow_succ, Nat.mul_comm _ 2, ← Nat.mul_assoc]
      congr 1
      omega

theorem lowEnd_lt_highEnd (m : Nat) : f.lowEnd m < f.highEnd m := by
  unfold lowEnd highEnd
  have hpow : 0 < 2 ^ f.place m := Nat.two_pow_pos _
  exact Nat.mul_lt_mul_of_pos_right (by omega) hpow

theorem strictMono_lowEnd : StrictMono f.lowEnd :=
  strictMono_nat_of_lt_succ fun m => (lowEnd_lt_highEnd m).trans_eq (highEnd_eq_lowEnd_succ m)

theorem significand_mod_two (heven : 2 ∣ f.hiddenBit) (m : Nat) : f.significand m % 2 = m % 2 := by
  unfold significand
  split
  · rfl
  · rw [Nat.add_mod, Nat.mod_mod_of_dvd m heven]
    omega

end BinaryFormat

namespace Binary

section Uniqueness
variable {f : BinaryFormat} {x y : Binary f} {v : ℚ}

theorem quarter_eq (x : Binary f) : x.quarter = 2 ^ f.place x.magnitude * (2 ^ f.minExponent / 4) := by
  have hexponent : x.exponent = f.minExponent + (f.place x.magnitude : Nat) := rfl
  rw [quarter, hexponent, zpow_add₀ (by norm_num), zpow_natCast]
  ring

theorem lowEnd_eq (x : Binary f) :
    (x.roundingInterval.1 : ℚ) * x.quarter = f.lowEnd x.magnitude * (2 ^ f.minExponent / 4) := by
  have hlow : x.roundingInterval.1 = 4 * f.significand x.magnitude -
      if f.significand x.magnitude = f.hiddenBit ∧ 0 < f.place x.magnitude then 1 else 2 := by
    have hexponent : f.minExponent < x.exponent ↔ 0 < f.place x.magnitude := by
      show f.minExponent < f.minExponent + (f.place x.magnitude : Nat) ↔ _
      omega
    unfold roundingInterval
    simp only [Bool.and_eq_true, decide_eq_true_eq, hexponent]
    rfl
  rw [hlow, quarter_eq, BinaryFormat.lowEnd]
  push_cast
  ring

theorem highEnd_eq (x : Binary f) :
    (x.roundingInterval.2.2 : ℚ) * x.quarter = f.highEnd x.magnitude * (2 ^ f.minExponent / 4) := by
  have hhigh : x.roundingInterval.2.2 = 4 * f.significand x.magnitude + 2 := rfl
  rw [hhigh, quarter_eq, BinaryFormat.highEnd]
  push_cast
  ring

theorem Rounds.le (h : x.Rounds v) :
    f.lowEnd x.magnitude * (2 ^ f.minExponent / 4) ≤ v ∧ v ≤ f.highEnd x.magnitude * (2 ^ f.minExponent / 4) := by
  unfold Rounds at h
  rw [lowEnd_eq, highEnd_eq] at h
  split at h
  · exact h
  · exact ⟨h.1.le, h.2.le⟩

theorem Rounds.even_of_lowEnd (h : x.Rounds v) (hv : v = f.lowEnd x.magnitude * (2 ^ f.minExponent / 4)) :
    f.significand x.magnitude % 2 = 0 := by
  unfold Rounds at h
  rw [lowEnd_eq] at h
  split at h
  · assumption
  · exact absurd hv h.1.ne'

theorem Rounds.even_of_highEnd (h : x.Rounds v) (hv : v = f.highEnd x.magnitude * (2 ^ f.minExponent / 4)) :
    f.significand x.magnitude % 2 = 0 := by
  unfold Rounds at h
  rw [highEnd_eq] at h
  split at h
  · assumption
  · exact absurd hv h.2.ne

/-- A rational does not round to a magnitude and to a greater one. -/
theorem Rounds.not_lt (heven : 2 ∣ f.hiddenBit) (hx : x.Rounds v) (hy : y.Rounds v) : ¬ x.magnitude < y.magnitude := by
  intro hlt
  have hunit : (0 : ℚ) < 2 ^ f.minExponent / 4 := by positivity
  have hends : f.highEnd x.magnitude ≤ f.lowEnd y.magnitude := by
    rw [BinaryFormat.highEnd_eq_lowEnd_succ]
    exact BinaryFormat.strictMono_lowEnd.monotone hlt
  have hends' : (f.highEnd x.magnitude : ℚ) * (2 ^ f.minExponent / 4) ≤
      f.lowEnd y.magnitude * (2 ^ f.minExponent / 4) := by gcongr
  -- The rational is where the two intervals meet, so they are neighbours, and both even.
  have hhigh := hx.le.2.antisymm (hends'.trans hy.le.1)
  have hlow := hy.le.1.antisymm (hx.le.2.trans hends')
  have hmeet : f.lowEnd y.magnitude = f.lowEnd (x.magnitude + 1) := by
    have heq := hlow.trans hhigh
    rw [mul_left_inj' hunit.ne', BinaryFormat.highEnd_eq_lowEnd_succ] at heq
    exact_mod_cast heq
  have hnext := BinaryFormat.strictMono_lowEnd.injective hmeet
  have hevenX := hx.even_of_highEnd hhigh
  have hevenY := hy.even_of_lowEnd hlow.symm
  rw [BinaryFormat.significand_mod_two heven] at hevenX hevenY
  omega

/-- A rational rounds to one magnitude only. -/
theorem Rounds.magnitude_eq (heven : 2 ∣ f.hiddenBit) (hx : x.Rounds v) (hy : y.Rounds v) : x.magnitude = y.magnitude :=
  le_antisymm (Nat.not_lt.mp (hy.not_lt heven hx)) (Nat.not_lt.mp (hx.not_lt heven hy))

end Uniqueness

end Binary

end TypedWire
