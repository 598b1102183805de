import TypedWire.Number.Decimal
import TypedWire.Proofs.DecimalDigits
import Mathlib.Algebra.Order.Field.Power
import Mathlib.Data.Rat.Cast.Order

/-! # Decimals and their text

A decimal stands for a rational number, and numeric equality is equality of these. The text of a decimal, in each of
its layouts, is read as a decimal of the same number. -/

namespace TypedWire
open Text

namespace Decimal

/-- The number that a decimal stands for. -/
def value (d : Decimal) : ℚ :=
  d.unscaled * 10 ^ (-d.scale.toInt)

/-- Two integers are one number at scales `k` apart. -/
theorem mul_zpow_eq_iff {m n : Int} {s t : Int} {k : Nat} (h : s - t = k) :
    (m : ℚ) * 10 ^ (-s) = n * 10 ^ (-t) ↔ m = n * 10 ^ k := by
  have hs : (10 : ℚ) ^ (-t) = 10 ^ (-s) * 10 ^ k := by
    rw [← zpow_natCast, ← zpow_add₀ (by norm_num)]
    congr 1
    omega
  rw [hs, ← mul_assoc, mul_right_comm, mul_left_inj' (by positivity)]
  exact_mod_cast Iff.rfl

theorem le_digitCount_of_eq {m n : Int} {k : Nat} (hm : m ≠ 0) (h : n = m * 10 ^ k) : k ≤ digitCount n.natAbs := by
  have hle : 10 ^ k ≤ n.natAbs := by
    rw [h, Int.natAbs_mul, Int.natAbs_pow]
    exact Nat.le_mul_of_pos_left _ (Int.natAbs_pos.mpr hm)
  have hlt := lt_of_le_of_lt hle (lt_pow_digitCount n.natAbs)
  exact ((Nat.pow_lt_pow_iff_right (by norm_num)).mp hlt).le

/-- Decimals are equal where they stand for one number. -/
theorem equal_iff {a b : Decimal} : a.equal b = true ↔ a.value = b.value := by
  have hshifted (n : Int) (k : Nat) (m : Int) :
      ((if m = 0 then decide (n = 0) else decide (k ≤ digitCount n.natAbs) && n == m * 10 ^ k) = true) ↔
        n = m * 10 ^ k := by
    split
    · next hm => simp [hm]
    · next hm =>
      rw [Bool.and_eq_true, decide_eq_true_iff, beq_iff_eq, and_iff_right_iff_imp]
      exact le_digitCount_of_eq hm
  unfold equal value
  dsimp only
  split
  · rw [hshifted]
    exact (mul_zpow_eq_iff (by omega)).symm
  · rw [hshifted, eq_comm (a := (a.unscaled : ℚ) * _)]
    exact (mul_zpow_eq_iff (by omega)).symm

end Decimal

/-! ### Reading digits -/

/-- A sign for a negative number. -/
def signChars (negative : Bool) : List Char :=
  if negative then ['-'] else []

/-- A number with a sign. -/
def withSign (negative : Bool) (n : Nat) : Int :=
  if negative then -n else n

section Reading
variable {ds : List Char} {negative : Bool}

namespace BigInteger

theorem natural?_digits (hne : ds ≠ []) (hds : ∀ c ∈ ds, isDigit c = true) : natural? ds = .ok (ofDigits ds) := by
  have hfilter : ds.filter (· ≠ '_') = ds :=
    List.filter_eq_self.mpr fun c hc => decide_eq_true (ne_of_isDigit (hds c hc) rfl)
  have hall : ds.all Char.isDigit = true := List.all_eq_true.mpr hds
  unfold natural?
  split
  · exact absurd rfl hne
  · exact absurd rfl (ne_of_isDigit (hds _ (.head _)) rfl)
  · simp only [hfilter, hall, if_true]

theorem parse_digits (negative : Bool) (hne : ds ≠ []) (hds : ∀ c ∈ ds, isDigit c = true) :
    parse (String.ofList (signChars negative ++ ds)) = .ok (withSign negative (ofDigits ds)) := by
  have hread := natural?_digits hne hds
  rw [parse, String.toList_ofList]
  cases negative with
  | true =>
    simp only [signChars, if_true, List.cons_append, List.nil_append, hread]
    rfl
  | false =>
    have hsign : ∀ c ∈ ds.head?, c ≠ '-' ∧ c ≠ '+' := fun c hc =>
      ⟨ne_of_isDigit (hds c (List.mem_of_mem_head? hc)) rfl, ne_of_isDigit (hds c (List.mem_of_mem_head? hc)) rfl⟩
    rw [signChars, if_neg Bool.false_ne_true, List.nil_append]
    split
    · exact absurd rfl (hsign _ rfl).1
    · exact absurd rfl (hsign _ rfl).2
    · rw [hread]
      rfl

theorem parse_integerText (n : Int) : parse (integerText n) = .ok n := by
  have hread := parse_digits (decide (n < 0)) (decimalDigits_ne_nil n.natAbs) fun _ => isDigit_of_mem_decimalDigits _
  rw [ofDigits_decimalDigits] at hread
  by_cases hn : n < 0
  · rw [decide_eq_true hn] at hread
    rw [integerText, if_pos hn]
    exact hread.trans (congrArg Except.ok (by simp only [withSign, if_true]; omega))
  · rw [decide_eq_false hn] at hread
    rw [integerText, if_neg hn]
    exact hread.trans (congrArg Except.ok (by simp only [withSign, Bool.false_eq_true, if_false]; omega))

end BigInteger

namespace Decimal

theorem cut_of_forall {p : Char → Bool} {cs : List Char} (hcs : ∀ c ∈ cs, p c = false) : cut p cs = (cs, none) := by
  have hdrop : cs.dropWhile (fun c => !p c) = [] := by
    rw [← List.append_nil cs, List.dropWhile_append_of_pos fun c hc => by simp [hcs c hc]]
    rfl
  rw [cut, hdrop]

theorem cut_append {p : Char → Bool} {cs rest : List Char} {c : Char} (hcs : ∀ c ∈ cs, p c = false) (hc : p c = true) :
    cut p (cs ++ c :: rest) = (cs, some rest) := by
  have hall : ∀ d ∈ cs, (!p d) = true := fun d hd => by simp [hcs d hd]
  have hstop : (!p c) = false := by simp [hc]
  rw [cut, List.dropWhile_append_of_pos hall, List.takeWhile_append_of_pos hall, List.dropWhile_cons, hstop,
    List.takeWhile_cons, hstop]
  simp

theorem exponentDigits_digits {limit : Nat} {past : NumberFault} (hds : ∀ c ∈ ds, isDigit c = true) {n : Nat}
    (hfit : digitsFrom n ds ≤ limit) : exponentDigits limit past n ds = .ok (digitsFrom n ds) := by
  induction ds generalizing n with
  | nil => rfl
  | cons d ds ih =>
    obtain ⟨hd, hds⟩ := List.forall_mem_cons.mp hds
    have hstep : 10 * n + digitValue d ≤ limit := (le_digitsFrom _ ds).trans hfit
    have hd' : d.isDigit = true := hd
    rw [exponentDigits, if_pos hd']
    dsimp only
    rw [if_neg (Nat.not_lt.mpr hstep)]
    exact ih hds hfit

theorem exponentDigits_decimalDigits {limit n : Nat} (past : NumberFault) (h : n ≤ limit) :
    exponentDigits limit past 0 (decimalDigits n) = .ok n := by
  have hden : digitsFrom 0 (decimalDigits n) = n := ofDigits_decimalDigits n
  rw [exponentDigits_digits (fun _ => isDigit_of_mem_decimalDigits n) (hden.le.trans h), hden]

theorem exponent?_minus {n : Nat} (h : n ≤ 2 ^ 127) : exponent? ('-' :: decimalDigits n) = .ok (-n) := by
  have hread := exponentDigits_decimalDigits .tooSmall h
  obtain ⟨d, ds, hds, -⟩ := decimalDigits_eq_cons n
  rw [hds] at hread ⊢
  simp only [exponent?, hread]
  rfl

theorem exponent?_plus {n : Nat} (h : n < 2 ^ 127) : exponent? ('+' :: decimalDigits n) = .ok n := by
  have hread := exponentDigits_decimalDigits .tooLarge (Nat.le_sub_one_of_lt h)
  obtain ⟨d, ds, hds, -⟩ := decimalDigits_eq_cons n
  rw [hds] at hread ⊢
  simp only [exponent?, hread]
  rfl

/-- Whether a character begins an exponent. -/
def isMark (c : Char) : Bool :=
  c = 'e' || c = 'E'

/-- The exponent behind digits, zero where there is none. -/
def tailExponent : Option (List Char) → Except NumberFault Int
  | none => .ok 0
  | some cs => exponent? cs

/-- The decimal of digits around a point, with `exponent` behind them. -/
theorem parse_of_cut {s : String} {mantissa lead fraction : List Char} {tail trail : Option (List Char)}
    {exponent : Int} (hmark : cut isMark s.toList = (mantissa, tail)) (hexponent : tailExponent tail = .ok exponent)
    (hne : mantissa ≠ []) (hpoint : cut (· = '.') mantissa = (lead, trail)) (hfraction : trail.getD [] = fraction)
    (hplaces : ∀ c ∈ fraction, isDigit c = true) {n : Int}
    (hn : BigInteger.parse (String.ofList (lead ++ fraction)) = .ok n) :
    parse s = match int64? (fraction.length - exponent) with
      | none => .error (.scale s)
      | some scale => .ok ⟨n, scale⟩ := by
  have hmark' : cut (fun c => c = 'e' || c = 'E') s.toList = (mantissa, tail) := hmark
  have hempty : mantissa.isEmpty = false := by simpa using hne
  have hfilter : fraction.filter (· ≠ '_') = fraction :=
    List.filter_eq_self.mpr fun c hc => decide_eq_true (ne_of_isDigit (hplaces c hc) rfl)
  rw [parse, hmark']
  cases tail <;> (
    simp only [tailExponent, Except.ok.injEq] at hexponent
    simp only [hexponent, Except.mapError, pure, Except.pure, bind, Except.bind, hempty, Bool.false_eq_true, if_false,
      hpoint, hfraction, hfilter, hn]
    cases int64? (fraction.length - exponent) <;> rfl)

/-- Digits with a point behind them where others follow. -/
def pointed (lead : List Char) : Option (List Char) → List Char
  | none => lead
  | some trail => lead ++ '.' :: trail

/-- A mark with what follows it, where there is any. -/
def marked (mark : Char) : Option (List Char) → List Char
  | none => []
  | some tail => mark :: tail

theorem not_isMark_of_beginsNumber {c : Char} (h : beginsNumber c = true) : isMark c = false := by
  have hlower : c ≠ 'e' := ne_of_beginsNumber h rfl
  have hupper : c ≠ 'E' := ne_of_beginsNumber h rfl
  simp [isMark, hlower, hupper]

theorem beginsNumber_of_mem_signed (negative : Bool) {lead : List Char} (hlead : ∀ c ∈ lead, isDigit c = true) :
    ∀ c ∈ signChars negative ++ lead, beginsNumber c = true := by
  have hsign : ∀ c ∈ signChars negative, beginsNumber c = true := by
    cases negative <;> simp [signChars, beginsNumber]
  exact List.forall_mem_append.mpr ⟨hsign, fun c hc => beginsNumber_of_isDigit (hlead c hc)⟩

theorem append_pointed (front lead : List Char) (trail : Option (List Char)) :
    front ++ pointed lead trail = pointed (front ++ lead) trail := by
  cases trail with
  | none => rfl
  | some fs => exact (List.append_assoc ..).symm

theorem cut_pointed {front : List Char} (hfront : ∀ c ∈ front, beginsNumber c = true) (trail : Option (List Char)) :
    cut (· = '.') (pointed front trail) = (front, trail) := by
  have hno : ∀ c ∈ front, decide (c = '.') = false := fun c hc =>
    decide_eq_false (ne_of_beginsNumber (hfront c hc) rfl)
  cases trail with
  | none => exact cut_of_forall hno
  | some fs => exact cut_append hno rfl

theorem not_isMark_of_mem_pointed {front : List Char} {trail : Option (List Char)}
    (hfront : ∀ c ∈ front, beginsNumber c = true) (htrail : ∀ c ∈ trail.getD [], isDigit c = true) :
    ∀ c ∈ pointed front trail, isMark c = false := by
  have hno : ∀ c ∈ front, isMark c = false := fun c hc => not_isMark_of_beginsNumber (hfront c hc)
  cases trail with
  | none => exact hno
  | some fs =>
    have htail : ∀ c ∈ fs, isMark c = false := fun c hc =>
      not_isMark_of_beginsNumber (beginsNumber_of_isDigit (htrail c hc))
    exact List.forall_mem_append.mpr ⟨hno, List.forall_mem_cons.mpr ⟨rfl, htail⟩⟩

theorem cut_marked {body : List Char} {mark : Char} (hbody : ∀ c ∈ body, isMark c = false) (hmark : isMark mark = true)
    (tail : Option (List Char)) : cut isMark (body ++ marked mark tail) = (body, tail) := by
  cases tail with
  | none =>
    rw [marked, List.append_nil]
    exact cut_of_forall hbody
  | some cs => exact cut_append hbody hmark

/-- A sign, digits around a point, and an exponent: the point and the exponent give the scale, all the digits the
    number. -/
theorem parse_layout (negative : Bool) {lead : List Char} {trail tail : Option (List Char)} {mark : Char}
    {exponent : Int} (hne : lead ≠ []) (hlead : ∀ c ∈ lead, isDigit c = true)
    (htrail : ∀ c ∈ trail.getD [], isDigit c = true) (hmark : isMark mark = true)
    (hexponent : tailExponent tail = .ok exponent) :
    parse (String.ofList (signChars negative ++ pointed lead trail ++ marked mark tail)) =
      match int64? ((trail.getD []).length - exponent) with
      | none => .error (.scale (String.ofList (signChars negative ++ pointed lead trail ++ marked mark tail)))
      | some scale => .ok ⟨withSign negative (ofDigits (lead ++ trail.getD [])), scale⟩ := by
  have hfront := beginsNumber_of_mem_signed negative hlead
  have hdigits : ∀ c ∈ lead ++ trail.getD [], isDigit c = true := List.forall_mem_append.mpr ⟨hlead, htrail⟩
  rw [append_pointed]
  refine parse_of_cut ?_ hexponent ?_ (cut_pointed hfront trail) rfl htrail ?_
  · rw [String.toList_ofList]
    exact cut_marked (not_isMark_of_mem_pointed hfront htrail) hmark tail
  · cases trail <;> simp [pointed, hne]
  · rw [List.append_assoc]
    exact BigInteger.parse_digits negative (by simp [hne]) hdigits

theorem isDigit_of_mem_zeros {k : Nat} {c : Char} (h : c ∈ List.replicate k '0') : isDigit c = true := by
  rw [List.eq_of_mem_replicate h]
  rfl

/-- Digits laid out with a point: zeros fill up the places, and what stands behind the point are the places below the
    units. -/
theorem positional_eq_pointed (hne : ds ≠ []) (hds : ∀ c ∈ ds, isDigit c = true) (e : Int) :
    ∃ lead trail, positional ds e = pointed lead trail ∧ lead ≠ [] ∧ (∀ c ∈ lead, isDigit c = true) ∧
      (∀ c ∈ trail.getD [], isDigit c = true) ∧ (trail.getD []).length = (ds.length - 1 - e).toNat ∧
      ofDigits (lead ++ trail.getD []) = ofDigits ds * 10 ^ (e - (ds.length - 1)).toNat := by
  have hlength : 0 < ds.length := List.length_pos_iff.mpr hne
  unfold positional
  split
  · -- The first digit is below the units, behind a zero and a point.
    next he =>
    refine ⟨['0'], some (List.replicate ((-e).toNat - 1) '0' ++ ds), rfl, by simp, by simp [isDigit], ?_, ?_, ?_⟩
    · intro c hc
      exact (List.mem_append.mp hc).elim isDigit_of_mem_zeros (hds c)
    · rw [Option.getD_some, List.length_append, List.length_replicate]
      omega
    · have hzero : (e - (ds.length - 1)).toNat = 0 := by omega
      rw [Option.getD_some, ofDigits_append, ofDigits_append, ofDigits_zeros, hzero]
      simp [ofDigits, digitValue]
  · next he =>
    dsimp only
    split
    · -- The last digit is not below the units.
      next hshort =>
      refine ⟨ds ++ List.replicate (e.toNat + 1 - ds.length) '0', none, rfl, by simp [hne], ?_,
        List.forall_mem_nil _, ?_, ?_⟩
      · intro c hc
        exact (List.mem_append.mp hc).elim (hds c) isDigit_of_mem_zeros
      · rw [Option.getD_none, List.length_nil]
        omega
      · have hzeros : (e - (ds.length - 1)).toNat = e.toNat + 1 - ds.length := by omega
        rw [Option.getD_none, List.append_nil, ofDigits_append, ofDigits_zeros, List.length_replicate, hzeros,
          Nat.add_zero]
    · next hlong =>
      refine ⟨ds.take (e.toNat + 1), some (ds.drop (e.toNat + 1)), rfl, ?_, fun c hc => hds c (List.mem_of_mem_take hc),
        fun c hc => hds c (List.mem_of_mem_drop hc), ?_, ?_⟩
      · simp [hne]
      · rw [Option.getD_some, List.length_drop]
        omega
      · have hzero : (e - (ds.length - 1)).toNat = 0 := by omega
        rw [Option.getD_some, List.take_append_drop, hzero, pow_zero, mul_one]

theorem parse_positional (negative : Bool) (hne : ds ≠ []) (hds : ∀ c ∈ ds, isDigit c = true) (e : Int) :
    parse (String.ofList (signChars negative ++ positional ds e)) =
      match int64? (ds.length - 1 - e).toNat with
      | none => .error (.scale (String.ofList (signChars negative ++ positional ds e)))
      | some scale => .ok ⟨withSign negative (ofDigits ds * 10 ^ (e - (ds.length - 1)).toNat), scale⟩ := by
  obtain ⟨lead, trail, heq, hlead, hleadDigits, htrail, hplaces, hvalue⟩ := positional_eq_pointed hne hds e
  have hmark : isMark 'e' = true := rfl
  have hnone : tailExponent none = .ok 0 := rfl
  have hread := parse_layout negative hlead hleadDigits htrail hmark hnone
  simp only [marked, List.append_nil, ← heq, hplaces, hvalue, sub_zero] at hread
  exact hread

end Decimal

end Reading

/-! ### The text of a decimal -/

theorem sign_append (p : Prop) [Decidable p] (cs : List Char) :
    (if p then "-" else "") ++ String.ofList cs = String.ofList (signChars p ++ cs) := by
  by_cases h : p <;> simp [signChars, h]

theorem ofList_append (cs : List Char) (s : String) : String.ofList cs ++ s = String.ofList (cs ++ s.toList) := by
  rw [String.ofList_append, String.ofList_toList]

theorem toList_integerText_of_neg {n : Int} (h : n < 0) : (integerText n).toList = '-' :: decimalDigits n.natAbs := by
  rw [integerText, String.toList_ofList, if_pos h]

theorem toInt_of_int64? {n : Int} {k : Int64} (h : int64? n = some k) : k.toInt = n := by
  rw [int64?] at h
  split at h
  · next hn =>
    obtain rfl := Option.some.inj h
    exact Int64.toInt_ofInt_of_le hn.1 hn.2
  · cases h

theorem withSign_natAbs (n : Int) : withSign (n < 0) n.natAbs = n := by
  by_cases h : n < 0
  · rw [withSign, decide_eq_true h, if_pos rfl]
    omega
  · rw [withSign, decide_eq_false h, if_neg Bool.false_ne_true]
    omega

theorem withSign_mul (negative : Bool) (n k : Nat) : withSign negative (n * k) = withSign negative n * k := by
  cases negative <;> simp [withSign]

theorem exists_int64? {n : Nat} (h : n < 2 ^ 63) : ∃ k, int64? n = some k ∧ k.toInt = n := by
  have hk : int64? n = some (Int64.ofInt n) := if_pos ⟨by omega, by omega⟩
  exact ⟨_, hk, toInt_of_int64? hk⟩

namespace Decimal

/-- A number below one, with an exponent. -/
theorem parse_scientific {u : Int} {scale : Int64} {c : Char} {cs : List Char} (hds : decimalDigits u.natAbs = c :: cs)
    (h : cs.length < scale.toInt) :
    parse (String.ofList (signChars (u < 0) ++ pointed [c] (if cs = [] then none else some cs) ++
      marked 'E' (some (integerText (cs.length - scale.toInt)).toList))) = .ok ⟨u, scale⟩ := by
  have hdigits : ∀ d ∈ c :: cs, isDigit d = true := fun d hd => isDigit_of_mem_decimalDigits _ (hds ▸ hd)
  have hexponent : tailExponent (some (integerText (cs.length - scale.toInt)).toList) =
      .ok (cs.length - scale.toInt) := by
    have hhigh := scale.toInt_lt
    rw [tailExponent, toList_integerText_of_neg (by omega), exponent?_minus (by omega)]
    exact congrArg Except.ok (by omega)
  have htrail : (if cs = [] then none else some cs).getD [] = cs := by
    split <;> simp [*]
  have hread := parse_layout (u < 0) (List.cons_ne_nil c []) (by simpa using hdigits c (.head _))
    (by rw [htrail]; exact fun d hd => hdigits d (.tail _ hd)) (show isMark 'E' = true from rfl) hexponent
  rw [hread, htrail]
  have hscale : (cs.length : Int) - (cs.length - scale.toInt) = scale.toInt := by omega
  rw [hscale, int64?_toInt, List.singleton_append, ← hds, ofDigits_decimalDigits, withSign_natAbs]

/-- A number with zeros before the point, with an exponent. -/
theorem parse_scaled (u : Int) (scale : Int64) (h : scale.toInt < 0) :
    parse (String.ofList (signChars (u < 0) ++ pointed (decimalDigits u.natAbs) none ++
      marked 'e' (some ('+' :: decimalDigits scale.toInt.natAbs)))) = .ok ⟨u, scale⟩ := by
  have hexponent : tailExponent (some ('+' :: decimalDigits scale.toInt.natAbs)) = .ok (-scale.toInt) := by
    have hlow := scale.le_toInt
    rw [tailExponent, exponent?_plus (by omega)]
    exact congrArg Except.ok (by omega)
  have htrail : ∀ c ∈ Option.getD none [], isDigit c = true := List.forall_mem_nil _
  have hmark : isMark 'e' = true := rfl
  have hread := parse_layout (u < 0) (decimalDigits_ne_nil u.natAbs) (fun _ => isDigit_of_mem_decimalDigits _) htrail
    hmark hexponent
  have hscale : (([] : List Char).length : Int) - -scale.toInt = scale.toInt := by
    rw [List.length_nil]
    omega
  rw [hread, Option.getD_none, hscale, int64?_toInt, List.append_nil, ofDigits_decimalDigits, withSign_natAbs]

/-- Digits moved up by as many places as are not behind the point. -/
theorem value_positional (u : Int) (s : Int) (k : Int64) (hk : k.toInt = s.toNat) :
    value ⟨u * (10 ^ (-s).toNat : Nat), k⟩ = u * 10 ^ (-s) := by
  rw [value, hk]
  push_cast
  rw [mul_assoc, ← zpow_natCast, ← zpow_add₀ (by norm_num)]
  congr 2
  omega

/-- What is read of digits with a point stands for them, moved to the place of the first. -/
theorem value_of_parse_positional {negative : Bool} {ds : List Char} (hne : ds ≠ [])
    (hds : ∀ c ∈ ds, isDigit c = true) {e : Int} {d : Decimal}
    (h : parse (String.ofList (signChars negative ++ positional ds e)) = .ok d) :
    d.value = withSign negative (ofDigits ds) * 10 ^ (e - (ds.length - 1)) := by
  rw [parse_positional negative hne hds] at h
  split at h
  · cases h
  · next k hk =>
    obtain rfl := Except.ok.inj h
    have hmoved : e - (ds.length - 1) = -(ds.length - 1 - e) := (neg_sub ..).symm
    rw [hmoved, withSign_mul]
    exact value_positional _ _ k (toInt_of_int64? hk)

/-- A number written out with all its places. -/
theorem parse_plain (u : Int) {s : Int} (hs : s < 2 ^ 63) :
    ∃ e, parse (String.ofList (signChars (u < 0) ++
      positional (decimalDigits u.natAbs) ((decimalDigits u.natAbs).length - 1 - s))) = .ok e ∧
      e.value = u * 10 ^ (-s) := by
  have hread := parse_positional (u < 0) (decimalDigits_ne_nil u.natAbs) (fun _ => isDigit_of_mem_decimalDigits _)
    ((decimalDigits u.natAbs).length - 1 - s)
  obtain ⟨k, hk, hvalue⟩ := exists_int64? (n := s.toNat) (by omega)
  have hplaces : ((decimalDigits u.natAbs).length - 1 - ((decimalDigits u.natAbs).length - 1 - s)).toNat = s.toNat :=
    congrArg Int.toNat (sub_sub_cancel ..)
  have hzeros : ((decimalDigits u.natAbs).length - 1 - s - ((decimalDigits u.natAbs).length - 1)).toNat = (-s).toNat :=
    congrArg Int.toNat (sub_sub_cancel_left ..)
  rw [hplaces, hk, hzeros, ofDigits_decimalDigits, withSign_mul, withSign_natAbs] at hread
  exact ⟨_, hread, value_positional u s k hvalue⟩

/-- The text of a decimal is read as a decimal of the same number. -/
theorem parse_text (d : Decimal) : ∃ e, parse d.text = .ok e ∧ e.value = d.value := by
  obtain ⟨u, scale⟩ := d
  have hhigh := scale.toInt_lt
  unfold text
  dsimp only
  by_cases hu : u = 0
  · subst hu
    obtain ⟨e, he, hvalue⟩ := parse_plain 0 (s := 0) (by omega)
    exact ⟨e, he, by simpa [value] using hvalue⟩
  rw [if_neg hu]
  obtain ⟨c, cs, hds, -⟩ := decimalDigits_eq_cons u.natAbs
  simp only [sign_append, ofList_append, List.append_assoc]
  split
  · -- Far below one, with a digit before the point and the rest in the exponent.
    next hsmall =>
    rw [hds, List.length_cons] at hsmall ⊢
    refine ⟨⟨u, scale⟩, ?_, rfl⟩
    rw [← parse_scientific hds (by omega)]
    cases cs with
    | nil => simp [pointed, marked]
    | cons c' cs => simp [pointed, marked]
  split
  · -- Many zeros before the point, which the exponent stands for.
    next hlarge =>
    refine ⟨⟨u, scale⟩, ?_, rfl⟩
    have hexponent : integerText (-scale.toInt) = String.ofList (decimalDigits scale.toInt.natAbs) := by
      rw [integerText, if_neg (by omega), Int.natAbs_neg]
    rw [← parse_scaled u scale (by omega), hexponent]
    simp [pointed, marked]
  · exact parse_plain u hhigh

end Decimal

end TypedWire
