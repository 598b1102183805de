import TypedWire.Number.Digits
import TypedWire.Text.Ascii

/-! # Digits of a number and the number of its digits

The decimal digits of a number are digits, at least one of them, without a leading zero; and the number that they
denote is the number itself. -/

namespace TypedWire
open Text

/-- Whether a character can begin a number. -/
def beginsNumber (c : Char) : Bool :=
  isDigit c || c == '-'

section Characters
variable {c d : Char}

theorem ne_of_isDigit (hc : isDigit c = true) (hd : isDigit d = false) : c ≠ d :=
  fun heq => Bool.false_ne_true (hd.symm.trans (heq ▸ hc))

theorem ne_of_beginsNumber (hc : beginsNumber c = true) (hd : beginsNumber d = false) : c ≠ d :=
  fun heq => Bool.false_ne_true (hd.symm.trans (heq ▸ hc))

theorem beginsNumber_of_isDigit (h : isDigit c = true) : beginsNumber c = true := by
  rw [beginsNumber, h, Bool.true_or]

end Characters

/-- The number that digits denote behind those of `n`. -/
def digitsFrom (n : Nat) (ds : List Char) : Nat :=
  ds.foldl (fun n c => 10 * n + digitValue c) n

section Digits
variable {n : Nat} {ds es : List Char}

theorem ofDigits_eq_digitsFrom (ds : List Char) : ofDigits ds = digitsFrom 0 ds :=
  rfl

theorem digitsFrom_append : digitsFrom n (ds ++ es) = digitsFrom (digitsFrom n ds) es :=
  List.foldl_append

theorem digitsFrom_eq (n : Nat) (ds : List Char) : digitsFrom n ds = n * 10 ^ ds.length + ofDigits ds := by
  induction ds generalizing n with
  | nil => simp [digitsFrom, ofDigits]
  | cons c cs ih =>
    have hzero : ofDigits (c :: cs) = digitsFrom (10 * 0 + digitValue c) cs := rfl
    show digitsFrom (10 * n + digitValue c) cs = _
    rw [hzero, ih, ih, List.length_cons, Nat.pow_succ, Nat.add_mul, Nat.mul_zero, Nat.zero_add, Nat.add_assoc,
      Nat.mul_comm 10 n, Nat.mul_assoc, Nat.mul_comm 10]

theorem ofDigits_append (ds es : List Char) : ofDigits (ds ++ es) = ofDigits ds * 10 ^ es.length + ofDigits es := by
  rw [ofDigits_eq_digitsFrom, digitsFrom_append, digitsFrom_eq, ← ofDigits_eq_digitsFrom]

theorem le_digitsFrom (n : Nat) (ds : List Char) : n ≤ digitsFrom n ds := by
  rw [digitsFrom_eq]
  exact Nat.le_add_right_of_le (Nat.le_mul_of_pos_right n (Nat.pow_pos (by decide)))

theorem ofDigits_zeros (k : Nat) : ofDigits (List.replicate k '0') = 0 := by
  induction k with
  | zero => rfl
  | succ k ih =>
    rw [List.replicate_succ', ofDigits_append, ih]
    rfl

end Digits

section DecimalDigits
variable (n : Nat)

theorem decimalDigits_ne_nil : decimalDigits n ≠ [] :=
  Nat.toDigits_ne_nil

theorem isDigit_of_mem_decimalDigits {c : Char} (h : c ∈ decimalDigits n) : isDigit c = true :=
  Nat.isDigit_of_mem_toDigits (by decide) (Nat.le_refl 10) h

theorem ofDigits_decimalDigits : ofDigits (decimalDigits n) = n := by
  have hden : Nat.ofDigitChars 10 (Nat.toDigits 10 n) 0 = n := Nat.ofDigitChars_ten_toDigits
  rw [Nat.ofDigitChars_eq_foldl] at hden
  exact hden

theorem decimalDigits_ne_zero_cons {n : Nat} (h : n ≠ 0) (ds : List Char) : decimalDigits n ≠ '0' :: ds := by
  induction n using Nat.strongRecOn generalizing ds with
  | ind n ih =>
    intro hds
    rw [decimalDigits, Nat.toDigits_eq_if (by decide)] at hds
    split at hds
    · next hsmall =>
      have hdigit : ∀ k : Fin 10, Nat.digitChar k.val = '0' → k.val = 0 := by decide
      exact h (hdigit ⟨n, hsmall⟩ (List.cons.inj hds).1)
    · next hlarge =>
      cases hq : Nat.toDigits 10 (n / 10) with
      | nil => exact Nat.toDigits_ne_nil hq
      | cons d es =>
        rw [hq] at hds
        obtain rfl := (List.cons.inj hds).1
        exact ih (n / 10) (by omega) (by omega) es hq

/-- A number has a first digit, which is zero for the number zero only. -/
theorem decimalDigits_eq_cons : ∃ d ds, decimalDigits n = d :: ds ∧ isDigit d = true ∧ (d = '0' → n = 0) := by
  cases hds : decimalDigits n with
  | nil => exact absurd hds (decimalDigits_ne_nil n)
  | cons d ds =>
    refine ⟨d, ds, rfl, isDigit_of_mem_decimalDigits n (hds ▸ List.mem_cons_self ..), fun hd => ?_⟩
    exact Classical.byContradiction fun hn => decimalDigits_ne_zero_cons hn ds (hd ▸ hds)

theorem digitCount_pos : 0 < digitCount n :=
  List.length_pos_iff.mpr (decimalDigits_ne_nil n)

theorem lt_pow_digitCount : n < 10 ^ digitCount n :=
  (Nat.length_toDigits_le_iff (by decide) (digitCount_pos n)).mp (Nat.le_refl _)

theorem pow_digitCount_le {n : Nat} (h : n ≠ 0) : 10 ^ (digitCount n - 1) ≤ n := by
  rcases Nat.eq_or_lt_of_le (digitCount_pos n) with hone | hmore
  · rw [← hone]
    exact Nat.one_le_iff_ne_zero.mpr h
  · refine Nat.le_of_not_lt fun hlt => ?_
    have hle : digitCount n ≤ digitCount n - 1 := (Nat.length_toDigits_le_iff (by decide) (by omega)).mpr hlt
    omega

theorem decimalDigits_digitValue {c : Char} (hc : isDigit c = true) : decimalDigits (digitValue c) = [c] := by
  have hchars : ∀ k : Fin 10, Nat.digitChar k.val = Char.ofNat ('0'.toNat + k.val) := by decide
  obtain ⟨hlow, hhigh⟩ : '0'.toNat ≤ c.toNat ∧ c.toNat ≤ '9'.toNat := by
    simpa [isDigit, Char.le_def, UInt32.le_iff_toNat_le] using hc
  have hlt : digitValue c < 10 := by
    have hnine : '9'.toNat = '0'.toNat + 9 := rfl
    unfold digitValue
    omega
  have hchar : Char.ofNat ('0'.toNat + digitValue c) = c := by
    unfold digitValue
    rw [Nat.add_sub_cancel' hlow, Char.ofNat_toNat]
  rw [decimalDigits, Nat.toDigits_of_lt_base hlt, hchars ⟨digitValue c, hlt⟩, hchar]

theorem decimalDigits_append {n : Nat} (hn : 0 < n) {ds : List Char} (hds : ∀ c ∈ ds, isDigit c = true) :
    decimalDigits n ++ ds = decimalDigits (digitsFrom n ds) := by
  induction ds generalizing n with
  | nil => exact List.append_nil _
  | cons c cs ih =>
    obtain ⟨hc, hcs⟩ := List.forall_mem_cons.mp hds
    have hlt : digitValue c < 10 := by
      have hcount := lt_pow_digitCount (digitValue c)
      rwa [digitCount, decimalDigits_digitValue hc] at hcount
    have hstep : decimalDigits n ++ [c] = decimalDigits (10 * n + digitValue c) := by
      rw [← decimalDigits_digitValue hc]
      exact Nat.toDigits_append_toDigits (by decide) hn hlt
    have hpos : 0 < 10 * n + digitValue c := by omega
    rw [List.append_cons, hstep, ih hpos hcs]
    rfl

/-- Digits without a leading zero, unless zero is all they are, are those of the number they denote. -/
theorem decimalDigits_ofDigits {ds : List Char} (hne : ds ≠ []) (hds : ∀ c ∈ ds, isDigit c = true)
    (hzero : ds.head? = some '0' → ds = ['0']) : decimalDigits (ofDigits ds) = ds := by
  obtain ⟨c, cs, rfl⟩ := List.exists_cons_of_ne_nil hne
  obtain ⟨hc, hcs⟩ := List.forall_mem_cons.mp hds
  have hfirst : ofDigits (c :: cs) = digitsFrom (digitValue c) cs := by
    rw [ofDigits_eq_digitsFrom, digitsFrom, List.foldl_cons, Nat.mul_zero, Nat.zero_add]
    rfl
  rw [hfirst]
  rcases Nat.eq_zero_or_pos (digitValue c) with hvalue | hpos
  · have hdigit := decimalDigits_digitValue hc
    rw [hvalue] at hdigit
    obtain rfl : c = '0' := (List.cons.inj hdigit).1.symm
    obtain rfl : cs = [] := (List.cons.inj (hzero rfl)).2
    rfl
  · rw [← decimalDigits_append hpos hcs, decimalDigits_digitValue hc]
    rfl

end DecimalDigits

end TypedWire
