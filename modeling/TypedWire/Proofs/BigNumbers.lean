import TypedWire.Proofs.JsonFloats
import TypedWire.Proofs.JsonRoundTrip
import TypedWire.Proofs.Untyped

/-! # Big numbers through JSON text

A big integer comes back from JSON text as it was. A decimal that travels as a string does as well, up to its scale;
one that travels as a double comes back exactly where the reader of JSON numbers takes the text of that double for it,
because no other double has a decimal of the same number. -/

namespace TypedWire

namespace Wire

/-! ### Leaves through JSON -/

/-- A leaf without a fraction is read from its text as it is restored. -/
theorem ofJsonText_leaf {l : Leaf} (h : l.IsWhole) : ofJsonText (leaf l).jsonText = .ok (leaf l.restored) := by
  rw [ofJsonText, jsonText, toJson, Json.parse?_text (fits_leafToJson h _)]
  exact congrArg Except.ok (ofJson_leafToJson h)

theorem readBigInteger_restored (n : Int) : (leaf (Leaf.bigInteger n).restored).readBigInteger = .ok n := by
  rw [Leaf.restored]
  cases hn : int64? n with
  | some k => exact congrArg Except.ok (toInt_of_int64? hn)
  | none =>
    dsimp only
    split
    · rfl
    · rw [readBigInteger, BigInteger.parse_integerText]
      rfl

/-- A decimal travels as its double, if the plain text of that is a decimal of the same number, or as its text. -/
theorem decimalToJson_cases (d : Decimal) :
    (∃ e, decimalToJson d = .float d.toBinary64 ∧ Decimal.parse d.toBinary64.plainText = .ok e ∧ e.value = d.value) ∨
      decimalToJson d = .string d.text := by
  unfold decimalToJson
  dsimp only
  split
  · next e he =>
    split
    · next heq => exact .inl ⟨e, rfl, he, Decimal.equal_iff.mp heq⟩
    · exact .inr rfl
  · exact .inr rfl

theorem decimalOfText_eq_ok {s : String} {d : Decimal} : decimalOfText s = .ok d ↔ Decimal.parse s = .ok d := by
  rw [decimalOfText]
  cases Decimal.parse s <;> simp [Except.mapError]

theorem parse?_zero : Json.parse? "0.0" = some (.float (.zero false)) := by
  have hnumber : Json.readNumber ['0', '.', '0'] =
      ((Json.applyExponent (.ofInt (0 : Nat)) (-1)).map (·, [])).map (Prod.map .float id) := rfl
  refine (Json.parse?_number rfl).trans ?_
  rw [hnumber, Json.applyExponent, if_pos (by decide)]
  rfl

/-- The double of a decimal is zero for the number zero only, and then it has no sign. -/
theorem toBinary64_of_isZero {d e : Decimal} (hparse : Decimal.parse d.toBinary64.plainText = .ok e)
    (hvalue : e.value = d.value) (h : d.toBinary64.isZero = true) : d.toBinary64 = .zero false := by
  have hzero : d.value = 0 := by
    rw [← hvalue, Binary.value_of_parse_plainText hparse, ← abs_eq_zero, Binary.abs_shortestValue,
      Binary.value_shortest_zero .up h]
  have hunscaled : d.unscaled = 0 := by
    simpa [Decimal.value, zpow_ne_zero] using hzero
  rw [Decimal.toBinary64, hunscaled]
  rfl

/-- A decimal comes back from its text as the same number if it travels as a string, and exactly if the reader takes
    the text of its double for that double otherwise. -/
theorem readBigDecimal_ofJsonText_iff (d : Decimal) :
    (∃ e, (ofJsonText (leaf (.bigDecimal d)).jsonText).bind readBigDecimal = .ok e ∧ e.value = d.value) ↔
      ∀ x, decimalToJson d = .float x → Json.parse? x.jsonText = some (.float x) := by
  have htext : (leaf (.bigDecimal d)).jsonText = (decimalToJson d).text := rfl
  rcases decimalToJson_cases d with ⟨e₀, hfloat, hparse, hvalue⟩ | hstring
  · have hjson : (Json.float d.toBinary64).text = d.toBinary64.jsonText := String.ofList_toList
    rw [htext, hfloat, hjson, ofJsonText]
    constructor
    · rintro ⟨e, he, hback⟩ x hx
      obtain rfl := Json.float.inj hx
      cases hzero : d.toBinary64.isZero with
      | true =>
        rw [toBinary64_of_isZero hparse hvalue hzero]
        exact parse?_zero
      | false =>
        cases hread : Json.parse? d.toBinary64.jsonText with
        | none =>
          rw [hread] at he
          cases he
        | some j =>
          -- What is read is a double; as it has the same decimal, it is the same one.
          obtain ⟨y, rfl⟩ := Binary.float_of_parse?_jsonText hread
          rw [hread] at he
          have hy := Binary.value_of_parse_plainText (decimalOfText_eq_ok.mp he)
          have hx := Binary.value_of_parse_plainText hparse
          rw [Binary.eq_of_shortestValue hzero (hx.symm.trans (hvalue.trans (hback.symm.trans hy)))]
    · intro h
      rw [h _ rfl]
      exact ⟨e₀, decimalOfText_eq_ok.mpr hparse, hvalue⟩
  · refine iff_of_true ?_ fun x hx => ?_
    · obtain ⟨e, he, hvalue⟩ := d.parse_text
      have hfits : (Json.string d.text).Fits Json.depthLimit := trivial
      refine ⟨e, ?_, hvalue⟩
      rw [htext, hstring, ofJsonText, Json.parse?_text hfits]
      exact decimalOfText_eq_ok.mpr he
    · rw [hstring] at hx
      cases hx

end Wire

/-! ### Through the registry -/

namespace RegistryM
variable {r : Registry} {v : Value} {ty : Descriptor}

/-- Writes a value of a type, renders its tree as JSON text, and reads a value of that type from the text. -/
def throughJson (v : Value) (ty : Descriptor) : RegistryM Value := do
  let w ← toWire v ty none
  match Wire.ofJsonText w.jsonText with
  | .ok w => fromWire w ty
  | .error e => throw e

theorem run_throughJson (hr : r.Bare) (htakes : ty.builtInSerializer.takes v = true) :
    (throughJson v ty r).1 = (Wire.ofJsonText (v.tree .always).jsonText).bind fun w => w.value ty := by
  obtain ⟨r', hr', hwrite⟩ := run_toWire hr htakes none
  rw [Option.getD_none, hr.inclusion_eq] at hwrite
  rw [throughJson, run_bind_ok hwrite]
  cases Wire.ofJsonText (v.tree .always).jsonText with
  | error e => rfl
  | ok w => exact run_fromWire hr' w ty

end RegistryM

namespace Wire

theorem unlessNull_map_eq_ok {α : Type} {w : Wire} {x : Except CodecError α} {make : α → Value}
    (hmake : ∀ a b, make a = make b → a = b) (hne : ∀ a, make a ≠ .null) (hnull : w.isNull = true → ∀ a, x ≠ .ok a)
    {a : α} : w.unlessNull (x.map make) = .ok (make a) ↔ x = .ok a := by
  rw [unlessNull]
  split
  · next h => exact iff_of_false (fun heq => hne a (Except.ok.inj heq).symm) (hnull h a)
  · cases x with
    | error e => exact iff_of_false nofun nofun
    | ok b => exact ⟨fun h => congrArg Except.ok (hmake b a (Except.ok.inj h)), fun h => congrArg (Except.map make) h⟩

theorem eq_null {w : Wire} (h : w.isNull = true) : w = null := by
  cases w with
  | leaf l => cases l <;> first | rfl | cases h
  | array => cases h
  | object => cases h

theorem value_bigInteger {w : Wire} {n : Int} :
    w.value (.ofClass Class.bigInteger) = .ok (.bigInteger n) ↔ w.readBigInteger = .ok n := by
  have hmake : w.value (.ofClass Class.bigInteger) = w.unlessNull (w.readBigInteger.map .bigInteger) := by
    rw [value_eq_make]
    rfl
  rw [hmake]
  refine unlessNull_map_eq_ok (fun _ _ => Value.bigInteger.inj) nofun fun h => ?_
  rw [eq_null h]
  exact nofun

theorem value_bigDecimal {w : Wire} {d : Decimal} :
    w.value (.ofClass Class.bigDecimal) = .ok (.bigDecimal d) ↔ w.readBigDecimal = .ok d := by
  have hmake : w.value (.ofClass Class.bigDecimal) = w.unlessNull (w.readBigDecimal.map .bigDecimal) := by
    rw [value_eq_make]
    rfl
  rw [hmake]
  refine unlessNull_map_eq_ok (fun _ _ => Value.bigDecimal.inj) nofun fun h => ?_
  rw [eq_null h]
  exact nofun

end Wire

namespace RegistryM
variable {r : Registry} (hr : r.Bare)

include hr

theorem throughJson_bigInteger (n : Int) :
    (throughJson (.bigInteger n) (.ofClass Class.bigInteger) r).1 = .ok (.bigInteger n) := by
  have hwhole : (Leaf.bigInteger n).IsWhole := trivial
  have htree : (Value.bigInteger n).tree .always = .leaf (.bigInteger n) := rfl
  rw [run_throughJson hr rfl, htree, Wire.ofJsonText_leaf hwhole]
  exact Wire.value_bigInteger.mpr (Wire.readBigInteger_restored n)

theorem throughJson_bigDecimal_iff (d : Decimal) :
    (∃ e, (throughJson (.bigDecimal d) (.ofClass Class.bigDecimal) r).1 = .ok (.bigDecimal e) ∧ e.value = d.value) ↔
      ∀ x, Wire.decimalToJson d = .float x → Json.parse? x.jsonText = some (.float x) := by
  have htree : (Value.bigDecimal d).tree .always = .leaf (.bigDecimal d) := rfl
  rw [← Wire.readBigDecimal_ofJsonText_iff, run_throughJson hr rfl, htree]
  refine exists_congr fun e => and_congr_left fun _ => ?_
  cases Wire.ofJsonText (Wire.leaf (.bigDecimal d)).jsonText with
  | error => exact iff_of_false nofun nofun
  | ok w => exact Wire.value_bigDecimal

end RegistryM

/-- Every big integer comes back from JSON text as it was; a decimal comes back as the same number exactly if it does
    not travel as a double that the reader takes for another one. -/
theorem Value.bigNumbers_throughJson (history : List Lookup) :
    (∀ n, (RegistryM.throughJson (.bigInteger n) (.ofClass Class.bigInteger) (Registry.builtInOnly.after history)).1 =
      .ok (.bigInteger n)) ∧
    ∀ d, (∃ e, (RegistryM.throughJson (.bigDecimal d) (.ofClass Class.bigDecimal)
        (Registry.builtInOnly.after history)).1 = .ok (.bigDecimal e) ∧ e.value = d.value) ↔
      ∀ x, Wire.decimalToJson d = .float x → Json.parse? x.jsonText = some (.float x) :=
  ⟨RegistryM.throughJson_bigInteger (.after history), RegistryM.throughJson_bigDecimal_iff (.after history)⟩

/-- The double next to 1e-23 is written as the text `1e-23`, but one divided by 1e23 is the double above it. -/
theorem Value.bigNumbers_throughJson_lost :
    ¬ ∃ e, (RegistryM.throughJson (.bigDecimal ⟨1, 23⟩) (.ofClass Class.bigDecimal) (Registry.builtInOnly.after [])).1 =
      .ok (.bigDecimal e) ∧ e.value = (⟨1, 23⟩ : Decimal).value := by
  rw [RegistryM.throughJson_bigDecimal_iff (.after [])]
  intro h
  have htext : (Decimal.toBinary64 ⟨1, 23⟩).jsonText = "1e-23" := rfl
  have hnumber : Json.readNumber ['1', 'e', '-', '2', '3'] =
      ((Json.applyExponent (.ofInt (1 : Nat)) (-23)).map (·, [])).map (Prod.map .float id) := rfl
  have hread : Json.parse? "1e-23" = some (.float ((Binary.ofInt 1).div (Json.power 23))) := by
    refine (Json.parse?_number rfl).trans ?_
    rw [hnumber, Json.applyExponent, if_pos (by decide)]
    rfl
  have hback := h _ rfl
  rw [htext, hread] at hback
  have hdistinct : (Binary.ofInt 1).div (Json.power 23) ≠ Decimal.toBinary64 ⟨1, 23⟩ := by
    decide
  exact hdistinct (Json.float.inj (Option.some.inj hback))

end TypedWire
