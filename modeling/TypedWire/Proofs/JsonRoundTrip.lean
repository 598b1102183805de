import TypedWire.Proofs.JsonReading
import TypedWire.Wire.Json
import Mathlib.Logic.Basic

/-! # Wire trees through JSON text

A tree without doubles and decimals comes back from JSON text with all that it holds: a big integer takes the form
that JSON has for it, and the members of every object are sorted by the bytes of their keys. -/

namespace TypedWire

namespace Leaf

/-- All leaves but doubles and decimals. -/
def IsWhole : Leaf → Prop
  | float _ | bigDecimal _ => False
  | _ => True

/-- A leaf after its way through JSON: an integer in 64 signed bits if it fits them, else a big integer if it fits 64
    unsigned ones, else the string of its digits. -/
def restored : Leaf → Leaf
  | bigInteger n =>
    match int64? n with
    | some n => integer n
    | none => if 0 ≤ n ∧ n < 2 ^ 64 then bigInteger n else string (integerText n)
  | l => l

end Leaf

theorem isInteger_toInt (n : Int64) : Json.isInteger n.toInt = true := by
  have := n.le_toInt
  have := n.toInt_lt
  exact Json.isInteger_iff.mpr ⟨by omega, by omega⟩

/-- An integer that a JSON number can be fits 64 bits, signed or not. -/
theorem isInteger_eq (n : Int) :
    Json.isInteger n = ((int64? n).isSome || decide (0 ≤ n ∧ n < 2 ^ 64)) := by
  rw [Bool.eq_iff_iff, Json.isInteger_iff, int64?, Bool.or_eq_true, decide_eq_true_iff]
  split <;> simp <;> omega

namespace Wire

mutual
/-- A tree after its way through JSON: the leaves as they come back, and the members of every object sorted by the
    bytes of their keys. -/
def restored : Wire → Wire
  | leaf l => leaf l.restored
  | array items => array (restoredItems items)
  | object members => object ((restoredMembers members).mergeSort keyLe)

def restoredItems : List Wire → List Wire
  | [] => []
  | w :: ws => restored w :: restoredItems ws

def restoredMembers : List (String × Wire) → List (String × Wire)
  | [] => []
  | (key, w) :: ms => (key, restored w) :: restoredMembers ms
end

theorem ofJson_leafToJson {l : Leaf} (h : l.IsWhole) : ofJson (leafToJson l) = leaf l.restored := by
  cases l with
  | integer n =>
    rw [leafToJson, ofJson, integerOfJson, int64?_toInt]
    rfl
  | bigInteger n =>
    rw [leafToJson, Leaf.restored, isInteger_eq]
    cases hn : int64? n with
    | some k => simp [ofJson, integerOfJson, hn]
    | none =>
      simp only [Option.isSome_none, Bool.false_or, decide_eq_true_eq]
      split
      · rw [ofJson, integerOfJson, hn]
      · rfl
  | float x | bigDecimal d => exact absurd h id
  | null | boolean b | string s => rfl

theorem fits_leafToJson {l : Leaf} (h : l.IsWhole) (depth : Nat) : (leafToJson l).Fits depth := by
  cases l with
  | integer n =>
    cases depth with
    | _ => exact isInteger_toInt n
  | bigInteger n =>
    rw [leafToJson]
    split
    · next hn => cases depth with | _ => exact hn
    · cases depth with | _ => trivial
  | float x | bigDecimal d => exact absurd h id
  | null | boolean b | string s => cases depth with | _ => trivial

theorem membersToJson_eq_map (members : List (String × Wire)) :
    membersToJson members = members.map fun m => (m.1, m.2.toJson) := by
  induction members with
  | nil => rfl
  | cons m ms ih => exact congrArg ((m.1, m.2.toJson) :: ·) ih

theorem membersOfJson_eq_map (members : List (String × Json)) :
    membersOfJson members = members.map fun m => (m.1, ofJson m.2) := by
  induction members with
  | nil => rfl
  | cons m ms ih => exact congrArg ((m.1, ofJson m.2) :: ·) ih

theorem distinct_membersToJson {members : List (String × Wire)} (h : Members.Distinct members) :
    Members.Distinct (membersToJson members) := by
  rw [membersToJson_eq_map, Members.Distinct, Members.keys, List.map_map]
  exact h

/-- To sort members in JSON is to sort the members that come back. -/
theorem membersOfJson_sortMembers {members : List (String × Json)} (h : Members.Distinct members) :
    membersOfJson (Json.sortMembers members) = (membersOfJson members).mergeSort keyLe := by
  rw [Json.sortMembers_eq_mergeSort h, membersOfJson_eq_map, membersOfJson_eq_map]
  exact List.map_mergeSort fun _ _ _ _ => rfl

mutual
theorem ofJson_toJson : ∀ w : Wire, w.Leaves Leaf.IsWhole → w.WellFormed → ofJson w.toJson = w.restored
  | leaf _, h, _ => ofJson_leafToJson h
  | array items, h, hw => congrArg array (itemsOfJson_itemsToJson items h hw)
  | object members, h, hw => by
    rw [toJson, ofJson, membersOfJson_sortMembers (distinct_membersToJson hw.1),
      membersOfJson_membersToJson members h hw.2, restored]

theorem itemsOfJson_itemsToJson : ∀ items : List Wire, ItemLeaves Leaf.IsWhole items → WellFormedItems items →
    itemsOfJson (itemsToJson items) = restoredItems items
  | [], _, _ => rfl
  | w :: ws, h, hw => congrArg₂ List.cons (ofJson_toJson w h.1 hw.1) (itemsOfJson_itemsToJson ws h.2 hw.2)

theorem membersOfJson_membersToJson : ∀ members : List (String × Wire), MemberLeaves Leaf.IsWhole members →
    WellFormedMembers members → membersOfJson (membersToJson members) = restoredMembers members
  | [], _, _ => rfl
  | (key, w) :: ms, h, hw =>
    congrArg₂ List.cons (congrArg (Prod.mk key) (ofJson_toJson w h.1 hw.1)) (membersOfJson_membersToJson ms h.2 hw.2)
end

theorem membersFit_iff {depth : Nat} {members : List (String × Json)} :
    Json.MembersFit depth members ↔ ∀ m ∈ members, m.2.Fits depth := by
  induction members with
  | nil => simp [Json.MembersFit]
  | cons m ms ih => rw [Json.MembersFit, ih, List.forall_mem_cons]

mutual
theorem fits_toJson : ∀ (w : Wire) {depth : Nat}, w.Leaves Leaf.IsWhole → w.WellFormed → w.depth ≤ depth →
    w.toJson.Fits depth
  | leaf _, _, h, _, _ => fits_leafToJson h _
  | array items, 0, _, _, hdepth => by
    rw [Wire.depth] at hdepth
    omega
  | array items, depth + 1, h, hw, hdepth => by
    rw [Wire.depth] at hdepth
    exact itemsFit_itemsToJson items h hw (by omega)
  | object members, 0, _, _, hdepth => by
    rw [Wire.depth] at hdepth
    omega
  | object members, depth + 1, h, hw, hdepth => by
    rw [Wire.depth] at hdepth
    have hkeys := distinct_membersToJson hw.1
    have hfit : Json.MembersFit depth (membersToJson members) := membersFit_membersToJson members h hw.2 (by omega)
    refine ⟨Json.sorted_sortMembers hkeys, membersFit_iff.mpr fun m hm => ?_⟩
    exact membersFit_iff.mp hfit m ((Json.perm_sortMembers hkeys).subset hm)

theorem itemsFit_itemsToJson : ∀ (items : List Wire) {depth : Nat}, ItemLeaves Leaf.IsWhole items →
    WellFormedItems items → depthItems items ≤ depth → Json.ItemsFit depth (itemsToJson items)
  | [], _, _, _, _ => trivial
  | w :: ws, _, h, hw, hdepth => by
    rw [depthItems] at hdepth
    exact ⟨fits_toJson w h.1 hw.1 (by omega), itemsFit_itemsToJson ws h.2 hw.2 (by omega)⟩

theorem membersFit_membersToJson : ∀ (members : List (String × Wire)) {depth : Nat},
    MemberLeaves Leaf.IsWhole members → WellFormedMembers members → depthMembers members ≤ depth →
      Json.MembersFit depth (membersToJson members)
  | [], _, _, _, _ => trivial
  | (_, w) :: ms, _, h, hw, hdepth => by
    rw [depthMembers] at hdepth
    exact ⟨fits_toJson w h.1 hw.1 (by omega), membersFit_membersToJson ms h.2 hw.2 (by omega)⟩
end

/-- A tree without doubles and decimals, nested no deeper than the reader allows, comes back from its text. -/
theorem ofJsonText_jsonText (w : Wire) (hwhole : w.Leaves Leaf.IsWhole) (hkeys : w.WellFormed)
    (hdepth : w.depth ≤ Json.depthLimit) : ofJsonText w.jsonText = .ok w.restored := by
  rw [ofJsonText, jsonText, Json.parse?_text (fits_toJson w hwhole hkeys hdepth)]
  exact congrArg Except.ok (ofJson_toJson w hwhole hkeys)

theorem ofJsonText_jsonText_object :
    ofJsonText (jsonText (object
      [("key", array [leaf (.bigInteger (2 ^ 64)), leaf (.bigInteger (2 ^ 63)), leaf (.bigInteger (-7))]),
        ("\x01", array []), ("Key", leaf (.string "\"é\x08"))])) =
    .ok (object
      [("\x01", array []), ("Key", leaf (.string "\"é\x08")),
        ("key",
          array [leaf (.string "18446744073709551616"), leaf (.bigInteger (2 ^ 63)), leaf (.integer (-7))])]) := by
  have hkeys : ["key", "\x01", "Key"].Nodup := by decide
  refine (ofJsonText_jsonText _ ?_ ?_ ?_).trans (congrArg Except.ok ?_)
  · exact ⟨⟨trivial, trivial, trivial, trivial⟩, trivial, trivial, trivial⟩
  · exact ⟨hkeys, ⟨trivial, trivial, trivial, trivial⟩, trivial, trivial, trivial⟩
  · decide
  · refine congrArg object ((Json.sortMembers_eq_mergeSort ?_).symm.trans ?_)
    · exact hkeys
    · rfl

end Wire

end TypedWire
