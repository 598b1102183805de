import TypedWire.Json
import TypedWire.Members
import Mathlib.Tactic.SplitIfs

/-! # The order of keys

Members are sorted by the characters of their keys, which is the order of the bytes of the keys: UTF-8 keeps the
order of code points. To write members with distinct keys one by one is to sort them by those bytes. -/

namespace TypedWire

/-- The bytes of a key in UTF-8. -/
def keyBytes (key : String) : List UInt8 :=
  key.toByteArray.data.toList

/-- Whether the bytes of one key come before those of another, or are the same. -/
def keyLe {α : Type} (a b : String × α) : Bool :=
  keyBytes a.1 ≤ keyBytes b.1

section Bytes
variable {c d : Char} {s t : String}

theorem keyBytes_eq_flatMap (key : String) : keyBytes key = key.toList.flatMap String.utf8EncodeChar := by
  rw [keyBytes, ← String.ofList_toList (s := key), String.toByteArray_ofList, List.utf8Encode, List.data_toByteArray,
    String.toList_ofList]

theorem toNat_val_lt (c : Char) : c.val.toNat < 0x110000 := by
  have hvalid := c.valid
  simp only [UInt32.isValidChar, Nat.isValidChar] at hvalid
  omega

theorem toNat_byte {n : Nat} (h : n < 256) : (UInt8.ofNat n).toNat = n :=
  UInt8.toNat_ofNat_of_lt' h

/-- The lesser of two characters has the lesser bytes, whatever follows either. -/
theorem utf8EncodeChar_append_lt (h : c < d) (as bs : List UInt8) :
    String.utf8EncodeChar c ++ as < String.utf8EncodeChar d ++ bs := by
  have hlt : c.val.toNat < d.val.toNat := h
  have hc := toNat_val_lt c
  have hd := toNat_val_lt d
  simp only [String.utf8EncodeChar]
  generalize c.val.toNat = m at *
  generalize d.val.toNat = n at *
  have hm : m / 262144 % 8 = m / 262144 := Nat.mod_eq_of_lt (by omega)
  have hn : n / 262144 % 8 = n / 262144 := Nat.mod_eq_of_lt (by omega)
  -- The first byte tells how many there are, and a longer encoding begins with a greater one.
  split_ifs <;>
    simp (disch := omega) only [List.cons_append, List.nil_append, List.cons_lt_cons_iff, UInt8.lt_iff_toNat_lt,
      ← UInt8.toNat_inj, toNat_byte, hm, hn] <;> omega

theorem flatMap_utf8EncodeChar_lt {cs ds : List Char} (h : cs < ds) :
    cs.flatMap String.utf8EncodeChar < ds.flatMap String.utf8EncodeChar := by
  induction h with
  | @nil d ds =>
    rw [List.flatMap_cons, List.flatMap_nil]
    cases hd : String.utf8EncodeChar d with
    | nil => exact absurd hd String.utf8EncodeChar_ne_nil
    | cons b bs => exact List.nil_lt_cons ..
  | @cons c cs ds _ ih =>
    rw [List.flatMap_cons, List.flatMap_cons]
    exact List.append_left_lt ih
  | @rel c cs d ds hlt =>
    rw [List.flatMap_cons, List.flatMap_cons]
    exact utf8EncodeChar_append_lt hlt _ _

/-- Keys are in the order of their bytes. -/
theorem keyBytes_lt_iff : keyBytes s < keyBytes t ↔ s < t := by
  have hlt : ∀ {s t : String}, s < t → keyBytes s < keyBytes t := fun h => by
    rw [keyBytes_eq_flatMap, keyBytes_eq_flatMap]
    exact flatMap_utf8EncodeChar_lt (String.lt_iff.mp h)
  refine ⟨fun h => ?_, hlt⟩
  refine Classical.byContradiction fun hst => ?_
  by_cases heq : t = s
  · exact List.lt_irrefl _ (heq ▸ h)
  · exact List.lt_asymm h (hlt (Std.lt_of_le_of_ne (String.not_lt.mp hst) heq))

end Bytes

/-! ### Sorted members -/

namespace Json

section Sorting
variable {α : Type} {key : String} {value : α} {ms : List (String × α)}

/-- Each key comes before those behind it. -/
def Sorted (ms : List (String × α)) : Prop :=
  ms.Pairwise fun a b => a.1 < b.1

theorem perm_insertSorted (h : key ∉ Members.keys ms) : (insertSorted key value ms).Perm ((key, value) :: ms) := by
  induction ms with
  | nil => exact .refl _
  | cons m rest ih =>
    obtain ⟨k, v⟩ := m
    obtain ⟨hne, hrest⟩ := List.ne_and_not_mem_of_not_mem_cons h
    rw [insertSorted]
    split
    · exact .refl _
    · rw [if_neg (Ne.symm hne)]
      exact ((ih hrest).cons (k, v)).trans (.swap ..)

theorem sorted_insertSorted (hs : Sorted ms) (h : key ∉ Members.keys ms) : Sorted (insertSorted key value ms) := by
  induction ms with
  | nil => exact List.pairwise_singleton ..
  | cons m rest ih =>
    obtain ⟨k, v⟩ := m
    obtain ⟨hne, hrest⟩ := List.ne_and_not_mem_of_not_mem_cons h
    obtain ⟨hhead, htail⟩ := List.pairwise_cons.mp hs
    rw [insertSorted]
    split
    · next hlt =>
      refine List.pairwise_cons.mpr ⟨fun m hm => ?_, hs⟩
      rcases List.mem_cons.mp hm with rfl | hm
      · exact hlt
      · exact Std.lt_trans hlt (hhead m hm)
    · next hge =>
      rw [if_neg (Ne.symm hne)]
      refine List.pairwise_cons.mpr ⟨fun m hm => ?_, ih htail hrest⟩
      rcases List.mem_cons.mp ((perm_insertSorted hrest).subset hm) with rfl | hm
      · exact Std.lt_of_le_of_ne (String.not_lt.mp hge) (Ne.symm hne)
      · exact hhead m hm

/-- Distinct members, written one by one into sorted ones, stay sorted and are all there. -/
theorem foldl_insertSorted (entries : List (String × α)) {ms : List (String × α)} (hs : Sorted ms)
    (h : (Members.keys ms ++ Members.keys entries).Nodup) :
    Sorted (entries.foldl (fun ms e => insertSorted e.1 e.2 ms) ms) ∧
      (entries.foldl (fun ms e => insertSorted e.1 e.2 ms) ms).Perm (ms ++ entries) := by
  induction entries generalizing ms with
  | nil => exact ⟨hs, by rw [List.append_nil]; exact .refl _⟩
  | cons e es ih =>
    obtain ⟨key, value⟩ := e
    have hfresh : key ∉ Members.keys ms := fun hm => (List.nodup_append.mp h).2.2 key hm key (.head _) rfl
    have hperm : (insertSorted key value ms).Perm ((key, value) :: ms) := perm_insertSorted hfresh
    have hmid : ((key, value) :: ms ++ es).Perm (ms ++ (key, value) :: es) := List.perm_middle.symm
    have hnext : (Members.keys (insertSorted key value ms) ++ Members.keys es).Nodup := by
      have hkeys := ((hperm.append_right es).trans hmid).map Prod.fst
      simp only [List.map_append] at hkeys
      exact hkeys.nodup_iff.mpr h
    obtain ⟨hsorted, hall⟩ := ih (sorted_insertSorted hs hfresh) hnext
    exact ⟨hsorted, hall.trans ((hperm.append_right es).trans hmid)⟩

theorem sorted_sortMembers (h : Members.Distinct ms) : Sorted (sortMembers ms) :=
  (foldl_insertSorted ms List.Pairwise.nil h).1

theorem perm_sortMembers (h : Members.Distinct ms) : (sortMembers ms).Perm ms :=
  (foldl_insertSorted ms List.Pairwise.nil h).2

theorem Sorted.distinct (h : Sorted ms) : Members.Distinct ms :=
  List.pairwise_map.mpr (h.imp fun hlt => String.ne_of_lt hlt)

/-- There is one way only to sort members. -/
theorem Sorted.eq_of_perm {ns : List (String × α)} (hm : Sorted ms) (hn : Sorted ns) (h : ms.Perm ns) : ms = ns :=
  List.Perm.eq_of_pairwise (fun _ _ _ _ hab hba => absurd hba (String.lt_asymm hab)) hm hn h

theorem sortMembers_of_sorted (h : Sorted ms) : sortMembers ms = ms :=
  (sorted_sortMembers h.distinct).eq_of_perm h (perm_sortMembers h.distinct)

theorem sorted_mergeSort (h : Members.Distinct ms) : Sorted (ms.mergeSort keyLe) := by
  have hperm : (ms.mergeSort keyLe).Perm ms := List.mergeSort_perm ms keyLe
  have hle : (ms.mergeSort keyLe).Pairwise fun a b => keyLe a b = true :=
    List.pairwise_mergeSort (fun a b c hab hbc => by
      simp only [keyLe, decide_eq_true_eq] at *
      exact List.le_trans hab hbc) (fun a b => by
      simp only [keyLe, Bool.or_eq_true, decide_eq_true_eq]
      exact List.le_total _ _) ms
  have hne : (ms.mergeSort keyLe).Pairwise fun a b => a.1 ≠ b.1 :=
    List.pairwise_map.mp ((hperm.map Prod.fst).nodup_iff.mpr h)
  refine (hle.and hne).imp fun {a b} ⟨hab, hne⟩ => ?_
  have hnot : ¬ b.1 < a.1 := fun hba => of_decide_eq_true hab (keyBytes_lt_iff.mpr hba)
  exact Std.lt_of_le_of_ne (String.not_lt.mp hnot) hne

/-- Members with distinct keys are sorted by the bytes of their keys. -/
theorem sortMembers_eq_mergeSort (h : Members.Distinct ms) : sortMembers ms = ms.mergeSort keyLe :=
  (sorted_sortMembers h).eq_of_perm (sorted_mergeSort h)
    ((perm_sortMembers h).trans (List.mergeSort_perm ms keyLe).symm)

end Sorting

end Json

end TypedWire
