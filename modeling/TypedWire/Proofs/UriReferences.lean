import Mathlib.Data.List.Count
import Mathlib.Data.String.Basic
import TypedWire.Identifier.Uri
import TypedWire.Proofs.Identifiers
import TypedWire.Proofs.KeyOrder
import TypedWire.Proofs.LetterCase

/-! # URI references, byte by byte

A text is a URI reference if its bytes are legal ones and whole escapes, if it does not begin with a colon and if it
has one fragment mark at most. The reader walks over characters; as the legal ones are ASCII, what it finds holds of
the bytes, and so does the index of a fault. -/

namespace TypedWire

/-! ### Bytes -/

namespace Text

/-- The bytes of a text. -/
def bytes (s : String) : List UInt8 :=
  s.toByteArray.data.toList

/-- The bytes of characters, one character after the other. -/
def utf8 (cs : List Char) : List UInt8 :=
  cs.flatMap String.utf8EncodeChar

section Bytes
variable {c : Char} {cs : List Char} {b : UInt8} {as bs : List UInt8}

theorem bytes_eq_utf8 (s : String) : bytes s = utf8 s.toList :=
  keyBytes_eq_flatMap s

theorem toNat_ofUInt8 (b : UInt8) : (Char.ofUInt8 b).toNat = b.toNat :=
  UInt8.toNat_toUInt32 b

theorem ofUInt8_inj : Function.Injective Char.ofUInt8 := fun a b h =>
  UInt8.toNat_inj.mp (by rw [← toNat_ofUInt8, h, toNat_ofUInt8])

theorem ofUInt8_toUInt8 (h : c.toNat < 128) : Char.ofUInt8 c.toUInt8 = c := by
  refine Char.toNat_inj.mp ((toNat_ofUInt8 _).trans ?_)
  show c.toNat % 256 = c.toNat
  omega

theorem utf8_cons_of_lt (h : c.toNat < 128) : utf8 (c :: cs) = c.toUInt8 :: utf8 cs := by
  have hval : c.val.toNat ≤ 127 := Nat.le_of_lt_succ h
  rw [utf8, List.flatMap_cons, String.utf8EncodeChar, if_pos hval]
  rfl

/-- A character outside ASCII begins with a byte outside ASCII. -/
theorem utf8_cons_of_le (h : 128 ≤ c.toNat) (cs : List Char) : ∃ b bs, utf8 (c :: cs) = b :: bs ∧ 128 ≤ b.toNat := by
  have hval : ¬c.val.toNat ≤ 127 := Nat.not_le.mpr h
  have hbyte {n : Nat} (hlow : 128 ≤ n) (hhigh : n < 256) : 128 ≤ (UInt8.ofNat n).toNat := by
    rwa [UInt8.toNat_ofNat_of_lt' hhigh]
  rw [utf8, List.flatMap_cons, String.utf8EncodeChar, if_neg hval]
  split
  · exact ⟨_, _, rfl, hbyte (by omega) (by omega)⟩
  · split
    · exact ⟨_, _, rfl, hbyte (by omega) (by omega)⟩
    · exact ⟨_, _, rfl, hbyte (by omega) (by omega)⟩

/-- An ASCII byte is a character by itself. -/
theorem utf8_eq_cons (h : utf8 cs = b :: bs) (hb : b.toNat < 128) :
    ∃ ds, cs = Char.ofUInt8 b :: ds ∧ utf8 ds = bs := by
  cases cs with
  | nil => cases h
  | cons c cs =>
    by_cases hc : c.toNat < 128
    · rw [utf8_cons_of_lt hc] at h
      obtain ⟨rfl, rfl⟩ := List.cons.inj h
      exact ⟨cs, by rw [ofUInt8_toUInt8 hc], rfl⟩
    · obtain ⟨b', bs', hcons, hb'⟩ := utf8_cons_of_le (Nat.not_lt.mp hc) cs
      rw [hcons] at h
      obtain ⟨rfl, -⟩ := List.cons.inj h
      omega

/-- Characters begin with as many characters as there are ASCII bytes in front. -/
theorem utf8_eq_append (h : utf8 cs = as ++ bs) (has : ∀ a ∈ as, a.toNat < 128) :
    ∃ ds, cs = as.map Char.ofUInt8 ++ ds ∧ utf8 ds = bs := by
  induction as generalizing cs with
  | nil => exact ⟨cs, rfl, h⟩
  | cons a as ih =>
    obtain ⟨ds, rfl, hds⟩ := utf8_eq_cons h (has a (List.mem_cons_self ..))
    obtain ⟨es, rfl, hes⟩ := ih hds fun a' ha' => has a' (List.mem_cons_of_mem _ ha')
    exact ⟨es, rfl, hes⟩

theorem eq_map_of_utf8 (h : ∀ b ∈ utf8 cs, b.toNat < 128) : cs = (utf8 cs).map Char.ofUInt8 := by
  obtain ⟨ds, hcs, hds⟩ := utf8_eq_append (List.append_nil (utf8 cs)).symm h
  cases ds with
  | nil => rwa [List.append_nil] at hcs
  | cons d ds =>
    rw [utf8, List.flatMap_cons] at hds
    exact absurd (List.append_eq_nil_iff.mp hds).1 String.utf8EncodeChar_ne_nil

end Bytes

end Text

namespace Uri
open Text

/-! ### What a text is spelled of -/

/-- Legal bytes and whole escapes. -/
inductive Spelled : List UInt8 → Prop where
  | nil : Spelled []
  | legal {b : UInt8} {bs : List UInt8} (hb : isLegal (.ofUInt8 b) = true) (hbs : Spelled bs) : Spelled (b :: bs)
  | escape {a b : UInt8} {bs : List UInt8} (ha : isHexDigit (.ofUInt8 a) = true) (hb : isHexDigit (.ofUInt8 b) = true)
      (hbs : Spelled bs) : Spelled ('%'.toUInt8 :: a :: b :: bs)

section Spelling
variable {c : Char} {b : UInt8} {as bs : List UInt8}

theorem lt_of_isLegal (h : isLegal c = true) : c.toNat < 128 := by
  simp only [isLegal, isAlphanumeric, isLetter_eq, isDigit_eq, Bool.or_eq_true, decide_eq_true_iff] at h
  rcases h with h | h
  · omega
  · have hmarks : ∀ d ∈ "-._~:/?#[]@!$&'()*+,;=".toList, d.toNat < 128 := by simp
    exact hmarks c h

theorem lt_of_isHexDigit (h : isHexDigit c = true) : c.toNat < 128 := by
  have hle (d : Char) : c ≤ d ↔ c.toNat ≤ d.toNat := Iff.rfl
  by_contra hc
  have hdigit : ¬c ≤ '9' := by rw [hle]; exact fun h => hc (h.trans_lt (by decide))
  have hlower : ¬c ≤ 'f' := by rw [hle]; exact fun h => hc (h.trans_lt (by decide))
  have hupper : ¬c ≤ 'F' := by rw [hle]; exact fun h => hc (h.trans_lt (by decide))
  simp [isHexDigit, hexValue?, hdigit, hlower, hupper] at h

theorem Spelled.lt (h : Spelled bs) : ∀ b ∈ bs, b.toNat < 128 := by
  induction h with
  | nil => nofun
  | legal hb _ ih => exact List.forall_mem_cons.mpr ⟨toNat_ofUInt8 _ ▸ lt_of_isLegal hb, ih⟩
  | escape ha hb _ ih =>
    refine List.forall_mem_cons.mpr ⟨by decide, List.forall_mem_cons.mpr ⟨?_, List.forall_mem_cons.mpr ⟨?_, ih⟩⟩⟩
    · exact toNat_ofUInt8 _ ▸ lt_of_isHexDigit ha
    · exact toNat_ofUInt8 _ ▸ lt_of_isHexDigit hb

theorem Spelled.of_legal (hb : isLegal (.ofUInt8 b) = true) (h : Spelled (b :: bs)) : Spelled bs := by
  cases h with
  | legal _ hbs => exact hbs
  | escape => exact absurd hb (by decide)

theorem Spelled.of_escape {x y : UInt8} (h : Spelled ('%'.toUInt8 :: x :: y :: bs)) :
    isHexDigit (.ofUInt8 x) = true ∧ isHexDigit (.ofUInt8 y) = true ∧ Spelled bs := by
  cases h with
  | legal hp => exact absurd hp (by decide)
  | escape hx hy hbs => exact ⟨hx, hy, hbs⟩

/-- What is spelled so far says nothing about what follows: no legal byte begins an escape. -/
theorem spelled_append_iff (h : Spelled as) : Spelled (as ++ bs) ↔ Spelled bs := by
  induction h with
  | nil => exact Iff.rfl
  | legal hb _ ih => exact ⟨fun h => ih.mp (h.of_legal hb), fun h => .legal hb (ih.mpr h)⟩
  | escape ha hb _ ih => exact ⟨fun h => ih.mp h.of_escape.2.2, fun h => .escape ha hb (ih.mpr h)⟩

/-- A fragment mark is never a part of an escape. -/
theorem spelled_of_mark (h : Spelled (as ++ '#'.toUInt8 :: bs)) : Spelled as := by
  generalize hcs : as ++ '#'.toUInt8 :: bs = cs at h
  induction h generalizing as with
  | nil => simp at hcs
  | legal hb _ ih =>
    cases as with
    | nil => exact .nil
    | cons a as =>
      simp only [List.cons_append, List.cons.injEq] at hcs
      obtain ⟨rfl, hcs⟩ := hcs
      exact .legal hb (ih hcs)
  | escape ha hb _ ih =>
    match as with
    | [] => exact .nil
    | [_] =>
      simp only [List.cons_append, List.nil_append, List.cons.injEq] at hcs
      exact absurd (hcs.2.1 ▸ ha) (by decide)
    | [_, _] =>
      simp only [List.cons_append, List.nil_append, List.cons.injEq] at hcs
      exact absurd (hcs.2.2.1 ▸ hb) (by decide)
    | _ :: _ :: _ :: as =>
      simp only [List.cons_append, List.cons.injEq] at hcs
      obtain ⟨rfl, rfl, rfl, hcs⟩ := hcs
      exact .escape ha hb (ih hcs)

end Spelling

/-! ### Faults -/

end Uri

/-- What a reason says of a byte, with the bytes before it and those behind it. -/
def UriReason.Holds (before : List UInt8) (b : UInt8) (behind : List UInt8) : UriReason → Prop
  | malformedEscape => b = '%'.toUInt8 ∧
    ¬∃ x y rest, behind = x :: y :: rest ∧ isHexDigit (.ofUInt8 x) = true ∧ isHexDigit (.ofUInt8 y) = true
  | illegalCharacter => b ≠ '%'.toUInt8 ∧ Uri.isLegal (.ofUInt8 b) = false
  | missingScheme => before = [] ∧ b = ':'.toUInt8
  | secondFragment => b = '#'.toUInt8 ∧ '#'.toUInt8 ∈ before

/-- A fault stands at a byte of which its reason is true, and all before that is spelled well. -/
def UriFault.Holds (f : UriFault) (bs : List UInt8) : Prop :=
  ∃ before b behind, bs = before ++ b :: behind ∧ f.position = before.length ∧ Uri.Spelled before ∧
    f.reason.Holds before b behind

namespace Uri
open Text

section Scanning
variable {c : Char} {cs : List Char} {b : UInt8} {bs : List UInt8} {i : Nat} {f : UriFault}

/-- The bytes behind a percent sign that no two hexadecimal digits follow. -/
theorem malformed_of_utf8 (h : ∀ x y ds, cs = x :: y :: ds → (isHexDigit x && isHexDigit y) = false) :
    ¬∃ x y rest, utf8 cs = x :: y :: rest ∧ isHexDigit (.ofUInt8 x) = true ∧ isHexDigit (.ofUInt8 y) = true := by
  rintro ⟨x, y, rest, hcs, hx, hy⟩
  obtain ⟨ds, rfl, hds⟩ := utf8_eq_cons hcs (toNat_ofUInt8 x ▸ lt_of_isHexDigit hx)
  obtain ⟨es, rfl, -⟩ := utf8_eq_cons hds (toNat_ofUInt8 y ▸ lt_of_isHexDigit hy)
  have hfalse := h _ _ _ rfl
  rw [hx, hy] at hfalse
  cases hfalse

theorem illegal_of_utf8 (hp : c ≠ '%') (h : isLegal c = false) (cs : List Char) :
    ∃ b behind, utf8 (c :: cs) = b :: behind ∧ b ≠ '%'.toUInt8 ∧ isLegal (.ofUInt8 b) = false := by
  by_cases hc : c.toNat < 128
  · refine ⟨_, _, utf8_cons_of_lt hc, fun he => hp ?_, by rwa [ofUInt8_toUInt8 hc]⟩
    rw [← ofUInt8_toUInt8 hc, he]
    decide
  · obtain ⟨b, behind, hcons, hb⟩ := utf8_cons_of_le (Nat.not_lt.mp hc) cs
    refine ⟨b, behind, hcons, fun he => absurd hb (he ▸ by decide), Bool.eq_false_iff.mpr fun hl => ?_⟩
    have hlt := lt_of_isLegal hl
    rw [toNat_ofUInt8] at hlt
    omega

/-- What a scan that starts at an index may find: nothing in bytes that are spelled well, else the first place where
    they are not, whatever stands in front of them. -/
def Scanned (i : Nat) (bs : List UInt8) : Option UriFault → Prop
  | none => Spelled bs
  | some f => ∃ before b behind, bs = before ++ b :: behind ∧ f.position = i + before.length ∧ Spelled before ∧
    ∀ front, f.reason.Holds front b behind

theorem Scanned.legal {o : Option UriFault} (hb : isLegal (.ofUInt8 b) = true) (h : Scanned (i + 1) bs o) :
    Scanned i (b :: bs) o := by
  cases o with
  | none => exact Spelled.legal hb h
  | some f =>
    obtain ⟨before, c, behind, rfl, hposition, hbefore, hreason⟩ := h
    refine ⟨b :: before, c, behind, rfl, ?_, .legal hb hbefore, hreason⟩
    rw [hposition, List.length_cons]
    omega

theorem Scanned.escape {o : Option UriFault} {x y : UInt8} (hx : isHexDigit (.ofUInt8 x) = true)
    (hy : isHexDigit (.ofUInt8 y) = true) (h : Scanned (i + 3) bs o) : Scanned i ('%'.toUInt8 :: x :: y :: bs) o := by
  cases o with
  | none => exact Spelled.escape hx hy h
  | some f =>
    obtain ⟨before, c, behind, rfl, hposition, hbefore, hreason⟩ := h
    refine ⟨_ :: x :: y :: before, c, behind, rfl, ?_, .escape hx hy hbefore, hreason⟩
    rw [hposition, List.length_cons, List.length_cons, List.length_cons]
    omega

theorem scanned_scan (i : Nat) (cs : List Char) : Scanned i (utf8 cs) (scan i cs) := by
  fun_induction scan i cs with
  | case1 => exact Spelled.nil
  | case2 i a b rest h ih =>
    obtain ⟨ha, hb⟩ := Bool.and_eq_true_iff.mp h
    rw [utf8_cons_of_lt (by decide), utf8_cons_of_lt (lt_of_isHexDigit ha), utf8_cons_of_lt (lt_of_isHexDigit hb)]
    exact ih.escape (by rwa [ofUInt8_toUInt8 (lt_of_isHexDigit ha)]) (by rwa [ofUInt8_toUInt8 (lt_of_isHexDigit hb)])
  | case3 i a b rest h =>
    have hmalformed : ∀ x y ds, a :: b :: rest = x :: y :: ds → (isHexDigit x && isHexDigit y) = false := by
      rintro _ _ _ ⟨⟩
      exact Bool.eq_false_iff.mpr h
    rw [utf8_cons_of_lt (by decide)]
    exact ⟨[], _, _, rfl, rfl, .nil, fun _ => ⟨rfl, malformed_of_utf8 hmalformed⟩⟩
  | case4 i rest h =>
    rw [utf8_cons_of_lt (by decide)]
    exact ⟨[], _, _, rfl, rfl, .nil, fun _ => ⟨rfl, malformed_of_utf8 fun x y ds he => (h x y ds he).elim⟩⟩
  | case5 i c rest _ _ h ih =>
    rw [utf8_cons_of_lt (lt_of_isLegal h)]
    exact ih.legal (by rwa [ofUInt8_toUInt8 (lt_of_isLegal h)])
  | case6 i c rest _ hp h =>
    obtain ⟨b, behind, hbytes, hb⟩ := illegal_of_utf8 hp (Bool.eq_false_iff.mpr h) rest
    exact ⟨[], b, behind, hbytes, rfl, .nil, fun _ => hb⟩

theorem not_spelled_of_holds {r : UriReason} (h : ∀ front, r.Holds front b bs) : ¬Spelled (b :: bs) := by
  intro hs
  cases r with
  | malformedEscape =>
    obtain ⟨rfl, hmalformed⟩ := h []
    cases hs with
    | legal hp => exact absurd hp (by decide)
    | escape hx hy _ => exact hmalformed ⟨_, _, _, rfl, hx, hy⟩
  | illegalCharacter =>
    obtain ⟨hp, hb⟩ := h []
    cases hs with
    | legal hl => exact absurd hl (hb ▸ Bool.false_ne_true)
    | escape => exact hp rfl
  | missingScheme => exact absurd (h [b]).1 (List.cons_ne_nil b [])
  | secondFragment => exact absurd (h []).2 List.not_mem_nil

theorem scan_eq_none_iff : scan i cs = none ↔ Spelled (utf8 cs) := by
  have hscan := scanned_scan i cs
  cases ho : scan i cs with
  | none =>
    rw [ho] at hscan
    exact iff_of_true rfl hscan
  | some f =>
    rw [ho] at hscan
    obtain ⟨before, b, behind, hbytes, -, hbefore, hreason⟩ := hscan
    refine iff_of_false nofun fun hs => ?_
    rw [hbytes, spelled_append_iff hbefore] at hs
    exact not_spelled_of_holds hreason hs

end Scanning

section Faults
variable {cs : List Char} {f : UriFault}

theorem lastIndex?_eq {c : Char} (h : c ∈ cs) :
    ∃ lead trail, cs = lead ++ c :: trail ∧ c ∉ trail ∧ lastIndex? c cs = some lead.length := by
  obtain ⟨trail, lead, hcs, htrail⟩ := List.eq_append_cons_of_mem (List.mem_reverse.mpr h)
  have hcs' : cs = lead.reverse ++ c :: trail.reverse := by
    rw [← List.reverse_reverse cs, hcs]
    simp
  have hindex : cs.reverse.idxOf? c = some trail.length := by
    rw [hcs, List.idxOf?_eq_some_iff]
    refine ⟨by simp, by simp, fun j hj he => htrail ?_⟩
    rw [List.getElem_append_left hj] at he
    exact he ▸ List.getElem_mem hj
  refine ⟨lead.reverse, trail.reverse, hcs', fun hm => htrail (List.mem_reverse.mp hm), ?_⟩
  have hlength := congrArg List.length hcs'
  rw [List.length_append, List.length_cons, List.length_reverse, List.length_reverse] at hlength
  rw [lastIndex?, hindex, Option.map_some, List.length_reverse]
  exact congrArg some (by omega)

/-- A text without a fault: its bytes are spelled well, no colon is in front, and one fragment mark is the most. -/
theorem fault?_eq_none_iff : fault? cs = none ↔
    Spelled (utf8 cs) ∧ (utf8 cs).head? ≠ some ':'.toUInt8 ∧ (utf8 cs).count '#'.toUInt8 ≤ 1 := by
  unfold fault?
  cases hscan : scan 0 cs with
  | some f =>
    refine iff_of_false nofun fun h => ?_
    rw [scan_eq_none_iff.mpr h.1] at hscan
    cases hscan
  | none =>
    have hspelled := scan_eq_none_iff.mp hscan
    have hcs := eq_map_of_utf8 hspelled.lt
    have hhead : cs.head? = some ':' ↔ (utf8 cs).head? = some ':'.toUInt8 := by
      rw [hcs, List.head?_map, ← hcs, Option.map_eq_some_iff]
      exact ⟨fun ⟨b, hb, he⟩ => hb.trans (congrArg some (ofUInt8_inj (he.trans (by decide)))),
        fun h => ⟨_, h, by decide⟩⟩
    have hcount : cs.count '#' = (utf8 cs).count '#'.toUInt8 := by
      rw [← List.count_map_of_injective _ _ ofUInt8_inj, ← hcs]
      rfl
    dsimp only
    rw [hcount]
    split
    · next h => exact iff_of_false nofun fun hh => hh.2.1 (hhead.mp h)
    · next h =>
      split
      · next hmany => exact iff_of_false nofun fun hh => absurd hh.2.2 (Nat.not_le.mpr hmany)
      · next hfew => exact iff_of_true rfl ⟨hspelled, fun hh => h (hhead.mpr hh), Nat.not_lt.mp hfew⟩

theorem holds_of_fault? (h : fault? cs = some f) : f.Holds (utf8 cs) := by
  have hscan := scanned_scan 0 cs
  unfold fault? at h
  cases ho : scan 0 cs with
  | some f' =>
    rw [ho] at h hscan
    obtain rfl := Option.some.inj h
    obtain ⟨before, b, behind, hbytes, hposition, hbefore, hreason⟩ := hscan
    exact ⟨before, b, behind, hbytes, hposition.trans (Nat.zero_add _), hbefore, hreason before⟩
  | none =>
    rw [ho] at h hscan
    dsimp only at h
    split at h
    · next hcolon =>
      obtain rfl := Option.some.inj h
      obtain ⟨rest, rfl⟩ := List.head?_eq_some_iff.mp hcolon
      exact ⟨[], _, _, utf8_cons_of_lt (by decide), rfl, .nil, rfl, rfl⟩
    · split at h
      · next hmany =>
        obtain rfl := Option.some.inj h
        obtain ⟨lead, trail, rfl, htrail, hindex⟩ := lastIndex?_eq (List.count_pos_iff.mp (Nat.zero_lt_of_lt hmany))
        have hbytes : utf8 (lead ++ '#' :: trail) = utf8 lead ++ '#'.toUInt8 :: utf8 trail := by
          rw [← utf8_cons_of_lt (by decide)]
          exact List.flatMap_append
        have hlead : Spelled (utf8 lead) := spelled_of_mark (hbytes ▸ hscan)
        have hmap := eq_map_of_utf8 hlead.lt
        have hmark : '#' ∈ lead := by
          rw [List.count_append, List.count_cons_self, List.count_eq_zero.mpr htrail] at hmany
          exact List.count_pos_iff.mp (by omega)
        have hmark' : '#'.toUInt8 ∈ utf8 lead := by
          rw [hmap] at hmark
          obtain ⟨b, hb, he⟩ := List.mem_map.mp hmark
          obtain rfl : b = '#'.toUInt8 := ofUInt8_inj (he.trans (by decide))
          exact hb
        refine ⟨_, _, _, hbytes, ?_, hlead, rfl, hmark'⟩
        have hlength := congrArg List.length hmap
        rw [List.length_map] at hlength
        rw [hindex, Option.getD_some, hlength]
      · cases h

end Faults

/-! ### Reading -/

section Reading
variable {s : String} {u : Uri} {f : UriFault}

theorem parse_eq_ok_iff : parse s = .ok u ↔ fault? s.toList = none ∧ u.text = s := by
  unfold parse
  split
  · next h =>
    constructor
    · rintro ⟨⟩
      exact ⟨h, rfl⟩
    · rintro ⟨-, rfl⟩
      rfl
  · next f h => exact iff_of_false nofun fun hh => nomatch h.symm.trans hh.1

theorem parse_eq_error_iff : parse s = .error f ↔ fault? s.toList = some f := by
  unfold parse
  split
  · next h => exact iff_of_false nofun fun hh => nomatch h.symm.trans hh
  · next f' h =>
    rw [h]
    exact ⟨fun hh => congrArg some (Except.error.inj hh), fun hh => congrArg Except.error (Option.some.inj hh)⟩

/-- The index of a fault is a place between characters, as everything before it is ASCII. -/
theorem isValid_position (h : f.Holds (utf8 s.toList)) : (⟨f.position⟩ : String.Pos.Raw).IsValid s := by
  obtain ⟨before, b, behind, hbytes, hposition, hbefore, -⟩ := h
  obtain ⟨ds, hchars, -⟩ := utf8_eq_append hbytes hbefore.lt
  refine String.Pos.Raw.isValid_iff_exists_append.mpr
    ⟨String.ofList (before.map Char.ofUInt8), String.ofList ds, ?_, ?_⟩
  · rw [← String.ofList_append, ← hchars, String.ofList_toList]
  · have hsmall : ∀ c ∈ (String.ofList (before.map Char.ofUInt8)).toList, c.utf8Size = 1 := by
      intro c hc
      rw [String.toList_ofList] at hc
      obtain ⟨a, ha, rfl⟩ := List.mem_map.mp hc
      have hlt := hbefore.lt a ha
      rw [← toNat_ofUInt8] at hlt
      exact Char.utf8Size_eq_one_iff.mpr (Nat.le_of_lt_succ hlt)
    have hsize := utf8ByteSize_of_small _ hsmall
    rw [String.toList_ofList, List.length_map, ← hposition] at hsize
    exact congrArg String.Pos.Raw.mk hsize.symm

end Reading

/-! ### Schemes -/

/-- A scheme is what stands before the first colon, and no fragment begins before that. -/
def LedBy (u : Uri) (scheme : String) : Prop :=
  ∃ rest, u.text.toList = scheme.toList ++ ':' :: rest ∧ ':' ∉ scheme.toList ∧ '#' ∉ scheme.toList ∧
    ∀ fragment, u.fragment? = some fragment → ∃ query, rest = query ++ '#' :: fragment.toList ∧ '#' ∉ query

section Schemes
variable {c : Char} {cs : List Char} {u : Uri} {scheme : String}

/-- A text cut at the first place of a character. -/
theorem exists_cut (h : c ∈ cs) : ∃ front rest, cs = front ++ c :: rest ∧ c ∉ front ∧
    cs.takeWhile (· ≠ c) = front ∧ cs.dropWhile (· ≠ c) = c :: rest := by
  obtain ⟨front, rest, rfl, hfront⟩ := List.eq_append_cons_of_mem h
  have hother : ∀ d ∈ front, decide (d ≠ c) = true := fun d hd =>
    decide_eq_true fun he => hfront (he ▸ hd)
  refine ⟨front, rest, rfl, hfront, ?_, ?_⟩
  · rw [List.takeWhile_append_of_pos hother, List.takeWhile_cons_of_neg (by simp), List.append_nil]
  · rw [List.dropWhile_append_of_pos hother, List.dropWhile_cons_of_neg (by simp)]

theorem mark_not_mem_of_isScheme (h : isScheme cs = true) : '#' ∉ cs := by
  cases cs with
  | nil => exact List.not_mem_nil
  | cons c cs =>
    obtain ⟨hfirst, hrest⟩ := Bool.and_eq_true_iff.mp h
    intro hmem
    rcases List.mem_cons.mp hmem with rfl | hmem
    · exact absurd hfirst (by decide)
    · exact absurd (List.all_eq_true.mp hrest _ hmem) (by decide)

theorem ledBy_of_scheme? (h : u.scheme? = some scheme) : u.LedBy scheme := by
  unfold scheme? at h
  dsimp only at h
  obtain ⟨hcolon, h⟩ := Option.ite_none_right_eq_some.mp h
  obtain ⟨hscheme, h⟩ := Option.ite_none_right_eq_some.mp h
  obtain ⟨front, rest, htext, hfront, htake, -⟩ := exists_cut hcolon
  rw [htake] at hscheme h
  obtain rfl := Option.some.inj h
  have hmark := mark_not_mem_of_isScheme hscheme
  rw [LedBy, String.toList_ofList]
  refine ⟨rest, htext, hfront, hmark, fun fragment hfragment => ?_⟩
  have hother : ∀ d ∈ front ++ [':'], decide (d ≠ '#') = true := by
    intro d hd
    rcases List.mem_append.mp hd with hd | hd
    · exact decide_eq_true fun he => hmark (he ▸ hd)
    · exact List.mem_singleton.mp hd ▸ rfl
  -- Neither the scheme nor the colon holds the mark, so it is looked for behind them.
  unfold fragment? at hfragment
  rw [htext, List.append_cons, List.dropWhile_append_of_pos hother] at hfragment
  by_cases hmem : '#' ∈ rest
  · obtain ⟨query, behind, hrest, hquery, -, hdrop⟩ := exists_cut hmem
    rw [hdrop] at hfragment
    obtain rfl := Option.some.inj hfragment
    exact ⟨query, by rw [String.toList_ofList]; exact hrest, hquery⟩
  · have hrest : ∀ d ∈ rest, decide (d ≠ '#') = true := fun d hd => decide_eq_true fun he => hmem (he ▸ hd)
    rw [← List.append_nil rest, List.dropWhile_append_of_pos hrest] at hfragment
    cases hfragment

end Schemes

/-- A text is read as a URI reference, verbatim, exactly if its bytes are legal ones and whole escapes, no colon is
    in front and one fragment mark is the most; a fault is at a byte of the text of which its reason is true, and all
    before it is spelled well. -/
theorem read_or_faulted (s : String) :
    ((∃ u, parse s = .ok u) ↔
      Spelled (bytes s) ∧ (bytes s).head? ≠ some ':'.toUInt8 ∧ (bytes s).count '#'.toUInt8 ≤ 1) ∧
    (∀ u, parse s = .ok u → u.text = s ∧ parse u.text = .ok u ∧
      ∀ scheme, u.scheme? = some scheme → u.LedBy scheme) ∧
    ∀ f, parse s = .error f → f.Holds (bytes s) ∧ (⟨f.position⟩ : String.Pos.Raw).IsValid s := by
  rw [bytes_eq_utf8]
  refine ⟨?_, fun u h => ?_, fun f h => ?_⟩
  · rw [← fault?_eq_none_iff]
    exact ⟨fun ⟨u, h⟩ => (parse_eq_ok_iff.mp h).1, fun h => ⟨⟨s, h⟩, parse_eq_ok_iff.mpr ⟨h, rfl⟩⟩⟩
  · obtain ⟨-, rfl⟩ := parse_eq_ok_iff.mp h
    exact ⟨rfl, h, fun scheme => ledBy_of_scheme?⟩
  · have hholds := holds_of_fault? (parse_eq_error_iff.mp h)
    exact ⟨hholds, isValid_position hholds⟩

/-- An escape and a scheme; and a second fragment mark, found behind an escape. -/
theorem read_or_faulted_isbn :
    ((∃ u, parse "urn:a%20b#top" = .ok u ∧ u.scheme? = some "urn" ∧ u.LedBy "urn") ∧
      Spelled (bytes "urn:a%20b#top")) ∧
    parse "a#%20#c" = .error ⟨5, .secondFragment⟩ ∧
    (⟨5, .secondFragment⟩ : UriFault).Holds (bytes "a#%20#c") := by
  have hread : fault? "urn:a%20b#top".toList = none := by decide
  have hok : parse "urn:a%20b#top" = .ok ⟨"urn:a%20b#top", hread⟩ := parse_eq_ok_iff.mpr ⟨hread, rfl⟩
  have hscheme {u : Uri} (h : u.text = "urn:a%20b#top") : u.scheme? = some "urn" := by
    rw [scheme?, h]
    decide
  have hfault : parse "a#%20#c" = .error ⟨5, .secondFragment⟩ := parse_eq_error_iff.mpr (by decide)
  obtain ⟨haccepts, hkept, -⟩ := read_or_faulted "urn:a%20b#top"
  obtain ⟨-, -, hfaults⟩ := read_or_faulted "a#%20#c"
  exact ⟨⟨⟨_, hok, hscheme rfl, (hkept _ hok).2.2 _ (hscheme rfl)⟩, (haccepts.mp ⟨_, hok⟩).1⟩, hfault,
    (hfaults _ hfault).1⟩

end Uri

end TypedWire
