import TypedWire.Identifier.Locale
import TypedWire.Proofs.Fields
import TypedWire.Proofs.LetterCase
import TypedWire.Proofs.RoundTrip

/-! # Language tags, read and shown

A tag that can be read is a language with optional parts behind it, where extensions alone stand for a tag
without any language. Showing a locale brings each part to its usual case and changes no class of any
character, so the parts are found again where they were; unless the language has been left out before a
variant, which is then taken for one. -/

namespace TypedWire
open Text

namespace Locale

/-! ### Forms of subtags -/

section Forms
variable {s t : List Char}

theorem isSubtag_congr (h : classes s = classes t) : isSubtag s = isSubtag t := by
  rw [isSubtag, isSubtag, length_congr h, all_isAlphanumeric_congr h, isEmpty_congr h]

theorem isLanguage_congr (h : classes s = classes t) : isLanguage s = isLanguage t := by
  rw [isLanguage, isLanguage, length_congr h, all_isLetter_congr h]

theorem isScript_congr (h : classes s = classes t) : isScript s = isScript t := by
  rw [isScript, isScript, length_congr h, all_isLetter_congr h]

theorem isRegion_congr (h : classes s = classes t) : isRegion s = isRegion t := by
  rw [isRegion, isRegion, length_congr h, all_isLetter_congr h, all_isDigit_congr h]

theorem isVariant_congr (h : classes s = classes t) : isVariant s = isVariant t := by
  rw [isVariant, isVariant, length_congr h, head_isDigit_congr h]

theorem isSingleton_congr (h : classes s = classes t) : isSingleton s = isSingleton t := by
  rw [isSingleton, isSingleton, length_congr h]

theorem classes_titleCase (s : List Char) : classes (titleCase s) = classes s := by
  have happend (a b : List Char) : classes (a ++ b) = classes a ++ classes b := List.map_append
  rw [titleCase, happend, classes_upper, classes_lower, ← happend, List.take_append_drop]

theorem titleCase_titleCase (s : List Char) : titleCase (titleCase s) = titleCase s := by
  cases s with
  | nil => rfl
  | cons c cs =>
    have htitle (c : Char) (cs : List Char) : titleCase (c :: cs) = c.toUpper :: lower cs := rfl
    rw [htitle, htitle, lower_lower, toUpper_toUpper]

/-- The forms exclude each other by their lengths and their first characters. -/
theorem not_script_of_region (h : isRegion s = true) : isScript s = false := by
  simp only [isRegion, isScript, Bool.or_eq_true, Bool.and_eq_true, beq_iff_eq] at h ⊢
  have hlength : s.length ≠ 4 := by omega
  simp [hlength]

theorem not_script_of_variant (h : isVariant s = true) : isScript s = false := by
  cases s with
  | nil => cases h
  | cons c cs =>
    cases hs : isScript (c :: cs) with
    | false => rfl
    | true =>
      obtain ⟨hfour, hletters⟩ := Bool.and_eq_true_iff.mp hs
      have hlength : (c :: cs).length = 4 := beq_iff_eq.mp hfour
      have hletter : isLetter c = true := List.all_eq_true.mp hletters c (List.mem_cons_self ..)
      rw [isVariant, hlength] at h
      have hdigit : isDigit c = true := h
      rw [not_isDigit_of_isLetter c hletter] at hdigit
      cases hdigit

theorem not_region_of_variant (h : isVariant s = true) : isRegion s = false := by
  simp only [isVariant, isRegion, Bool.or_eq_true, Bool.and_eq_true, beq_iff_eq, decide_eq_true_iff] at h ⊢
  have h2 : s.length ≠ 2 := by omega
  have h3 : s.length ≠ 3 := by omega
  simp [h2, h3]

theorem not_form_of_singleton (h : isSingleton s = true) :
    isScript s = false ∧ isRegion s = false ∧ isVariant s = false ∧ isLanguage s = false := by
  have hlength : s.length = 1 := by simpa [isSingleton] using h
  simp [isScript, isRegion, isVariant, isLanguage, hlength]

end Forms

/-! ### Extensions -/

section Extensions

theorem isPrivateUse_lower (s : List Char) : isPrivateUse (lower s) = isPrivateUse s := by
  cases s with
  | nil => rfl
  | cons c cs =>
    cases cs with
    | cons d ds => simp [isPrivateUse, lower]
    | nil =>
      have hx (c d : Char) : ([c] == [d]) = decide (c.toNat = d.toNat) := by
        rw [Bool.eq_iff_iff, beq_iff_eq, decide_eq_true_iff, Char.toNat_inj]
        simp
      show ([c.toLower] == ['x'] || [c.toLower] == ['X']) = ([c] == ['x'] || [c] == ['X'])
      rw [Bool.eq_iff_iff]
      simp only [hx, toNat_toLower, Bool.or_eq_true, decide_eq_true_iff]
      show (ite _ _ _ = 120 ∨ ite _ _ _ = 88) ↔ (c.toNat = 120 ∨ c.toNat = 88)
      split <;> omega

theorem isSingleton_lower (s : List Char) : isSingleton (lower s) = isSingleton s :=
  isSingleton_congr (classes_lower s)

theorem extensionsFrom_lower (opened : Bool) (subtags : List (List Char)) :
    extensionsFrom opened (subtags.map lower) = extensionsFrom opened subtags := by
  induction subtags generalizing opened with
  | nil => rfl
  | cons s rest ih =>
    rw [List.map_cons, extensionsFrom, extensionsFrom, isSingleton_lower, isPrivateUse_lower, ih, ih,
      List.isEmpty_map]

theorem areExtensions_lower (subtags : List (List Char)) :
    areExtensions (subtags.map lower) = areExtensions subtags := by
  have hhead : (subtags.map lower).head?.any isSingleton = subtags.head?.any isSingleton := by
    cases subtags with
    | nil => rfl
    | cons s rest => exact isSingleton_lower s
  rw [areExtensions, areExtensions, extensionsFrom_lower, hhead]

theorem areExtensions_cons {subtags : List (List Char)} (h : areExtensions subtags = true) :
    ∃ s next rest, subtags = s :: next :: rest ∧ isSingleton s = true := by
  obtain ⟨hhead, hfrom⟩ := Bool.and_eq_true_iff.mp h
  cases subtags with
  | nil => cases hhead
  | cons s rest =>
    have hs : isSingleton s = true := hhead
    cases rest with
    | nil => simp [extensionsFrom, hs] at hfrom
    | cons next rest => exact ⟨s, next, rest, rfl, hs⟩

end Extensions

/-! ### What follows a language -/

/-- What may follow a language, part by part. -/
structure Parts where
  script : Option (List Char)
  region : Option (List Char)
  variants : List (List Char)
  extensions : List (List Char)

namespace Parts

structure WellFormed (p : Parts) : Prop where
  script : ∀ s ∈ p.script, isScript s = true
  region : ∀ s ∈ p.region, isRegion s = true
  variants : ∀ s ∈ p.variants, isVariant s = true
  extensions : p.extensions = [] ∨ areExtensions p.extensions = true

def subtags (p : Parts) : List (List Char) :=
  p.script.toList ++ (p.region.toList ++ (p.variants ++ p.extensions))

def locale (language : List Char) (p : Parts) : Locale where
  language := String.ofList (if sameLetters language undetermined.toList then [] else lower language)
  script := p.script.map (String.ofList ∘ titleCase)
  region := p.region.map (String.ofList ∘ upper)
  variants := p.variants.map (String.ofList ∘ lower)
  extensions := p.extensions.map (String.ofList ∘ lower)

end Parts

section Taking
variable {p : List Char → Bool} {o : Option (List Char)} {l rest : List (List Char)}

theorem takeIf_eq (h : takeIf p l = (o, rest)) : l = o.toList ++ rest ∧ ∀ s ∈ o, p s = true := by
  cases l with
  | nil =>
    obtain ⟨rfl, rfl⟩ := Prod.mk.inj h
    exact ⟨rfl, nofun⟩
  | cons s l =>
    rw [takeIf] at h
    cases hs : p s <;> rw [hs] at h <;> obtain ⟨rfl, rfl⟩ := Prod.mk.inj h
    · exact ⟨rfl, nofun⟩
    · exact ⟨rfl, fun _ hm => Option.some.inj hm ▸ hs⟩

theorem takeIf_append (ho : ∀ s ∈ o, p s = true) (hrest : ∀ s ∈ rest.head?, p s = false) :
    takeIf p (o.toList ++ rest) = (o, rest) := by
  cases o with
  | some s =>
    show (if p s = true then (some s, rest) else _) = _
    rw [ho s rfl, if_pos rfl]
  | none =>
    cases rest with
    | nil => rfl
    | cons s rest =>
      show (if p s = true then _ else (none, s :: rest)) = _
      rw [hrest s rfl]
      rfl

end Taking

section AfterLanguage
variable {p : Parts} {language : List Char} {subtags : List (List Char)} {l : Locale}

namespace Parts.WellFormed
variable (hp : p.WellFormed)
include hp

theorem isSingleton_of_head_extensions : ∀ s ∈ p.extensions.head?, isSingleton s = true := by
  intro s hs
  rcases hp.extensions with hnil | hext
  · rw [hnil] at hs
    cases hs
  · obtain ⟨s', next, rest, he, hsingle⟩ := areExtensions_cons hext
    rw [he] at hs
    exact Option.some.inj hs ▸ hsingle

theorem isVariant_or_isSingleton_of_head :
    ∀ s ∈ (p.variants ++ p.extensions).head?, isVariant s = true ∨ isSingleton s = true := by
  intro s hs
  cases hv : p.variants with
  | nil =>
    rw [hv] at hs
    exact Or.inr (hp.isSingleton_of_head_extensions s hs)
  | cons v vs =>
    rw [hv] at hs
    exact Or.inl (hp.variants s (hv ▸ Option.some.inj hs ▸ List.mem_cons_self ..))

theorem not_region_of_head : ∀ s ∈ (p.variants ++ p.extensions).head?, isRegion s = false := by
  intro s hs
  rcases hp.isVariant_or_isSingleton_of_head s hs with hv | hv
  · exact not_region_of_variant hv
  · exact (not_form_of_singleton hv).2.1

theorem not_script_of_head : ∀ s ∈ (p.region.toList ++ (p.variants ++ p.extensions)).head?, isScript s = false := by
  intro s hs
  cases hr : p.region with
  | some r =>
    rw [hr] at hs
    exact not_script_of_region (hp.region s (hr ▸ hs))
  | none =>
    rw [hr] at hs
    rcases hp.isVariant_or_isSingleton_of_head s hs with hv | hv
    · exact not_script_of_variant hv
    · exact (not_form_of_singleton hv).1

theorem span_variants : (p.variants ++ p.extensions).takeWhile isVariant = p.variants ∧
    (p.variants ++ p.extensions).dropWhile isVariant = p.extensions := by
  rw [List.takeWhile_append_of_pos hp.variants, List.dropWhile_append_of_pos hp.variants]
  cases he : p.extensions with
  | nil => exact ⟨List.append_nil _, rfl⟩
  | cons s rest =>
    have hs := (not_form_of_singleton (hp.isSingleton_of_head_extensions s (by rw [he]; rfl))).2.2.1
    rw [List.takeWhile_cons, List.dropWhile_cons, hs]
    exact ⟨List.append_nil _, rfl⟩

end Parts.WellFormed

theorem afterLanguage_subtags (hp : p.WellFormed) (language : List Char) :
    afterLanguage language p.subtags = .ok (p.locale language) := by
  have hscript := takeIf_append hp.script hp.not_script_of_head
  have hregion := takeIf_append hp.region hp.not_region_of_head
  obtain ⟨htake, hdrop⟩ := hp.span_variants
  unfold afterLanguage Parts.subtags
  simp only [hscript, hregion, htake, hdrop]
  rcases hp.extensions with hnil | hext
  · rw [Parts.locale, hnil]
  · obtain ⟨s, next, rest, he, -⟩ := areExtensions_cons hext
    rw [he] at hext ⊢
    simp only [hext, if_true, Parts.locale, he]

/-- What is accepted behind a language consists of such parts. -/
theorem afterLanguage_eq_ok_iff : afterLanguage language subtags = .ok l ↔
    ∃ p : Parts, p.WellFormed ∧ subtags = p.subtags ∧ l = p.locale language := by
  constructor
  · intro h
    unfold afterLanguage at h
    cases hscript : takeIf isScript subtags with
    | mk script rest =>
      cases hregion : takeIf isRegion rest with
      | mk region rest' =>
        simp only [hscript, hregion] at h
        obtain ⟨rfl, hs⟩ := takeIf_eq hscript
        obtain ⟨rfl, hr⟩ := takeIf_eq hregion
        have hlocale : (rest'.dropWhile isVariant = [] ∨ areExtensions (rest'.dropWhile isVariant) = true) ∧
            l = Parts.locale language ⟨script, region, rest'.takeWhile isVariant, rest'.dropWhile isVariant⟩ := by
          split at h
          · rename_i hnil
            exact ⟨Or.inl hnil, (Except.ok.inj h).symm⟩
          · split at h
            · rename_i hext
              exact ⟨Or.inr hext, (Except.ok.inj h).symm⟩
            · cases h
        refine ⟨_, ⟨hs, hr, List.all_eq_true.mp List.all_takeWhile, hlocale.1⟩, ?_, hlocale.2⟩
        rw [Parts.subtags, List.takeWhile_append_dropWhile]
  · rintro ⟨p, hp, rfl, rfl⟩
    exact afterLanguage_subtags hp language

end AfterLanguage

/-! ### Reading a tag -/

section Reading
variable {subtags : List (List Char)} {l : Locale}

theorem isSubtag_of_isLanguage {s : List Char} (h : isLanguage s = true) : isSubtag s = true := by
  simp only [isLanguage, Bool.and_eq_true, Bool.or_eq_true, beq_iff_eq, decide_eq_true_iff] at h
  obtain ⟨hletters, hlength⟩ := h
  have hpos : s ≠ [] := by
    rintro rfl
    simp at hlength
  have hall : s.all isAlphanumeric = true := List.all_eq_true.mpr fun c hc => by
    rw [isAlphanumeric, List.all_eq_true.mp hletters c hc, Bool.true_or]
  simp only [isSubtag, hall, Bool.and_true, Bool.and_eq_true, decide_eq_true_iff, Bool.not_eq_true',
    List.isEmpty_eq_false_iff]
  exact ⟨hpos, by omega⟩

/-- Subtags are accepted where they are extensions, or a language with parts behind it. -/
theorem ofSubtags_eq_ok_iff (hne : subtags ≠ []) : ofSubtags subtags = .ok l ↔
    (∀ s ∈ subtags, isSubtag s = true) ∧
    (areExtensions subtags = true ∧ l = { root with extensions := subtags.map (String.ofList ∘ lower) } ∨
      ∃ first, ∃ p : Parts, isLanguage first = true ∧ p.WellFormed ∧ subtags = first :: p.subtags ∧ l = p.locale first) := by
  unfold ofSubtags
  cases hbad : subtags.find? (!isSubtag ·) with
  | some bad =>
    have hmem := List.mem_of_find?_eq_some hbad
    have hsub := List.find?_some hbad
    refine iff_of_false nofun fun h => ?_
    rw [h.1 bad hmem] at hsub
    cases hsub
  | none =>
    have hall : ∀ s ∈ subtags, isSubtag s = true := fun s hs => by
      simpa using List.find?_eq_none.mp hbad s hs
    cases subtags with
    | nil => exact absurd rfl hne
    | cons first rest =>
      have hlanguage : isSingleton first = true → isLanguage first = false := fun h => (not_form_of_singleton h).2.2.2
      constructor
      · intro h
        refine ⟨hall, ?_⟩
        dsimp only at h
        split at h
        · split at h
          · rename_i hext
            exact Or.inl ⟨hext, (Except.ok.inj h).symm⟩
          · cases h
        · split at h
          · rename_i hfirst
            obtain ⟨p, hp, rfl, rfl⟩ := afterLanguage_eq_ok_iff.mp h
            exact Or.inr ⟨first, p, hfirst, hp, rfl, rfl⟩
          · cases h
      · rintro ⟨-, ⟨hext, rfl⟩ | ⟨_, p, hfirst, hp, he, rfl⟩⟩
        · obtain ⟨s, next, rest', he, hs⟩ := areExtensions_cons hext
          obtain ⟨rfl, -⟩ := List.cons.inj he
          dsimp only
          rw [if_pos hs, if_pos hext]
        · obtain ⟨rfl, rfl⟩ := List.cons.inj he
          have hsingle : isSingleton first = false := by
            cases hs : isSingleton first with
            | false => rfl
            | true => rw [hlanguage hs] at hfirst; cases hfirst
          dsimp only
          rw [hsingle, hfirst]
          exact afterLanguage_subtags hp first

theorem hyphen_not_mem_of_isSubtag {s : List Char} (h : isSubtag s = true) : '-' ∉ s := fun hmem => by
  have halnum := List.all_eq_true.mp (Bool.and_eq_true_iff.mp h).2 '-' hmem
  exact absurd halnum (by decide)

theorem parse_joinFields (hsub : ∀ s ∈ subtags, isSubtag s = true) (hmany : 2 ≤ subtags.length) :
    parse (String.ofList (joinFields '-' subtags)) = (ofSubtags subtags).mapError fun bad =>
      ⟨String.ofList (joinFields '-' subtags), String.ofList bad⟩ := by
  obtain ⟨s, next, rest, rfl⟩ : ∃ s next rest, subtags = s :: next :: rest := by
    match subtags, hmany with
    | s :: next :: rest, _ => exact ⟨s, next, rest, rfl⟩
  have hhyphen : '-' ∈ joinFields '-' (s :: next :: rest) := by
    rw [joinFields_cons (List.cons_ne_nil _ _)]
    exact List.mem_append_right _ (List.mem_cons_self ..)
  have hempty : (joinFields '-' (s :: next :: rest)).isEmpty = false :=
    List.isEmpty_eq_false_iff.mpr (List.ne_nil_of_mem hhyphen)
  have hund : sameLetters (joinFields '-' (s :: next :: rest)) undetermined.toList = false := by
    rw [sameLetters, beq_eq_false_iff_ne]
    intro he
    have hmem : '-'.toLower ∈ lower (joinFields '-' (s :: next :: rest)) := List.mem_map_of_mem hhyphen
    rw [he] at hmem
    exact absurd hmem (by decide)
  unfold parse
  rw [String.toList_ofList]
  dsimp only
  rw [hempty, hund,
    splitFields_joinFields (List.cons_ne_nil _ _) fun s hs => hyphen_not_mem_of_isSubtag (hsub s hs)]
  rfl

/-- Whatever is read is the locale of a language and what follows it; where there is no language it is
    `und`. -/
theorem parse_eq_ok {t : String} (h : parse t = .ok l) : ∃ first, ∃ p : Parts, isLanguage first = true ∧
    p.WellFormed ∧ (∀ s ∈ p.subtags, isSubtag s = true) ∧ l = p.locale first := by
  unfold parse at h
  dsimp only at h
  split at h
  · refine ⟨undetermined.toList, ⟨none, none, [], []⟩, by decide, ⟨nofun, nofun, nofun, Or.inl rfl⟩, nofun, ?_⟩
    exact (Except.ok.inj h).symm
  · cases ho : ofSubtags (splitFields '-' t.toList) with
    | error bad => rw [ho] at h; cases h
    | ok l' =>
      rw [ho] at h
      obtain rfl : l' = l := Except.ok.inj h
      obtain ⟨hsub, hparts⟩ := (ofSubtags_eq_ok_iff (splitFields_ne_nil '-' t.toList)).mp ho
      rcases hparts with ⟨hext, rfl⟩ | ⟨first, p, hfirst, hp, he, rfl⟩
      · exact ⟨undetermined.toList, ⟨none, none, [], _⟩, by decide, ⟨nofun, nofun, nofun, Or.inr hext⟩, hsub, rfl⟩
      · exact ⟨first, p, hfirst, hp, fun s hs => hsub s (he ▸ List.mem_cons_of_mem _ hs), rfl⟩

end Reading

/-! ### Showing a locale -/

namespace Parts

def normal (p : Parts) : Parts where
  script := p.script.map titleCase
  region := p.region.map upper
  variants := p.variants.map lower
  extensions := p.extensions.map lower

section Normal
variable {p : Parts}

theorem WellFormed.normal (hp : p.WellFormed) : p.normal.WellFormed where
  script := by
    intro s hs
    obtain ⟨s', hs', rfl⟩ := Option.map_eq_some_iff.mp hs
    rw [isScript_congr (classes_titleCase s')]
    exact hp.script s' hs'
  region := by
    intro s hs
    obtain ⟨s', hs', rfl⟩ := Option.map_eq_some_iff.mp hs
    rw [isRegion_congr (classes_upper s')]
    exact hp.region s' hs'
  variants := by
    intro s hs
    obtain ⟨s', hs', rfl⟩ := List.mem_map.mp hs
    rw [isVariant_congr (classes_lower s')]
    exact hp.variants s' hs'
  extensions := by
    rcases hp.extensions with hnil | hext
    · exact Or.inl (by rw [Parts.normal, hnil]; rfl)
    · exact Or.inr ((areExtensions_lower _).trans hext)

/-- The usual case changes no class of any character. -/
theorem map_classes_normal (p : Parts) : p.normal.subtags.map classes = p.subtags.map classes := by
  have hmap {f : List Char → List Char} (hf : ∀ s, classes (f s) = classes s) (subtags : List (List Char)) :
      (subtags.map f).map classes = subtags.map classes := by
    rw [List.map_map]
    exact List.map_congr_left fun s _ => hf s
  have hoption {f : List Char → List Char} (hf : ∀ s, classes (f s) = classes s) (o : Option (List Char)) :
      (o.map f).toList.map classes = o.toList.map classes := by
    rw [Option.toList_map, hmap hf]
  simp only [Parts.subtags, Parts.normal, List.map_append]
  rw [hoption classes_titleCase, hoption classes_upper, hmap classes_lower, hmap classes_lower]

theorem isSubtag_normal (hsub : ∀ s ∈ p.subtags, isSubtag s = true) : ∀ s ∈ p.normal.subtags, isSubtag s = true := by
  intro s hs
  have hclass : classes s ∈ p.subtags.map classes := p.map_classes_normal ▸ List.mem_map_of_mem hs
  obtain ⟨s', hs', he⟩ := List.mem_map.mp hclass
  rw [isSubtag_congr he.symm]
  exact hsub s' hs'

theorem locale_normal (p : Parts) {first shown : List Char}
    (hund : sameLetters shown undetermined.toList = sameLetters first undetermined.toList)
    (hlower : sameLetters first undetermined.toList = false → lower shown = lower first) :
    p.normal.locale shown = p.locale first := by
  have hlanguage : (if sameLetters shown undetermined.toList then [] else lower shown) =
      if sameLetters first undetermined.toList then [] else lower first := by
    rw [hund]
    cases hf : sameLetters first undetermined.toList with
    | true => rfl
    | false => rw [hlower hf]
  have htitle : (String.ofList ∘ titleCase) ∘ titleCase = String.ofList ∘ titleCase :=
    funext fun s => congrArg String.ofList (titleCase_titleCase s)
  have hupper : (String.ofList ∘ upper) ∘ upper = String.ofList ∘ upper :=
    funext fun s => congrArg String.ofList (upper_upper s)
  have hlow : (String.ofList ∘ lower) ∘ lower = String.ofList ∘ lower :=
    funext fun s => congrArg String.ofList (lower_lower s)
  simp only [Parts.locale, Parts.normal, Option.map_map, List.map_map, hlanguage, htitle, hupper, hlow]

theorem language_eq_empty_iff {first : List Char} (hfirst : isLanguage first = true) (p : Parts) :
    (p.locale first).language = "" ↔ sameLetters first undetermined.toList = true := by
  cases hund : sameLetters first undetermined.toList with
  | true => exact iff_of_true (by rw [Parts.locale, hund]; rfl) rfl
  | false =>
    refine iff_of_false (fun he => ?_) nofun
    have hlower : lower first = [] := by
      rw [Parts.locale, hund] at he
      simpa using congrArg String.toList he
    obtain rfl : first = [] := List.map_eq_nil_iff.mp hlower
    exact absurd hfirst (by decide)

/-- What a tag shows of a language: nothing where only variants and extensions follow one that is not
    known. -/
def shown (first : List Char) (p : Parts) : List (List Char) :=
  if sameLetters first undetermined.toList then
    if p.extensions.isEmpty || p.script.isSome || p.region.isSome then [undetermined.toList] else []
  else [lower first]

theorem map_subtags_locale {first : List Char} (hfirst : isLanguage first = true) (p : Parts) :
    (p.locale first).subtags.map String.toList = shown first p ++ p.normal.subtags := by
  have hrest : ((p.locale first).script.toList ++ (p.locale first).region.toList ++ (p.locale first).variants ++
      (p.locale first).extensions).map String.toList = p.normal.subtags := by
    simp [Parts.locale, Parts.normal, Parts.subtags, Option.toList_map, List.map_append, Function.comp_def]
  have hshown : (if (p.locale first).language ≠ "" then [(p.locale first).language]
      else if (p.locale first).extensions.isEmpty || (p.locale first).script.isSome ||
        (p.locale first).region.isSome then [undetermined] else []).map String.toList = shown first p := by
    unfold shown
    cases hund : sameLetters first undetermined.toList with
    | true =>
      rw [if_neg (not_not_intro ((language_eq_empty_iff hfirst p).mpr hund)), if_pos rfl]
      have hcond : ((p.locale first).extensions.isEmpty || (p.locale first).script.isSome ||
          (p.locale first).region.isSome) = (p.extensions.isEmpty || p.script.isSome || p.region.isSome) := by
        simp [Parts.locale]
      rw [hcond]
      split <;> rfl
    | false =>
      have hlanguage : (p.locale first).language = String.ofList (lower first) := by rw [Parts.locale, hund]; rfl
      have hne : (p.locale first).language ≠ "" := fun he => by
        rw [(language_eq_empty_iff hfirst p).mp he] at hund
        cases hund
      rw [if_pos hne, hlanguage]
      simp
  rw [← hrest, ← hshown, ← List.map_append]
  simp only [Locale.subtags, List.append_assoc]

end Normal

end Parts

/-! ### Reading what has been shown -/

/-- The locales whose tags begin with a variant: they have no language and extensions, and nothing between
    the language and the variants. -/
def Headless (l : Locale) : Prop :=
  l.language = "" ∧ l.script = none ∧ l.region = none ∧ l.variants ≠ [] ∧ l.extensions ≠ []

instance (l : Locale) : Decidable l.Headless :=
  inferInstanceAs (Decidable (_ ∧ _))

section Shown
variable {p : Parts} {first : List Char}

/-- A language with parts behind it is read as it stands. -/
theorem parse_subtags (hfirst : isLanguage first = true) (hp : p.WellFormed)
    (hsub : ∀ s ∈ p.subtags, isSubtag s = true) :
    parse (String.ofList (joinFields '-' (first :: p.subtags))) = .ok (p.locale first) := by
  have hall : ∀ s ∈ first :: p.subtags, isSubtag s = true :=
    List.forall_mem_cons.mpr ⟨isSubtag_of_isLanguage hfirst, hsub⟩
  have hread : ofSubtags (first :: p.subtags) = .ok (p.locale first) :=
    (ofSubtags_eq_ok_iff (List.cons_ne_nil _ _)).mpr ⟨hall, Or.inr ⟨first, p, hfirst, hp, rfl, rfl⟩⟩
  cases hrest : p.subtags with
  | cons s rest =>
    rw [hrest] at hall hread
    rw [parse_joinFields hall (by simp), hread]
    rfl
  | nil =>
    rw [hrest] at hread
    have hne : first.isEmpty = false := by
      cases first with
      | nil => exact absurd hfirst (by decide)
      | cons c cs => rfl
    have hsplit : splitFields '-' first = [first] :=
      splitFields_of_not_mem (hyphen_not_mem_of_isSubtag (isSubtag_of_isLanguage hfirst))
    unfold parse joinFields
    rw [String.toList_ofList]
    dsimp only
    rw [hne, hsplit, hread]
    cases hund : sameLetters first undetermined.toList with
    | false => rfl
    | true =>
      obtain ⟨script, region, variants, extensions⟩ := p
      obtain ⟨rfl, rfl, rfl, rfl⟩ : script = none ∧ region = none ∧ variants = [] ∧ extensions = [] := by
        simpa [Parts.subtags] using hrest
      rw [Parts.locale, hund]
      rfl

theorem tag_locale (hfirst : isLanguage first = true) (p : Parts) :
    (p.locale first).tag = String.ofList (joinFields '-' (p.shown first ++ p.normal.subtags)) := by
  rw [tag, Parts.map_subtags_locale hfirst]

theorem parse_tag_of_shown (hfirst : isLanguage first = true) (hp : p.WellFormed)
    (hsub : ∀ s ∈ p.subtags, isSubtag s = true) (hshown : p.shown first ≠ []) :
    parse (p.locale first).tag = .ok (p.locale first) := by
  -- Whichever language is shown, the parts behind it are in their usual case and stand for the same locale.
  have hread {h : List Char} (hh : isLanguage h = true) := parse_subtags hh hp.normal (Parts.isSubtag_normal hsub)
  rw [tag_locale hfirst]
  cases hund : sameLetters first undetermined.toList with
  | true =>
    have he : p.shown first = [undetermined.toList] := by
      unfold Parts.shown at hshown ⊢
      rw [if_pos hund] at hshown ⊢
      split at hshown
      · rename_i hc
        rw [if_pos hc]
      · exact absurd rfl hshown
    have hlocale : p.normal.locale undetermined.toList = p.locale first :=
      p.locale_normal (hund ▸ rfl) fun hf => absurd (hund.symm.trans hf) nofun
    rw [he, ← hlocale]
    exact hread (by decide)
  | false =>
    have he : p.shown first = [lower first] := by
      rw [Parts.shown, hund]
      rfl
    have hlocale : p.normal.locale (lower first) = p.locale first :=
      p.locale_normal (sameLetters_lower ..) fun _ => lower_lower first
    rw [he, ← hlocale]
    exact hread ((isLanguage_congr (classes_lower first)).trans hfirst)

theorem parse_extensions {extensions : List (List Char)} (hext : areExtensions extensions = true)
    (hsub : ∀ s ∈ extensions, isSubtag s = true) :
    parse (String.ofList (joinFields '-' extensions)) =
      .ok { root with extensions := extensions.map (String.ofList ∘ lower) } := by
  obtain ⟨s, next, rest, he, -⟩ := areExtensions_cons hext
  have hread := (ofSubtags_eq_ok_iff (he ▸ List.cons_ne_nil _ _)).mpr ⟨hsub, Or.inl ⟨hext, rfl⟩⟩
  rw [parse_joinFields hsub (by simp [he]), hread]
  rfl

/-- A tag that begins with a variant is read as one with a language, if it can be read. -/
theorem language_ne_empty_of_parse {v : List Char} {rest : List (List Char)} {l : Locale} (hv : isVariant v = true)
    (hsub : ∀ s ∈ v :: rest, isSubtag s = true) (hrest : rest ≠ [])
    (h : parse (String.ofList (joinFields '-' (v :: rest))) = .ok l) : l.language ≠ "" := by
  have hmany : 2 ≤ (v :: rest).length := Nat.succ_le_succ (List.length_pos_iff.mpr hrest)
  rw [parse_joinFields hsub hmany] at h
  cases ho : ofSubtags (v :: rest) with
  | error bad => rw [ho] at h; cases h
  | ok l' =>
    rw [ho] at h
    obtain rfl : l' = l := Except.ok.inj h
    obtain ⟨-, ⟨hext, -⟩ | ⟨_, p, hfirst, -, he, rfl⟩⟩ := (ofSubtags_eq_ok_iff (List.cons_ne_nil _ _)).mp ho
    · obtain ⟨s, next, rest', he, hs⟩ := areExtensions_cons hext
      obtain ⟨rfl, -⟩ := List.cons.inj he
      rw [(not_form_of_singleton hs).2.2.1] at hv
      cases hv
    · obtain ⟨rfl, -⟩ := List.cons.inj he
      rw [Ne, Parts.language_eq_empty_iff hfirst]
      intro hund
      have hlength : (lower v).length = 3 := congrArg List.length (beq_iff_eq.mp hund)
      rw [lower, List.length_map] at hlength
      simp [isVariant, hlength] at hv

theorem shown_eq_nil_iff : p.shown first = [] ↔ sameLetters first undetermined.toList = true ∧
    p.script = none ∧ p.region = none ∧ p.extensions ≠ [] := by
  unfold Parts.shown
  cases sameLetters first undetermined.toList with
  | false => simp
  | true => cases p.extensions <;> cases p.script <;> cases p.region <;> simp

theorem headless_locale_iff (hfirst : isLanguage first = true) :
    (p.locale first).Headless ↔ p.shown first = [] ∧ p.variants ≠ [] := by
  rw [Headless, Parts.language_eq_empty_iff hfirst, shown_eq_nil_iff]
  simp only [Parts.locale, Option.map_eq_none_iff, Ne, List.map_eq_nil_iff]
  constructor
  · rintro ⟨hund, hscript, hregion, hvariants, hext⟩
    exact ⟨⟨hund, hscript, hregion, hext⟩, hvariants⟩
  · rintro ⟨⟨hund, hscript, hregion, hext⟩, hvariants⟩
    exact ⟨hund, hscript, hregion, hvariants, hext⟩

/-- A locale that has been read comes back from its own tag exactly if the tag does not begin with a variant. -/
theorem parse_tag_eq_ok_iff {t : String} {l : Locale} (h : parse t = .ok l) :
    parse l.tag = .ok l ↔ ¬l.Headless := by
  obtain ⟨first, p, hfirst, hp, hsub, rfl⟩ := parse_eq_ok h
  rw [headless_locale_iff hfirst]
  -- The language is left out before extensions only; what the tag then begins with decides.
  by_cases hshown : p.shown first = []
  · obtain ⟨hund, hscript, hregion, hne⟩ := shown_eq_nil_iff.mp hshown
    have hext : areExtensions (p.extensions.map lower) = true :=
      (areExtensions_lower _).trans (hp.extensions.resolve_left hne)
    have hsubtags : p.normal.subtags = p.variants.map lower ++ p.extensions.map lower := by
      rw [Parts.subtags, Parts.normal, hscript, hregion]
      rfl
    have hsub' := Parts.isSubtag_normal hsub
    rw [hsubtags] at hsub'
    rw [tag_locale hfirst, hshown, List.nil_append, hsubtags]
    cases hv : p.variants with
    | nil =>
      rw [hv] at hsub'
      refine iff_of_true ?_ fun hh => hh.2 rfl
      have hlocale : p.normal.locale undetermined.toList = p.locale first :=
        p.locale_normal (hund ▸ rfl) fun hf => absurd (hund.symm.trans hf) nofun
      rw [← hlocale, Parts.normal, hscript, hregion, hv]
      exact parse_extensions hext hsub'
    | cons v vs =>
      rw [hv] at hsub'
      refine iff_of_false (fun hread => ?_) (not_not_intro ⟨rfl, List.cons_ne_nil _ _⟩)
      have hvariant : isVariant (lower v) = true := by
        rw [isVariant_congr (classes_lower v)]
        exact hp.variants v (hv ▸ List.mem_cons_self ..)
      exact language_ne_empty_of_parse hvariant hsub' (by simp [hne]) hread
        ((Parts.language_eq_empty_iff hfirst p).mpr hund)
  · exact iff_of_true (parse_tag_of_shown hfirst hp hsub hshown) fun hh => hshown hh.1

end Shown

/-! ### Locales on the wire -/

theorem value_tag_eq_ok_iff {l : Locale} (policy : Inclusion) :
    ((Value.textual .locale l).tree policy).value (.ofClass Class.locale) = .ok (.textual .locale l) ↔
      parse l.tag = .ok l := by
  have hread : ((Value.textual .locale l).tree policy).value (.ofClass Class.locale) =
      (((parse l.tag).mapError LanguageTagFault.message).mapError (.parse TextType.locale.name l.tag)).map
        (.textual .locale) :=
    Descriptor.value_string .locale l.tag
  rw [hread]
  cases parse l.tag with
  | error fault => exact iff_of_false nofun nofun
  | ok l' =>
    constructor
    · intro h
      injection h with h
      injection h with _ h
      exact congrArg Except.ok h
    · rintro ⟨⟩
      rfl

/-- A locale that a tag has been read as comes back, from its own tag and through any registry without
    components, exactly if its tag does not begin with a variant. -/
theorem roundTrip_iff {t : String} {l : Locale} (h : parse t = .ok l) :
    (parse l.tag = .ok l ↔ ¬l.Headless) ∧
    ∀ (policy : Option Inclusion) (history : List Lookup), ∃ w r,
      RegistryM.toWire (.textual .locale l) (.ofClass Class.locale) policy (Registry.builtInOnly.after history) =
        (.ok w, r) ∧
      ((RegistryM.fromWire w (.ofClass Class.locale) r).1 = .ok (.textual .locale l) ↔ ¬l.Headless) := by
  have htag := parse_tag_eq_ok_iff h
  refine ⟨htag, fun policy history => ?_⟩
  obtain ⟨r, hr, hwrite⟩ := RegistryM.run_toWire (Registry.Bare.after history)
    (Value.textual .locale l).takes_naturalType policy
  refine ⟨_, r, hwrite, ?_⟩
  rw [RegistryM.run_fromWire hr, ← htag]
  exact value_tag_eq_ok_iff _

/-- A tag with all parts. -/
theorem roundTrip_german : ∃ l, parse "DE-latn-de-1996-u-co-phonebk" = .ok l ∧
    l.tag = "de-Latn-DE-1996-u-co-phonebk" ∧ (parse l.tag = .ok l ↔ ¬l.Headless) ∧ parse l.tag = .ok l ∧
    ∃ w r, RegistryM.toWire (.textual .locale l) (.ofClass Class.locale) none (Registry.builtInOnly.after []) =
        (.ok w, r) ∧
      (RegistryM.fromWire w (.ofClass Class.locale) r).1 = .ok (.textual .locale l) := by
  have hread : parse "DE-latn-de-1996-u-co-phonebk" =
      .ok ⟨"de", some "Latn", some "DE", ["1996"], ["u", "co", "phonebk"]⟩ := by decide
  obtain ⟨htag, hwire⟩ := roundTrip_iff hread
  obtain ⟨w, r, hwrite, hback⟩ := hwire none []
  exact ⟨_, hread, by decide, htag, htag.mpr (by decide), w, r, hwrite, hback.mpr (by decide)⟩

/-- The variant of a locale without a language becomes its language. -/
theorem roundTrip_abcde : ∃ l, parse "und-abcde-x-foo" = .ok l ∧ l.variants = ["abcde"] ∧
    l.tag = "abcde-x-foo" ∧ parse l.tag = .ok ⟨"abcde", none, none, [], ["x", "foo"]⟩ ∧ parse l.tag ≠ .ok l := by
  have hread : parse "und-abcde-x-foo" = .ok ⟨"", none, none, ["abcde"], ["x", "foo"]⟩ := by decide
  exact ⟨_, hread, rfl, by decide, by decide, by decide⟩

end Locale

end TypedWire
