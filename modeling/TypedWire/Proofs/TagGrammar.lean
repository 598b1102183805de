import TypedWire.Proofs.LanguageTag

/-! # The grammar of language tags

A tag is a language with a script, a region, variants and a tail behind it, of which each may be missing, or a tail
alone. A tail is a row of extensions, each a singleton with longer subtags, and private use may end it or stand for
it. The reader judges subtags from left to right by their lengths and classes; it accepts just the texts that have
such parts, finds the parts, and does not look at the case of letters. -/

namespace TypedWire
open Text

namespace Locale

/-! ### Forms of subtags -/

section Forms
variable {s : List Char}

theorem isSubtag_iff : isSubtag s = true ↔ s ≠ [] ∧ s.length ≤ 8 ∧ ∀ c ∈ s, isAlphanumeric c = true := by
  simp [isSubtag, and_assoc]

theorem isLanguage_iff : isLanguage s = true ↔
    (s.length = 2 ∨ s.length = 3 ∨ 5 ≤ s.length ∧ s.length ≤ 8) ∧ ∀ c ∈ s, isLetter c = true := by
  simp [isLanguage, and_comm, or_assoc]

theorem isScript_iff : isScript s = true ↔ s.length = 4 ∧ ∀ c ∈ s, isLetter c = true := by
  simp [isScript]

theorem isRegion_iff : isRegion s = true ↔
    (s.length = 2 ∧ ∀ c ∈ s, isLetter c = true) ∨ (s.length = 3 ∧ ∀ c ∈ s, isDigit c = true) := by
  simp [isRegion]

theorem isVariant_iff : isVariant s = true ↔
    (5 ≤ s.length ∧ s.length ≤ 8) ∨ (s.length = 4 ∧ ∃ c ∈ s.head?, isDigit c = true) := by
  simp [isVariant, Option.any_eq_true]

theorem isSingleton_iff : isSingleton s = true ↔ s.length = 1 := by
  simp [isSingleton]

theorem isPrivateUse_iff : isPrivateUse s = true ↔ s = ['x'] ∨ s = ['X'] := by
  simp [isPrivateUse]

end Forms

/-! ### Tails -/

/-- What stands at the end of a tag, as it is spelled. -/
inductive Tail where
  | ended
  | privateUse (singleton : List Char) (subtags : List (List Char))
  | extension (singleton : List Char) (subtags : List (List Char)) (rest : Tail)

namespace Tail

def subtags : Tail → List (List Char)
  | ended => []
  | privateUse s ss => s :: ss
  | extension s ss rest => s :: (ss ++ rest.subtags)

/-- Some subtag follows each singleton, and longer ones unless it is the `x` of private use. -/
def WellFormed : Tail → Prop
  | ended => True
  | privateUse s ss => (s = ['x'] ∨ s = ['X']) ∧ ss ≠ []
  | extension s ss rest => (s.length = 1 ∧ ¬(s = ['x'] ∨ s = ['X'])) ∧ (ss ≠ [] ∧ ∀ t ∈ ss, 2 ≤ t.length) ∧
      rest.WellFormed

end Tail

section Tails
variable {s : List Char} {more more' l : List (List Char)} {tail tail' : Tail}

theorem isSingleton_of_isPrivateUse (h : isPrivateUse s = true) : isSingleton s = true := by
  rcases Bool.or_eq_true_iff.mp h with h | h
  · exact beq_iff_eq.mp h ▸ rfl
  · exact beq_iff_eq.mp h ▸ rfl

theorem le_of_not_isSingleton (hs : isSubtag s = true) (h : ¬isSingleton s = true) : 2 ≤ s.length := by
  have hone : s.length ≠ 1 := fun he => h (beq_iff_eq.mpr he)
  have hpos : s ≠ [] := by
    rintro rfl
    cases hs
  have hlength := List.length_pos_iff.mpr hpos
  omega

theorem not_isSingleton_of_le (h : 2 ≤ s.length) : isSingleton s = false :=
  beq_eq_false_iff_ne.mpr (by omega)

theorem Tail.WellFormed.isSingleton_of_head (h : tail.WellFormed) : ∀ s ∈ tail.subtags.head?, isSingleton s = true := by
  cases tail with
  | ended => nofun
  | privateUse s ss => exact fun t ht => Option.some.inj ht ▸ isSingleton_of_isPrivateUse (isPrivateUse_iff.mpr h.1)
  | extension s ss rest => exact fun t ht => Option.some.inj ht ▸ isSingleton_iff.mpr h.1.1

/-- What is accepted, behind a singleton or not, are longer subtags and then a tail. -/
theorem extensionsFrom_iff (hsub : ∀ s ∈ l, isSubtag s = true) (opened : Bool) : extensionsFrom opened l = true ↔
    ∃ (more : List (List Char)) (tail : Tail), l = more ++ tail.subtags ∧ tail.WellFormed ∧
      (∀ s ∈ more, 2 ≤ s.length) ∧ (opened = true → more ≠ []) := by
  induction l generalizing opened with
  | nil =>
    cases opened with
    | false => exact iff_of_true rfl ⟨[], .ended, rfl, trivial, by simp, by simp⟩
    | true =>
      refine iff_of_false Bool.false_ne_true ?_
      rintro ⟨more, tail, hl, -, -, hne⟩
      exact hne rfl (List.append_eq_nil_iff.mp hl.symm).1
  | cons s rest ih =>
    obtain ⟨hs, hrest⟩ := List.forall_mem_cons.mp hsub
    rw [extensionsFrom]
    constructor
    · intro h
      split at h
      · next hsingle =>
        obtain ⟨hopened, h⟩ := Bool.and_eq_true_iff.mp h
        have hclosed : opened = false := by simpa using hopened
        split at h
        · next hprivate =>
          have hne : rest ≠ [] := by simpa using h
          exact ⟨[], .privateUse s rest, rfl, ⟨isPrivateUse_iff.mp hprivate, hne⟩, by simp, by simp [hclosed]⟩
        · next hprivate =>
          obtain ⟨more, tail, rfl, htail, hmore, hne⟩ := (ih hrest true).mp h
          exact ⟨[], .extension s more tail, rfl,
            ⟨⟨isSingleton_iff.mp hsingle, mt isPrivateUse_iff.mpr hprivate⟩, ⟨hne rfl, hmore⟩, htail⟩, by simp,
            by simp [hclosed]⟩
      · next hsingle =>
        obtain ⟨more, tail, rfl, htail, hmore, -⟩ := (ih hrest false).mp h
        exact ⟨s :: more, tail, rfl, htail, List.forall_mem_cons.mpr ⟨le_of_not_isSingleton hs hsingle, hmore⟩, by simp⟩
    · rintro ⟨more, tail, hl, htail, hmore, hne⟩
      cases more with
      | cons t more =>
        obtain ⟨rfl, rfl⟩ := List.cons.inj hl
        obtain ⟨ht, hmore⟩ := List.forall_mem_cons.mp hmore
        rw [not_isSingleton_of_le ht]
        exact (ih hrest false).mpr ⟨more, tail, rfl, htail, hmore, by simp⟩
      | nil =>
        have hclosed : opened = false := Bool.eq_false_iff.mpr fun ho => hne ho rfl
        cases tail with
        | ended => cases hl
        | privateUse x ss =>
          obtain ⟨rfl, rfl⟩ := List.cons.inj hl
          have hsome : (!rest.isEmpty) = true := by simpa using htail.2
          have hprivate := isPrivateUse_iff.mpr htail.1
          rw [if_pos (isSingleton_of_isPrivateUse hprivate), hprivate, hclosed]
          exact hsome
        | extension x ss tail =>
          obtain ⟨rfl, rfl⟩ := List.cons.inj hl
          obtain ⟨⟨hsingle, hother⟩, ⟨hne, hmore⟩, htail⟩ := htail
          have hprivate : isPrivateUse s = false := Bool.eq_false_iff.mpr (mt isPrivateUse_iff.mp hother)
          rw [if_pos (isSingleton_iff.mpr hsingle), hprivate, hclosed]
          exact (ih hrest true).mpr ⟨ss, tail, rfl, htail, hmore, fun _ => hne⟩

/-- Extensions are a tail that is not empty. -/
theorem areExtensions_iff (hsub : ∀ s ∈ l, isSubtag s = true) : areExtensions l = true ↔
    l ≠ [] ∧ ∃ tail : Tail, tail.WellFormed ∧ l = tail.subtags := by
  rw [areExtensions, Bool.and_eq_true, extensionsFrom_iff hsub]
  constructor
  · rintro ⟨hhead, more, tail, rfl, htail, hmore, -⟩
    cases more with
    | nil =>
      refine ⟨?_, tail, htail, rfl⟩
      intro hnil
      rw [hnil] at hhead
      cases hhead
    | cons s more =>
      have hsingle : isSingleton s = true := hhead
      rw [not_isSingleton_of_le (List.forall_mem_cons.mp hmore).1] at hsingle
      cases hsingle
  · rintro ⟨hne, tail, htail, rfl⟩
    refine ⟨?_, [], tail, rfl, htail, by simp, by simp⟩
    cases hsubtags : tail.subtags with
    | nil => exact absurd hsubtags hne
    | cons s rest => exact htail.isSingleton_of_head s (by rw [hsubtags]; rfl)

/-- Longer subtags end where a tail begins. -/
theorem eq_of_append_subtags (hmore : ∀ s ∈ more, 2 ≤ s.length) (hmore' : ∀ s ∈ more', 2 ≤ s.length)
    (h : tail.WellFormed) (h' : tail'.WellFormed) (he : more ++ tail.subtags = more' ++ tail'.subtags) :
    more = more' ∧ tail.subtags = tail'.subtags := by
  have hspan {more : List (List Char)} {tail : Tail} (hmore : ∀ s ∈ more, 2 ≤ s.length) (h : tail.WellFormed) :
      (more ++ tail.subtags).takeWhile (!isSingleton ·) = more ∧
      (more ++ tail.subtags).dropWhile (!isSingleton ·) = tail.subtags := by
    have hlong : ∀ s ∈ more, (!isSingleton s) = true := fun s hs => by rw [not_isSingleton_of_le (hmore s hs)]; rfl
    rw [List.takeWhile_append_of_pos hlong, List.dropWhile_append_of_pos hlong]
    cases hsubtags : tail.subtags with
    | nil => simp
    | cons s rest => simp [h.isSingleton_of_head s (by rw [hsubtags]; rfl)]
  obtain ⟨htake, hdrop⟩ := hspan hmore h
  obtain ⟨htake', hdrop'⟩ := hspan hmore' h'
  rw [he] at htake hdrop
  exact ⟨htake.symm.trans htake', hdrop.symm.trans hdrop'⟩

/-- A tail is told by its subtags. -/
theorem Tail.eq_of_subtags (h : tail.WellFormed) (h' : tail'.WellFormed) (he : tail.subtags = tail'.subtags) :
    tail = tail' := by
  induction tail generalizing tail' with
  | ended =>
    cases tail' with
    | ended => rfl
    | privateUse | extension => cases he
  | privateUse s ss =>
    cases tail' with
    | ended => cases he
    | privateUse =>
      obtain ⟨rfl, rfl⟩ := List.cons.inj he
      rfl
    | extension =>
      obtain ⟨rfl, -⟩ := List.cons.inj he
      exact absurd h.1 h'.1.2
  | extension s ss rest ih =>
    cases tail' with
    | ended => cases he
    | privateUse =>
      obtain ⟨rfl, -⟩ := List.cons.inj he
      exact absurd h'.1 h.1.2
    | extension =>
      obtain ⟨rfl, hsubtags⟩ := List.cons.inj he
      obtain ⟨rfl, hrest⟩ := eq_of_append_subtags h.2.1.2 h'.2.1.2 h.2.2 h'.2.2 hsubtags
      rw [ih h.2.2 h'.2.2 hrest]

end Tails

/-! ### Tags -/

/-- The parts of a tag, as they are spelled. -/
@[ext]
structure Spelling where
  language : Option (List Char)
  script : Option (List Char)
  region : Option (List Char)
  variants : List (List Char)
  tail : Tail

namespace Spelling

/-- What stands behind the language. -/
def parts (g : Spelling) : Parts :=
  ⟨g.script, g.region, g.variants, g.tail.subtags⟩

def subtags (g : Spelling) : List (List Char) :=
  g.language.toList ++ g.parts.subtags

/-- Each part has its form. Where there is no language there is a tail and nothing else. -/
structure WellFormed (g : Spelling) : Prop where
  subtags : ∀ s ∈ g.subtags, s ≠ [] ∧ s.length ≤ 8 ∧ ∀ c ∈ s, isAlphanumeric c = true
  language : ∀ s ∈ g.language,
    (s.length = 2 ∨ s.length = 3 ∨ 5 ≤ s.length ∧ s.length ≤ 8) ∧ ∀ c ∈ s, isLetter c = true
  script : ∀ s ∈ g.script, s.length = 4 ∧ ∀ c ∈ s, isLetter c = true
  region : ∀ s ∈ g.region,
    (s.length = 2 ∧ ∀ c ∈ s, isLetter c = true) ∨ (s.length = 3 ∧ ∀ c ∈ s, isDigit c = true)
  variants : ∀ s ∈ g.variants,
    (5 ≤ s.length ∧ s.length ≤ 8) ∨ (s.length = 4 ∧ ∃ c ∈ s.head?, isDigit c = true)
  tail : g.tail.WellFormed
  alone : g.language = none → g.script = none ∧ g.region = none ∧ g.variants = [] ∧ g.tail ≠ .ended

/-- The parts are those of a text. -/
def Spells (g : Spelling) (t : String) : Prop :=
  g.WellFormed ∧ splitFields '-' t.toList = g.subtags

/-- The locale with these parts, each in its usual case; `und` is no language. -/
def locale (g : Spelling) : Locale where
  language := String.ofList
    (match g.language with
      | none => []
      | some s => if sameLetters s undetermined.toList then [] else lower s)
  script := g.script.map (String.ofList ∘ titleCase)
  region := g.region.map (String.ofList ∘ upper)
  variants := g.variants.map (String.ofList ∘ lower)
  extensions := g.tail.subtags.map (String.ofList ∘ lower)

end Spelling

section Spellings
variable {p p' : Parts} {g g' : Spelling} {l : Locale} {s t : String}

/-- Parts behind a language are told by their subtags. -/
theorem Parts.WellFormed.eq_of_subtags (hp : p.WellFormed) (hp' : p'.WellFormed) (he : p.subtags = p'.subtags) :
    p = p' := by
  have hscript := takeIf_append hp.script hp.not_script_of_head
  have hregion := takeIf_append hp.region hp.not_region_of_head
  have hscript' := takeIf_append hp'.script hp'.not_script_of_head
  have hregion' := takeIf_append hp'.region hp'.not_region_of_head
  obtain ⟨htake, hdrop⟩ := hp.span_variants
  obtain ⟨htake', hdrop'⟩ := hp'.span_variants
  obtain ⟨hs, he⟩ := Prod.mk.inj (hscript.symm.trans ((congrArg _ he).trans hscript'))
  obtain ⟨hr, he⟩ := Prod.mk.inj (hregion.symm.trans ((congrArg _ he).trans hregion'))
  have hv := htake.symm.trans ((congrArg _ he).trans htake')
  have hx := hdrop.symm.trans ((congrArg _ he).trans hdrop')
  cases p
  cases p'
  exact Parts.mk.injEq .. ▸ ⟨hs, hr, hv, hx⟩

theorem Tail.subtags_eq_nil_iff {tail : Tail} : tail.subtags = [] ↔ tail = .ended := by
  cases tail with
  | ended => exact iff_of_true rfl rfl
  | privateUse | extension => exact iff_of_false nofun nofun

namespace Spelling.WellFormed

theorem areSubtags (hg : g.WellFormed) : ∀ s ∈ g.subtags, isSubtag s = true :=
  fun s hs => isSubtag_iff.mpr (hg.subtags s hs)

theorem parts (hg : g.WellFormed) : g.parts.WellFormed where
  script := fun s hs => isScript_iff.mpr (hg.script s hs)
  region := fun s hs => isRegion_iff.mpr (hg.region s hs)
  variants := fun s hs => isVariant_iff.mpr (hg.variants s hs)
  extensions := by
    by_cases hnil : g.tail.subtags = []
    · exact Or.inl hnil
    · have hsub : ∀ s ∈ g.tail.subtags, isSubtag s = true := fun s hs => hg.areSubtags s (by
        simp only [Spelling.subtags, Spelling.parts, Parts.subtags, List.mem_append]
        exact Or.inr (Or.inr (Or.inr (Or.inr hs))))
      exact Or.inr ((areExtensions_iff hsub).mpr ⟨hnil, _, hg.tail, rfl⟩)

/-- A tag without a language is a tail and nothing else, so it begins with a singleton. -/
theorem subtags_of_alone (hg : g.WellFormed) (hnone : g.language = none) :
    g.subtags = g.tail.subtags ∧ g.tail.subtags ≠ [] := by
  obtain ⟨hscript, hregion, hvariants, htail⟩ := hg.alone hnone
  refine ⟨?_, fun h => htail (Tail.subtags_eq_nil_iff.mp h)⟩
  rw [Spelling.subtags, Spelling.parts, Parts.subtags, hnone, hscript, hregion, hvariants]
  rfl

theorem isSingleton_of_alone (hg : g.WellFormed) (hnone : g.language = none) :
    ∃ s rest, g.subtags = s :: rest ∧ isSingleton s = true := by
  obtain ⟨hsubtags, hne⟩ := hg.subtags_of_alone hnone
  obtain ⟨s, rest, hcons⟩ := List.exists_cons_of_ne_nil hne
  exact ⟨s, rest, hsubtags.trans hcons, hg.tail.isSingleton_of_head s (by rw [hcons]; rfl)⟩

theorem subtags_of_language {first : List Char} (hsome : g.language = some first) :
    g.subtags = first :: g.parts.subtags := by
  rw [Spelling.subtags, hsome]
  rfl

/-- A tag has its parts in one way. -/
theorem eq_of_subtags (hg : g.WellFormed) (hg' : g'.WellFormed) (he : g.subtags = g'.subtags) : g = g' := by
  have hmixed {h h' : Spelling} {first : List Char} (hh : h.WellFormed) (hh' : h'.WellFormed)
      (hsome : h.language = some first) (hnone : h'.language = none) : h.subtags ≠ h'.subtags := by
    obtain ⟨s, rest, hsubtags, hsingle⟩ := hh'.isSingleton_of_alone hnone
    rw [subtags_of_language hsome, hsubtags]
    rintro ⟨⟩
    have hlanguage := isLanguage_iff.mpr (hh.language first hsome)
    rw [(not_form_of_singleton hsingle).2.2.2] at hlanguage
    cases hlanguage
  have hparts : g.language = g'.language ∧ g.parts = g'.parts := by
    cases hlanguage : g.language with
    | none =>
      cases hlanguage' : g'.language with
      | none =>
        refine ⟨rfl, hg.parts.eq_of_subtags hg'.parts ?_⟩
        rwa [Spelling.subtags, Spelling.subtags, hlanguage, hlanguage'] at he
      | some first => exact absurd he.symm (hmixed hg' hg hlanguage' hlanguage)
    | some first =>
      cases hlanguage' : g'.language with
      | none => exact absurd he (hmixed hg hg' hlanguage hlanguage')
      | some first' =>
        rw [subtags_of_language hlanguage, subtags_of_language hlanguage'] at he
        obtain ⟨rfl, hsubtags⟩ := List.cons.inj he
        exact ⟨rfl, hg.parts.eq_of_subtags hg'.parts hsubtags⟩
  obtain ⟨hlanguage, hparts⟩ := hparts
  obtain ⟨hscript, hregion, hvariants, htail⟩ := Parts.mk.inj hparts
  exact Spelling.ext hlanguage hscript hregion hvariants (Tail.eq_of_subtags hg.tail hg'.tail htail)

end Spelling.WellFormed

end Spellings

/-! ### Reading by the grammar -/

section Reading
variable {l : Locale} {subtags : List (List Char)} {s t : String}

theorem ofSubtags_eq_ok_iff_spelling (hne : subtags ≠ []) : ofSubtags subtags = .ok l ↔
    ∃ g : Spelling, g.WellFormed ∧ subtags = g.subtags ∧ l = g.locale := by
  rw [ofSubtags_eq_ok_iff hne]
  constructor
  · rintro ⟨hsub, ⟨hext, rfl⟩ | ⟨first, p, hfirst, hp, rfl, rfl⟩⟩
    · obtain ⟨-, tail, htail, rfl⟩ := (areExtensions_iff hsub).mp hext
      refine ⟨⟨none, none, none, [], tail⟩,
        ⟨fun s hs => isSubtag_iff.mp (hsub s hs), by simp, by simp, by simp, by simp, htail, fun _ => ?_⟩, rfl, rfl⟩
      exact ⟨rfl, rfl, rfl, fun h => hne (Tail.subtags_eq_nil_iff.mpr h)⟩
    · obtain ⟨tail, htail, hsubtags⟩ : ∃ tail : Tail, tail.WellFormed ∧ p.extensions = tail.subtags := by
        rcases hp.extensions with hnil | hext
        · exact ⟨.ended, trivial, hnil⟩
        · refine ((areExtensions_iff fun s hs => hsub s ?_).mp hext).2
          simp only [Parts.subtags, List.mem_cons, List.mem_append]
          exact Or.inr (Or.inr (Or.inr (Or.inr hs)))
      obtain ⟨script, region, variants, extensions⟩ := p
      obtain rfl : extensions = tail.subtags := hsubtags
      refine ⟨⟨some first, script, region, variants, tail⟩, ?_, rfl, rfl⟩
      exact {
        subtags := fun s hs => isSubtag_iff.mp (hsub s hs)
        language := fun s hs => Option.some.inj hs ▸ isLanguage_iff.mp hfirst
        script := fun s hs => isScript_iff.mp (hp.script s hs)
        region := fun s hs => isRegion_iff.mp (hp.region s hs)
        variants := fun s hs => isVariant_iff.mp (hp.variants s hs)
        tail := htail
        alone := by simp }
  · rintro ⟨g, hg, rfl, rfl⟩
    refine ⟨hg.areSubtags, ?_⟩
    cases hlanguage : g.language with
    | none =>
      obtain ⟨hsubtags, hnil⟩ := hg.subtags_of_alone hlanguage
      obtain ⟨hscript, hregion, hvariants, -⟩ := hg.alone hlanguage
      refine Or.inl ⟨(areExtensions_iff hg.areSubtags).mpr ⟨hne, g.tail, hg.tail, hsubtags⟩, ?_⟩
      rw [hsubtags, Spelling.locale, hlanguage, hscript, hregion, hvariants]
      rfl
    | some first =>
      refine Or.inr ⟨first, g.parts, isLanguage_iff.mpr (hg.language first hlanguage), hg.parts,
        Spelling.WellFormed.subtags_of_language hlanguage, ?_⟩
      rw [Spelling.locale, hlanguage]
      rfl

/-- The text `und` in any case is read by its one subtag as well. -/
theorem parse_eq_ok_iff_ofSubtags (hne : t ≠ "") :
    parse t = .ok l ↔ ofSubtags (splitFields '-' t.toList) = .ok l := by
  have hchars : t.toList.isEmpty = false :=
    List.isEmpty_eq_false_iff.mpr fun h => hne (String.toList_eq_nil_iff.mp h)
  unfold parse
  dsimp only
  rw [hchars, Bool.false_or]
  split
  · next hund =>
    have hclasses : classes t.toList = classes undetermined.toList := by
      rw [← classes_lower, beq_iff_eq.mp hund, classes_lower]
    have hlanguage : isLanguage t.toList = true := (isLanguage_congr hclasses).trans (by decide)
    have hsub := isSubtag_of_isLanguage hlanguage
    have hread : ofSubtags [t.toList] = .ok root := by
      refine (ofSubtags_eq_ok_iff (List.cons_ne_nil _ _)).mpr ⟨by simpa using hsub, Or.inr
        ⟨t.toList, ⟨none, none, [], []⟩, hlanguage, ⟨by simp, by simp, by simp, Or.inl rfl⟩, rfl, ?_⟩⟩
      rw [Parts.locale, hund]
      rfl
    rw [splitFields_of_not_mem (hyphen_not_mem_of_isSubtag hsub), hread, Except.ok.injEq, Except.ok.injEq]
  · cases ofSubtags (splitFields '-' t.toList) with
    | ok l' => rw [Except.mapError, Except.ok.injEq, Except.ok.injEq]
    | error bad => simp [Except.mapError]

end Reading

/-! ### Letter case -/

section LetterCase
variable {p : List Char → Bool} {l : List (List Char)} {s t : List Char}

theorem titleCase_lower (s : List Char) : titleCase (lower s) = titleCase s := by
  have htake (n : Nat) : (lower s).take n = lower (s.take n) := List.map_take.symm
  have hdrop (n : Nat) : (lower s).drop n = lower (s.drop n) := List.map_drop.symm
  rw [titleCase, titleCase, htake, hdrop, upper_lower, lower_lower]

theorem takeIf_lower (hp : ∀ s, p (lower s) = p s) (l : List (List Char)) :
    takeIf p (l.map lower) = ((takeIf p l).1.map lower, (takeIf p l).2.map lower) := by
  cases l with
  | nil => rfl
  | cons s rest =>
    rw [List.map_cons, takeIf, takeIf, hp]
    split <;> rfl

theorem splitFields_lower (cs : List Char) : splitFields '-' (lower cs) = (splitFields '-' cs).map lower := by
  have hhyphen (c : Char) : c.toLower = '-' ↔ c = '-' := by
    rw [← Char.toNat_inj, ← Char.toNat_inj, toNat_toLower]
    show ite _ _ _ = 45 ↔ c.toNat = 45
    split <;> omega
  induction cs with
  | nil => rfl
  | cons c cs ih =>
    show splitFields '-' (c.toLower :: lower cs) = _
    rw [splitFields, splitFields, ih]
    by_cases hc : c = '-'
    · rw [if_pos hc, if_pos ((hhyphen c).mpr hc)]
      rfl
    · rw [if_neg hc, if_neg fun h => hc ((hhyphen c).mp h)]
      cases splitFields '-' cs with
      | nil => rfl
      | cons field rest => rfl

/-- What follows a language is the same locale in lower case, or is refused as well. -/
theorem afterLanguage_lower (first : List Char) (l : List (List Char)) :
    (afterLanguage (lower first) (l.map lower)).toOption = (afterLanguage first l).toOption := by
  have hscript := takeIf_lower (fun s => isScript_congr (classes_lower s)) l
  have hregion := takeIf_lower (fun s => isRegion_congr (classes_lower s)) (takeIf isScript l).2
  have hvariant : isVariant ∘ lower = isVariant := funext fun s => isVariant_congr (classes_lower s)
  have htitle : (String.ofList ∘ titleCase) ∘ lower = String.ofList ∘ titleCase :=
    funext fun s => congrArg String.ofList (titleCase_lower s)
  have hupper : (String.ofList ∘ upper) ∘ lower = String.ofList ∘ upper :=
    funext fun s => congrArg String.ofList (upper_lower s)
  have hlower : (String.ofList ∘ lower) ∘ lower = String.ofList ∘ lower :=
    funext fun s => congrArg String.ofList (lower_lower s)
  unfold afterLanguage
  simp only [hscript, hregion, List.takeWhile_map, List.dropWhile_map, hvariant, Option.map_map, List.map_map, htitle,
    hupper, hlower, sameLetters_lower, lower_lower]
  cases (takeIf isRegion (takeIf isScript l).2).2.dropWhile isVariant with
  | nil => rfl
  | cons s rest =>
    have hext : areExtensions (lower s :: rest.map lower) = areExtensions (s :: rest) := areExtensions_lower (s :: rest)
    simp only [List.map_cons, hext]
    split <;> rfl

theorem ofSubtags_lower (l : List (List Char)) : (ofSubtags (l.map lower)).toOption = (ofSubtags l).toOption := by
  have hsubtag (s : List Char) : isSubtag (lower s) = isSubtag s := isSubtag_congr (classes_lower s)
  have hfind : (l.map lower).find? (!isSubtag ·) = (l.find? (!isSubtag ·)).map lower := by
    rw [List.find?_map]
    exact congrArg (fun q => (l.find? q).map lower) (funext fun s => congrArg (! ·) (hsubtag s))
  have hlower : (String.ofList ∘ lower) ∘ lower = String.ofList ∘ lower :=
    funext fun s => congrArg String.ofList (lower_lower s)
  unfold ofSubtags
  rw [hfind]
  cases l.find? (!isSubtag ·) with
  | some bad => rfl
  | none =>
    cases l with
    | nil => rfl
    | cons first rest =>
      have hext : areExtensions (lower first :: rest.map lower) = areExtensions (first :: rest) :=
        areExtensions_lower (first :: rest)
      have hlanguage : isLanguage (lower first) = isLanguage first := isLanguage_congr (classes_lower first)
      simp only [Option.map_none, List.map_cons, isSingleton_lower, hext, hlanguage]
      split
      · split
        · simp [Except.toOption, lower_lower, Function.comp_def]
        · rfl
      · split
        · exact afterLanguage_lower first rest
        · rfl

theorem parse_lower (t : String) : (parse (String.ofList (lower t.toList))).toOption = (parse t).toOption := by
  have hempty : (lower t.toList).isEmpty = t.toList.isEmpty := List.isEmpty_map
  have hmap {α β γ : Type} (x : Except α γ) (f : α → β) : (x.mapError f).toOption = x.toOption := by
    cases x <;> rfl
  unfold parse
  dsimp only
  rw [String.toList_ofList, hempty, sameLetters_lower]
  split
  · rfl
  · rw [hmap, hmap, splitFields_lower, ofSubtags_lower]

end LetterCase

/-- A text is read exactly if it is empty or has parts by the grammar. It has them in one way, and the locale holds
    just these; the case of its letters makes no difference. -/
theorem read_by_grammar (t : String) :
    (∀ l, parse t = .ok l ↔ t = "" ∧ l = root ∨ ∃ g : Spelling, g.Spells t ∧ l = g.locale) ∧
    (∀ g g' : Spelling, g.Spells t → g'.Spells t → g = g') ∧
    ∀ t' : String, sameLetters t.toList t'.toList = true → (parse t).toOption = (parse t').toOption := by
  refine ⟨fun l => ?_, fun g g' hg hg' => ?_, fun t' h => ?_⟩
  · by_cases hne : t = ""
    · subst hne
      have hnot : ¬∃ g : Spelling, g.Spells "" ∧ l = g.locale := by
        rintro ⟨g, ⟨hg, hfields⟩, -⟩
        have hmem : ([] : List Char) ∈ g.subtags := hfields ▸ List.mem_singleton.mpr rfl
        exact absurd (hg.subtags [] hmem) (by decide)
      rw [or_iff_left hnot, and_iff_right rfl]
      exact ⟨fun h => (Except.ok.inj h).symm, fun h => congrArg Except.ok h.symm⟩
    · rw [parse_eq_ok_iff_ofSubtags hne, ofSubtags_eq_ok_iff_spelling (splitFields_ne_nil _ _),
        or_iff_right fun h => hne h.1]
      exact exists_congr fun g => and_assoc.symm
  · exact hg.1.eq_of_subtags hg'.1 (hg.2.symm.trans hg'.2)
  · rw [← parse_lower t, ← parse_lower t', beq_iff_eq.mp h]

/-- A tag with all parts and private use, in two spellings. -/
theorem read_by_grammar_swiss :
    let g : Spelling := ⟨some "DE".toList, some "latn".toList, some "ch".toList, ["1996".toList],
      .extension ['u'] ["co".toList, "phonebk".toList] (.privateUse ['X'] ["y".toList])⟩
    g.Spells "DE-latn-ch-1996-u-co-phonebk-X-y" ∧
    parse "DE-latn-ch-1996-u-co-phonebk-X-y" = .ok g.locale ∧
    g.locale = ⟨"de", some "Latn", some "CH", ["1996"], ["u", "co", "phonebk", "x", "y"]⟩ ∧
    (∀ g', g'.Spells "DE-latn-ch-1996-u-co-phonebk-X-y" → g = g') ∧
    (parse "DE-latn-ch-1996-u-co-phonebk-X-y").toOption = (parse "de-LATN-CH-1996-U-CO-phonebk-x-Y").toOption := by
  intro g
  have hspells : g.Spells "DE-latn-ch-1996-u-co-phonebk-X-y" := by
    have hsubtags : ∀ s ∈ g.subtags, isSubtag s = true := by decide
    have hvariants : ∀ s ∈ g.variants, isVariant s = true := by decide
    refine ⟨⟨fun s hs => isSubtag_iff.mp (hsubtags s hs), ?_, ?_, ?_, fun s hs => isVariant_iff.mp (hvariants s hs), ?_,
      nofun⟩, by decide⟩
    · rintro s ⟨⟩
      exact isLanguage_iff.mp (by decide)
    · rintro s ⟨⟩
      exact isScript_iff.mp (by decide)
    · rintro s ⟨⟩
      exact isRegion_iff.mp (by decide)
    · exact ⟨by decide, by decide, by decide, by decide⟩
  obtain ⟨hread, hone, hcase⟩ := read_by_grammar "DE-latn-ch-1996-u-co-phonebk-X-y"
  exact ⟨hspells, (hread _).mpr (Or.inr ⟨g, hspells, rfl⟩), by decide, fun g' => hone g g' hspells, hcase _ (by decide)⟩

end Locale

end TypedWire
