import TypedWire.Proofs.EventGrammar
import TypedWire.Proofs.ReadTree

/-! # Copying trees

A decoder is asked for all that its tree holds: it enters an array and takes an item as long as there is another one,
enters an object and takes a value behind each key until there is no key left, leaves both, and takes a leaf by the
request for leaves of its own carrier. What it gives, told to an encoder in the same order, builds the same tree again.

The decoder gives the events of the tree wherever it stands before it, and stands behind the tree then; the encoder that
is told them has one finished value more, wherever a value may be written. So neither depends on the scopes around. -/

namespace TypedWire

/-! ### Asking for a tree -/

namespace DecoderM

/-- Takes a leaf by the request for leaves of the same carrier. -/
def leafLike : Leaf → DecoderM Leaf
  | .null => do
    if ← takeNull then return .null
    throw .unexpectedEnd
  | .boolean _ => Leaf.ofScalar .boolean <$> scalar .boolean
  | .integer _ => Leaf.ofScalar .long <$> scalar .long
  | .float _ => Leaf.ofScalar .double <$> scalar .double
  | .bigInteger _ => Leaf.bigInteger <$> bigInteger
  | .bigDecimal _ => Leaf.bigDecimal <$> bigDecimal
  | .string _ => Leaf.string <$> string

/-- The events of the items that are left of the innermost array. -/
def itemEvents (item : DecoderM (List WireEvent)) : Nat → DecoderM (List WireEvent)
  | 0 => throw .unexpectedEnd
  | n + 1 => do
    if ← hasNext then
      let first ← item
      return first ++ (← itemEvents item n)
    else return []

/-- The events of the members that are left of the innermost object. -/
def memberEvents (member : DecoderM (List WireEvent)) : Nat → DecoderM (List WireEvent)
  | 0 => throw .unexpectedEnd
  | n + 1 => do
    match ← nextKey with
    | some key =>
      let first ← member
      return .key key :: first ++ (← memberEvents member n)
    | none => return []

/-- The events of the tree that is next; `part` gives those of what a scope holds. -/
def eventsBy (part : DecoderM (List WireEvent)) : DecoderM (List WireEvent) := do
  match ← peek with
  | .leaf l => return [.leaf (← leafLike l)]
  | .array _ => do
    openArray
    let inside ← itemEvents part ((← remaining) + 1)
    close
    return .openArray :: inside ++ [.close]
  | .object _ => do
    openObject
    let inside ← memberEvents part ((← remaining) + 1)
    close
    return .openObject :: inside ++ [.close]

/-- The events of the tree that is next, through so many nested scopes at most. -/
def eventsWithin : Nat → DecoderM (List WireEvent)
  | 0 => eventsBy (throw .unexpectedEnd)
  | depth + 1 => eventsBy (eventsWithin depth)

/-- The events of the tree that is next, through as many scopes as it has. -/
def events : DecoderM (List WireEvent) := do
  eventsWithin (← peek).depth

end DecoderM

/-! ### The events of a tree -/

namespace Wire

mutual
def events : Wire → List WireEvent
  | leaf l => [.leaf l]
  | array items => .openArray :: itemEvents items ++ [.close]
  | object members => .openObject :: memberEvents members ++ [.close]

def itemEvents : List Wire → List WireEvent
  | [] => []
  | w :: ws => events w ++ itemEvents ws

def memberEvents : List (String × Wire) → List WireEvent
  | [] => []
  | (key, w) :: ms => .key key :: events w ++ memberEvents ms
end

end Wire

theorem Members.Settles.of_distinct {α : Type} {members : Members α} (h : Distinct members) :
    Settles members members := by
  induction members using List.reverseRecOn with
  | nil => exact .nil
  | append_singleton ms m ih =>
    obtain ⟨key, value⟩ := m
    have hkeys : (keys ms ++ [key]).Nodup := by
      rw [Distinct, keys, List.map_append] at h
      exact h
    obtain ⟨hms, -, hfresh⟩ := List.nodup_append.mp hkeys
    have hinsert : insert key value ms = ms ++ [(key, value)] :=
      insert_of_not_mem fun hk => hfresh key hk key (List.mem_singleton_self key) rfl
    exact hinsert ▸ (ih hms).concat key value

namespace Wire

mutual
/-- The events of a tree spell the tree. -/
theorem spells_events : ∀ w : Wire, w.WellFormed → Spells w.events w
  | leaf l, _ => .leaf l
  | array items, h => .array (spells_itemEvents items h)
  | object members, h => .object (spells_memberEvents members h.2) (.of_distinct h.1)

theorem spells_itemEvents : ∀ items : List Wire, WellFormedItems items → SpellsItems (itemEvents items) items
  | [], _ => .nil
  | w :: ws, h => .cons (spells_events w h.1) (spells_itemEvents ws h.2)

theorem spells_memberEvents : ∀ members : List (String × Wire), WellFormedMembers members →
    SpellsWrites (memberEvents members) members
  | [], _ => .nil
  | (_, w) :: ms, h => .cons (spells_events w h.1) (spells_memberEvents ms h.2)
end

end Wire

/-! ### What a decoder gives -/

namespace DecoderM
variable {d : Decoder} {w : Wire} {part : DecoderM (List WireEvent)}

theorem gives_leafLike {l : Leaf} (hw : d.current = .ok (.leaf l)) : Gives (leafLike l) d (.ok l) (· = d.drop) := by
  cases l with
  | null => exact .after (run_takeNull hw) (.pure rfl)
  | boolean b | integer n | float x | bigInteger n | bigDecimal x | string s => exact (gives_takeWith hw _).map

/-- The events of a tree are given where the decoder stands before it, and the decoder stands behind it then. -/
def GivesEvents (part : DecoderM (List WireEvent)) (w : Wire) : Prop :=
  ∀ d, d.current = .ok w → Gives part d (.ok w.events) (· = d.drop)

theorem gives_itemEvents (items : List Wire) (hpart : ∀ w ∈ items, GivesEvents part w) {n : Nat}
    (hn : items.length < n) (d : Decoder) :
    Gives (itemEvents part n) (d.enter (.array items)) (.ok (Wire.itemEvents items)) (· = d.enter (.array [])) := by
  induction items generalizing n with
  | nil =>
    obtain ⟨n, rfl⟩ := Nat.exists_eq_succ_of_ne_zero (Nat.ne_zero_of_lt hn)
    exact .of_eq rfl fun _ _ => rfl
  | cons w ws ih =>
    obtain ⟨n, rfl⟩ := Nat.exists_eq_succ_of_ne_zero (Nat.ne_zero_of_lt hn)
    obtain ⟨hw, hws⟩ := List.forall_mem_cons.mp hpart
    have hmore : hasNext (d.enter (.array (w :: ws))) = (.ok true, d.enter (.array (w :: ws))) := rfl
    refine .after hmore ((hw _ rfl).andThen fun d' hd => ?_)
    rw [hd]
    exact (ih hws (Nat.lt_of_succ_lt_succ hn)).andThen fun d' hd => .pure hd

theorem gives_memberEvents (members : List (String × Wire)) (hpart : ∀ m ∈ members, GivesEvents part m.2) {n : Nat}
    (hn : members.length < n) (d : Decoder) :
    Gives (memberEvents part n) (d.enter (.object members none)) (.ok (Wire.memberEvents members))
      (· = d.enter (.object [] none)) := by
  induction members generalizing n with
  | nil =>
    obtain ⟨n, rfl⟩ := Nat.exists_eq_succ_of_ne_zero (Nat.ne_zero_of_lt hn)
    exact .of_eq rfl fun _ _ => rfl
  | cons m ms ih =>
    obtain ⟨n, rfl⟩ := Nat.exists_eq_succ_of_ne_zero (Nat.ne_zero_of_lt hn)
    obtain ⟨key, w⟩ := m
    obtain ⟨hw, hms⟩ := List.forall_mem_cons.mp hpart
    have hkey : nextKey (d.enter (.object ((key, w) :: ms) none)) = (.ok (some key), d.enter (.object ms (some w))) := rfl
    refine .after hkey ((hw _ rfl).andThen fun d' hd => ?_)
    rw [hd]
    exact (ih hms (Nat.lt_of_succ_lt_succ hn)).andThen fun d' hd => .pure hd

theorem givesEvents_eventsBy (hitems : ∀ items, w = .array items → ∀ w' ∈ items, GivesEvents part w')
    (hmembers : ∀ members, w = .object members → ∀ m ∈ members, GivesEvents part m.2) :
    GivesEvents (eventsBy part) w := by
  intro d hw
  have hpeek : peek d = (.ok w, d) := by rw [peek, hw]
  refine .after hpeek ?_
  cases w with
  | leaf l => exact (gives_leafLike hw).andThen fun d' hd => .pure hd
  | array items =>
    have hcount : remaining (d.drop.enter (.array items)) = (.ok items.length, d.drop.enter (.array items)) := rfl
    refine .after (run_openArray hw) (.after hcount ?_)
    refine (gives_itemEvents items (hitems items rfl) (Nat.lt_succ_self _) d.drop).andThen fun d' hd => ?_
    exact .after (hd ▸ run_close d.drop) (.pure rfl)
  | object members =>
    have hcount : remaining (d.drop.enter (.object members none)) =
        (.ok members.length, d.drop.enter (.object members none)) := rfl
    have hclose : close (d.drop.enter (.object [] none)) = (.ok (), d.drop) := rfl
    refine .after (run_openObject hw) (.after hcount ?_)
    refine (gives_memberEvents members (hmembers members rfl) (Nat.lt_succ_self _) d.drop).andThen fun d' hd => ?_
    exact .after (hd ▸ hclose) (.pure rfl)

theorem givesEvents_eventsWithin {n : Nat} (hn : w.depth ≤ n) : GivesEvents (eventsWithin n) w := by
  -- Every scope that is entered takes one from the bound, and the parts are no deeper than what is left.
  induction n generalizing w with
  | zero =>
    refine givesEvents_eventsBy ?_ ?_
    · rintro items rfl
      simp [Wire.depth] at hn
    · rintro members rfl
      simp [Wire.depth] at hn
  | succ n ih =>
    refine givesEvents_eventsBy ?_ ?_
    · rintro items rfl w' hw'
      have hdepth := ReadM.depth_le_of_mem_items hw'
      rw [Wire.depth] at hn
      exact ih (by omega)
    · rintro members rfl m hm
      have hdepth := ReadM.depth_le_of_mem_members hm
      rw [Wire.depth] at hn
      exact ih (by omega)

theorem givesEvents_events (w : Wire) : GivesEvents events w := by
  intro d hw
  have hpeek : peek d = (.ok w, d) := by rw [peek, hw]
  exact .after hpeek (givesEvents_eventsWithin (Nat.le_refl _) d hw)

end DecoderM

/-! ### The copy -/

/-- A decoder of a tree gives its events without a failure, and nothing is left then; an encoder that is told these
    events, in their order, refuses none, and has the same tree in the end, with the members of all objects in the same
    order. -/
theorem Wire.copied {w : Wire} (hw : w.WellFormed) :
    ∃ events behind, DecoderM.events (.ofWire w) = (.ok events, behind) ∧ behind.finish = .ok () ∧
      (∀ answer ∈ (Encoder.start.run events).1, answer = .ok ()) ∧ (Encoder.start.run events).2.finish = .ok w := by
  obtain ⟨behind, hevents, hbehind⟩ := DecoderM.givesEvents_events w (.ofWire w) rfl
  obtain ⟨hallowed, hend⟩ := Encoder.allows_of_spells (w.spells_events hw) (e := .start) rfl
  refine ⟨w.events, behind, hevents, ?_, hallowed, ?_⟩
  · rw [hbehind _ rfl]
    rfl
  · rw [hend]
    rfl

/-- An object whose keys are in no order, with an array that mixes carriers. -/
theorem Wire.copied_object :
    let w : Wire := .object [("b", .array [.leaf (.bigInteger 7), .leaf (.integer 7), .leaf .null]), ("a", .object [])]
    w.WellFormed ∧ ∃ behind,
      DecoderM.events (.ofWire w) = (.ok [.openObject, .key "b", .openArray, .leaf (.bigInteger 7), .leaf (.integer 7),
        .leaf .null, .close, .key "a", .openObject, .close, .close], behind) ∧
      behind.finish = .ok () ∧
      (Encoder.start.run [.openObject, .key "b", .openArray, .leaf (.bigInteger 7), .leaf (.integer 7),
        .leaf .null, .close, .key "a", .openObject, .close, .close]).2.finish = .ok w := by
  intro w
  have hkeys : ["b", "a"].Nodup := by decide
  have hw : w.WellFormed := ⟨hkeys, ⟨trivial, trivial, trivial, trivial⟩, ⟨List.nodup_nil, trivial⟩, trivial⟩
  obtain ⟨events, behind, hevents, hfinish, -, hcopy⟩ := Wire.copied hw
  have hgiven : (DecoderM.events (.ofWire w)).1 = .ok [.openObject, .key "b", .openArray, .leaf (.bigInteger 7),
    .leaf (.integer 7), .leaf .null, .close, .key "a", .openObject, .close, .close] := rfl
  rw [hevents] at hgiven
  cases hgiven
  exact ⟨hw, behind, hevents, hfinish, hcopy⟩

end TypedWire
