import TypedWire.Proofs.EncoderRuns
import TypedWire.Proofs.FirstOccurrences

/-! # The events of a tree

A tree is spelled by events: a leaf by itself, an array by its opening, the events of its items and its closing, an
object by its opening, keys with the events of their values and its closing. Where a key stands twice in an object,
the tree has it once, in its first place and with its last value. An encoder allows the events and has a tree in the
end exactly where the events spell that tree.

In one direction the events of a tree do what putting the finished tree would do, wherever a value may be written. In
the other, an encoder that has allowed all events so far is an incomplete spelling: each open scope is spelled up to
its latest part. -/

namespace TypedWire

/-! ### The grammar -/

mutual
/-- The events spell a tree. -/
inductive Spells : List WireEvent → Wire → Prop
  | leaf (l : Leaf) : Spells [.leaf l] (.leaf l)
  | array {events : List WireEvent} {items : List Wire} (h : SpellsItems events items) :
    Spells (.openArray :: events ++ [.close]) (.array items)
  | object {events : List WireEvent} {writes : List (String × Wire)} {members : Members Wire}
    (h : SpellsWrites events writes) (hmembers : Members.Settles writes members) :
    Spells (.openObject :: events ++ [.close]) (.object members)

/-- The events spell one tree after the other. -/
inductive SpellsItems : List WireEvent → List Wire → Prop
  | nil : SpellsItems [] []
  | cons {first rest : List WireEvent} {w : Wire} {ws : List Wire} (h : Spells first w)
    (hrest : SpellsItems rest ws) : SpellsItems (first ++ rest) (w :: ws)

/-- The events spell one tree after the other, each behind a key. -/
inductive SpellsWrites : List WireEvent → List (String × Wire) → Prop
  | nil : SpellsWrites [] []
  | cons {first rest : List WireEvent} {key : String} {w : Wire} {writes : List (String × Wire)} (h : Spells first w)
    (hrest : SpellsWrites rest writes) : SpellsWrites (.key key :: first ++ rest) ((key, w) :: writes)
end

theorem SpellsItems.concat {events last : List WireEvent} {ws : List Wire} {w : Wire} (h : SpellsItems events ws)
    (hlast : Spells last w) : SpellsItems (events ++ last) (ws ++ [w]) := by
  induction ws generalizing events with
  | nil =>
    cases h
    simpa using SpellsItems.cons hlast .nil
  | cons w' ws ih =>
    cases h with
    | cons hfirst hrest =>
      rw [List.append_assoc]
      exact .cons hfirst (ih hrest)

theorem SpellsWrites.concat {events last : List WireEvent} {writes : List (String × Wire)} {w : Wire}
    (h : SpellsWrites events writes) (key : String) (hlast : Spells last w) :
    SpellsWrites (events ++ .key key :: last) (writes ++ [(key, w)]) := by
  induction writes generalizing events with
  | nil =>
    cases h
    have hwrites : SpellsWrites (.key key :: last ++ []) [(key, w)] := .cons hlast .nil
    simpa using hwrites
  | cons write writes ih =>
    cases h with
    | cons hfirst hrest =>
      rw [List.append_assoc]
      exact .cons hfirst (ih hrest)

namespace Encoder
variable {e e' e'' : Encoder} {event : WireEvent} {events more : List WireEvent} {w : Wire}

/-! ### Events that are allowed -/

/-- All the events are allowed, and lead from one encoder to the other. -/
def Allows (e : Encoder) (events : List WireEvent) (e' : Encoder) : Prop :=
  (∀ answer ∈ (e.run events).1, answer = .ok ()) ∧ (e.run events).2 = e'

theorem Allows.nil : e.Allows [] e :=
  ⟨nofun, rfl⟩

theorem allows_cons_iff : e.Allows (event :: events) e' ↔ ∃ m, e.step event = (.ok (), m) ∧ m.Allows events e' := by
  unfold Allows
  cases hstep : e.step event with
  | mk answer m =>
    rw [run_cons hstep]
    constructor
    · rintro ⟨hall, hend⟩
      obtain ⟨hanswer, hall⟩ := List.forall_mem_cons.mp hall
      exact ⟨m, by rw [hanswer], hall, hend⟩
    · rintro ⟨m', hm, hall, hend⟩
      obtain ⟨hanswer, rfl⟩ := Prod.mk.inj hm
      exact ⟨List.forall_mem_cons.mpr ⟨hanswer, hall⟩, hend⟩

theorem Allows.cons {m : Encoder} (hstep : e.step event = (.ok (), m)) (h : m.Allows events e') :
    e.Allows (event :: events) e' :=
  allows_cons_iff.mpr ⟨m, hstep, h⟩

theorem Allows.append {m : Encoder} (h : e.Allows events m) (hmore : m.Allows more e') :
    e.Allows (events ++ more) e' := by
  induction events generalizing e with
  | nil =>
    obtain ⟨-, rfl⟩ := h
    exact hmore
  | cons event events ih =>
    obtain ⟨m', hstep, hrest⟩ := allows_cons_iff.mp h
    exact .cons hstep (ih hrest)

theorem step_close_inArray (hopen : e.blocked? = none) (latest : List Wire) :
    (e.inArray latest).step .close = (.ok (), e.put (.array latest.reverse)) :=
  push_of_open hopen _

theorem step_close_inObject (hopen : e.blocked? = none) (members : Members Wire) :
    (e.inObject members).step .close = (.ok (), e.put (.object members)) :=
  push_of_open hopen _

theorem step_openArray (hopen : e.blocked? = none) : e.step .openArray = (.ok (), e.inArray []) := by
  rw [step, enter, hopen]
  rfl

theorem step_openObject (hopen : e.blocked? = none) : e.step .openObject = (.ok (), e.inObject []) := by
  rw [step, enter, hopen]
  rfl

mutual
/-- Where a value may be written, the events of a tree do what putting the tree does. -/
theorem allows_of_spells : ∀ {events : List WireEvent} {w : Wire}, Spells events w → ∀ {e : Encoder},
    e.blocked? = none → e.Allows events (e.put w)
  | _, _, .leaf l, e, hopen => .cons (push_of_open hopen _) .nil
  | _, .array items, .array h, e, hopen => by
    have hitems := allows_of_items h e []
    have hclose := step_close_inArray hopen items.reverse
    rw [List.append_nil] at hitems
    rw [List.reverse_reverse] at hclose
    exact .cons (step_openArray hopen) (hitems.append (.cons hclose .nil))
  | _, _, .object h hmembers, e, hopen => by
    obtain ⟨members', hmembers', hwrites⟩ := allows_of_writes h e .nil
    obtain rfl := hmembers'.unique hmembers
    exact .cons (step_openObject hopen) (hwrites.append (.cons (step_close_inObject hopen _) .nil))

theorem allows_of_items : ∀ {events : List WireEvent} {items : List Wire}, SpellsItems events items →
    ∀ (e : Encoder) (latest : List Wire), (e.inArray latest).Allows events (e.inArray (items.reverse ++ latest))
  | _, _, .nil, e, latest => .nil
  | _, w :: ws, .cons h hrest, e, latest => by
    have hfirst := allows_of_spells h (e.blocked?_inArray latest)
    rw [List.reverse_cons, List.append_assoc]
    exact hfirst.append (allows_of_items hrest e (w :: latest))

theorem allows_of_writes : ∀ {events : List WireEvent} {writes : List (String × Wire)}, SpellsWrites events writes →
    ∀ (e : Encoder) {written : List (String × Wire)} {members : Members Wire}, Members.Settles written members →
    ∃ members', Members.Settles (written ++ writes) members' ∧ (e.inObject members).Allows events (e.inObject members')
  | _, _, .nil, e, written, members, hmembers => ⟨members, by rwa [List.append_nil], .nil⟩
  | _, (key, w) :: _, .cons h hrest, e, written, members, hmembers => by
    have hfirst := allows_of_spells h (e.blocked?_behindKey members key)
    obtain ⟨members', hmembers', hmore⟩ := allows_of_writes hrest e (hmembers.concat key w)
    rw [List.append_assoc] at hmembers'
    exact ⟨members', hmembers', .cons rfl (hfirst.append hmore)⟩
end

/-! ### Encoders that have allowed all events -/

/-- The events open a scope and spell what has been written into it so far. -/
inductive SpelledFrame : List WireEvent → WriteFrame → Prop
  | array {events : List WireEvent} {items : List Wire} (h : SpellsItems events items) :
    SpelledFrame (.openArray :: events) (.array items.reverse)
  | object {events : List WireEvent} {writes : List (String × Wire)} {members : Members Wire}
    (h : SpellsWrites events writes) (hmembers : Members.Settles writes members) :
    SpelledFrame (.openObject :: events) (.object members none)
  | key {events : List WireEvent} {writes : List (String × Wire)} {members : Members Wire}
    (h : SpellsWrites events writes) (hmembers : Members.Settles writes members) (key : String) :
    SpelledFrame (.openObject :: events ++ [.key key]) (.object members (some key))

/-- The events spell nothing yet, a whole tree, or the open scopes one inside the other. -/
inductive Spelled : List WireEvent → Encoder → Prop
  | nothing : Spelled [] ⟨none, []⟩
  | whole {events : List WireEvent} {w : Wire} (h : Spells events w) : Spelled events ⟨some w, []⟩
  | inside {events scope : List WireEvent} {rest : List WriteFrame} {frame : WriteFrame}
    (h : Spelled events ⟨none, rest⟩) (hframe : SpelledFrame scope frame) :
    Spelled (events ++ scope) ⟨none, frame :: rest⟩

theorem push_eq_ok (h : e.push w = (.ok (), e')) : e.blocked? = none ∧ e' = e.put w := by
  cases hb : e.blocked? with
  | some fault => cases (push_of_blocked hb w).symm.trans h
  | none => exact ⟨rfl, (Prod.mk.inj ((push_of_open hb w).symm.trans h)).2.symm⟩

theorem enter_eq_ok {frame : WriteFrame} (h : e.enter frame = (.ok (), e')) :
    e.blocked? = none ∧ e' = ⟨e.root, frame :: e.stack⟩ := by
  unfold enter at h
  split at h
  · cases h
  · exact ⟨‹_›, (Prod.mk.inj h).2.symm⟩

namespace Spelled

theorem put (h : Spelled events e) (hopen : e.blocked? = none) {last : List WireEvent} (hlast : Spells last w) :
    Spelled (events ++ last) (e.put w) := by
  cases h with
  | nothing => exact .whole hlast
  | whole h => cases hopen
  | inside h hframe =>
    rw [List.append_assoc]
    cases hframe with
    | array hitems => exact .inside h (by simpa using SpelledFrame.array (hitems.concat hlast))
    | object hwrites hmembers => cases hopen
    | key hwrites hmembers key =>
      exact .inside h (by simpa using SpelledFrame.object (hwrites.concat key hlast) (hmembers.concat key w))

theorem enter (h : Spelled events e) (hopen : e.blocked? = none) {frame : WriteFrame}
    (hframe : SpelledFrame [event] frame) : Spelled (events ++ [event]) ⟨e.root, frame :: e.stack⟩ := by
  cases h with
  | nothing => exact .inside .nothing hframe
  | whole h => cases hopen
  | inside h hframe' => exact .inside (.inside h hframe') hframe

/-- One event more that is allowed. -/
theorem step (h : Spelled events e) (hstep : e.step event = (.ok (), e')) : Spelled (events ++ [event]) e' := by
  cases event with
  | openArray =>
    obtain ⟨hopen, rfl⟩ := enter_eq_ok hstep
    exact h.enter hopen (.array .nil)
  | openObject =>
    obtain ⟨hopen, rfl⟩ := enter_eq_ok hstep
    exact h.enter hopen (.object .nil .nil)
  | leaf l =>
    obtain ⟨hopen, rfl⟩ := push_eq_ok hstep
    exact h.put hopen (.leaf l)
  | key name =>
    cases h with
    | nothing => cases hstep
    | whole h => cases hstep
    | inside h hframe =>
      rw [List.append_assoc]
      cases hframe with
      | array hitems => cases hstep
      | object hwrites hmembers =>
        cases hstep
        exact .inside h (.key hwrites hmembers name)
      | key hwrites hmembers key => cases hstep
  | close =>
    cases h with
    | nothing => cases hstep
    | whole h => cases hstep
    | inside h hframe =>
      rw [List.append_assoc]
      cases hframe with
      | array hitems =>
        obtain ⟨hopen, rfl⟩ := push_eq_ok hstep
        rw [List.reverse_reverse]
        exact h.put hopen (.array hitems)
      | object hwrites hmembers =>
        obtain ⟨hopen, rfl⟩ := push_eq_ok hstep
        exact h.put hopen (.object hwrites hmembers)
      | key hwrites hmembers key => cases hstep

theorem run (h : Spelled events e) (hmore : e.Allows more e') : Spelled (events ++ more) e' := by
  induction more generalizing events e with
  | nil =>
    obtain ⟨-, rfl⟩ := hmore
    rwa [List.append_nil]
  | cons event more ih =>
    obtain ⟨m, hstep, hmore⟩ := allows_cons_iff.mp hmore
    rw [List.append_cons]
    exact ih (h.step hstep) hmore

end Spelled

/-! ### What is accepted -/

/-- An encoder allows all of the events and has the tree in the end exactly if the events spell the tree. -/
theorem run_finish_eq_ok_iff (events : List WireEvent) (w : Wire) :
    (∀ answer ∈ (start.run events).1, answer = .ok ()) ∧ (start.run events).2.finish = .ok w ↔ Spells events w := by
  constructor
  · rintro ⟨hall, hfinish⟩
    have hspelled : Spelled events (start.run events).2 := Spelled.nothing.run ⟨hall, rfl⟩
    generalize (start.run events).2 = e at hspelled hfinish
    cases hspelled with
    | nothing => cases hfinish
    | whole h =>
      cases hfinish
      exact h
    | inside h hframe => cases hfinish
  · intro h
    obtain ⟨hall, hend⟩ := allows_of_spells h (e := start) rfl
    exact ⟨hall, by rw [hend]; rfl⟩

end Encoder

end TypedWire
