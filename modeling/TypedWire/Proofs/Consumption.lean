import TypedWire.Proofs.DecoderRuns

/-! # What has been read in the end

A tree is consumed by the exchange that takes it as a whole, or by its opening, exchanges that consume its items or
members one after the other, and its closing; between them may be exchanges that do nothing. A decoder has nothing left
in the end, and has left no scope with parts unread, exactly where its exchanges consume the tree.

In one direction the exchanges still to come are taken backwards: each of them hands on to the decoder before it what
the later ones ask of the decoder behind it. In the other, exchanges that consume a tree take away that tree wherever
a decoder stands before it. -/

namespace TypedWire

/-! ### Consuming a tree -/

mutual
/-- The exchanges consume a tree. -/
inductive Consumed : Wire → List Exchange → Prop
  | taken {w : Wire} {x : Exchange} (h : x.Takes w) : Consumed w [x]
  | array {items : List Wire} {xs : List Exchange} (h : ConsumedItems items xs) :
    Consumed (.array items) (⟨.openArray, .ok ()⟩ :: xs ++ [⟨.close, .ok ()⟩])
  | object {members : List (String × Wire)} {xs : List Exchange} (h : ConsumedMembers members xs) :
    Consumed (.object members) (⟨.openObject, .ok ()⟩ :: xs ++ [⟨.close, .ok ()⟩])

/-- The exchanges consume one tree after the other. -/
inductive ConsumedItems : List Wire → List Exchange → Prop
  | nil : ConsumedItems [] []
  | idle {x : Exchange} {items : List Wire} {xs : List Exchange} (hx : x.Idle) (hrest : ConsumedItems items xs) :
    ConsumedItems items (x :: xs)
  | cons {w : Wire} {items : List Wire} {xs ys : List Exchange} (h : Consumed w xs) (hrest : ConsumedItems items ys) :
    ConsumedItems (w :: items) (xs ++ ys)

/-- The exchanges consume one tree after the other, each behind its key. -/
inductive ConsumedMembers : List (String × Wire) → List Exchange → Prop
  | nil : ConsumedMembers [] []
  | idle {x : Exchange} {members : List (String × Wire)} {xs : List Exchange} (hx : x.Idle)
    (hrest : ConsumedMembers members xs) : ConsumedMembers members (x :: xs)
  | cons {key : String} {w : Wire} {members : List (String × Wire)} {before xs ys : List Exchange}
    (hbefore : ∀ x ∈ before, x.Idle) (h : Consumed w xs) (hrest : ConsumedMembers members ys) :
    ConsumedMembers ((key, w) :: members) (⟨.nextKey, .ok (some key)⟩ :: before ++ xs ++ ys)
end

mutual
theorem Consumed.not_abandons : ∀ {w : Wire} {xs : List Exchange}, Consumed w xs → ∀ x ∈ xs, ¬x.Abandons
  | _, _, .taken h => List.forall_mem_singleton.mpr h.not_abandons
  | _, _, .array h => List.forall_mem_cons.mpr ⟨Exchange.not_abandons_ok,
      List.forall_mem_append.mpr ⟨h.not_abandons, List.forall_mem_singleton.mpr Exchange.not_abandons_ok⟩⟩
  | _, _, .object h => List.forall_mem_cons.mpr ⟨Exchange.not_abandons_ok,
      List.forall_mem_append.mpr ⟨h.not_abandons, List.forall_mem_singleton.mpr Exchange.not_abandons_ok⟩⟩

theorem ConsumedItems.not_abandons : ∀ {items : List Wire} {xs : List Exchange}, ConsumedItems items xs →
    ∀ x ∈ xs, ¬x.Abandons
  | _, _, .nil => List.forall_mem_nil _
  | _, _, .idle hx hrest => List.forall_mem_cons.mpr ⟨hx.not_abandons, hrest.not_abandons⟩
  | _, _, .cons h hrest => List.forall_mem_append.mpr ⟨h.not_abandons, hrest.not_abandons⟩

theorem ConsumedMembers.not_abandons : ∀ {members : List (String × Wire)} {xs : List Exchange},
    ConsumedMembers members xs → ∀ x ∈ xs, ¬x.Abandons
  | _, _, .nil => List.forall_mem_nil _
  | _, _, .idle hx hrest => List.forall_mem_cons.mpr ⟨hx.not_abandons, hrest.not_abandons⟩
  | _, _, .cons hbefore h hrest =>
    List.forall_mem_append.mpr ⟨List.forall_mem_append.mpr ⟨List.forall_mem_cons.mpr
      ⟨Exchange.not_abandons_ok, fun x hx => (hbefore x hx).not_abandons⟩, h.not_abandons⟩, hrest.not_abandons⟩
end

namespace Decoder
variable {d d' m : Decoder} {x : Exchange} {xs ys : List Exchange} {w : Wire}

/-! ### What is left to consume -/

/-- The exchanges consume what is left of an open scope. -/
inductive ConsumedRest : ReadFrame → List Exchange → Prop
  | items {rest : List Wire} {xs : List Exchange} (h : ConsumedItems rest xs) : ConsumedRest (.array rest) xs
  | members {rest : List (String × Wire)} {xs : List Exchange} (h : ConsumedMembers rest xs) :
    ConsumedRest (.object rest none) xs
  | member {w : Wire} {rest : List (String × Wire)} {before xs ys : List Exchange} (hbefore : ∀ x ∈ before, x.Idle)
    (h : Consumed w xs) (hrest : ConsumedMembers rest ys) : ConsumedRest (.object rest (some w)) (before ++ xs ++ ys)

theorem ConsumedRest.idle {frame : ReadFrame} (h : ConsumedRest frame xs) (hx : x.Idle) :
    ConsumedRest frame (x :: xs) := by
  cases h with
  | items h => exact .items (.idle hx h)
  | members h => exact .members (.idle hx h)
  | member hbefore h hrest => exact .member (List.forall_mem_cons.mpr ⟨hx, hbefore⟩) h hrest

/-- The exchanges consume all that a decoder has left, one scope after the other. -/
inductive Exhausts : Decoder → List Exchange → Prop
  | nothing {xs : List Exchange} (h : ∀ x ∈ xs, x.Idle) : Exhausts ⟨none, []⟩ xs
  | root {w : Wire} {before xs after : List Exchange} (hbefore : ∀ x ∈ before, x.Idle) (h : Consumed w xs)
    (hafter : ∀ x ∈ after, x.Idle) : Exhausts ⟨some w, []⟩ (before ++ xs ++ after)
  | inside {root : Option Wire} {frame : ReadFrame} {frames : List ReadFrame} {xs ys : List Exchange}
    (hframe : ConsumedRest frame xs) (hrest : Exhausts ⟨root, frames⟩ ys) :
    Exhausts ⟨root, frame :: frames⟩ (xs ++ ⟨.close, .ok ()⟩ :: ys)

namespace Exhausts

theorem idle (h : Exhausts d xs) (hx : x.Idle) : Exhausts d (x :: xs) := by
  cases h with
  | nothing h => exact .nothing (List.forall_mem_cons.mpr ⟨hx, h⟩)
  | root hbefore h hafter => exact .root (List.forall_mem_cons.mpr ⟨hx, hbefore⟩) h hafter
  | inside hframe hrest => exact .inside (hframe.idle hx) hrest

theorem leave {frame : ReadFrame} (h : Exhausts (d.enter frame) xs) :
    ∃ inside outside, xs = inside ++ ⟨.close, .ok ()⟩ :: outside ∧ ConsumedRest frame inside ∧ Exhausts d outside := by
  obtain ⟨root, frames⟩ := d
  cases h with
  | inside hframe hrest => exact ⟨_, _, rfl, hframe, hrest⟩

theorem consumed (h : Exhausts d' ys) (hd : d.Loses w d') (hw : Consumed w xs) : Exhausts d (xs ++ ys) := by
  have hnone : ∀ x ∈ ([] : List Exchange), x.Idle := List.forall_mem_nil _
  cases hd with
  | root w =>
    cases h with
    | nothing h => exact .root hnone hw h
  | item root w rest frames =>
    cases h with
    | inside hframe hrest =>
      cases hframe with
      | items h =>
        rw [← List.append_assoc]
        exact .inside (.items (.cons hw h)) hrest
  | member root w rest frames =>
    cases h with
    | inside hframe hrest =>
      cases hframe with
      | members h =>
        rw [← List.append_assoc]
        exact .inside (.member hnone hw h) hrest

/-- An exchange that leaves no part unread hands on what is asked of the decoder behind it. -/
theorem step (h : Exhausts m xs) (hx : Effect d x m) (hkept : ¬x.Abandons) : Exhausts d (x :: xs) := by
  cases hx with
  | idle d hx => exact h.idle hx
  | taken hd hx => exact h.consumed hd (.taken hx)
  | openedArray hd =>
    obtain ⟨inside, outside, rfl, hframe, hrest⟩ := h.leave
    cases hframe with
    | items h => simpa using hrest.consumed hd (.array h)
  | openedObject hd =>
    obtain ⟨inside, outside, rfl, hframe, hrest⟩ := h.leave
    cases hframe with
    | members h => simpa using hrest.consumed hd (.object h)
  | key root key w rest frames =>
    cases h with
    | inside hframe hrest =>
      cases hframe with
      | member hbefore h hmembers => exact .inside (.members (.cons hbefore h hmembers)) hrest
  | closedArray root frames => exact .inside (.items .nil) h
  | closedObject root frames => exact .inside (.members .nil) h
  | abandoned root frame frames hx => exact absurd hx hkept

theorem run (hend : Exhausts d' []) (h : Leads d xs d') (hkept : ∀ x ∈ xs, ¬x.Abandons) : Exhausts d xs := by
  induction h with
  | nil d => exact hend
  | cons hx hrest ih =>
    obtain ⟨hx', hkept⟩ := List.forall_mem_cons.mp hkept
    exact (ih hend hkept).step (effect_of_run hx) hx'

end Exhausts

/-! ### Exchanges that consume a tree -/

theorem Effect.eq_of_idle (h : Effect d x d') (hx : x.Idle) : d' = d := by
  cases h with
  | idle d h => rfl
  | taken hd h => cases h <;> cases hx
  | abandoned root frame frames h => exact absurd h hx.not_abandons
  | openedArray | openedObject | key | closedArray | closedObject => cases hx

theorem Effect.eq_drop (h : Effect d x d') (hx : x.Takes w) : d' = d.drop := by
  cases h with
  | idle d h => cases hx <;> cases h
  | taken hd h => exact hd.drop
  | abandoned root frame frames h => exact absurd h hx.not_abandons
  | openedArray | openedObject | key | closedArray | closedObject => cases hx

theorem Leads.eq_of_idle (h : Leads d xs d') (hidle : ∀ x ∈ xs, x.Idle) : d' = d := by
  induction h with
  | nil d => rfl
  | cons hx hrest ih =>
    obtain ⟨hx', hidle⟩ := List.forall_mem_cons.mp hidle
    rw [ih hidle, (effect_of_run hx).eq_of_idle hx']

theorem Leads.eq_of_scope {frame frame' : ReadFrame} (h : Leads d (x :: xs ++ [⟨.close, .ok ()⟩]) d')
    (hopen : x.request.run d = (x.answer, m.enter frame))
    (hinside : ∀ d', Leads (m.enter frame) xs d' → d' = m.enter frame')
    (hclose : DecoderM.close (m.enter frame') = (.ok (), m)) : d' = m := by
  obtain ⟨m₁, hopen', h⟩ := h.uncons
  cases hopen.symm.trans hopen'
  obtain ⟨m₂, hxs, h⟩ := h.split
  cases hinside m₂ hxs
  obtain ⟨m₃, hclose', h⟩ := h.uncons
  cases hclose.symm.trans hclose'
  cases h
  rfl

mutual
/-- Exchanges that consume the tree before which a decoder stands take away that tree, and nothing else. -/
theorem Leads.eq_drop : ∀ {w : Wire} {xs : List Exchange}, Consumed w xs → ∀ {d d' : Decoder}, d.current = .ok w →
    Leads d xs d' → d' = d.drop
  | _, _, .taken hx, d, d', _, h => by
    obtain ⟨m, hm, hrest⟩ := h.uncons
    cases hrest
    exact (effect_of_run hm).eq_drop hx
  | _, _, .array hitems, _, _, hw, h =>
    h.eq_of_scope (DecoderM.run_openArray hw) (fun _ => Leads.eq_of_items hitems) rfl
  | _, _, .object hmembers, _, _, hw, h =>
    h.eq_of_scope (DecoderM.run_openObject hw) (fun _ => Leads.eq_of_members hmembers) rfl

theorem Leads.eq_of_items : ∀ {items : List Wire} {xs : List Exchange}, ConsumedItems items xs →
    ∀ {root : Option Wire} {frames : List ReadFrame} {d' : Decoder}, Leads ⟨root, .array items :: frames⟩ xs d' →
    d' = ⟨root, .array [] :: frames⟩
  | _, _, .nil, _, _, _, h => by
    cases h
    rfl
  | _, _, .idle hx hrest, _, _, _, h => by
    obtain ⟨m, hm, h⟩ := h.uncons
    rw [(effect_of_run hm).eq_of_idle hx] at h
    exact Leads.eq_of_items hrest h
  | _, _, .cons hw hrest, _, _, _, h => by
    obtain ⟨m, hfirst, h⟩ := h.split
    rw [Leads.eq_drop hw rfl hfirst] at h
    exact Leads.eq_of_items hrest h

theorem Leads.eq_of_members : ∀ {members : List (String × Wire)} {xs : List Exchange}, ConsumedMembers members xs →
    ∀ {root : Option Wire} {frames : List ReadFrame} {d' : Decoder},
    Leads ⟨root, .object members none :: frames⟩ xs d' → d' = ⟨root, .object [] none :: frames⟩
  | _, _, .nil, _, _, _, h => by
    cases h
    rfl
  | _, _, .idle hx hrest, _, _, _, h => by
    obtain ⟨m, hm, h⟩ := h.uncons
    rw [(effect_of_run hm).eq_of_idle hx] at h
    exact Leads.eq_of_members hrest h
  | _, _, .cons hbefore hw hrest, _, _, _, h => by
    obtain ⟨m, hkey, h⟩ := h.uncons
    cases hkey
    obtain ⟨m, hfirst, h⟩ := h.split
    obtain ⟨m, hidle, hfirst⟩ := hfirst.split
    cases hidle.eq_of_idle hbefore
    rw [Leads.eq_drop hw rfl hfirst] at h
    exact Leads.eq_of_members hrest h
end

/-! ### The end -/

theorem finish_eq_ok (h : d.finish = .ok ()) : d = ⟨none, []⟩ := by
  obtain ⟨root, stack⟩ := d
  cases stack with
  | cons frame frames => cases h
  | nil =>
    cases root with
    | none => rfl
    | some w => cases h

/-- Finishing succeeds, and no scope has been left with parts unread, exactly if the tree has been consumed. -/
theorem finish_eq_ok_iff (w : Wire) (requests : List WireRequest) :
    ((ofWire w).run requests).2.finish = .ok () ∧ (∀ x ∈ ((ofWire w).run requests).1, ¬x.Abandons) ↔
      ∃ before reading after, ((ofWire w).run requests).1 = before ++ reading ++ after ∧
        (∀ x ∈ before, x.Idle) ∧ Consumed w reading ∧ ∀ x ∈ after, x.Idle := by
  have hrun := leads_run (ofWire w) requests
  constructor
  · rintro ⟨hfinish, hkept⟩
    -- A decoder that can be finished asks for nothing more; what the one before the tree asks for follows backwards.
    have hend : Exhausts ((ofWire w).run requests).2 [] := finish_eq_ok hfinish ▸ .nothing (List.forall_mem_nil _)
    generalize ((ofWire w).run requests).1 = xs at hrun hkept
    cases hend.run hrun hkept with
    | root hbefore h hafter => exact ⟨_, _, _, rfl, hbefore, h, hafter⟩
  · rintro ⟨before, reading, after, htrace, hbefore, h, hafter⟩
    rw [htrace] at hrun ⊢
    obtain ⟨m, hfirst, hrun⟩ := hrun.split
    obtain ⟨m', hidle, hreading⟩ := hfirst.split
    cases hidle.eq_of_idle hbefore
    cases Leads.eq_drop h rfl hreading
    rw [hrun.eq_of_idle hafter]
    refine ⟨rfl, List.forall_mem_append.mpr ⟨List.forall_mem_append.mpr ⟨?_, h.not_abandons⟩, ?_⟩⟩
    · exact fun x hx => (hbefore x hx).not_abandons
    · exact fun x hx => (hafter x hx).not_abandons

/-- An array is closed before its item has been read. The closing is refused, but the array is left, and finishing
    succeeds; the item has not been consumed. -/
theorem finish_unreadItem :
    ((ofWire (.array [.leaf (.integer 1)])).run [.openArray, .close]).2.finish = .ok () ∧
    ¬∃ before reading after, ((ofWire (.array [.leaf (.integer 1)])).run [.openArray, .close]).1 =
        before ++ reading ++ after ∧
      (∀ x ∈ before, x.Idle) ∧ Consumed (.array [.leaf (.integer 1)]) reading ∧ ∀ x ∈ after, x.Idle := by
  refine ⟨rfl, ?_⟩
  rintro ⟨before, reading, after, htrace, hbefore, h, hafter⟩
  have hrefused : (⟨.close, .error (.decoderContract .unreadElements)⟩ : Exchange) ∈ before ++ reading ++ after :=
    htrace ▸ List.mem_cons_of_mem _ (List.mem_cons_self ..)
  rcases List.mem_append.mp hrefused with hx | hx
  · rcases List.mem_append.mp hx with hx | hx
    · exact (hbefore _ hx).not_abandons .items
    · exact h.not_abandons _ hx .items
  · exact (hafter _ hx).not_abandons .items

end Decoder

end TypedWire
