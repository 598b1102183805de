import TypedWire.Proofs.Runs
import TypedWire.Wire.Reading

/-! # Runs of a decoder

A decoder may be asked anything in any order, and goes on after what it has refused. There is little that an exchange
can do to it: it takes the value that the decoder stands before, opens that value, reads a key or leaves the innermost
scope, or does nothing at all. What is refused does nothing, with one exception: a scope that is closed with parts
unread is left, and the parts are lost, although the closing is refused. -/

namespace TypedWire

/-- What a decoder can be asked. -/
inductive WireRequest where
  | peekToken
  | isNull
  | hasNext
  | nextKey
  | takeNull
  | skip
  | scalar (k : Kind)
  | string
  | bigInteger
  | bigDecimal
  | openArray
  | openObject
  | close
  | finish

namespace WireRequest

@[reducible] def Result : WireRequest → Type
  | peekToken => Token
  | isNull | hasNext | takeNull => Bool
  | nextKey => Option String
  | scalar k => k.Carrier
  | string => String
  | bigInteger => Int
  | bigDecimal => Decimal
  | skip | openArray | openObject | close | finish => Unit

def run : (q : WireRequest) → DecoderM q.Result
  | peekToken => .peekToken
  | isNull => .isNull
  | hasNext => .hasNext
  | nextKey => .nextKey
  | takeNull => .takeNull
  | skip => .skip
  | scalar k => .scalar k
  | string => .string
  | bigInteger => .bigInteger
  | bigDecimal => .bigDecimal
  | openArray => .openArray
  | openObject => .openObject
  | close => .close
  | finish => .finish

end WireRequest

/-- A request, and how a decoder has answered it. -/
structure Exchange where
  request : WireRequest
  answer : Except CodecError request.Result

/-- Answers requests one after the other, also after one that is refused: the exchanges, and the decoder after
    them. -/
def Decoder.run (d : Decoder) : List WireRequest → List Exchange × Decoder
  | [] => ([], d)
  | q :: qs =>
    let (answer, d) := q.run d
    let (exchanges, d) := d.run qs
    (⟨q, answer⟩ :: exchanges, d)

/-! ### Kinds of exchanges -/

namespace Exchange

/-- The exchange does nothing: it asks for what comes next, there is nothing to take, or it is refused. -/
inductive Idle : Exchange → Prop
  | peekToken (answer : Except CodecError Token) : Idle ⟨.peekToken, answer⟩
  | isNull (answer : Except CodecError Bool) : Idle ⟨.isNull, answer⟩
  | hasNext (answer : Except CodecError Bool) : Idle ⟨.hasNext, answer⟩
  | finish (answer : Except CodecError Unit) : Idle ⟨.finish, answer⟩
  | lastKey : Idle ⟨.nextKey, .ok none⟩
  | notNull : Idle ⟨.takeNull, .ok false⟩
  | refused (q : WireRequest) (hq : q ≠ .close) (e : CodecError) : Idle ⟨q, .error e⟩
  | nothingToClose : Idle ⟨.close, .error (.decoderContract .nothingToFinish)⟩

/-- The exchange takes a value: skips it, or reads it as what it is. -/
inductive Takes : Exchange → Wire → Prop
  | skipped (w : Wire) : Takes ⟨.skip, .ok ()⟩ w
  | null {w : Wire} (h : w.isNull = true) : Takes ⟨.takeNull, .ok true⟩ w
  | scalar {w : Wire} {k : Kind} {x : k.Carrier} (h : w.readScalar k = .ok x) : Takes ⟨.scalar k, .ok x⟩ w
  | string {w : Wire} {s : String} (h : w.readString = .ok s) : Takes ⟨.string, .ok s⟩ w
  | bigInteger {w : Wire} {n : Int} (h : w.readBigInteger = .ok n) : Takes ⟨.bigInteger, .ok n⟩ w
  | bigDecimal {w : Wire} {x : Decimal} (h : w.readBigDecimal = .ok x) : Takes ⟨.bigDecimal, .ok x⟩ w

/-- The exchange leaves a scope with parts unread. -/
inductive Abandons : Exchange → Prop
  | items : Abandons ⟨.close, .error (.decoderContract .unreadElements)⟩
  | members : Abandons ⟨.close, .error (.decoderContract .unreadMembers)⟩

theorem not_abandons_ok {q : WireRequest} {a : q.Result} : ¬Abandons ⟨q, .ok a⟩ :=
  nofun

theorem Idle.not_abandons {x : Exchange} (h : x.Idle) : ¬x.Abandons := by
  rintro (_ | _)
  · cases h with
    | refused _ hq => exact hq rfl
  · cases h with
    | refused _ hq => exact hq rfl

theorem Takes.not_abandons {x : Exchange} {w : Wire} (h : x.Takes w) : ¬x.Abandons := by
  rintro (_ | _) <;> cases h

end Exchange

/-! ### One value less -/

namespace Decoder

/-- The second decoder is the first without the value that it stood before: at the root, in an array, or behind the
    key of a member. -/
inductive Loses : Decoder → Wire → Decoder → Prop
  | root (w : Wire) : Loses ⟨some w, []⟩ w ⟨none, []⟩
  | item (root : Option Wire) (w : Wire) (rest : List Wire) (frames : List ReadFrame) :
    Loses ⟨root, .array (w :: rest) :: frames⟩ w ⟨root, .array rest :: frames⟩
  | member (root : Option Wire) (w : Wire) (rest : List (String × Wire)) (frames : List ReadFrame) :
    Loses ⟨root, .object rest (some w) :: frames⟩ w ⟨root, .object rest none :: frames⟩

variable {d d' : Decoder} {w : Wire}

theorem loses_drop (h : d.current = .ok w) : d.Loses w d.drop := by
  obtain ⟨root, stack⟩ := d
  cases stack with
  | nil =>
    cases root with
    | none => cases h
    | some w' => cases h; exact .root w
  | cons frame frames =>
    cases frame with
    | array items =>
      cases items with
      | nil => cases h
      | cons w' rest => cases h; exact .item root w rest frames
    | object rest pending =>
      cases pending with
      | none => cases h
      | some w' => cases h; exact .member root w rest frames

theorem Loses.drop (h : d.Loses w d') : d' = d.drop := by
  cases h <;> rfl

theorem Loses.current (h : d.Loses w d') : d.current = .ok w := by
  cases h <;> rfl

end Decoder

/-! ### One request -/

namespace DecoderM
variable {d : Decoder} {w : Wire}

theorem run_peekToken (hw : d.current = .ok w) : peekToken d = (.ok w.token, d) := by
  have hpeek : peek d = (.ok w, d) := by rw [peek, hw]
  exact run_map_ok hpeek

theorem run_peekToken_error {e : CodecError} (he : d.current = .error e) : peekToken d = (.error e, d) := by
  have hpeek : peek d = (.error e, d) := by rw [peek, he]
  exact run_map_error hpeek

theorem run_isNull (hw : d.current = .ok w) : isNull d = (.ok (w.token == .null), d) :=
  run_map_ok (run_peekToken hw)

theorem run_isNull_error {e : CodecError} (he : d.current = .error e) : isNull d = (.error e, d) :=
  run_map_error (run_peekToken_error he)

theorem run_skip (hw : d.current = .ok w) : skip d = (.ok (), d.drop) := by
  rw [skip, takeWith, hw]
  rfl

theorem run_takeNull (hw : d.current = .ok w) : takeNull d = (.ok w.isNull, if w.isNull then d.drop else d) := by
  rw [takeNull, run_bind_ok (run_isNull hw), Wire.isNull]
  by_cases h : w.token = .null
  · simp only [h, beq_self_eq_true, if_true, decide_true]
    rw [run_bind_ok (run_skip hw)]
    rfl
  · simp only [h, beq_iff_eq, if_false, decide_false]
    rfl

theorem run_openArray {items : List Wire} (hw : d.current = .ok (.array items)) :
    openArray d = (.ok (), d.drop.enter (.array items)) := by
  rw [openArray, hw]

theorem run_openArray_error (hw : d.current = .ok w) (hitems : w.items? = none) :
    openArray d = (.error (.unexpectedToken "array" w.token), d) := by
  cases w with
  | array items => cases hitems
  | leaf l | object members => rw [openArray, hw]

theorem run_openObject {members : List (String × Wire)} (hw : d.current = .ok (.object members)) :
    openObject d = (.ok (), d.drop.enter (.object members none)) := by
  rw [openObject, hw]

theorem run_close (d : Decoder) : close (d.enter (.array [])) = (.ok (), d) :=
  rfl

end DecoderM

namespace Decoder

/-- What an exchange can do to a decoder. -/
inductive Effect : Decoder → Exchange → Decoder → Prop
  | idle (d : Decoder) {x : Exchange} (h : x.Idle) : Effect d x d
  | taken {d d' : Decoder} {w : Wire} {x : Exchange} (hd : d.Loses w d') (h : x.Takes w) : Effect d x d'
  | openedArray {d d' : Decoder} {items : List Wire} (hd : d.Loses (.array items) d') :
    Effect d ⟨.openArray, .ok ()⟩ (d'.enter (.array items))
  | openedObject {d d' : Decoder} {members : List (String × Wire)} (hd : d.Loses (.object members) d') :
    Effect d ⟨.openObject, .ok ()⟩ (d'.enter (.object members none))
  | key (root : Option Wire) (key : String) (w : Wire) (rest : List (String × Wire)) (frames : List ReadFrame) :
    Effect ⟨root, .object ((key, w) :: rest) none :: frames⟩ ⟨.nextKey, .ok (some key)⟩
      ⟨root, .object rest (some w) :: frames⟩
  | closedArray (root : Option Wire) (frames : List ReadFrame) :
    Effect ⟨root, .array [] :: frames⟩ ⟨.close, .ok ()⟩ ⟨root, frames⟩
  | closedObject (root : Option Wire) (frames : List ReadFrame) :
    Effect ⟨root, .object [] none :: frames⟩ ⟨.close, .ok ()⟩ ⟨root, frames⟩
  | abandoned (root : Option Wire) (frame : ReadFrame) (frames : List ReadFrame) {x : Exchange} (h : x.Abandons) :
    Effect ⟨root, frame :: frames⟩ x ⟨root, frames⟩

variable {d d' : Decoder}

theorem effect_takeWith (q : WireRequest) (hq : q ≠ .close) {read : Wire → Except CodecError q.Result}
    (htakes : ∀ w x, read w = .ok x → Exchange.Takes ⟨q, .ok x⟩ w) {answer : Except CodecError q.Result}
    (h : DecoderM.takeWith read d = (answer, d')) : Effect d ⟨q, answer⟩ d' := by
  unfold DecoderM.takeWith at h
  cases hw : d.current with
  | error e =>
    rw [hw] at h
    cases h
    exact .idle d (.refused q hq e)
  | ok w =>
    cases hr : read w with
    | error e =>
      rw [hw, Except.bind, hr] at h
      cases h
      exact .idle d (.refused q hq e)
    | ok x =>
      rw [hw, Except.bind, hr] at h
      cases h
      exact .taken (loses_drop hw) (htakes w x hr)

/-- Every request, whatever the answer, does what an exchange can do. -/
theorem effect_of_run {q : WireRequest} {answer : Except CodecError q.Result} (h : q.run d = (answer, d')) :
    Effect d ⟨q, answer⟩ d' := by
  cases q with
  | peekToken =>
    cases hw : d.current with
    | error e => cases (DecoderM.run_peekToken_error hw).symm.trans h; exact .idle d (.peekToken _)
    | ok w => cases (DecoderM.run_peekToken hw).symm.trans h; exact .idle d (.peekToken _)
  | isNull =>
    cases hw : d.current with
    | error e => cases (DecoderM.run_isNull_error hw).symm.trans h; exact .idle d (.isNull _)
    | ok w => cases (DecoderM.run_isNull hw).symm.trans h; exact .idle d (.isNull _)
  | hasNext =>
    simp only [WireRequest.run, DecoderM.hasNext] at h
    split at h <;> cases h <;> exact .idle d (.hasNext _)
  | finish => cases h; exact .idle d (.finish _)
  | nextKey =>
    obtain ⟨root, stack⟩ := d
    simp only [WireRequest.run, DecoderM.nextKey] at h
    split at h
    · cases h; exact .idle _ (.refused .nextKey nofun _)
    · cases h; exact .key ..
    · cases h; exact .idle _ .lastKey
    · cases h; exact .idle _ (.refused .nextKey nofun _)
  | takeNull =>
    cases hw : d.current with
    | error e =>
      cases (run_bind_error (DecoderM.run_isNull_error hw)).symm.trans h
      exact .idle d (.refused .takeNull nofun e)
    | ok w =>
      have hrun := (DecoderM.run_takeNull hw).symm.trans h
      cases hnull : w.isNull with
      | true =>
        rw [hnull] at hrun
        cases hrun
        exact .taken (loses_drop hw) (.null hnull)
      | false =>
        rw [hnull] at hrun
        cases hrun
        exact .idle d .notNull
  | skip => exact effect_takeWith .skip nofun (fun w _ _ => .skipped w) h
  | scalar k => exact effect_takeWith (.scalar k) nofun (fun _ _ => .scalar) h
  | string => exact effect_takeWith .string nofun (fun _ _ => .string) h
  | bigInteger => exact effect_takeWith .bigInteger nofun (fun _ _ => .bigInteger) h
  | bigDecimal => exact effect_takeWith .bigDecimal nofun (fun _ _ => .bigDecimal) h
  | openArray =>
    simp only [WireRequest.run, DecoderM.openArray] at h
    split at h
    · cases h; exact .openedArray (loses_drop ‹_›)
    · cases h; exact .idle d (.refused .openArray nofun _)
    · cases h; exact .idle d (.refused .openArray nofun _)
  | openObject =>
    simp only [WireRequest.run, DecoderM.openObject] at h
    split at h
    · cases h; exact .openedObject (loses_drop ‹_›)
    · cases h; exact .idle d (.refused .openObject nofun _)
    · cases h; exact .idle d (.refused .openObject nofun _)
  | close =>
    -- Whatever the answer, an open scope is left; only with no part left is it closed.
    obtain ⟨root, stack⟩ := d
    cases stack with
    | nil => cases h; exact .idle _ .nothingToClose
    | cons frame frames =>
      cases frame with
      | array rest =>
        cases rest with
        | nil => cases h; exact .closedArray root frames
        | cons w rest => cases h; exact .abandoned root _ frames .items
      | object rest pending =>
        cases pending with
        | some w => cases h; exact .abandoned root _ frames .members
        | none =>
          cases rest with
          | nil => cases h; exact .closedObject root frames
          | cons m rest => cases h; exact .abandoned root _ frames .members

/-! ### Many requests -/

theorem run_cons {q : WireRequest} {answer : Except CodecError q.Result} (h : q.run d = (answer, d'))
    (qs : List WireRequest) : d.run (q :: qs) = (⟨q, answer⟩ :: (d'.run qs).1, (d'.run qs).2) := by
  rw [run, h]

/-- The exchanges lead from one decoder to the other. -/
inductive Leads : Decoder → List Exchange → Decoder → Prop
  | nil (d : Decoder) : Leads d [] d
  | cons {d m d' : Decoder} {x : Exchange} {xs : List Exchange} (h : x.request.run d = (x.answer, m))
    (hrest : Leads m xs d') : Leads d (x :: xs) d'

theorem Leads.uncons {x : Exchange} {xs : List Exchange} (h : Leads d (x :: xs) d') :
    ∃ m, x.request.run d = (x.answer, m) ∧ Leads m xs d' := by
  cases h with
  | cons hx hrest => exact ⟨_, hx, hrest⟩

theorem leads_run (d : Decoder) (requests : List WireRequest) :
    Leads d (d.run requests).1 (d.run requests).2 := by
  induction requests generalizing d with
  | nil => exact .nil d
  | cons q qs ih => exact .cons rfl (ih _)

theorem Leads.split {xs ys : List Exchange} (h : Leads d (xs ++ ys) d') : ∃ m, Leads d xs m ∧ Leads m ys d' := by
  induction xs generalizing d with
  | nil => exact ⟨d, .nil d, h⟩
  | cons x xs ih =>
    cases h with
    | cons hx hrest =>
      obtain ⟨m, hxs, hys⟩ := ih hrest
      exact ⟨m, .cons hx hxs, hys⟩

end Decoder

end TypedWire
