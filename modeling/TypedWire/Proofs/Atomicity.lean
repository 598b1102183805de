import TypedWire.Proofs.Consumption

/-! # Requests without effect

What a decoder refuses leaves it as it was, so that the same value can be asked for in another way; only the closing of
a scope leaves the scope whatever the answer. Questions about what comes next change nothing either, and a value that
is taken is the one that the decoder stood before. So the refused requests of a run may be left out: all other answers
are the same, and so is the decoder in the end. -/

namespace TypedWire

namespace WireRequest

/-- Asks what comes next, or whether all has been read. -/
def looks : WireRequest → Bool
  | peekToken | isNull | hasNext | finish => true
  | _ => false

/-- Asks for the value that comes next. -/
def takes : WireRequest → Bool
  | takeNull | skip | scalar _ | string | bigInteger | bigDecimal => true
  | _ => false

def isClose : WireRequest → Bool
  | close => true
  | _ => false

end WireRequest

namespace Exchange

/-- Every exchange but a refused one; a closing always matters, for the scope is left. -/
def matters (x : Exchange) : Bool :=
  x.answer.isOk || x.request.isClose

theorem idle_of_looks {q : WireRequest} (h : q.looks = true) (answer : Except CodecError q.Result) :
    Idle ⟨q, answer⟩ := by
  cases q with
  | peekToken => exact .peekToken answer
  | isNull => exact .isNull answer
  | hasNext => exact .hasNext answer
  | finish => exact .finish answer
  | _ => cases h

theorem idle_of_not_matters {x : Exchange} (h : x.matters = false) : x.Idle := by
  obtain ⟨q, answer⟩ := x
  obtain ⟨hanswer, hclose⟩ := Bool.or_eq_false_iff.mp h
  cases answer with
  | ok a => cases hanswer
  | error e =>
    refine .refused q ?_ e
    rintro rfl
    cases hclose

end Exchange

namespace Decoder
variable {d d' : Decoder}

/-- Where a value is asked for and the request is granted, that value is taken; or it was a null that was asked for,
    and there is none. -/
theorem Effect.taken_of_takes {q : WireRequest} {a : q.Result} (h : Effect d ⟨q, .ok a⟩ d') (hq : q.takes = true) :
    (∃ w, d.Loses w d' ∧ Exchange.Takes ⟨q, .ok a⟩ w) ∨
      (⟨q, .ok a⟩ : Exchange) = ⟨.takeNull, .ok false⟩ ∧ d' = d := by
  cases h with
  | idle d h =>
    cases h with
    | notNull => exact Or.inr ⟨rfl, rfl⟩
    | peekToken | isNull | hasNext | finish | lastKey => cases hq
  | taken hd h => exact Or.inl ⟨_, hd, h⟩
  | abandoned root frame frames h => exact absurd h Exchange.not_abandons_ok
  | openedArray | openedObject | key | closedArray | closedObject => cases hq

/-! ### Runs -/

/-- The exchanges of a run that matter are a run of their own. -/
theorem run_mattering (d : Decoder) (requests : List WireRequest) :
    d.run (((d.run requests).1.filter Exchange.matters).map Exchange.request) =
      ((d.run requests).1.filter Exchange.matters, (d.run requests).2) := by
  induction requests generalizing d with
  | nil => rfl
  | cons q qs ih =>
    cases hq : q.run d with
    | mk answer m =>
      rw [run_cons hq, List.filter_cons]
      cases hmatters : Exchange.matters ⟨q, answer⟩ with
      | true =>
        rw [if_pos rfl, List.map_cons, run_cons hq, ih m]
      | false =>
        -- The exchange is a refused one, so the rest of the run starts from the same decoder.
        rw [(effect_of_run hq).eq_of_idle (Exchange.idle_of_not_matters hmatters)]
        exact ih d

/-- A decoder that refuses a request, other than to leave a scope, is as it was; so is one that is only asked what comes
    next. A value that it gives is the one before which it stood, and that value alone is gone; where it was to take a
    null and there was none, nothing is. So its answers, but for the refusals, and the decoder in the end are the same
    in a run and in that run without what was refused. -/
theorem unchanged_of_refused (d : Decoder) :
    (∀ (q : WireRequest) e d', q ≠ .close → q.run d = (.error e, d') → d' = d) ∧
      (∀ q : WireRequest, q.looks = true → (q.run d).2 = d) ∧
      (∀ (q : WireRequest) a d', q.takes = true → q.run d = (.ok a, d') →
        (∃ w, d.current = .ok w ∧ d.Loses w d' ∧ Exchange.Takes ⟨q, .ok a⟩ w) ∨
          (⟨q, .ok a⟩ : Exchange) = ⟨.takeNull, .ok false⟩ ∧ d' = d) ∧
      ∀ requests, d.run (((d.run requests).1.filter Exchange.matters).map Exchange.request) =
        ((d.run requests).1.filter Exchange.matters, (d.run requests).2) := by
  refine ⟨fun q e d' hq h => ?_, fun q hq => ?_, fun q a d' hq h => ?_, d.run_mattering⟩
  · exact (effect_of_run h).eq_of_idle (.refused q hq e)
  · exact (effect_of_run rfl).eq_of_idle (Exchange.idle_of_looks hq _)
  · exact ((effect_of_run h).taken_of_takes hq).imp_left fun ⟨w, hw, htaken⟩ => ⟨w, hw.current, hw, htaken⟩

/-- In an array, 300 is no byte; it stays, and is read as a short. -/
theorem unchanged_of_refused_byte :
    let before : Decoder := ⟨none, [.array [.leaf (.integer 300), .leaf .null]]⟩
    let behind : Decoder := ⟨none, [.array [.leaf .null]]⟩
    (WireRequest.scalar .byte).run before = (.error (.outOfRange .byte "300"), before) ∧
      (WireRequest.scalar .short).run before = (.ok 300, behind) ∧
      (WireRequest.peekToken.run before).2 = before ∧ before.Loses (.leaf (.integer 300)) behind ∧
      before.run [.scalar .short] = ([⟨.scalar .short, .ok 300⟩], (before.run [.scalar .byte, .scalar .short]).2) := by
  intro before behind
  obtain ⟨hrefused, hlooks, htakes, hrun⟩ := unchanged_of_refused before
  have hshort : (WireRequest.scalar .short).run before = (.ok 300, behind) := rfl
  have hbyte : (WireRequest.scalar .byte).run before = (.error (.outOfRange .byte "300"), (before.run [.scalar .byte]).2) :=
    rfl
  refine ⟨?_, hshort, hlooks .peekToken rfl, ?_, hrun [.scalar .byte, .scalar .short]⟩
  · rw [hbyte, hrefused (.scalar .byte) _ _ nofun hbyte]
  · obtain ⟨w, hw, hloses, -⟩ | ⟨hnull, -⟩ := htakes (.scalar .short) 300 behind rfl hshort
    · cases hw
      exact hloses
    · cases hnull

end Decoder

end TypedWire
