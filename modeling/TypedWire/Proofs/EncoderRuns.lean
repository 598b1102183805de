import TypedWire.Wire.Encoder
import Mathlib.Algebra.Ring.Int.Defs

/-! # Runs of an encoder

An encoder may be told anything in any order, and goes on after what it has refused. Scopes are only opened where a
value may be written, so the place of a scope can always be filled when the scope is closed, and a refused event
leaves the encoder as it is, with one exception: an object that is closed over a key without a value is lost, with
all that has been written into it, although the closing is refused. So the refused events of a run may be left out,
without any effect on the other answers and on the encoder in the end, unless an object has been lost. -/

namespace TypedWire

/-- How many scopes more are open after an event that is allowed. -/
def WireEvent.rise : WireEvent → Int
  | openArray | openObject => 1
  | close => -1
  | key _ | leaf _ => 0

namespace Encoder

section Scopes
variable (e : Encoder)

/-- The encoder inside an array that it has opened, with the items so far, the latest first. -/
def inArray (latest : List Wire) : Encoder :=
  { e with stack := .array latest :: e.stack }

def inObject (members : Members Wire) : Encoder :=
  { e with stack := .object members none :: e.stack }

def behindKey (members : Members Wire) (key : String) : Encoder :=
  { e with stack := .object members (some key) :: e.stack }

theorem blocked?_inArray (latest : List Wire) : (e.inArray latest).blocked? = none :=
  rfl

theorem put_inArray (latest : List Wire) (w : Wire) : (e.inArray latest).put w = e.inArray (w :: latest) :=
  rfl

theorem blocked?_behindKey (members : Members Wire) (key : String) : (e.behindKey members key).blocked? = none :=
  rfl

theorem put_behindKey (members : Members Wire) (key : String) (w : Wire) :
    (e.behindKey members key).put w = e.inObject (Members.insert key w members) :=
  rfl

end Scopes

/-- Takes events one after the other, also after one that is refused: the answers, and the encoder after them. -/
def run (e : Encoder) : List WireEvent → List (Except EncoderFault Unit) × Encoder
  | [] => ([], e)
  | event :: events =>
    let (answer, e) := e.step event
    let (answers, e) := e.run events
    (answer :: answers, e)

/-- The events of a run that have been answered as `p` says. -/
def answering (p : Except EncoderFault Unit → Bool) (e : Encoder) (events : List WireEvent) : List WireEvent :=
  ((events.zip (e.run events).1).filter fun x => p x.2).map Prod.fst

/-- The answer with which an object is lost: its last key has no value. -/
def isDangling : Except EncoderFault Unit → Bool
  | .error (.danglingKey _) => true
  | _ => false

/-! ### Where scopes stand -/

/-- Every open scope stands where a value may be written. -/
inductive Coherent : Encoder → Prop
  | closed (root : Option Wire) : Coherent ⟨root, []⟩
  | inside {root : Option Wire} {rest : List WriteFrame} (frame : WriteFrame) (h : Coherent ⟨root, rest⟩)
    (hopen : blocked? ⟨root, rest⟩ = none) : Coherent ⟨root, frame :: rest⟩

variable {e : Encoder}

theorem Coherent.top {root : Option Wire} {frame : WriteFrame} {rest : List WriteFrame}
    (h : Coherent ⟨root, frame :: rest⟩) (frame' : WriteFrame) : Coherent ⟨root, frame' :: rest⟩ := by
  cases h with
  | inside _ h hopen => exact .inside frame' h hopen

theorem push_of_open (hopen : e.blocked? = none) (w : Wire) : e.push w = (.ok (), e.put w) := by
  rw [push, hopen]

theorem push_of_blocked {fault : EncoderFault} (h : e.blocked? = some fault) (w : Wire) :
    e.push w = (.error fault, e) := by
  rw [push, h]

theorem length_put (e : Encoder) (w : Wire) : (e.put w).stack.length = e.stack.length := by
  unfold put
  split <;> simp_all

theorem Coherent.put (h : e.Coherent) (w : Wire) : (e.put w).Coherent := by
  obtain ⟨root, stack⟩ := e
  cases stack with
  | nil => exact .closed _
  | cons frame rest =>
    cases frame with
    | array latest => exact h.top _
    | object members key => cases key <;> exact h.top _

/-! ### One event -/

theorem isDangling_of_blocked {fault : EncoderFault} (h : e.blocked? = some fault) :
    isDangling (.error fault) = false := by
  unfold blocked? at h
  split at h
  · cases h
    rfl
  · cases h
  · split at h
    · cases h
      rfl
    · cases h

theorem enter_cases (h : e.Coherent) (frame : WriteFrame) :
    (∃ e', e.enter frame = (.ok (), e') ∧ e'.Coherent ∧ e'.stack.length = e.stack.length + 1) ∨
    ∃ fault, e.enter frame = (.error fault, e) ∧ isDangling (.error fault) = false := by
  cases hb : e.blocked? with
  | some fault => exact Or.inr ⟨fault, by rw [enter, hb], isDangling_of_blocked hb⟩
  | none => exact Or.inl ⟨{ e with stack := frame :: e.stack }, by rw [enter, hb], .inside frame h hb, rfl⟩

/-- An event is allowed, or refused without effect, or it closes an object over a key without a value: then the
    object is lost, and what stands around it is as it was. -/
theorem step_cases (h : e.Coherent) (event : WireEvent) :
    (∃ e', e.step event = (.ok (), e') ∧ e'.Coherent ∧ (e'.stack.length : Int) = e.stack.length + event.rise) ∨
    (∃ fault, e.step event = (.error fault, e) ∧ isDangling (.error fault) = false) ∨
    (∃ key members rest, event = .close ∧ e.stack = .object members (some key) :: rest ∧
      e.step event = (.error (.danglingKey key), ⟨e.root, rest⟩) ∧ Coherent ⟨e.root, rest⟩) := by
  cases event with
  | openArray | openObject =>
    rcases enter_cases h _ with ⟨e', hstep, hcoherent, hlength⟩ | ⟨fault, hstep, hfault⟩
    · exact Or.inl ⟨e', hstep, hcoherent, by rw [hlength]; rfl⟩
    · exact Or.inr (Or.inl ⟨fault, hstep, hfault⟩)
  | leaf l =>
    cases hb : e.blocked? with
    | some fault => exact Or.inr (Or.inl ⟨fault, push_of_blocked hb _, isDangling_of_blocked hb⟩)
    | none => exact Or.inl ⟨_, push_of_open hb _, h.put _, by rw [length_put, WireEvent.rise, Int.add_zero]⟩
  | key name =>
    obtain ⟨root, stack⟩ := e
    cases stack with
    | nil => exact Or.inr (Or.inl ⟨.keyOutsideObject, rfl, rfl⟩)
    | cons frame rest =>
      cases frame with
      | array latest => exact Or.inr (Or.inl ⟨.keyOutsideObject, rfl, rfl⟩)
      | object members key =>
        cases key with
        | none => exact Or.inl ⟨_, rfl, h.top _, (Int.add_zero _).symm⟩
        | some key => exact Or.inr (Or.inl ⟨.twoKeys, rfl, rfl⟩)
  | close =>
    cases h with
    | closed root => exact Or.inr (Or.inl ⟨.nothingToFinish, rfl, rfl⟩)
    | @inside root rest frame h hopen =>
      have hlength (w : Wire) : ((put ⟨root, rest⟩ w).stack.length : Int) =
          (frame :: rest).length + WireEvent.close.rise := by
        rw [length_put, List.length_cons, Int.natCast_succ, WireEvent.rise, Int.add_neg_cancel_right]
      cases frame with
      | array latest => exact Or.inl ⟨_, push_of_open hopen _, h.put _, hlength _⟩
      | object members key =>
        cases key with
        | none => exact Or.inl ⟨_, push_of_open hopen _, h.put _, hlength _⟩
        | some key => exact Or.inr (Or.inr ⟨key, members, rest, rfl, rfl, rfl, h⟩)

/-! ### Runs -/

section Runs
variable {p : Except EncoderFault Unit → Bool} {event : WireEvent} {events : List WireEvent} {e' : Encoder}
  {answer : Except EncoderFault Unit}

theorem run_cons (h : e.step event = (answer, e')) (events : List WireEvent) :
    e.run (event :: events) = (answer :: (e'.run events).1, (e'.run events).2) := by
  rw [run, h]

theorem answering_cons (h : e.step event = (answer, e')) (events : List WireEvent) :
    answering p e (event :: events) =
      if p answer = true then event :: answering p e' events else answering p e' events := by
  rw [answering, run_cons h, List.zip_cons_cons, List.filter_cons]
  split <;> rfl

theorem answering_congr {q : Except EncoderFault Unit → Bool} (h : ∀ answer ∈ (e.run events).1, p answer = q answer) :
    answering p e events = answering q e events := by
  rw [answering, answering, List.filter_congr]
  intro x hx
  exact h x.2 (List.of_mem_zip hx).2

theorem length_answers (e : Encoder) (events : List WireEvent) : (e.run events).1.length = events.length := by
  induction events generalizing e with
  | nil => rfl
  | cons event events ih => rw [run_cons rfl, List.length_cons, ih, List.length_cons]

theorem answering_eq_self (h : ∀ answer ∈ (e.run events).1, p answer = true) : answering p e events = events := by
  have hall : ∀ x ∈ events.zip (e.run events).1, p x.2 = true := fun x hx => h x.2 (List.of_mem_zip hx).2
  rw [answering, List.filter_eq_self.mpr hall, List.map_fst_zip (Nat.le_of_eq (length_answers e events).symm)]

/-- Refused events that lose nothing may be left out. -/
theorem run_answering (hok : p (.ok ()) = true) (hdangling : ∀ key, p (.error (.danglingKey key)) = true)
    (h : e.Coherent) (events : List WireEvent) :
    e.run (answering p e events) = ((e.run events).1.filter p, (e.run events).2) := by
  induction events generalizing e with
  | nil => rfl
  | cons event events ih =>
    rcases step_cases h event with ⟨e', hstep, h', -⟩ | ⟨fault, hstep, -⟩ | ⟨key, -, rest, -, -, hstep, h'⟩
    · rw [answering_cons hstep, if_pos hok, run_cons hstep, run_cons hstep, ih h', List.filter_cons_of_pos hok]
    · rw [answering_cons hstep, run_cons hstep, List.filter_cons]
      split
      · rw [run_cons hstep, ih h]
      · exact ih h
    · rw [answering_cons hstep, if_pos (hdangling key), run_cons hstep, run_cons hstep, ih h',
        List.filter_cons_of_pos (hdangling key)]

/-- The scopes that are open after a run are those that have been opened and not closed, without those lost. -/
theorem length_run (h : e.Coherent) (events : List WireEvent) :
    ((e.run events).2.stack.length : Int) = e.stack.length + ((answering (·.isOk) e events).map WireEvent.rise).sum -
      (e.run events).1.countP isDangling := by
  induction events generalizing e with
  | nil => simp [run, answering]
  | cons event events ih =>
    rcases step_cases h event with ⟨e', hstep, h', hlength⟩ | ⟨fault, hstep, hfault⟩ |
      ⟨key, members, rest, -, hstack, hstep, h'⟩
    · have hallowed : (.ok () : Except EncoderFault Unit).isOk = true := rfl
      have hkept : ¬isDangling (.ok ()) = true := nofun
      rw [answering_cons hstep, if_pos hallowed, run_cons hstep, ih h', List.countP_cons_of_neg hkept, List.map_cons,
        List.sum_cons]
      omega
    · have hkept : ¬isDangling (.error fault) = true := by rw [hfault]; nofun
      rw [answering_cons hstep, if_neg nofun, run_cons hstep, ih h, List.countP_cons_of_neg hkept]
    · have hlost : isDangling (.error (.danglingKey key)) = true := rfl
      have hlength : e.stack.length = (⟨e.root, rest⟩ : Encoder).stack.length + 1 := by rw [hstack, List.length_cons]
      rw [answering_cons hstep, if_neg nofun, run_cons hstep, ih h', List.countP_cons_of_pos hlost]
      omega

end Runs

/-! ### Leaving out what is refused -/

/-- In any run the refused events may be left out, but for those that lose an object: neither the other answers nor
    the encoder in the end depend on them. All the refused events may be left out exactly if no object is lost. -/
theorem run_without_refused (events : List WireEvent) :
    start.run (answering (fun answer => answer.isOk || isDangling answer) start events) =
        ((start.run events).1.filter fun answer => answer.isOk || isDangling answer, (start.run events).2) ∧
    (start.run (answering (·.isOk) start events) = ((start.run events).1.filter (·.isOk), (start.run events).2) ↔
      ∀ answer ∈ (start.run events).1, isDangling answer = false) := by
  have hstart : start.Coherent := .closed none
  have hkept := run_answering (p := fun answer => answer.isOk || isDangling answer) rfl (fun _ => rfl) hstart events
  refine ⟨hkept, fun hrun => ?_, fun hnone => ?_⟩
  · -- Both runs open and close the same scopes, so they end with equally many only if none has been lost.
    have hlength := length_run hstart events
    have hallowed := length_run hstart (answering (·.isOk) start events)
    have hok : ∀ answer ∈ (start.run (answering (·.isOk) start events)).1, answer.isOk = true := by
      rw [hrun]
      exact fun answer hanswer => (List.mem_filter.mp hanswer).2
    have hlossless : (start.run (answering (·.isOk) start events)).1.countP isDangling = 0 := by
      refine List.countP_eq_zero.mpr fun answer hanswer hdangling => ?_
      cases answer with
      | ok _ => cases hdangling
      | error fault => cases hok _ hanswer
    rw [answering_eq_self hok, hlossless, hrun] at hallowed
    dsimp only at hallowed
    have hcount : (start.run events).1.countP isDangling = 0 := by omega
    exact fun answer hanswer => Bool.eq_false_iff.mpr (List.countP_eq_zero.mp hcount answer hanswer)
  · have hsame : ∀ answer ∈ (start.run events).1, (answer.isOk || isDangling answer) = answer.isOk :=
      fun answer hanswer => by rw [hnone answer hanswer, Bool.or_false]
    rw [answering_congr hsame, List.filter_congr hsame] at hkept
    exact hkept

/-- An object in an array is closed over a key without a value, and then the array is closed. The tree is the empty
    array; without the refused closing, it is the closing of the array that is refused, and there is no tree. -/
theorem run_without_refused_danglingKey :
    (start.run [.openArray, .openObject, .key "a", .close, .close]).2.finish = .ok (.array []) ∧
    ¬((start.run (answering (·.isOk) start [.openArray, .openObject, .key "a", .close, .close])).1 =
          (start.run [.openArray, .openObject, .key "a", .close, .close]).1.filter (·.isOk) ∧
        (start.run (answering (·.isOk) start [.openArray, .openObject, .key "a", .close, .close])).2.finish =
          (start.run [.openArray, .openObject, .key "a", .close, .close]).2.finish) := by
  refine ⟨rfl, fun hsame => ?_⟩
  have hrefused : (start.run (answering (·.isOk) start [.openArray, .openObject, .key "a", .close, .close])).2.finish =
    .error .notFinished := rfl
  cases hrefused.symm.trans hsame.2

end Encoder

end TypedWire
