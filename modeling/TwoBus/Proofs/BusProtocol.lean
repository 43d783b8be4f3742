import Mathlib.Data.List.Induction
import TwoBus.Proofs.BusCycle

/-!
# The protocol of the buses

A pair of buses is driven, then frozen, then sampled. It answers calls in any order, and a call that
faults does not end the series. What it answers depends on the calls before in two ways only:
whether a freeze was among them, and which values were assigned to the bus with success.

* `Buses.frozen_after`: the first freeze ends the driving for good.
* `Buses.accepted_concat`: an assignment succeeds if no freeze has come before it.
* `Buses.gathers_after`: a bus is driven once any value has been accepted for it, and carries the
  bits of all of them.
* `Buses.freeze_discipline`: the protocol.
-/

namespace TwoBus.Buses

/-! ## Calls -/

/-- A call to a pair of buses. -/
inductive Call
  | assign (bus : Bus) (v : Int)
  | freeze
  | isDriven (bus : Bus)
  | sample (bus : Bus)
  deriving DecidableEq, Repr

/-- The answer to a call. -/
inductive Reply
  | done
  | driven (isDriven : Bool)
  | carried (v : Int)
  deriving DecidableEq, Repr

namespace Call

def perform : Call → Activity Buses Reply
  | assign bus v => do
    Buses.assign bus v
    return .done
  | freeze => do
    Buses.freeze
    return .done
  | isDriven bus => do
    let buses ← get
    return .driven (buses.isDriven bus)
  | sample bus => do
    let v ← Buses.sample bus
    return .carried v

/-- The answer that the state of the buses calls for. -/
def answer (buses : Buses) : Call → Except Fault Reply
  | assign _ _ => if buses.frozen then .error .busFrozen else .ok .done
  | freeze => if buses.frozen then .error .busFrozenTwice else .ok .done
  | isDriven bus => .ok (.driven (buses.isDriven bus))
  | sample bus => if buses.frozen then .ok (.carried (buses.value bus)) else .error .busNotFrozen

/-- The state that a call leaves. -/
def next (buses : Buses) : Call → Buses
  | assign bus v => if buses.frozen then buses else buses.drive bus v
  | freeze => if buses.frozen then buses else { buses with frozen := true }
  | isDriven _ | sample _ => buses

theorem outcome_perform [Logger] (buses : Buses) (call : Call) :
    (call.perform.run buses).outcome = call.answer buses := by
  cases call with
  | isDriven bus => rfl
  | assign | freeze | sample =>
    cases hfrozen : buses.frozen <;>
      simp [perform, answer, Buses.assign, Buses.freeze, Buses.sample, hfrozen]

theorem state_perform [Logger] (buses : Buses) (call : Call) :
    (call.perform.run buses).state = call.next buses := by
  cases call with
  | isDriven bus => rfl
  | assign | freeze | sample =>
    cases hfrozen : buses.frozen <;>
      simp [perform, next, Buses.assign, Buses.freeze, Buses.sample, hfrozen]

theorem frozen_next (buses : Buses) (call : Call) :
    (call.next buses).frozen = true ↔ buses.frozen = true ∨ call = .freeze := by
  cases hfrozen : buses.frozen <;> cases call <;> simp [next, hfrozen]

/-- Once the buses are frozen, no call changes them. -/
theorem next_of_frozen {buses : Buses} (hfrozen : buses.frozen = true) (call : Call) :
    call.next buses = buses := by
  cases call <;> simp [next, hfrozen]

/-- A call that assigns nothing to a bus leaves its level as it is. -/
theorem level_next_of_ne {call : Call} {bus : Bus} (h : ∀ v, call ≠ .assign bus v)
    (buses : Buses) : (call.next buses).level bus = buses.level bus := by
  cases hfrozen : buses.frozen with
  | true => rw [next_of_frozen hfrozen]
  | false =>
    cases call with
    | assign bus' v =>
      have hbus : bus' ≠ bus := fun heq => h v (congrArg (assign · v) heq)
      simp only [next, hfrozen]
      exact level_drive_of_ne hbus buses v
    | freeze =>
      simp only [next, hfrozen]
      cases bus <;> rfl
    | isDriven | sample => rfl

/-- An assignment in time adds a driver to its bus. -/
theorem level_next_assign {buses : Buses} (hlive : buses.frozen = false) (bus : Bus) (v : Int) :
    ((assign bus v).next buses).level bus
      = some ((buses.level bus).getD 0 ||| BitVec.ofInt 64 v) := by
  simp only [next, hlive]
  exact level_drive_self buses bus v

end Call

/-- Fresh buses after some calls, each of which may have faulted. -/
def after [Logger] (calls : List Call) : Buses :=
  calls.foldl (fun buses call => (call.perform.run buses).state) {}

/-- The answer to a call that follows some others. -/
def reply [Logger] (calls : List Call) (call : Call) : Except Fault Reply :=
  (call.perform.run (after calls)).outcome

/-- Among some calls, an assignment of a value to a bus has succeeded. -/
def Accepted [Logger] (calls : List Call) (bus : Bus) (v : Int) : Prop :=
  ∃ before rest, calls = before ++ .assign bus v :: rest ∧ reply before (.assign bus v) = .ok .done

theorem reply_eq [Logger] (calls : List Call) (call : Call) :
    reply calls call = call.answer (after calls) :=
  call.outcome_perform (after calls)

theorem after_concat [Logger] (calls : List Call) (call : Call) :
    after (calls ++ [call]) = call.next (after calls) := by
  unfold after
  rw [List.foldl_append]
  exact call.state_perform _

/-! ## The freeze -/

/-- The buses are frozen after the first freeze, and stay so. -/
theorem frozen_after [Logger] (calls : List Call) :
    (after calls).frozen = true ↔ .freeze ∈ calls := by
  induction calls using List.reverseRecOn with
  | nil => simp [after]
  | append_singleton calls call ih =>
    rw [after_concat, Call.frozen_next, ih, List.mem_append, List.mem_singleton, eq_comm]

theorem live_after [Logger] {calls : List Call} (h : .freeze ∉ calls) :
    (after calls).frozen = false :=
  Bool.eq_false_iff.mpr fun hfrozen => h ((frozen_after calls).mp hfrozen)

theorem reply_assign_of_live [Logger] {calls : List Call} (h : .freeze ∉ calls) (bus : Bus)
    (v : Int) :
    reply calls (.assign bus v) = .ok .done := by
  rw [reply_eq, Call.answer, live_after h]
  rfl

theorem reply_assign_of_frozen [Logger] {calls : List Call} (h : .freeze ∈ calls) (bus : Bus)
    (v : Int) :
    reply calls (.assign bus v) = .error .busFrozen := by
  rw [reply_eq, Call.answer, (frozen_after calls).mpr h]
  rfl

/-! ## What has been accepted -/

/-- One more call adds to what has been accepted if it assigns in time. -/
theorem accepted_concat [Logger] {calls : List Call} {call : Call} {bus : Bus} {v : Int} :
    Accepted (calls ++ [call]) bus v
      ↔ Accepted calls bus v ∨ call = .assign bus v ∧ .freeze ∉ calls := by
  constructor
  · rintro ⟨before, rest, hsplit, hok⟩
    rcases List.eq_nil_or_concat rest with rfl | ⟨rest', last, rfl⟩
    · obtain ⟨rfl, hlast⟩ := List.append_inj' hsplit rfl
      refine .inr ⟨List.singleton_inj.mp hlast, fun hfreeze => ?_⟩
      rw [reply_assign_of_frozen hfreeze] at hok
      cases hok
    · rw [List.concat_eq_append, ← List.cons_append, ← List.append_assoc] at hsplit
      obtain ⟨hcalls, -⟩ := List.append_inj' hsplit rfl
      exact .inl ⟨before, rest', hcalls, hok⟩
  · rintro (⟨before, rest, rfl, hok⟩ | ⟨rfl, hlive⟩)
    · exact ⟨before, rest ++ [call], by rw [List.append_assoc, List.cons_append], hok⟩
    · exact ⟨calls, [], rfl, reply_assign_of_live hlive bus v⟩

/-- A level that some values have been driven onto, in no order. -/
structure Gathers (values : Int → Prop) (level : Option Level) : Prop where
  isSome_iff : level.isSome = true ↔ ∃ v, values v
  getLsbD_iff : ∀ k, (level.getD 0).getLsbD k = true
    ↔ ∃ v, values v ∧ (BitVec.ofInt 64 v).getLsbD k = true

theorem Gathers.join {values : Int → Prop} {level : Option Level} (h : Gathers values level)
    (v : Int) :
    Gathers (fun u => values u ∨ u = v) (some (level.getD 0 ||| BitVec.ofInt 64 v)) where
  isSome_iff := ⟨fun _ => ⟨v, .inr rfl⟩, fun _ => rfl⟩
  getLsbD_iff := by
    intro k
    rw [Option.getD_some, BitVec.getLsbD_or, Bool.or_eq_true, h.getLsbD_iff]
    constructor
    · rintro (⟨u, hu, hbit⟩ | hbit)
      · exact ⟨u, .inl hu, hbit⟩
      · exact ⟨v, .inr rfl, hbit⟩
    · rintro ⟨u, hu | rfl, hbit⟩
      · exact .inl ⟨u, hu, hbit⟩
      · exact .inr hbit

/-- A bus gathers what has been accepted for it. -/
theorem gathers_after [Logger] (calls : List Call) (bus : Bus) :
    Gathers (Accepted calls bus) ((after calls).level bus) := by
  induction calls using List.reverseRecOn with
  | nil =>
    have hnone : ∀ v, ¬Accepted [] bus v := by
      rintro v ⟨before, rest, hsplit, -⟩
      simp at hsplit
    cases bus <;> exact ⟨by simp [after, level, hnone], by simp [after, level, hnone]⟩
  | append_singleton calls call ih =>
    rw [after_concat]
    by_cases hadds : (∃ v, call = .assign bus v) ∧ .freeze ∉ calls
    · obtain ⟨⟨v, rfl⟩, hlive⟩ := hadds
      have haccepted : Accepted (calls ++ [.assign bus v]) bus
          = fun u => Accepted calls bus u ∨ u = v := by
        funext u
        simp [accepted_concat, hlive, eq_comm]
      rw [haccepted, Call.level_next_assign (live_after hlive)]
      exact ih.join v
    · -- the call is another one, or it comes too late
      have haccepted : Accepted (calls ++ [call]) bus = Accepted calls bus := by
        funext u
        rw [accepted_concat, eq_iff_iff, or_iff_left]
        exact fun h => hadds ⟨⟨u, h.1⟩, h.2⟩
      have hlevel : (call.next (after calls)).level bus = (after calls).level bus := by
        by_cases hfreeze : .freeze ∈ calls
        · rw [Call.next_of_frozen ((frozen_after calls).mpr hfreeze)]
        · exact Call.level_next_of_ne (fun v hv => hadds ⟨⟨v, hv⟩, hfreeze⟩) _
      rw [haccepted, hlevel]
      exact ih

/-! ## The protocol -/

/-- The protocol of the buses, after any calls to fresh buses. As long as there has been no freeze,
every sample is refused, and every assignment and the first freeze are accepted. From then on every
assignment and every freeze is refused and changes nothing, and a sample delivers the word of 64
bits in which a bit is set if it is set in any value that has been accepted for the bus; neither the
order of the assignments nor a repetition nor what went to the other bus matters. At all times a bus
is driven if a value has been accepted for it, a zero included. -/
theorem freeze_discipline [Logger] (calls : List Call) (bus : Bus) (v : Int) :
    (.freeze ∉ calls →
        reply calls (.sample bus) = .error .busNotFrozen
          ∧ reply calls (.assign bus v) = .ok .done
          ∧ reply calls .freeze = .ok .done)
      ∧ (.freeze ∈ calls →
        reply calls (.assign bus v) = .error .busFrozen
          ∧ reply calls .freeze = .error .busFrozenTwice
          ∧ after (calls ++ [.assign bus v]) = after calls
          ∧ after (calls ++ [.freeze]) = after calls
          ∧ ∃ level : Level, reply calls (.sample bus) = .ok (.carried level.toInt)
            ∧ ∀ k, level.getLsbD k = true
              ↔ ∃ u, Accepted calls bus u ∧ (BitVec.ofInt 64 u).getLsbD k = true)
      ∧ ∃ isDriven, reply calls (.isDriven bus) = .ok (.driven isDriven)
        ∧ (isDriven = true ↔ ∃ u, Accepted calls bus u) := by
  refine ⟨?_, ?_, ?_⟩
  · intro hlive
    refine ⟨?_, reply_assign_of_live hlive bus v, ?_⟩
    · rw [reply_eq, Call.answer, live_after hlive]
      rfl
    · rw [reply_eq, Call.answer, live_after hlive]
      rfl
  · intro hfreeze
    have hfrozen := (frozen_after calls).mpr hfreeze
    refine ⟨reply_assign_of_frozen hfreeze bus v, ?_, ?_, ?_, ?_⟩
    · rw [reply_eq, Call.answer, hfrozen]
      rfl
    · rw [after_concat, Call.next_of_frozen hfrozen]
    · rw [after_concat, Call.next_of_frozen hfrozen]
    · refine ⟨((after calls).level bus).getD 0, ?_, (gathers_after calls bus).getLsbD_iff⟩
      rw [reply_eq, Call.answer, hfrozen]
      rfl
  · exact ⟨_, reply_eq calls (.isDriven bus), (gathers_after calls bus).isSome_iff⟩

/-- Two values on one bus, a zero on the other, an early sample and a late assignment. -/
def contended : List Call :=
  [.assign .a 12, .sample .a, .assign .b 0, .assign .a (-16), .freeze, .assign .a 1]

theorem freeze_discipline_contended :
    letI := Logger.silent
    reply (contended.take 4) (.sample .a) = .error .busNotFrozen
      ∧ reply contended (.freeze) = .error .busFrozenTwice
      ∧ after (contended ++ [.assign .b 5]) = after contended
      ∧ reply contended (.sample .a) = .ok (.carried (-4))
      ∧ reply contended (.isDriven .b) = .ok (.driven true) := by
  obtain ⟨hlive, -, -⟩ := @freeze_discipline .silent (contended.take 4) .a 0
  obtain ⟨-, hfrozen, -⟩ := @freeze_discipline .silent contended .b 5
  obtain ⟨-, htwice, hassign, -⟩ := hfrozen (by decide)
  exact ⟨(hlive (by decide)).1, htwice, hassign, rfl, rfl⟩

end TwoBus.Buses
