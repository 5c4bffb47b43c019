import Mathlib.Data.List.Forall2
import SchemaChange.Delivery

/-!
# The calls of a delivery

The plan of a migration says what becomes of each step; a delivery sends the steps one by one. The
calls that reach a service are those of the plan, in order, whatever the service answers.
-/

namespace SchemaChange

/-- The call for which a step asks: one for a field, one for a row, and none for an index. -/
def Step.call? (step : Step) : Option Call :=
  match step.effect with
  | .addField name _ spec => some (.createField step.table name spec)
  | .addRow row => some (.createRecord step.table row)
  | .addIndex .. => none

def Effect.isIndex : Effect → Bool
  | .addIndex .. => true
  | _ => false

theorem Step.call?_eq_none_iff (step : Step) : step.call? = none ↔ step.effect.isIndex = true := by
  unfold Step.call?
  cases step.effect <;> simp [Effect.isIndex]

/-- How a request is written for a call: what is to be done, the endpoint for the collection, and
the body that the call carries. -/
inductive Call.WrittenAs : Call → Json → Prop where
  | field {collection name : String} {spec : FieldSpec} :
      WrittenAs (.createField collection name spec)
        (.object [("action", .text "create_field"), ("path", .text (fieldEndpoint collection)),
          ("body", (Call.createField collection name spec).body)])
  | record {collection : String} {row : Row} :
      WrittenAs (.createRecord collection row)
        (.object [("action", .text "create_record"), ("path", .text (recordEndpoint collection)),
          ("body", (Call.createRecord collection row).body)])

namespace Dispatch

/-- The plan sends the call for which the step asks. -/
theorem call?_ofStep (step : Step) : (ofStep step).call? = step.call? := by
  unfold ofStep Step.call?
  cases step.effect <;> rfl

theorem exists_skip_iff (step : Step) :
    (∃ reason, ofStep step = .skip reason) ↔ step.call? = none := by
  rw [← call?_ofStep]
  cases ofStep step <;> simp [call?]

theorem writtenAs_toJson (call : Call) : call.WrittenAs (Dispatch.send call).toJson := by
  cases call with
  | createField => exact .field
  | createRecord => exact .record

/-- The requests of a plan that are not skipped are those of its calls, one for each. -/
theorem forall₂_writtenAs (plan : List Dispatch) :
    List.Forall₂ Call.WrittenAs (plan.filterMap call?)
      ((plan.filter fun dispatch => dispatch.call?.isSome).map toJson) := by
  induction plan with
  | nil => exact .nil
  | cons dispatch plan ih =>
    cases dispatch with
    | send call => exact .cons (writtenAs_toJson call) ih
    | skip reason => exact ih

end Dispatch

variable {σ : Type}

/-- A service that keeps a record of the calls that it gets and answers as before. -/
def Service.recorded (service : Service σ) : Service (σ × List Call) := fun call (state, calls) =>
  let (answer, state) := service call state
  (answer, state, calls ++ [call])

namespace Delivery

/-- The calls that a delivery makes, in order. -/
def transcript (service : Service σ) (steps : List Step) (state : σ) : List Call :=
  (run service.recorded steps (state, [])).2.2

/-- One step makes the call for which it asks, and the record does not disturb it. -/
theorem send_recorded (service : Service σ) (step : Step) (state : σ) (calls : List Call) :
    send service.recorded step (state, calls) =
      ((send service step state).1, (send service step state).2, calls ++ step.call?.toList) := by
  unfold send Step.call?
  cases step.effect with
  | addField name typeText spec => rfl
  | addIndex name columns => simp
  | addRow row => rfl

theorem runFrom_recorded (service : Service σ) (tally : Tally) (steps : List Step) (state : σ)
    (calls : List Call) :
    runFrom service.recorded tally steps (state, calls) =
      ((runFrom service tally steps state).1, (runFrom service tally steps state).2,
        calls ++ steps.filterMap Step.call?) := by
  induction steps generalizing tally state calls with
  | nil => simp [runFrom]
  | cons step steps ih =>
    have hcalls : calls ++ (step :: steps).filterMap Step.call? =
        calls ++ step.call?.toList ++ steps.filterMap Step.call? := by
      cases hcall : step.call? <;> simp [hcall]
    rw [runFrom, send_recorded, hcalls]
    exact ih _ _ _

/-- A service, whatever it answers, gets the calls of the plan: for each step the call for which it
asks, in the order of the steps. The requests of the plan are written for these calls, and those it
skips are the indexes. So another service gets the same calls, and a failure changes none. That the
calls are recorded makes no difference to the delivery. -/
theorem transcript_follows_plan {τ : Type} (service : Service σ) (other : Service τ)
    (steps : List Step) (state : σ) (otherState : τ) :
    transcript service steps state = steps.filterMap Step.call? ∧
    transcript service steps state = (steps.map Dispatch.ofStep).filterMap Dispatch.call? ∧
    List.Forall₂ Call.WrittenAs (transcript service steps state)
      (((steps.map Dispatch.ofStep).filter fun dispatch => dispatch.call?.isSome).map
        Dispatch.toJson) ∧
    (∀ step, (∃ reason, Dispatch.ofStep step = .skip reason) ↔ step.effect.isIndex = true) ∧
    transcript other steps otherState = transcript service steps state ∧
    run service.recorded steps (state, []) =
      ((run service steps state).1, (run service steps state).2,
        transcript service steps state) := by
  have hplan : (steps.map Dispatch.ofStep).filterMap Dispatch.call? =
      steps.filterMap Step.call? := by
    rw [List.filterMap_map]
    exact List.filterMap_congr fun step _ => Dispatch.call?_ofStep step
  have hcalls {ρ : Type} (service : Service ρ) (state : ρ) :
      transcript service steps state = steps.filterMap Step.call? := by
    rw [transcript, run, runFrom_recorded, List.nil_append]
  refine ⟨hcalls service state, (hcalls service state).trans hplan.symm, ?_, ?_, ?_, ?_⟩
  · rw [hcalls, ← hplan]
    exact Dispatch.forall₂_writtenAs _
  · intro step
    rw [Dispatch.exists_skip_iff, Step.call?_eq_none_iff]
  · rw [hcalls, hcalls]
  · rw [hcalls, run, runFrom_recorded, List.nil_append, run]

end Delivery

end SchemaChange
