import SchemaChange.Call

/-!
# Delivery

Sends the steps of a migration to the target system one after the other. Every answer is judged, a
failure never keeps the later steps from being sent, and a tally says how each step ended.
-/

namespace SchemaChange

/-- An answer of the target system. -/
structure Reply where
  status : Nat
  body : String
  deriving DecidableEq, Repr

/-- A target system with a state of its own. A call that cannot be delivered gives an error text. -/
abbrev Service (σ : Type) := Call → σ → Except String Reply × σ

/-- How a step ended. -/
inductive Verdict where
  | applied
  | alreadyPresent
  | skipped
  | failed (reason : String)
  deriving DecidableEq, Repr

/-- Whether nothing went wrong. -/
def Verdict.isSuccess : Verdict → Bool
  | .failed _ => false
  | _ => true

namespace Reply

def accepted (reply : Reply) : Bool :=
  reply.status == 200 || reply.status == 201

/-- The message of the first error that the body lists. -/
def firstMessage? (reply : Reply) : Option String := do
  let body ← Json.ofChars? reply.body.toList
  let errors ← body.member? "errors"
  let error ← errors.first?
  let message ← error.member? "message"
  message.text?

/-- Whether the first listed error says that the thing to create is there already. -/
def reportsExisting (reply : Reply) : Bool :=
  match reply.firstMessage? with
  | some message => Text.occursIn "already exists".toList (Text.lower message).toList
  | none => false

def rejection (reply : Reply) : Verdict :=
  .failed (toString reply.status ++ " " ++ reply.body)

/-- The verdict on the answer to a new field. A field that is there already is no failure; the
target system says so by a conflict or in the message of a bad request. -/
def fieldVerdict (reply : Reply) : Verdict :=
  if reply.accepted then .applied
  else if reply.status = 409 || reply.status = 400 && reply.reportsExisting then .alreadyPresent
  else reply.rejection

/-- The verdict on the answer to a new record. -/
def recordVerdict (reply : Reply) : Verdict :=
  if reply.accepted then .applied else reply.rejection

end Reply

/-- The verdict on what came back from a call: an answer is judged, and a call that could not be
delivered has failed. -/
def Verdict.ofAnswer (judge : Reply → Verdict) : Except String Reply → Verdict
  | .error text => .failed text
  | .ok reply => judge reply

/-- How often steps ended in each way, and which of them failed and why. -/
structure Tally where
  applied : Nat
  alreadyPresent : Nat
  skipped : Nat
  failed : List (Step × String)
  deriving Repr, BEq

namespace Tally

def empty : Tally :=
  ⟨0, 0, 0, []⟩

def record (tally : Tally) (step : Step) : Verdict → Tally
  | .applied => { tally with applied := tally.applied + 1 }
  | .alreadyPresent => { tally with alreadyPresent := tally.alreadyPresent + 1 }
  | .skipped => { tally with skipped := tally.skipped + 1 }
  | .failed reason => { tally with failed := tally.failed ++ [(step, reason)] }

def successes (tally : Tally) : Nat :=
  tally.applied + tally.alreadyPresent + tally.skipped

def size (tally : Tally) : Nat :=
  tally.successes + tally.failed.length

def allSucceeded (tally : Tally) : Bool :=
  tally.failed.isEmpty

def display (tally : Tally) : String :=
  toString tally.successes ++ " succeeded (" ++ toString tally.applied ++ " applied, " ++
    toString tally.alreadyPresent ++ " already present, " ++ toString tally.skipped ++
    " skipped), " ++ toString tally.failed.length ++ " failed, " ++ toString tally.size ++ " total"

end Tally

namespace Delivery

variable {σ : Type}

/-- Sends one step, if it asks for a call at all. -/
def send (service : Service σ) (step : Step) (state : σ) : Verdict × σ :=
  match step.effect with
  | .addField name _ spec =>
    let (answer, state) := service (.createField step.table name spec) state
    (.ofAnswer Reply.fieldVerdict answer, state)
  | .addRow row =>
    let (answer, state) := service (.createRecord step.table row) state
    (.ofAnswer Reply.recordVerdict answer, state)
  | .addIndex .. => (.skipped, state)

/-- Sends steps in order and adds their verdicts to a tally. -/
def runFrom (service : Service σ) (tally : Tally) : List Step → σ → Tally × σ
  | [], state => (tally, state)
  | step :: steps, state =>
    let (verdict, state) := send service step state
    runFrom service (tally.record step verdict) steps state

/-- Sends steps in order. -/
def run (service : Service σ) (steps : List Step) (state : σ) : Tally × σ :=
  runFrom service Tally.empty steps state

/-- Steps in two parts are sent one part after the other. -/
theorem runFrom_append (service : Service σ) (tally : Tally) (first later : List Step) (state : σ) :
    runFrom service tally (first ++ later) state =
      let (tally, state) := runFrom service tally first state
      runFrom service tally later state := by
  induction first generalizing tally state with
  | nil => rfl
  | cons step first ih => exact ih _ _

end Delivery

end SchemaChange
