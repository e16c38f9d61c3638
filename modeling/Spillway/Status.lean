/-!
# Status

Every operation of the library that can fail reports a `Status`: one of seven codes and a message
for the reader. A `Step` is an operation on a state; it hands back the state it leaves behind
whether it succeeds or not, so that a failed call and the calls after it can be reasoned about.
-/

namespace Spillway

/-- Kind of failure. -/
inductive StatusCode where
  | resourceLimitExceeded
  | storage
  | cancelled
  | invalidArgument
  | illegalState
  | arithmeticOverflow
  | internal
  deriving DecidableEq, Repr

/-- Name of a code as it is printed. -/
def StatusCode.name : StatusCode → String
  | resourceLimitExceeded => "RESOURCE_LIMIT_EXCEEDED"
  | storage => "IO_ERROR"
  | cancelled => "CANCELLED"
  | invalidArgument => "INVALID_ARGUMENT"
  | illegalState => "ILLEGAL_STATE"
  | arithmeticOverflow => "ARITHMETIC_OVERFLOW"
  | internal => "INTERNAL"

/-- A failure: what kind it is and what happened. -/
structure Status where
  code : StatusCode
  message : String
  deriving DecidableEq, Repr

namespace Status

/-- Code and message on one line. -/
def render (status : Status) : String :=
  status.code.name ++ ": " ++ status.message

/-- Whether the failure says that the query was cancelled. -/
def isCancelled (status : Status) : Bool :=
  status.code = .cancelled

def resourceLimitExceeded (message : String) : Status := ⟨.resourceLimitExceeded, message⟩

def storage (message : String) : Status := ⟨.storage, message⟩

def cancelled (message : String) : Status := ⟨.cancelled, message⟩

def invalidArgument (message : String) : Status := ⟨.invalidArgument, message⟩

def illegalState (message : String) : Status := ⟨.illegalState, message⟩

def arithmeticOverflow (message : String) : Status := ⟨.arithmeticOverflow, message⟩

def internal (message : String) : Status := ⟨.internal, message⟩

end Status

/-- A step on a state of type `σ` that yields an `α` or fails. In both cases the state it leaves
behind is part of the outcome. -/
abbrev Step (σ α : Type) : Type := ExceptT Status (StateM σ) α

namespace Step

variable {σ τ α : Type}

/-- The outcome of a step from a given state, with the state it leaves behind. -/
def outcome (step : Step σ α) (state : σ) : Except Status α × σ :=
  step.run.run state

/-- The value of a step from a given state and the state it leaves behind, if it succeeds. -/
def run? (step : Step σ α) (state : σ) : Except Status (α × σ) :=
  match step.outcome state with
  | (.ok value, state) => .ok (value, state)
  | (.error status, _) => .error status

/-- The step that fails and changes nothing. -/
def fail (status : Status) : Step σ α :=
  throw status

/-- A result computed beforehand, as a step that changes nothing. -/
def ofExcept (result : Except Status α) : Step σ α :=
  ExceptT.mk (pure result)

/-- The step to the state that a function computes; a failure changes nothing. -/
def transition (next : σ → Except Status (α × σ)) : Step σ α :=
  fun state =>
    match next state with
    | .ok (value, state) => (.ok value, state)
    | .error status => (.error status, state)

/-- Runs a step on one part of a larger state. -/
def focus (view : σ → τ) (update : σ → τ → σ) (step : Step τ α) : Step σ α :=
  fun state =>
    let (result, part) := step.outcome (view state)
    (result, update state part)

/-- Runs a step and hands its failure over as a value, so that what it left behind stays. -/
def attempt (step : Step σ α) : Step σ (Except Status α) :=
  fun state =>
    let (result, next) := step.outcome state
    (.ok result, next)

/-- Changes the failure of a step. -/
def mapFailure (change : Status → Status) (step : Step σ α) : Step σ α :=
  fun state =>
    let (result, next) := step.outcome state
    (result.mapError change, next)

theorem outcome_fail (status : Status) (state : σ) :
    (fail status : Step σ α).outcome state = (.error status, state) :=
  rfl

theorem outcome_ofExcept (result : Except Status α) (state : σ) :
    (ofExcept result : Step σ α).outcome state = (result, state) :=
  rfl

theorem outcome_transition (next : σ → Except Status (α × σ)) (state : σ) :
    (transition next).outcome state =
      match next state with
      | .ok (value, state) => (.ok value, state)
      | .error status => (.error status, state) :=
  rfl

theorem outcome_focus (view : σ → τ) (update : σ → τ → σ) (step : Step τ α) (state : σ) :
    (focus view update step).outcome state =
      ((step.outcome (view state)).1, update state (step.outcome (view state)).2) :=
  rfl

theorem outcome_attempt (step : Step σ α) (state : σ) :
    step.attempt.outcome state = (.ok (step.outcome state).1, (step.outcome state).2) :=
  rfl

end Step

end Spillway
