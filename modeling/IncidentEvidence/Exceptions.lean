import IncidentEvidence.Domain.Incidents

/-! # Exceptions

    The error classes of the LLM, persistence and application boundaries
    (`llm/errors.py`, `persistence/errors.py`, `application/errors.py`), and
    every exception that can travel through the use cases and the worker. What
    matters about an exception is which `except` clauses catch it, so a subclass
    is represented by the class the code names.
-/

namespace IncidentEvidence

open Py

/-! ### Error classes -/

/-- `llm/errors.py`. -/
inductive LLMError where
  | malformedProposal
  | emptyProposal
  | proposalSchema
  | unauthorizedEntity
  | tooManyPredicates
  | proposalTooLarge
  | providerTimeout
  | providerUnavailable
  | providerResponse
  | proposalsExhausted
  deriving DecidableEq

def LLMError.code : LLMError → Str
  | .malformedProposal => str "malformed_proposal"
  | .emptyProposal => str "empty_proposal"
  | .proposalSchema => str "proposal_schema_invalid"
  | .unauthorizedEntity => str "unauthorized_entity"
  | .tooManyPredicates => str "too_many_predicates"
  | .proposalTooLarge => str "proposal_too_large"
  | .providerTimeout => str "provider_timeout"
  | .providerUnavailable => str "provider_unavailable"
  | .providerResponse => str "provider_response_invalid"
  | .proposalsExhausted => str "proposals_exhausted"

/-- The subclasses of `LLMValidationError`. -/
def LLMError.isValidation : LLMError → Bool
  | .malformedProposal | .emptyProposal | .proposalSchema | .unauthorizedEntity
  | .tooManyPredicates | .proposalTooLarge => true
  | _ => false

/-- `persistence/errors.py`. -/
inductive PersistenceError where
  | invalidIdentifier
  | invalidTimestamp
  | invalidRecord
  | idempotencyConflict
  | recordNotFound
  deriving DecidableEq

/-- The subclasses of `PersistenceValidationError`. -/
def PersistenceError.isValidation : PersistenceError → Bool
  | .invalidIdentifier | .invalidTimestamp | .invalidRecord => true
  | _ => false

/-- `application/errors.py`. -/
inductive ApplicationError where
  | investigationNotFound
  | reportNotReady
  | telemetryUnavailable
  deriving DecidableEq

/-- Every domain error is a `ValueError` except `BaselineComputationError`, an
    `ArithmeticError`. -/
def DomainError.isValueError : DomainError → Bool
  | .baselineComputation => false
  | _ => true

/-! ### Exceptions -/

/-- An exception on its way up. -/
inductive PyException where
  | domain (e : DomainError)
  | llm (e : LLMError)
  | persistence (e : PersistenceError)
  | application (e : ApplicationError)
  /-- `_TerminalFailure` of the worker. -/
  | terminalFailure (code : Str)
  /-- `_RetryableFailure` of the worker. -/
  | retryableFailure (code : Str)
  | keyError
  | typeError
  | valueError
  | recursionError
  | overflowError
  | timeoutError
  /-- A `psycopg.Error` the driver raises. -/
  | database
  /-- Any other subclass of `Exception`. -/
  | other
  /-- A `BaseException` that is no `Exception`, such as `CancelledError`. -/
  | cancelled
  deriving DecidableEq

namespace PyException

/-- The instances of `ValueError`. -/
def isValueError : PyException → Bool
  | .domain e => e.isValueError
  | .llm e => e.isValidation
  | .persistence e => e.isValidation
  | .valueError => true
  | _ => false

/-- What `except Exception` catches. -/
def isException : PyException → Bool
  | .cancelled => false
  | _ => true

/-- The instances of `LLMValidationError`. -/
def isLLMValidationError : PyException → Bool
  | .llm e => e.isValidation
  | _ => false

end PyException

/-- A computation whose only exceptions are domain errors. -/
def liftDomain {α : Type} : Except DomainError α → Except PyException α
  | .ok a => .ok a
  | .error e => .error (.domain e)

@[simp] theorem liftDomain_eq_ok {α : Type} {x : Except DomainError α} {a : α} :
    liftDomain x = .ok a ↔ x = .ok a := by
  cases x <;> simp [liftDomain]

@[simp] theorem liftDomain_eq_error {α : Type} {x : Except DomainError α} {e : PyException} :
    liftDomain x = .error e ↔ ∃ d, x = .error d ∧ e = .domain d := by
  cases x <;> simp [liftDomain, eq_comm]

/-- `except` with the classes `caught`, whose handler raises `raised`. -/
def exceptRaise {α : Type} (caught : PyException → Bool) (raised : PyException) :
    Except PyException α → Except PyException α
  | .ok a => .ok a
  | .error e => if caught e then .error raised else .error e

@[simp] theorem exceptRaise_eq_ok {α : Type} {caught : PyException → Bool} {raised : PyException}
    {x : Except PyException α} {a : α} : exceptRaise caught raised x = .ok a ↔ x = .ok a := by
  cases x with
  | ok b => simp [exceptRaise]
  | error e =>
    unfold exceptRaise
    by_cases h : caught e = true
    · simp [h]
    · simp [h]

theorem exceptRaise_eq_error {α : Type} {caught : PyException → Bool} {raised e : PyException}
    {x : Except PyException α} :
    exceptRaise caught raised x = .error e ↔
      ∃ e₀, x = .error e₀ ∧ (if caught e₀ = true then raised else e₀) = e := by
  cases x with
  | ok b => simp [exceptRaise]
  | error e₀ =>
    unfold exceptRaise
    by_cases h : caught e₀ = true
    · simp [h]
    · simp [h]

end IncidentEvidence
