import Workflow.Document.Basic
import Workflow.Run.Backoff
import Workflow.Run.Outcome

namespace Workflow

/-- What an attempt comes to. -/
abbrev AttemptResult := Except (ErrorKind × String) Json

/-- What follows an attempt: the execution ends, or there is another attempt after a pause. -/
inductive Verdict where
  | ended (outcome : Outcome)
  | again (pauseMs : Nat)

namespace RuntimePolicy

/-- Whether a failed attempt is followed by another. -/
def retries? (p : RuntimePolicy) (attempt : Nat) (kind : ErrorKind) : Bool :=
  kind.isRetryable && attempt < p.retries

/-- What follows the result of an attempt of a node. -/
def verdict (p : RuntimePolicy) (b : Backoff) (id : String) (attempt : Nat) :
    AttemptResult → Verdict
  | .ok v => .ended (.succeeded v)
  | .error (kind, message) =>
    if p.retries? attempt kind then .again (b.delay p.backoffMs attempt)
    else .ended (.failed ⟨some id, kind, attempt, message⟩)

end RuntimePolicy

end Workflow
