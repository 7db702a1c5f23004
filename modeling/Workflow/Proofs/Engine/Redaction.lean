import Workflow.Proofs.Context.Token
import Workflow.Proofs.Engine.Recasting

namespace Workflow

variable {μ : Type}

def Run.redact (r : Run μ) : Run μ := { r with context := r.context.redact }

namespace Schedule

/-- All that goes on in an engine, without the tokens of its runs. -/
def redact (s : Schedule μ) : Schedule μ := { s with runs := s.runs.map Run.redact }

end Schedule

/-- No run can tell its token. -/
def Recast.redaction : Recast where
  apply _ c := c.redact
  traceId _ _ := rfl
  complete _ _ _ x := Progress.complete_redact x
  bind w run _ c inputs id n _ := Slot.bind_redact w run id c inputs n.state
  again _ _ := rfl

namespace Schedule

variable {e : Engine μ} {s : Schedule μ} {run : Nat}

@[simp] theorem runs_redact : s.redact.runs[run]? = (s.runs[run]?).map Run.redact :=
  List.getElem?_map

theorem coordinate_enrol_redact_congr {r r' : Run μ} (h : r.redact = r'.redact) :
    ((s.enrol r).2.coordinate (s.enrol r).1).redact =
      ((s.enrol r').2.coordinate (s.enrol r').1).redact :=
  coordinate_enrol_congr (g := .redaction) h

/-- Schedules that are the same but for tokens stay so. -/
theorem advance_redact_congr (n : Nat) {s s' : Schedule μ} (h : s.redact = s'.redact) :
    (s.advance e n).redact = (s'.advance e n).redact :=
  advance_recast_congr (g := .redaction) n h

end Schedule

end Workflow
