import TwoBus.Operation

/-!
# The panel

A panel is where an operator sits: it has the switches of the log, and the operator turns them,
leaves remarks in the log, and works the machine. A request is served under the switches as they
stand then, and its log is what was printed.
-/

namespace TwoBus

/-- Something to work on, and the switches of its log. -/
structure Panel (σ : Type) where
  state : σ
  switches : Switches := {}

/-- What an operator asks for, with operations of type `ω`. -/
inductive Request (ω : Type)
  | setSwitches (switches : Switches)
  | remark (text : String)
  | operate (op : ω)
  deriving DecidableEq, Repr

namespace Panel

variable {σ ω : Type}

def statePart : Part (Panel σ) σ where
  get panel := panel.state
  set panel state := { panel with state := state }

/-- The activity that serves a request. -/
def activity (perform : ω → Activity σ Answer) : Request ω → Activity (Panel σ) Answer
  | .setSwitches switches => do
    modify fun panel => { panel with switches := switches }
    return .done
  | .remark text => do
    Activity.announce (.remark text)
    return .done
  | .operate op => Activity.focus statePart (perform op)

/-- The answer to a request, served under the switches of the panel, the panel afterwards, and what
was printed. -/
def serve (perform : ω → Activity σ Answer) (request : Request ω) (panel : Panel σ) :
    Except Fault Answer × Panel σ × String :=
  let r := (activity perform request).react panel.switches panel
  (r.outcome, r.state, r.trace.log)

/-- Serve a list of requests in order, whatever faults they end with. -/
def serveAll (perform : ω → Activity σ Answer) :
    List (Request ω) → Panel σ → List (Except Fault Answer × String) × Panel σ
  | [], panel => ([], panel)
  | request :: requests, panel =>
    let (answer, panel, log) := panel.serve perform request
    let (answers, panel) := serveAll perform requests panel
    ((answer, log) :: answers, panel)

end Panel

end TwoBus
