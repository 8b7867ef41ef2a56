import LatchSim.Expr
import LatchSim.Outcome

/-!
# Updates

An update assigns the value of an expression to a signal. Updates run one after another,
and the first fault ends them.
-/

namespace LatchSim

structure Update where
  name : String
  expr : Expr
  deriving DecidableEq

namespace Update

/-- Checks the expression, evaluates it, and writes the result. -/
def apply (u : Update) (s : Store) : Outcome :=
  match u.expr.checkDefined s with
  | .error fault => .stopped s fault
  | .ok () =>
    match u.expr.eval s with
    | .error fault => .stopped s fault
    | .ok value => .write s u.name value (.update u.name value)

def applyAll : List Update → Store → Outcome
  | [], s => .done s
  | u :: rest, s => (u.apply s).andThen (applyAll rest)

end Update
end LatchSim
