import LatchSim.Fault

/-!
# Boolean expressions

Expressions over signals. `Expr.eval` always evaluates both operands, left first, so the
first unbound signal is reported even where the other operand decides the value.
-/

namespace LatchSim

inductive Expr where
  | signal (name : String)
  | and (left right : Expr)
  | or (left right : Expr)
  | not (operand : Expr)
  deriving DecidableEq

namespace Expr

/-- The deepest expression that a circuit may hold. -/
def depthLimit : Nat := 1024

def size : Expr → Nat
  | signal _ => 1
  | and left right | or left right => left.size + right.size + 1
  | not operand => operand.size + 1

/-- The levels of an expression; a signal has one. -/
def height : Expr → Nat
  | signal _ => 1
  | and left right | or left right => max left.height right.height + 1
  | not operand => operand.height + 1

/-- The nodes of a list of pending expressions. -/
def pendingSize : List (Expr × Nat) → Nat
  | [] => 0
  | (e, _) :: pending => e.size + pendingSize pending

/-- The deepest level in a list of pending expressions, each with its own level, or the
level found so far. -/
def deepest : List (Expr × Nat) → Nat → Nat
  | [], found => found
  | (signal _, level) :: pending, found => deepest pending (max found level)
  | (and left right, level) :: pending, found | (or left right, level) :: pending, found =>
    deepest ((right, level + 1) :: (left, level + 1) :: pending) (max found level)
  | (not operand, level) :: pending, found =>
    deepest ((operand, level + 1) :: pending) (max found level)
termination_by pending => pendingSize pending
decreasing_by all_goals (simp only [size, pendingSize]; omega)

/-- The nesting depth, found without recursion into the expression. -/
def depth (e : Expr) : Nat := deepest [(e, 1)] 0

/-- The signals of an expression from left to right, with repeats. -/
def signals : Expr → List String
  | signal name => [name]
  | and left right | or left right => left.signals ++ right.signals
  | not operand => operand.signals

def eval (s : Store) : Expr → Except Fault Bool
  | signal name => s.read name
  | and left right => do
    let l ← left.eval s
    let r ← right.eval s
    return l && r
  | or left right => do
    let l ← left.eval s
    let r ← right.eval s
    return l || r
  | not operand => do return ! (← operand.eval s)

/-- Looks for an unbound signal without evaluating. -/
def checkDefined (s : Store) : Expr → Except Fault Unit
  | signal name => if s.contains name then .ok () else .error (.undefined name)
  | and left right | or left right => do
    left.checkDefined s
    right.checkDefined s
  | not operand => operand.checkDefined s

end Expr
end LatchSim
