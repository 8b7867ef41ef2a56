import LatchSim.Latch
import LatchSim.Trace
import LatchSim.Update

/-!
# Circuits

A circuit has declared inputs and outputs, latches, updates in the order of their
application, and a trace of samples for its inputs. `Circuit.validate` finds the length of
a simulation or the first of the faults that rule one out.
-/

namespace LatchSim

structure Circuit where
  name : String
  inputs : List String
  outputs : List String
  latches : List Latch
  updates : List Update
  stimuli : List Trace
  deriving DecidableEq

namespace Circuit

def isInput (c : Circuit) (name : String) : Bool := c.inputs.contains name

/-- The names of inputs, latch outputs and update targets share one namespace. -/
def declared (c : Circuit) : List String :=
  c.inputs ++ c.latches.map (·.output) ++ c.updates.map (·.name)

/-- The first name that has come before, or is among the names already seen. -/
def firstRepeat? (seen : List String) : List String → Option String
  | [] => none
  | name :: rest => if name ∈ seen then some name else firstRepeat? (name :: seen) rest

theorem firstRepeat?_eq_none {seen names : List String} :
    firstRepeat? seen names = none ↔ names.Nodup ∧ ∀ name ∈ names, name ∉ seen := by
  induction names generalizing seen with
  | nil => simp [firstRepeat?]
  | cons name rest ih =>
    by_cases h : name ∈ seen
    · simp [firstRepeat?, h]
    · rw [firstRepeat?, if_neg h, ih]
      grind

def checkNames (c : Circuit) : Except Fault Unit :=
  match firstRepeat? [] c.declared with
  | some name => .error (.duplicateDeclaration name)
  | none => .ok ()

/-- All traces must have this length, and at least one sample. -/
def checkLengths (expected : Nat) : List Trace → Except Fault Unit
  | [] => .ok ()
  | t :: rest =>
    if t.isEmpty then .error (.timelines (.emptyTrace t.signal))
    else if t.length ≠ expected then
      .error (.timelines (.otherLength t.signal t.length expected))
    else checkLengths expected rest

/-- The common length of the traces. -/
def commonLength (c : Circuit) : Except Fault Nat :=
  match c.stimuli with
  | [] => .error (.timelines .noTraces)
  | first :: _ => do
    checkLengths first.length c.stimuli
    return first.length

def checkDepths : List Update → Except Fault Unit
  | [] => .ok ()
  | u :: rest =>
    if Expr.depthLimit < u.expr.depth then
      .error (.tooDeep u.name u.expr.depth Expr.depthLimit)
    else checkDepths rest

/-- Every trace must drive a declared input and have all its samples. -/
def checkStimuli (c : Circuit) : List Trace → Except Fault Unit
  | [] => .ok ()
  | t :: rest =>
    if ! c.isInput t.signal then .error (.undeclaredStimulus t.signal)
    else
      match t.firstUnset? with
      | some cycle => .error (.unsetStimulus t.signal cycle)
      | none => c.checkStimuli rest

/-- The number of cycles of a simulation. -/
def validate (c : Circuit) : Except Fault Nat := do
  c.checkNames
  let length ← c.commonLength
  checkDepths c.updates
  c.checkStimuli c.stimuli
  return length

end Circuit
end LatchSim
