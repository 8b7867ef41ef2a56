import LatchSim.Store

/-!
# Faults

Why a circuit is refused, a run fails, or a call is rejected. `Fault.message` words each
cause; names are shown as they are.
-/

namespace LatchSim

/-- How far a simulator has come. `stepped t` tells that cycle `t`, from `1` on, is done. -/
inductive Phase where
  | fresh
  | started
  | stepped (cycle : Nat)
  | terminated
  | failed
  deriving DecidableEq

def Phase.text : Phase → String
  | fresh => "uninitialized"
  | started => "initialized"
  | stepped cycle => "stepped(" ++ toString cycle ++ ")"
  | terminated => "terminated"
  | failed => "failed"

inductive Operation where
  | start
  | step
  | run
  | exportOutputs
  deriving DecidableEq

def Operation.text : Operation → String
  | start => "initialize"
  | step => "step"
  | run => "run"
  | exportOutputs => "export outputs"

/-- What is wrong with the lengths of the input traces. -/
inductive TimelineFault where
  | noTraces
  | emptyTrace (signal : String)
  | otherLength (signal : String) (length expected : Nat)
  deriving DecidableEq

def TimelineFault.text : TimelineFault → String
  | noTraces => "no input traces supplied"
  | emptyTrace signal => "trace '" ++ signal ++ "' is empty"
  | otherLength signal length expected =>
    "trace '" ++ signal ++ "' has length " ++ toString length ++
      ", expected " ++ toString expected

inductive Fault where
  | duplicateDeclaration (name : String)
  | timelines (reason : TimelineFault)
  | undeclaredStimulus (signal : String)
  | undefined (name : String)
  | unsetStimulus (signal : String) (cycle : Nat)
  | cycleOutOfRange (signal : String) (cycle length : Nat)
  | tooDeep (name : String) (depth limit : Nat)
  | invalidTransition (operation : Operation) (phase : Phase)
  deriving DecidableEq

def Fault.message : Fault → String
  | duplicateDeclaration name =>
    "Signal declared more than once (inputs, latches or updates): " ++ name
  | timelines reason => "Input traces are empty or of different lengths: " ++ reason.text
  | undeclaredStimulus signal => "Input trace names an undeclared input: " ++ signal
  | undefined name => "Signal '" ++ name ++ "' is not defined in the environment"
  | unsetStimulus signal cycle =>
    "Input trace '" ++ signal ++ "' has no value at cycle " ++ toString cycle
  | cycleOutOfRange signal cycle length =>
    "Trace '" ++ signal ++ "' has " ++ toString length ++ " samples, cannot write cycle " ++
      toString cycle
  | tooDeep name depth limit =>
    "Expression for '" ++ name ++ "' is nested " ++ toString depth ++ " levels deep (limit " ++
      toString limit ++ ")"
  | invalidTransition operation phase =>
    "Cannot " ++ operation.text ++ " while simulator is " ++ phase.text

/-- Reads a name that has to be bound. -/
def Store.read (s : Store) (name : String) : Except Fault Bool :=
  match s.get? name with
  | some value => .ok value
  | none => .error (.undefined name)

theorem Store.read_eq_ok {s : Store} {name : String} {value : Bool} :
    s.read name = .ok value ↔ s.get? name = some value := by
  cases h : s.get? name <;> simp [Store.read, h]

end LatchSim
