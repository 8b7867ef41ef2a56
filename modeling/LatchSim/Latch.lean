import LatchSim.Outcome

/-!
# Latches

A latch carries a value from one cycle to the next. Latches that feed each other move
together: `Latch.advanceAll` samples every input before it writes any output.
-/

namespace LatchSim

structure Latch where
  input : String
  output : String
  deriving DecidableEq

namespace Latch

/-- At power-on the output is low. -/
def reset (l : Latch) (s : Store) : Store := s.set l.output false

def sample (l : Latch) (s : Store) : Except Fault Bool := s.read l.input

def store (l : Latch) (value : Bool) (s : Store) : Outcome :=
  .write s l.output value (.latch l.output l.input value)

/-- Copies the input of one latch to its output. -/
def advance (l : Latch) (s : Store) : Outcome :=
  match l.sample s with
  | .error fault => .stopped s fault
  | .ok value => l.store value s

def resetAll (latches : List Latch) (s : Store) : Store := latches.foldl (fun s l => l.reset s) s

/-- The inputs of all latches in order, or the fault of the first that is unbound. -/
def sampleAll (s : Store) : List Latch → Except Fault (List Bool)
  | [] => .ok []
  | l :: rest => do return (← l.sample s) :: (← sampleAll s rest)

def storeAll : List (Latch × Bool) → Store → Outcome
  | [], s => .done s
  | (l, value) :: rest, s => (l.store value s).andThen (storeAll rest)

def advanceAll (latches : List Latch) (s : Store) : Outcome :=
  match sampleAll s latches with
  | .error fault => .stopped s fault
  | .ok values => storeAll (latches.zip values) s

end Latch
end LatchSim
