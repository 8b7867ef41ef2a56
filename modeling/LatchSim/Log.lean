import LatchSim.Fault

/-!
# The log

What a run reports while it goes on. Every write to a store by a latch or an update has an
entry of its own, made just before the write.
-/

namespace LatchSim

inductive Entry where
  | latch (output input : String) (value : Bool)
  | update (name : String) (value : Bool)
  | simulating (circuit : String)
  | firstCycle (length : Nat)
  | cycle (t : Nat)
  | finished (circuit : String) (length : Nat)
  | failed (circuit : String) (fault : Fault)
  deriving DecidableEq

/-- An entry as a line: its level, then its message. -/
def Entry.text : Entry → String
  | latch output input value =>
    "TRACE latch " ++ output ++ " <= " ++ input ++ " (" ++ toString value ++ ")"
  | update name value => "TRACE update " ++ name ++ " = " ++ toString value
  | simulating circuit => "INFO Simulating circuit '" ++ circuit ++ "'"
  | firstCycle length => "DEBUG cycle 0 (initialize), sim_length " ++ toString length
  | cycle t => "DEBUG cycle " ++ toString t
  | finished circuit length =>
    "INFO Circuit '" ++ circuit ++ "' finished after " ++ toString length ++ " cycles"
  | failed circuit fault =>
    "ERROR Circuit '" ++ circuit ++ "' failed: " ++ fault.message

end LatchSim
