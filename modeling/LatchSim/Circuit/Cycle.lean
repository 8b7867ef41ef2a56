import LatchSim.Circuit

/-!
# Cycles

One cycle binds the samples of the inputs, moves the latches, applies the updates, and
records the outputs. The first cycle begins with an empty store and resets the latches
instead of moving them.
-/

namespace LatchSim.Circuit

/-- Binds the samples of a cycle in the order of the traces. -/
def bindStimuli (c : Circuit) (cycle : Nat) : List Trace → Store → Outcome
  | [], s => .done s
  | t :: rest, s =>
    if ! c.isInput t.signal then .stopped s (.undeclaredStimulus t.signal)
    else
      match t.get? cycle with
      | none => .stopped s (.unsetStimulus t.signal cycle)
      | some value => c.bindStimuli cycle rest (s.set t.signal value)

def firstCycle (c : Circuit) : Outcome :=
  (c.bindStimuli 0 c.stimuli .empty).andThen fun s =>
    Update.applyAll c.updates (Latch.resetAll c.latches s)

def nextCycle (c : Circuit) (cycle : Nat) (s : Store) : Outcome :=
  ((c.bindStimuli cycle c.stimuli s).andThen (Latch.advanceAll c.latches)).andThen
    (Update.applyAll c.updates)

/-- Writes the current value of every traced signal. -/
def record (cycle : Nat) (s : Store) : List Trace → Except Fault (List Trace)
  | [] => .ok []
  | t :: rest => do
    let value ← s.read t.signal
    let t ← t.set cycle value
    return t :: (← record cycle s rest)

end LatchSim.Circuit
