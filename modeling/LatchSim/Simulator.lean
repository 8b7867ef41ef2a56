import LatchSim.Circuit.Cycle

/-!
# Simulators

A simulator takes a circuit through its cycles: `start` for the first, `step` for the next,
`run` for all that remain. A fault of a cycle ends the simulation for good; a call that
comes out of order is rejected and changes nothing.
-/

namespace LatchSim

structure Simulator where
  circuit : Circuit
  store : Store
  phase : Phase
  /-- The number of cycles, zero before the circuit has been validated. -/
  length : Nat
  /-- A trace for each declared output. -/
  recorded : List Trace
  deriving DecidableEq

/-- What a call leaves behind. -/
structure Reply (α : Type) where
  simulator : Simulator
  result : Except Fault α
  log : List Entry

def Reply.andThen (reply : Reply α) (next : Simulator → Reply β) : Reply β :=
  match reply.result with
  | .error fault => ⟨reply.simulator, .error fault, reply.log⟩
  | .ok _ =>
    let last := next reply.simulator
    { last with log := reply.log ++ last.log }

namespace Simulator

def ofCircuit (c : Circuit) : Simulator := ⟨c, .empty, .fresh, 0, []⟩

/-- The answer to a call that comes out of order. -/
def reject (sim : Simulator) (operation : Operation) : Reply α :=
  ⟨sim, .error (.invalidTransition operation sim.phase), []⟩

/-- The answer to a call that ends the simulation, with the entries made before. -/
def fail (sim : Simulator) (log : List Entry) (fault : Fault) : Reply α :=
  ⟨{ sim with phase := .failed }, .error fault, log ++ [.failed sim.circuit.name fault]⟩

/-- The phase after a cycle. -/
def phaseAfter (cycle length : Nat) : Phase :=
  if length ≤ cycle + 1 then .terminated
  else if cycle = 0 then .started
  else .stepped cycle

/-- Takes over what a cycle has done to the store, and records the outputs. -/
def complete (sim : Simulator) (cycle : Nat) (opening : Entry) (o : Outcome) : Reply Unit :=
  let sim := { sim with store := o.store }
  let log := opening :: o.log
  match o.fault? with
  | some fault => sim.fail log fault
  | none =>
    match Circuit.record cycle o.store sim.recorded with
    | .error fault => sim.fail log fault
    | .ok recorded =>
      ⟨{ sim with recorded := recorded, phase := phaseAfter cycle sim.length }, .ok (), log⟩

/-- Validates the circuit and runs the first cycle. -/
def start (sim : Simulator) : Reply Unit :=
  if sim.phase ≠ .fresh then sim.reject .start
  else
    match sim.circuit.validate with
    | .error fault => sim.fail [] fault
    | .ok length =>
      let recorded := sim.circuit.outputs.map (Trace.unset · length)
      { sim with length := length, recorded := recorded }.complete 0 (.firstCycle length)
        sim.circuit.firstCycle

def stepTo (sim : Simulator) (cycle : Nat) : Reply Unit :=
  sim.complete cycle (.cycle cycle) (sim.circuit.nextCycle cycle sim.store)

/-- Runs the next cycle. -/
def step (sim : Simulator) : Reply Unit :=
  match sim.phase with
  | .started => sim.stepTo 1
  | .stepped cycle => sim.stepTo (cycle + 1)
  | _ => sim.reject .step

/-- The number of cycles still to run. -/
def remaining (sim : Simulator) : Nat :=
  match sim.phase with
  | .started => sim.length - 1
  | .stepped cycle => sim.length - 1 - cycle
  | _ => 0

def steps : Nat → Simulator → Reply Unit
  | 0, sim => ⟨sim, .ok (), []⟩
  | count + 1, sim => sim.step.andThen (steps count)

/-- Runs the remaining cycles and reports the end of the simulation. -/
def finish (sim : Simulator) : Reply (List Trace) :=
  (steps sim.remaining sim).andThen fun sim =>
    ⟨sim, .ok sim.recorded, [.finished sim.circuit.name sim.length]⟩

/-- Runs all cycles that remain and answers the output traces. -/
def run (sim : Simulator) : Reply (List Trace) :=
  match sim.phase with
  | .fresh =>
    let reply := sim.start.andThen finish
    { reply with log := .simulating sim.circuit.name :: reply.log }
  | .started | .stepped _ => sim.finish
  | _ => sim.reject .run

/-- The last cycle that is complete. -/
def cycle? (sim : Simulator) : Option Nat :=
  match sim.phase with
  | .started => some 0
  | .stepped cycle => some cycle
  | .terminated => some (sim.length - 1)
  | .fresh | .failed => none

def peek (sim : Simulator) (name : String) : Except Fault Bool := sim.store.read name

/-- The output traces, once every cycle has run. -/
def outputs? (sim : Simulator) : Option (List Trace) :=
  if sim.phase = .terminated then some sim.recorded else none

/-- The first output trace of a name. -/
def output? (sim : Simulator) (name : String) : Option Trace :=
  sim.outputs?.bind fun traces => traces.find? fun t => t.signal == name

end Simulator

/-- Structural counts. -/
structure Stats where
  inputs : Nat
  outputs : Nat
  latches : Nat
  updates : Nat
  signals : Nat
  deriving DecidableEq

def Simulator.stats (sim : Simulator) : Stats where
  inputs := sim.circuit.inputs.length
  outputs := sim.circuit.outputs.length
  latches := sim.circuit.latches.length
  updates := sim.circuit.updates.length
  signals := sim.store.size

end LatchSim
