import LatchSim.Format.Circuit
import LatchSim.Simulator

/-!
# Reports in JSON

What a simulator tells about itself: its phase, its counts, and its output traces.
-/

namespace LatchSim

def Phase.toValue : Phase → Json.Value
  | stepped cycle => .object [("stepped", .nat cycle)]
  | phase => .string phase.text

def Phase.toJson (phase : Phase) : String := phase.toValue.text

def Stats.toValue (stats : Stats) : Json.Value :=
  .object [
    ("input_count", .nat stats.inputs),
    ("output_count", .nat stats.outputs),
    ("latch_count", .nat stats.latches),
    ("update_count", .nat stats.updates),
    ("signal_count", .nat stats.signals)]

def Stats.toJson (stats : Stats) : String := stats.toValue.text

/-- The output traces as a list, once every cycle has run. -/
def Simulator.outputsJson (sim : Simulator) : Except Fault String :=
  match sim.outputs? with
  | some traces => .ok (Json.Value.list (traces.map Trace.toValue)).text
  | none => .error (.invalidTransition .exportOutputs sim.phase)

end LatchSim
