import LatchSim.Format.Report
import LatchSim.Text.Utf8

/-!
# Sessions

A session drives a simulator through bytes, numbers and zero-terminated names, for callers
that know no richer data. Calls answer a status: `0` or the value of a signal where they
succeed, and `-1` where they do not.
-/

namespace LatchSim

abbrev Bytes := List UInt8

/-- A session without a simulator answers every call, but none with success. -/
structure Session where
  simulator? : Option Simulator
  deriving DecidableEq

namespace Session

/-- A status, and the message of a fault where the caller asked for messages. -/
structure Answer where
  session : Session
  status : Int
  notice? : Option String
  deriving DecidableEq

/-- A message for the caller. Zero characters cannot be handed over and become spaces. -/
def notice? (listening : Bool) (message : String) : Option String :=
  if listening then some (message.map fun c => if c = '\x00' then ' ' else c) else none

/-- A text for the caller, unless it holds a zero character. -/
def handOver? (text : String) : Option String :=
  if text.toList.contains '\x00' then none else some text

/-- The name in front of the first zero byte. -/
def nameOf? (bytes? : Option Bytes) : Option String :=
  bytes?.bind fun bytes => (Text.Utf8.decode (bytes.takeWhile (· ≠ 0))).toOption

/-- Opens a session on the JSON text of a circuit. -/
def create (listening : Bool) (json? : Option Bytes) : Session × Option String :=
  match json? with
  | none => (⟨none⟩, notice? listening "Null JSON pointer")
  | some bytes =>
    match Text.Utf8.decode bytes with
    | .error fault => (⟨none⟩, notice? listening ("Invalid UTF-8 in JSON: " ++ fault.message))
    | .ok text =>
      match Circuit.ofJson text with
      | .error fault => (⟨none⟩, notice? listening fault.message)
      | .ok circuit => (⟨some (.ofCircuit circuit)⟩, none)

/-- Makes a call of the simulator, if there is one. -/
def call (session : Session) (listening : Bool) (operation : Simulator → Reply α) : Answer :=
  match session.simulator? with
  | none => ⟨session, -1, none⟩
  | some sim =>
    let reply := operation sim
    match reply.result with
    | .ok _ => ⟨⟨some reply.simulator⟩, 0, none⟩
    | .error fault => ⟨⟨some reply.simulator⟩, -1, notice? listening fault.message⟩

def run (session : Session) (listening : Bool) : Answer := session.call listening Simulator.run

/-- Runs the next cycle, which is the first on a fresh simulator. -/
def step (session : Session) (listening : Bool) : Answer :=
  session.call listening fun sim => if sim.phase = .fresh then sim.start else sim.step

def statusOf : Option Bool → Int
  | some true => 1
  | some false => 0
  | none => -1

/-- The current value of a signal. -/
def peek (session : Session) (name? : Option Bytes) : Int :=
  statusOf do
    let sim ← session.simulator?
    let name ← nameOf? name?
    sim.store.get? name

/-- The recorded value of an output, once every cycle has run. -/
def outputValue (session : Session) (name? : Option Bytes) (cycle : Nat) : Int :=
  statusOf do
    let sim ← session.simulator?
    let name ← nameOf? name?
    let trace ← sim.output? name
    trace.get? cycle

/-- The length of the simulation, once a cycle has begun. -/
def length (session : Session) : Nat :=
  match session.simulator? with
  | none => 0
  | some sim => sim.length

def outputNames? (session : Session) : Option String := do
  let sim ← session.simulator?
  handOver? (",".intercalate sim.circuit.outputs)

def outputsJson? (session : Session) : Option String := do
  let sim ← session.simulator?
  handOver? (← sim.outputsJson.toOption)

end Session
end LatchSim
