import Mathlib.Data.List.Forall2
import LatchSim.Proofs.Lifecycle

/-!
# The history of the outputs

Samples are recorded one cycle after the other, in traces that the outside sees only at the
end. What it sees then is what it could have read from the store after each of the cycles:
`Reachable.recalled`.
-/

namespace LatchSim

variable {c d : Circuit} {sim : Simulator} {n n' t cycles cycles' : Nat}

/-- Two traces of one signal with the same samples up to a cycle. -/
structure Trace.AgreeUpTo (t : Nat) (a b : Trace) : Prop where
  signal : b.signal = a.signal
  samples : ∀ i ≤ t, b.get? i = a.get? i

namespace Circuit

/-- Recordings of the same outputs are compared output by output. -/
theorem recording_forall₂ {R : Trace → Trace → Prop} (outputs : d.outputs = c.outputs)
    (each : ∀ a ∈ c.recording n cycles, ∀ b ∈ d.recording n' cycles', b.signal = a.signal →
      R a b) :
    List.Forall₂ R (c.recording n cycles) (d.recording n' cycles') := by
  rw [recording, recording, outputs, List.forall₂_map_left_iff, List.forall₂_map_right_iff,
    List.forall₂_same]
  intro o output
  apply each
  · exact List.mem_map.mpr ⟨o, output, rfl⟩
  · exact List.mem_map.mpr ⟨o, outputs ▸ output, rfl⟩
  · rfl

/-- Where the cycles up to `t` leave the same values, recordings that contain these cycles
agree on them. -/
theorem recording_agreeUpTo (outputs : d.outputs = c.outputs)
    (views : ∀ i ≤ t, (d.storeAfter i).view = (c.storeAfter i).view)
    (inside : t < cycles ∧ t < n) (inside' : t < cycles' ∧ t < n') :
    List.Forall₂ (Trace.AgreeUpTo t) (c.recording n cycles) (d.recording n' cycles') := by
  refine recording_forall₂ outputs fun a left b right same => ⟨same, fun i before => ?_⟩
  have here : i < cycles ∧ i < n := by omega
  have there : i < cycles' ∧ i < n' := by omega
  rw [recording_get? left i, recording_get? right i, if_pos here, if_pos there, same,
    views i before]

/-- Traces of one output are one trace. -/
theorem recording_unique {a b : Trace} (left : a ∈ c.recording n cycles)
    (right : b ∈ c.recording n cycles) (same : a.signal = b.signal) : a = b := by
  obtain ⟨o, -, rfl⟩ := List.mem_map.mp left
  obtain ⟨other, -, rfl⟩ := List.mem_map.mp right
  obtain rfl : o = other := same
  rfl

/-- The trace of an output holds what the output shows after each completed cycle. -/
theorem Completes.recorded (done : c.Completes n t) {trace : Trace}
    (member : trace ∈ c.recording n n) :
    (c.simulatorAfter n t).peek trace.signal = .ok ((c.storeAfter t).view trace.signal) ∧
      trace.get? t = some ((c.storeAfter t).view trace.signal) := by
  have output : trace.signal ∈ c.outputs := by
    have named := List.mem_map_of_mem (f := Trace.signal) member
    simpa using named
  constructor
  · exact Store.read_eq_view (contains_storeAfter.mpr (done.outputs output))
  · simp [recording_get? member, done.inside]

end Circuit

/-- The first trace of a name is found, and where all traces of it are one that loses nothing. -/
theorem Simulator.output?_of_mem {trace : Trace} (ended : sim.outputs? = some sim.recorded)
    (unique : ∀ other ∈ sim.recorded, other.signal = trace.signal → other = trace)
    (member : trace ∈ sim.recorded) : sim.output? trace.signal = some trace := by
  rw [output?, ended, Option.bind_some]
  cases found : sim.recorded.find? (·.signal == trace.signal) with
  | none => exact absurd (List.find?_eq_none.mp found trace member) (by simp)
  | some other =>
    have named : other.signal = trace.signal := by simpa using List.find?_some found
    rw [unique other (List.mem_of_find?_eq_some found) named]

/-- The output traces of a simulator are the history of its outputs. -/
structure Recalled (c : Circuit) (sim : Simulator) : Prop where
  outputs : sim.outputs? = some sim.recorded
  signals : sim.recorded.map (·.signal) = c.outputs
  /-- For each of the cycles there is one simulator that has just completed it. -/
  lived : ∀ t < sim.length, ∃! live, Reachable c live ∧ live.cycle? = some t
  /-- What an output shows there, all its traces hold as the sample of the cycle. -/
  samples : ∀ live t, Reachable c live → live.cycle? = some t →
    t < sim.length ∧ ∀ trace ∈ sim.recorded, ∃ value,
      live.peek trace.signal = .ok value ∧ trace.get? t = some value
  /-- A later cycle leaves the samples of the earlier ones where and as they are. -/
  kept : ∀ live later t u, Reachable c live → Reachable c later → live.cycle? = some t →
    later.cycle? = some u → t ≤ u → List.Forall₂ (Trace.AgreeUpTo t) live.recorded later.recorded
  alike : ∀ a ∈ sim.recorded, ∀ b ∈ sim.recorded, a.signal = b.signal → a = b
  found : ∀ trace ∈ sim.recorded, sim.output? trace.signal = some trace

/-- A simulator that has terminated has the history of its outputs. -/
theorem Reachable.recalled (reach : Reachable c sim) (terminated : sim.phase = .terminated) :
    Recalled c sim := by
  obtain ⟨done, same⟩ := reach.final terminated
  have recorded : sim.recorded = c.recording sim.length sim.length := by
    have all : sim.length - 1 + 1 = sim.length := Nat.sub_add_cancel done.valid.positive
    have written := congrArg Simulator.recorded same
    rwa [Circuit.simulatorAfter, all] at written
  have outputs : sim.outputs? = some sim.recorded := by simp [Simulator.outputs?, terminated]
  have alike : ∀ a ∈ sim.recorded, ∀ b ∈ sim.recorded, a.signal = b.signal → a = b := by
    rw [recorded]
    exact fun a left b right => Circuit.recording_unique left right
  constructor
  case outputs => exact outputs
  case alike => exact alike
  case signals => rw [recorded, Circuit.recording_signals]
  case found =>
    intro trace member
    exact Simulator.output?_of_mem outputs (fun other there => alike other there trace member)
      member
  case lived =>
    intro t inside
    have here : c.Completes sim.length t := done.mono (by omega)
    have lastHere := Circuit.cycle?_simulatorAfter (c := c) here.inside
    refine ⟨c.simulatorAfter sim.length t, ⟨.simulatorAfter here, lastHere⟩, ?_⟩
    rintro other ⟨reachToo, lastToo⟩
    obtain ⟨m, there, rfl⟩ := reachToo.completed lastToo
    rw [here.valid.unique there.valid]
  case samples =>
    intro live t reachToo lastToo
    obtain ⟨m, there, rfl⟩ := reachToo.completed lastToo
    obtain rfl := there.valid.unique done.valid
    refine ⟨there.inside, fun trace member => ?_⟩
    exact ⟨_, there.recorded (recorded ▸ member)⟩
  case kept =>
    intro live later t u reachLive reachLater lastLive lastLater order
    obtain ⟨m, here, rfl⟩ := reachLive.completed lastLive
    obtain ⟨m', there, rfl⟩ := reachLater.completed lastLater
    have inside := here.inside
    have inside' := there.inside
    exact Circuit.recording_agreeUpTo rfl (fun _ _ => rfl) (by omega) (by omega)

/-- The toggle run to its end, and what it showed after its second cycle. -/
theorem toggle_recalled :
    Reachable toggle ((Simulator.ofCircuit toggle).after [.start, .run]) ∧
      ((Simulator.ofCircuit toggle).after [.start, .run]).phase = .terminated ∧
      toggled.peek "q" = .ok true ∧
      ∀ trace ∈ ((Simulator.ofCircuit toggle).after [.start, .run]).recorded,
        trace.signal = "q" → trace.get? 1 = some true := by
  have reach : Reachable toggle ((Simulator.ofCircuit toggle).after [.start, .run]) :=
    Reachable.fresh.calls [.start, .run]
  have terminated : ((Simulator.ofCircuit toggle).after [.start, .run]).phase = .terminated := by
    decide +kernel
  have live : Reachable toggle toggled := Reachable.fresh.calls [.start, .step]
  have here : toggled.cycle? = some 1 := by decide +kernel
  have shown : toggled.peek "q" = .ok true := by decide +kernel
  refine ⟨reach, terminated, shown, fun trace member named => ?_⟩
  obtain ⟨value, peeked, sample⟩ :=
    ((Reachable.recalled reach terminated).samples toggled 1 live here).2 trace member
  rw [named, shown] at peeked
  obtain rfl : true = value := Except.ok.inj peeked
  exact sample

end LatchSim
