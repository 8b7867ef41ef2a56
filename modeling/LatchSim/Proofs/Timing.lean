import Mathlib.Control.Monad.Basic
import LatchSim.Proofs.Run
import LatchSim.Proofs.Signals

/-!
# Samples and registers in time

A latch shows after a cycle what its input held before it, with one exception: an input
that a trace drives has already taken its new sample when the latches move. A trace in turn
gives way only to a later trace of the same signal.
-/

namespace LatchSim

variable {c : Circuit} {sim : Simulator} {t : Nat}

/-- A step that goes well leads from one completed cycle to the next. -/
theorem Reachable.stepped (reach : Reachable c sim) (last : sim.cycle? = some t)
    (ok : sim.step.result = .ok ()) :
    ∃ n, c.Completes n (t + 1) ∧ sim = c.simulatorAfter n t ∧
      sim.step.simulator = c.simulatorAfter n (t + 1) := by
  obtain ⟨n, done, rfl⟩ := reach.completed last
  by_cases inside : t + 1 < n
  · obtain ⟨next, stepped⟩ := Simulator.completes_of_step done inside ok
    exact ⟨n, next, rfl, stepped⟩
  · obtain rfl : t + 1 = n := by have := done.inside; omega
    rw [Simulator.step, Simulator.phase_of_last] at ok
    cases ok

/-- A cycle that is completed has not failed on the way. -/
theorem Circuit.Completes.nextCycle {n : Nat} (done : c.Completes n (t + 1)) :
    (c.nextCycle (t + 1) (c.storeAfter t)).fault? = none := by
  have fault := Circuit.nextCycle_fault? done.valid done.inside done.updates
    fun _ => Circuit.contains_storeAfter (t := t)
  change _ = c.unresolvedInputs.head?.map _ at fault
  rw [fault, done.inputs t.succ_ne_zero]
  rfl

/-- A latch input that is bound after one cycle is bound again in the next. -/
theorem Circuit.Completes.input_bound {n : Nat} (done : c.Completes n (t + 1)) {l : Latch}
    (member : l ∈ c.latches) : l.input ∈ c.bound := by
  have none := List.filter_eq_nil_iff.mp (done.inputs t.succ_ne_zero)
  simpa using none l.input (List.mem_map.mpr ⟨l, member, rfl⟩)

/-- The delay of a register. Its output shows, from the moment the latches have moved and
through all the updates of the cycle, the sample of the new cycle where a trace drives the
input, and what the input held before the cycle otherwise. So the output is the input one
cycle late exactly where the input is not driven, or driven by two equal samples. -/
theorem latch_delay (reach : Reachable c sim) (last : sim.cycle? = some t)
    (ok : sim.step.result = .ok ()) {l : Latch} (member : l ∈ c.latches) :
    ∃ held now,
      sim.peek l.input = .ok held ∧ sim.step.simulator.peek l.output = .ok now ∧
      (∀ count, (c.partCycle (t + 1) count sim.store).store.read l.output = .ok now) ∧
      (∀ trace, c.stimulus? l.input = some trace → trace.get? (t + 1) = some now) ∧
      (now = held ↔
        ∀ trace, c.stimulus? l.input = some trace → trace.get? (t + 1) = trace.get? t) := by
  obtain ⟨n, done, rfl, stepped⟩ := reach.stepped last ok
  have valid := done.valid
  have heldBound : (c.storeAfter t).contains l.input = true :=
    Circuit.contains_storeAfter.mpr (done.input_bound member)
  refine ⟨(c.storeAfter t).view l.input, (c.driven (t + 1) (c.storeAfter t)).view l.input,
    Store.read_eq_view heldBound, ?_, ?_, ?_, Circuit.driven_view_eq_iff valid done.inside⟩
  · rw [stepped]
    exact Store.read_eq_ok.mpr (Circuit.next_latch valid member)
  · intro count
    have store := Circuit.partCycle_store valid done.inside done.nextCycle count
    have bound := valid.settle_source (s := c.advanced (t + 1) (c.storeAfter t))
      (Circuit.mem_sources_of_latch member) count
    rw [Circuit.advanced_latch valid member, ← store] at bound
    exact Store.read_eq_ok.mpr bound
  · intro trace drives
    exact Circuit.driven_sample valid done.inside drives

/-- Two registers, one fed by an update and one straight by the stimulus. -/
def relay : Circuit where
  name := "relay"
  inputs := ["a"]
  outputs := ["q", "s"]
  latches := [⟨"d", "q"⟩, ⟨"a", "s"⟩]
  updates := [⟨"d", .signal "a"⟩]
  stimuli := [⟨"a", [some true, some false]⟩]

theorem relay_delays_update :
    Reachable relay relay.started ∧ relay.started.cycle? = some 0 ∧
      relay.started.step.result = .ok () ∧ ⟨"d", "q"⟩ ∈ relay.latches ∧
      ∃ value, relay.started.peek "d" = .ok value ∧
        relay.started.step.simulator.peek "q" = .ok value := by
  have reach : Reachable relay relay.started := .after .start .fresh
  have last : relay.started.cycle? = some 0 := by decide +kernel
  have ok : relay.started.step.result = .ok () := by decide +kernel
  have member : ⟨"d", "q"⟩ ∈ relay.latches := List.mem_cons_self
  obtain ⟨held, now, before, after, _, _, same⟩ := latch_delay reach last ok member
  have undriven : relay.stimulus? "d" = none := by decide
  obtain rfl : now = held := same.mpr fun trace drives => by simp [undriven] at drives
  exact ⟨reach, last, ok, member, now, before, after⟩

/-- The register that the stimulus feeds straight does not delay it. -/
theorem relay_passes_stimulus :
    Reachable relay relay.started ∧ relay.started.cycle? = some 0 ∧
      relay.started.step.result = .ok () ∧ ⟨"a", "s"⟩ ∈ relay.latches ∧
      relay.started.peek "a" = .ok true ∧
      relay.started.step.simulator.peek "s" = .ok false :=
  ⟨.after .start .fresh, by decide +kernel, by decide +kernel, by decide, by decide +kernel,
    by decide +kernel⟩

/-- Samples reach the store: of the traces that name a signal, the last one binds it, and no
latch, update or earlier trace takes its place. A trace that shares its signal with no later
one therefore takes effect in every cycle. -/
theorem stimulus_takes_effect (reach : Reachable c sim) (last : sim.cycle? = some t)
    {trace : Trace} (member : trace ∈ c.stimuli) :
    ∃ final value, c.stimulus? trace.signal = some final ∧
      final.get? t = some value ∧ sim.peek trace.signal = .ok value ∧
      ∀ before after, c.stimuli = before ++ trace :: after →
        (∀ other ∈ after, other.signal ≠ trace.signal) → final = trace := by
  obtain ⟨n, done, rfl⟩ := reach.completed last
  obtain ⟨final, drives⟩ := Circuit.exists_stimulus (List.mem_map_of_mem member)
  have sample := Circuit.storeAfter_sample done.valid done.inside drives
  have bound : (c.storeAfter t).contains trace.signal = true :=
    Circuit.contains_storeAfter.mpr
      (Circuit.mem_bound_of_source (Circuit.mem_sources_of_stimulus member))
  refine ⟨final, _, drives, sample, Store.read_eq_view bound, ?_⟩
  intro before after split alone
  rw [Circuit.stimulus?_of_last split alone] at drives
  exact (Option.some.inj drives).symm

theorem relay_binds_stimulus :
    Reachable relay relay.started ∧ relay.started.cycle? = some 0 ∧
      ⟨"a", [some true, some false]⟩ ∈ relay.stimuli ∧ relay.started.peek "a" = .ok true := by
  have reach : Reachable relay relay.started := .after .start .fresh
  have last : relay.started.cycle? = some 0 := by decide +kernel
  have member : ⟨"a", [some true, some false]⟩ ∈ relay.stimuli := List.mem_cons_self
  obtain ⟨final, value, _, sample, bound, alone⟩ := stimulus_takes_effect reach last member
  obtain rfl : final = ⟨"a", [some true, some false]⟩ := alone [] [] rfl (by simp)
  obtain rfl : true = value := Option.some.inj sample
  exact ⟨reach, last, member, bound⟩

/-- One signal with two traces, which no check refuses. -/
def retraced : Circuit where
  name := "retraced"
  inputs := ["a"]
  outputs := ["a"]
  latches := []
  updates := []
  stimuli := [⟨"a", [some true]⟩, ⟨"a", [some false]⟩]

theorem retraced_hides_first :
    retraced.validate = .ok 1 ∧ Reachable retraced retraced.started ∧
      retraced.started.cycle? = some 0 ∧ ⟨"a", [some true]⟩ ∈ retraced.stimuli ∧
      retraced.started.peek "a" = .ok false :=
  ⟨by decide +kernel, .after .start .fresh, by decide +kernel, by decide, by decide +kernel⟩

end LatchSim
