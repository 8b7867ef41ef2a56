import LatchSim.Proofs.Simulator

/-!
# Whole runs

A run is decided by its first two cycles. It stops in the first one at an unresolved name,
in the second one at an unresolved latch input, and otherwise goes through every cycle to
the last: `Circuit.run_cases`.
-/

namespace LatchSim

variable {c : Circuit} {n t : Nat}

theorem Reply.andThen_of_error {reply : Reply α} {fault : Fault}
    (failed : reply.result = .error fault) (next : Simulator → Reply β) :
    reply.andThen next = ⟨reply.simulator, .error fault, reply.log⟩ := by
  simp [andThen, failed]

theorem Reply.andThen_of_ok {reply : Reply α} {value : α} (ok : reply.result = .ok value)
    (next : Simulator → Reply β) :
    reply.andThen next =
      { next reply.simulator with log := reply.log ++ (next reply.simulator).log } := by
  simp [andThen, ok]

/-- A simulator that has been asked for its first cycle. -/
def Circuit.started (c : Circuit) : Simulator := (Simulator.ofCircuit c).start.simulator

theorem Circuit.Completes.started (done : c.Completes n 0) : c.started = c.simulatorAfter n 0 := by
  rw [Circuit.started, Simulator.start_of_completes done]

/-- A start that goes well has completed the first cycle. -/
theorem Circuit.completes_of_start (ok : (Simulator.ofCircuit c).start.result = .ok ()) :
    ∃ n, c.Completes n 0 ∧ c.started = c.simulatorAfter n 0 := by
  rcases Simulator.start_total c with ⟨n, done, _⟩ | ⟨fault, _, failed, _⟩
  · exact ⟨n, done, done.started⟩
  · rw [failed] at ok
    cases ok

namespace Simulator

/-! ## Steps -/

/-- A second cycle that fails has bound its samples and changed nothing else. -/
theorem step_of_unresolved {name : String} (done : c.Completes n 0) (inside : 1 < n)
    (first : c.unresolvedInputs.head? = some name) :
    (c.simulatorAfter n 0).step =
      { c.simulatorAfter n 0 with store := c.driven 1 (c.storeAfter 0) }.fail [.cycle 1]
        (.undefined name) := by
  have stopped : c.nextCycle 1 (c.storeAfter 0) =
      .stopped (c.driven 1 (c.storeAfter 0)) (.undefined name) :=
    Circuit.nextCycle_of_unresolved done.valid inside (fun _ => Circuit.contains_storeAfter) first
  have attempt : (c.simulatorAfter n 0).step = (c.simulatorAfter n 0).complete 1 (.cycle 1)
      (c.nextCycle 1 (c.storeAfter 0)) := step_of_inside inside
  rw [attempt, stopped]
  exact complete_of_fault rfl

/-- As many steps as there are completed cycles ahead all go well. -/
theorem steps_of_completes {count : Nat} (done : c.Completes n (t + count)) :
    ∃ log, steps count (c.simulatorAfter n t) =
      ⟨c.simulatorAfter n (t + count), .ok (), log⟩ := by
  induction count generalizing t with
  | zero => exact ⟨[], rfl⟩
  | succ count ih =>
    have shift : t + (count + 1) = t + 1 + count := by omega
    rw [shift] at done ⊢
    have next : c.Completes n (t + 1) := done.mono (Nat.le_add_right _ _)
    obtain ⟨log, later⟩ := ih done
    have stepped := step_of_completes next
    rw [steps, Reply.andThen_of_ok (congrArg Reply.result stepped), stepped, later]
    exact ⟨_, rfl⟩

theorem finish_of_completes (done : c.Completes n t) (all : c.Completes n (n - 1)) :
    ∃ log, (c.simulatorAfter n t).finish =
      ⟨c.simulatorAfter n (n - 1), .ok (c.recording n n), log⟩ := by
  have inside := done.inside
  have count : t + (n - 1 - t) = n - 1 := by omega
  obtain ⟨log, ran⟩ := steps_of_completes (count ▸ all)
  rw [count] at ran
  rw [finish, Circuit.remaining_simulatorAfter inside,
    Reply.andThen_of_ok (congrArg Reply.result ran), ran]
  have written : (c.simulatorAfter n (n - 1)).recorded = c.recording n n := by
    rw [Circuit.simulatorAfter, Nat.sub_add_cancel all.valid.positive]
  rw [written]
  exact ⟨_, rfl⟩

/-- A step that fails is the end of the run. -/
theorem finish_of_failed {sim : Simulator} {fault : Fault} (more : sim.remaining ≠ 0)
    (failed : sim.step.result = .error fault) :
    sim.finish = ⟨sim.step.simulator, .error fault, sim.step.log⟩ := by
  obtain ⟨count, remaining⟩ := Nat.exists_eq_succ_of_ne_zero more
  have stopped : steps sim.remaining sim = ⟨sim.step.simulator, .error fault, sim.step.log⟩ := by
    rw [remaining, steps, Reply.andThen_of_error failed]
  rw [finish, Reply.andThen_of_error (congrArg Reply.result stopped), stopped]

theorem run_of_inside (inside : t + 1 < n) :
    (c.simulatorAfter n t).run = (c.simulatorAfter n t).finish := by
  rcases Circuit.phaseAfter_cases (Nat.lt_of_succ_lt inside) with
    ⟨last, _⟩ | ⟨_, _, phase⟩ | ⟨_, _, phase⟩
  · omega
  · simp only [run, Circuit.simulatorAfter, phase]
  · simp only [run, Circuit.simulatorAfter, phase]

/-- A run that resumes before a completed cycle answers the traces of all cycles. -/
theorem run_of_next (next : c.Completes n (t + 1)) :
    (c.simulatorAfter n t).run.result = .ok (c.recording n n) := by
  have inside := next.inside
  have all : c.Completes n (n - 1) := next.extend (by omega) (next.inputs t.succ_ne_zero)
  obtain ⟨log, ran⟩ := finish_of_completes next.before all
  rw [run_of_inside inside, ran]

/-- A run from the beginning is a start, and the rest unless the start fails. -/
theorem run_of_fresh (c : Circuit) :
    (ofCircuit c).run =
      { (ofCircuit c).start.andThen finish with
        log := .simulating c.name :: ((ofCircuit c).start.andThen finish).log } := rfl

end Simulator

/-! ## Runs -/

namespace Circuit

/-- The run of a circuit stops with this fault in its first cycle. -/
structure FailsFirst (c : Circuit) (fault : Fault) : Prop where
  start : (Simulator.ofCircuit c).start.result = .error fault
  run : (Simulator.ofCircuit c).run.result = .error fault
  simulator : (Simulator.ofCircuit c).run.simulator = c.started

/-- The run of a circuit stops with this fault in its second cycle. -/
structure FailsSecond (c : Circuit) (fault : Fault) : Prop where
  start : (Simulator.ofCircuit c).start.result = .ok ()
  step : c.started.step.result = .error fault
  run : (Simulator.ofCircuit c).run.result = .error fault
  simulator : (Simulator.ofCircuit c).run.simulator = c.started.step.simulator

theorem failsFirst_of_start {fault : Fault}
    (failed : (Simulator.ofCircuit c).start.result = .error fault) : c.FailsFirst fault := by
  have ran := Simulator.run_of_fresh c
  rw [Reply.andThen_of_error failed] at ran
  exact ⟨failed, congrArg Reply.result ran, congrArg Reply.simulator ran⟩

theorem failsSecond_of_step {fault : Fault} (done : c.Completes n 0) (inside : 1 < n)
    (failed : c.started.step.result = .error fault) : c.FailsSecond fault := by
  have begun := congrArg Reply.result (Simulator.start_of_completes done)
  have more : c.started.remaining ≠ 0 := by
    rw [done.started, remaining_simulatorAfter done.inside]
    omega
  have ran := Simulator.run_of_fresh c
  rw [Reply.andThen_of_ok begun] at ran
  have rest : (Simulator.ofCircuit c).start.simulator.finish = _ :=
    Simulator.finish_of_failed more failed
  rw [rest] at ran
  exact ⟨begun, failed, congrArg Reply.result ran, congrArg Reply.simulator ran⟩

theorem run_of_completes (all : c.Completes n (n - 1)) :
    (Simulator.ofCircuit c).run.result = .ok (c.recording n n) ∧
      (Simulator.ofCircuit c).run.simulator = c.simulatorAfter n (n - 1) := by
  have first : c.Completes n 0 := all.mono (Nat.zero_le _)
  have begun := Simulator.start_of_completes first
  obtain ⟨log, rest⟩ := Simulator.finish_of_completes first all
  have ran := Simulator.run_of_fresh c
  rw [Reply.andThen_of_ok (congrArg Reply.result begun), begun, rest] at ran
  exact ⟨congrArg Reply.result ran, congrArg Reply.simulator ran⟩

/-- The three ways in which the run of a validated circuit can go. -/
theorem run_cases (valid : c.Validated n) :
    (c.Completes n (n - 1) ∧ (Simulator.ofCircuit c).run.result = .ok (c.recording n n) ∧
      (Simulator.ofCircuit c).run.simulator = c.simulatorAfter n (n - 1)) ∨
    (∃ name, c.unresolved.head? = some name ∧ c.FailsFirst (.undefined name)) ∨
    (∃ name, c.Completes n 0 ∧ 1 < n ∧ c.unresolvedInputs.head? = some name ∧
      c.FailsSecond (.undefined name)) := by
  rcases Simulator.start_cases valid with ⟨done, _⟩ | ⟨name, first, failed⟩
  · by_cases inside : 1 < n
    · rcases Simulator.stepTo_cases done inside with ⟨next, _⟩ | ⟨_, name, first, failed⟩
      · have all : c.Completes n (n - 1) :=
          done.extend (by omega) (next.inputs Nat.one_ne_zero)
        exact .inl ⟨all, run_of_completes all⟩
      · refine .inr (.inr ⟨name, done, inside, first, failsSecond_of_step done inside ?_⟩)
        rw [done.started, Simulator.step_of_inside inside, failed]
        rfl
    · have all : c.Completes n (n - 1) := done.mono (by omega)
      exact .inl ⟨all, run_of_completes all⟩
  · exact .inr (.inl ⟨name, first, failsFirst_of_start (congrArg Reply.result failed)⟩)

/-- A run that answers its traces has completed every cycle. -/
theorem completes_of_run {traces : List Trace}
    (ok : (Simulator.ofCircuit c).run.result = .ok traces) :
    ∃ n, c.Completes n (n - 1) ∧ traces = c.recording n n ∧
      (Simulator.ofCircuit c).run.simulator = c.simulatorAfter n (n - 1) := by
  cases checked : c.validate with
  | error fault =>
    have refused := congrArg Reply.result (Simulator.start_of_invalid checked)
    rw [(failsFirst_of_start refused).run] at ok
    cases ok
  | ok n =>
    rcases run_cases (validate_eq_ok.mp checked) with
      ⟨all, ran, simulator⟩ | ⟨_, _, failed⟩ | ⟨_, _, _, _, failed⟩
    · exact ⟨n, all, Except.ok.inj (ok.symm.trans ran), simulator⟩
    · rw [failed.run] at ok
      cases ok
    · rw [failed.run] at ok
      cases ok

end Circuit

end LatchSim
