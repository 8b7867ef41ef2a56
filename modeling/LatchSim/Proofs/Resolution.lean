import LatchSim.Proofs.Run

/-!
# Static resolution

References are checked while a circuit runs, update by update and cycle by cycle, against a
store that still holds what the last cycle bound. Yet nothing but the circuit decides
whether a run succeeds, and where and at which name it fails: `Circuit.decided`.
-/

namespace LatchSim.Circuit

variable {c : Circuit} {n : Nat} {name : String}

/-- The names that are bound when so many updates have been applied: stimuli, latch outputs
and the targets of these updates. -/
def available (c : Circuit) (count : Nat) : List String :=
  c.sources ++ Update.targets (c.updates.take count)

/-- Every update reads stimuli, latch outputs and the targets of the updates before it. -/
def UpdatesResolve (c : Circuit) : Prop :=
  ∀ count u, c.updates[count]? = some u → ∀ name ∈ u.expr.signals, name ∈ c.available count

def OutputsResolve (c : Circuit) : Prop := ∀ name ∈ c.outputs, name ∈ c.bound

def LatchesResolve (c : Circuit) : Prop := ∀ l ∈ c.latches, l.input ∈ c.bound

/-- The first reference of an update to a name that is not available there. -/
def earlyReference? (c : Circuit) : Option (String × Nat) :=
  (Update.references c.updates).find? fun r => r.1 ∉ c.available r.2

def unboundOutput? (c : Circuit) : Option String := c.outputs.find? (· ∉ c.bound)

def unboundInput? (c : Circuit) : Option String := (Latch.inputs c.latches).find? (· ∉ c.bound)

/-! ## Unresolved names -/

theorem early_eq_nil : Update.early c.sources c.updates = [] ↔ c.UpdatesResolve := by
  rw [Update.early_eq_nil_iff]
  simp only [UpdatesResolve, available, List.mem_append]

theorem unbound_eq_nil (names : List String) :
    names.filter (· ∉ c.bound) = [] ↔ ∀ name ∈ names, name ∈ c.bound := by
  simp

theorem unresolved_eq_nil : c.unresolved = [] ↔ c.UpdatesResolve ∧ c.OutputsResolve := by
  rw [unresolved, List.append_eq_nil_iff, early_eq_nil, unbound_eq_nil, OutputsResolve]

theorem unresolvedInputs_eq_nil : c.unresolvedInputs = [] ↔ c.LatchesResolve := by
  rw [unresolvedInputs, unbound_eq_nil]
  simp [Latch.inputs, LatchesResolve]

theorem unresolved_head? (first : c.unresolved.head? = some name) :
    (∃ count, c.earlyReference? = some (name, count)) ∨
      c.UpdatesResolve ∧ c.unboundOutput? = some name := by
  cases early : Update.early c.sources c.updates with
  | nil =>
    rw [unresolved, early, List.nil_append, List.head?_filter] at first
    exact .inr ⟨early_eq_nil.mp early, first⟩
  | cons reference later =>
    rw [unresolved, early] at first
    exact .inl (Update.early_head?.mp (early ▸ first))

theorem unresolvedInputs_head? (first : c.unresolvedInputs.head? = some name) :
    c.unboundInput? = some name := by
  rwa [unresolvedInputs, List.head?_filter] at first

/-! ## Which cycles complete -/

theorem completes_first :
    c.Completes n 0 ↔ c.validate = .ok n ∧ c.UpdatesResolve ∧ c.OutputsResolve := by
  rw [validate_eq_ok, ← unresolved_eq_nil]
  constructor
  · intro done
    exact ⟨done.valid, done.resolved⟩
  · rintro ⟨valid, resolved⟩
    exact ⟨valid, valid.positive, resolved, fun later => absurd rfl later⟩

theorem completes_last :
    c.Completes n (n - 1) ↔
      c.validate = .ok n ∧ c.UpdatesResolve ∧ c.OutputsResolve ∧ (n = 1 ∨ c.LatchesResolve) := by
  rw [← unresolvedInputs_eq_nil]
  constructor
  · intro done
    obtain ⟨valid, updates, outputs⟩ := completes_first.mp (done.mono (Nat.zero_le _))
    have positive := done.valid.positive
    refine ⟨valid, updates, outputs, ?_⟩
    by_cases one : n = 1
    · exact .inl one
    · exact .inr (done.inputs (by omega))
  · rintro ⟨valid, updates, outputs, inputs⟩
    have done := completes_first.mpr ⟨valid, updates, outputs⟩
    rcases inputs with rfl | inputs
    · exact done
    · exact done.extend (Nat.sub_lt done.inside Nat.one_pos) inputs

/-! ## The verdict -/

theorem start_ok :
    (Simulator.ofCircuit c).start.result = .ok () ↔
      (∃ n, c.validate = .ok n) ∧ c.UpdatesResolve ∧ c.OutputsResolve := by
  constructor
  · intro ok
    obtain ⟨n, done, _⟩ := completes_of_start ok
    obtain ⟨valid, resolved⟩ := completes_first.mp done
    exact ⟨⟨n, valid⟩, resolved⟩
  · rintro ⟨⟨n, valid⟩, resolved⟩
    have done := completes_first.mpr ⟨valid, resolved⟩
    exact congrArg Reply.result (Simulator.start_of_completes done)

theorem run_ok :
    (∃ traces, (Simulator.ofCircuit c).run.result = .ok traces) ↔
      ∃ n, c.validate = .ok n ∧ c.UpdatesResolve ∧ c.OutputsResolve ∧
        (n = 1 ∨ c.LatchesResolve) := by
  constructor
  · rintro ⟨traces, ok⟩
    obtain ⟨n, done, _, _⟩ := completes_of_run ok
    exact ⟨n, completes_last.mp done⟩
  · rintro ⟨n, resolved⟩
    exact ⟨c.recording n n, (run_of_completes (completes_last.mpr resolved)).1⟩

/-- A circuit that passes validation fails, if at all, at the first name that does not
resolve: a reference of an update, else an output, in the first cycle, and a latch input in
the second. -/
theorem run_error {fault : Fault} (valid : c.validate = .ok n)
    (failed : (Simulator.ofCircuit c).run.result = .error fault) :
    ∃ name, fault = .undefined name ∧
      (c.FailsFirst fault ∧ ((∃ count, c.earlyReference? = some (name, count)) ∨
        c.UpdatesResolve ∧ c.unboundOutput? = some name) ∨
      c.FailsSecond fault ∧ c.UpdatesResolve ∧ c.OutputsResolve ∧
        c.unboundInput? = some name) := by
  rcases run_cases (validate_eq_ok.mp valid) with
    ⟨_, ok, _⟩ | ⟨name, first, stopped⟩ | ⟨name, done, _, first, stopped⟩
  · rw [ok] at failed
    cases failed
  · obtain rfl := Except.error.inj (failed.symm.trans stopped.run)
    exact ⟨name, rfl, .inl ⟨stopped, unresolved_head? first⟩⟩
  · obtain rfl := Except.error.inj (failed.symm.trans stopped.run)
    obtain ⟨_, updates, outputs⟩ := completes_first.mp done
    exact ⟨name, rfl, .inr ⟨stopped, updates, outputs, unresolvedInputs_head? first⟩⟩

/-- A run that resumes after the first cycle fails as the next step would. -/
theorem run_started {sim : Simulator} {fault : Fault} (reach : Reachable c sim)
    (begun : sim.phase = .started) :
    sim.run.result = .error fault ↔ sim.step.result = .error fault := by
  have last : sim.cycle? = some 0 := by rw [Simulator.cycle?, begun]
  obtain ⟨n, done, rfl⟩ := reach.completed last
  have inside : 1 < n := Simulator.inside_of_phase (c := c) done.inside (by simp [begun])
  rcases Simulator.stepTo_cases done inside with ⟨next, _⟩ | ⟨_, name, _, failed⟩
  · rw [Simulator.run_of_next next, Simulator.step_of_completes next]
    constructor <;> intro failed <;> cases failed
  · have stepped : (c.simulatorAfter n 0).step.result = .error (.undefined name) := by
      rw [Simulator.step_of_inside inside, failed]
      rfl
    have more : (c.simulatorAfter n 0).remaining ≠ 0 := by
      rw [remaining_simulatorAfter done.inside]
      omega
    rw [Simulator.run_of_inside inside, Simulator.finish_of_failed more stepped, stepped,
      Except.error.injEq, Except.error.injEq]

/-- From the second cycle on nothing fails. -/
theorem later_ok {sim : Simulator} {t : Nat} (reach : Reachable c sim)
    (phase : sim.phase = .stepped t) :
    sim.step.result = .ok () ∧ ∃ traces, sim.run.result = .ok traces := by
  have last : sim.cycle? = some t := by rw [Simulator.cycle?, phase]
  obtain ⟨n, done, rfl⟩ := reach.completed last
  have inside : t + 1 < n := Simulator.inside_of_phase (c := c) done.inside (by simp [phase])
  have later : t ≠ 0 := by
    rintro rfl
    simp [simulatorAfter, Simulator.phaseAfter] at phase
    split at phase <;> cases phase
  have next : c.Completes n (t + 1) := done.extend inside (done.inputs later)
  exact ⟨congrArg Reply.result (Simulator.step_of_completes next),
    c.recording n n, Simulator.run_of_next next⟩

/-- What a circuit alone decides about the calls of its simulators. -/
structure Decided (c : Circuit) : Prop where
  start : (Simulator.ofCircuit c).start.result = .ok () ↔
    (∃ n, c.validate = .ok n) ∧ c.UpdatesResolve ∧ c.OutputsResolve
  run : (∃ traces, (Simulator.ofCircuit c).run.result = .ok traces) ↔
    ∃ n, c.validate = .ok n ∧ c.UpdatesResolve ∧ c.OutputsResolve ∧ (n = 1 ∨ c.LatchesResolve)
  /-- Where the run fails, and at which name. -/
  error : ∀ n fault, c.validate = .ok n → (Simulator.ofCircuit c).run.result = .error fault →
    ∃ name, fault = .undefined name ∧
      (c.FailsFirst fault ∧ ((∃ count, c.earlyReference? = some (name, count)) ∨
        c.UpdatesResolve ∧ c.unboundOutput? = some name) ∨
      c.FailsSecond fault ∧ c.UpdatesResolve ∧ c.OutputsResolve ∧ c.unboundInput? = some name)
  /-- A run that resumes after the first cycle can only fail in the second. -/
  resume : ∀ sim fault, Reachable c sim → sim.phase = .started →
    (sim.run.result = .error fault ↔ sim.step.result = .error fault)
  /-- Nothing fails later. -/
  later : ∀ sim t, Reachable c sim → sim.phase = .stepped t →
    sim.step.result = .ok () ∧ ∃ traces, sim.run.result = .ok traces
  /-- Only names and the order of calls can be at fault, never a sample. -/
  faults : ∀ n sim (call : Call) fault, c.validate = .ok n → Reachable c sim →
    (call.reply sim).result = .error fault →
    (∃ name, fault = .undefined name) ∨
      ∃ operation phase, fault = .invalidTransition operation phase

theorem decided (c : Circuit) : c.Decided where
  start := start_ok
  run := run_ok
  error _ _ valid failed := run_error valid failed
  resume _ _ reach begun := run_started reach begun
  later _ _ reach phase := later_ok reach phase
  faults n sim call fault valid reach failed := by
    cases (reach.stage.reply call).fault fault failed with
    | refused checked =>
      rw [valid] at checked
      cases checked
    | undefined name => exact .inl ⟨name, rfl⟩
    | rejected operation phase => exact .inr ⟨operation, phase, rfl⟩

end LatchSim.Circuit
