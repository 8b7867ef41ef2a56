import LatchSim.Proofs.Timing

/-!
# The reference semantics

`Circuit.Reference` tells what the signals of a circuit are over time, with no store and no
order of writes: a stimulus is its sample, a latch output what its input was, and an update
target the value of its expression. A circuit that runs has one such valuation on its
signals, and the simulator computes it: `run_computes_reference`.
-/

namespace LatchSim

namespace Circuit

/-- The values of signals in the cycles of a simulation of length `n`. -/
structure Reference (c : Circuit) (n : Nat) (val : Nat → String → Bool) : Prop where
  /-- The last trace that names a stimulus gives its samples. -/
  stimulus : ∀ t < n, ∀ name trace, c.stimulus? name = some trace →
    trace.get? t = some (val t name)
  reset : ∀ l ∈ c.latches, val 0 l.output = false
  /-- A latch delays its input by a cycle unless the input is a stimulus. -/
  latch : ∀ t, t + 1 < n → ∀ l ∈ c.latches,
    val (t + 1) l.output =
      if (c.stimulus? l.input).isSome then val (t + 1) l.input else val t l.input
  update : ∀ t < n, ∀ u ∈ c.updates, val t u.name = u.expr.value (val t)

variable {c : Circuit} {n t : Nat} {name : String}

/-! ## The stores solve the equations -/

theorem storeAfter_latch (valid : c.Validated n) (inside : t + 1 < n) {l : Latch}
    (member : l ∈ c.latches) :
    (c.storeAfter (t + 1)).view l.output =
      if (c.stimulus? l.input).isSome then (c.storeAfter (t + 1)).view l.input
      else (c.storeAfter t).view l.input := by
  have moved : (c.storeAfter (t + 1)).view l.output =
      (c.driven (t + 1) (c.storeAfter t)).view l.input :=
    Store.view_of_get? (next_latch valid member)
  rw [moved]
  cases drives : c.stimulus? l.input with
  | none => simp [Store.view, driven_other drives]
  | some trace =>
    have early := driven_sample valid (s := c.storeAfter t) inside drives
    have late := storeAfter_sample valid inside drives
    simpa using early.symm.trans late

/-- The stores after the cycles are a solution. -/
theorem reference_storeAfter (done : c.Completes n t) :
    c.Reference n fun t => (c.storeAfter t).view where
  stimulus _ inside _ _ drives := storeAfter_sample done.valid inside drives
  reset _ member := Store.view_of_get? (storeAfter_reset done.valid member)
  latch _ inside _ member := storeAfter_latch done.valid inside member
  update _ _ _ member := storeAfter_target done.valid done.updates member

/-! ## No other values do -/

/-- Updates leave no choice: what solves their equations and agrees with a cycle on stimuli
and latch outputs agrees with it on all signals. -/
theorem agrees_of_sources (done : c.Completes n t) {v : String → Bool}
    (solves : ∀ u ∈ c.updates, v u.name = u.expr.value v)
    (sources : ∀ name ∈ c.sources, v name = (c.storeAfter t).view name)
    (member : name ∈ c.bound) : v name = (c.storeAfter t).view name := by
  obtain ⟨base, settled⟩ : ∃ base, c.storeAfter t = Update.settle c.updates base := by
    cases t with
    | zero => exact ⟨_, rfl⟩
    | succ t => exact ⟨_, rfl⟩
  rw [settled] at sources ⊢
  have agrees : ∀ name ∈ c.sources, v name = base.view name := by
    intro name source
    rw [sources name source, Store.view, done.valid.settle_all_source source, Store.view]
  exact Update.settle_unique (done.valid.ordered done.updates) solves agrees
    (List.mem_append.mp member)

theorem Reference.agrees_stimulus {val : Nat → String → Bool} (reference : c.Reference n val)
    (done : c.Completes n t) (member : name ∈ c.stimuli.map (·.signal)) :
    val t name = (c.storeAfter t).view name := by
  obtain ⟨trace, drives⟩ := exists_stimulus member
  have sample := reference.stimulus t done.inside name trace drives
  rw [storeAfter_sample done.valid done.inside drives] at sample
  exact (Option.some.inj sample).symm

/-- A valuation that satisfies the equations is that of the stores, cycle by cycle. -/
theorem Reference.agrees {val : Nat → String → Bool} (reference : c.Reference n val)
    (done : c.Completes n t) (member : name ∈ c.bound) :
    val t name = (c.storeAfter t).view name := by
  -- Latches look one cycle back, which the induction provides; within a cycle stimuli and
  -- latch outputs come first, and the updates follow from them.
  induction t generalizing name with
  | zero =>
    refine agrees_of_sources done (reference.update 0 done.inside) ?_ member
    intro name source
    rcases List.mem_append.mp source with driven | output
    · exact reference.agrees_stimulus done driven
    · obtain ⟨l, inside, rfl⟩ := List.mem_map.mp output
      rw [reference.reset l inside, Store.view_of_get? (storeAfter_reset done.valid inside)]
  | succ t ih =>
    refine agrees_of_sources done (reference.update (t + 1) done.inside) ?_ member
    intro name source
    rcases List.mem_append.mp source with driven | output
    · exact reference.agrees_stimulus done driven
    · obtain ⟨l, inside, rfl⟩ := List.mem_map.mp output
      rw [reference.latch t done.inside l inside, storeAfter_latch done.valid done.inside inside]
      by_cases driven : l.input ∈ c.stimuli.map (·.signal)
      · rw [reference.agrees_stimulus done driven, ih done.before (done.input_bound inside)]
      · rw [stimulus?_eq_none.mpr driven, ih done.before (done.input_bound inside)]
        rfl

end Circuit

/-- The simulator against the reference. A circuit that runs has values that satisfy the
equations of all its cycles, each cycle is reached, and whatever satisfies the equations is
what every signal is bound to after each of them and what the outputs record. -/
theorem run_computes_reference {c : Circuit} {traces : List Trace}
    (ok : (Simulator.ofCircuit c).run.result = .ok traces) :
    ∃ n, c.validate = .ok n ∧ (∃ val, c.Reference n val) ∧
      (∀ t < n, ∃ sim, Reachable c sim ∧ sim.cycle? = some t) ∧
      ∀ val, c.Reference n val →
        (∀ sim t, Reachable c sim → sim.cycle? = some t →
          t < n ∧ ∀ name ∈ c.bound, sim.peek name = .ok (val t name)) ∧
        traces = c.outputs.map fun o => ⟨o, (List.range n).map fun t => some (val t o)⟩ := by
  obtain ⟨n, done, rfl, _⟩ := Circuit.completes_of_run ok
  have completes {t : Nat} (inside : t < n) : c.Completes n t := done.mono (by omega)
  have checked : c.validate = .ok n := Circuit.validate_eq_ok.mpr done.valid
  refine ⟨n, checked, ⟨_, Circuit.reference_storeAfter done⟩, ?_, ?_⟩
  · intro t inside
    exact ⟨_, Reachable.simulatorAfter (completes inside), Circuit.cycle?_simulatorAfter inside⟩
  intro val reference
  constructor
  · intro sim t reach last
    obtain ⟨m, there, rfl⟩ := reach.completed last
    obtain rfl : m = n := by
      have again := Circuit.validate_eq_ok.mpr there.valid
      exact Except.ok.inj (again.symm.trans checked)
    refine ⟨there.inside, fun name member => ?_⟩
    rw [reference.agrees there member]
    exact Store.read_eq_view (Circuit.contains_storeAfter.mpr member)
  · refine List.map_congr_left fun o output => ?_
    refine congrArg (Trace.mk o) (List.map_congr_left fun t cycle => ?_)
    have inside : t < n := List.mem_range.mp cycle
    rw [if_pos inside, reference.agrees (completes inside) (done.outputs output)]

theorem relay_computes_reference :
    (Simulator.ofCircuit relay).run.result =
        .ok [⟨"q", [some false, some true]⟩, ⟨"s", [some false, some false]⟩] ∧
      ∃ val, relay.Reference 2 val ∧ val 1 "q" = true ∧ val 1 "s" = false := by
  have ok : (Simulator.ofCircuit relay).run.result =
      .ok [⟨"q", [some false, some true]⟩, ⟨"s", [some false, some false]⟩] := by decide +kernel
  obtain ⟨n, valid, ⟨val, reference⟩, _, agrees⟩ := run_computes_reference ok
  have length : relay.validate = .ok 2 := by decide +kernel
  obtain rfl : 2 = n := Except.ok.inj (length.symm.trans valid)
  have recorded : (val 0 "q" = false ∧ val 1 "q" = true) ∧
      val 0 "s" = false ∧ val 1 "s" = false := by
    simpa [relay, List.range_succ] using (agrees val reference).2
  exact ⟨ok, val, reference, recorded.1.2, recorded.2.2⟩

end LatchSim
