import LatchSim.Proofs.Outcome
import LatchSim.Proofs.Run

/-!
# The parts of a simulator

Phase, length, store and output traces are written at different moments of a cycle, and a
cycle can stop between them. Between calls they fit together all the same:
`Reachable.coherent`.
-/

namespace LatchSim

variable {c : Circuit} {sim : Simulator} {n t : Nat}

/-! ## Within a cycle no other begins -/

/-- The cycle that an entry announces. -/
def Entry.opens? : Entry → Option Nat
  | .firstCycle _ => some 0
  | .cycle t => some t
  | .latch .. | .update .. | .simulating _ | .finished .. | .failed .. => none

theorem Entry.write?_of_opens {entry : Entry} (opens : entry.opens? = some t) :
    entry.write? = none := by
  cases entry <;> first | rfl | cases opens

/-- No cycle begins in an action. -/
def Outcome.Quiet (o : Outcome) : Prop := ∀ entry ∈ o.log, entry.opens? = none

namespace Outcome.Quiet

theorem done (s : Store) : (Outcome.done s).Quiet := by simp [Quiet, Outcome.done]

theorem stopped (s : Store) (fault : Fault) : (Outcome.stopped s fault).Quiet := by
  simp [Quiet, Outcome.stopped]

theorem andThen {o : Outcome} {next : Store → Outcome} (first : o.Quiet)
    (second : ∀ s, (next s).Quiet) : (o.andThen next).Quiet := by
  intro entry member
  unfold Outcome.andThen at member
  split at member
  · exact first entry member
  · rcases List.mem_append.mp member with before | after
    · exact first entry before
    · exact second o.store entry after

end Outcome.Quiet

/-- An action that reports its writes alone opens no cycle. -/
theorem Outcome.Journals.quiet {s : Store} {o : Outcome} (journals : o.Journals s) : o.Quiet := by
  intro entry member
  cases opens : entry.opens? with
  | none => rfl
  | some cycle =>
    have write := journals.writes entry member
    rw [Entry.write?_of_opens opens] at write
    cases write

/-- Of the entries of a cycle only the first opens one. -/
theorem Simulator.complete_opens {cycle : Nat} {opening entry : Entry} {o : Outcome}
    (sim : Simulator) (quiet : o.Quiet) (member : entry ∈ (sim.complete cycle opening o).log)
    (opens : entry.opens? = some t) : entry = opening := by
  have body : entry ∈ opening :: o.log := by
    rcases sim.complete_closes cycle opening o with ⟨_, log⟩ | ⟨fault, _, log⟩
    · rwa [log] at member
    · rw [log] at member
      refine (List.mem_append.mp member).resolve_right fun last => ?_
      obtain rfl := List.mem_singleton.mp last
      cases opens
  refine (List.mem_cons.mp body).resolve_right fun later => ?_
  rw [quiet entry later] at opens
  cases opens

namespace Circuit

theorem bindStimuli_quiet (c : Circuit) (cycle : Nat) (traces : List Trace) (s : Store) :
    (c.bindStimuli cycle traces s).Quiet := by
  induction traces generalizing s with
  | nil => apply Outcome.Quiet.done
  | cons trace rest ih =>
    unfold bindStimuli
    split
    · apply Outcome.Quiet.stopped
    · split
      · apply Outcome.Quiet.stopped
      · apply ih

theorem firstCycle_quiet (c : Circuit) : c.firstCycle.Quiet :=
  (c.bindStimuli_quiet 0 c.stimuli .empty).andThen fun _ =>
    (Update.applyAll_journals _ _).quiet

theorem nextCycle_quiet (c : Circuit) (cycle : Nat) (s : Store) : (c.nextCycle cycle s).Quiet :=
  ((c.bindStimuli_quiet cycle c.stimuli s).andThen fun _ =>
    (Latch.advanceAll_journals _ _).quiet).andThen fun _ => (Update.applyAll_journals _ _).quiet

end Circuit

/-! ## What every call keeps -/

/-- A reply keeps the circuit and never takes back a length, and it begins no cycle past it. -/
structure Orderly (sim : Simulator) (reply : Reply α) : Prop where
  circuit : reply.simulator.circuit = sim.circuit
  length : sim.length ≤ reply.simulator.length
  cycles : ∀ entry ∈ reply.log, ∀ t, entry.opens? = some t → t < reply.simulator.length

namespace Orderly

theorem ok (sim : Simulator) (value : α) : Orderly sim ⟨sim, .ok value, []⟩ := by
  constructor <;> simp

theorem reject (sim : Simulator) (operation : Operation) :
    Orderly sim (sim.reject operation : Reply α) := by
  constructor <;> simp [Simulator.reject]

theorem fail (sim : Simulator) (fault : Fault) :
    Orderly sim (sim.fail [] fault : Reply α) := by
  constructor <;> simp [Simulator.fail, Entry.opens?]

theorem andThen {reply : Reply α} {next : Simulator → Reply β} (first : Orderly sim reply)
    (second : Orderly reply.simulator (next reply.simulator)) :
    Orderly sim (reply.andThen next) := by
  unfold Reply.andThen
  split
  · exact ⟨first.circuit, first.length, first.cycles⟩
  · refine ⟨second.circuit.trans first.circuit, Nat.le_trans first.length second.length, ?_⟩
    intro entry member t opens
    rcases List.mem_append.mp member with before | after
    · exact Nat.lt_of_lt_of_le (first.cycles entry before t opens) second.length
    · exact second.cycles entry after t opens

theorem discard {reply : Reply α} (orderly : Orderly sim reply) : Orderly sim reply.discard :=
  ⟨orderly.circuit, orderly.length, orderly.cycles⟩

/-- An entry that begins no cycle makes no difference. -/
theorem cons {reply : Reply α} {entry : Entry} (orderly : Orderly sim reply)
    (plain : entry.opens? = none) : Orderly sim { reply with log := entry :: reply.log } := by
  refine ⟨orderly.circuit, orderly.length, ?_⟩
  intro other member t opens
  rcases List.mem_cons.mp member with rfl | later
  · simp [plain] at opens
  · exact orderly.cycles other later t opens

/-- A cycle within the length is in order, whether it is completed or not. -/
theorem complete {cycle : Nat} {opening : Entry} {o : Outcome}
    (announced : opening.opens? = some cycle) (inside : cycle < sim.length) (quiet : o.Quiet) :
    Orderly sim (sim.complete cycle opening o) := by
  have cycles : ∀ entry ∈ (sim.complete cycle opening o).log,
      ∀ t, entry.opens? = some t → t < sim.length := by
    intro entry member t opens
    obtain rfl := sim.complete_opens quiet member opens
    obtain rfl : cycle = t := by simpa [announced] using opens
    exact inside
  rcases sim.complete_cases cycle opening o with ⟨fault, reply⟩ | ⟨traces, reply⟩
  · rw [reply] at cycles ⊢
    exact ⟨rfl, Nat.le_refl _, cycles⟩
  · rw [reply] at cycles ⊢
    exact ⟨rfl, Nat.le_refl _, cycles⟩

end Orderly

namespace Stage

theorem orderly_start (stage : Stage c sim) : Orderly sim sim.start := by
  by_cases fresh : sim.phase = .fresh
  · cases stage with
    | fresh =>
      cases checked : c.validate with
      | error fault =>
        rw [Simulator.start_of_invalid checked]
        apply Orderly.fail
      | ok n =>
        have valid := Circuit.validate_eq_ok.mp checked
        have first : Orderly (Simulator.starting c n)
            ((Simulator.starting c n).complete 0 (.firstCycle n) c.firstCycle) :=
          .complete rfl valid.positive c.firstCycle_quiet
        rw [Simulator.start_eq_complete valid]
        exact ⟨first.circuit, Nat.zero_le _, first.cycles⟩
    | after done => exact absurd fresh (Simulator.begun_simulatorAfter done.inside).1
    | failed ended => simp [ended] at fresh
  · rw [Simulator.start_of_begun fresh]
    apply Orderly.reject

theorem orderly_step (stage : Stage c sim) : Orderly sim sim.step := by
  cases stage with
  | fresh => apply Orderly.reject
  | @after n t done =>
    by_cases inside : t + 1 < n
    · rw [Simulator.step_of_inside inside]
      exact .complete rfl inside (c.nextCycle_quiet _ _)
    · obtain rfl : t + 1 = n := by have := done.inside; omega
      rw [Simulator.step, Simulator.phase_of_last]
      apply Orderly.reject
  | failed ended =>
    rw [Simulator.step, ended]
    apply Orderly.reject

theorem orderly_steps (stage : Stage c sim) (count : Nat) :
    Orderly sim (Simulator.steps count sim) := by
  induction count generalizing sim with
  | zero => apply Orderly.ok
  | succ count ih => exact stage.orderly_step.andThen (ih stage.step.stage)

theorem orderly_finish (stage : Stage c sim) : Orderly sim sim.finish :=
  (stage.orderly_steps _).andThen ((Orderly.ok _ _).cons rfl)

theorem orderly_run (stage : Stage c sim) : Orderly sim sim.run := by
  cases phase : sim.phase with
  | fresh =>
    simp only [Simulator.run, phase]
    exact (stage.orderly_start.andThen stage.start.stage.orderly_finish).cons rfl
  | started | stepped cycle =>
    simp only [Simulator.run, phase]
    exact stage.orderly_finish
  | terminated | failed =>
    simp only [Simulator.run, phase]
    apply Orderly.reject

theorem orderly (stage : Stage c sim) (call : Call) : Orderly sim (call.reply sim) := by
  cases call with
  | start => exact stage.orderly_start
  | step => exact stage.orderly_step
  | run => exact stage.orderly_run.discard

end Stage

theorem Reachable.circuit (reach : Reachable c sim) : sim.circuit = c := by
  induction reach with
  | fresh => rfl
  | after call before ih => exact (before.stage.orderly call).circuit.trans ih

/-- A simulator that has terminated has completed the last cycle. -/
theorem Reachable.final (reach : Reachable c sim) (terminated : sim.phase = .terminated) :
    c.Completes sim.length (sim.length - 1) ∧
      sim = c.simulatorAfter sim.length (sim.length - 1) := by
  have last : sim.cycle? = some (sim.length - 1) := by simp [Simulator.cycle?, terminated]
  obtain ⟨n, done, same⟩ := reach.completed last
  obtain rfl : sim.length = n := congrArg Simulator.length same
  exact ⟨done, same⟩

/-! ## How the parts fit together -/

/-- The output traces of a simulator, in the order of the declarations, hold the samples of
the cycles up to the last completed one and no others. -/
structure Simulator.Filled (sim : Simulator) (last : Nat) : Prop where
  signals : sim.recorded.map (·.signal) = sim.circuit.outputs
  lengths : ∀ trace ∈ sim.recorded, trace.length = sim.length
  samples : ∀ trace ∈ sim.recorded, ∀ i, (trace.get? i).isSome = true ↔ i ≤ last

theorem Circuit.filled_simulatorAfter (inside : t < n) : (c.simulatorAfter n t).Filled t where
  signals := Circuit.recording_signals c n (t + 1)
  lengths _ member := recording_length (c := c) member
  samples trace member i := by
    by_cases before : i ≤ t
    · have reached : i < t + 1 ∧ i < n := by omega
      rw [recording_get? (c := c) member i, if_pos reached]
      simp [before]
    · have ahead : ¬ (i < t + 1 ∧ i < n) := by omega
      rw [recording_get? (c := c) member i, if_neg ahead]
      simp [before]

theorem Simulator.Filled.complete {last : Nat} (filled : sim.Filled last)
    (all : sim.length = last + 1) {trace : Trace} (member : trace ∈ sim.recorded) :
    trace.isComplete = true := by
  have length : trace.values.length = last + 1 := (filled.lengths trace member).trans all
  apply List.all_eq_true.mpr
  intro sample held
  obtain ⟨i, inside, rfl⟩ := List.mem_iff_getElem.mp held
  have set := (filled.samples trace member i).mpr (by omega)
  simpa [Trace.get?, inside] using set

/-- What the phase of a simulator tells about its other parts. -/
structure Coherent (c : Circuit) (sim : Simulator) : Prop where
  circuit : sim.circuit = c
  fresh : sim.phase = .fresh → sim.length = 0 ∧ sim.store = .empty ∧ sim.recorded = []
  started : sim.phase = .started → 2 ≤ sim.length
  stepped : ∀ t, sim.phase = .stepped t → 1 ≤ t ∧ t + 1 < sim.length
  terminated : sim.phase = .terminated → 1 ≤ sim.length
  /-- Neither fresh nor failed, it has completed a cycle of a valid circuit. -/
  completed : sim.phase ≠ .fresh → sim.phase ≠ .failed →
    ∃ last, sim.cycle? = some last ∧ c.validate = .ok sim.length ∧ sim.Filled last
  complete : sim.phase = .terminated → ∀ trace ∈ sim.recorded, trace.isComplete = true
  outputs : sim.outputs?.isSome = true ↔ sim.phase = .terminated
  /-- Of every cycle that a call attempts, the number of the next one is within the length.
  So words of 64 bits that can hold the length count the cycles without a wrap. -/
  counters : ∀ (call : Call) entry t, entry ∈ (call.reply sim).log → entry.opens? = some t →
    t + 1 ≤ (call.reply sim).simulator.length ∧
      ((call.reply sim).simulator.length < UInt64.size → (UInt64.ofNat t + 1).toNat = t + 1)

theorem Simulator.outputs?_isSome : sim.outputs?.isSome = true ↔ sim.phase = .terminated := by
  by_cases terminated : sim.phase = .terminated <;> simp [outputs?, terminated]

theorem Simulator.outputs?_of_terminated (terminated : sim.phase = .terminated) :
    sim.outputs? = some sim.recorded := by
  rw [outputs?, if_pos terminated]

/-- A word of 64 bits that counts below a length it can hold goes on without a wrap. -/
theorem word_succ {length : Nat} (inside : t + 1 ≤ length) (fits : length < UInt64.size) :
    (UInt64.ofNat t + 1).toNat = t + 1 := by
  have small : (UInt64.ofNat t).toNat = t :=
    UInt64.toNat_ofNat_of_lt (Nat.lt_of_succ_le (Nat.le_trans inside (Nat.le_of_lt fits)))
  rw [UInt64.toNat_add, small]
  exact Nat.mod_eq_of_lt (Nat.lt_of_le_of_lt inside fits)

/-- However it has been driven, the parts of a simulator fit together. -/
theorem Reachable.coherent (reach : Reachable c sim) : Coherent c sim where
  circuit := reach.circuit
  outputs := Simulator.outputs?_isSome
  counters call entry t member opens := by
    have inside := (reach.stage.orderly call).cycles entry member t opens
    exact ⟨inside, word_succ inside⟩
  fresh phase := by
    cases reach.stage with
    | fresh => exact ⟨rfl, rfl, rfl⟩
    | after done => exact absurd phase (Simulator.begun_simulatorAfter done.inside).1
    | failed ended => simp [ended] at phase
  started phase := by
    have last : sim.cycle? = some 0 := by simp [Simulator.cycle?, phase]
    obtain ⟨n, done, rfl⟩ := reach.completed last
    have more : 0 + 1 < n := Simulator.inside_of_phase (c := c) done.inside (by simp [phase])
    exact more
  stepped t phase := by
    have last : sim.cycle? = some t := by simp [Simulator.cycle?, phase]
    obtain ⟨n, done, rfl⟩ := reach.completed last
    have more : t + 1 < n := Simulator.inside_of_phase (c := c) done.inside (by simp [phase])
    refine ⟨?_, more⟩
    rcases Circuit.phaseAfter_cases done.inside with ⟨_, other⟩ | ⟨_, _, other⟩ | ⟨_, later, _⟩
    · simp [Circuit.simulatorAfter, other] at phase
    · simp [Circuit.simulatorAfter, other] at phase
    · omega
  terminated phase := (reach.final phase).1.valid.positive
  completed begun unfailed := by
    cases reach.stage with
    | fresh => exact absurd rfl begun
    | @after n t done =>
      exact ⟨t, Circuit.cycle?_simulatorAfter done.inside, Circuit.validate_eq_ok.mpr done.valid,
        Circuit.filled_simulatorAfter done.inside⟩
    | failed ended => exact absurd ended unfailed
  complete phase trace member := by
    obtain ⟨done, same⟩ := reach.final phase
    have filled := Circuit.filled_simulatorAfter (c := c) done.inside
    rw [← same] at filled
    exact filled.complete (Nat.sub_add_cancel done.valid.positive).symm member

/-- A register that its own output feeds through an inverter. The outputs name it twice. -/
def toggle : Circuit where
  name := "toggle"
  inputs := ["a"]
  outputs := ["q", "d", "q"]
  latches := [⟨"d", "q"⟩]
  updates := [⟨"d", .not (.signal "q")⟩]
  stimuli := [⟨"a", [some true, some false, some true]⟩]

/-- The toggle after two of its three cycles. -/
def toggled : Simulator := (Simulator.ofCircuit toggle).after [.start, .step]

theorem toggled_coherent :
    Reachable toggle toggled ∧ toggled.phase = .stepped 1 ∧ 1 + 1 < toggled.length ∧
      toggle.validate = .ok toggled.length ∧ toggled.Filled 1 := by
  have reach : Reachable toggle toggled := Reachable.fresh.calls [.start, .step]
  have phase : toggled.phase = .stepped 1 := by decide +kernel
  have coherent := Reachable.coherent reach
  obtain ⟨last, here, valid, filled⟩ := coherent.completed (by simp [phase]) (by simp [phase])
  obtain rfl : 1 = last := by simpa [Simulator.cycle?, phase] using here
  exact ⟨reach, phase, (coherent.stepped 1 phase).2, valid, filled⟩

end LatchSim
