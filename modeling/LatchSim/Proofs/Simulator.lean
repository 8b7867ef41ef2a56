import LatchSim.Simulator
import LatchSim.Proofs.Cycle

/-!
# The stages of a simulator

However its calls are ordered, a simulator is fresh, or has failed, or is the one state
`Circuit.simulatorAfter` that follows a completed cycle: `Reachable.stage`. Which cycles
are completed is `Circuit.Completes`, a property of the circuit.
-/

namespace LatchSim

inductive Call where
  | start
  | step
  | run
  deriving DecidableEq

/-- A reply without its value. -/
def Reply.discard (reply : Reply α) : Reply Unit :=
  ⟨reply.simulator, reply.result.map fun _ => (), reply.log⟩

def Call.reply (sim : Simulator) : Call → Reply Unit
  | start => sim.start
  | step => sim.step
  | run => sim.run.discard

/-- The simulators that any sequence of calls, in or out of order, leads to. -/
inductive Reachable (c : Circuit) : Simulator → Prop where
  | fresh : Reachable c (.ofCircuit c)
  | after (call : Call) : Reachable c sim → Reachable c (call.reply sim).simulator

/-- The simulator after some calls. -/
def Simulator.after (sim : Simulator) : List Call → Simulator
  | [] => sim
  | call :: rest => after (call.reply sim).simulator rest

theorem Reachable.calls {c : Circuit} {sim : Simulator} (reach : Reachable c sim)
    (calls : List Call) : Reachable c (sim.after calls) := by
  induction calls generalizing sim with
  | nil => exact reach
  | cons call rest ih => exact ih (.after call reach)

namespace Circuit

/-- The names that make the first cycle fail, in the order in which they are read: first
references of updates, then declared outputs. -/
def unresolved (c : Circuit) : List String :=
  Update.early c.sources c.updates ++ c.outputs.filter (· ∉ c.bound)

/-- The latch inputs that make the second cycle fail. -/
def unresolvedInputs (c : Circuit) : List String :=
  (Latch.inputs c.latches).filter (· ∉ c.bound)

/-- The first `t + 1` cycles of a simulation of length `n` go well. -/
structure Completes (c : Circuit) (n t : Nat) : Prop where
  valid : c.Validated n
  inside : t < n
  resolved : c.unresolved = []
  inputs : t ≠ 0 → c.unresolvedInputs = []

def simulatorAfter (c : Circuit) (n t : Nat) : Simulator where
  circuit := c
  store := c.storeAfter t
  phase := Simulator.phaseAfter t n
  length := n
  recorded := c.recording n (t + 1)

theorem Completes.updates {c : Circuit} {n t : Nat} (done : c.Completes n t) :
    Update.early c.sources c.updates = [] :=
  (List.append_eq_nil_iff.mp done.resolved).1

theorem Completes.outputs {c : Circuit} {n t : Nat} (done : c.Completes n t) {name : String}
    (member : name ∈ c.outputs) : name ∈ c.bound := by
  have none := (List.append_eq_nil_iff.mp done.resolved).2
  simpa using List.filter_eq_nil_iff.mp none name member

theorem Completes.mono {c : Circuit} {n t u : Nat} (done : c.Completes n t) (earlier : u ≤ t) :
    c.Completes n u :=
  ⟨done.valid, Nat.lt_of_le_of_lt earlier done.inside, done.resolved, fun later =>
    done.inputs fun first => later (Nat.le_zero.mp (first ▸ earlier))⟩

theorem Completes.before {c : Circuit} {n t : Nat} (done : c.Completes n (t + 1)) :
    c.Completes n t :=
  done.mono t.le_succ

/-- What holds of the second cycle holds of all later ones. -/
theorem Completes.extend {c : Circuit} {n t u : Nat} (done : c.Completes n t) (inside : u < n)
    (inputs : c.unresolvedInputs = []) : c.Completes n u :=
  ⟨done.valid, inside, done.resolved, fun _ => inputs⟩

theorem phaseAfter_cases {n t : Nat} (inside : t < n) :
    t + 1 = n ∧ Simulator.phaseAfter t n = .terminated ∨
      t + 1 < n ∧ t = 0 ∧ Simulator.phaseAfter t n = .started ∨
      t + 1 < n ∧ t ≠ 0 ∧ Simulator.phaseAfter t n = .stepped t := by
  unfold Simulator.phaseAfter
  by_cases last : n ≤ t + 1
  · exact .inl ⟨by omega, if_pos last⟩
  · by_cases first : t = 0
    · exact .inr (.inl ⟨by omega, first, by rw [if_neg last, if_pos first]⟩)
    · exact .inr (.inr ⟨by omega, first, by rw [if_neg last, if_neg first]⟩)

theorem cycle?_simulatorAfter {c : Circuit} {n t : Nat} (inside : t < n) :
    (c.simulatorAfter n t).cycle? = some t := by
  rcases phaseAfter_cases inside with ⟨last, phase⟩ | ⟨_, rfl, phase⟩ | ⟨_, _, phase⟩ <;>
    simp only [simulatorAfter, Simulator.cycle?, phase]
  exact congrArg some (by omega)

theorem remaining_simulatorAfter {c : Circuit} {n t : Nat} (inside : t < n) :
    (c.simulatorAfter n t).remaining = n - 1 - t := by
  rcases phaseAfter_cases inside with ⟨last, phase⟩ | ⟨_, rfl, phase⟩ | ⟨_, _, phase⟩ <;>
    simp only [simulatorAfter, Simulator.remaining, phase]
  · omega
  · omega

end Circuit

/-! ## Single calls -/

namespace Simulator

section

variable {sim : Simulator} {cycle : Nat} {opening : Entry} {o : Outcome} {fault : Fault}

theorem complete_of_fault (stopped : o.fault? = some fault) :
    sim.complete cycle opening o = { sim with store := o.store }.fail (opening :: o.log) fault := by
  simp [complete, stopped]

theorem complete_of_unrecorded (done : o.fault? = none)
    (unrecorded : Circuit.record cycle o.store sim.recorded = .error fault) :
    sim.complete cycle opening o = { sim with store := o.store }.fail (opening :: o.log) fault := by
  simp [complete, done, unrecorded]

theorem complete_of_recorded {traces : List Trace} (done : o.fault? = none)
    (recorded : Circuit.record cycle o.store sim.recorded = .ok traces) :
    sim.complete cycle opening o =
      ⟨{ sim with store := o.store, recorded := traces, phase := phaseAfter cycle sim.length },
        .ok (), opening :: o.log⟩ := by
  simp [complete, done, recorded]

/-- A cycle takes over the store of its body, and fails or has recorded the outputs. -/
theorem complete_cases (sim : Simulator) (cycle : Nat) (opening : Entry) (o : Outcome) :
    (∃ fault, sim.complete cycle opening o =
      { sim with store := o.store }.fail (opening :: o.log) fault) ∨
    ∃ traces, sim.complete cycle opening o =
      ⟨{ sim with store := o.store, recorded := traces, phase := phaseAfter cycle sim.length },
        .ok (), opening :: o.log⟩ := by
  cases stopped : o.fault? with
  | some fault => exact .inl ⟨fault, complete_of_fault stopped⟩
  | none =>
    cases recorded : Circuit.record cycle o.store sim.recorded with
    | error fault => exact .inl ⟨fault, complete_of_unrecorded stopped recorded⟩
    | ok traces => exact .inr ⟨traces, complete_of_recorded stopped recorded⟩

/-- The entries of a cycle that fails are followed by its fault. -/
theorem complete_closes (sim : Simulator) (cycle : Nat) (opening : Entry) (o : Outcome) :
    ((sim.complete cycle opening o).result = .ok () ∧
      (sim.complete cycle opening o).log = opening :: o.log) ∨
    ∃ fault, (sim.complete cycle opening o).result = .error fault ∧
      (sim.complete cycle opening o).log =
        opening :: o.log ++ [.failed sim.circuit.name fault] := by
  rcases sim.complete_cases cycle opening o with ⟨fault, reply⟩ | ⟨traces, reply⟩
  · rw [reply]
    exact .inr ⟨fault, rfl, rfl⟩
  · rw [reply]
    exact .inl ⟨rfl, rfl⟩

end

/-- The simulator whose first cycle is under way. -/
def starting (c : Circuit) (n : Nat) : Simulator :=
  { ofCircuit c with length := n, recorded := c.recording n 0 }

theorem start_of_invalid {c : Circuit} {fault : Fault} (invalid : c.validate = .error fault) :
    (ofCircuit c).start = (ofCircuit c).fail [] fault := by
  simp [start, ofCircuit, invalid]

theorem start_eq_complete {c : Circuit} {n : Nat} (valid : c.Validated n) :
    (ofCircuit c).start = (starting c n).complete 0 (.firstCycle n) c.firstCycle := by
  simp [start, starting, ofCircuit, Circuit.validate_eq_ok.mpr valid, Circuit.recording_zero]

/-- A start either completes the first cycle or fails at the first unresolved name. -/
theorem start_cases {c : Circuit} {n : Nat} (valid : c.Validated n) :
    (c.Completes n 0 ∧ (ofCircuit c).start =
      ⟨c.simulatorAfter n 0, .ok (), .firstCycle n :: c.firstCycle.log⟩) ∨
    (∃ name, c.unresolved.head? = some name ∧ (ofCircuit c).start =
      { starting c n with store := c.firstCycle.store }.fail
        (.firstCycle n :: c.firstCycle.log) (.undefined name)) := by
  rw [start_eq_complete valid]
  have fault := Circuit.firstCycle_fault? valid
  cases early : Update.early c.sources c.updates with
  | cons name others =>
    rw [early, List.head?_cons, Option.map_some] at fault
    refine .inr ⟨name, ?_, complete_of_fault fault⟩
    rw [Circuit.unresolved, early]
    rfl
  | nil =>
    rw [early, List.head?_nil, Option.map_none] at fault
    have store := Circuit.firstCycle_store valid fault
    cases missing : c.outputs.filter (· ∉ c.bound) with
    | cons name others =>
      have record : Circuit.record 0 c.firstCycle.store (starting c n).recorded =
          .error (.undefined name) := by
        rw [store]
        exact Circuit.record_of_unbound valid.positive missing
      refine .inr ⟨name, ?_, complete_of_unrecorded fault record⟩
      rw [Circuit.unresolved, early, missing]
      rfl
    | nil =>
      have record : Circuit.record 0 c.firstCycle.store (starting c n).recorded =
          .ok (c.recording n 1) := by
        rw [store]
        exact Circuit.record_of_bound valid.positive (by simpa using missing)
      have resolved : c.unresolved = [] := by
        rw [Circuit.unresolved, early, missing]
        rfl
      refine .inl ⟨⟨valid, valid.positive, resolved, fun zero => absurd rfl zero⟩, ?_⟩
      rw [complete_of_recorded fault record, store]
      rfl

/-- A later cycle is completed too, but for the second one, which may fail at the first
unresolved latch input. -/
theorem stepTo_cases {c : Circuit} {n t : Nat} (done : c.Completes n t) (inside : t + 1 < n) :
    (c.Completes n (t + 1) ∧ (c.simulatorAfter n t).stepTo (t + 1) =
      ⟨c.simulatorAfter n (t + 1), .ok (),
        .cycle (t + 1) :: (c.nextCycle (t + 1) (c.storeAfter t)).log⟩) ∨
    (t = 0 ∧ ∃ name, c.unresolvedInputs.head? = some name ∧
      (c.simulatorAfter n t).stepTo (t + 1) =
        { c.simulatorAfter n t with store := (c.nextCycle (t + 1) (c.storeAfter t)).store }.fail
          (.cycle (t + 1) :: (c.nextCycle (t + 1) (c.storeAfter t)).log) (.undefined name)) := by
  have fault : (c.nextCycle (t + 1) (c.storeAfter t)).fault? =
      c.unresolvedInputs.head?.map .undefined :=
    Circuit.nextCycle_fault? done.valid inside done.updates fun _ => Circuit.contains_storeAfter
  cases missing : c.unresolvedInputs with
  | cons name others =>
    rw [missing, List.head?_cons, Option.map_some] at fault
    have first : t = 0 := Classical.byContradiction fun later => by
      simp [done.inputs later] at missing
    exact .inr ⟨first, name, rfl, complete_of_fault fault⟩
  | nil =>
    rw [missing, List.head?_nil, Option.map_none] at fault
    have store : _ = c.storeAfter (t + 1) := Circuit.nextCycle_store done.valid inside fault
    have record : Circuit.record (t + 1) (c.nextCycle (t + 1) (c.storeAfter t)).store
        (c.simulatorAfter n t).recorded = .ok (c.recording n (t + 2)) := by
      rw [store]
      exact Circuit.record_of_bound inside fun name member => done.outputs member
    refine .inl ⟨done.extend inside missing, ?_⟩
    refine (complete_of_recorded fault record).trans ?_
    rw [store]
    rfl

theorem start_of_begun {sim : Simulator} (begun : sim.phase ≠ .fresh) :
    sim.start = sim.reject .start := by
  rw [start, if_pos begun]

theorem step_of_inside {c : Circuit} {n t : Nat} (inside : t + 1 < n) :
    (c.simulatorAfter n t).step = (c.simulatorAfter n t).stepTo (t + 1) := by
  rcases Circuit.phaseAfter_cases (Nat.lt_of_succ_lt inside) with
    ⟨last, _⟩ | ⟨_, rfl, phase⟩ | ⟨_, _, phase⟩
  · omega
  · simp only [step, Circuit.simulatorAfter, phase]
  · simp only [step, Circuit.simulatorAfter, phase]

theorem start_of_completes {c : Circuit} {n : Nat} (done : c.Completes n 0) :
    (ofCircuit c).start =
      ⟨c.simulatorAfter n 0, .ok (), .firstCycle n :: c.firstCycle.log⟩ := by
  rcases start_cases done.valid with ⟨_, started⟩ | ⟨name, first, _⟩
  · exact started
  · rw [done.resolved] at first
    cases first

theorem step_of_completes {c : Circuit} {n t : Nat} (done : c.Completes n (t + 1)) :
    (c.simulatorAfter n t).step =
      ⟨c.simulatorAfter n (t + 1), .ok (),
        .cycle (t + 1) :: (c.nextCycle (t + 1) (c.storeAfter t)).log⟩ := by
  rw [step_of_inside done.inside]
  rcases stepTo_cases done.before done.inside with ⟨_, stepped⟩ | ⟨_, name, first, _⟩
  · exact stepped
  · rw [done.inputs t.succ_ne_zero] at first
    cases first

/-- A start completes the first cycle, or it fails for the circuit's own fault or at a name. -/
theorem start_total (c : Circuit) :
    (∃ n, c.Completes n 0 ∧ (ofCircuit c).start =
      ⟨c.simulatorAfter n 0, .ok (), .firstCycle n :: c.firstCycle.log⟩) ∨
    ∃ fault, (c.validate = .error fault ∨ ∃ name, fault = .undefined name) ∧
      (ofCircuit c).start.result = .error fault ∧
      (ofCircuit c).start.simulator.phase = .failed := by
  cases checked : c.validate with
  | error fault =>
    rw [start_of_invalid checked]
    exact .inr ⟨fault, .inl rfl, rfl, rfl⟩
  | ok n =>
    rcases start_cases (Circuit.validate_eq_ok.mp checked) with started | ⟨name, _, failed⟩
    · exact .inl ⟨n, started⟩
    · rw [failed]
      exact .inr ⟨.undefined name, .inr ⟨name, rfl⟩, rfl, rfl⟩

/-- A step that is due completes the next cycle, or it fails at a name. -/
theorem step_total {c : Circuit} {n t : Nat} (done : c.Completes n t) (inside : t + 1 < n) :
    (c.Completes n (t + 1) ∧ (c.simulatorAfter n t).step =
      ⟨c.simulatorAfter n (t + 1), .ok (),
        .cycle (t + 1) :: (c.nextCycle (t + 1) (c.storeAfter t)).log⟩) ∨
    ∃ name, (c.simulatorAfter n t).step.result = .error (.undefined name) ∧
      (c.simulatorAfter n t).step.simulator.phase = .failed := by
  rw [step_of_inside inside]
  rcases stepTo_cases done inside with stepped | ⟨_, name, _, failed⟩
  · exact .inl stepped
  · rw [failed]
    exact .inr ⟨name, rfl, rfl⟩

theorem completes_of_step {c : Circuit} {n t : Nat} (done : c.Completes n t) (inside : t + 1 < n)
    {value : Unit} (ok : (c.simulatorAfter n t).step.result = .ok value) :
    c.Completes n (t + 1) ∧ (c.simulatorAfter n t).step.simulator = c.simulatorAfter n (t + 1) := by
  rcases step_total done inside with ⟨next, stepped⟩ | ⟨name, failed, _⟩
  · rw [stepped]
    exact ⟨next, rfl⟩
  · rw [failed] at ok
    cases ok

theorem phase_of_last (c : Circuit) (t : Nat) :
    (c.simulatorAfter (t + 1) t).phase = .terminated := by
  rw [Circuit.simulatorAfter, phaseAfter, if_pos (Nat.le_refl _)]

theorem inside_of_phase {c : Circuit} {n t : Nat} (inside : t < n)
    (more : (c.simulatorAfter n t).phase ≠ .terminated) : t + 1 < n := by
  rcases Circuit.phaseAfter_cases inside with ⟨_, last⟩ | ⟨next, _⟩ | ⟨next, _⟩
  · exact absurd last more
  · exact next
  · exact next

theorem begun_simulatorAfter {c : Circuit} {n t : Nat} (inside : t < n) :
    (c.simulatorAfter n t).phase ≠ .fresh ∧ (c.simulatorAfter n t).phase ≠ .failed := by
  rcases Circuit.phaseAfter_cases inside with ⟨_, phase⟩ | ⟨_, _, phase⟩ | ⟨_, _, phase⟩ <;>
    simp [Circuit.simulatorAfter, phase]

end Simulator

/-! ## Any calls in any order -/

/-- Where a simulator of a circuit can be. -/
inductive Stage (c : Circuit) : Simulator → Prop where
  | fresh : Stage c (.ofCircuit c)
  | after : c.Completes n t → Stage c (c.simulatorAfter n t)
  | failed : sim.phase = .failed → Stage c sim

/-- The faults that calls of a simulator of a circuit can answer. -/
inductive Expected (c : Circuit) : Fault → Prop where
  | refused : c.validate = .error fault → Expected c fault
  | undefined (name : String) : Expected c (.undefined name)
  | rejected (operation : Operation) (phase : Phase) :
      Expected c (.invalidTransition operation phase)

structure Sound (c : Circuit) (reply : Reply α) : Prop where
  stage : Stage c reply.simulator
  fault : ∀ fault, reply.result = .error fault → Expected c fault

theorem Sound.ok {c : Circuit} {sim : Simulator} (stage : Stage c sim) (value : α)
    (log : List Entry) : Sound c (⟨sim, .ok value, log⟩ : Reply α) :=
  ⟨stage, fun _ result => nomatch result⟩

theorem Sound.error {c : Circuit} {sim : Simulator} {fault : Fault} (stage : Stage c sim)
    (expected : Expected c fault) (log : List Entry) :
    Sound c (⟨sim, .error fault, log⟩ : Reply α) := by
  refine ⟨stage, fun other result => ?_⟩
  obtain rfl := Except.error.inj result
  exact expected

theorem Sound.reject {c : Circuit} {sim : Simulator} (stage : Stage c sim)
    (operation : Operation) : Sound c (sim.reject operation : Reply α) :=
  .error stage (.rejected operation sim.phase) []

theorem Sound.fail {c : Circuit} {sim : Simulator} {log : List Entry} {fault : Fault}
    (expected : Expected c fault) : Sound c (sim.fail log fault : Reply α) :=
  .error (.failed rfl) expected _

theorem Sound.discard {c : Circuit} {reply : Reply α} (sound : Sound c reply) :
    Sound c reply.discard := by
  obtain ⟨sim, result, log⟩ := reply
  cases result with
  | error fault => exact .error sound.stage (sound.fault fault rfl) log
  | ok value => exact .ok sound.stage () log

theorem Sound.andThen {c : Circuit} {reply : Reply α} {next : Simulator → Reply β}
    (first : Sound c reply) (second : ∀ sim, Stage c sim → Sound c (next sim)) :
    Sound c (reply.andThen next) := by
  obtain ⟨sim, result, log⟩ := reply
  cases result with
  | error fault => exact .error first.stage (first.fault fault rfl) log
  | ok value => exact ⟨(second sim first.stage).stage, (second sim first.stage).fault⟩

namespace Stage

variable {c : Circuit} {sim : Simulator}

theorem start (stage : Stage c sim) : Sound c sim.start := by
  cases stage with
  | fresh =>
    cases checked : c.validate with
    | error fault =>
      rw [Simulator.start_of_invalid checked]
      exact .fail (.refused checked)
    | ok n =>
      rcases Simulator.start_cases (Circuit.validate_eq_ok.mp checked) with
        ⟨done, started⟩ | ⟨name, _, failed⟩
      · rw [started]
        exact .ok (.after done) _ _
      · rw [failed]
        exact .fail (.undefined name)
  | after done =>
    rw [Simulator.start_of_begun (Simulator.begun_simulatorAfter done.inside).1]
    exact .reject (.after done) _
  | failed ended =>
    rw [Simulator.start_of_begun (by simp [ended])]
    exact .reject (.failed ended) _

theorem step (stage : Stage c sim) : Sound c sim.step := by
  cases stage with
  | fresh => exact .reject .fresh _
  | @after n t done =>
    by_cases inside : t + 1 < n
    · rw [Simulator.step_of_inside inside]
      rcases Simulator.stepTo_cases done inside with ⟨next, stepped⟩ | ⟨_, name, _, failed⟩
      · rw [stepped]
        exact .ok (.after next) _ _
      · rw [failed]
        exact .fail (.undefined name)
    · obtain rfl : t + 1 = n := by have := done.inside; omega
      rw [Simulator.step, Simulator.phase_of_last]
      exact .reject (.after done) _
  | failed ended =>
    rw [Simulator.step, ended]
    exact .reject (.failed ended) _

theorem steps (stage : Stage c sim) (count : Nat) : Sound c (Simulator.steps count sim) := by
  induction count generalizing sim with
  | zero => exact .ok stage _ _
  | succ count ih => exact stage.step.andThen fun _ later => ih later

theorem finish (stage : Stage c sim) : Sound c sim.finish :=
  (stage.steps sim.remaining).andThen fun _ later => .ok later _ _

theorem run (stage : Stage c sim) : Sound c sim.run := by
  cases phase : sim.phase with
  | fresh =>
    have begun := stage.start.andThen fun _ => finish
    simp only [Simulator.run, phase]
    exact ⟨begun.stage, begun.fault⟩
  | started => simpa only [Simulator.run, phase] using stage.finish
  | stepped cycle => simpa only [Simulator.run, phase] using stage.finish
  | terminated => simpa only [Simulator.run, phase] using Sound.reject stage _
  | failed => simpa only [Simulator.run, phase] using Sound.reject stage _

theorem reply (stage : Stage c sim) (call : Call) : Sound c (call.reply sim) := by
  cases call with
  | start => exact stage.start
  | step => exact stage.step
  | run => exact stage.run.discard

end Stage

theorem Reachable.stage {c : Circuit} {sim : Simulator} (reach : Reachable c sim) :
    Stage c sim := by
  induction reach with
  | fresh => exact .fresh
  | after call _ ih => exact (ih.reply call).stage

/-- Where a reachable simulator has completed a cycle, nothing about it is left open. -/
theorem Reachable.completed {c : Circuit} {sim : Simulator} {t : Nat} (reach : Reachable c sim)
    (last : sim.cycle? = some t) : ∃ n, c.Completes n t ∧ sim = c.simulatorAfter n t := by
  cases reach.stage with
  | fresh => cases last
  | @after n u done =>
    obtain rfl : u = t := by
      rw [Circuit.cycle?_simulatorAfter done.inside] at last
      exact Option.some.inj last
    exact ⟨n, done, rfl⟩
  | failed ended =>
    rw [Simulator.cycle?, ended] at last
    cases last

/-- Every completed cycle is reached by single steps. -/
theorem Reachable.simulatorAfter {c : Circuit} {n t : Nat} (done : c.Completes n t) :
    Reachable c (c.simulatorAfter n t) := by
  induction t with
  | zero =>
    have started := Reachable.after .start (Reachable.fresh (c := c))
    rwa [Call.reply, Simulator.start_of_completes done] at started
  | succ t ih =>
    have stepped := Reachable.after .step (ih done.before)
    rwa [Call.reply, Simulator.step_of_completes done] at stepped

end LatchSim
