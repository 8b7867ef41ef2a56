import LatchSim.Proofs.Chain

/-!
# Behind validation

A circuit that is refused gets no further than its fault: nothing is bound, reset, recorded
or evaluated, whatever is called. One that is accepted has its length from the first call on
that is in order, also where a cycle fails: `Circuit.gated_by_validation`.

Which expressions are evaluated is told by an `Evaluator` that may answer as it likes on some
of them. Where that shows in no reply, they are not evaluated.
-/

namespace LatchSim

variable {c : Circuit} {sim : Simulator} {n k : Nat} {fault : Fault}

/-! ## Simulators with another evaluator -/

/-- A way to check and to evaluate expressions. -/
structure Evaluator where
  check : Store → Expr → Except Fault Unit
  eval : Store → Expr → Except Fault Bool

namespace Evaluator

variable (ev : Evaluator)

/-- The evaluator answers as `Expr.checkDefined` and `Expr.eval` do. -/
def AgreesOn (e : Expr) : Prop :=
  ∀ s, ev.check s e = e.checkDefined s ∧ ev.eval s e = e.eval s

def apply (u : Update) (s : Store) : Outcome :=
  match ev.check s u.expr with
  | .error fault => .stopped s fault
  | .ok () =>
    match ev.eval s u.expr with
    | .error fault => .stopped s fault
    | .ok value => .write s u.name value (.update u.name value)

def applyAll : List Update → Store → Outcome
  | [], s => .done s
  | u :: rest, s => (ev.apply u s).andThen (applyAll rest)

def firstCycle (c : Circuit) : Outcome :=
  (c.bindStimuli 0 c.stimuli .empty).andThen fun s =>
    ev.applyAll c.updates (Latch.resetAll c.latches s)

def nextCycle (c : Circuit) (cycle : Nat) (s : Store) : Outcome :=
  ((c.bindStimuli cycle c.stimuli s).andThen (Latch.advanceAll c.latches)).andThen
    (ev.applyAll c.updates)

def start (sim : Simulator) : Reply Unit :=
  if sim.phase ≠ .fresh then sim.reject .start
  else
    match sim.circuit.validate with
    | .error fault => sim.fail [] fault
    | .ok length =>
      let recorded := sim.circuit.outputs.map (Trace.unset · length)
      { sim with length := length, recorded := recorded }.complete 0 (.firstCycle length)
        (ev.firstCycle sim.circuit)

def stepTo (sim : Simulator) (cycle : Nat) : Reply Unit :=
  sim.complete cycle (.cycle cycle) (ev.nextCycle sim.circuit cycle sim.store)

def step (sim : Simulator) : Reply Unit :=
  match sim.phase with
  | .started => ev.stepTo sim 1
  | .stepped cycle => ev.stepTo sim (cycle + 1)
  | _ => sim.reject .step

def steps : Nat → Simulator → Reply Unit
  | 0, sim => ⟨sim, .ok (), []⟩
  | count + 1, sim => (ev.step sim).andThen (steps count)

def finish (sim : Simulator) : Reply (List Trace) :=
  (ev.steps sim.remaining sim).andThen fun sim =>
    ⟨sim, .ok sim.recorded, [.finished sim.circuit.name sim.length]⟩

def run (sim : Simulator) : Reply (List Trace) :=
  match sim.phase with
  | .fresh =>
    let reply := (ev.start sim).andThen ev.finish
    { reply with log := .simulating sim.circuit.name :: reply.log }
  | .started | .stepped _ => ev.finish sim
  | _ => sim.reject .run

/-- The reply to a call by a simulator that works with this evaluator. -/
def reply (sim : Simulator) : Call → Reply Unit
  | .start => ev.start sim
  | .step => ev.step sim
  | .run => (ev.run sim).discard

/-- The evaluator agrees on whatever is evaluated of the circuit: nothing, where the circuit
is refused. -/
def Admits (c : Circuit) : Prop :=
  ∀ n, c.Validated n → ∀ u ∈ c.updates, ev.AgreesOn u.expr

variable {ev}

theorem AgreesOn.apply {u : Update} (agrees : ev.AgreesOn u.expr) (s : Store) :
    ev.apply u s = u.apply s := by
  obtain ⟨check, eval⟩ := agrees s
  cases checked : u.expr.checkDefined s with
  | error fault => simp only [Evaluator.apply, Update.apply, check, checked]
  | ok _ =>
    cases evaluated : u.expr.eval s <;>
      simp only [Evaluator.apply, Update.apply, check, eval, checked, evaluated]

theorem applyAll_eq {updates : List Update} (agrees : ∀ u ∈ updates, ev.AgreesOn u.expr) :
    ev.applyAll updates = Update.applyAll updates := by
  induction updates with
  | nil => rfl
  | cons u rest ih =>
    funext s
    rw [applyAll, Update.applyAll, (agrees u List.mem_cons_self).apply,
      ih fun v member => agrees v (List.mem_cons_of_mem u member)]

theorem firstCycle_eq (agrees : ∀ u ∈ c.updates, ev.AgreesOn u.expr) :
    ev.firstCycle c = c.firstCycle := by
  rw [firstCycle, Circuit.firstCycle, applyAll_eq agrees]

theorem nextCycle_eq (agrees : ∀ u ∈ c.updates, ev.AgreesOn u.expr) :
    ev.nextCycle c = c.nextCycle := by
  funext cycle s
  rw [nextCycle, Circuit.nextCycle, applyAll_eq agrees]

/-! ### What calls make of it -/

variable (admits : ev.Admits c)

include admits

theorem start_eq (stage : Stage c sim) : ev.start sim = sim.start := by
  by_cases fresh : sim.phase = .fresh
  · cases stage with
    | fresh =>
      cases checked : c.validate with
      | error fault => simp [start, Simulator.start, Simulator.ofCircuit, checked]
      | ok n =>
        have body := firstCycle_eq (admits n (Circuit.validate_eq_ok.mp checked))
        simp [start, Simulator.start, Simulator.ofCircuit, checked, body]
    | after done => exact absurd fresh (Simulator.begun_simulatorAfter done.inside).1
    | failed ended => simp [ended] at fresh
  · rw [start, if_pos fresh, Simulator.start_of_begun fresh]

theorem step_eq (stage : Stage c sim) : ev.step sim = sim.step := by
  cases stage with
  | fresh => rfl
  | @after n t done =>
    have body : ev.nextCycle c = c.nextCycle := nextCycle_eq (admits n done.valid)
    have same (cycle : Nat) :
        ev.stepTo (c.simulatorAfter n t) cycle = (c.simulatorAfter n t).stepTo cycle := by
      rw [stepTo, Simulator.stepTo, show (c.simulatorAfter n t).circuit = c from rfl, body]
    cases phase : (c.simulatorAfter n t).phase <;> simp only [step, Simulator.step, phase, same]
  | failed ended => simp only [step, Simulator.step, ended]

theorem steps_eq (stage : Stage c sim) (count : Nat) :
    ev.steps count sim = Simulator.steps count sim := by
  induction count generalizing sim with
  | zero => rfl
  | succ count ih =>
    rw [steps, Simulator.steps, step_eq admits stage]
    exact Reply.andThen_congr fun _ _ => ih stage.step.stage

theorem finish_eq (stage : Stage c sim) : ev.finish sim = sim.finish := by
  rw [finish, Simulator.finish, steps_eq admits stage]

theorem run_eq (stage : Stage c sim) : ev.run sim = sim.run := by
  have rest : (ev.start sim).andThen ev.finish = sim.start.andThen Simulator.finish := by
    rw [start_eq admits stage]
    exact Reply.andThen_congr fun _ _ => finish_eq admits stage.start.stage
  have last := finish_eq admits stage
  cases phase : sim.phase <;> simp only [run, Simulator.run, phase, rest, last]

theorem reply_eq (reach : Reachable c sim) (call : Call) : ev.reply sim call = call.reply sim := by
  cases call with
  | start => exact start_eq admits reach.stage
  | step => exact step_eq admits reach.stage
  | run => rw [reply, Call.reply, run_eq admits reach.stage]

end Evaluator

/-! ## The first call in order -/

/-- Steps do not begin a simulation. -/
theorem Simulator.after_steps {calls : List Call} (steps : ∀ call ∈ calls, call = .step) :
    (ofCircuit c).after calls = ofCircuit c := by
  induction calls with
  | nil => rfl
  | cons call rest ih =>
    obtain rfl := steps call List.mem_cons_self
    exact ih fun other member => steps other (List.mem_cons_of_mem _ member)

/-- A simulator stays fresh only under steps. -/
theorem Reachable.reply_fresh (reach : Reachable c sim) {call : Call}
    (fresh : (call.reply sim).simulator.phase = .fresh) : sim.phase = .fresh ∧ call = .step := by
  obtain ⟨last, k, ends, inside, rfl⟩ := Circuit.exists_place reach
  cases order : call.inOrder (c.chain k).phase with
  | true =>
    rw [(ends.reply_simulator call inside order).2, Circuit.chain_fresh_iff] at fresh
    cases call with
    | start | step => exact absurd fresh k.succ_ne_zero
    | run => exact absurd fresh (Nat.ne_of_gt ends.positive)
  | false =>
    rw [call.reply_of_out order] at fresh
    have unmoved : (c.chain k).phase = .fresh := fresh
    refine ⟨unmoved, ?_⟩
    rw [unmoved] at order
    cases call with
    | step => rfl
    | start | run => cases order

theorem Reachable.after_fresh (reach : Reachable c sim) {calls : List Call}
    (fresh : (sim.after calls).phase = .fresh) :
    sim.phase = .fresh ∧ ∀ call ∈ calls, call = .step := by
  induction calls generalizing sim with
  | nil => exact ⟨fresh, by simp⟩
  | cons call rest ih =>
    obtain ⟨still, steps⟩ := ih (.after call reach) fresh
    obtain ⟨unmoved, rfl⟩ := reach.reply_fresh still
    exact ⟨unmoved, List.forall_mem_cons.mpr ⟨rfl, steps⟩⟩

namespace Circuit

/-- Once a call has been in order, calls have led past the beginning of the chain. -/
theorem exists_chain_succ {calls : List Call} (begun : ∃ call ∈ calls, call ≠ .step) :
    ∃ k, (Simulator.ofCircuit c).after calls = c.chain (k + 1) := by
  obtain ⟨_, k, _, _, place⟩ := exists_place (Reachable.fresh (c := c).calls calls)
  cases k with
  | zero =>
    obtain ⟨call, member, other⟩ := begun
    have fresh : ((Simulator.ofCircuit c).after calls).phase = .fresh := by rw [place]; rfl
    exact absurd ((Reachable.fresh.after_fresh fresh).2 call member) other
  | succ k => exact ⟨k, place⟩

/-! ## Refused circuits -/

/-- The simulator of a circuit that has been refused. -/
def turnedAway (c : Circuit) : Simulator := { Simulator.ofCircuit c with phase := .failed }

theorem chain_of_refused (refused : c.validate = .error fault) :
    c.chain (k + 1) = c.turnedAway := by
  induction k with
  | zero => exact congrArg Reply.simulator (Simulator.start_of_invalid refused)
  | succ k ih =>
    have next : c.chain (k + 2) = (c.chain (k + 1)).step.simulator := rfl
    rw [next, ih]
    rfl

/-- What becomes of a circuit that is refused with a fault. -/
structure Refused (c : Circuit) (fault : Fault) : Prop where
  /-- The first call that is in order answers the fault, -/
  answer : ∀ before : List Call, (∀ call ∈ before, call = .step) → ∀ call : Call, call ≠ .step →
    (call.reply ((Simulator.ofCircuit c).after before)).result = .error fault
  /-- and with it the simulation has failed for good. -/
  failed : ∀ calls : List Call, (∃ call ∈ calls, call ≠ .step) →
    ((Simulator.ofCircuit c).after calls).phase = .failed
  empty : ∀ sim, Reachable c sim →
    sim.store = .empty ∧ sim.recorded = [] ∧ sim.outputs? = none ∧ sim.length = 0
  /-- No expression is evaluated: an evaluator may answer as it likes. -/
  unevaluated : ∀ (ev : Evaluator) sim, Reachable c sim → ∀ call : Call,
    ev.reply sim call = call.reply sim

theorem Refused.of_validate (refused : c.validate = .error fault) : c.Refused fault where
  answer before steps call other := by
    have started := congrArg Reply.result (Simulator.start_of_invalid refused)
    rw [Simulator.after_steps steps]
    cases call with
    | start => exact started
    | step => exact absurd rfl other
    | run => rw [Call.reply, Reply.discard, (failsFirst_of_start started).run]; rfl
  failed calls begun := by
    obtain ⟨k, place⟩ := exists_chain_succ (c := c) begun
    rw [place, chain_of_refused refused]
    rfl
  empty sim reach := by
    obtain ⟨_, k, _, _, rfl⟩ := exists_place reach
    cases k with
    | zero => exact ⟨rfl, rfl, rfl, rfl⟩
    | succ k =>
      rw [chain_of_refused refused]
      exact ⟨rfl, rfl, rfl, rfl⟩
  unevaluated ev sim reach call := by
    refine Evaluator.reply_eq (fun n valid => ?_) reach call
    rw [validate_eq_ok.mpr valid] at refused
    cases refused

end Circuit

/-! ## Accepted circuits -/

theorem Simulator.complete_length (sim : Simulator) (cycle : Nat) (opening : Entry)
    (o : Outcome) : (sim.complete cycle opening o).simulator.length = sim.length := by
  rcases sim.complete_cases cycle opening o with ⟨fault, reply⟩ | ⟨traces, reply⟩ <;>
    simp only [reply, fail]

theorem Simulator.step_length (sim : Simulator) : sim.step.simulator.length = sim.length := by
  rw [step]
  split
  · exact sim.complete_length _ _ _
  · exact sim.complete_length _ _ _
  · rfl

namespace Circuit

theorem chain_length (valid : c.Validated n) : (c.chain (k + 1)).length = n := by
  induction k with
  | zero =>
    have first : c.chain 1 = (Simulator.ofCircuit c).start.simulator := rfl
    rw [first, Simulator.start_eq_complete valid]
    exact Simulator.complete_length _ _ _ _
  | succ k ih => exact (Simulator.step_length (c.chain (k + 1))).trans ih

/-- What becomes of a circuit that is accepted with a length. -/
structure Accepted (c : Circuit) (n : Nat) : Prop where
  positive : 0 < n
  /-- From the first call on that is in order the length is known, whether cycles fail or not. -/
  length : ∀ calls : List Call, (∃ call ∈ calls, call ≠ .step) →
    ((Simulator.ofCircuit c).after calls).length = n
  /-- Only shallow expressions are evaluated: on others an evaluator may answer as it likes. -/
  evaluated : ∀ ev : Evaluator, (∀ e : Expr, e.depth ≤ 1024 → ev.AgreesOn e) →
    ∀ sim, Reachable c sim → ∀ call : Call, ev.reply sim call = call.reply sim

theorem Accepted.of_validated (valid : c.Validated n) : c.Accepted n where
  positive := valid.positive
  length calls begun := by
    obtain ⟨k, place⟩ := exists_chain_succ (c := c) begun
    rw [place, chain_length valid]
  evaluated ev shallow sim reach call :=
    Evaluator.reply_eq (fun _ valid u member => shallow u.expr (valid.shallow u member)) reach call

/-- What validation answers decides how far any calls can get. -/
structure Gated (c : Circuit) : Prop where
  refused : ∀ fault, c.validate = .error fault → c.Refused fault
  accepted : ∀ n, c.validate = .ok n → c.Accepted n

theorem gated_by_validation (c : Circuit) : c.Gated where
  refused _ := Refused.of_validate
  accepted _ checked := Accepted.of_validated (validate_eq_ok.mp checked)

end Circuit
end LatchSim
