import Mathlib.Data.Nat.Find
import LatchSim.Proofs.Run
import LatchSim.Proofs.Verdict

/-!
# The chain of simulators

However a simulator is driven, it stays on one chain: the fresh simulator, the one after the
first cycle, the one after the second, up to the first that has terminated or failed. A call
in order moves along the chain, by one place or to the end, and any other call is rejected:
`Circuit.chained`.
-/

namespace LatchSim

variable {c : Circuit} {sim : Simulator} {n t k last : Nat}

/-- The phases in which no cycle is left to run. -/
def Phase.ended : Phase → Bool
  | .terminated | .failed => true
  | .fresh | .started | .stepped _ => false

theorem Phase.ended_iff {phase : Phase} :
    phase.ended = true ↔ phase = .terminated ∨ phase = .failed := by
  cases phase <;> simp [ended]

namespace Simulator

theorem step_of_ended (ended : sim.phase.ended = true) : sim.step = sim.reject .step := by
  rcases Phase.ended_iff.mp ended with phase | phase <;> simp only [step, phase]

theorem run_of_ended (ended : sim.phase.ended = true) : sim.run = sim.reject .run := by
  rcases Phase.ended_iff.mp ended with phase | phase <;> simp only [run, phase]

end Simulator

namespace Call

def operation : Call → Operation
  | start => .start
  | step => .step
  | run => .run

/-- Whether a call is in order in a phase. -/
def inOrder : Call → Phase → Bool
  | start, phase => phase = .fresh
  | step, phase => phase ≠ .fresh && ! phase.ended
  | run, phase => ! phase.ended

/-- The call that runs a cycle. -/
def ofCycle : Nat → Call
  | 0 => start
  | _ + 1 => step

/-- Where on a chain that ends at `last` a call in order leads from place `k`. -/
def target (last k : Nat) : Call → Nat
  | start | step => k + 1
  | run => last

theorem target_single {call : Call} (single : call ≠ .run) (last k : Nat) :
    call.target last k = k + 1 := by
  cases call with
  | start | step => rfl
  | run => exact absurd rfl single

/-- A call out of order is rejected and changes nothing. -/
theorem reply_of_out (call : Call) (out : call.inOrder sim.phase = false) :
    call.reply sim = sim.reject call.operation := by
  cases call with
  | start => exact Simulator.start_of_begun (by simpa [inOrder] using out)
  | step =>
    cases phase : sim.phase with
    | started | stepped cycle => simp [inOrder, Phase.ended, phase] at out
    | fresh | terminated | failed => simp only [reply, Simulator.step, phase, operation]
  | run =>
    rw [reply, Simulator.run_of_ended (by simpa [inOrder] using out)]
    rfl

end Call

/-! ## Replies in sequence -/

namespace Reply

theorem andThen_congr {reply : Reply α} {next other : Simulator → Reply β}
    (same : ∀ value, reply.result = .ok value → next reply.simulator = other reply.simulator) :
    reply.andThen next = reply.andThen other := by
  cases result : reply.result with
  | error fault => rw [andThen_of_error result, andThen_of_error result]
  | ok value => rw [andThen_of_ok result, andThen_of_ok result, same value result]

theorem andThen_assoc (reply : Reply α) (first : Simulator → Reply β)
    (second : Simulator → Reply γ) :
    (reply.andThen first).andThen second = reply.andThen fun sim => (first sim).andThen second := by
  cases result : reply.result with
  | error fault => rw [andThen_of_error result, andThen_of_error rfl, andThen_of_error result]
  | ok value =>
    rw [andThen_of_ok result, andThen_of_ok result]
    cases later : (first reply.simulator).result with
    | error fault => simp [andThen, later]
    | ok value => simp [andThen, later]

end Reply

/-! ## The loop of a run -/

namespace Simulator

theorem ended_simulatorAfter (inside : t < n) :
    (c.simulatorAfter n t).phase.ended = true ↔ t + 1 = n := by
  rcases Circuit.phaseAfter_cases inside with ⟨last, phase⟩ | ⟨more, _, phase⟩ | ⟨more, _, phase⟩
  · simp [Circuit.simulatorAfter, phase, Phase.ended, last]
  · simp [Circuit.simulatorAfter, phase, Phase.ended, Nat.ne_of_lt more]
  · simp [Circuit.simulatorAfter, phase, Phase.ended, Nat.ne_of_lt more]

theorem finish_of_terminated (phase : sim.phase = .terminated) :
    sim.finish = ⟨sim, .ok sim.recorded, [.finished sim.circuit.name sim.length]⟩ := by
  simp [finish, remaining, phase, steps, Reply.andThen]

/-- What remains of a run is a step and then what remains. -/
theorem finish_eq_step (done : c.Completes n t) (inside : t + 1 < n) :
    (c.simulatorAfter n t).finish = (c.simulatorAfter n t).step.andThen finish := by
  have count : (c.simulatorAfter n t).remaining = n - 1 - (t + 1) + 1 := by
    rw [Circuit.remaining_simulatorAfter done.inside]
    omega
  rw [finish, count, steps, Reply.andThen_assoc]
  refine Reply.andThen_congr fun value ok => ?_
  rw [(completes_of_step done inside ok).2, finish, Circuit.remaining_simulatorAfter inside]

end Simulator

/-! ## The chain -/

namespace Circuit

/-- The simulators of a circuit one after another: the fresh one, and the one that each cycle
leaves behind. -/
def chain (c : Circuit) : Nat → Simulator
  | 0 => .ofCircuit c
  | k + 1 => ((Call.ofCycle k).reply (c.chain k)).simulator

/-- The reply to the call that runs a cycle. -/
def attempt (c : Circuit) (cycle : Nat) : Reply Unit := (Call.ofCycle cycle).reply (c.chain cycle)

/-- What the attempts that lead to a place of the chain have told. -/
def history (c : Circuit) : Nat → List Entry
  | 0 => []
  | k + 1 => c.history k ++ (c.attempt k).log

/-- What a run reports at the end of a chain. -/
def report (c : Circuit) (last : Nat) : List Entry :=
  if (c.chain last).phase = .terminated then
    [.finished (c.chain last).circuit.name (c.chain last).length]
  else []

/-- Along the chain cycles are completed one by one, unless one has failed, and from the last
one on nothing moves. -/
theorem chain_cases (c : Circuit) (k : Nat) :
    (c.chain (k + 1)).phase = .failed ∨
      ∃ n, c.Completes n (min k (n - 1)) ∧
        c.chain (k + 1) = c.simulatorAfter n (min k (n - 1)) := by
  induction k with
  | zero =>
    have first : c.chain 1 = (Simulator.ofCircuit c).start.simulator := rfl
    rcases Simulator.start_total c with ⟨n, done, started⟩ | ⟨fault, _, _, failed⟩
    · rw [first, started]
      exact .inr ⟨n, by rwa [Nat.zero_min], by rw [Nat.zero_min]⟩
    · exact .inl failed
  | succ k ih =>
    have next : c.chain (k + 2) = (c.chain (k + 1)).step.simulator := rfl
    rcases ih with failed | ⟨n, done, here⟩
    · refine .inl ?_
      rw [next, Simulator.step, failed]
      exact failed
    · by_cases inside : k + 1 < n
      · have place : min k (n - 1) = k := by omega
        have place' : min (k + 1) (n - 1) = k + 1 := by omega
        rw [place] at done here
        rw [next, here]
        rcases Simulator.step_total done inside with ⟨later, stepped⟩ | ⟨name, _, failed⟩
        · rw [stepped]
          exact .inr ⟨n, by rwa [place'], by rw [place']⟩
        · exact .inl failed
      · have place : min k (n - 1) = n - 1 := by omega
        have place' : min (k + 1) (n - 1) = n - 1 := by omega
        rw [place] at done here
        have ended : (c.chain (k + 1)).phase = .terminated := by
          obtain ⟨m, rfl⟩ := Nat.exists_eq_succ_of_ne_zero (Nat.ne_of_gt done.valid.positive)
          rw [here]
          exact Simulator.phase_of_last c m
        refine .inr ⟨n, by rwa [place'], ?_⟩
        rw [next, Simulator.step, ended, place']
        exact here

theorem chain_begun (c : Circuit) (k : Nat) : (c.chain (k + 1)).phase ≠ .fresh := by
  rcases chain_cases c k with failed | ⟨n, done, here⟩
  · simp [failed]
  · rw [here]
    exact (Simulator.begun_simulatorAfter done.inside).1

theorem chain_fresh_iff : (c.chain k).phase = .fresh ↔ k = 0 := by
  cases k with
  | zero => exact iff_of_true rfl rfl
  | succ k => exact iff_of_false (chain_begun c k) k.succ_ne_zero

theorem start_inOrder : Call.start.inOrder (c.chain k).phase = true ↔ k = 0 := by
  rw [Call.inOrder, decide_eq_true_eq, chain_fresh_iff]

/-- Where the chain goes on, a cycle has been completed that is not the last. -/
theorem chain_of_open (going : (c.chain (k + 1)).phase.ended = false) :
    ∃ n, c.Completes n k ∧ k + 1 < n ∧ c.chain (k + 1) = c.simulatorAfter n k := by
  rcases chain_cases c k with failed | ⟨n, done, here⟩
  · simp [failed, Phase.ended] at going
  · have more : min k (n - 1) + 1 ≠ n := by
      intro last
      rw [here, (Simulator.ended_simulatorAfter done.inside).mpr last] at going
      cases going
    have inside := done.inside
    have place : min k (n - 1) = k := by omega
    rw [place] at done here more
    exact ⟨n, done, Nat.lt_of_le_of_ne done.inside more, here⟩

/-- Where the chain goes on, what remains of the run begins with the next cycle. -/
theorem chain_finish (going : (c.chain (k + 1)).phase.ended = false) :
    (c.chain (k + 1)).finish = (c.attempt (k + 1)).andThen Simulator.finish := by
  obtain ⟨n, done, more, here⟩ := chain_of_open going
  have loop := Simulator.finish_eq_step done more
  rw [← here] at loop
  exact loop

theorem chain_run (going : (c.chain (k + 1)).phase.ended = false) :
    (c.chain (k + 1)).run = (c.chain (k + 1)).finish := by
  obtain ⟨n, _, more, here⟩ := chain_of_open going
  rw [here, Simulator.run_of_inside more]

theorem attempt_of_ended (ended : (c.chain k).phase.ended = true) :
    c.attempt k = (c.chain k).reject .step := by
  cases k with
  | zero => cases ended
  | succ k => exact Simulator.step_of_ended ended

/-- The chain ends with the first simulator that has terminated or failed. -/
structure EndsAt (c : Circuit) (last : Nat) : Prop where
  ended : (c.chain last).phase.ended = true
  going : ∀ k < last, (c.chain k).phase.ended = false

theorem exists_endsAt (c : Circuit) : ∃ last, c.EndsAt last := by
  have ends : ∃ k, (c.chain k).phase.ended = true := by
    rcases chain_cases c 0 with failed | ⟨n, done, _⟩
    · exact ⟨1, by rw [failed]; rfl⟩
    · -- A circuit that starts has a length, and by then the chain has ended.
      refine ⟨n - 1 + 1, ?_⟩
      rcases chain_cases c (n - 1) with failed | ⟨m, again, here⟩
      · rw [failed]
        rfl
      · obtain rfl := done.valid.unique again.valid
        have positive := done.valid.positive
        rw [here, Simulator.ended_simulatorAfter again.inside]
        omega
  classical
  refine ⟨Nat.find ends, Nat.find_spec ends, fun k before => ?_⟩
  simpa using Nat.find_min ends before

namespace EndsAt

variable (ends : c.EndsAt last)

include ends

theorem positive : 0 < last := by
  refine Nat.pos_of_ne_zero fun zero => ?_
  have ended := ends.ended
  rw [zero] at ended
  cases ended

theorem ended_iff (inside : k ≤ last) : (c.chain k).phase.ended = true ↔ k = last := by
  constructor
  · intro ended
    refine Classical.byContradiction fun different => ?_
    rw [ends.going k (Nat.lt_of_le_of_ne inside different)] at ended
    cases ended
  · rintro rfl
    exact ends.ended

/-- Nothing moves past the end of the chain. -/
theorem chain_late (late : last ≤ k) : c.chain k = c.chain last := by
  induction late with
  | refl => rfl
  | @step k _ ih =>
    have ended := ends.ended
    rw [← ih] at ended
    have next : c.chain (k + 1) = (c.attempt k).simulator := rfl
    rw [next, attempt_of_ended ended]
    exact ih

/-- The call that runs the next cycle goes well unless the chain fails there. -/
theorem attempt_cases (inside : k < last) :
    ((c.attempt k).result = .ok () ∧ (c.chain (k + 1)).phase ≠ .failed) ∨
      ∃ fault, (c.attempt k).result = .error fault ∧ (c.chain (k + 1)).phase = .failed ∧
        ∀ operation phase, fault ≠ .invalidTransition operation phase := by
  cases k with
  | zero =>
    have first : c.chain 1 = (c.attempt 0).simulator := rfl
    have attempt : c.attempt 0 = (Simulator.ofCircuit c).start := rfl
    rw [first, attempt]
    rcases Simulator.start_total c with ⟨n, done, started⟩ | ⟨fault, reason, result, failed⟩
    · rw [started]
      exact .inl ⟨rfl, (Simulator.begun_simulatorAfter done.inside).2⟩
    · refine .inr ⟨fault, result, failed, ?_⟩
      rintro operation phase rfl
      rcases reason with refused | ⟨name, same⟩
      · exact validate_ne_invalidTransition refused
      · cases same
  | succ k =>
    obtain ⟨n, done, more, here⟩ := chain_of_open (ends.going (k + 1) inside)
    have next : c.chain (k + 2) = (c.attempt (k + 1)).simulator := rfl
    have attempt : c.attempt (k + 1) = (c.chain (k + 1)).step := rfl
    rw [next, attempt, here]
    rcases Simulator.step_total done more with ⟨later, stepped⟩ | ⟨name, result, failed⟩
    · rw [stepped]
      exact .inl ⟨rfl, (Simulator.begun_simulatorAfter later.inside).2⟩
    · exact .inr ⟨.undefined name, result, failed, fun _ _ same => nomatch same⟩

theorem attempt_ok (inside : k < last) (unfailed : (c.chain (k + 1)).phase ≠ .failed) :
    (c.attempt k).result = .ok () := by
  rcases ends.attempt_cases inside with ⟨ok, _⟩ | ⟨fault, _, failed, _⟩
  · exact ok
  · exact absurd failed unfailed

/-- The cycle that the chain ends with answers a fault if the chain has failed. -/
theorem attempt_last :
    ((c.attempt (last - 1)).result = .ok () ∧ (c.chain last).phase = .terminated) ∨
      ∃ fault, (c.attempt (last - 1)).result = .error fault ∧ (c.chain last).phase = .failed ∧
        ∀ operation phase, fault ≠ .invalidTransition operation phase := by
  have cases := ends.attempt_cases (Nat.sub_lt ends.positive Nat.one_pos)
  rw [Nat.sub_add_cancel ends.positive] at cases
  refine cases.imp_left fun ⟨ok, unfailed⟩ => ⟨ok, ?_⟩
  exact (Phase.ended_iff.mp ends.ended).resolve_right unfailed

/-- From every cycle on, the rest of the run leads to the end of the chain, its answer is that
of the last cycle, and it tells the cycles from this one on. -/
theorem attempt_andThen_finish (inside : k < last) :
    ((c.attempt k).andThen Simulator.finish).simulator = c.chain last ∧
      ((c.attempt k).andThen Simulator.finish).result =
        (c.attempt (last - 1)).result.map (fun _ => (c.chain last).recorded) ∧
      c.history k ++ ((c.attempt k).andThen Simulator.finish).log =
        c.history last ++ c.report last := by
  -- Backwards along the chain: the loop turns once for every cycle that is left.
  induction left : last - (k + 1) generalizing k with
  | zero =>
    obtain rfl : k + 1 = last := by omega
    rcases ends.attempt_last with ⟨ok, terminated⟩ | ⟨fault, failed, phase, _⟩
    · have finished : (c.attempt k).simulator.finish = _ :=
        Simulator.finish_of_terminated terminated
      rw [Nat.add_sub_cancel] at ok
      rw [Nat.add_sub_cancel, Reply.andThen_of_ok ok, finished, ok, report, if_pos terminated,
        history, List.append_assoc]
      exact ⟨rfl, rfl, rfl⟩
    · rw [Nat.add_sub_cancel] at failed
      rw [Nat.add_sub_cancel, Reply.andThen_of_error failed, failed, report,
        if_neg (by simp [phase]), history, List.append_nil]
      exact ⟨rfl, rfl, rfl⟩
  | succ left ih =>
    have next : k + 1 < last := by omega
    have going := ends.going (k + 1) next
    rcases ends.attempt_cases inside with ⟨ok, _⟩ | ⟨fault, _, failed, _⟩
    · have turn : (c.attempt k).simulator.finish = _ := chain_finish going
      obtain ⟨simulator, result, log⟩ := ih next (by omega)
      rw [Reply.andThen_of_ok ok, turn]
      refine ⟨simulator, result, ?_⟩
      rw [← log, history, List.append_assoc]
    · rw [failed] at going
      cases going

/-- A run starts with the call that runs the next cycle. -/
theorem run_eq (inside : k < last) :
    (c.chain k).run.simulator = c.chain last ∧
      (c.chain k).run.result =
        (c.attempt (last - 1)).result.map fun _ => (c.chain last).recorded := by
  obtain ⟨simulator, result, _⟩ := ends.attempt_andThen_finish inside
  cases k with
  | zero => exact ⟨simulator, result⟩
  | succ k =>
    have going := ends.going (k + 1) inside
    rw [chain_run going, chain_finish going]
    exact ⟨simulator, result⟩

/-- What a run reports begins with what that call reports. -/
theorem run_log (inside : k < last) :
    (c.chain k).run.log = (if k = 0 then [.simulating c.name] else []) ++
      ((c.attempt k).andThen Simulator.finish).log := by
  cases k with
  | zero => rfl
  | succ k =>
    have going := ends.going (k + 1) inside
    rw [chain_run going, chain_finish going]
    rfl

/-! ### Calls on the chain -/

theorem run_inOrder (inside : k ≤ last) :
    Call.run.inOrder (c.chain k).phase = true ↔ k < last := by
  rw [Call.inOrder, Bool.not_eq_true', ← Bool.not_eq_true, ends.ended_iff inside]
  omega

theorem step_inOrder (inside : k ≤ last) :
    Call.step.inOrder (c.chain k).phase = true ↔ 0 < k ∧ k < last := by
  have more := ends.run_inOrder inside
  rw [Call.inOrder] at more
  rw [Call.inOrder, Bool.and_eq_true, more, decide_eq_true_eq, ne_eq, chain_fresh_iff,
    Nat.pos_iff_ne_zero]

/-- A call in order, other than a run, makes the next attempt. -/
theorem reply_single {call : Call} (single : call ≠ .run) (inside : k ≤ last)
    (order : call.inOrder (c.chain k).phase = true) :
    k < last ∧ call.reply (c.chain k) = c.attempt k := by
  cases call with
  | start =>
    obtain rfl := start_inOrder.mp order
    exact ⟨ends.positive, rfl⟩
  | step =>
    obtain ⟨begun, more⟩ := (ends.step_inOrder inside).mp order
    obtain ⟨k, rfl⟩ := Nat.exists_eq_succ_of_ne_zero (Nat.ne_of_gt begun)
    exact ⟨more, rfl⟩
  | run => exact absurd rfl single

/-- A call in order moves along the chain. -/
theorem reply_simulator (call : Call) (inside : k ≤ last)
    (order : call.inOrder (c.chain k).phase = true) :
    k < last ∧ (call.reply (c.chain k)).simulator = c.chain (call.target last k) := by
  by_cases single : call = .run
  · subst single
    have more := (ends.run_inOrder inside).mp order
    exact ⟨more, (ends.run_eq more).1⟩
  · obtain ⟨more, reply⟩ := ends.reply_single single inside order
    refine ⟨more, ?_⟩
    rw [reply, Call.target_single single]
    rfl

/-- No call leads back. -/
theorem reply_forward (call : Call) (inside : k ≤ last) :
    ∃ j, k ≤ j ∧ j ≤ last ∧ (call.reply (c.chain k)).simulator = c.chain j := by
  cases order : call.inOrder (c.chain k).phase with
  | true =>
    obtain ⟨more, moved⟩ := ends.reply_simulator call inside order
    refine ⟨call.target last k, ?_, ?_, moved⟩ <;> cases call <;>
      simp only [Call.target] <;> omega
  | false => exact ⟨k, Nat.le_refl k, inside, by rw [call.reply_of_out order]; rfl⟩

/-- The chain is all that calls can reach. -/
theorem reachable_iff : Reachable c sim ↔ ∃ k ≤ last, sim = c.chain k := by
  constructor
  · intro reach
    induction reach with
    | fresh => exact ⟨0, Nat.zero_le _, rfl⟩
    | after call _ ih =>
      obtain ⟨k, inside, rfl⟩ := ih
      obtain ⟨j, _, inside, moved⟩ := ends.reply_forward call inside
      exact ⟨j, inside, moved⟩
  · rintro ⟨k, _, rfl⟩
    induction k with
    | zero => exact .fresh
    | succ k ih => exact .after (Call.ofCycle k) (ih (by omega))

/-- No cycle answers that a call was out of order. -/
theorem attempt_ne_invalidTransition (inside : k < last) (operation : Operation) (phase : Phase) :
    (c.attempt k).result ≠ .error (.invalidTransition operation phase) := by
  intro rejected
  rcases ends.attempt_cases inside with ⟨ok, _⟩ | ⟨fault, failed, _, never⟩
  · rw [ok] at rejected
    cases rejected
  · exact never operation phase (Except.error.inj (failed.symm.trans rejected))

/-- Only a call out of order is answered so. -/
theorem out_of_invalidTransition {call : Call} {operation : Operation} {phase : Phase}
    (inside : k ≤ last)
    (rejected : (call.reply (c.chain k)).result = .error (.invalidTransition operation phase)) :
    call.inOrder (c.chain k).phase = false := by
  refine Bool.eq_false_iff.mpr fun order => ?_
  cases call with
  | start =>
    obtain rfl := start_inOrder.mp order
    exact ends.attempt_ne_invalidTransition ends.positive operation phase rejected
  | step =>
    obtain ⟨begun, more⟩ := (ends.step_inOrder inside).mp order
    obtain ⟨k, rfl⟩ := Nat.exists_eq_succ_of_ne_zero (Nat.ne_of_gt begun)
    exact ends.attempt_ne_invalidTransition more operation phase rejected
  | run =>
    have more := (ends.run_inOrder inside).mp order
    have inLast : last - 1 < last := Nat.sub_lt ends.positive Nat.one_pos
    rw [Call.reply, Reply.discard, (ends.run_eq more).2] at rejected
    cases result : (c.attempt (last - 1)).result with
    | ok value =>
      rw [result] at rejected
      cases rejected
    | error fault =>
      rw [result] at rejected
      obtain rfl := Except.error.inj rejected
      exact ends.attempt_ne_invalidTransition inLast operation phase result

/-! ### Runs on the chain -/

theorem run_ok_iff (more : k < last) {traces : List Trace} :
    (c.chain k).run.result = .ok traces ↔
      (c.chain last).phase = .terminated ∧ (c.chain last).recorded = traces := by
  rw [(ends.run_eq more).2]
  rcases ends.attempt_last with ⟨ok, terminated⟩ | ⟨fault, result, failed, _⟩
  · simp [ok, terminated, Except.map]
  · simp [result, failed, Except.map]

theorem run_error_iff (more : k < last) {fault : Fault} :
    (c.chain k).run.result = .error fault ↔
      (c.chain last).phase = .failed ∧ (c.attempt (last - 1)).result = .error fault := by
  rw [(ends.run_eq more).2]
  rcases ends.attempt_last with ⟨ok, terminated⟩ | ⟨fault, result, failed, _⟩
  · simp [ok, Except.map]
  · simp [result, failed, Except.map]

/-- A run is a step and, unless that was the last one, another run. -/
theorem run_loop (begun : 0 < k) (more : k < last) :
    (c.chain k).run = (c.chain k).step.andThen fun next =>
      if next.phase = .terminated then
        ⟨next, .ok next.recorded, [.finished next.circuit.name next.length]⟩
      else next.run := by
  obtain ⟨k, rfl⟩ := Nat.exists_eq_succ_of_ne_zero (Nat.ne_of_gt begun)
  have going := ends.going (k + 1) more
  rw [chain_run going, chain_finish going]
  refine Reply.andThen_congr fun value ok => ?_
  have next : (c.attempt (k + 1)).simulator = c.chain (k + 2) := rfl
  have unfailed : (c.chain (k + 2)).phase ≠ .failed := by
    rcases ends.attempt_cases more with ⟨_, unfailed⟩ | ⟨fault, failed, _, _⟩
    · exact unfailed
    · rw [failed] at ok
      cases ok
  rw [next]
  split
  case isTrue terminated => exact Simulator.finish_of_terminated terminated
  case isFalse unterminated =>
    refine (chain_run ?_).symm
    exact Bool.eq_false_iff.mpr fun ended =>
      (Phase.ended_iff.mp ended).elim unterminated unfailed

/-- A chain that ends well has a place for each cycle after the fresh simulator. -/
theorem last_of_terminated (terminated : (c.chain last).phase = .terminated) :
    c.Completes last (last - 1) ∧ c.chain last = c.simulatorAfter last (last - 1) := by
  obtain ⟨m, rfl⟩ := Nat.exists_eq_succ_of_ne_zero (Nat.ne_of_gt ends.positive)
  rcases chain_cases c m with failed | ⟨n, done, here⟩
  · simp [failed] at terminated
  · have length : min m (n - 1) + 1 = n := by
      have ended := ends.ended
      rwa [here, Simulator.ended_simulatorAfter done.inside] at ended
    have place : m + 1 = n := by
      cases m with
      | zero => omega
      | succ m =>
        obtain ⟨n', before, more, _⟩ := chain_of_open (ends.going (m + 1) (Nat.lt_succ_self _))
        obtain rfl := done.valid.unique before.valid
        omega
    obtain rfl := place
    rw [Nat.add_sub_cancel, Nat.min_self] at done here
    exact ⟨done, here⟩

/-- On a chain that ends well, every place but the first has completed a cycle. -/
theorem chain_of_terminated (inside : k < last) (terminated : (c.chain last).phase = .terminated) :
    c.Completes last k ∧ c.chain (k + 1) = c.simulatorAfter last k := by
  obtain ⟨all, final⟩ := ends.last_of_terminated terminated
  by_cases more : k + 1 < last
  · obtain ⟨n, done, _, here⟩ := chain_of_open (ends.going (k + 1) more)
    obtain rfl := all.valid.unique done.valid
    exact ⟨done, here⟩
  · obtain rfl : last = k + 1 := by omega
    exact ⟨all, final⟩

/-- A run that goes well takes one step for each cycle after the last completed one. -/
theorem run_steps (more : k < last) (here : (c.chain k).cycle? = some t)
    (terminated : (c.chain last).phase = .terminated) :
    last = k + ((c.chain k).length - 1 - t) ∧
      ∃ log, Simulator.steps ((c.chain k).length - 1 - t) (c.chain k) =
        ⟨c.chain last, .ok (), log⟩ := by
  obtain ⟨all, final⟩ := ends.last_of_terminated terminated
  cases k with
  | zero => cases here
  | succ k =>
    obtain ⟨n, done, inside, place⟩ := chain_of_open (ends.going (k + 1) more)
    obtain rfl := all.valid.unique done.valid
    rw [place] at here ⊢
    obtain rfl : k = t := by
      rw [cycle?_simulatorAfter done.inside] at here
      exact Option.some.inj here
    have count : k + (n - 1 - k) = n - 1 := by omega
    have ahead : c.Completes n (k + (n - 1 - k)) := by rwa [count]
    obtain ⟨log, ran⟩ := Simulator.steps_of_completes ahead
    rw [count] at ran
    have length : (c.simulatorAfter n k).length = n := rfl
    rw [length, final]
    exact ⟨by omega, log, ran⟩

end EndsAt

/-! ## Driving a simulator -/

/-- However it has been driven, a simulator has a place on a chain that ends. -/
theorem exists_place (reach : Reachable c sim) :
    ∃ last k, c.EndsAt last ∧ k ≤ last ∧ sim = c.chain k := by
  obtain ⟨last, ends⟩ := c.exists_endsAt
  obtain ⟨k, inside, place⟩ := ends.reachable_iff.mp reach
  exact ⟨last, k, ends, inside, place⟩

/-- What calls make of the simulators of a circuit whose chain ends at `last`. -/
structure Chained (c : Circuit) (last : Nat) : Prop where
  /-- The last simulator is the first that has terminated or failed. -/
  ended : ∀ k ≤ last,
    ((c.chain k).phase = .terminated ∨ (c.chain k).phase = .failed ↔ k = last)
  /-- Calls lead to the simulators of the chain and to no others. -/
  reachable : ∀ sim, Reachable c sim ↔ ∃ k ≤ last, sim = c.chain k
  /-- One call after the other is in order along the chain, and none at its end. -/
  order : ∀ k ≤ last,
    (Call.start.inOrder (c.chain k).phase = true ↔ k = 0) ∧
      (Call.step.inOrder (c.chain k).phase = true ↔ 0 < k ∧ k < last) ∧
      (Call.run.inOrder (c.chain k).phase = true ↔ k < last)
  /-- A call in order moves to the next place, or to the end if it is a run. -/
  moves : ∀ k ≤ last, ∀ call : Call, call.inOrder (c.chain k).phase = true →
    (call.reply (c.chain k)).simulator = c.chain (call.target last k)
  /-- Any other call is rejected and changes nothing. -/
  rejected : ∀ k ≤ last, ∀ call : Call, call.inOrder (c.chain k).phase = false →
    call.reply (c.chain k) = (c.chain k).reject call.operation
  /-- At the end that is every call. -/
  stuck : ∀ call : Call, call.reply (c.chain last) = (c.chain last).reject call.operation
  /-- No call but a rejected one is answered as out of order. -/
  unchanged : ∀ sim (call : Call) operation phase, Reachable c sim →
    (call.reply sim).result = .error (.invalidTransition operation phase) →
    call.inOrder sim.phase = false ∧ (call.reply sim).simulator = sim
  /-- A run answers the output traces if the chain ends well, else the fault of its last cycle. -/
  answer : ∀ k < last, ∀ traces, (c.chain k).run.result = .ok traces ↔
    (c.chain last).phase = .terminated ∧ (c.chain last).recorded = traces
  fault : ∀ k < last, ∀ fault, (c.chain k).run.result = .error fault ↔
    (c.chain last).phase = .failed ∧ (c.attempt (last - 1)).result = .error fault
  /-- It is a loop of steps, -/
  loop : ∀ k < last, 0 < k → (c.chain k).run = (c.chain k).step.andThen fun next =>
    if next.phase = .terminated then
      ⟨next, .ok next.recorded, [.finished next.circuit.name next.length]⟩
    else next.run
  /-- and turns once for each cycle that is left. -/
  steps : ∀ k < last, ∀ t traces, (c.chain k).cycle? = some t →
    (c.chain k).run.result = .ok traces →
    last = k + ((c.chain k).length - 1 - t) ∧
      ∃ log, Simulator.steps ((c.chain k).length - 1 - t) (c.chain k) =
        ⟨c.chain last, .ok (), log⟩
  /-- Whatever the calls, there is one simulator to end with. -/
  unique : ∀ calls calls' : List Call,
    ((Simulator.ofCircuit c).after calls).phase.ended = true →
    ((Simulator.ofCircuit c).after calls').phase.ended = true →
    (Simulator.ofCircuit c).after calls = (Simulator.ofCircuit c).after calls'

theorem chained (c : Circuit) : ∃ last, c.Chained last := by
  obtain ⟨last, ends⟩ := c.exists_endsAt
  have final {calls : List Call}
      (ended : ((Simulator.ofCircuit c).after calls).phase.ended = true) :
      (Simulator.ofCircuit c).after calls = c.chain last := by
    obtain ⟨k, inside, place⟩ := ends.reachable_iff.mp (Reachable.fresh.calls calls)
    rw [place] at ended ⊢
    rw [(ends.ended_iff inside).mp ended]
  refine ⟨last, ?_⟩
  constructor
  case ended => exact fun k inside => Phase.ended_iff.symm.trans (ends.ended_iff inside)
  case reachable => exact fun sim => ends.reachable_iff
  case order =>
    exact fun k inside => ⟨start_inOrder, ends.step_inOrder inside, ends.run_inOrder inside⟩
  case moves => exact fun k inside call order => (ends.reply_simulator call inside order).2
  case rejected => exact fun k _ call out => call.reply_of_out out
  case stuck =>
    intro call
    refine call.reply_of_out (Bool.eq_false_iff.mpr fun order => ?_)
    exact Nat.lt_irrefl last (ends.reply_simulator call (Nat.le_refl last) order).1
  case unchanged =>
    intro sim call operation phase reach rejected
    obtain ⟨k, inside, rfl⟩ := ends.reachable_iff.mp reach
    have out := ends.out_of_invalidTransition inside rejected
    exact ⟨out, by rw [call.reply_of_out out]; rfl⟩
  case answer => exact fun k more traces => ends.run_ok_iff more
  case fault => exact fun k more fault => ends.run_error_iff more
  case loop => exact fun k more begun => ends.run_loop begun more
  case steps =>
    intro k more t traces here ok
    exact ends.run_steps more here ((ends.run_ok_iff more).mp ok).1
  case unique => exact fun calls calls' ended ended' => (final ended).trans (final ended').symm

end Circuit

end LatchSim
