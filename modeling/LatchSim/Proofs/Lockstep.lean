import Mathlib.Data.List.Forall2
import LatchSim.Proofs.Chain

/-!
# Two simulators under the same calls

Where two simulators are related, and starts and steps keep them so, runs keep them so too,
and calls in any number and order: `Lockstep.after`. Faults may be compared by a relation of
their own, since simulators of different circuits need not name the same signals, and so may
the output traces that runs answer: `Lockstep.answered`.
-/

namespace LatchSim

/-- What a call answers. A run alone has a value to answer, the output traces. -/
def Call.answer (sim : Simulator) : Call → Except Fault (Option (List Trace))
  | start => sim.start.result.map fun _ => none
  | step => sim.step.result.map fun _ => none
  | run => sim.run.result.map some

def Simulator.answers (sim : Simulator) : List Call → List (Except Fault (Option (List Trace)))
  | [] => []
  | call :: rest => call.answer sim :: answers (call.reply sim).simulator rest

/-- Two answers with related faults or related traces. -/
inductive Answered (E : Fault → Fault → Prop) (T : List Trace → List Trace → Prop) :
    Except Fault (Option (List Trace)) → Except Fault (Option (List Trace)) → Prop where
  | error : E fault fault' → Answered E T (.error fault) (.error fault')
  | done : Answered E T (.ok none) (.ok none)
  | traces : T traces traces' → Answered E T (.ok (some traces)) (.ok (some traces'))

/-- Two replies that both succeed or both fail, with related simulators and faults. -/
inductive Alike (R : Simulator → Simulator → Prop) (E : Fault → Fault → Prop) :
    Reply α → Reply β → Prop where
  | ok : R sim sim' → Alike R E ⟨sim, .ok a, log⟩ ⟨sim', .ok b, log'⟩
  | error : R sim sim' → E fault fault' →
      Alike R E ⟨sim, .error fault, log⟩ ⟨sim', .error fault', log'⟩

/-- A relation between simulators that every cycle keeps. -/
structure Lockstep (R : Simulator → Simulator → Prop) (E : Fault → Fault → Prop) : Prop where
  phase : R sim sim' → sim'.phase = sim.phase
  length : R sim sim' → sim'.length = sim.length
  rejected : ∀ operation phase,
    E (.invalidTransition operation phase) (.invalidTransition operation phase)
  start : R sim sim' → sim.phase = .fresh → Alike R E sim.start sim'.start
  step : R sim sim' → sim.phase ≠ .fresh → sim.phase.ended = false → Alike R E sim.step sim'.step

variable {R : Simulator → Simulator → Prop} {E : Fault → Fault → Prop}
  {T : List Trace → List Trace → Prop} {sim sim' : Simulator}

namespace Alike

variable {reply : Reply α} {reply' : Reply β}

theorem simulator (alike : Alike R E reply reply') : R reply.simulator reply'.simulator := by
  cases alike with
  | ok related => exact related
  | error related _ => exact related

theorem withLog (alike : Alike R E reply reply') (log log' : List Entry) :
    Alike R E { reply with log := log } { reply' with log := log' } := by
  cases alike with
  | ok related => exact .ok related
  | error related faults => exact .error related faults

theorem discard (alike : Alike R E reply reply') : Alike R E reply.discard reply'.discard := by
  cases alike with
  | ok related => exact .ok related
  | error related faults => exact .error related faults

theorem andThen {next : Simulator → Reply γ} {next' : Simulator → Reply δ}
    (alike : Alike R E reply reply')
    (later : ∀ sim sim', R sim sim' → Alike R E (next sim) (next' sim')) :
    Alike R E (reply.andThen next) (reply'.andThen next') := by
  cases alike with
  | ok related => exact (later _ _ related).withLog _ _
  | error related faults => exact .error related faults

theorem answered_none (alike : Alike R E reply reply') :
    Answered E T (reply.result.map fun _ => none) (reply'.result.map fun _ => none) := by
  cases alike with
  | ok related => exact .done
  | error related faults => exact .error faults

theorem answered_recorded (alike : Alike R E reply reply')
    (recorded : ∀ sim sim', R sim sim' → T sim.recorded sim'.recorded) :
    Answered E T (reply.result.map fun _ => some reply.simulator.recorded)
      (reply'.result.map fun _ => some reply'.simulator.recorded) := by
  cases alike with
  | ok related => exact .traces (recorded _ _ related)
  | error related faults => exact .error faults

end Alike

namespace Simulator

theorem finish_result (sim : Simulator) :
    sim.finish.result = sim.finish.result.map fun _ => sim.finish.simulator.recorded := by
  rw [finish]
  cases result : (steps sim.remaining sim).result with
  | error fault =>
    rw [Reply.andThen_of_error result]
    rfl
  | ok value =>
    rw [Reply.andThen_of_ok result]
    rfl

/-- A run that goes well answers the traces that its simulator holds. -/
theorem run_result (sim : Simulator) :
    sim.run.result = sim.run.result.map fun _ => sim.run.simulator.recorded := by
  cases phase : sim.phase with
  | fresh =>
    simp only [run, phase]
    cases result : sim.start.result with
    | error fault =>
      rw [Reply.andThen_of_error result]
      rfl
    | ok value =>
      rw [Reply.andThen_of_ok result]
      exact finish_result sim.start.simulator
  | started | stepped cycle =>
    simp only [run, phase]
    exact finish_result sim
  | terminated | failed =>
    simp only [run, phase]
    rfl

end Simulator

namespace Lockstep

variable (lockstep : Lockstep R E)

include lockstep

theorem reject (related : R sim sim') (operation : Operation) :
    Alike R E (sim.reject operation : Reply α) (sim'.reject operation : Reply β) := by
  refine .error related ?_
  rw [lockstep.phase related]
  exact lockstep.rejected operation sim.phase

theorem anyStart (related : R sim sim') : Alike R E sim.start sim'.start := by
  by_cases fresh : sim.phase = .fresh
  · exact lockstep.start related fresh
  · rw [Simulator.start_of_begun fresh, Simulator.start_of_begun (lockstep.phase related ▸ fresh)]
    exact lockstep.reject related _

theorem anyStep (related : R sim sim') : Alike R E sim.step sim'.step := by
  cases order : Call.step.inOrder sim.phase with
  | true =>
    simp only [Call.inOrder, Bool.and_eq_true, decide_eq_true_eq, Bool.not_eq_true'] at order
    exact lockstep.step related order.1 order.2
  | false =>
    have orderToo : Call.step.inOrder sim'.phase = false := lockstep.phase related ▸ order
    have out := Call.step.reply_of_out order
    have outToo := Call.step.reply_of_out orderToo
    simp only [Call.reply] at out outToo
    rw [out, outToo]
    exact lockstep.reject related _

theorem steps (related : R sim sim') (count : Nat) :
    Alike R E (Simulator.steps count sim) (Simulator.steps count sim') := by
  induction count generalizing sim sim' with
  | zero => exact .ok related
  | succ count ih => exact (lockstep.anyStep related).andThen fun _ _ later => ih later

theorem finish (related : R sim sim') : Alike R E sim.finish sim'.finish := by
  have same : sim'.remaining = sim.remaining := by
    simp only [Simulator.remaining, lockstep.phase related, lockstep.length related]
  rw [Simulator.finish, Simulator.finish, same]
  exact (lockstep.steps related sim.remaining).andThen fun _ _ later => .ok later

theorem run (related : R sim sim') : Alike R E sim.run sim'.run := by
  have same := lockstep.phase related
  cases phase : sim.phase with
  | fresh =>
    simp only [Simulator.run, same, phase]
    exact ((lockstep.anyStart related).andThen fun _ _ later => lockstep.finish later).withLog _ _
  | started | stepped cycle =>
    simp only [Simulator.run, same, phase]
    exact lockstep.finish related
  | terminated | failed =>
    simp only [Simulator.run, same, phase]
    exact lockstep.reject related _

theorem reply (related : R sim sim') (call : Call) :
    Alike R E (call.reply sim) (call.reply sim') := by
  cases call with
  | start => exact lockstep.anyStart related
  | step => exact lockstep.anyStep related
  | run => exact (lockstep.run related).discard

/-- Related simulators stay related under the same calls. -/
theorem after (related : R sim sim') (calls : List Call) :
    R (sim.after calls) (sim'.after calls) := by
  induction calls generalizing sim sim' with
  | nil => exact related
  | cons call rest ih => exact ih (lockstep.reply related call).simulator

/-- Related simulators answer every call alike, up to the relation of their output traces. -/
theorem answer (recorded : ∀ sim sim', R sim sim' → T sim.recorded sim'.recorded)
    (related : R sim sim') (call : Call) :
    Answered E T (call.answer sim) (call.answer sim') := by
  cases call with
  | start => exact (lockstep.anyStart related).answered_none
  | step => exact (lockstep.anyStep related).answered_none
  | run =>
    have traces (sim : Simulator) : sim.run.result.map some =
        sim.run.result.map fun _ => some sim.run.simulator.recorded := by
      have ran := Simulator.run_result sim
      cases result : sim.run.result with
      | error fault => rfl
      | ok value => simpa [result, Except.map] using ran
    rw [Call.answer, Call.answer, traces sim, traces sim']
    exact (lockstep.run related).answered_recorded recorded

theorem answered (recorded : ∀ sim sim', R sim sim' → T sim.recorded sim'.recorded)
    (related : R sim sim') (calls : List Call) :
    List.Forall₂ (Answered E T) (sim.answers calls) (sim'.answers calls) := by
  induction calls generalizing sim sim' with
  | nil => exact .nil
  | cons call rest ih =>
    exact .cons (lockstep.answer recorded related call) (ih (lockstep.reply related call).simulator)

end Lockstep

/-! ## The cycles of two circuits -/

namespace Circuit

/-- A simulator whose first cycle has failed. -/
def stoppedFirst (c : Circuit) (n : Nat) : Simulator :=
  { Simulator.starting c n with store := c.firstCycle.store, phase := .failed }

/-- A simulator whose second cycle has failed. -/
def stoppedSecond (c : Circuit) (n : Nat) : Simulator :=
  { c.simulatorAfter n 0 with store := c.driven 1 (c.storeAfter 0), phase := .failed }

end Circuit

namespace Alike

variable {c d : Circuit} {n t : Nat} (named : ∀ name, E (.undefined name) (.undefined name))

include named

theorem first (valid : c.Validated n) (validToo : d.Validated n)
    (unresolved : d.unresolved = c.unresolved)
    (completed : c.Completes n 0 → d.Completes n 0 →
      R (c.simulatorAfter n 0) (d.simulatorAfter n 0))
    (stopped : R (c.stoppedFirst n) (d.stoppedFirst n)) :
    Alike R E (Simulator.ofCircuit c).start (Simulator.ofCircuit d).start := by
  rcases Simulator.start_cases valid with ⟨done, started⟩ | ⟨name, first, failed⟩
  · have doneToo : d.Completes n 0 :=
      ⟨validToo, done.inside, unresolved.trans done.resolved, fun later => absurd rfl later⟩
    rw [started, Simulator.start_of_completes doneToo]
    exact .ok (completed done doneToo)
  · rcases Simulator.start_cases validToo with ⟨doneToo, _⟩ | ⟨other, firstToo, failedToo⟩
    · simp [← unresolved, doneToo.resolved] at first
    · obtain rfl : name = other := by simpa [unresolved, first] using firstToo
      rw [failed, failedToo]
      exact .error stopped (named name)

omit named in
/-- A step of two circuits that lack latch inputs both or neither. -/
theorem stepped (done : c.Completes n t) (doneToo : d.Completes n t) (inside : t + 1 < n)
    (inputs : c.unresolvedInputs = [] → d.unresolvedInputs = [])
    (faults : ∀ name, c.unresolvedInputs.head? = some name →
      ∃ other, d.unresolvedInputs.head? = some other ∧ E (.undefined name) (.undefined other))
    (completed : c.Completes n (t + 1) → d.Completes n (t + 1) →
      R (c.simulatorAfter n (t + 1)) (d.simulatorAfter n (t + 1)))
    (stopped : R (c.stoppedSecond n) (d.stoppedSecond n)) :
    Alike R E (c.simulatorAfter n t).step (d.simulatorAfter n t).step := by
  rcases Simulator.stepTo_cases done inside with ⟨next, _⟩ | ⟨rfl, name, first, _⟩
  · have nextToo : d.Completes n (t + 1) :=
      ⟨doneToo.valid, inside, doneToo.resolved, fun later => inputs (next.inputs later)⟩
    rw [Simulator.step_of_completes next, Simulator.step_of_completes nextToo]
    exact .ok (completed next nextToo)
  · obtain ⟨other, firstToo, fault⟩ := faults name first
    rw [Simulator.step_of_unresolved done inside first,
      Simulator.step_of_unresolved doneToo inside firstToo]
    exact .error stopped fault

theorem next (done : c.Completes n t) (doneToo : d.Completes n t) (inside : t + 1 < n)
    (inputs : d.unresolvedInputs = c.unresolvedInputs)
    (completed : c.Completes n (t + 1) → d.Completes n (t + 1) →
      R (c.simulatorAfter n (t + 1)) (d.simulatorAfter n (t + 1)))
    (stopped : R (c.stoppedSecond n) (d.stoppedSecond n)) :
    Alike R E (c.simulatorAfter n t).step (d.simulatorAfter n t).step := by
  refine stepped done doneToo inside (fun none => inputs.trans none) ?_ completed stopped
  intro name first
  exact ⟨name, inputs ▸ first, named name⟩

end Alike

/-- Related simulators with the same output traces answer the same calls alike. -/
theorem Lockstep.answers (lockstep : Lockstep R Eq)
    (recorded : ∀ sim sim', R sim sim' → sim'.recorded = sim.recorded) (related : R sim sim')
    (calls : List Call) : sim'.answers calls = sim.answers calls := by
  have traces : ∀ sim sim', R sim sim' → sim.recorded = sim'.recorded :=
    fun sim sim' related => (recorded sim sim' related).symm
  have alike := lockstep.answered traces related calls
  have same : ∀ left right, Answered Eq Eq left right → left = right := by
    rintro _ _ (rfl | _ | rfl) <;> rfl
  have equal := alike.imp same
  rw [List.forall₂_eq_eq_eq] at equal
  exact equal.symm

/-! ## Logs -/

/-- The entries that each of the calls makes. -/
def Simulator.logs (sim : Simulator) : List Call → List (List Entry)
  | [] => []
  | call :: rest => (call.reply sim).log :: logs (call.reply sim).simulator rest

/-- A relation between logs that starts and steps of related simulators make. -/
structure Logged (R : Simulator → Simulator → Prop) (L : List Entry → List Entry → Prop) :
    Prop where
  same : ∀ log, L log log
  append : ∀ {log log' more more'}, L log log' → L more more' → L (log ++ more) (log' ++ more')
  name : ∀ {sim sim'}, R sim sim' → sim'.circuit.name = sim.circuit.name
  start : ∀ {sim sim'}, R sim sim' → L sim.start.log sim'.start.log
  step : ∀ {sim sim'}, R sim sim' → L sim.step.log sim'.step.log

namespace Logged

variable {L : List Entry → List Entry → Prop} (logged : Logged R L) (lockstep : Lockstep R E)

include logged

theorem andThen {reply : Reply α} {reply' : Reply β} {next : Simulator → Reply γ}
    {next' : Simulator → Reply δ} (alike : Alike R E reply reply')
    (first : L reply.log reply'.log)
    (later : ∀ sim sim', R sim sim' → L (next sim).log (next' sim').log) :
    L (reply.andThen next).log (reply'.andThen next').log := by
  cases alike with
  | ok related => exact logged.append first (later _ _ related)
  | error => exact first

include lockstep

theorem steps (related : R sim sim') (count : Nat) :
    L (Simulator.steps count sim).log (Simulator.steps count sim').log := by
  induction count generalizing sim sim' with
  | zero => exact logged.same []
  | succ count ih =>
    exact logged.andThen (lockstep.anyStep related) (logged.step related) fun _ _ later => ih later

theorem finish (related : R sim sim') : L sim.finish.log sim'.finish.log := by
  have same : sim'.remaining = sim.remaining := by
    simp only [Simulator.remaining, lockstep.phase related, lockstep.length related]
  rw [Simulator.finish, Simulator.finish, same]
  refine logged.andThen (lockstep.steps related _) (logged.steps lockstep related _) ?_
  intro sim sim' later
  rw [logged.name later, lockstep.length later]
  exact logged.same _

theorem run (related : R sim sim') : L sim.run.log sim'.run.log := by
  have same := lockstep.phase related
  cases phase : sim.phase with
  | fresh =>
    simp only [Simulator.run, same, phase, logged.name related]
    refine logged.append (logged.same [_]) ?_
    exact logged.andThen (lockstep.anyStart related) (logged.start related)
      fun _ _ later => logged.finish lockstep later
  | started | stepped cycle =>
    simp only [Simulator.run, same, phase]
    exact logged.finish lockstep related
  | terminated | failed =>
    simp only [Simulator.run, same, phase]
    exact logged.same []

/-- The logs of the same calls are related call by call. -/
theorem logs (related : R sim sim') (calls : List Call) :
    List.Forall₂ L (sim.logs calls) (sim'.logs calls) := by
  induction calls generalizing sim sim' with
  | nil => exact .nil
  | cons call rest ih =>
    refine .cons ?_ (ih (lockstep.reply related call).simulator)
    cases call with
    | start => exact logged.start related
    | step => exact logged.step related
    | run => exact logged.run lockstep related

end Logged

end LatchSim
