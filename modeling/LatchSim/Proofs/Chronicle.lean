import Mathlib.Data.List.Induction
import LatchSim.Proofs.Journal
import LatchSim.Proofs.Lockstep

/-!
# The log of a session

Whatever calls are made of a simulator and in whatever order, their entries make one story.
It may open with the announcement of a run. Then the cycles follow, each once and in order, and
at the end there may be the fault of the last one or the report of the run that has gone
through: `Circuit.chronicled`.
-/

namespace LatchSim

variable {c : Circuit} {sim : Simulator} {t k last : Nat} {fault : Fault} {calls : List Call}

/-! ## Calls in sequence -/

namespace Simulator

/-- The entries that some calls make, as one log. -/
def log (sim : Simulator) (calls : List Call) : List Entry := (sim.logs calls).flatten

theorem after_concat (sim : Simulator) (calls : List Call) (call : Call) :
    sim.after (calls ++ [call]) = (call.reply (sim.after calls)).simulator := by
  induction calls generalizing sim with
  | nil => rfl
  | cons first rest ih => exact ih (first.reply sim).simulator

theorem log_concat (sim : Simulator) (calls : List Call) (call : Call) :
    sim.log (calls ++ [call]) = sim.log calls ++ (call.reply (sim.after calls)).log := by
  induction calls generalizing sim with
  | nil => simp [log, logs, after]
  | cons first rest ih =>
    have later := ih (first.reply sim).simulator
    simp only [log] at later
    simp only [log, List.cons_append, logs, List.flatten_cons, after, later, List.append_assoc]

theorem answers_concat (sim : Simulator) (calls : List Call) (call : Call) :
    sim.answers (calls ++ [call]) = sim.answers calls ++ [call.answer (sim.after calls)] := by
  induction calls generalizing sim with
  | nil => rfl
  | cons first rest ih =>
    simp only [List.cons_append, answers, after, ih (first.reply sim).simulator]

/-- A run among the calls has answered its traces. -/
def Ran (sim : Simulator) (calls : List Call) : Prop :=
  ∃ traces, .ok (some traces) ∈ sim.answers calls

end Simulator

namespace Call

theorem answer_eq_error (call : Call) :
    call.answer sim = .error fault ↔ (call.reply sim).result = .error fault := by
  cases call with
  | start => cases result : sim.start.result <;> simp [answer, reply, result, Except.map]
  | step => cases result : sim.step.result <;> simp [answer, reply, result, Except.map]
  | run =>
    cases result : sim.run.result <;> simp [answer, reply, Reply.discard, result, Except.map]

theorem answer_eq_traces (call : Call) {traces : List Trace} :
    call.answer sim = .ok (some traces) ↔ call = .run ∧ sim.run.result = .ok traces := by
  cases call with
  | start => cases result : sim.start.result <;> simp [answer, result, Except.map]
  | step => cases result : sim.step.result <;> simp [answer, result, Except.map]
  | run => cases result : sim.run.result <;> simp [answer, result, Except.map]

end Call

theorem Simulator.ran_concat (sim : Simulator) (calls : List Call) (call : Call) :
    sim.Ran (calls ++ [call]) ↔
      sim.Ran calls ∨ call = .run ∧ ∃ traces, (sim.after calls).run.result = .ok traces := by
  simp only [Ran, answers_concat, List.mem_append, List.mem_singleton, exists_or, eq_comm
    (a := Except.ok (some _)), Call.answer_eq_traces, exists_and_left]

namespace Circuit

/-! ## The cycles of a chain -/

/-- The numbers of the cycles that lead to a place of the chain: none if the circuit is refused. -/
def cycleNumbers (c : Circuit) (k : Nat) : List Nat :=
  match c.validate with
  | .ok _ => List.range k
  | .error _ => []

end Circuit

/-- An entry that a cycle makes as long as it goes well. -/
def Entry.inCycle (entry : Entry) : Bool := entry.opens?.isSome || entry.write?.isSome

namespace Circuit
namespace EndsAt

variable (ends : c.EndsAt last)

include ends

/-- An attempt tells its cycle, and then its fault if it fails. -/
theorem attempt_log (inside : k < last) :
    ∃ body, (∀ entry ∈ body, entry.inCycle = true) ∧
      c.cycleNumbers k ++ body.filterMap Entry.opens? = c.cycleNumbers (k + 1) ∧
      ((c.attempt k).result = .ok () ∧ (c.attempt k).log = body ∨
        ∃ fault, (c.attempt k).result = .error fault ∧
          (c.attempt k).log = body ++ [.failed c.name fault]) := by
  rcases ends.attempt_eq inside with
    ⟨fault, rfl, refused, reply⟩ | ⟨n, sim, opening, valid, cycle, circuit, own, reply⟩
  · refine ⟨[], by simp, by simp [cycleNumbers, refused], .inr ⟨fault, ?_⟩⟩
    rw [reply]
    exact ⟨rfl, rfl⟩
  · have journals := c.body_journals k (c.opened k (c.chain k).store)
    have closes := sim.complete_closes k opening (c.body k (c.opened k (c.chain k).store))
    rw [← reply, circuit] at closes
    refine ⟨_, ?_, ?_, closes⟩
    · refine List.forall_mem_cons.mpr ⟨by simp [Entry.inCycle, own], fun entry member => ?_⟩
      simp [Entry.inCycle, journals.writes entry member]
    · rw [List.filterMap_cons_some own, List.filterMap_eq_nil_iff.mpr journals.quiet]
      simp [cycleNumbers, validate_eq_ok.mpr valid, List.range_succ]

/-- The attempts up to a place tell their cycles, and the fault if the chain has failed. -/
theorem history_cases (inside : k ≤ last) :
    ∃ body, (∀ entry ∈ body, entry.inCycle = true) ∧
      body.filterMap Entry.opens? = c.cycleNumbers k ∧
      ((c.chain k).phase ≠ .failed ∧ c.history k = body ∨
        ∃ fault, (c.chain k).phase = .failed ∧ (c.attempt (k - 1)).result = .error fault ∧
          c.history k = body ++ [.failed c.name fault]) := by
  induction k with
  | zero =>
    refine ⟨[], by simp, ?_, .inl ⟨by simp [chain, Simulator.ofCircuit], rfl⟩⟩
    rw [cycleNumbers]
    split <;> rfl
  | succ k ih =>
    obtain ⟨before, clean, numbers, told⟩ := ih (Nat.le_of_lt inside)
    have going : (c.chain k).phase ≠ .failed := fun failed => by
      have unended := ends.going k inside
      simp [failed, Phase.ended] at unended
    have soFar : c.history k = before := by
      rcases told with ⟨_, same⟩ | ⟨_, failed, _⟩
      · exact same
      · exact absurd failed going
    obtain ⟨body, cleanToo, next, log⟩ := ends.attempt_log inside
    refine ⟨before ++ body, ?_, by rw [List.filterMap_append, numbers, next], ?_⟩
    · exact fun entry member => (List.mem_append.mp member).elim (clean entry) (cleanToo entry)
    · rw [history, soFar, Nat.add_sub_cancel]
      rcases ends.attempt_cases inside, log with
        ⟨⟨ok, unfailed⟩ | ⟨fault, result, failed, _⟩, ⟨ok', log⟩ | ⟨fault', result', log⟩⟩
      · exact .inl ⟨unfailed, by rw [log]⟩
      · rw [ok] at result'
        cases result'
      · rw [ok'] at result
        cases result
      · exact .inr ⟨fault', failed, result', by rw [log, List.append_assoc]⟩

end EndsAt

/-! ## Sessions -/

/-- What calls have told that have led to place `k` of a chain: the cycles so far, perhaps
behind the announcement of a run and in front of its report. -/
structure Recounted (c : Circuit) (last k : Nat) (calls : List Call) (head tail : List Entry) :
    Prop where
  inside : k ≤ last
  place : (Simulator.ofCircuit c).after calls = c.chain k
  log : (Simulator.ofCircuit c).log calls = head ++ c.history k ++ tail
  head : head = [] ∨ 0 < k ∧ head = [.simulating c.name]
  tail : ¬ (Simulator.ofCircuit c).Ran calls ∧ tail = [] ∨
    (Simulator.ofCircuit c).Ran calls ∧ k = last ∧ (c.chain last).phase = .terminated ∧
      tail = [.finished c.name (c.chain last).length]

namespace Recounted

variable {head tail : List Entry} (told : c.Recounted last k calls head tail)

include told

/-- Before the end of the chain no run has reported. -/
theorem unreported (more : k < last) : ¬ (Simulator.ofCircuit c).Ran calls ∧ tail = [] :=
  told.tail.resolve_right fun reported => Nat.ne_of_lt more reported.2.1

theorem log_concat (call : Call) : (Simulator.ofCircuit c).log (calls ++ [call]) =
    head ++ c.history k ++ tail ++ (call.reply (c.chain k)).log := by
  rw [Simulator.log_concat, told.place, told.log]

theorem place_concat (call : Call) : (Simulator.ofCircuit c).after (calls ++ [call]) =
    (call.reply (c.chain k)).simulator := by
  rw [Simulator.after_concat, told.place]

theorem ran_concat (call : Call) : (Simulator.ofCircuit c).Ran (calls ++ [call]) ↔
    (Simulator.ofCircuit c).Ran calls ∨
      call = .run ∧ ∃ traces, (c.chain k).run.result = .ok traces := by
  rw [Simulator.ran_concat, told.place]

/-- A call out of order tells nothing. -/
theorem out {call : Call} (out : call.inOrder (c.chain k).phase = false) :
    c.Recounted last k (calls ++ [call]) head tail := by
  have reply := call.reply_of_out out
  have still : (Simulator.ofCircuit c).Ran (calls ++ [call]) ↔
      (Simulator.ofCircuit c).Ran calls := by
    refine (told.ran_concat call).trans (or_iff_left ?_)
    rintro ⟨rfl, traces, ok⟩
    have rejected := congrArg Reply.result reply
    rw [Call.reply, Reply.discard, ok] at rejected
    cases rejected
  refine ⟨told.inside, ?_, ?_, told.head, by rw [still]; exact told.tail⟩
  · rw [told.place_concat, reply]
    rfl
  · rw [told.log_concat, reply]
    exact List.append_nil _

variable (ends : c.EndsAt last)

include ends

/-- A start or a step tells its cycle. -/
theorem single {call : Call} (single : call ≠ .run)
    (order : call.inOrder (c.chain k).phase = true) :
    c.Recounted last (k + 1) (calls ++ [call]) head [] := by
  obtain ⟨more, reply⟩ := ends.reply_single single told.inside order
  obtain ⟨notYet, noTail⟩ := told.unreported more
  refine ⟨more, ?_, ?_, ?_, .inl ⟨?_, rfl⟩⟩
  · rw [told.place_concat, reply]
    rfl
  · rw [told.log_concat, reply, noTail, history, List.append_nil, List.append_nil,
      List.append_assoc]
  · exact told.head.imp_right fun announced => ⟨k.succ_pos, announced.2⟩
  · rw [told.ran_concat]
    rintro (earlier | ⟨run, _⟩)
    · exact notYet earlier
    · exact single run

/-- A run tells all cycles that are left. -/
theorem run (more : k < last) :
    c.Recounted last last (calls ++ [.run]) (if k = 0 then [.simulating c.name] else head)
      (c.report last) := by
  obtain ⟨notYet, noTail⟩ := told.unreported more
  have rest : (Call.run.reply (c.chain k)).log = _ := ends.run_log more
  have cycles := (ends.attempt_andThen_finish more).2.2
  refine ⟨Nat.le_refl _, ?_, ?_, ?_, ?_⟩
  · rw [told.place_concat]
    exact (ends.run_eq more).1
  · rw [told.log_concat, rest, noTail, List.append_nil]
    split
    case isTrue first =>
      have noHead : head = [] := told.head.resolve_right fun announced => by omega
      have noCycle : c.history k = [] := by rw [first]; rfl
      rw [noCycle, List.nil_append] at cycles
      rw [noHead, noCycle, cycles, List.nil_append, List.nil_append, List.append_assoc]
    case isFalse =>
      rw [List.nil_append, List.append_assoc, cycles, List.append_assoc]
  · split
    · exact .inr ⟨ends.positive, rfl⟩
    · exact told.head.imp_right fun announced => ⟨ends.positive, announced.2⟩
  · have went : (Simulator.ofCircuit c).Ran (calls ++ [.run]) ↔
        (c.chain last).phase = .terminated := by
      rw [told.ran_concat, or_iff_right notYet]
      simp [ends.run_ok_iff more]
    by_cases terminated : (c.chain last).phase = .terminated
    · have circuit : (c.chain last).circuit = c :=
        (ends.reachable_iff.mpr ⟨last, Nat.le_refl _, rfl⟩).circuit
      exact .inr ⟨went.mpr terminated, rfl, terminated, by rw [report, if_pos terminated, circuit]⟩
    · exact .inl ⟨mt went.mp terminated, if_neg terminated⟩

end Recounted

namespace EndsAt

variable (ends : c.EndsAt last)

include ends

/-- All calls have led somewhere on the chain. -/
theorem exists_recounted (calls : List Call) :
    ∃ k head tail, c.Recounted last k calls head tail := by
  induction calls using List.reverseRecOn with
  | nil =>
    refine ⟨0, [], [], Nat.zero_le _, rfl, rfl, .inl rfl, .inl ⟨?_, rfl⟩⟩
    rintro ⟨traces, member⟩
    cases member
  | append_singleton calls call ih =>
    obtain ⟨k, head, tail, told⟩ := ih
    cases order : call.inOrder (c.chain k).phase with
    | false => exact ⟨k, head, tail, told.out order⟩
    | true =>
      by_cases single : call = .run
      · subst single
        exact ⟨last, _, _, told.run ends (ends.reply_simulator .run told.inside order).1⟩
      · exact ⟨k + 1, head, [], told.single ends single order⟩

/-- The call under which a simulator fails answers the fault of the last cycle. -/
theorem answer_of_failing (call : Call) (inside : k ≤ last)
    (going : (c.chain k).phase ≠ .failed)
    (failed : (call.reply (c.chain k)).simulator.phase = .failed) :
    ∃ fault, call.answer (c.chain k) = .error fault ∧
      (c.attempt (last - 1)).result = .error fault := by
  cases order : call.inOrder (c.chain k).phase with
  | false =>
    rw [call.reply_of_out order] at failed
    exact absurd failed going
  | true =>
    obtain ⟨more, moved⟩ := ends.reply_simulator call inside order
    by_cases single : call = .run
    · subst single
      have atEnd : (c.chain last).phase = .failed := moved ▸ failed
      rcases ends.attempt_last with ⟨_, terminated⟩ | ⟨fault, result, phase, _⟩
      · rw [terminated] at atEnd
        cases atEnd
      · refine ⟨fault, ?_, result⟩
        rw [Call.answer, (ends.run_error_iff more).mpr ⟨phase, result⟩]
        rfl
    · rw [moved, Call.target_single single] at failed
      obtain rfl : k + 1 = last := (ends.ended_iff more).mp (by rw [failed]; rfl)
      rcases ends.attempt_cases more with ⟨_, unfailed⟩ | ⟨fault, result, _, _⟩
      · exact absurd failed unfailed
      · refine ⟨fault, call.answer_eq_error.mpr ?_, result⟩
        rw [(ends.reply_single single inside order).2, result]

/-- Where calls have made a simulator fail, one of them has. -/
theorem exists_failing (failed : ((Simulator.ofCircuit c).after calls).phase = .failed) :
    ∃ before call later fault, calls = before ++ call :: later ∧
      ((Simulator.ofCircuit c).after before).phase ≠ .failed ∧
      ((Simulator.ofCircuit c).after (before ++ [call])).phase = .failed ∧
      call.answer ((Simulator.ofCircuit c).after before) = .error fault ∧
      (c.attempt (last - 1)).result = .error fault := by
  induction calls using List.reverseRecOn with
  | nil => cases failed
  | append_singleton calls call ih =>
    by_cases earlier : ((Simulator.ofCircuit c).after calls).phase = .failed
    · obtain ⟨before, first, later, fault, rfl, rest⟩ := ih earlier
      exact ⟨before, first, later ++ [call], fault, by simp, rest⟩
    · obtain ⟨k, inside, place⟩ := ends.reachable_iff.mp (Reachable.fresh.calls calls)
      have under := failed
      rw [Simulator.after_concat, place] at under
      obtain ⟨fault, answer, result⟩ :=
        ends.answer_of_failing call inside (by rwa [← place]) under
      rw [← place] at answer
      exact ⟨calls, call, [], fault, rfl, earlier, failed, answer, result⟩

end EndsAt

/-! ## The parts of a log -/

/-- The log of some calls is what their cycles tell, with at most one entry in front of it and
at most one behind it. -/
structure Parts (c : Circuit) (k : Nat) (calls : List Call) (head body closing : List Entry) :
    Prop where
  log : (Simulator.ofCircuit c).log calls = head ++ body ++ closing
  head : head = [] ∨ head = [.simulating c.name]
  clean : ∀ entry ∈ body, entry.inCycle = true
  numbers : body.filterMap Entry.opens? = c.cycleNumbers k
  closing : ((c.chain k).phase ≠ .failed ∧ ¬ (Simulator.ofCircuit c).Ran calls ∧ closing = []) ∨
    ((c.chain k).phase = .terminated ∧ (Simulator.ofCircuit c).Ran calls ∧
      closing = [.finished c.name (c.chain k).length]) ∨
    ∃ fault, (c.chain k).phase = .failed ∧ (c.attempt (k - 1)).result = .error fault ∧
      ¬ (Simulator.ofCircuit c).Ran calls ∧ closing = [.failed c.name fault]

theorem Recounted.exists_parts {head tail : List Entry}
    (told : c.Recounted last k calls head tail) (ends : c.EndsAt last) :
    ∃ body closing, c.Parts k calls head body closing := by
  have front : head = [] ∨ head = [.simulating c.name] := told.head.imp_right (·.2)
  obtain ⟨body, clean, numbers, ⟨unfailed, log⟩ | ⟨fault, failed, result, log⟩⟩ :=
    ends.history_cases told.inside
  · refine ⟨body, tail, by rw [told.log, log], front, clean, numbers, ?_⟩
    rcases told.tail with ⟨notYet, none⟩ | ⟨ran, rfl, terminated, one⟩
    · exact .inl ⟨unfailed, notYet, none⟩
    · exact .inr (.inl ⟨terminated, ran, one⟩)
  · have atEnd : k = last := (ends.ended_iff told.inside).mp (by rw [failed]; rfl)
    obtain ⟨notYet, noTail⟩ : ¬ (Simulator.ofCircuit c).Ran calls ∧ tail = [] := by
      refine told.tail.resolve_right fun ⟨_, _, terminated, _⟩ => ?_
      rw [← atEnd, failed] at terminated
      cases terminated
    refine ⟨body, [.failed c.name fault], ?_, front, clean, numbers,
      .inr (.inr ⟨fault, failed, result, notYet, rfl⟩)⟩
    rw [told.log, log, noTail, List.append_nil, List.append_assoc]

namespace Parts

variable {head body closing : List Entry} (parts : c.Parts k calls head body closing)

include parts

theorem not_mem_body {entry : Entry} (outside : entry.inCycle = false) : entry ∉ body := by
  intro member
  rw [parts.clean entry member] at outside
  cases outside

theorem closing_length : closing.length ≤ 1 := by
  rcases parts.closing with ⟨_, _, rfl⟩ | ⟨_, _, rfl⟩ | ⟨fault, _, _, _, rfl⟩ <;> simp

/-- The numbers of all entries are those of the cycles. -/
theorem cycles : ((Simulator.ofCircuit c).log calls).filterMap Entry.opens? =
    c.cycleNumbers k := by
  have front : head.filterMap Entry.opens? = [] := by
    rcases parts.head with rfl | rfl <;> rfl
  have back : closing.filterMap Entry.opens? = [] := by
    rcases parts.closing with ⟨_, _, rfl⟩ | ⟨_, _, rfl⟩ | ⟨fault, _, _, _, rfl⟩ <;> rfl
  rw [parts.log, List.filterMap_append, List.filterMap_append, front, back, parts.numbers,
    List.append_nil, List.nil_append]

/-- The announcement of a run stands in front. -/
theorem simulating {i : Nat} {name : String}
    (found : ((Simulator.ofCircuit c).log calls)[i]? = some (.simulating name)) : i = 0 := by
  have later : Entry.simulating name ∉ body ++ closing := by
    rw [List.mem_append, not_or]
    refine ⟨parts.not_mem_body rfl, ?_⟩
    rcases parts.closing with ⟨_, _, rfl⟩ | ⟨_, _, rfl⟩ | ⟨fault, _, _, _, rfl⟩ <;> simp
  rw [parts.log, List.append_assoc] at found
  rcases parts.head with rfl | rfl
  · exact absurd (List.mem_of_getElem? found) later
  · cases i with
    | zero => rfl
    | succ i =>
      rw [List.singleton_append, List.getElem?_cons_succ] at found
      exact absurd (List.mem_of_getElem? found) later

/-- An entry of no cycle that does not announce a run stands at the end. -/
theorem mem_closing {i : Nat} {entry : Entry} (outside : entry.inCycle = false)
    (other : ∀ name, entry ≠ .simulating name)
    (found : ((Simulator.ofCircuit c).log calls)[i]? = some entry) :
    i + 1 = ((Simulator.ofCircuit c).log calls).length ∧ entry ∈ closing := by
  have front : entry ∉ head ++ body := by
    rw [List.mem_append, not_or]
    refine ⟨?_, parts.not_mem_body outside⟩
    rcases parts.head with rfl | rfl
    · exact List.not_mem_nil
    · exact fun member => other c.name (List.mem_singleton.mp member)
  have short := parts.closing_length
  rw [parts.log] at found ⊢
  rcases Nat.lt_or_ge i (head ++ body).length with before | after
  · rw [List.getElem?_append_left before] at found
    exact absurd (List.mem_of_getElem? found) front
  · rw [List.getElem?_append_right after] at found
    obtain ⟨inside, _⟩ := List.getElem?_eq_some_iff.mp found
    refine ⟨?_, List.mem_of_getElem? found⟩
    rw [List.length_append]
    omega

end Parts

/-- A simulator that has completed cycle `t` stands behind `t + 1` attempts. -/
theorem EndsAt.eq_of_cycle? (ends : c.EndsAt last) (inside : k ≤ last)
    (here : (c.chain k).cycle? = some t) : k = t + 1 := by
  cases k with
  | zero => cases here
  | succ k =>
    cases going : (c.chain (k + 1)).phase.ended with
    | false =>
      obtain ⟨n, done, _, place⟩ := chain_of_open going
      rw [place, cycle?_simulatorAfter done.inside] at here
      rw [Option.some.inj here]
    | true =>
      obtain rfl := (ends.ended_iff inside).mp going
      rcases Phase.ended_iff.mp going with terminated | failed
      · obtain ⟨done, place⟩ := ends.last_of_terminated terminated
        rw [place, cycle?_simulatorAfter done.inside] at here
        exact congrArg (· + 1) (Option.some.inj here)
      · simp [Simulator.cycle?, failed] at here

/-! ## The story of a session -/

/-- What the log of some calls tells that have led to a final simulator. -/
structure Chronicle (c : Circuit) (calls : List Call) (log : List Entry) (final : Simulator) :
    Prop where
  /-- Up to the last cycle attempted each has its number once, in order. There is none if the
  circuit is refused. -/
  cycles : ∃ k, final = c.chain k ∧
    (∀ i < k, (c.chain i).phase.ended = false) ∧
    (∀ n, c.validate = .ok n → log.filterMap Entry.opens? = List.range k) ∧
    ∀ fault, c.validate = .error fault → log.filterMap Entry.opens? = []
  completed : ∀ t, final.cycle? = some t → log.filterMap Entry.opens? = List.range (t + 1)
  /-- A simulator that has failed did so under one of the calls. The fault that this call has
  answered is the last entry, -/
  failure : final.phase = .failed →
    ∃ before call later fault, calls = before ++ call :: later ∧
      ((Simulator.ofCircuit c).after before).phase ≠ .failed ∧
      ((Simulator.ofCircuit c).after (before ++ [call])).phase = .failed ∧
      call.answer ((Simulator.ofCircuit c).after before) = .error fault ∧
      log.getLast? = some (.failed c.name fault) ∧
      (log.map Entry.text).getLast? =
        some ("ERROR Circuit '" ++ c.name ++ "' failed: " ++ fault.message)
  /-- and no other entry tells a fault. -/
  failed : ∀ (i : Nat) name fault, log[i]? = some (.failed name fault) →
    final.phase = .failed ∧ i + 1 = log.length
  /-- A run that has answered its traces is reported by the last entry, -/
  report : (Simulator.ofCircuit c).Ran calls →
    log.getLast? = some (.finished c.name final.length)
  /-- and nothing else is. -/
  finished : ∀ (i : Nat) name length, log[i]? = some (.finished name length) →
    (Simulator.ofCircuit c).Ran calls ∧ i + 1 = log.length
  /-- Only the first entry can announce a run. -/
  simulating : ∀ (i : Nat) name, log[i]? = some (.simulating name) → i = 0
  /-- A call that is rejected has no entry. -/
  rejected : ∀ sim, Reachable c sim → ∀ (call : Call) operation phase,
    (call.reply sim).result = .error (.invalidTransition operation phase) →
    (call.reply sim).log = []

/-- Any calls of a fresh simulator make a chronicle. -/
theorem chronicled (c : Circuit) (calls : List Call) :
    c.Chronicle calls ((Simulator.ofCircuit c).log calls) ((Simulator.ofCircuit c).after calls) := by
  obtain ⟨last, ends⟩ := c.exists_endsAt
  obtain ⟨k, head, tail, told⟩ := ends.exists_recounted calls
  obtain ⟨body, closing, parts⟩ := told.exists_parts ends
  have place := told.place
  constructor
  case cycles =>
    refine ⟨k, place, fun i before => ends.going i (Nat.lt_of_lt_of_le before told.inside), ?_, ?_⟩
    · intro n ok
      rw [parts.cycles, cycleNumbers, ok]
    · intro fault refused
      rw [parts.cycles, cycleNumbers, refused]
  case completed =>
    intro t here
    obtain ⟨n, done, _⟩ := (Reachable.fresh.calls calls).completed here
    rw [place] at here
    rw [parts.cycles, cycleNumbers, validate_eq_ok.mpr done.valid,
      ends.eq_of_cycle? told.inside here]
  case failure =>
    intro failed
    obtain ⟨before, call, later, fault, split, going, gone, answer, result⟩ :=
      ends.exists_failing failed
    have atEnd : k = last := by
      rw [place] at failed
      exact (ends.ended_iff told.inside).mp (by rw [failed]; rfl)
    have final : ((Simulator.ofCircuit c).log calls).getLast? = some (.failed c.name fault) := by
      rw [place] at failed
      rcases parts.closing with ⟨unfailed, _⟩ | ⟨terminated, _⟩ | ⟨fault', _, result', _, one⟩
      · exact absurd failed unfailed
      · rw [failed] at terminated
        cases terminated
      · rw [atEnd, result] at result'
        obtain rfl := Except.error.inj result'
        rw [parts.log, one, List.getLast?_concat]
    refine ⟨before, call, later, fault, split, going, gone, answer, final, ?_⟩
    rw [List.getLast?_map, final]
    rfl
  case failed =>
    intro i name fault found
    obtain ⟨atEnd, member⟩ := parts.mem_closing rfl (by simp) found
    refine ⟨?_, atEnd⟩
    rw [place]
    rcases parts.closing with ⟨_, _, rfl⟩ | ⟨_, _, rfl⟩ | ⟨fault', failed, _⟩
    · cases member
    · cases List.mem_singleton.mp member
    · exact failed
  case report =>
    intro ran
    rcases parts.closing with ⟨_, notYet, _⟩ | ⟨_, _, one⟩ | ⟨fault, _, _, notYet, _⟩
    · exact absurd ran notYet
    · rw [parts.log, one, List.getLast?_concat, place]
    · exact absurd ran notYet
  case finished =>
    intro i name length found
    obtain ⟨atEnd, member⟩ := parts.mem_closing rfl (by simp) found
    refine ⟨?_, atEnd⟩
    rcases parts.closing with ⟨_, _, rfl⟩ | ⟨_, ran, _⟩ | ⟨fault, _, _, _, rfl⟩
    · cases member
    · exact ran
    · cases List.mem_singleton.mp member
  case simulating => exact fun i name found => parts.simulating found
  case rejected =>
    intro sim reach call operation phase rejected
    obtain ⟨place, inside, rfl⟩ := ends.reachable_iff.mp reach
    rw [call.reply_of_out (ends.out_of_invalidTransition inside rejected)]
    rfl

end Circuit
end LatchSim
