import LatchSim.Proofs.Combinational
import LatchSim.Proofs.Lockstep

/-!
# The order of updates

Updates run in the order in which the circuit lists them, and an order that reads a target
too early fails in the first cycle. Orders that do not are all alike: each settles the same
equations, which have one solution, so no call can tell them apart: `reordered_alike`.
-/

namespace LatchSim

variable {c : Circuit} {updates : List Update} {n m t : Nat} {name : String}

/-- A circuit with other updates in place of its own. -/
def Circuit.withUpdates (c : Circuit) (updates : List Update) : Circuit :=
  { c with updates := updates }

/-- A simulator in the same state, but of another circuit. -/
def Simulator.withCircuit (sim : Simulator) (c : Circuit) : Simulator := { sim with circuit := c }

namespace Circuit

/-- Traces alone fix the length of a simulation. -/
theorem length_withUpdates (valid : c.Validated n)
    (validToo : (c.withUpdates updates).Validated m) : m = n := by
  obtain ⟨trace, member⟩ := List.exists_mem_of_ne_nil _ valid.supplied
  exact (validToo.lengths trace member).symm.trans (valid.lengths trace member)

variable (perm : updates.Perm c.updates)

include perm

theorem bound_withUpdates : name ∈ (c.withUpdates updates).bound ↔ name ∈ c.bound := by
  have targets : name ∈ Update.targets updates ↔ name ∈ Update.targets c.updates :=
    (perm.map (·.name)).mem_iff
  simp only [bound, List.mem_append]
  exact or_congr_right targets

theorem unresolvedInputs_withUpdates :
    (c.withUpdates updates).unresolvedInputs = c.unresolvedInputs := by
  refine List.filter_congr fun name _ => ?_
  rw [decide_eq_decide, bound_withUpdates perm]

variable (done : c.Completes n 0) (reordered : (c.withUpdates updates).Completes m 0)

include done reordered

theorem storeAfter_withUpdates (t : Nat) :
    (c.withUpdates updates).storeAfter t = c.storeAfter t := by
  have settled (s : Store) : Update.settle updates s = Update.settle c.updates s :=
    Update.settle_perm (done.valid.ordered done.updates)
      (reordered.valid.ordered reordered.updates) perm s
  induction t with
  | zero => exact settled _
  | succ t ih =>
    rw [storeAfter, ih]
    exact settled _

theorem simulatorAfter_withUpdates :
    (c.withUpdates updates).simulatorAfter n t =
      (c.simulatorAfter n t).withCircuit (c.withUpdates updates) := by
  have recorded : (c.withUpdates updates).recording n (t + 1) = c.recording n (t + 1) := by
    simp only [recording, storeAfter_withUpdates perm done reordered]
    rfl
  rw [simulatorAfter, recorded, storeAfter_withUpdates perm done reordered]
  rfl

theorem completes_withUpdates (ahead : c.Completes n t) :
    (c.withUpdates updates).Completes n t := by
  obtain rfl := length_withUpdates done.valid reordered.valid
  refine ⟨reordered.valid, ahead.inside, reordered.resolved, fun later => ?_⟩
  rw [unresolvedInputs_withUpdates perm]
  exact ahead.inputs later

/-- Simulators of the two circuits that differ in nothing else go on so. -/
theorem lockstep_withUpdates :
    Lockstep (fun sim sim' => Stage c sim ∧ sim' = sim.withCircuit (c.withUpdates updates)) Eq where
  phase := by
    rintro sim _ ⟨_, rfl⟩
    rfl
  length := by
    rintro sim _ ⟨_, rfl⟩
    rfl
  rejected _ _ := rfl
  start := by
    rintro sim _ ⟨stage, rfl⟩ fresh
    cases stage with
    | fresh =>
      obtain rfl := length_withUpdates done.valid reordered.valid
      have started := Simulator.start_of_completes reordered
      rw [simulatorAfter_withUpdates perm done reordered] at started
      rw [Simulator.start_of_completes done]
      exact started ▸ .ok ⟨.after done, rfl⟩
    | after later => exact absurd fresh (Simulator.begun_simulatorAfter later.inside).1
    | failed ended => simp [ended] at fresh
  step := by
    rintro sim _ ⟨stage, rfl⟩ begun going
    cases stage with
    | fresh => exact absurd rfl begun
    | @after n' t here =>
      obtain rfl := done.valid.unique here.valid
      have same {t : Nat} := simulatorAfter_withUpdates (t := t) perm done reordered
      have inside : t + 1 < n' := Simulator.inside_of_phase (c := c) here.inside fun last => by
        simp [Phase.ended, last] at going
      have hereToo := completes_withUpdates perm done reordered here
      rw [← same]
      apply Alike.next (fun _ => rfl) here hereToo inside (unresolvedInputs_withUpdates perm)
      · exact fun next _ => ⟨.after next, same⟩
      · refine ⟨.failed rfl, ?_⟩
        rw [stoppedSecond, same, storeAfter_withUpdates perm done reordered]
        rfl
    | failed ended => simp [Phase.ended, ended] at going

end Circuit

/-- Where both orders of the updates start, no calls tell them apart: the simulators come to
the same phase, length, store and output traces, and answer the same. -/
theorem reordered_alike (perm : updates.Perm c.updates)
    (ok : (Simulator.ofCircuit c).start.result = .ok ())
    (okToo : (Simulator.ofCircuit (c.withUpdates updates)).start.result = .ok ())
    (calls : List Call) :
    let sim := (Simulator.ofCircuit c).after calls
    let other := (Simulator.ofCircuit (c.withUpdates updates)).after calls
    other.phase = sim.phase ∧ other.length = sim.length ∧ other.store = sim.store ∧
      other.recorded = sim.recorded ∧
      (Simulator.ofCircuit (c.withUpdates updates)).answers calls =
        (Simulator.ofCircuit c).answers calls := by
  obtain ⟨n, done, _⟩ := Circuit.completes_of_start ok
  obtain ⟨m, reordered, _⟩ := Circuit.completes_of_start okToo
  have lockstep := Circuit.lockstep_withUpdates perm done reordered
  have fresh : Stage c (.ofCircuit c) ∧ Simulator.ofCircuit (c.withUpdates updates) =
      (Simulator.ofCircuit c).withCircuit (c.withUpdates updates) := ⟨.fresh, rfl⟩
  intro sim other
  obtain ⟨_, same⟩ : Stage c sim ∧ other = sim.withCircuit (c.withUpdates updates) :=
    lockstep.after fresh calls
  refine ⟨by rw [same]; rfl, by rw [same]; rfl, by rw [same]; rfl, by rw [same]; rfl, ?_⟩
  refine lockstep.answers ?_ fresh calls
  rintro sim _ ⟨_, rfl⟩
  rfl

/-- The updates of the ring with the inverter last. -/
def ringUpdates : List Update :=
  [⟨"gate", .and (.signal "a") (.signal "p")⟩, ⟨"both", .and (.signal "gate") (.signal "q")⟩,
    ⟨"n", .not (.signal "q")⟩]

theorem ring_reordered_alike :
    ringUpdates ≠ ring.updates ∧ ringUpdates.Perm ring.updates ∧
      (Simulator.ofCircuit ring).start.result = .ok () ∧
      (Simulator.ofCircuit (ring.withUpdates ringUpdates)).start.result = .ok () ∧
      ((Simulator.ofCircuit (ring.withUpdates ringUpdates)).after [.start, .step, .run]).recorded =
        [⟨"p", [some false, some true, some true]⟩,
          ⟨"both", [some false, some false, some true]⟩] := by
  have perm : ringUpdates.Perm ring.updates := by decide
  have ok : (Simulator.ofCircuit ring).start.result = .ok () := by decide +kernel
  have okToo : (Simulator.ofCircuit (ring.withUpdates ringUpdates)).start.result = .ok () := by
    decide +kernel
  have recorded : ((Simulator.ofCircuit ring).after [.start, .step, .run]).recorded =
      [⟨"p", [some false, some true, some true]⟩,
        ⟨"both", [some false, some false, some true]⟩] := by decide +kernel
  obtain ⟨_, _, _, same, _⟩ := reordered_alike perm ok okToo [.start, .step, .run]
  exact ⟨by decide, perm, ok, okToo, same.trans recorded⟩

end LatchSim
