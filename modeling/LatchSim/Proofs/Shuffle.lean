import LatchSim.Proofs.Reordering

/-!
# The order of declarations

Inputs, latches and stimuli are declared in lists, and the order of these lists means nothing:
latches move together, no two of them write one output, and of two traces only those of one
signal compete. So circuits that differ in it go through the same states, whether they run or
fail: `shuffled_alike`. What they report can differ where a check finds several offenders, since
it names the first one it comes to.
-/

namespace LatchSim

/-- Two circuits that declare the same inputs, latches and stimuli in orders of their own. -/
structure Circuit.Shuffle (c d : Circuit) : Prop where
  name : d.name = c.name
  outputs : d.outputs = c.outputs
  updates : d.updates = c.updates
  inputs : d.inputs.Perm c.inputs
  latches : d.latches.Perm c.latches
  stimuli : d.stimuli.Perm c.stimuli
  /-- Traces may only change places where no two of them name one signal. -/
  traces : d.stimuli = c.stimuli ∨ (c.stimuli.map (·.signal)).Nodup

/-! ## What checks find -/

/-- A declaration of the circuit deserves the fault. -/
inductive Circuit.Offends (c : Circuit) : Fault → Prop where
  | duplicate : 2 ≤ c.declared.count repeated → Offends c (.duplicateDeclaration repeated)
  | noTraces : c.stimuli = [] → Offends c (.timelines .noTraces)
  | emptyTrace : trace ∈ c.stimuli → trace.isEmpty = true →
      Offends c (.timelines (.emptyTrace trace.signal))
  | otherLength : trace ∈ c.stimuli → other ∈ c.stimuli → trace.length ≠ other.length →
      Offends c (.timelines (.otherLength trace.signal trace.length other.length))
  | undeclared : trace ∈ c.stimuli → trace.signal ∉ c.inputs →
      Offends c (.undeclaredStimulus trace.signal)
  | unset : trace ∈ c.stimuli → trace.firstUnset? = some cycle →
      Offends c (.unsetStimulus trace.signal cycle)
  | unboundInput : l ∈ c.latches → l.input ∉ c.bound → Offends c (.undefined l.input)

/-- Two faults that are the same, or both found by one check of the circuit. -/
def Circuit.SameCheck (c : Circuit) (fault fault' : Fault) : Prop :=
  fault' = fault ∨ fault'.check = fault.check ∧ c.Offends fault ∧ c.Offends fault'

/-- Two entries that are the same, or report related faults. -/
inductive Entry.Alike (E : Fault → Fault → Prop) : Entry → Entry → Prop where
  | same (entry : Entry) : Alike E entry entry
  | failed (circuit : String) : E fault fault' →
      Alike E (.failed circuit fault) (.failed circuit fault')

/-- Two logs with alike entries in whatever order. -/
def Entry.AnyOrder (E : Fault → Fault → Prop) (log log' : List Entry) : Prop :=
  ∃ middle : List Entry, middle.Perm log ∧ List.Forall₂ (Entry.Alike E) middle log'

/-- Two results that are the same value, or related faults. -/
inductive SameResult (E : Fault → Fault → Prop) : Except Fault α → Except Fault α → Prop where
  | ok (value : α) : SameResult E (.ok value) (.ok value)
  | error : E fault fault' → SameResult E (.error fault) (.error fault')

namespace SameResult

variable {E : Fault → Fault → Prop}

theorem of_iff {x y : Except Fault α} (same : ∀ value, x = .ok value ↔ y = .ok value)
    (faults : ∀ fault fault', x = .error fault → y = .error fault' → E fault fault') :
    SameResult E x y := by
  cases left : x with
  | ok value =>
    rw [(same value).mp left]
    exact .ok value
  | error fault =>
    cases right : y with
    | ok value => cases left.symm.trans ((same value).mpr right)
    | error fault' => exact .error (faults fault fault' left right)

theorem bind {x y : Except Fault α} {next next' : α → Except Fault β} (first : SameResult E x y)
    (later : ∀ value, SameResult E (next value) (next' value)) :
    SameResult E (x >>= next) (y >>= next') := by
  cases first with
  | ok value => exact later value
  | error faults => exact .error faults

end SameResult

/-! ## Offenders that a check comes to -/

namespace Circuit

variable {c : Circuit} {fault : Fault}

theorem checkNames_offends (failed : c.checkNames = .error fault) : c.Offends fault := by
  obtain ⟨before, name, after, split, _, again, rfl⟩ := checkNames_eq_error.mp failed
  have earlier : 0 < before.count name := List.count_pos_iff.mpr again
  refine .duplicate ?_
  rw [split, List.count_append, List.count_cons_self]
  omega

theorem commonLength_offends (failed : c.commonLength = .error fault) : c.Offends fault := by
  obtain ⟨none, rfl⟩ | ⟨first, rest, _, supplied, faulty, rfl⟩ := commonLength_eq_error.mp failed
  · exact .noTraces none
  · obtain ⟨trace, member, none | ⟨_, other⟩⟩ := faulty.exists_mem
    · exact .emptyTrace member (List.isEmpty_iff_length_eq_zero.mpr none)
    · exact .otherLength member (supplied ▸ List.mem_cons_self) other

theorem checkStimuli_offends (failed : c.checkStimuli c.stimuli = .error fault) :
    c.Offends fault := by
  obtain ⟨trace, member, undeclared | ⟨_, inside, unset, before⟩⟩ :=
    (checkStimuli_eq_error.mp failed).exists_mem
  · exact .undeclared member undeclared
  · exact .unset member (Trace.firstUnset?_eq_some.mpr ⟨inside, unset, before⟩)

end Circuit

/-! ## Circuits that differ in the order of declarations -/

theorem Store.setAll_perm {bindings reordered : List Binding} (perm : reordered.Perm bindings)
    (distinct : (bindings.map (·.1)).Nodup) (s : Store) : s.setAll reordered = s.setAll bindings := by
  have distinctToo : (reordered.map (·.1)).Nodup := (perm.map (·.1)).nodup_iff.mpr distinct
  refine ext_get? fun name => ?_
  by_cases written : name ∈ bindings.map (·.1)
  · obtain ⟨b, member, rfl⟩ := List.mem_map.mp written
    rw [get?_setAll_mem distinct member, get?_setAll_mem distinctToo (perm.mem_iff.mpr member)]
  · rw [get?_setAll_other written, get?_setAll_other (mt (perm.map (·.1)).mem_iff.mp written)]

theorem Update.early_congr {updates : List Update} {known known' : List String}
    (same : ∀ name, name ∈ known' ↔ name ∈ known) : early known' updates = early known updates := by
  simp only [early_eq_references, List.mem_append, same]

namespace Circuit.Shuffle

variable {c d : Circuit} {s : Store} {name : String} {n t cycle : Nat} (shuffle : c.Shuffle d)

include shuffle

theorem declared : d.declared.Perm c.declared := by
  rw [Circuit.declared, Circuit.declared, shuffle.updates]
  exact (shuffle.inputs.append (shuffle.latches.map _)).append_right _

theorem mem_sources : name ∈ d.sources ↔ name ∈ c.sources :=
  ((shuffle.stimuli.map _).append (shuffle.latches.map _)).mem_iff

theorem mem_bound : name ∈ d.bound ↔ name ∈ c.bound := by
  rw [bound, bound, List.mem_append, List.mem_append, shuffle.mem_sources, shuffle.updates]

theorem unresolved : d.unresolved = c.unresolved := by
  have bound (name : String) : name ∈ d.bound ↔ name ∈ c.bound := shuffle.mem_bound
  simp only [Circuit.unresolved, shuffle.updates, shuffle.outputs, bound,
    Update.early_congr fun name => shuffle.mem_sources]

theorem unresolvedInputs : d.unresolvedInputs.Perm c.unresolvedInputs := by
  have bound (name : String) : name ∈ d.bound ↔ name ∈ c.bound := shuffle.mem_bound
  simp only [Circuit.unresolvedInputs, bound]
  exact (shuffle.latches.map _).filter _

/-! ### Validation -/

theorem offends {fault : Fault} (offends : d.Offends fault) : c.Offends fault := by
  cases offends with
  | duplicate twice => exact .duplicate (by rwa [shuffle.declared.count_eq] at twice)
  | noTraces none => exact .noTraces (List.Perm.nil_eq (none ▸ shuffle.stimuli)).symm
  | emptyTrace member empty => exact .emptyTrace (shuffle.stimuli.mem_iff.mp member) empty
  | otherLength member other different =>
    exact .otherLength (shuffle.stimuli.mem_iff.mp member) (shuffle.stimuli.mem_iff.mp other)
      different
  | undeclared member unknown =>
    exact .undeclared (shuffle.stimuli.mem_iff.mp member) (mt shuffle.inputs.mem_iff.mpr unknown)
  | unset member unset => exact .unset (shuffle.stimuli.mem_iff.mp member) unset
  | unboundInput member unbound =>
    exact .unboundInput (shuffle.latches.mem_iff.mp member) (mt shuffle.mem_bound.mpr unbound)

/-- Faults of both circuits that come from one check. -/
theorem sameCheck {check : Check} {fault fault' : Fault}
    (left : fault.check = check ∧ c.Offends fault)
    (right : fault'.check = check ∧ d.Offends fault') : c.SameCheck fault fault' :=
  .inr ⟨right.1.trans left.1.symm, left.2, shuffle.offends right.2⟩

/-- Both circuits have one length, or fail the same check. -/
theorem validate : SameResult c.SameCheck c.validate d.validate := by
  have names : SameResult c.SameCheck c.checkNames d.checkNames := by
    refine .of_iff (fun _ => ?_) fun fault fault' left right => ?_
    · rw [checkNames_eq_ok, checkNames_eq_ok, shuffle.declared.nodup_iff]
    · exact shuffle.sameCheck ⟨checkNames_check left, checkNames_offends left⟩
        ⟨checkNames_check right, checkNames_offends right⟩
  have lengths : SameResult c.SameCheck c.commonLength d.commonLength := by
    refine .of_iff (fun n => ?_) fun fault fault' left right => ?_
    · have supplied : d.stimuli = [] ↔ c.stimuli = [] :=
        ⟨fun none => (List.Perm.nil_eq (none ▸ shuffle.stimuli)).symm,
          fun none => (List.Perm.nil_eq (none ▸ shuffle.stimuli.symm)).symm⟩
      rw [commonLength_eq_ok, commonLength_eq_ok, ne_eq, ne_eq, supplied]
      simp only [shuffle.stimuli.mem_iff]
    · exact shuffle.sameCheck ⟨commonLength_check left, commonLength_offends left⟩
        ⟨commonLength_check right, commonLength_offends right⟩
  have depths : SameResult c.SameCheck (checkDepths c.updates) (checkDepths d.updates) := by
    rw [shuffle.updates]
    exact .of_iff (fun _ => Iff.rfl) fun _ _ left right =>
      .inl (Except.error.inj (right.symm.trans left))
  have stimuli : SameResult c.SameCheck (c.checkStimuli c.stimuli) (d.checkStimuli d.stimuli) := by
    refine .of_iff (fun ⟨⟩ => ?_) fun fault fault' left right => ?_
    · simp only [checkStimuli_eq_ok, shuffle.stimuli.mem_iff, shuffle.inputs.mem_iff]
    · exact shuffle.sameCheck
        ⟨checkStimuli_check left, checkStimuli_offends left⟩
        ⟨checkStimuli_check right, checkStimuli_offends right⟩
  exact names.bind fun _ => lengths.bind fun n => depths.bind fun _ => stimuli.bind fun _ => .ok n

theorem validate_cases : (∃ n, c.Validated n ∧ d.Validated n) ∨
    ∃ fault fault', c.validate = .error fault ∧ d.validate = .error fault' ∧
      c.SameCheck fault fault' := by
  have same := shuffle.validate
  generalize left : c.validate = x at same
  generalize right : d.validate = y at same
  cases same with
  | ok n => exact .inl ⟨n, validate_eq_ok.mp left, validate_eq_ok.mp right⟩
  | error faults => exact .inr ⟨_, _, rfl, rfl, faults⟩

theorem validated (valid : c.Validated n) : d.Validated n := by
  have same := shuffle.validate
  rw [validate_eq_ok.mpr valid] at same
  generalize checked : d.validate = y at same
  cases same
  exact validate_eq_ok.mp checked

/-! ### Cycles -/

theorem driven (cycle : Nat) (s : Store) : d.driven cycle s = c.driven cycle s := by
  rw [Circuit.driven, Circuit.driven]
  rcases shuffle.traces with same | alone
  · rw [same]
  · have distinct : ((samples cycle c.stimuli).map (·.1)).Nodup := (samples_names ..).symm ▸ alone
    exact Store.setAll_perm (shuffle.stimuli.map _) distinct s

theorem driven_reset (valid : c.Validated n) :
    (d.driven 0 .empty).setAll (Latch.resets d.latches) =
      (c.driven 0 .empty).setAll (Latch.resets c.latches) := by
  have distinct : ((Latch.resets c.latches).map (·.1)).Nodup :=
    (Latch.resets_names _).symm ▸ valid.outputs_nodup
  rw [shuffle.driven]
  exact Store.setAll_perm (shuffle.latches.map _) distinct _

theorem advanced (valid : c.Validated n) (cycle : Nat) (s : Store) :
    d.advanced cycle s = c.advanced cycle s := by
  have distinct : ((Latch.moves c.latches (c.driven cycle s)).map (·.1)).Nodup :=
    (Latch.moves_names _ _).symm ▸ valid.outputs_nodup
  rw [Circuit.advanced, Circuit.advanced, shuffle.driven]
  exact Store.setAll_perm (shuffle.latches.map _) distinct _

theorem storeAfter (valid : c.Validated n) (t : Nat) : d.storeAfter t = c.storeAfter t := by
  induction t with
  | zero => rw [Circuit.storeAfter, Circuit.storeAfter, shuffle.driven_reset valid, shuffle.updates]
  | succ t ih =>
    rw [Circuit.storeAfter, Circuit.storeAfter, ih, next, next, shuffle.advanced valid,
      shuffle.updates]

theorem firstCycle (valid : c.Validated n) : d.firstCycle = c.firstCycle := by
  rw [firstCycle_eq valid, firstCycle_eq (shuffle.validated valid), shuffle.driven_reset valid,
    shuffle.updates]

theorem recording (valid : c.Validated n) (length cycles : Nat) :
    d.recording length cycles = c.recording length cycles := by
  simp only [Circuit.recording, shuffle.storeAfter valid, shuffle.outputs]

theorem simulatorAfter (valid : c.Validated n) (length t : Nat) :
    d.simulatorAfter length t = (c.simulatorAfter length t).withCircuit d := by
  rw [Circuit.simulatorAfter, shuffle.storeAfter valid, shuffle.recording valid]
  rfl

theorem completes (done : c.Completes n t) : d.Completes n t where
  valid := shuffle.validated done.valid
  inside := done.inside
  resolved := shuffle.unresolved.trans done.resolved
  inputs later := (done.inputs later ▸ shuffle.unresolvedInputs).eq_nil

/-- The moves of the latches are reported in the order of the latches, and all else alike. -/
theorem nextCycle_log (valid : c.Validated n) (inside : cycle < n)
    (bound : ∀ name ∈ Latch.inputs c.latches, (c.driven cycle s).contains name = true) :
    (d.nextCycle cycle s).log.Perm (c.nextCycle cycle s).log := by
  have boundToo : ∀ name ∈ Latch.inputs d.latches, (d.driven cycle s).contains name = true := by
    intro name member
    rw [shuffle.driven]
    exact bound name ((shuffle.latches.map _).mem_iff.mp member)
  rw [nextCycle, nextCycle, moved_of_bound valid inside bound,
    moved_of_bound (shuffle.validated valid) inside boundToo, shuffle.driven,
    shuffle.advanced valid, shuffle.updates]
  exact (shuffle.latches.map _).append_right _

end Circuit.Shuffle

/-! ## Simulators of both circuits -/

namespace Entry.AnyOrder

variable {E : Fault → Fault → Prop} {log log' more more' : List Entry}

theorem of_perm (perm : log'.Perm log) : AnyOrder E log log' :=
  ⟨log', perm, List.forall₂_same.mpr fun entry _ => .same entry⟩

theorem append (first : AnyOrder E log log') (second : AnyOrder E more more') :
    AnyOrder E (log ++ more) (log' ++ more') := by
  obtain ⟨middle, perm, alike⟩ := first
  obtain ⟨middle', perm', alike'⟩ := second
  exact ⟨middle ++ middle', perm.append perm', List.rel_append alike alike'⟩

theorem failed {fault fault' : Fault} (circuit : String) (faults : E fault fault') :
    AnyOrder E [.failed circuit fault] [.failed circuit fault'] :=
  ⟨_, .refl _, .cons (.failed circuit faults) .nil⟩

end Entry.AnyOrder

/-- Simulators of two circuits that differ in nothing else. -/
structure Twins (c d : Circuit) (sim sim' : Simulator) : Prop where
  stage : Stage c sim
  circuit : sim.circuit = c
  same : sim' = sim.withCircuit d

theorem Simulator.complete_log {sim : Simulator} {d : Circuit} {cycle : Nat} {opening : Entry}
    {o : Outcome} (name : d.name = sim.circuit.name) :
    ((sim.withCircuit d).complete cycle opening o).log = (sim.complete cycle opening o).log := by
  simp only [complete, withCircuit]
  cases o.fault? with
  | some fault => simp only [fail, name]
  | none =>
    cases Circuit.record cycle o.store sim.recorded with
    | ok traces => rfl
    | error fault => simp only [fail, name]

namespace Circuit.Shuffle

variable {c d : Circuit} {n t : Nat} (shuffle : c.Shuffle d)

include shuffle

/-- Where a second cycle fails, it fails in both circuits, at a latch input of each. -/
theorem unresolvedInput {name : String} (first : c.unresolvedInputs.head? = some name) :
    ∃ other, d.unresolvedInputs.head? = some other ∧
      c.SameCheck (.undefined name) (.undefined other) := by
  have offends {name : String} (member : name ∈ c.unresolvedInputs) :
      c.Offends (.undefined name) := by
    obtain ⟨read, unbound⟩ := List.mem_filter.mp member
    obtain ⟨l, latch, rfl⟩ := List.mem_map.mp read
    exact .unboundInput latch (by simpa using unbound)
  cases missing : d.unresolvedInputs with
  | nil =>
    have none := (missing ▸ shuffle.unresolvedInputs).nil_eq
    rw [← none] at first
    cases first
  | cons other others =>
    have member : other ∈ c.unresolvedInputs :=
      shuffle.unresolvedInputs.mem_iff.mp (missing ▸ List.mem_cons_self)
    exact ⟨other, rfl, .inr ⟨rfl, offends (List.mem_of_head? first), offends member⟩⟩

theorem lockstep : Lockstep (Twins c d) c.SameCheck where
  phase := by
    rintro sim _ ⟨_, _, rfl⟩
    rfl
  length := by
    rintro sim _ ⟨_, _, rfl⟩
    rfl
  rejected _ _ := .inl rfl
  start := by
    rintro sim _ ⟨stage, _, rfl⟩ fresh
    cases stage with
    | fresh =>
      rcases shuffle.validate_cases with ⟨n, valid, validToo⟩ | ⟨_, _, failed, failedToo, faults⟩
      · have first : Alike (Twins c d) c.SameCheck (Simulator.ofCircuit c).start
            (Simulator.ofCircuit d).start := by
          apply Alike.first (fun _ => .inl rfl) valid validToo shuffle.unresolved
          · exact fun done _ => ⟨.after done, rfl, shuffle.simulatorAfter valid n 0⟩
          · refine ⟨.failed rfl, rfl, ?_⟩
            simp only [stoppedFirst, Simulator.starting, shuffle.firstCycle valid,
              shuffle.recording valid]
            rfl
        exact first
      · have started : (Simulator.ofCircuit d).start = _ := Simulator.start_of_invalid failedToo
        rw [Simulator.start_of_invalid failed]
        exact started ▸ .error ⟨.failed rfl, rfl, rfl⟩ faults
    | after later => exact absurd fresh (Simulator.begun_simulatorAfter later.inside).1
    | failed ended => simp [ended] at fresh
  step := by
    rintro sim _ ⟨stage, _, rfl⟩ begun going
    cases stage with
    | fresh => exact absurd rfl begun
    | @after n t done =>
      have same (t : Nat) := shuffle.simulatorAfter done.valid n t
      have inside : t + 1 < n := Simulator.inside_of_phase (c := c) done.inside fun last => by
        simp [Phase.ended, last] at going
      rw [← same]
      apply Alike.stepped done (shuffle.completes done) inside
      · exact fun none => (none ▸ shuffle.unresolvedInputs).eq_nil
      · exact fun name first => shuffle.unresolvedInput first
      · exact fun next _ => ⟨.after next, rfl, same (t + 1)⟩
      · refine ⟨.failed rfl, rfl, ?_⟩
        rw [stoppedSecond, same, shuffle.driven, shuffle.storeAfter done.valid]
        rfl
    | failed ended => simp [Phase.ended, ended] at going

theorem failed_log {fault fault' : Fault} (log : List Entry) (faults : c.SameCheck fault fault') :
    Entry.AnyOrder c.SameCheck (log ++ [.failed c.name fault]) (log ++ [.failed d.name fault']) := by
  rw [shuffle.name]
  exact .append (.of_perm (.refl log)) (.failed c.name faults)

theorem start_log : Entry.AnyOrder c.SameCheck (Simulator.ofCircuit c).start.log
    (Simulator.ofCircuit d).start.log := by
  rcases shuffle.validate_cases with ⟨n, valid, validToo⟩ | ⟨_, _, failed, failedToo, faults⟩
  · have starting : Simulator.starting d n = (Simulator.starting c n).withCircuit d := by
      simp only [Simulator.starting, shuffle.recording valid]
      rfl
    rw [Simulator.start_eq_complete valid, Simulator.start_eq_complete validToo,
      starting, shuffle.firstCycle valid, Simulator.complete_log shuffle.name]
    exact .of_perm (.refl _)
  · rw [Simulator.start_of_invalid failed, Simulator.start_of_invalid failedToo]
    exact shuffle.failed_log [] faults

theorem step_log (done : c.Completes n t) (inside : t + 1 < n) :
    Entry.AnyOrder c.SameCheck (c.simulatorAfter n t).step.log
      (d.simulatorAfter n t).step.log := by
  rcases Simulator.stepTo_cases done inside with ⟨next, _⟩ | ⟨rfl, name, first, _⟩
  · have bound : ∀ name ∈ Latch.inputs c.latches,
        (c.driven (t + 1) (c.storeAfter t)).contains name = true := by
      intro name read
      have none := List.filter_eq_nil_iff.mp (next.inputs t.succ_ne_zero) name read
      exact contains_driven.mpr (.inr (contains_storeAfter.mpr (by simpa using none)))
    rw [Simulator.step_of_completes next, Simulator.step_of_completes (shuffle.completes next),
      shuffle.storeAfter done.valid]
    exact .of_perm ((shuffle.nextCycle_log done.valid inside bound).cons _)
  · obtain ⟨other, firstToo, faults⟩ := shuffle.unresolvedInput first
    rw [Simulator.step_of_unresolved done inside first,
      Simulator.step_of_unresolved (shuffle.completes done) inside firstToo]
    exact shuffle.failed_log [.cycle 1] faults

theorem logged : Logged (Twins c d) (Entry.AnyOrder c.SameCheck) where
  same log := .of_perm (.refl log)
  append := .append
  name := by
    rintro sim _ ⟨_, rfl, rfl⟩
    exact shuffle.name
  start := by
    rintro sim _ ⟨stage, _, rfl⟩
    by_cases fresh : sim.phase = .fresh
    · cases stage with
      | fresh => exact shuffle.start_log
      | after later => exact absurd fresh (Simulator.begun_simulatorAfter later.inside).1
      | failed ended => simp [ended] at fresh
    · have freshToo : (sim.withCircuit d).phase ≠ .fresh := fresh
      rw [Simulator.start_of_begun fresh, Simulator.start_of_begun freshToo]
      exact .of_perm .nil
  step := by
    rintro sim _ ⟨stage, _, rfl⟩
    cases stage with
    | fresh => exact .of_perm .nil
    | @after n t done =>
      by_cases inside : t + 1 < n
      · rw [← shuffle.simulatorAfter done.valid]
        exact shuffle.step_log done inside
      · obtain rfl : t + 1 = n := by have := done.inside; omega
        have ended : ((c.simulatorAfter (t + 1) t).withCircuit d).phase = .terminated :=
          Simulator.phase_of_last c t
        rw [Simulator.step, Simulator.step, Simulator.phase_of_last, ended]
        exact .of_perm .nil
    | failed ended =>
      have endedToo : (sim.withCircuit d).phase = .failed := ended
      rw [Simulator.step, Simulator.step, ended, endedToo]
      exact .of_perm .nil

end Circuit.Shuffle

/-- The order in which inputs, latches and stimuli are declared does not matter. The same calls
lead both circuits to the same phase, length, store and output traces, whether they fail or
not. They answer alike and make the same entries, save that moves of latches may be reported in
another order, and that a check which finds several offenders may report another of them. -/
theorem shuffled_alike {c d : Circuit} (shuffle : c.Shuffle d) (calls : List Call) :
    let sim := (Simulator.ofCircuit c).after calls
    let other := (Simulator.ofCircuit d).after calls
    other.phase = sim.phase ∧ other.length = sim.length ∧ other.store = sim.store ∧
      other.recorded = sim.recorded ∧
      List.Forall₂ (Answered c.SameCheck Eq) ((Simulator.ofCircuit c).answers calls)
        ((Simulator.ofCircuit d).answers calls) ∧
      List.Forall₂ (Entry.AnyOrder c.SameCheck) ((Simulator.ofCircuit c).logs calls)
        ((Simulator.ofCircuit d).logs calls) := by
  have fresh : Twins c d (.ofCircuit c) (.ofCircuit d) := ⟨.fresh, rfl, rfl⟩
  intro sim other
  obtain ⟨_, _, same⟩ : Twins c d sim other := shuffle.lockstep.after fresh calls
  refine ⟨by rw [same]; rfl, by rw [same]; rfl, by rw [same]; rfl, by rw [same]; rfl, ?_, ?_⟩
  · refine shuffle.lockstep.answered ?_ fresh calls
    rintro sim _ ⟨_, _, rfl⟩
    rfl
  · exact shuffle.logged.logs shuffle.lockstep fresh calls

/-- Two inputs, and two registers in a row behind the gate between them. -/
def crossing : Circuit where
  name := "crossing"
  inputs := ["a", "b"]
  outputs := ["q"]
  latches := [⟨"d", "p"⟩, ⟨"p", "q"⟩]
  updates := [⟨"d", .and (.signal "a") (.signal "b")⟩]
  stimuli := [⟨"a", [some true, some true, some false]⟩, ⟨"b", [some true, some false, some false]⟩]

/-- The crossing with all that may be shuffled the other way round. -/
def crossingShuffled : Circuit :=
  { crossing with
    inputs := crossing.inputs.reverse
    latches := crossing.latches.reverse
    stimuli := crossing.stimuli.reverse }

theorem crossing_shuffled_alike :
    crossing.Shuffle crossingShuffled ∧ crossingShuffled.latches ≠ crossing.latches ∧
      ((Simulator.ofCircuit crossing).after [.start, .step, .run]).recorded =
        [⟨"q", [some false, some false, some true]⟩] ∧
      ((Simulator.ofCircuit crossingShuffled).after [.start, .step, .run]).recorded =
        [⟨"q", [some false, some false, some true]⟩] := by
  have shuffle : crossing.Shuffle crossingShuffled :=
    ⟨rfl, rfl, rfl, List.reverse_perm _, List.reverse_perm _, List.reverse_perm _, .inr (by decide)⟩
  have recorded : ((Simulator.ofCircuit crossing).after [.start, .step, .run]).recorded =
      [⟨"q", [some false, some false, some true]⟩] := by decide +kernel
  obtain ⟨_, _, _, same, _⟩ := shuffled_alike shuffle [.start, .step, .run]
  exact ⟨shuffle, by decide, recorded, same.trans recorded⟩

/-- A circuit with a trace that lacks its sample and a trace of an undeclared input. -/
def untidy : Circuit where
  name := "untidy"
  inputs := ["a"]
  outputs := ["a"]
  latches := []
  updates := []
  stimuli := [⟨"a", [none]⟩, ⟨"z", [some true]⟩]

/-- With the traces the other way round another fault is found first, of another kind. -/
theorem untidy_shuffled_differs :
    untidy.Shuffle { untidy with stimuli := untidy.stimuli.reverse } ∧
      (Simulator.ofCircuit untidy).start.result = .error (.unsetStimulus "a" 0) ∧
      (Simulator.ofCircuit { untidy with stimuli := untidy.stimuli.reverse }).start.result =
        .error (.undeclaredStimulus "z") ∧
      ∀ signal cycle, Fault.undeclaredStimulus "z" ≠ .unsetStimulus signal cycle :=
  ⟨⟨rfl, rfl, rfl, .refl _, .refl _, List.reverse_perm _, .inr (by decide)⟩, by decide +kernel,
    by decide +kernel, nofun⟩

end LatchSim
