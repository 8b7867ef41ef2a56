import LatchSim.Proofs.Expr
import LatchSim.Proofs.Validation

/-!
# The verdict of validation

Validation makes four groups of checks and answers the fault of the first item that fails the
first of them. `Circuit.Verdict` tells without any of these checks which answer a circuit
deserves, and `Circuit.validate_iff` that it is the one that validation gives.
-/

namespace LatchSim

/-- The fault of the first item of a list that has one. -/
def FirstFault (faulty : α → β → Prop) (items : List α) (fault : β) : Prop :=
  ∃ before item after, items = before ++ item :: after ∧
    (∀ earlier ∈ before, ∀ other, ¬ faulty earlier other) ∧ faulty item fault

namespace FirstFault

variable {faulty : α → β → Prop} {item : α} {rest : List α} {fault : β}

@[simp] theorem nil : ¬ FirstFault faulty [] fault := by
  simp [FirstFault]

/-- The fault of a list is that of its first item, or of the rest where the first has none. -/
theorem cons_iff : FirstFault faulty (item :: rest) fault ↔
    faulty item fault ∨ (∀ other, ¬ faulty item other) ∧ FirstFault faulty rest fault := by
  constructor
  · rintro ⟨before, found, after, split, earlier, here⟩
    cases before with
    | nil =>
      obtain ⟨rfl, rfl⟩ := List.cons.inj split
      exact .inl here
    | cons first before =>
      obtain ⟨rfl, rfl⟩ := List.cons.inj split
      obtain ⟨sound, earlier⟩ := List.forall_mem_cons.mp earlier
      exact .inr ⟨sound, before, found, after, rfl, earlier, here⟩
  · rintro (here | ⟨sound, before, found, after, rfl, earlier, here⟩)
    · exact ⟨[], item, rest, rfl, by simp, here⟩
    · exact ⟨item :: before, found, after, rfl, List.forall_mem_cons.mpr ⟨sound, earlier⟩, here⟩

theorem exists_mem {items : List α} (found : FirstFault faulty items fault) :
    ∃ item ∈ items, faulty item fault := by
  obtain ⟨before, item, after, rfl, _, here⟩ := found
  exact ⟨item, by simp, here⟩

end FirstFault

/-! ## Faults of single items -/

/-- What is wrong with the length of a trace where another length is expected. -/
inductive Trace.LengthFault (expected : Nat) (t : Trace) : TimelineFault → Prop where
  | empty : t.length = 0 → LengthFault expected t (.emptyTrace t.signal)
  | other : t.length ≠ 0 → t.length ≠ expected →
      LengthFault expected t (.otherLength t.signal t.length expected)

inductive Update.DepthFault (u : Update) : Fault → Prop where
  | deep : 1024 < u.expr.height → DepthFault u (.tooDeep u.name u.expr.height 1024)

/-- What makes a trace no stimulus of a circuit. -/
inductive Circuit.StimulusFault (c : Circuit) (t : Trace) : Fault → Prop where
  | undeclared : t.signal ∉ c.inputs → StimulusFault c t (.undeclaredStimulus t.signal)
  /-- The first cycle without a value. -/
  | unset : t.signal ∈ c.inputs → cycle < t.length → t.get? cycle = none →
      (∀ earlier < cycle, (t.get? earlier).isSome = true) →
      StimulusFault c t (.unsetStimulus t.signal cycle)

theorem Trace.get?_eq_getElem {t : Trace} {cycle : Nat} (inside : cycle < t.values.length) :
    t.get? cycle = t.values[cycle] := by
  simp [get?, List.getElem?_eq_getElem inside]

theorem Trace.firstUnset?_eq_some {t : Trace} {cycle : Nat} :
    t.firstUnset? = some cycle ↔ cycle < t.length ∧ t.get? cycle = none ∧
      ∀ earlier < cycle, (t.get? earlier).isSome = true := by
  rw [firstUnset?, List.findIdx?_eq_some_iff_getElem]
  constructor
  · rintro ⟨inside, unset, before⟩
    refine ⟨inside, ?_, fun earlier less => ?_⟩
    · simpa [get?_eq_getElem inside] using unset
    · have within : earlier < t.values.length := Nat.lt_trans less inside
      simpa [get?_eq_getElem within, Option.isSome_iff_ne_none] using before earlier less
  · rintro ⟨inside, unset, before⟩
    refine ⟨inside, ?_, fun earlier less => ?_⟩
    · simpa [get?_eq_getElem inside] using unset
    · have within : earlier < t.values.length := Nat.lt_trans less inside
      simpa [get?_eq_getElem within, Option.isSome_iff_ne_none] using before earlier less

theorem Trace.isComplete_iff {t : Trace} :
    t.isComplete = true ↔ ∀ cycle < t.length, (t.get? cycle).isSome = true := by
  rw [isComplete, List.all_eq_true]
  constructor
  · intro all cycle inside
    rw [get?_eq_getElem inside]
    exact all _ (List.getElem_mem inside)
  · intro all sample member
    obtain ⟨cycle, inside, rfl⟩ := List.mem_iff_getElem.mp member
    simpa [get?_eq_getElem inside] using all cycle inside

namespace Circuit

/-! ## The verdict -/

/-- Inputs, latch outputs and update targets are all different. -/
def NamesDistinct (c : Circuit) : Prop :=
  (c.inputs ++ c.latches.map (·.output) ++ c.updates.map (·.name)).Nodup

def LengthsAgree (c : Circuit) (n : Nat) : Prop :=
  c.stimuli ≠ [] ∧ 0 < n ∧ ∀ t ∈ c.stimuli, t.length = n

def DepthsAllowed (c : Circuit) : Prop := ∀ u ∈ c.updates, u.expr.height ≤ 1024

def StimuliComplete (c : Circuit) : Prop :=
  ∀ t ∈ c.stimuli, t.signal ∈ c.inputs ∧ ∀ cycle < t.length, (t.get? cycle).isSome = true

/-- The answer that a circuit deserves. -/
inductive Verdict (c : Circuit) : Except Fault Nat → Prop where
  | accepted : c.NamesDistinct → c.LengthsAgree n → c.DepthsAllowed → c.StimuliComplete →
      Verdict c (.ok n)
  /-- The first name that has come before. -/
  | repeated {before after : List String} {name : String} :
      c.inputs ++ c.latches.map (·.output) ++ c.updates.map (·.name) = before ++ name :: after →
      before.Nodup → name ∈ before → Verdict c (.error (.duplicateDeclaration name))
  | unsupplied : c.NamesDistinct → c.stimuli = [] → Verdict c (.error (.timelines .noTraces))
  /-- The first trace that is empty or not as long as the first of all. -/
  | lengths : c.NamesDistinct → c.stimuli = first :: rest →
      FirstFault (Trace.LengthFault first.length) c.stimuli reason →
      Verdict c (.error (.timelines reason))
  | depths : c.NamesDistinct → c.LengthsAgree n → FirstFault Update.DepthFault c.updates fault →
      Verdict c (.error fault)
  | stimuli : c.NamesDistinct → c.LengthsAgree n → c.DepthsAllowed →
      FirstFault c.StimulusFault c.stimuli fault → Verdict c (.error fault)

variable {c : Circuit} {n : Nat} {fault : Fault}

/-! ## Groups of checks that pass -/

theorem depthsAllowed_iff :
    c.DepthsAllowed ↔ ∀ u ∈ c.updates, u.expr.depth ≤ Expr.depthLimit := by
  simp [DepthsAllowed, Expr.depth_eq_height, Expr.depthLimit]

theorem stimuliComplete_iff :
    c.StimuliComplete ↔ ∀ t ∈ c.stimuli, t.signal ∈ c.inputs ∧ t.isComplete = true := by
  simp only [StimuliComplete, Trace.isComplete_iff]

theorem validated_iff : c.Validated n ↔
    c.NamesDistinct ∧ c.LengthsAgree n ∧ c.DepthsAllowed ∧ c.StimuliComplete := by
  rw [depthsAllowed_iff, stimuliComplete_iff]
  constructor
  · intro valid
    exact ⟨valid.distinct, ⟨valid.supplied, valid.positive, valid.lengths⟩, valid.shallow,
      fun t member => ⟨valid.inputs t member, valid.complete t member⟩⟩
  · rintro ⟨names, ⟨supplied, positive, lengths⟩, depths, stimuli⟩
    exact ⟨names, supplied, positive, lengths, depths, fun t member => (stimuli t member).1,
      fun t member => (stimuli t member).2⟩

/-! ## Groups of checks that fail -/

theorem firstRepeat?_eq_some {seen names : List String} {name : String} :
    firstRepeat? seen names = some name ↔
      ∃ before after, names = before ++ name :: after ∧ before.Nodup ∧
        (∀ other ∈ before, other ∉ seen) ∧ (name ∈ seen ∨ name ∈ before) := by
  induction names generalizing seen with
  | nil => simp [firstRepeat?]
  | cons first rest ih =>
    rw [firstRepeat?]
    split
    next known =>
      constructor
      · rintro ⟨⟩
        exact ⟨[], rest, rfl, by simp, by simp, .inl known⟩
      · rintro ⟨before, after, split, _, fresh, _⟩
        cases before with
        | nil => simp [(List.cons.inj split).1]
        | cons other before =>
          obtain ⟨rfl, _⟩ := List.cons.inj split
          exact absurd known (fresh first List.mem_cons_self)
    next unknown =>
      rw [ih]
      constructor
      · rintro ⟨before, after, rfl, distinct, fresh, again⟩
        exact ⟨first :: before, after, rfl, by grind, by grind, by grind⟩
      · rintro ⟨before, after, split, distinct, fresh, again⟩
        cases before with
        | nil => grind
        | cons other before =>
          obtain ⟨rfl, rfl⟩ := List.cons.inj split
          exact ⟨before, after, rfl, by grind, by grind, by grind⟩

theorem checkNames_eq_error :
    c.checkNames = .error fault ↔ ∃ before name after, c.declared = before ++ name :: after ∧
      before.Nodup ∧ name ∈ before ∧ fault = .duplicateDeclaration name := by
  have first (name : String) : firstRepeat? [] c.declared = some name ↔ ∃ before after,
      c.declared = before ++ name :: after ∧ before.Nodup ∧ name ∈ before := by
    simp [firstRepeat?_eq_some]
  have found : c.checkNames = .error fault ↔
      ∃ name, firstRepeat? [] c.declared = some name ∧ fault = .duplicateDeclaration name := by
    rw [checkNames]
    cases firstRepeat? [] c.declared <;> simp [eq_comm]
  grind

theorem checkLengths_eq_error {expected : Nat} {traces : List Trace} :
    checkLengths expected traces = .error fault ↔
      ∃ reason, FirstFault (Trace.LengthFault expected) traces reason ∧
        fault = .timelines reason := by
  induction traces with
  | nil => simp [checkLengths]
  | cons t rest ih =>
    have empty : t.isEmpty = true ↔ t.length = 0 := by simp [Trace.isEmpty, Trace.length]
    rw [checkLengths]
    split
    next none =>
      have here (other : TimelineFault) :
          t.LengthFault expected other ↔ other = .emptyTrace t.signal := by
        grind [Trace.LengthFault]
      simp [FirstFault.cons_iff, here, eq_comm]
    next some =>
      split
      next different =>
        have here (other : TimelineFault) : t.LengthFault expected other ↔
            other = .otherLength t.signal t.length expected := by
          grind [Trace.LengthFault]
        simp [FirstFault.cons_iff, here, eq_comm]
      next same =>
        have sound (other : TimelineFault) : ¬ t.LengthFault expected other := by
          grind [Trace.LengthFault]
        simp [FirstFault.cons_iff, sound, ih]

theorem commonLength_eq_error :
    c.commonLength = .error fault ↔
      c.stimuli = [] ∧ fault = .timelines .noTraces ∨
      ∃ first rest reason, c.stimuli = first :: rest ∧
        FirstFault (Trace.LengthFault first.length) c.stimuli reason ∧
          fault = .timelines reason := by
  rw [commonLength]
  cases stimuli : c.stimuli with
  | nil => simp [eq_comm]
  | cons first rest => simp [bind_eq_error_iff, checkLengths_eq_error, pure, Except.pure]

theorem checkDepths_eq_error {updates : List Update} :
    checkDepths updates = .error fault ↔ FirstFault Update.DepthFault updates fault := by
  induction updates with
  | nil => simp [checkDepths]
  | cons u rest ih =>
    rw [checkDepths, Expr.depth_eq_height, Expr.depthLimit]
    split
    next deep =>
      have here (other : Fault) : u.DepthFault other ↔
          other = .tooDeep u.name u.expr.height 1024 := by
        grind [Update.DepthFault]
      simp [FirstFault.cons_iff, here, eq_comm]
    next shallow =>
      have sound (other : Fault) : ¬ u.DepthFault other := by
        grind [Update.DepthFault]
      simp [FirstFault.cons_iff, sound, ih]

theorem checkStimuli_eq_error {traces : List Trace} :
    c.checkStimuli traces = .error fault ↔ FirstFault c.StimulusFault traces fault := by
  induction traces with
  | nil => simp [checkStimuli]
  | cons t rest ih =>
    have input : c.isInput t.signal = true ↔ t.signal ∈ c.inputs := by simp [isInput]
    rw [checkStimuli]
    split
    next undeclared =>
      have here (other : Fault) :
          c.StimulusFault t other ↔ other = .undeclaredStimulus t.signal := by
        grind [StimulusFault]
      simp [FirstFault.cons_iff, here, eq_comm]
    next declared =>
      split
      next cycle unset =>
        have here (other : Fault) :
            c.StimulusFault t other ↔ other = .unsetStimulus t.signal cycle := by
          grind [StimulusFault, Trace.firstUnset?_eq_some]
        simp [FirstFault.cons_iff, here, eq_comm]
      next complete =>
        have sound (other : Fault) : ¬ c.StimulusFault t other := by
          rintro (undeclared | ⟨_, inside, unset, before⟩)
          · simp [input, undeclared] at declared
          · have found := Trace.firstUnset?_eq_some.mpr ⟨inside, unset, before⟩
            simp [complete] at found
        simp [FirstFault.cons_iff, sound, ih]

/-! ## All groups -/

/-- A group of checks is made where all groups before it have passed. -/
theorem validate_eq_error_iff : c.validate = .error fault ↔
    c.checkNames = .error fault ∨ c.NamesDistinct ∧ (c.commonLength = .error fault ∨
      (∃ n, c.LengthsAgree n) ∧ (checkDepths c.updates = .error fault ∨
        c.DepthsAllowed ∧ c.checkStimuli c.stimuli = .error fault)) := by
  have names (u : Unit) : c.checkNames = .ok u ↔ c.NamesDistinct := checkNames_eq_ok
  have lengths (n : Nat) : c.commonLength = .ok n ↔ c.LengthsAgree n := commonLength_eq_ok
  have depths (u : Unit) : checkDepths c.updates = .ok u ↔ c.DepthsAllowed :=
    checkDepths_eq_ok.trans depthsAllowed_iff.symm
  simp [validate, bind_eq_error_iff, names, lengths, depths, pure, Except.pure, exists_and_right]

/-! ## Which check fails -/

theorem checkNames_check (failed : c.checkNames = .error fault) : fault.check = .names := by
  obtain ⟨_, _, _, _, _, _, rfl⟩ := checkNames_eq_error.mp failed
  rfl

theorem commonLength_check (failed : c.commonLength = .error fault) : fault.check = .lengths := by
  obtain ⟨_, rfl⟩ | ⟨_, _, _, _, _, rfl⟩ := commonLength_eq_error.mp failed
  · rfl
  · rfl

theorem checkStimuli_check {traces : List Trace} (failed : c.checkStimuli traces = .error fault) :
    fault.check = .stimuli := by
  obtain ⟨_, _, undeclared | unset⟩ := (checkStimuli_eq_error.mp failed).exists_mem
  · rfl
  · rfl

/-- A circuit that is refused has failed one of the four groups of checks. -/
theorem validate_check (failed : c.validate = .error fault) :
    fault.check = .names ∨ fault.check = .lengths ∨
      (fault.check = .depths ∧ ¬ c.DepthsAllowed) ∨ fault.check = .stimuli := by
  rcases validate_eq_error_iff.mp failed with names | ⟨_, lengths | ⟨_, depths | ⟨_, stimuli⟩⟩⟩
  · exact .inl (checkNames_check names)
  · exact .inr (.inl (commonLength_check lengths))
  · obtain ⟨u, member, ⟨deep⟩⟩ := (checkDepths_eq_error.mp depths).exists_mem
    exact .inr (.inr (.inl ⟨rfl, fun allowed => Nat.not_lt.mpr (allowed u member) deep⟩))
  · exact .inr (.inr (.inr (checkStimuli_check stimuli)))

/-- A circuit is never refused for the order of calls. -/
theorem validate_ne_invalidTransition {operation : Operation} {phase : Phase} :
    c.validate ≠ .error (.invalidTransition operation phase) := by
  intro failed
  rcases validate_check failed with check | check | ⟨check, _⟩ | check <;> cases check

/-- Nor is it for the depth of expressions where none goes past the limit. -/
theorem validate_ne_tooDeep (shallow : ∀ u ∈ c.updates, u.expr.depth ≤ Expr.depthLimit)
    (name : String) (depth limit : Nat) : c.validate ≠ .error (.tooDeep name depth limit) := by
  intro failed
  rcases validate_check failed with check | check | ⟨_, deep⟩ | check
  · cases check
  · cases check
  · exact deep (depthsAllowed_iff.mpr shallow)
  · cases check

/-! ## The answer -/

/-- Validation answers what the circuit deserves, and nothing else would do. -/
theorem validate_iff (c : Circuit) (verdict : Except Fault Nat) :
    c.validate = verdict ↔ c.Verdict verdict := by
  cases verdict with
  | ok n =>
    rw [validate_eq_ok, validated_iff]
    constructor
    · rintro ⟨names, lengths, depths, stimuli⟩
      exact .accepted names lengths depths stimuli
    · rintro ⟨names, lengths, depths, stimuli⟩
      exact ⟨names, lengths, depths, stimuli⟩
  | error fault =>
    simp only [validate_eq_error_iff, checkNames_eq_error, commonLength_eq_error,
      checkDepths_eq_error, checkStimuli_eq_error]
    constructor
    · rintro (⟨before, name, after, split, distinct, again, rfl⟩ | ⟨names, failed⟩)
      · exact .repeated split distinct again
      rcases failed with (⟨none, rfl⟩ | ⟨first, rest, reason, supplied, faulty, rfl⟩) |
        ⟨⟨n, lengths⟩, deep | ⟨depths, faulty⟩⟩
      · exact .unsupplied names none
      · exact .lengths names supplied faulty
      · exact .depths names lengths deep
      · exact .stimuli names lengths depths faulty
    · rintro (_ | ⟨split, distinct, again⟩ | ⟨names, none⟩ | ⟨names, supplied, faulty⟩ |
        ⟨names, lengths, deep⟩ | ⟨names, lengths, depths, faulty⟩)
      · exact .inl ⟨_, _, _, split, distinct, again, rfl⟩
      · exact .inr ⟨names, .inl (.inl ⟨none, rfl⟩)⟩
      · exact .inr ⟨names, .inl (.inr ⟨_, _, _, supplied, faulty, rfl⟩)⟩
      · exact .inr ⟨names, .inr ⟨⟨_, lengths⟩, .inl deep⟩⟩
      · exact .inr ⟨names, .inr ⟨⟨_, lengths⟩, .inr ⟨depths, faulty⟩⟩⟩

end Circuit
end LatchSim
