import LatchSim.Circuit
import LatchSim.Proofs.Except

/-!
# What validation promises

`Circuit.validate_eq_ok`: validation answers a length exactly for the circuits that are
`Circuit.Validated` with it. The rest of the theory works from the fields of that record.
-/

namespace LatchSim

theorem Trace.exists_sample {t : Trace} {cycle : Nat} (complete : t.isComplete = true)
    (inside : cycle < t.length) : ∃ value, t.values[cycle]? = some (some value) := by
  have found : t.values[cycle]? = some (t.values.get ⟨cycle, inside⟩) :=
    List.getElem?_eq_getElem inside
  have set : (t.values.get ⟨cycle, inside⟩).isSome = true :=
    List.all_eq_true.mp complete _ (List.get_mem _ _)
  obtain ⟨value, sample⟩ := Option.isSome_iff_exists.mp set
  exact ⟨value, by rw [found, sample]⟩

theorem Trace.firstUnset?_eq_none {t : Trace} : t.firstUnset? = none ↔ t.isComplete = true := by
  rw [firstUnset?, List.findIdx?_eq_none_iff, isComplete, List.all_eq_true]
  simp

/-- The checks that a circuit or a call can fail. -/
inductive Check where
  | names
  | lengths
  | depths
  | stimuli
  | references
  | recording
  | calls
  deriving DecidableEq

def Fault.check : Fault → Check
  | duplicateDeclaration _ => .names
  | timelines _ => .lengths
  | tooDeep .. => .depths
  | undeclaredStimulus _ | unsetStimulus .. => .stimuli
  | undefined _ => .references
  | cycleOutOfRange .. => .recording
  | invalidTransition .. => .calls

namespace Circuit

/-- A circuit that can be simulated for a number of cycles. -/
structure Validated (c : Circuit) (n : Nat) : Prop where
  distinct : c.declared.Nodup
  supplied : c.stimuli ≠ []
  positive : 0 < n
  lengths : ∀ t ∈ c.stimuli, t.length = n
  shallow : ∀ u ∈ c.updates, u.expr.depth ≤ Expr.depthLimit
  inputs : ∀ t ∈ c.stimuli, t.signal ∈ c.inputs
  complete : ∀ t ∈ c.stimuli, t.isComplete = true

theorem checkNames_eq_ok {c : Circuit} : c.checkNames = .ok () ↔ c.declared.Nodup := by
  have unique : firstRepeat? [] c.declared = none ↔ _ := firstRepeat?_eq_none
  rw [checkNames]
  cases found : firstRepeat? [] c.declared <;> simp_all

theorem checkLengths_eq_ok {expected : Nat} {traces : List Trace} :
    checkLengths expected traces = .ok () ↔
      ∀ t ∈ traces, 0 < t.length ∧ t.length = expected := by
  induction traces with
  | nil => simp [checkLengths]
  | cons t rest ih =>
    have empty : t.isEmpty = true ↔ t.length = 0 := by simp [Trace.isEmpty, Trace.length]
    rw [checkLengths, List.forall_mem_cons, ← ih]
    split
    · have : ¬ 0 < t.length := by have := empty.mp ‹_›; omega
      simp [this]
    · have positive : 0 < t.length := by have := mt empty.mpr ‹_›; omega
      split <;> simp_all

theorem commonLength_eq_ok {c : Circuit} {n : Nat} :
    c.commonLength = .ok n ↔
      c.stimuli ≠ [] ∧ 0 < n ∧ ∀ t ∈ c.stimuli, t.length = n := by
  rw [commonLength]
  cases stimuli : c.stimuli with
  | nil => simp
  | cons first rest =>
    rw [bind_eq_ok_iff]
    constructor
    · rintro ⟨_, checked, result⟩
      obtain rfl : first.length = n := Except.ok.inj result
      have each := checkLengths_eq_ok.mp checked
      exact ⟨by simp, (each first List.mem_cons_self).1, fun t member => (each t member).2⟩
    · rintro ⟨-, positive, lengths⟩
      have same := lengths first List.mem_cons_self
      refine ⟨(), checkLengths_eq_ok.mpr fun t member => ?_, by rw [same]; rfl⟩
      rw [lengths t member, same]
      exact ⟨positive, rfl⟩

theorem checkDepths_eq_ok {updates : List Update} :
    checkDepths updates = .ok () ↔ ∀ u ∈ updates, u.expr.depth ≤ Expr.depthLimit := by
  induction updates with
  | nil => simp [checkDepths]
  | cons u rest ih =>
    rw [checkDepths, List.forall_mem_cons, ← ih]
    split
    · have : ¬ u.expr.depth ≤ Expr.depthLimit := by omega
      simp [this]
    · have : u.expr.depth ≤ Expr.depthLimit := by omega
      simp [this]

theorem checkStimuli_eq_ok {c : Circuit} {traces : List Trace} :
    c.checkStimuli traces = .ok () ↔
      ∀ t ∈ traces, t.signal ∈ c.inputs ∧ t.isComplete = true := by
  induction traces with
  | nil => simp [checkStimuli]
  | cons t rest ih =>
    have declared : c.isInput t.signal = true ↔ t.signal ∈ c.inputs := by simp [isInput]
    rw [checkStimuli, List.forall_mem_cons, ← ih, ← Trace.firstUnset?_eq_none, ← declared]
    cases c.isInput t.signal <;> cases t.firstUnset? <;> simp

theorem validate_eq_ok {c : Circuit} {n : Nat} : c.validate = .ok n ↔ c.Validated n := by
  simp only [validate, bind_eq_ok_iff]
  constructor
  · rintro ⟨_, names, length, common, _, depths, _, stimuli, result⟩
    obtain rfl : length = n := Except.ok.inj result
    obtain ⟨supplied, positive, lengths⟩ := commonLength_eq_ok.mp common
    have each := checkStimuli_eq_ok.mp stimuli
    exact ⟨checkNames_eq_ok.mp names, supplied, positive, lengths, checkDepths_eq_ok.mp depths,
      fun t member => (each t member).1, fun t member => (each t member).2⟩
  · intro valid
    refine ⟨(), checkNames_eq_ok.mpr valid.distinct, n,
      commonLength_eq_ok.mpr ⟨valid.supplied, valid.positive, valid.lengths⟩, (),
      checkDepths_eq_ok.mpr valid.shallow, (), checkStimuli_eq_ok.mpr ?_, rfl⟩
    exact fun t member => ⟨valid.inputs t member, valid.complete t member⟩

theorem Validated.unique {c : Circuit} {n m : Nat} (valid : c.Validated n)
    (again : c.Validated m) : m = n :=
  Except.ok.inj ((validate_eq_ok.mpr again).symm.trans (validate_eq_ok.mpr valid))

end Circuit
end LatchSim
