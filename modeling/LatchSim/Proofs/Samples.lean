import LatchSim.Proofs.Verdict
import LatchSim.Proofs.Writes

/-!
# Traces that are written to

Writes to a trace may go to any cycles; those past the end are refused and change nothing, also
between others. So a trace keeps its length, each of its samples is the last that was written
or the one that was there before, and it is complete as soon as there is a sample for every
cycle: `Trace.after_buffered`.
-/

namespace LatchSim.Trace

variable {t : Trace} {cycle : Nat} {value : Bool}

/-- The trace behind a write. A write that is refused leaves it as it was. -/
def write (t : Trace) (cycle : Nat) (value : Bool) : Trace :=
  match t.set cycle value with
  | .ok next => next
  | .error _ => t

/-- The trace behind a list of writes, whatever their answers. -/
def after : Trace → List (Nat × Bool) → Trace
  | t, [] => t
  | t, (cycle, value) :: rest => (t.write cycle value).after rest

/-- Those of a list of writes that go well. -/
def accepted : Trace → List (Nat × Bool) → List (Nat × Bool)
  | _, [] => []
  | t, (cycle, value) :: rest =>
    match t.set cycle value with
    | .ok next => (cycle, value) :: next.accepted rest
    | .error _ => t.accepted rest

/-! ## One write -/

theorem set_of_inside (inside : cycle < t.length) (value : Bool) :
    t.set cycle value = .ok { t with values := t.values.set cycle (some value) } :=
  set_eq_ok.mpr ⟨inside, rfl⟩

theorem set_of_outside (outside : t.length ≤ cycle) (value : Bool) :
    t.set cycle value = .error (.cycleOutOfRange t.signal cycle t.length) :=
  if_neg (Nat.not_lt.mpr outside)

theorem write_signal (t : Trace) (cycle : Nat) (value : Bool) :
    (t.write cycle value).signal = t.signal := by
  rcases Nat.lt_or_ge cycle t.length with inside | outside
  · simp [write, set_of_inside inside]
  · simp [write, set_of_outside outside]

theorem write_length (t : Trace) (cycle : Nat) (value : Bool) :
    (t.write cycle value).length = t.length := by
  rcases Nat.lt_or_ge cycle t.length with inside | outside
  · simp [write, set_of_inside inside, length]
  · simp [write, set_of_outside outside]

theorem get?_of_outside (outside : t.length ≤ cycle) : t.get? cycle = none := by
  simp [get?, List.getElem?_eq_none outside]

/-! ## All writes -/

variable {writes : List (Nat × Bool)}

theorem after_signal (t : Trace) (writes : List (Nat × Bool)) :
    (t.after writes).signal = t.signal := by
  induction writes generalizing t with
  | nil => rfl
  | cons w rest ih => rw [after, ih, write_signal]

theorem after_length (t : Trace) (writes : List (Nat × Bool)) :
    (t.after writes).length = t.length := by
  induction writes generalizing t with
  | nil => rfl
  | cons w rest ih => rw [after, ih, write_length]

theorem after_concat (t : Trace) (writes : List (Nat × Bool)) (cycle : Nat) (value : Bool) :
    t.after (writes ++ [(cycle, value)]) = (t.after writes).write cycle value := by
  induction writes generalizing t with
  | nil => rfl
  | cons w rest ih => exact ih _

/-- A sample is the one that was accepted last for its cycle, or else the first one. -/
theorem get?_after (t : Trace) (writes : List (Nat × Bool)) (cycle : Nat) :
    (t.after writes).get? cycle =
      ((t.accepted writes).reverse.lookup cycle).or (t.get? cycle) := by
  induction writes generalizing t with
  | nil => rfl
  | cons w rest ih =>
    obtain ⟨written, value⟩ := w
    cases answer : t.set written value with
    | error fault => simp only [after, write, accepted, answer, ih]
    | ok next =>
      simp only [after, write, accepted, answer, ih, get?_set answer, List.reverse_cons,
        List.lookup_append, Option.or_assoc]
      by_cases same : cycle = written
      · simp [same]
      · simp [same, List.lookup_cons, beq_false_of_ne same]

/-- Where the trace had no sample, it has one just if a write to the cycle was accepted. -/
theorem isSome_get?_after (unset : t.get? cycle = none) :
    ((t.after writes).get? cycle).isSome = true ↔ cycle ∈ (t.accepted writes).map (·.1) := by
  rw [get?_after, unset, Option.or_none, isSome_lookup_iff]

/-- What a trace is like behind a list of writes. -/
structure Buffered (t : Trace) (writes : List (Nat × Bool)) : Prop where
  signal : (t.after writes).signal = t.signal
  length : (t.after writes).length = t.length
  /-- Another write is accepted at the cycles of the trace only; elsewhere it changes nothing. -/
  accepts : ∀ cycle value, (∃ next, (t.after writes).set cycle value = .ok next) ↔
    cycle < t.length
  refuses : ∀ cycle value, ¬ cycle < t.length →
    (t.after writes).set cycle value = .error (.cycleOutOfRange t.signal cycle t.length) ∧
      t.after (writes ++ [(cycle, value)]) = t.after writes
  last : ∀ cycle value, LastWrite (t.accepted writes) cycle value →
    (t.after writes).get? cycle = some value
  kept : ∀ cycle, cycle ∉ (t.accepted writes).map (·.1) →
    (t.after writes).get? cycle = t.get? cycle
  outside : ∀ cycle, t.length ≤ cycle → (t.after writes).get? cycle = none
  complete : (t.after writes).isComplete = true ↔
    ∀ cycle < t.length, ((t.after writes).get? cycle).isSome = true
  /-- If there have been no samples, the writes have to supply them all. -/
  supplied : ∀ signal length, t = unset signal length →
    ((t.after writes).isComplete = true ↔
      ∀ cycle < length, cycle ∈ (t.accepted writes).map (·.1))

/-- A trace is a buffer of fixed length, whatever is written to it. -/
theorem after_buffered (t : Trace) (writes : List (Nat × Bool)) : t.Buffered writes where
  signal := t.after_signal writes
  length := t.after_length writes
  accepts cycle value := by simp [set_eq_ok, after_length]
  refuses cycle value outside := by
    have past : (t.after writes).length ≤ cycle := by rwa [after_length, ← Nat.not_lt]
    rw [after_concat, write, set_of_outside past, after_signal, after_length]
    exact ⟨rfl, rfl⟩
  last cycle value last := by rw [get?_after, lastWrite_iff_lookup.mp last, Option.some_or]
  kept cycle untouched := by
    rw [← isSome_lookup_iff, Option.not_isSome_iff_eq_none] at untouched
    rw [get?_after, untouched, Option.none_or]
  outside cycle outside := get?_of_outside (by rwa [after_length])
  complete := by rw [isComplete_iff, after_length]
  supplied signal length unset := by
    subst unset
    simp only [isComplete_iff, after_length, length_unset, isSome_get?_after (get?_unset ..)]

end LatchSim.Trace
