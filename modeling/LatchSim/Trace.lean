import LatchSim.Fault

/-!
# Traces

A trace has a fixed number of samples of one signal, some of which may be unset. Reading
past the end finds nothing; writing there is a fault and changes nothing.
-/

namespace LatchSim

structure Trace where
  signal : String
  values : List (Option Bool)
  deriving DecidableEq

namespace Trace

def ofBools (signal : String) (values : List Bool) : Trace := ⟨signal, values.map some⟩

def unset (signal : String) (length : Nat) : Trace := ⟨signal, List.replicate length none⟩

def length (t : Trace) : Nat := t.values.length

def isEmpty (t : Trace) : Bool := t.values.isEmpty

def get? (t : Trace) (cycle : Nat) : Option Bool := t.values[cycle]?.join

def set (t : Trace) (cycle : Nat) (value : Bool) : Except Fault Trace :=
  if cycle < t.length then .ok { t with values := t.values.set cycle (some value) }
  else .error (.cycleOutOfRange t.signal cycle t.length)

def isComplete (t : Trace) : Bool := t.values.all Option.isSome

/-- The first cycle without a value. -/
def firstUnset? (t : Trace) : Option Nat := t.values.findIdx? Option.isNone

@[simp] theorem length_unset (signal : String) (length : Nat) :
    (unset signal length).length = length := by simp [unset, Trace.length]

@[simp] theorem get?_unset (signal : String) (length cycle : Nat) :
    (unset signal length).get? cycle = none := by
  by_cases h : cycle < length <;> simp [unset, get?, h]

theorem set_eq_ok {t u : Trace} {cycle : Nat} {value : Bool} :
    t.set cycle value = .ok u ↔
      cycle < t.length ∧ { t with values := t.values.set cycle (some value) } = u := by
  by_cases h : cycle < t.length <;> simp [set, h]

/-- A write changes one sample and no other. -/
theorem get?_set {t u : Trace} {cycle : Nat} {value : Bool} (h : t.set cycle value = .ok u)
    (other : Nat) : u.get? other = if other = cycle then some value else t.get? other := by
  obtain ⟨inside, rfl⟩ := set_eq_ok.mp h
  by_cases same : cycle = other
  · subst same
    simp [get?, List.getElem?_set_self inside]
  · simp [get?, List.getElem?_set_ne same, Ne.symm same]

end Trace
end LatchSim
