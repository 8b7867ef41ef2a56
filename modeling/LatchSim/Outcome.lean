import LatchSim.Log

/-!
# Outcomes

What an action on a store leaves behind. Actions follow each other by `Outcome.andThen`,
which stops at the first fault and keeps what was written and reported before it.
-/

namespace LatchSim

/-- The store, the entries made on the way, and the fault that stopped the action. -/
structure Outcome where
  store : Store
  log : List Entry
  fault? : Option Fault
  deriving DecidableEq

namespace Outcome

def done (s : Store) : Outcome := ⟨s, [], none⟩

def stopped (s : Store) (fault : Fault) : Outcome := ⟨s, [], some fault⟩

/-- Writes one name and reports it. -/
def write (s : Store) (name : String) (value : Bool) (entry : Entry) : Outcome :=
  ⟨s.set name value, [entry], none⟩

/-- Goes on with another action unless a fault has stopped this one. -/
def andThen (o : Outcome) (next : Store → Outcome) : Outcome :=
  match o.fault? with
  | some _ => o
  | none => { next o.store with log := o.log ++ (next o.store).log }

@[simp] theorem done_andThen (s : Store) (next : Store → Outcome) :
    (done s).andThen next = next s := by simp [andThen, done]

@[simp] theorem stopped_andThen (s : Store) (fault : Fault) (next : Store → Outcome) :
    (stopped s fault).andThen next = stopped s fault := rfl

@[simp] theorem write_andThen (s : Store) (name : String) (value : Bool) (entry : Entry)
    (next : Store → Outcome) :
    (write s name value entry).andThen next =
      { next (s.set name value) with log := entry :: (next (s.set name value)).log } := rfl

theorem andThen_assoc (o : Outcome) (first second : Store → Outcome) :
    (o.andThen first).andThen second = o.andThen fun s => (first s).andThen second := by
  obtain ⟨s, log, fault?⟩ := o
  cases fault? with
  | some fault => rfl
  | none => cases h : (first s).fault? <;> simp [andThen, h]

end Outcome
end LatchSim
