import LatchSim.Proofs.Latch
import LatchSim.Proofs.Update

/-!
# What actions report

Every entry of a latch or an update announces a write. Actions of latches and updates report
all that they write, and nothing else: `Outcome.Journals`.
-/

namespace LatchSim

/-- The write that an entry announces. -/
def Entry.write? : Entry → Option Binding
  | .latch output _ value => some (output, value)
  | .update name value => some (name, value)
  | .simulating _ | .firstCycle _ | .cycle _ | .finished .. | .failed .. => none

/-- The writes that a log announces. -/
def Entry.written (log : List Entry) : List Binding := log.filterMap Entry.write?

@[simp] theorem Entry.written_append (log more : List Entry) :
    Entry.written (log ++ more) = Entry.written log ++ Entry.written more :=
  List.filterMap_append

/-! ## Actions that keep the journal -/

/-- An action reports all that it writes, and nothing else. -/
structure Outcome.Journals (s : Store) (o : Outcome) : Prop where
  store : o.store = s.setAll (Entry.written o.log)
  writes : ∀ entry ∈ o.log, entry.write?.isSome = true

namespace Outcome.Journals

theorem done (s : Store) : (Outcome.done s).Journals s := ⟨rfl, by simp [Outcome.done]⟩

theorem stopped (s : Store) (fault : Fault) : (Outcome.stopped s fault).Journals s :=
  ⟨rfl, by simp [Outcome.stopped]⟩

theorem write {s : Store} {name : String} {value : Bool} {entry : Entry}
    (announced : entry.write? = some (name, value)) :
    (Outcome.write s name value entry).Journals s := by
  constructor <;> simp [Outcome.write, Entry.written, announced]

theorem andThen {s : Store} {o : Outcome} {next : Store → Outcome} (first : o.Journals s)
    (second : ∀ s, (next s).Journals s) : (o.andThen next).Journals s := by
  unfold Outcome.andThen
  split
  · exact first
  · have later := second o.store
    constructor
    · rw [Entry.written_append, Store.setAll_append, ← first.store]
      exact later.store
    · intro entry member
      exact (List.mem_append.mp member).elim (first.writes entry) (later.writes entry)

end Outcome.Journals

theorem Latch.storeAll_journals (samples : List (Latch × Bool)) (s : Store) :
    (Latch.storeAll samples s).Journals s := by
  induction samples generalizing s with
  | nil => exact .done s
  | cons p rest ih => exact .andThen (.write rfl) ih

theorem Latch.advanceAll_journals (latches : List Latch) (s : Store) :
    (Latch.advanceAll latches s).Journals s := by
  unfold Latch.advanceAll
  split
  · exact .stopped s _
  · exact Latch.storeAll_journals _ s

theorem Update.apply_cases (u : Update) (s : Store) :
    (∃ fault, u.apply s = .stopped s fault) ∨
      ∃ value, u.apply s = .write s u.name value (.update u.name value) := by
  unfold Update.apply
  split
  · exact .inl ⟨_, rfl⟩
  · split
    · exact .inl ⟨_, rfl⟩
    · exact .inr ⟨_, rfl⟩

theorem Update.applyAll_journals (updates : List Update) (s : Store) :
    (Update.applyAll updates s).Journals s := by
  induction updates generalizing s with
  | nil => exact .done s
  | cons u rest ih =>
    refine .andThen ?_ ih
    rcases u.apply_cases s with ⟨fault, stopped⟩ | ⟨value, wrote⟩
    · rw [stopped]
      exact .stopped s fault
    · rw [wrote]
      exact .write rfl

end LatchSim
