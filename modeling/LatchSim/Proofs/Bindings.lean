import Mathlib.Data.List.Dedup
import LatchSim.Proofs.Journal
import LatchSim.Proofs.Signals

/-!
# Which names are bound

The first cycle binds the traced signals, the latch outputs and the update targets, and no
later cycle binds another name or gives one up: `Reachable.names_fixed`. A call that fails may
have bound only some of them, and those stay bound too.
-/

namespace LatchSim

variable {c : Circuit} {sim : Simulator} {n t k j last : Nat} {name : String}

namespace Circuit

/-- The names that a circuit binds: each traced signal once, and all latches and updates. -/
def boundNames (c : Circuit) : List String :=
  (c.stimuli.map (·.signal)).dedup ++ (Latch.outputs c.latches ++ Update.targets c.updates)

theorem mem_boundNames : name ∈ c.boundNames ↔ name ∈ c.bound := by
  simp [boundNames, bound, sources]

theorem boundNames_length (c : Circuit) : c.boundNames.length =
    (c.stimuli.map (·.signal)).dedup.length + c.latches.length + c.updates.length := by
  simp [boundNames, Latch.outputs, Update.targets, Nat.add_assoc]

namespace Validated

variable (valid : c.Validated n)

include valid

theorem boundNames_nodup : c.boundNames.Nodup := by
  refine List.nodup_append.mpr ⟨List.nodup_dedup _, ?_, ?_⟩
  · refine List.nodup_append.mpr ⟨valid.outputs_nodup, valid.targets_nodup, ?_⟩
    rintro name output _ target rfl
    exact valid.source_not_target (List.mem_append_right _ output) target
  · rintro name stimulus _ other rfl
    have input := valid.stimulus_input (List.mem_dedup.mp stimulus)
    rcases List.mem_append.mp other with output | target
    · exact valid.input_not_output input output
    · exact valid.input_not_target input target

theorem untraced_not_bound (input : name ∈ c.inputs)
    (untraced : name ∉ c.stimuli.map (·.signal)) : name ∉ c.bound := by
  intro bound
  rcases List.mem_append.mp bound with source | target
  · exact (List.mem_append.mp source).elim untraced (valid.input_not_output input)
  · exact valid.input_not_target input target

end Validated

/-! ## Along the chain -/

theorem mem_bound_of_progress {count : Nat} (member : name ∈ c.progress t count) :
    name ∈ c.bound := by
  rcases List.mem_append.mp member with output | target
  · refine mem_bound_of_source (List.mem_append_right _ ?_)
    split at output
    · cases output
    · exact output
  · obtain ⟨u, inside, rfl⟩ := List.mem_map.mp target
    exact List.mem_append_right _ (List.mem_map_of_mem (List.mem_of_mem_take inside))

/-- Also a cycle that fails has written to names of the circuit only. -/
theorem Ending.mem_bound {reply : Reply Unit} (ending : c.Ending t reply)
    (member : name ∈ Entry.writtenNames reply.log) : name ∈ c.bound := by
  cases ending with
  | completed _ wrote | update _ _ _ _ _ _ wrote | snapshot _ _ _ wrote =>
    rw [wrote] at member
    exact mem_bound_of_progress member
  | latch _ _ _ _ wrote =>
    rw [Entry.writtenNames, wrote] at member
    cases member

theorem opened_eq_setAll (c : Circuit) (t : Nat) (s : Store) : ∃ writes : List Binding,
    c.opened t s = s.setAll writes ∧ ∀ b ∈ writes, b.1 ∈ c.sources := by
  refine ⟨samples t c.stimuli ++ if t = 0 then Latch.resets c.latches else [],
    (Store.setAll_append _ _ _).symm, fun b member => ?_⟩
  rcases List.mem_append.mp member with sample | reset
  · have named := List.mem_map_of_mem (f := Prod.fst) sample
    rw [samples_names] at named
    exact List.mem_append_left _ named
  · split at reset
    · have named := List.mem_map_of_mem (f := Prod.fst) reset
      rw [Latch.resets_names] at named
      exact List.mem_append_right _ named
    · cases reset

/-- From one place of the chain to the next, names of the circuit are written, if it is
accepted, and nothing else happens to the store. -/
theorem EndsAt.chain_store (ends : c.EndsAt last) (inside : k < last) : ∃ writes : List Binding,
    (c.chain (k + 1)).store = (c.chain k).store.setAll writes ∧
      ∀ b ∈ writes, b.1 ∈ c.bound ∧ ∃ n, c.Validated n := by
  have next : c.chain (k + 1) = (c.attempt k).simulator := rfl
  rcases ends.attempt_eq inside with
    ⟨fault, rfl, _, reply⟩ | ⟨n, sim, opening, valid, more, _, own, reply⟩
  · refine ⟨[], ?_, fun b member => nomatch member⟩
    rw [next, reply]
    rfl
  · have journal := Journal.complete valid more own sim (c.chain k).store
    obtain ⟨opens, opened, sources⟩ := c.opened_eq_setAll k (c.chain k).store
    rw [← reply] at journal
    refine ⟨opens ++ Entry.written (c.attempt k).log, ?_, fun b member => ⟨?_, n, valid⟩⟩
    · rw [next, journal.store, opened, Store.setAll_append]
    · rcases List.mem_append.mp member with opening | written
      · exact mem_bound_of_source (sources b opening)
      · exact journal.ending.mem_bound (List.mem_map_of_mem written)

theorem EndsAt.contains_succ (ends : c.EndsAt last) (inside : k < last)
    (held : (c.chain k).store.contains name = true) :
    (c.chain (k + 1)).store.contains name = true := by
  obtain ⟨writes, store, _⟩ := ends.chain_store inside
  rw [store]
  exact Store.contains_setAll.mpr (.inr held)

/-- Along the chain names are never given up. -/
theorem EndsAt.contains_mono (ends : c.EndsAt last) (forward : k ≤ j) (inside : j ≤ last)
    (held : (c.chain k).store.contains name = true) :
    (c.chain j).store.contains name = true := by
  induction forward with
  | refl => exact held
  | step _ ih => exact ends.contains_succ inside (ih (Nat.le_of_succ_le inside))

/-- Along the chain the names of the circuit are bound, if it is accepted, and no others. -/
theorem EndsAt.mem_bound (ends : c.EndsAt last) (inside : k ≤ last)
    (held : (c.chain k).store.contains name = true) : name ∈ c.bound ∧ ∃ n, c.Validated n := by
  induction k with
  | zero => cases held
  | succ k ih =>
    obtain ⟨writes, store, names⟩ := ends.chain_store inside
    rw [store] at held
    rcases Store.contains_setAll.mp held with written | before
    · obtain ⟨b, member, rfl⟩ := List.mem_map.mp written
      exact names b member
    · exact ih (Nat.le_of_succ_le inside) before

/-- Any calls lead forward along the chain. -/
theorem EndsAt.after_forward (ends : c.EndsAt last) (inside : k ≤ last) (calls : List Call) :
    ∃ j, k ≤ j ∧ j ≤ last ∧ (c.chain k).after calls = c.chain j := by
  induction calls generalizing k with
  | nil => exact ⟨k, Nat.le_refl k, inside, rfl⟩
  | cons call rest ih =>
    obtain ⟨i, first, inside, moved⟩ := ends.reply_forward call inside
    obtain ⟨j, second, inside, later⟩ := ih inside
    rw [Simulator.after, moved]
    exact ⟨j, Nat.le_trans first second, inside, later⟩

/-! ## The names of a simulator -/

/-- Which names a simulator binds. -/
structure Binds (c : Circuit) (sim : Simulator) : Prop where
  /-- Neither fresh nor failed, it binds the traced signals, the latch outputs and the update
  targets, -/
  contains : sim.phase ≠ .fresh → sim.phase ≠ .failed → ∀ name,
    sim.store.contains name = true ↔ name ∈ c.stimuli.map (·.signal) ∨
      name ∈ c.latches.map (·.output) ∨ name ∈ c.updates.map (·.name)
  /-- lists them all without a repetition, in increasing order, -/
  names : sim.phase ≠ .fresh → sim.phase ≠ .failed → sim.store.names.Perm c.boundNames
  ordered : sim.store.names.Pairwise (· < ·)
  /-- and counts a signal with several traces once. -/
  signals : sim.phase ≠ .fresh → sim.phase ≠ .failed → sim.stats.signals =
    (c.stimuli.map (·.signal)).dedup.length + sim.stats.latches + sim.stats.updates
  /-- An input without a trace is bound in no phase. -/
  untraced : ∀ name ∈ c.inputs, name ∉ c.stimuli.map (·.signal) →
    sim.store.contains name = false
  /-- No calls, in or out of order, that go well or fail, take a name back. -/
  kept : ∀ calls name, sim.store.contains name = true →
    (sim.after calls).store.contains name = true

end Circuit

theorem Circuit.Completes.names_perm (done : c.Completes n t) :
    (c.simulatorAfter n t).store.names.Perm c.boundNames := by
  refine (List.perm_ext_iff_of_nodup (Store.names_nodup _) done.valid.boundNames_nodup).mpr ?_
  intro name
  rw [Store.mem_names, mem_boundNames]
  exact contains_storeAfter

/-- However it has been driven, a simulator binds the names of its circuit. -/
theorem Reachable.names_fixed (reach : Reachable c sim) : c.Binds sim where
  contains begun unfailed name := by
    cases reach.stage with
    | fresh => exact absurd rfl begun
    | after done =>
      refine Circuit.contains_storeAfter.trans ?_
      simp [Circuit.bound, Circuit.sources, Latch.outputs, Update.targets]
    | failed ended => exact absurd ended unfailed
  names begun unfailed := by
    cases reach.stage with
    | fresh => exact absurd rfl begun
    | after done => exact done.names_perm
    | failed ended => exact absurd ended unfailed
  ordered := sim.store.names_ordered
  signals begun unfailed := by
    cases reach.stage with
    | fresh => exact absurd rfl begun
    | after done =>
      have count := done.names_perm.length_eq
      rw [Store.names, List.length_map, c.boundNames_length] at count
      exact count
    | failed ended => exact absurd ended unfailed
  untraced name input untraced := by
    obtain ⟨last, k, ends, inside, rfl⟩ := Circuit.exists_place reach
    refine Bool.eq_false_iff.mpr fun held => ?_
    obtain ⟨bound, n, valid⟩ := ends.mem_bound inside held
    exact valid.untraced_not_bound input untraced bound
  kept calls name held := by
    obtain ⟨last, k, ends, inside, rfl⟩ := Circuit.exists_place reach
    obtain ⟨j, forward, inside, place⟩ := ends.after_forward inside calls
    rw [place]
    exact ends.contains_mono forward inside held

/-- One of its inputs has two traces and the other has none, and nothing binds what its latch
reads. -/
def loose : Circuit where
  name := "loose"
  inputs := ["a", "b"]
  outputs := ["q"]
  latches := [⟨"z", "q"⟩]
  updates := [⟨"d", .not (.signal "q")⟩]
  stimuli := [⟨"a", [some true, some false]⟩, ⟨"a", [some false, some true]⟩]

/-- The loose circuit after its first cycle, which is the last one that goes well. -/
def loosened : Simulator := (Simulator.ofCircuit loose).after [.start]

theorem loosened_bindings :
    Reachable loose loosened ∧ loosened.phase = .started ∧ loosened.stats.signals = 3 ∧
      loosened.store.contains "b" = false ∧ (loosened.after [.step, .run]).phase = .failed ∧
      (loosened.after [.step, .run]).store.contains "d" = true := by
  have reach : Reachable loose loosened := Reachable.fresh.calls [.start]
  have phase : loosened.phase = .started := by decide +kernel
  have failed : (loosened.after [.step, .run]).phase = .failed := by decide +kernel
  have binds := Reachable.names_fixed reach
  have held : loosened.store.contains "d" = true :=
    (binds.contains (by simp [phase]) (by simp [phase]) "d").mpr (by simp [loose])
  have count := binds.signals (by simp [phase]) (by simp [phase])
  have untraced : loosened.store.contains "b" = false :=
    binds.untraced "b" (by simp [loose]) (by simp [loose])
  exact ⟨reach, phase, count.trans (by decide +kernel), untraced, failed, binds.kept _ "d" held⟩

end LatchSim
