/-!
# Lists of writes

`LastWrite` tells with which value a list of writes leaves a key, whatever it is that the writes
go to.
-/

namespace LatchSim

variable {α β : Type} {writes : List (α × β)} {key : α} {value : β}

/-- The last write to the key has this value. -/
def LastWrite (writes : List (α × β)) (key : α) (value : β) : Prop :=
  ∃ before after, writes = before ++ (key, value) :: after ∧ key ∉ after.map (·.1)

variable [BEq α] [LawfulBEq α]

theorem lastWrite_iff_lookup :
    LastWrite writes key value ↔ writes.reverse.lookup key = some value := by
  rw [List.lookup_eq_some_iff]
  constructor
  · rintro ⟨before, after, rfl, others⟩
    refine ⟨after.reverse, before.reverse, by simp, fun w member => ?_⟩
    have other : w.1 ∈ after.map (·.1) := List.mem_map_of_mem (List.mem_reverse.mp member)
    exact bne_iff_ne.mpr fun same => others (same ▸ other)
  · rintro ⟨after, before, split, others⟩
    refine ⟨before.reverse, after.reverse, ?_, fun member => ?_⟩
    · rw [← List.reverse_reverse writes, split]
      simp
    · obtain ⟨w, inside, rfl⟩ := List.mem_map.mp member
      exact bne_iff_ne.mp (others w (List.mem_reverse.mp inside)) rfl

/-- A key that has been written to is looked up among the writes. -/
theorem isSome_lookup_iff :
    (writes.reverse.lookup key).isSome = true ↔ key ∈ writes.map (·.1) := by
  simp [List.lookup_isSome_iff]

end LatchSim
