import Mathlib.Data.List.Dedup
import LatchSim.Proofs.Store
import LatchSim.Proofs.Text.Order
import LatchSim.Proofs.Writes

/-!
# Stores as finite maps

What has been written to a store can be told from it up to the last value of each name: neither
the order of writes to different names nor a write that another has replaced leaves a trace.
`Store.ofList_finiteMap` says so of every list of writes, and that the names are listed in the
order of their bytes.
-/

namespace LatchSim

open Text (Utf8.encode)

variable {writes : List Binding} {name : String} {value : Bool}

namespace Text

/-- The name is not behind the other in the order of bytes. -/
def byBytes (a b : String) : Bool := decide (Utf8.encode a ≤ Utf8.encode b)

@[simp] theorem byBytes_iff {a b : String} : byBytes a b = true ↔ a ≤ b := by
  simp [byBytes, Utf8.encode_le_iff]

/-- Names sorted by their bytes. -/
def sorted (names : List String) : List String := names.mergeSort byBytes

theorem sorted_pairwise (names : List String) : (sorted names).Pairwise (· ≤ ·) := by
  have pairwise : (sorted names).Pairwise fun a b => byBytes a b = true :=
    List.pairwise_mergeSort (fun a b c => by simpa using String.le_trans)
      (fun a b => by simpa using String.le_total a b) names
  exact pairwise.imp byBytes_iff.mp

/-- In whatever order the names come, sorting gives their one list in increasing order. -/
theorem sorted_eq_of_perm {names ordered : List String} (perm : names.Perm ordered)
    (increasing : ordered.Pairwise (· < ·)) : sorted names = ordered := by
  refine ((List.mergeSort_perm names _).trans perm).eq_of_pairwise ?_ (sorted_pairwise names) ?_
  · exact fun a b _ _ => String.le_antisymm
  · exact increasing.imp fun less => String.not_lt.mp (String.lt_asymm less)

end Text

namespace Store

variable {s : Store}

theorem read_eq_error {fault : Fault} :
    s.read name = .error fault ↔ ¬ s.contains name = true ∧ fault = .undefined name := by
  cases bound : s.get? name <;> simp [read, contains, bound, eq_comm]

theorem contains_iff_read : s.contains name = true ↔ ∃ value, s.read name = .ok value := by
  simp [read_eq_ok, contains, Option.isSome_iff_exists]

theorem get?_ofList : (ofList writes).get? name = some value ↔ LastWrite writes name value := by
  rw [lastWrite_iff_lookup, show ofList writes = empty.setAll writes from rfl, get?_setAll]
  simp

theorem contains_ofList : (ofList writes).contains name = true ↔ name ∈ writes.map (·.1) := by
  rw [show ofList writes = empty.setAll writes from rfl, contains_setAll]
  simp [contains]

theorem names_perm {names : List String} (distinct : names.Nodup)
    (same : ∀ name, name ∈ names ↔ s.contains name = true) : names.Perm s.names := by
  refine (List.perm_ext_iff_of_nodup distinct s.names_nodup).mpr fun name => ?_
  rw [same, mem_names]

/-- What a store tells of the writes that have been made to it. -/
structure FiniteMap (writes : List Binding) (s : Store) : Prop where
  read_ok : ∀ name value, s.read name = .ok value ↔ LastWrite writes name value
  read_error : ∀ name fault, s.read name = .error fault ↔
    name ∉ writes.map (·.1) ∧ fault = .undefined name
  contains : ∀ name, s.contains name = true ↔ ∃ value, s.read name = .ok value
  size : s.size = (writes.map (·.1)).dedup.length
  mem_names : ∀ name, name ∈ s.names ↔ name ∈ writes.map (·.1)
  increasing : s.names.Pairwise fun a b => Text.Utf8.encode a < Text.Utf8.encode b
  /-- The bound names, found in any order and sorted, are the names that are listed. -/
  sorted : ∀ names : List String, names.Nodup →
    (∀ name, name ∈ names ↔ s.contains name = true) → Text.sorted names = s.names
  /-- Other writes give the same store just if they leave every name with the same last value. -/
  ext : ∀ others, ofList others = s ↔
    ∀ name value, LastWrite others name value ↔ LastWrite writes name value

/-- Whatever is written to an empty store, the store is a finite map of the names to the last
values that were written. -/
theorem ofList_finiteMap (writes : List Binding) : FiniteMap writes (ofList writes) where
  read_ok name value := read_eq_ok.trans get?_ofList
  read_error name fault := by rw [read_eq_error, contains_ofList]
  contains name := contains_iff_read
  size := by
    have perm := names_perm (List.nodup_dedup (writes.map (·.1))) fun name => by
      rw [List.mem_dedup, contains_ofList]
    rw [perm.length_eq, names, List.length_map, size]
  mem_names name := Store.mem_names.trans contains_ofList
  increasing := (ofList writes).names_ordered.imp Text.Utf8.encode_lt
  sorted names distinct same :=
    Text.sorted_eq_of_perm (names_perm distinct same) (ofList writes).names_ordered
  ext others := by
    simp only [← get?_ofList]
    constructor
    · rintro same name value
      rw [same]
    · exact fun same => ext_get? fun name => Option.ext (same name)

end Store
end LatchSim
