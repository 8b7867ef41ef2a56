import LatchSim.Fault

/-!
# Stores seen as a whole

`Store.view` reads a store as a total valuation, `Store.setAll` makes a list of writes, and
`Store.require` answers a value that depends on names which must all be bound. Everything
that a cycle does to a store is said with these three: `Store.get?_setAll` tells which of
the writes stays, `Store.require_bind` which of the unbound names is reported.
-/

namespace LatchSim.Store

/-- What a store binds; every other name is low. -/
def view (s : Store) (name : String) : Bool := (s.get? name).getD false

/-- Makes the writes of a list in order. -/
def setAll (s : Store) (bindings : List Binding) : Store :=
  bindings.foldl (fun s b => s.set b.1 b.2) s

/-- Answers a value, or the fault of the first of the names that is unbound. -/
def require (s : Store) (names : List String) (value : α) : Except Fault α :=
  match names.find? fun name => ! s.contains name with
  | some name => .error (.undefined name)
  | none => .ok value

/-! ## Views -/

theorem get?_of_contains {s : Store} {name : String} (bound : s.contains name = true) :
    s.get? name = some (s.view name) := by
  obtain ⟨value, found⟩ := Option.isSome_iff_exists.mp bound
  simp [view, found]

theorem get?_of_not_contains {s : Store} {name : String} (unbound : ¬ s.contains name = true) :
    s.get? name = none := by
  simpa [contains] using unbound

theorem view_of_get? {s : Store} {name : String} {value : Bool}
    (found : s.get? name = some value) : s.view name = value := by
  simp [view, found]

theorem view_set (s : Store) (name other : String) (value : Bool) :
    (s.set name value).view other = if other = name then value else s.view other := by
  by_cases same : other = name <;> simp [view, same]

theorem contains_set_iff {s : Store} {name other : String} {value : Bool} :
    (s.set name value).contains other = true ↔ other = name ∨ s.contains other = true := by
  simp [contains_set]

theorem read_eq_view {s : Store} {name : String} (bound : s.contains name = true) :
    s.read name = .ok (s.view name) :=
  read_eq_ok.mpr (get?_of_contains bound)

/-- Writing the value that a name is bound to changes nothing. -/
theorem set_eq_self {s : Store} {name : String} {value : Bool}
    (held : s.get? name = some value) : s.set name value = s := by
  refine ext_get? fun other => ?_
  rw [get?_set]
  by_cases same : other = name
  · rw [if_pos same, same, held]
  · rw [if_neg same]

/-! ## Lists of writes -/

@[simp] theorem setAll_nil (s : Store) : s.setAll [] = s := rfl

@[simp] theorem setAll_cons (s : Store) (b : Binding) (bindings : List Binding) :
    s.setAll (b :: bindings) = (s.set b.1 b.2).setAll bindings := rfl

theorem setAll_append (s : Store) (first second : List Binding) :
    s.setAll (first ++ second) = (s.setAll first).setAll second :=
  List.foldl_append

/-- The last write to a name is the one that stays. -/
theorem get?_setAll (s : Store) (bindings : List Binding) (name : String) :
    (s.setAll bindings).get? name = (bindings.reverse.lookup name).or (s.get? name) := by
  induction bindings generalizing s with
  | nil => simp
  | cons b rest ih =>
    obtain ⟨written, value⟩ := b
    rw [setAll_cons, ih, get?_set, List.reverse_cons, List.lookup_append, Option.or_assoc,
      Binding.lookup_cons]
    by_cases same : name = written <;> simp [same]

theorem contains_setAll {s : Store} {bindings : List Binding} {name : String} :
    (s.setAll bindings).contains name = true ↔
      name ∈ bindings.map (·.1) ∨ s.contains name = true := by
  induction bindings generalizing s with
  | nil => simp
  | cons b rest ih =>
    rw [setAll_cons, ih, contains_set_iff, List.map_cons, List.mem_cons]
    constructor
    · rintro (later | same | before)
      · exact .inl (.inr later)
      · exact .inl (.inl same)
      · exact .inr before
    · rintro ((same | later) | before)
      · exact .inr (.inl same)
      · exact .inl later
      · exact .inr (.inr before)

/-- A name that no write touches keeps its binding. -/
theorem get?_setAll_other {s : Store} {bindings : List Binding} {name : String}
    (untouched : name ∉ bindings.map (·.1)) : (s.setAll bindings).get? name = s.get? name := by
  induction bindings generalizing s with
  | nil => rfl
  | cons b rest ih =>
    rw [List.map_cons, List.mem_cons, not_or] at untouched
    rw [setAll_cons, ih untouched.2, get?_set, if_neg untouched.1]

/-- Two stores agree after the same writes on the written names and where they did before. -/
theorem get?_setAll_congr {s t : Store} {bindings : List Binding} {name : String}
    (same : name ∈ bindings.map (·.1) ∨ s.get? name = t.get? name) :
    (s.setAll bindings).get? name = (t.setAll bindings).get? name := by
  induction bindings generalizing s t with
  | nil => exact same.resolve_left List.not_mem_nil
  | cons b rest ih =>
    rw [setAll_cons, setAll_cons]
    refine ih ?_
    simp only [get?_set]
    by_cases written : name = b.1
    · exact .inr (by rw [if_pos written, if_pos written])
    · rw [if_neg written, if_neg written]
      exact same.imp_left fun member => (List.mem_cons.mp member).resolve_left written

/-- Where every name is written once, every write stays. -/
theorem get?_setAll_mem {s : Store} {bindings : List Binding} {b : Binding}
    (distinct : (bindings.map (·.1)).Nodup) (member : b ∈ bindings) :
    (s.setAll bindings).get? b.1 = some b.2 := by
  induction bindings generalizing s with
  | nil => cases member
  | cons first rest ih =>
    obtain ⟨fresh, distinct⟩ := List.nodup_cons.mp distinct
    rw [setAll_cons]
    rcases List.mem_cons.mp member with rfl | member
    · rw [get?_setAll_other fresh, get?_set, if_pos rfl]
    · exact ih distinct member

/-! ## Bound names -/

theorem mem_names {s : Store} {name : String} : name ∈ s.names ↔ s.contains name = true := by
  simp [names, contains, get?, List.lookup_isSome_iff]

theorem names_ordered (s : Store) : s.names.Pairwise (· < ·) := List.pairwise_map.mpr s.ordered

theorem names_nodup (s : Store) : s.names.Nodup := by
  refine s.names_ordered.imp fun before same => ?_
  subst same
  exact String.lt_irrefl _ before

/-! ## Required names -/

theorem require_eq_ok {s : Store} {names : List String} {value result : α} :
    s.require names value = .ok result ↔
      (∀ name ∈ names, s.contains name = true) ∧ value = result := by
  cases found : names.find? fun name => ! s.contains name with
  | none =>
    have bound : ∀ name ∈ names, s.contains name = true := by simpa using found
    simpa [require, found] using fun _ => bound
  | some name =>
    have unbound : s.contains name = false := by simpa using List.find?_some found
    have missing : ¬ ∀ name ∈ names, s.contains name = true := fun bound => by
      simp [bound name (List.mem_of_find?_eq_some found)] at unbound
    simp only [require, found, missing, reduceCtorEq, false_and]

theorem require_of_contains {s : Store} {names : List String} (value : α)
    (bound : ∀ name ∈ names, s.contains name = true) : s.require names value = .ok value :=
  require_eq_ok.mpr ⟨bound, rfl⟩

theorem require_eq_error {s : Store} {names : List String} {value : α} {fault : Fault} :
    s.require names value = .error fault ↔
      ∃ name, names.find? (fun name => ! s.contains name) = some name ∧
        .undefined name = fault := by
  cases found : names.find? fun name => ! s.contains name <;> simp [require, found]

/-- Names required one list after the other are required as one list. -/
theorem require_bind (s : Store) (first second : List String) (value : α) (next : α → β) :
    (s.require first value >>= fun x => s.require second (next x)) =
      s.require (first ++ second) (next value) := by
  cases found : first.find? fun name => ! s.contains name <;>
    simp [require, found, List.find?_append, bind, Except.bind]

theorem require_map (s : Store) (names : List String) (value : α) (next : α → β) :
    (s.require names value >>= fun x => .ok (next x)) = s.require names (next value) := by
  cases found : names.find? fun name => ! s.contains name <;>
    simp [require, found, bind, Except.bind]

theorem read_eq_require (s : Store) (name : String) :
    s.read name = s.require [name] (s.view name) := by
  by_cases bound : s.contains name = true
  · rw [read_eq_view bound, require_of_contains _ (by simpa using bound)]
  · simp [read, require, get?_of_not_contains bound, bound]

end LatchSim.Store
