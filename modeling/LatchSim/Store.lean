/-!
# Signal stores

A store binds signal names to truth values. Its bindings are kept in increasing order
of name, so a store is determined by what it binds: `Store.ext_get?`. The main law is
`Store.get?_set`: a write changes one name and no other.
-/

namespace LatchSim

abbrev Binding := String × Bool

namespace Binding

/-- Writes one name into a list of bindings ordered by name. -/
def insert (name : String) (value : Bool) : List Binding → List Binding
  | [] => [(name, value)]
  | (other, held) :: rest =>
    if name < other then (name, value) :: (other, held) :: rest
    else if name = other then (name, value) :: rest
    else (other, held) :: insert name value rest

theorem mem_insert {name : String} {value : Bool} {bindings : List Binding} {b : Binding}
    (h : b ∈ insert name value bindings) : b = (name, value) ∨ b ∈ bindings := by
  fun_induction insert name value bindings <;> grind

theorem insert_pairwise (name : String) (value : Bool) {bindings : List Binding}
    (ordered : bindings.Pairwise (·.1 < ·.1)) :
    (insert name value bindings).Pairwise (·.1 < ·.1) := by
  fun_induction insert name value bindings with
  | case1 => simp
  | case2 other held rest before =>
    refine List.pairwise_cons.mpr ⟨fun b member => ?_, ordered⟩
    rcases List.mem_cons.mp member with rfl | member
    · exact before
    · exact String.lt_trans before ((List.pairwise_cons.mp ordered).1 b member)
  | case3 held rest => exact List.pairwise_cons.mpr (List.pairwise_cons.mp ordered)
  | case4 other held rest notBefore different ih =>
    obtain ⟨least, ordered⟩ := List.pairwise_cons.mp ordered
    refine List.pairwise_cons.mpr ⟨fun b member => ?_, ih ordered⟩
    rcases mem_insert member with rfl | member
    · exact Classical.byContradiction fun after =>
        different (String.le_antisymm (String.not_lt.mp after) (String.not_lt.mp notBefore))
    · exact least b member

theorem lookup_cons (name other : String) (value : Bool) (rest : List Binding) :
    List.lookup other ((name, value) :: rest) =
      if other = name then some value else rest.lookup other := by
  by_cases h : other = name
  · simp [h]
  · simp [List.lookup_cons, beq_false_of_ne h, h]

theorem lookup_insert (name other : String) (value : Bool) (bindings : List Binding) :
    (insert name value bindings).lookup other =
      if other = name then some value else bindings.lookup other := by
  fun_induction insert name value bindings <;> grind [lookup_cons]

theorem lookup_eq_none {name : String} {bindings : List Binding}
    (below : ∀ b ∈ bindings, name < b.1) : bindings.lookup name = none := by
  induction bindings with
  | nil => rfl
  | cons b rest ih =>
    have different : name ≠ b.1 := fun same =>
      String.lt_irrefl name (same ▸ below b List.mem_cons_self)
    rw [show b = (b.1, b.2) from rfl, lookup_cons, if_neg different]
    exact ih fun c member => below c (List.mem_cons_of_mem b member)

/-- Two ordered lists with the same look-ups are the same list. -/
theorem eq_of_lookup_eq {left right : List Binding} (orderedLeft : left.Pairwise (·.1 < ·.1))
    (orderedRight : right.Pairwise (·.1 < ·.1))
    (same : ∀ name, left.lookup name = right.lookup name) : left = right := by
  induction left generalizing right with
  | nil =>
    cases right with
    | nil => rfl
    | cons b rest =>
      have := same b.1
      rw [show b = (b.1, b.2) from rfl, lookup_cons, if_pos rfl] at this
      exact absurd this (by simp)
  | cons a left ih =>
    obtain ⟨leastLeft, tailLeft⟩ := List.pairwise_cons.mp orderedLeft
    cases right with
    | nil =>
      have := same a.1
      rw [show a = (a.1, a.2) from rfl, lookup_cons, if_pos rfl] at this
      exact absurd this (by simp)
    | cons b right =>
      obtain ⟨leastRight, tailRight⟩ := List.pairwise_cons.mp orderedRight
      obtain ⟨nameA, valueA⟩ := a
      obtain ⟨nameB, valueB⟩ := b
      have noneLeft : left.lookup nameA = none := lookup_eq_none leastLeft
      have noneRight : right.lookup nameB = none := lookup_eq_none leastRight
      have names : nameA = nameB := by
        apply Classical.byContradiction
        intro different
        have atA := same nameA
        have atB := same nameB
        simp only [lookup_cons, if_true, if_neg different, if_neg (Ne.symm different)] at atA atB
        rcases String.le_total nameA nameB with le | le
        · have below : ∀ c ∈ right, nameA < c.1 := fun c member =>
            Classical.byContradiction fun after =>
              different (String.le_antisymm le (String.not_lt.mp fun lt =>
                after (String.lt_trans lt (leastRight c member))))
          rw [lookup_eq_none below] at atA
          exact absurd atA (by simp)
        · have below : ∀ c ∈ left, nameB < c.1 := fun c member =>
            Classical.byContradiction fun after =>
              different (String.le_antisymm (String.not_lt.mp fun lt =>
                after (String.lt_trans lt (leastLeft c member))) le)
          rw [lookup_eq_none below] at atB
          exact absurd atB (by simp)
      subst names
      have values := same nameA
      simp only [lookup_cons, if_true, Option.some.injEq] at values
      subst values
      refine congrArg _ (ih tailLeft tailRight fun name => ?_)
      by_cases h : name = nameA
      · rw [h, noneLeft, noneRight]
      · simpa only [lookup_cons, if_neg h] using same name

end Binding

structure Store where
  bindings : List Binding
  ordered : bindings.Pairwise (·.1 < ·.1) := by simp
  deriving DecidableEq

namespace Store

def empty : Store := { bindings := [] }

instance : Inhabited Store := ⟨empty⟩

/-- The value bound to a name; an unbound name has none. -/
def get? (s : Store) (name : String) : Option Bool := s.bindings.lookup name

def contains (s : Store) (name : String) : Bool := (s.get? name).isSome

/-- Binds a name, or replaces the value it is bound to. -/
def set (s : Store) (name : String) (value : Bool) : Store where
  bindings := Binding.insert name value s.bindings
  ordered := Binding.insert_pairwise name value s.ordered

def size (s : Store) : Nat := s.bindings.length

def isEmpty (s : Store) : Bool := s.bindings.isEmpty

/-- The bound names, in increasing order. -/
def names (s : Store) : List String := s.bindings.map (·.1)

/-- Binds the given names in order; where a name is repeated the last value stays. -/
def ofList (bindings : List Binding) : Store :=
  bindings.foldl (fun s b => s.set b.1 b.2) empty

@[simp] theorem get?_empty (name : String) : empty.get? name = none := rfl

@[simp] theorem get?_set (s : Store) (name other : String) (value : Bool) :
    (s.set name value).get? other = if other = name then some value else s.get? other :=
  Binding.lookup_insert name other value s.bindings

theorem ext_get? {s t : Store} (same : ∀ name, s.get? name = t.get? name) : s = t := by
  obtain ⟨left, orderedLeft⟩ := s
  obtain ⟨right, orderedRight⟩ := t
  obtain rfl : left = right := Binding.eq_of_lookup_eq orderedLeft orderedRight same
  rfl

theorem contains_set (s : Store) (name other : String) (value : Bool) :
    (s.set name value).contains other = (other == name || s.contains other) := by
  by_cases h : other = name <;> simp [contains, h]

end Store
end LatchSim
