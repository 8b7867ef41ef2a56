import LatchSim.Proofs.Expr

/-!
# How deep expressions go

The depth of an expression is found by a loop over pending expressions. `Search.turn?` is one
turn of it; every turn takes one node off, so the loop ends after as many turns as there are
nodes: `Search.turns_pendingSize`. What it finds bounds the calls that are nested when the
expression is evaluated or checked, and is reached whenever that goes well:
`Expr.depth_bounds_calls`.
-/

namespace LatchSim

namespace Expr

/-- The operands of an expression from left to right. -/
def operands : Expr → List Expr
  | signal _ => []
  | and left right | or left right => [left, right]
  | not operand => [operand]

theorem size_pos (e : Expr) : 0 < e.size := by
  cases e <;> simp [size]

theorem pendingSize_eq_zero {pending : List (Expr × Nat)} (none : pendingSize pending = 0) :
    pending = [] := by
  cases pending with
  | nil => rfl
  | cons p pending =>
    have := p.1.size_pos
    simp only [pendingSize] at none
    omega

theorem pendingSize_append (first second : List (Expr × Nat)) :
    pendingSize (first ++ second) = pendingSize first + pendingSize second := by
  induction first with
  | nil => simp [pendingSize]
  | cons p first ih => simp [pendingSize, ih, Nat.add_assoc]

/-! ## The loop -/

/-- The search for the depth of an expression: the expressions that are pending, each with its
level and the one that was pushed last first, and the deepest level found so far. -/
structure Search where
  pending : List (Expr × Nat)
  found : Nat

namespace Search

def start (e : Expr) : Search := ⟨[(e, 1)], 0⟩

/-- The operands of an expression as they are pushed, from left to right. -/
def pushed (e : Expr) (level : Nat) : List (Expr × Nat) :=
  (e.operands.map fun operand => (operand, level)).reverse

/-- One turn of the loop; none is left when nothing is pending. -/
def turn? : Search → Option Search
  | ⟨[], _⟩ => none
  | ⟨(e, level) :: pending, found⟩ => some ⟨pushed e (level + 1) ++ pending, max found level⟩

/-- So many turns, if the loop does not end before. -/
def turns : Nat → Search → Option Search
  | 0, s => some s
  | count + 1, s => s.turn?.bind (turns count)

/-- The operands have one node less than the expression that they are pushed for. -/
theorem pendingSize_pushed (e : Expr) (level : Nat) :
    pendingSize (pushed e level) + 1 = e.size := by
  cases e <;> simp [pushed, operands, pendingSize, size] <;> omega

theorem turn_cases {s t : Search} (next : s.turn? = some t) :
    ∃ e level rest, s.pending = (e, level) :: rest ∧
      t = ⟨pushed e (level + 1) ++ rest, max s.found level⟩ := by
  obtain ⟨pending, found⟩ := s
  cases pending with
  | nil => cases next
  | cons p rest => exact ⟨p.1, p.2, rest, rfl, (Option.some.inj next).symm⟩

/-- Every turn takes off one node. -/
theorem turn_pendingSize {s t : Search} (next : s.turn? = some t) :
    pendingSize t.pending + 1 = pendingSize s.pending := by
  obtain ⟨e, level, rest, pending, rfl⟩ := turn_cases next
  have operands := pendingSize_pushed e (level + 1)
  simp only [pending, pendingSize_append, pendingSize]
  omega

/-- A turn leaves the deepest level to be found where it was. -/
theorem turn_deepest {s t : Search} (next : s.turn? = some t) :
    deepest t.pending t.found = deepest s.pending s.found := by
  obtain ⟨e, level, rest, pending, rfl⟩ := turn_cases next
  cases e <;> simp [pending, pushed, operands, deepest]

theorem turn_eq_none {s : Search} (ended : s.turn? = none) : s.pending = [] := by
  obtain ⟨pending, found⟩ := s
  cases pending with
  | nil => rfl
  | cons p pending => cases ended

/-- The loop ends when all pending nodes have had their turn. -/
theorem turns_pendingSize {s : Search} {count : Nat} (nodes : pendingSize s.pending = count) :
    s.turns count = some ⟨[], deepest s.pending s.found⟩ := by
  induction count generalizing s with
  | zero =>
    obtain ⟨pending, found⟩ := s
    obtain rfl := pendingSize_eq_zero nodes
    simp [turns, deepest]
  | succ count ih =>
    cases next : s.turn? with
    | none => simp [turn_eq_none next, pendingSize] at nodes
    | some t =>
      have fewer := turn_pendingSize next
      rw [turns, next, Option.bind_some, ih (by omega), turn_deepest next]

end Search
end Expr

/-! ## Nested calls -/

/-- An answer, and the calls that were nested at the deepest place on the way to it. -/
structure Metered (α : Type) where
  answer : Except Fault α
  nesting : Nat

namespace Metered

variable {α β : Type}

/-- A call of its own around others. -/
def call (body : Metered α) : Metered α := { body with nesting := body.nesting + 1 }

instance : Monad Metered where
  pure a := ⟨.ok a, 0⟩
  bind first next :=
    match first.answer with
    | .ok a => ⟨(next a).answer, max first.nesting (next a).nesting⟩
    | .error fault => ⟨.error fault, first.nesting⟩

theorem bind_of_ok {first : Metered α} {a : α} (ok : first.answer = .ok a)
    (next : α → Metered β) :
    (first >>= next) = ⟨(next a).answer, max first.nesting (next a).nesting⟩ := by
  simp only [bind, ok]

theorem bind_of_error {first : Metered α} {fault : Fault} (failed : first.answer = .error fault)
    (next : α → Metered β) : (first >>= next) = ⟨.error fault, first.nesting⟩ := by
  simp only [bind, failed]

/-- The answer is the expected one and is found within so many nested calls: in exactly so
many, unless the way to it is cut short by a fault. -/
structure Within (m : Metered α) (expected : Except Fault α) (levels : Nat) : Prop where
  answer : m.answer = expected
  nesting_le : m.nesting ≤ levels
  nesting_eq : (∃ a, expected = .ok a) → m.nesting = levels

namespace Within

variable {m : Metered α} {expected : Except Fault α} {levels more : Nat}

theorem answered (expected : Except Fault α) : Within ⟨expected, 0⟩ expected 0 :=
  ⟨rfl, Nat.le_refl 0, fun _ => rfl⟩

theorem call (within : m.Within expected levels) : m.call.Within expected (levels + 1) where
  answer := within.answer
  nesting_le := Nat.succ_le_succ within.nesting_le
  nesting_eq ok := congrArg Nat.succ (within.nesting_eq ok)

/-- Calls made one after the other are nested as deep as the deeper of the two. -/
theorem bind {next : α → Metered β} {later : α → Except Fault β}
    (first : m.Within expected levels) (second : ∀ a, (next a).Within (later a) more) :
    (m >>= next).Within (expected >>= later) (max levels more) := by
  have answer := first.answer
  cases expected with
  | error fault =>
    rw [bind_of_error answer]
    exact ⟨rfl, Nat.le_trans first.nesting_le (Nat.le_max_left _ _), nofun⟩
  | ok a =>
    have reached := first.nesting_eq ⟨a, rfl⟩
    rw [bind_of_ok answer, reached]
    refine ⟨(second a).answer, ?_, fun ok => ?_⟩
    · have later := Nat.le_trans (second a).nesting_le (Nat.le_max_right levels more)
      exact Nat.max_le.mpr ⟨Nat.le_max_left levels more, later⟩
    · exact congrArg (max levels) ((second a).nesting_eq ok)

theorem map (first : m.Within expected levels) (f : α → β) :
    (do return f (← m)).Within (do return f (← expected)) levels := by
  have last (a : α) : (pure (f a) : Metered β).Within (pure (f a)) 0 := .answered _
  simpa using first.bind last

end Within
end Metered

namespace Expr

/-- The evaluator with its calls counted. -/
def evalMetered (s : Store) : Expr → Metered Bool
  | signal name => Metered.call ⟨s.read name, 0⟩
  | and left right => Metered.call do
    let l ← left.evalMetered s
    let r ← right.evalMetered s
    return l && r
  | or left right => Metered.call do
    let l ← left.evalMetered s
    let r ← right.evalMetered s
    return l || r
  | not operand => Metered.call do return ! (← operand.evalMetered s)

/-- The definedness check with its calls counted. -/
def checkMetered (s : Store) : Expr → Metered Unit
  | signal name => Metered.call ⟨if s.contains name then .ok () else .error (.undefined name), 0⟩
  | and left right | or left right => Metered.call do
    left.checkMetered s
    right.checkMetered s
  | not operand => Metered.call (operand.checkMetered s)

theorem evalMetered_within (s : Store) (e : Expr) :
    (e.evalMetered s).Within (e.eval s) e.height := by
  induction e with
  | signal name => exact (Metered.Within.answered (s.read name)).call
  | and left right ihl ihr => exact (ihl.bind fun l => ihr.map fun r => l && r).call
  | or left right ihl ihr => exact (ihl.bind fun l => ihr.map fun r => l || r).call
  | not operand ih => exact (ih.map fun b => ! b).call

theorem checkMetered_within (s : Store) (e : Expr) :
    (e.checkMetered s).Within (e.checkDefined s) e.height := by
  induction e with
  | signal name => exact (Metered.Within.answered _).call
  | and left right ihl ihr | or left right ihl ihr => exact (ihl.bind fun _ => ihr).call
  | not operand ih => exact ih.call

/-- The loop that finds the depth ends, after as many turns as the expression has nodes, with
nothing pending. The depth is then the height of the expression. The evaluator and the check go
no deeper in any store, and just as deep where all signals are bound. -/
theorem depth_bounds_calls (e : Expr) :
    (Search.start e).turns e.size = some ⟨[], e.depth⟩ ∧ e.depth = e.height ∧
    ∀ s, (e.evalMetered s).Within (e.eval s) e.depth ∧
      (e.checkMetered s).Within (e.checkDefined s) e.depth := by
  refine ⟨Search.turns_pendingSize rfl, e.depth_eq_height, fun s => ?_⟩
  rw [e.depth_eq_height]
  exact ⟨evalMetered_within s e, checkMetered_within s e⟩

/-- The operand on the left is the deeper one. -/
example : (Expr.and (.not (.signal "a")) (.signal "b")).depth = 3 := by cbv

end Expr
end LatchSim
