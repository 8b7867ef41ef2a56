import LatchSim.Expr
import LatchSim.Proofs.Store

/-!
# Values of expressions

`Expr.value` is the Boolean value of an expression under a valuation of all names. The
evaluator and the definedness check both require the signals of the expression, from left
to right: `Expr.eval_eq`, `Expr.checkDefined_eq`. The depth that is found with a list of
pending expressions is the height of the tree: `Expr.depth_eq_height`.
-/

namespace LatchSim.Expr

def value (v : String → Bool) : Expr → Bool
  | signal name => v name
  | and left right => left.value v && right.value v
  | or left right => left.value v || right.value v
  | not operand => ! operand.value v

/-- Only the signals of an expression have a say in its value. -/
theorem value_congr {e : Expr} {v w : String → Bool} (same : ∀ name ∈ e.signals, v name = w name) :
    e.value v = e.value w := by
  induction e with
  | signal name => exact same name List.mem_cons_self
  | and left right ihl ihr | or left right ihl ihr =>
    have onLeft := ihl fun name member => same name (List.mem_append_left _ member)
    have onRight := ihr fun name member => same name (List.mem_append_right _ member)
    simp only [value, onLeft, onRight]
  | not operand ih => simp only [value, ih same]

theorem checkDefined_eq (s : Store) (e : Expr) : e.checkDefined s = s.require e.signals () := by
  induction e with
  | signal name =>
    by_cases bound : s.contains name <;> simp [checkDefined, signals, Store.require, bound]
  | and left right ihl ihr | or left right ihl ihr =>
    rw [checkDefined, ihl, ihr]
    exact s.require_bind left.signals right.signals () fun _ => ()
  | not operand ih => exact ih

theorem eval_eq (s : Store) (e : Expr) : e.eval s = s.require e.signals (e.value s.view) := by
  induction e with
  | signal name => exact s.read_eq_require name
  | and left right ihl ihr =>
    simp only [eval, ihl, ihr, pure, Except.pure, Store.require_map]
    exact s.require_bind left.signals right.signals _ fun l => l && right.value s.view
  | or left right ihl ihr =>
    simp only [eval, ihl, ihr, pure, Except.pure, Store.require_map]
    exact s.require_bind left.signals right.signals _ fun l => l || right.value s.view
  | not operand ih =>
    rw [eval, ih]
    exact s.require_map operand.signals (operand.value s.view) fun b => ! b

theorem deepest_le_iff {pending : List (Expr × Nat)} {found bound : Nat} :
    deepest pending found ≤ bound ↔
      found ≤ bound ∧ ∀ p ∈ pending, p.1.height + p.2 ≤ bound + 1 := by
  fun_induction deepest pending found with
  | case1 found => simp
  | case2 name level pending found ih =>
    rw [ih, List.forall_mem_cons, Nat.max_le, and_assoc, height]
    exact and_congr_right fun _ => and_congr_left fun _ => by omega
  | case3 left right level pending found ih | case4 left right level pending found ih =>
    simp only [ih, List.forall_mem_cons, Nat.max_le, height]
    grind
  | case5 operand level pending found ih =>
    simp only [ih, List.forall_mem_cons, Nat.max_le, height]
    grind

theorem depth_eq_height (e : Expr) : e.depth = e.height := by
  have bounds (bound : Nat) : e.depth ≤ bound ↔ e.height ≤ bound := by
    simp [depth, deepest_le_iff]
  exact Nat.le_antisymm ((bounds _).mpr Nat.le.refl) ((bounds _).mp Nat.le.refl)

end LatchSim.Expr
