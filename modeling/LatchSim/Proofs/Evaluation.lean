import Mathlib.Data.List.Find
import LatchSim.Proofs.Update

/-!
# What expressions read

The definedness check, the evaluator and the list of signals go through an expression in one
order. Check and evaluator answer where all its signals are bound, and otherwise with the first
that is not, whatever the operands before it have decided. So an update is applied as a whole
or not at all: `Expr.walks_agree`.
-/

namespace LatchSim

/-- The name is the first of a list that is unbound. -/
def Store.Lacks (s : Store) (names : List String) (name : String) : Prop :=
  ∃ before after, names = before ++ name :: after ∧
    (∀ earlier ∈ before, s.contains earlier = true) ∧ s.contains name = false

namespace Store

variable {s t : Store} {names : List String}

theorem find?_eq_some_iff_lacks {name : String} :
    names.find? (fun name => ! s.contains name) = some name ↔ s.Lacks names name := by
  rw [List.find?_eq_some_iff_append]
  constructor
  · rintro ⟨unbound, before, after, split, bound⟩
    exact ⟨before, after, split, by simpa using bound, by simpa using unbound⟩
  · rintro ⟨before, after, split, bound, unbound⟩
    exact ⟨by simp [unbound], before, after, split, by simpa using bound⟩

theorem require_eq_error_iff_lacks {value : α} {fault : Fault} :
    s.require names value = .error fault ↔
      ∃ name, s.Lacks names name ∧ fault = .undefined name := by
  rw [require_eq_error]
  exact exists_congr fun name => and_congr find?_eq_some_iff_lacks eq_comm

theorem exists_lacks_iff :
    (∃ name, s.Lacks names name) ↔ ∃ name ∈ names, s.contains name = false := by
  constructor
  · rintro ⟨name, before, after, rfl, _, unbound⟩
    exact ⟨name, by simp, unbound⟩
  · rintro ⟨name, member, unbound⟩
    have some : (names.find? fun name => ! s.contains name).isSome = true :=
      List.find?_isSome.mpr ⟨name, member, by simp [unbound]⟩
    obtain ⟨first, found⟩ := Option.isSome_iff_exists.mp some
    exact ⟨first, find?_eq_some_iff_lacks.mp found⟩

/-- Stores that bind the names alike are asked for them with the same answer. -/
theorem require_congr {value : α} (same : ∀ name ∈ names, t.get? name = s.get? name) :
    t.require names value = s.require names value := by
  have found : names.find? (fun name => ! t.contains name) =
      names.find? fun name => ! s.contains name :=
    List.find?_congr fun name member => by rw [contains, contains, same name member]
  rw [require, require, found]

end Store

namespace Expr

/-- What it means that the check, the evaluator and the list of signals agree. -/
structure Walks (e : Expr) (s : Store) : Prop where
  checked : e.checkDefined s = .ok () ↔ ∀ name ∈ e.signals, s.contains name = true
  evaluated : (∃ value, e.eval s = .ok value) ↔ ∀ name ∈ e.signals, s.contains name = true
  /-- Both report the first signal from the left that is unbound. -/
  unchecked : ∀ fault, e.checkDefined s = .error fault ↔
    ∃ name, s.Lacks e.signals name ∧ fault = .undefined name
  unevaluated : ∀ fault, e.eval s = .error fault ↔
    ∃ name, s.Lacks e.signals name ∧ fault = .undefined name
  value : ∀ v : String → Bool, (∀ name ∈ e.signals, s.get? name = some (v name)) →
    e.eval s = .ok (e.value v)
  /-- Nothing but the signals of the expression has a say in the answers. -/
  congr : ∀ t : Store, (∀ name ∈ e.signals, t.get? name = s.get? name) →
    e.checkDefined t = e.checkDefined s ∧ e.eval t = e.eval s

theorem walks (e : Expr) (s : Store) : e.Walks s where
  checked := by simp [checkDefined_eq, Store.require_eq_ok]
  evaluated := by simp [eval_eq, Store.require_eq_ok]
  unchecked fault := by rw [checkDefined_eq, Store.require_eq_error_iff_lacks]
  unevaluated fault := by rw [eval_eq, Store.require_eq_error_iff_lacks]
  value v reads := by
    have bound : ∀ name ∈ e.signals, s.contains name = true := fun name member => by
      rw [Store.contains, reads name member, Option.isSome_some]
    rw [eval_eq, Store.require_of_contains _ bound]
    exact congrArg _ (value_congr fun name member => Store.view_of_get? (reads name member))
  congr t same := by
    have value : e.value t.view = e.value s.view :=
      value_congr fun name member => by rw [Store.view, same name member, Store.view]
    rw [checkDefined_eq, checkDefined_eq, eval_eq, eval_eq, value]
    exact ⟨Store.require_congr same, Store.require_congr same⟩

end Expr

namespace Update

/-- What it means that an update is applied as a whole or not at all. -/
structure Applies (u : Update) (s : Store) (o : Outcome) : Prop where
  fails : o.fault? ≠ none ↔ ∃ name ∈ u.expr.signals, s.contains name = false
  fault : ∀ fault, o.fault? = some fault ↔
    ∃ name, s.Lacks u.expr.signals name ∧ fault = .undefined name
  unchanged : o.fault? ≠ none → o.store = s ∧ o.log = []
  written : o.fault? = none → ∃ value, u.expr.eval s = .ok value ∧
    o.store.get? u.name = some value ∧ o.log = [.update u.name value]
  kept : ∀ name, name ≠ u.name → o.store.get? name = s.get? name

theorem applies_of_lacks {u : Update} {s : Store} {name : String}
    (lacks : s.Lacks u.expr.signals name) : u.Applies s (u.apply s) := by
  rw [apply_of_unbound (Store.find?_eq_some_iff_lacks.mpr lacks)]
  constructor
  case fails => simpa [Outcome.stopped] using Store.exists_lacks_iff.mp ⟨name, lacks⟩
  case fault =>
    intro fault
    rw [← (u.expr.walks s).unevaluated, (u.expr.walks s).unevaluated _ |>.mpr ⟨name, lacks, rfl⟩]
    simp [Outcome.stopped]
  case unchanged => exact fun _ => ⟨rfl, rfl⟩
  case written => exact fun done => nomatch done
  case kept => exact fun _ _ => rfl

theorem applies_of_bound {u : Update} {s : Store}
    (bound : ∀ name ∈ u.expr.signals, s.contains name = true) : u.Applies s (u.apply s) := by
  have evaluated : u.expr.eval s = .ok (u.expr.value s.view) :=
    (u.expr.walks s).value s.view fun name member => Store.get?_of_contains (bound name member)
  rw [apply_of_bound bound]
  constructor
  case fails => simpa [Outcome.write] using bound
  case fault =>
    intro fault
    rw [← (u.expr.walks s).unevaluated, evaluated]
    simp [Outcome.write]
  case unchanged => exact fun failed => absurd rfl failed
  case written => exact fun _ => ⟨_, evaluated, by simp [Outcome.write], rfl⟩
  case kept =>
    intro name other
    rw [Outcome.write, Store.get?_set, if_neg other]

end Update

/-- Check, evaluator and list of signals agree on every expression, and so an update either
binds its target to the value of its expression or does nothing at all. -/
theorem Expr.walks_agree (e : Expr) (s : Store) :
    e.Walks s ∧ ∀ target, Update.Applies ⟨target, e⟩ s (Update.apply ⟨target, e⟩ s) := by
  refine ⟨e.walks s, fun target => ?_⟩
  cases first : e.signals.find? fun name => ! s.contains name with
  | none => exact Update.applies_of_bound (by simpa using first)
  | some name => exact Update.applies_of_lacks (Store.find?_eq_some_iff_lacks.mp first)

/-- An operand that decides the value does not hide an unbound one. -/
example : (Expr.and (.signal "a") (.signal "b")).eval (.ofList [("a", false)]) =
    .error (.undefined "b") := by cbv

end LatchSim
