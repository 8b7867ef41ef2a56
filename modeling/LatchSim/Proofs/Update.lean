import LatchSim.Update
import LatchSim.Proofs.Expr

/-!
# Updates in order

`Update.settle` is what updates do to a store when none of them fails, and `Update.early`
lists the references that make one fail. Updates that are `Ordered` read only names that
are known before them and write only new ones: then the settled store solves all their
equations at once (`settle_solves`), and nothing else does (`settle_unique`).
-/

namespace LatchSim.Update

def targets (updates : List Update) : List String := updates.map (·.name)

/-- The store after all updates, each evaluated where it stands. -/
def settle : List Update → Store → Store
  | [], s => s
  | u :: rest, s => settle rest (s.set u.name (u.expr.value s.view))

/-- The references to names that are neither known at first nor the target of an earlier
update, in the order in which they are read. -/
def early (known : List String) : List Update → List String
  | [] => []
  | u :: rest => u.expr.signals.filter (· ∉ known) ++ early (u.name :: known) rest

/-- The references of updates in the order in which they are read, each with the number of
updates that come before its own. -/
def references (updates : List Update) : List (String × Nat) :=
  updates.zipIdx.flatMap fun (u, count) => u.expr.signals.map fun name => (name, count)

/-- Every update reads known names and writes one that is not known yet. -/
def Ordered (known : List String) : List Update → Prop
  | [] => True
  | u :: rest =>
    u.name ∉ known ∧ (∀ name ∈ u.expr.signals, name ∈ known) ∧ Ordered (u.name :: known) rest

/-! ## One update -/

theorem apply_of_bound {u : Update} {s : Store}
    (bound : ∀ name ∈ u.expr.signals, s.contains name = true) :
    u.apply s =
      .write s u.name (u.expr.value s.view) (.update u.name (u.expr.value s.view)) := by
  rw [apply, Expr.checkDefined_eq, Expr.eval_eq, Store.require_of_contains _ bound,
    Store.require_of_contains _ bound]

theorem apply_of_unbound {u : Update} {s : Store} {name : String}
    (first : u.expr.signals.find? (fun name => ! s.contains name) = some name) :
    u.apply s = .stopped s (.undefined name) := by
  rw [apply, Expr.checkDefined_eq, Store.require_eq_error.mpr ⟨name, first, rfl⟩]

/-! ## Which reference fails -/

theorem find?_unbound {s : Store} {known : List String}
    (same : ∀ name, s.contains name = true ↔ name ∈ known) (names : List String) :
    names.find? (fun name => ! s.contains name) = (names.filter (· ∉ known)).head? := by
  rw [List.head?_filter]
  refine congrArg (fun p => names.find? p) (funext fun name => ?_)
  rw [Bool.eq_iff_iff, Bool.not_eq_true', Bool.eq_false_iff, decide_eq_true_iff, Ne, same]

/-- Updates fail at the first reference that comes too early. -/
theorem applyAll_fault? {updates : List Update} {s : Store} {known : List String}
    (same : ∀ name, s.contains name = true ↔ name ∈ known) :
    (applyAll updates s).fault? = (early known updates).head?.map .undefined := by
  induction updates generalizing s known with
  | nil => rfl
  | cons u rest ih =>
    have first := find?_unbound same u.expr.signals
    cases missing : u.expr.signals.filter (· ∉ known) with
    | nil =>
      rw [missing, List.head?_nil] at first
      have bound : ∀ name ∈ u.expr.signals, s.contains name = true := by simpa using first
      have extended (name : String) :
          (s.set u.name (u.expr.value s.view)).contains name = true ↔ name ∈ u.name :: known := by
        rw [Store.contains_set_iff, same, List.mem_cons]
      rw [applyAll, apply_of_bound bound, Outcome.write_andThen, early, missing, List.nil_append]
      exact ih extended
    | cons name others =>
      rw [missing, List.head?_cons] at first
      rw [applyAll, apply_of_unbound first, early, missing]
      rfl

/-- Updates that do not fail settle the store. -/
theorem applyAll_store {updates : List Update} {s : Store}
    (ok : (applyAll updates s).fault? = none) : (applyAll updates s).store = settle updates s := by
  induction updates generalizing s with
  | nil => rfl
  | cons u rest ih =>
    cases first : u.expr.signals.find? (fun name => ! s.contains name) with
    | none =>
      have bound : ∀ name ∈ u.expr.signals, s.contains name = true := by simpa using first
      rw [applyAll, apply_of_bound bound, Outcome.write_andThen] at ok ⊢
      exact ih ok
    | some name =>
      rw [applyAll, apply_of_unbound first] at ok
      cases ok

theorem applyAll_append (first second : List Update) (s : Store) :
    applyAll (first ++ second) s = (applyAll first s).andThen (applyAll second) := by
  induction first generalizing s with
  | nil => exact (Outcome.done_andThen s (applyAll second)).symm
  | cons u rest ih =>
    rw [List.cons_append, applyAll, applyAll, Outcome.andThen_assoc]
    exact congrArg _ (funext ih)

/-- Where all updates go well, so do the first ones. -/
theorem applyAll_take {updates : List Update} {s : Store}
    (ok : (applyAll updates s).fault? = none) (count : Nat) :
    (applyAll (updates.take count) s).fault? = none := by
  rw [← List.take_append_drop count updates, applyAll_append] at ok
  cases failed : (applyAll (updates.take count) s).fault? with
  | none => rfl
  | some fault => simp [Outcome.andThen, failed] at ok

theorem early_mono {updates : List Update} {known more : List String}
    (within : ∀ name ∈ known, name ∈ more) (none : early known updates = []) :
    early more updates = [] := by
  induction updates generalizing known more with
  | nil => rfl
  | cons u rest ih =>
    obtain ⟨here, later⟩ := List.append_eq_nil_iff.mp none
    refine List.append_eq_nil_iff.mpr ⟨?_, ih ?_ later⟩
    · simp only [List.filter_eq_nil_iff, decide_not, Bool.not_eq_true', decide_eq_false_iff_not,
        Decidable.not_not] at here ⊢
      exact fun name member => within name (here name member)
    · intro name member
      rcases List.mem_cons.mp member with rfl | member
      · exact List.mem_cons_self
      · exact List.mem_cons_of_mem _ (within name member)

/-- No reference comes too early when every update reads what is known at first and the
targets of the updates before it. -/
theorem early_eq_nil_iff {updates : List Update} {known : List String} :
    early known updates = [] ↔
      ∀ k u, updates[k]? = some u → ∀ name ∈ u.expr.signals,
        name ∈ known ∨ name ∈ targets (updates.take k) := by
  induction updates generalizing known with
  | nil => simp [early]
  | cons u rest ih =>
    rw [early, List.append_eq_nil_iff, ih, List.filter_eq_nil_iff]
    constructor
    · rintro ⟨here, later⟩ k v at_ name member
      cases k with
      | zero =>
        obtain rfl : u = v := by simpa using at_
        exact .inl (by simpa using here name member)
      | succ k =>
        have := later k v (by simpa using at_) name member
        simpa [targets, or_assoc, or_left_comm] using this
    · intro all
      refine ⟨fun name member => ?_, fun k v at_ name member => ?_⟩
      · simpa [targets] using all 0 u (by simp) name member
      · have := all (k + 1) v (by simpa using at_) name member
        simpa [targets, or_assoc, or_left_comm] using this

theorem references_cons (u : Update) (rest : List Update) :
    references (u :: rest) = u.expr.signals.map (fun name => (name, 0)) ++
      (references rest).map fun r => (r.1, r.2 + 1) := by
  simp only [references, List.zipIdx_cons, List.flatMap_cons, List.zipIdx_succ,
    List.map_flatMap, List.flatMap_map, List.map_map, Function.comp_def]

/-- The early references are those that no known name and no target so far answers. -/
theorem early_eq_references (known : List String) (updates : List Update) :
    early known updates =
      ((references updates).filter fun r => r.1 ∉ known ++ targets (updates.take r.2)).map
        (·.1) := by
  induction updates generalizing known with
  | nil => rfl
  | cons u rest ih =>
    have here : (u.expr.signals.map fun name => (name, 0)).filter
        (fun r => r.1 ∉ known ++ targets ((u :: rest).take r.2)) =
        (u.expr.signals.filter (· ∉ known)).map fun name => (name, 0) := by
      simp [List.filter_map, Function.comp_def, targets]
    have later : ((references rest).map fun r => (r.1, r.2 + 1)).filter
        (fun r => r.1 ∉ known ++ targets ((u :: rest).take r.2)) =
        ((references rest).filter fun r => r.1 ∉ u.name :: known ++ targets (rest.take r.2)).map
          fun r => (r.1, r.2 + 1) := by
      simp [List.filter_map, Function.comp_def, targets, Bool.and_left_comm]
    rw [early, ih, references_cons, List.filter_append, here, later, List.map_append, List.map_map,
      List.map_map]
    simp [Function.comp_def]

theorem early_head? {known : List String} {updates : List Update} {name : String} :
    (early known updates).head? = some name ↔
      ∃ count, (references updates).find?
        (fun r => r.1 ∉ known ++ targets (updates.take r.2)) = some (name, count) := by
  rw [early_eq_references, List.head?_map, List.head?_filter]
  simp

/-! ## The settled store -/

theorem contains_settle {updates : List Update} {s : Store} {name : String} :
    (settle updates s).contains name = true ↔
      name ∈ targets updates ∨ s.contains name = true := by
  induction updates generalizing s with
  | nil => simp [settle, targets]
  | cons u rest ih =>
    rw [settle, ih, Store.contains_set_iff]
    simp [targets, or_assoc, or_left_comm]

/-- Updates change nothing but their targets. -/
theorem get?_settle_other {updates : List Update} {s : Store} {name : String}
    (untouched : name ∉ targets updates) : (settle updates s).get? name = s.get? name := by
  induction updates generalizing s with
  | nil => rfl
  | cons u rest ih =>
    simp only [targets, List.map_cons, List.mem_cons, not_or] at untouched
    rw [settle, ih untouched.2, Store.get?_set, if_neg untouched.1]

theorem Ordered.of_early {updates : List Update} {known : List String}
    (none : early known updates = []) (distinct : (targets updates).Nodup)
    (fresh : ∀ name ∈ targets updates, name ∉ known) : Ordered known updates := by
  induction updates generalizing known with
  | nil => trivial
  | cons u rest ih =>
    obtain ⟨here, later⟩ := List.append_eq_nil_iff.mp none
    obtain ⟨new, distinct⟩ := List.nodup_cons.mp distinct
    refine ⟨fresh _ List.mem_cons_self, ?_, ih later distinct ?_⟩
    · simpa using here
    · intro name member known
      rcases List.mem_cons.mp known with rfl | known
      · exact new member
      · exact fresh name (List.mem_cons_of_mem _ member) known

theorem Ordered.fresh {updates : List Update} {known : List String} {name : String}
    (ordered : Ordered known updates) (member : name ∈ known) : name ∉ targets updates := by
  induction updates generalizing known with
  | nil => exact List.not_mem_nil
  | cons u rest ih =>
    obtain ⟨new, _, ordered⟩ := ordered
    intro target
    rcases List.mem_cons.mp target with rfl | target
    · exact new member
    · exact ih ordered (List.mem_cons_of_mem _ member) target

/-- The settled store solves every equation, not only the last one written. -/
theorem settle_solves {updates : List Update} {known : List String} {s : Store} {u : Update}
    (ordered : Ordered known updates) (member : u ∈ updates) :
    (settle updates s).view u.name = u.expr.value (settle updates s).view := by
  induction updates generalizing known s with
  | nil => cases member
  | cons first rest ih =>
    obtain ⟨new, reads, later⟩ := ordered
    rcases List.mem_cons.mp member with rfl | member
    · -- What the first update read and wrote is known to the rest, and stays.
      have stays (name : String) (knows : name ∈ u.name :: known) :
          (settle rest (s.set u.name (u.expr.value s.view))).view name =
            (s.set u.name (u.expr.value s.view)).view name := by
        rw [Store.view, get?_settle_other (later.fresh knows), Store.view]
      rw [settle, stays _ List.mem_cons_self, Store.view_set, if_pos rfl]
      refine Expr.value_congr fun name read => ?_
      have different : name ≠ u.name := fun same => new (same ▸ reads name read)
      rw [stays _ (List.mem_cons_of_mem _ (reads name read)), Store.view_set, if_neg different]
    · exact ih later member

/-- Any solution that starts from the same known values is the settled store. -/
theorem settle_unique {updates : List Update} {known : List String} {s : Store}
    {v : String → Bool} (ordered : Ordered known updates)
    (solves : ∀ u ∈ updates, v u.name = u.expr.value v)
    (agrees : ∀ name ∈ known, v name = s.view name)
    {name : String} (member : name ∈ known ∨ name ∈ targets updates) :
    v name = (settle updates s).view name := by
  induction updates generalizing known s with
  | nil => exact agrees name (member.resolve_right List.not_mem_nil)
  | cons u rest ih =>
    obtain ⟨new, reads, later⟩ := ordered
    have here : v u.name = u.expr.value s.view := by
      rw [solves u List.mem_cons_self]
      exact Expr.value_congr fun name read => agrees name (reads name read)
    refine ih later (fun w inside => solves w (List.mem_cons_of_mem _ inside)) ?_ ?_
    · intro other knows
      rw [Store.view_set]
      by_cases same : other = u.name
      · rw [if_pos same, same, here]
      · rw [if_neg same]
        exact agrees other ((List.mem_cons.mp knows).resolve_left same)
    · rcases member with knows | target
      · exact .inl (List.mem_cons_of_mem _ knows)
      · rcases List.mem_cons.mp target with rfl | target
        · exact .inl List.mem_cons_self
        · exact .inr target

/-- Where several orders of the same updates go, they settle the store alike. -/
theorem settle_perm {updates reordered : List Update} {known : List String}
    (ordered : Ordered known updates) (orderedToo : Ordered known reordered)
    (perm : reordered.Perm updates) (s : Store) : settle reordered s = settle updates s := by
  have sameTargets (name : String) : name ∈ targets reordered ↔ name ∈ targets updates :=
    (perm.map (·.name)).mem_iff
  refine Store.ext_get? fun name => ?_
  by_cases target : name ∈ targets updates
  · have view : (settle updates s).view name = (settle reordered s).view name := by
      refine settle_unique orderedToo ?_ ?_ (.inr ((sameTargets name).mpr target))
      · intro u member
        exact settle_solves ordered (perm.mem_iff.mp member)
      · intro other knows
        rw [Store.view, get?_settle_other (ordered.fresh knows), Store.view]
    rw [Store.get?_of_contains (contains_settle.mpr (.inl target)), view]
    exact Store.get?_of_contains (contains_settle.mpr (.inl ((sameTargets name).mpr target)))
  · rw [get?_settle_other target, get?_settle_other (mt (sameTargets name).mp target)]

/-- Updates in order never read what their targets held before. -/
theorem applyAll_congr {updates : List Update} {known : List String} {s t : Store}
    (ordered : Ordered known updates) (bound : ∀ name ∈ known, s.contains name = true)
    (agree : ∀ name, name ∉ targets updates → s.get? name = t.get? name) :
    applyAll updates s = applyAll updates t := by
  induction updates generalizing known s t with
  | nil => rw [Store.ext_get? fun name => agree name List.not_mem_nil]
  | cons u rest ih =>
    have onKnown (name : String) (knows : name ∈ known) : s.get? name = t.get? name :=
      agree name (ordered.fresh knows)
    obtain ⟨_, reads, later⟩ := ordered
    have first : ∀ name ∈ u.expr.signals, s.contains name = true := fun name read =>
      bound name (reads name read)
    have second : ∀ name ∈ u.expr.signals, t.contains name = true := fun name read => by
      rw [Store.contains, ← onKnown name (reads name read)]
      exact first name read
    have value : u.expr.value s.view = u.expr.value t.view :=
      Expr.value_congr fun name read => by
        rw [Store.view, Store.view, onKnown name (reads name read)]
    rw [applyAll, applyAll, apply_of_bound first, apply_of_bound second, value,
      Outcome.write_andThen, Outcome.write_andThen, ih later]
    · intro name knows
      exact Store.contains_set_iff.mpr ((List.mem_cons.mp knows).imp_right (bound name))
    · intro name untouched
      rw [Store.get?_set, Store.get?_set]
      by_cases same : name = u.name
      · rw [if_pos same, if_pos same]
      · rw [if_neg same, if_neg same]
        exact agree name fun target => (List.mem_cons.mp target).elim same untouched

/-! ## Updates that change nothing -/

/-- The equation of an update holds in a store: the target is bound to the value of the
expression. -/
def Holds (s : Store) (u : Update) : Prop :=
  ∃ value, u.expr.eval s = .ok value ∧ s.read u.name = .ok value

theorem holds_of_view {s : Store} {u : Update}
    (bound : ∀ name ∈ u.expr.signals, s.contains name = true)
    (target : s.contains u.name = true) (solves : s.view u.name = u.expr.value s.view) :
    u.Holds s := by
  refine ⟨u.expr.value s.view, ?_, ?_⟩
  · rw [Expr.eval_eq, Store.require_of_contains _ bound]
  · rw [Store.read_eq_view target, solves]

theorem Holds.apply {s : Store} {u : Update} (holds : u.Holds s) :
    ∃ value, u.apply s = ⟨s, [.update u.name value], none⟩ := by
  obtain ⟨value, evaluated, read⟩ := holds
  rw [Expr.eval_eq] at evaluated
  obtain ⟨bound, rfl⟩ := Store.require_eq_ok.mp evaluated
  refine ⟨u.expr.value s.view, ?_⟩
  rw [apply_of_bound bound, Outcome.write, Store.set_eq_self (Store.read_eq_ok.mp read)]

/-- Updates whose equations hold change nothing, in whatever order and however often they
are applied. -/
theorem applyAll_of_holds {updates : List Update} {s : Store}
    (holds : ∀ u ∈ updates, u.Holds s) :
    (applyAll updates s).fault? = none ∧ (applyAll updates s).store = s := by
  induction updates with
  | nil => exact ⟨rfl, rfl⟩
  | cons u rest ih =>
    obtain ⟨value, applied⟩ := (holds u List.mem_cons_self).apply
    rw [applyAll, applied]
    exact ih fun v member => holds v (List.mem_cons_of_mem u member)

end LatchSim.Update
